import HstoreKit.Hstore.Operation
import HstoreKit.Proofs.Hstore.Canonical
import HstoreKit.Proofs.Hstore.Segments
import HstoreKit.Proofs.Hstore.Written

/-!
# What stands at the keys

A finite map said by what stands at each key, and what each operation does to it. Nothing here
refers to how an hstore is kept or read: texts are read by their segments, binary forms by the
grammar of messages, objects by their members.

* `Acts`, `Runs`: operations on contents;
* `perform_acts`, `performAll_runs`: an hstore does what its contents do, step by step;
* `Shows`: what the readers of an hstore give for its contents;
* `run_as_map`: every run from the empty hstore.
-/

namespace HstoreKit

/-- What stands at each key: nothing, NULL or a text. -/
abbrev Contents := String → Option (Option String)

namespace Contents

def empty : Contents := fun _ => none

def write (m : Contents) (key : String) (value : Option String) : Contents :=
  fun i => if key = i then some value else m i

def remove (m : Contents) (key : String) : Contents :=
  fun i => if key = i then none else m i

/-- One write after the other. -/
def writeAll (m : Contents) (ps : List Pair) : Contents :=
  ps.foldl (fun m p => m.write p.1 p.2) m

/-- What the other one holds, and where it holds nothing what was there. -/
def overlay (other m : Contents) : Contents :=
  fun i => (other i).or (m i)

end Contents

namespace Hstore

/-- A text as a string, NULL as null. -/
def jsonOf : Option String → Json
  | some s => .str s
  | none => .null

/-- The object with these members. -/
def objectOf (ps : List Pair) : Json :=
  .obj (ps.map fun p => (p.1, jsonOf p.2))

open Scan (reading) in
/-- What an operation does to the contents, and what it answers. A failure leaves them as they
are. -/
inductive Acts : Operation → Contents → Contents → Answer → Prop
  | new (m : Contents) : Acts .new m .empty .done
  | clear (m : Contents) : Acts .clear m .empty .done
  | set (m : Contents) (key : String) (value : Option String) :
      Acts (.set key value) m (m.write key value) .done
  | setText (m : Contents) (key value : String) :
      Acts (.setText key value) m (m.write key (some value)) .done
  | delete (m : Contents) (key : String) :
      Acts (.delete key) m (m.remove key) (.removed (m key))
  | extend (m : Contents) (ps : List Pair) : Acts (.extend ps) m (m.writeAll ps) .done
  | merge (m : Contents) (other : Hstore) :
      Acts (.merge other) m (.overlay other.lookup? m) .done
  | ofTexts (m : Contents) (ps : List (String × String)) :
      Acts (.ofTexts ps) m (Contents.empty.writeAll (ps.map fun p => (p.1, some p.2))) .done
  | collect (m : Contents) (ps : List Pair) :
      Acts (.collect ps) m (Contents.empty.writeAll ps) .done
  | ofMap (m : Contents) (ps : List Pair) (ascending : PairList.Ascending ps) :
      Acts (.ofMap ps ascending) m (fun key => PairList.find? key ps) .done
  | scanNull (m : Contents) : Acts (.scanValue .null) m m .done
  | scanHstore (m : Contents) (other : Hstore) :
      Acts (.scanValue (.hstore other)) m (.overlay other.lookup? m) .done
  | scanColumnText (m : Contents) (text : String) :
      Acts (.scanValue (.text text)) m (m.writeAll (reading (Utf8.encode text))) .done
  | scanColumnBytes (m : Contents) (bytes : List UInt8) :
      Acts (.scanValue (.bytes bytes)) m (m.writeAll (reading bytes)) .done
  | scanOther (m : Contents) (v : PgValue)
      (other : v.typeName ∉ ["null", "hstore", "text", "bytea"]) :
      Acts (.scanValue v) m m (.failed (.invalidInputType v.typeName))
  | scanText (m : Contents) (text : String) :
      Acts (.scanText text) m (m.writeAll (reading (Utf8.encode text))) .done
  | scanBytes (m : Contents) (bytes : List UInt8) :
      Acts (.scanBytes bytes) m (m.writeAll (reading bytes)) .done
  | unmarshal (m : Contents) (v : Json) (ps : List Pair) (object : v = objectOf ps) :
      Acts (.unmarshal v) m (Contents.empty.writeAll ps) .done
  | unmarshalFails (m : Contents) (v : Json) (noObject : ∀ ps, v ≠ objectOf ps) :
      Acts (.unmarshal v) m m (.failed .typeMustBeObject)
  | decode (m : Contents) (bytes : List UInt8) (ps : List Pair)
      (message : Wire.IsMessage ps bytes) :
      Acts (.decode bytes) m (Contents.empty.writeAll ps) .done
  | decodeFails (m : Contents) (bytes : List UInt8) (fault : Wire.Fault)
      (noMessage : ∀ ps, ¬ Wire.IsMessage ps bytes) :
      Acts (.decode bytes) m m (.failed (.invalidBinary fault))

/-- Operations one after the other, each on what the ones before it left. -/
inductive Runs : List Operation → Contents → Contents → List Answer → Prop
  | nil (m : Contents) : Runs [] m m []
  | cons {op : Operation} {ops : List Operation} {m₁ m₂ m₃ : Contents} {answer : Answer}
      {answers : List Answer} (first : Acts op m₁ m₂ answer) (rest : Runs ops m₂ m₃ answers) :
      Runs (op :: ops) m₁ m₃ (answer :: answers)

/-! ## The contents of an hstore -/

theorem contents_insert (h : Hstore) (key : String) (value : Option String) :
    (h.insert key value).lookup? = Contents.write h.lookup? key value := by
  funext i
  exact lookup?_insert h key value i

theorem contents_erase (h : Hstore) (key : String) :
    (h.erase key).lookup? = Contents.remove h.lookup? key := by
  funext i
  exact lookup?_erase h key i

theorem contents_extend (h : Hstore) (ps : List Pair) :
    (h.extend ps).lookup? = Contents.writeAll h.lookup? ps := by
  induction ps generalizing h with
  | nil => rfl
  | cons p ps ih =>
    rw [extend_cons, ih, contents_insert]
    rfl

theorem contents_ofPairs (ps : List Pair) :
    (ofPairs ps).lookup? = Contents.empty.writeAll ps :=
  contents_extend empty ps

theorem contents_scan (h : Hstore) (bytes : List UInt8) :
    (h.scan bytes).lookup? = Contents.writeAll h.lookup? (Scan.reading bytes) := by
  rw [scan, pairs_eq_reading, contents_extend]

theorem contents_merge (h other : Hstore) :
    (h.merge other).lookup? = Contents.overlay other.lookup? h.lookup? := by
  have hother : ∀ i, PairList.find? i other.entries.reverse = other.lookup? i := by
    intro i
    rw [← lookup?_ofPairs, ofPairs_entries]
  funext i
  rw [merge, lookup?_extend, hother, Contents.overlay]

/-! ## Objects -/

theorem valueOf?_eq_some_iff {v : Json} {o : Option String} :
    valueOf? v = some o ↔ v = jsonOf o := by
  constructor
  · intro h
    cases v with
    | str s =>
      obtain rfl := Option.some.inj h
      rfl
    | null =>
      obtain rfl := Option.some.inj h
      rfl
    | bool | int | double | arr | obj => cases h
  · rintro rfl
    cases o <;> rfl

theorem pairsOf?_eq_some_iff {ms : List (String × Json)} {ps : List Pair} :
    pairsOf? ms = some ps ↔ ms = ps.map fun p => (p.1, jsonOf p.2) := by
  induction ms generalizing ps with
  | nil =>
    constructor
    · intro h
      obtain rfl := Option.some.inj h
      rfl
    · intro h
      rw [List.map_eq_nil_iff.1 h.symm, pairsOf?]
  | cons member ms ih =>
    obtain ⟨k, v⟩ := member
    unfold pairsOf?
    constructor
    · intro h
      split at h
      · rename_i o qs hvalue hrest
        obtain rfl := Option.some.inj h
        rw [List.map_cons, ← valueOf?_eq_some_iff.1 hvalue, ← ih.1 hrest]
      · cases h
    · intro h
      cases ps with
      | nil => cases h
      | cons p ps =>
        obtain ⟨hmember, hrest⟩ := List.cons.inj h
        obtain ⟨rfl, hvalue⟩ := Prod.mk.inj hmember
        rw [valueOf?_eq_some_iff.2 hvalue, ih.2 hrest]

theorem objectOf_injective {ps qs : List Pair} (h : objectOf ps = objectOf qs) : ps = qs := by
  have hps : pairsOf? (ps.map fun p => (p.1, jsonOf p.2)) = some ps := pairsOf?_eq_some_iff.2 rfl
  rw [pairsOf?_eq_some_iff.2 (Json.obj.inj h)] at hps
  exact (Option.some.inj hps).symm

theorem ofObject_objectOf (ps : List Pair) : ofObject (objectOf ps) = .ok (ofPairs ps) := by
  rw [objectOf, ofObject, pairsOf?_eq_some_iff.2 rfl]

theorem ofObject_eq_error {v : Json} (h : ∀ ps, v ≠ objectOf ps) :
    ofObject v = .error .typeMustBeObject := by
  cases v with
  | obj ms =>
    cases hpairs : pairsOf? ms with
    | none => simp only [ofObject, hpairs]
    | some ps => exact absurd (congrArg Json.obj (pairsOf?_eq_some_iff.1 hpairs)) (h ps)
  | null | bool | int | double | str | arr => rfl

/-! ## Steps -/

theorem scanValue_acts (h : Hstore) (v : PgValue) :
    Acts (.scanValue v) h.lookup? (h.perform (.scanValue v)).1.lookup?
      (h.perform (.scanValue v)).2 := by
  cases v with
  | null => exact .scanNull _
  | hstore other =>
    have hact := Acts.scanHstore h.lookup? other
    rwa [← contents_merge] at hact
  | text s =>
    have hact := Acts.scanColumnText h.lookup? s
    rwa [← contents_scan] at hact
  | bytes bs =>
    have hact := Acts.scanColumnBytes h.lookup? bs
    rwa [← contents_scan] at hact
  | integer | bigint | float | boolean | uuid | timestamp | json =>
    exact .scanOther _ _ (by simp [PgValue.typeName])

theorem unmarshal_acts (h : Hstore) (v : Json) :
    Acts (.unmarshal v) h.lookup? (h.perform (.unmarshal v)).1.lookup?
      (h.perform (.unmarshal v)).2 := by
  by_cases hobject : ∃ ps, v = objectOf ps
  · obtain ⟨ps, rfl⟩ := hobject
    have hact := Acts.unmarshal h.lookup? _ ps rfl
    rw [← contents_ofPairs] at hact
    rwa [perform, unmarshal, ofObject_objectOf]
  · have hnone : ∀ ps, v ≠ objectOf ps := fun ps hps => hobject ⟨ps, hps⟩
    have hact := Acts.unmarshalFails h.lookup? v hnone
    rwa [perform, unmarshal, ofObject_eq_error hnone]

theorem decode_acts (h : Hstore) (bytes : List UInt8) :
    Acts (.decode bytes) h.lookup? (h.perform (.decode bytes)).1.lookup?
      (h.perform (.decode bytes)).2 := by
  by_cases hmessage : ∃ ps, Wire.IsMessage ps bytes
  · obtain ⟨ps, hps⟩ := hmessage
    have hact := Acts.decode h.lookup? bytes ps hps
    rw [← contents_ofPairs] at hact
    rwa [perform, decodeBinary_eq_ok_iff.2 ⟨ps, hps, rfl⟩]
  · have hnone : ∀ ps, ¬ Wire.IsMessage ps bytes := fun ps hps => hmessage ⟨ps, hps⟩
    obtain ⟨fault, hfault⟩ := decodeBinary_eq_error_iff.2 hnone
    have hact := Acts.decodeFails h.lookup? bytes fault hnone
    rwa [perform, hfault]

/-- An operation does to an hstore what it does to the contents. -/
theorem perform_acts (h : Hstore) (op : Operation) :
    Acts op h.lookup? (h.perform op).1.lookup? (h.perform op).2 := by
  cases op with
  | new => exact .new _
  | clear => exact .clear _
  | set key value =>
    have hact := Acts.set h.lookup? key value
    rwa [← contents_insert] at hact
  | setText key value =>
    have hact := Acts.setText h.lookup? key value
    rwa [← contents_insert] at hact
  | delete key =>
    have hact := Acts.delete h.lookup? key
    rwa [← contents_erase] at hact
  | extend ps =>
    have hact := Acts.extend h.lookup? ps
    rwa [← contents_extend] at hact
  | merge other =>
    have hact := Acts.merge h.lookup? other
    rwa [← contents_merge] at hact
  | ofTexts ps =>
    have hact := Acts.ofTexts h.lookup? ps
    rwa [← contents_ofPairs] at hact
  | collect ps =>
    have hact := Acts.collect h.lookup? ps
    rwa [← contents_ofPairs] at hact
  | ofMap ps ascending => exact .ofMap _ ps ascending
  | scanValue v => exact scanValue_acts h v
  | scanText text =>
    have hact := Acts.scanText h.lookup? text
    rwa [← contents_scan] at hact
  | scanBytes bytes =>
    have hact := Acts.scanBytes h.lookup? bytes
    rwa [← contents_scan] at hact
  | unmarshal v => exact unmarshal_acts h v
  | decode bytes => exact decode_acts h bytes

theorem performAll_runs (h : Hstore) (ops : List Operation) :
    Runs ops h.lookup? (h.performAll ops).1.lookup? (h.performAll ops).2 := by
  induction ops generalizing h with
  | nil => exact .nil _
  | cons op ops ih => exact .cons (h.perform_acts op) (ih (h.perform op).1)

/-- The contents after an operation are determined. -/
theorem Acts.unique {op : Operation} {m m₁ m₂ : Contents} {a₁ a₂ : Answer} (h₁ : Acts op m m₁ a₁)
    (h₂ : Acts op m m₂ a₂) : m₁ = m₂ := by
  cases h₁ with
  | new | clear | set | setText | delete | extend | merge | ofTexts | collect | ofMap
  | scanText | scanBytes =>
    cases h₂
    rfl
  | scanNull | scanHstore | scanColumnText | scanColumnBytes =>
    cases h₂ with
    | scanOther _ _ other => simp [PgValue.typeName] at other
    | _ => rfl
  | scanOther _ v other =>
    cases h₂ with
    | scanOther => rfl
    | _ => simp [PgValue.typeName] at other
  | unmarshal _ v ps object =>
    cases h₂ with
    | unmarshal _ _ qs object' => rw [objectOf_injective (object.symm.trans object')]
    | unmarshalFails _ _ noObject => exact absurd object (noObject ps)
  | unmarshalFails _ v noObject =>
    cases h₂ with
    | unmarshal _ _ qs object' => exact absurd object' (noObject qs)
    | unmarshalFails => rfl
  | decode _ bytes ps message =>
    cases h₂ with
    | decode _ _ qs message' => rw [message.unique message']
    | decodeFails _ _ _ noMessage => exact absurd message (noMessage ps)
  | decodeFails _ bytes fault noMessage =>
    cases h₂ with
    | decode _ _ qs message' => exact absurd message' (noMessage qs)
    | decodeFails => rfl

theorem Runs.unique {ops : List Operation} {m m₁ m₂ : Contents} {as₁ as₂ : List Answer}
    (h₁ : Runs ops m m₁ as₁) (h₂ : Runs ops m m₂ as₂) : m₁ = m₂ := by
  induction h₁ generalizing m₂ as₂ with
  | nil =>
    cases h₂
    rfl
  | cons first _ ih =>
    cases h₂ with
    | cons first' rest' =>
      obtain rfl := first.unique first'
      exact ih rest'

/-! ## Readers -/

/-- What the readers of an hstore give, said by what stands at each key. A missing key, NULL and the
empty text are told apart by `lookup?`, NULL and a missing key no longer by `get?`, and none of them
by `getText`. -/
structure Shows (h : Hstore) (m : Contents) : Prop where
  lookup? : ∀ key, h.lookup? key = m key
  contains : ∀ key, h.contains key = true ↔ ∃ value, m key = some value
  get? : ∀ key text, h.get? key = some text ↔ m key = some (some text)
  getText : ∀ key, h.getText key = match m key with
    | some (some text) => text
    | some none => ""
    | none => ""
  keys_ascend : (h.keys.map Utf8.encode).Pairwise (· < ·)
  mem_keys : ∀ key, key ∈ h.keys ↔ ∃ value, m key = some value
  size : h.size = h.keys.length
  isEmpty : h.isEmpty = true ↔ ∀ key, m key = none
  walk : ∀ n, (h.cursor.walk n).1 =
    (h.keys.map (fun key => (m key).map (key, ·)) ++ [none]).take n
  left : ∀ n, (h.cursor.walk n).2.left = h.keys.length - n

theorem mem_keys_iff {h : Hstore} {key : String} :
    key ∈ h.keys ↔ ∃ value, h.lookup? key = some value := by
  constructor
  · intro hkey
    obtain ⟨p, hp, rfl⟩ := List.mem_map.1 hkey
    exact ⟨p.2, PairList.find?_eq_some_of_mem h.ascending hp⟩
  · rintro ⟨value, hvalue⟩
    exact List.mem_map.2 ⟨_, PairList.mem_of_find?_eq_some hvalue, rfl⟩

theorem isEmpty_iff {h : Hstore} : h.isEmpty = true ↔ ∀ key, h.lookup? key = none := by
  rw [isEmpty, List.isEmpty_iff]
  constructor
  · intro hentries key
    rw [lookup?, hentries]
    rfl
  · intro hnone
    apply List.eq_nil_iff_forall_not_mem.2
    intro p hp
    have hfind : h.lookup? p.1 = some p.2 := PairList.find?_eq_some_of_mem h.ascending hp
    rw [hnone p.1] at hfind
    cases hfind

theorem entries_eq (h : Hstore) :
    h.entries.map some = h.keys.map fun key => (h.lookup? key).map (key, ·) := by
  rw [keys, List.map_map]
  apply List.map_congr_left
  intro p hp
  have hfind : h.lookup? p.1 = some p.2 := PairList.find?_eq_some_of_mem h.ascending hp
  rw [Function.comp_apply, hfind]
  rfl

theorem Cursor.walk_fst (n : Nat) (l : List Pair) :
    (Cursor.walk n ⟨l⟩).1 = (l.map some ++ [none]).take n := by
  induction n generalizing l with
  | zero => rfl
  | succ n ih =>
    cases l with
    | nil => simp [walk, next?]
    | cons p l =>
      rw [List.map_cons, List.cons_append, List.take_succ_cons, ← ih]
      rfl

theorem Cursor.walk_left (n : Nat) (l : List Pair) :
    (Cursor.walk n ⟨l⟩).2.left = l.length - n := by
  induction n generalizing l with
  | zero => rfl
  | succ n ih =>
    cases l with
    | nil => simp [walk, next?, left]
    | cons p l =>
      rw [List.length_cons, Nat.add_sub_add_right, ← ih]
      rfl

theorem shows_lookup? (h : Hstore) : h.Shows h.lookup? where
  lookup? := fun _ => rfl
  contains := fun key => Option.isSome_iff_exists
  get? := fun key text => Option.join_eq_some_iff
  getText := by
    intro key
    rw [getText, Hstore.get?]
    cases h.lookup? key with
    | none => rfl
    | some value => cases value <;> rfl
  keys_ascend := by
    rw [keys, List.map_map]
    exact ascending_iff_encode.1 h.ascending
  mem_keys := fun key => mem_keys_iff
  size := (List.length_map _).symm
  isEmpty := isEmpty_iff
  walk := by
    intro n
    rw [← entries_eq]
    exact Cursor.walk_fst n h.entries
  left := by
    intro n
    rw [keys, List.length_map]
    exact Cursor.walk_left n h.entries

/-! ## Forms -/

theorem eq_of_entries_eq {h g : Hstore} (e : h.entries = g.entries) : h = g := by
  rw [← ofPairs_entries h, e, ofPairs_entries]

theorem pairs_toText (h : Hstore) :
    Scan.pairs UInt8.toNat Utf8.lossy (Utf8.encode h.toText) = h.entries := by
  have hpairs : (h.entries.map Written.ofPair).map Written.pair = h.entries := by
    simp [Function.comp_def]
  rw [toText_eq_writtenText, pairs_writtenText, hpairs]

theorem eq_of_toText_eq {h g : Hstore} (e : h.toText = g.toText) : h = g := by
  apply eq_of_entries_eq
  rw [← pairs_toText h, e, pairs_toText]

theorem toObject_eq (h : Hstore) : h.toObject = objectOf h.entries := by
  apply congrArg Json.obj
  apply List.map_congr_left
  rintro ⟨key, value⟩ -
  cases value <;> rfl

theorem eq_of_toObject_eq {h g : Hstore} (e : h.toObject = g.toObject) : h = g := by
  rw [toObject_eq, toObject_eq] at e
  exact eq_of_entries_eq (objectOf_injective e)

theorem eq_of_encodeBinary_eq {h g : Hstore} {bytes : List UInt8}
    (hh : h.encodeBinary = .ok bytes) (hg : g.encodeBinary = .ok bytes) : h = g :=
  eq_of_entries_eq ((encodeBinary_eq_ok_iff.1 hh).unique (encodeBinary_eq_ok_iff.1 hg))

/-! ## Runs -/

/-- The hstore after a run from the empty one. -/
def after (ops : List Operation) : Hstore :=
  (empty.performAll ops).1

/-- **An hstore is a finite map over whole runs.** Whatever operations are performed from the empty
hstore, they act on its contents as the operations on a map do, these contents are the only ones
they lead to, and the readers show them. As the first part of a run is a run, this holds after every
step. After any two runs the hstores are equal exactly when the same stands at every key, and then
so are their forms; and a text, an object or a binary form is that of one hstore only. -/
theorem run_as_map :
    (∀ ops, ∃ m, Runs ops .empty m (empty.performAll ops).2 ∧
      (∀ n answers, Runs ops .empty n answers → n = m) ∧ (after ops).Shows m) ∧
    ∀ ops ops',
      (after ops = after ops' ↔ ∀ key, (after ops).lookup? key = (after ops').lookup? key) ∧
      ((∀ key, (after ops).lookup? key = (after ops').lookup? key) →
        (after ops).toText = (after ops').toText ∧
        (after ops).encodeBinary = (after ops').encodeBinary ∧
        (after ops).toObject = (after ops').toObject) ∧
      ((after ops).toText = (after ops').toText → after ops = after ops') ∧
      ((after ops).toObject = (after ops').toObject → after ops = after ops') ∧
      ∀ bytes, (after ops).encodeBinary = .ok bytes → (after ops').encodeBinary = .ok bytes →
        after ops = after ops' := by
  constructor
  · intro ops
    have hrun : Runs ops Contents.empty (after ops).lookup? (empty.performAll ops).2 :=
      performAll_runs empty ops
    exact ⟨_, hrun, fun _ _ h => h.unique hrun, shows_lookup? (after ops)⟩
  · intro ops ops'
    refine ⟨⟨?_, eq_of_lookup?_eq⟩, ?_, eq_of_toText_eq, eq_of_toObject_eq, ?_⟩
    · intro h key
      rw [h]
    · intro h
      rw [eq_of_lookup?_eq h]
      exact ⟨rfl, rfl, rfl⟩
    · intro bytes h h'
      exact eq_of_encodeBinary_eq h h'

end Hstore

end HstoreKit
