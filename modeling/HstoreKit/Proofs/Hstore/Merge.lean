import HstoreKit.Proofs.Hstore.Contents
import HstoreKit.Proofs.Hstore.Unquoted

/-!
# Reading is merging

Whatever form a driver hands an hstore over in, reading it into another one does what reading it
alone and merging the result does.

* `StandsFor`: the driver values that hold an hstore, each with the hstore that it holds;
* `extend_eq_merge`: pairs are written one by one with the effect of the hstore they make;
* `writeFrom_eq_extend`: pairs may be written while the rest of the text is still to be read;
* `scanValue_eq_merge`: driver values are read by merging, and a value of another type does nothing.
-/

namespace HstoreKit

namespace PgValue

/-- The hstore that a driver value holds. NULL holds the empty one; bytes are read whatever they
are. -/
inductive StandsFor : PgValue → Hstore → Prop
  | null : StandsFor .null .empty
  | text (s : String) : StandsFor (.text s) (.parse (Utf8.encode s))
  | bytes (bs : List UInt8) : StandsFor (.bytes bs) (.parse bs)
  | hstore (h : Hstore) : StandsFor (.hstore h) h

/-- The keys that a driver value mentions. -/
def mentioned : PgValue → List String
  | .text s => (Scan.reading (Utf8.encode s)).map Prod.fst
  | .bytes bs => (Scan.reading bs).map Prod.fst
  | .hstore h => h.keys
  | _ => []

end PgValue

namespace Hstore

open Scan Scan.State

/-! ## Merging -/

theorem lookup?_merge (h other : Hstore) (key : String) :
    (h.merge other).lookup? key = (other.lookup? key).or (h.lookup? key) :=
  congrFun (contents_merge h other) key

/-- Pairs that are written into an hstore have the effect of the hstore that they make alone. -/
theorem extend_eq_merge (h : Hstore) (ps : List Pair) : h.extend ps = h.merge (ofPairs ps) := by
  apply eq_of_lookup?_eq
  intro key
  rw [lookup?_extend, lookup?_merge, lookup?_ofPairs]

theorem scan_eq_merge (h : Hstore) (bytes : List UInt8) :
    h.scan bytes = h.merge (parse bytes) := by
  rw [scan, extend_eq_merge]
  rfl

/-! ## Writing while reading -/

/-- Writes the pair that has been completed, if one has. -/
def writeRaw (h : Hstore) : Option (RawPair UInt8) → Hstore
  | none => h
  | some p => h.insert (p.toPair Utf8.lossy).1 (p.toPair Utf8.lossy).2

/-- Reads on from a state of the scanner, and writes each pair before it reads what follows. -/
def writeFrom (h : Hstore) (s : State UInt8) : List UInt8 → Hstore
  | [] => h.writeRaw s.commit.1
  | b :: bs => writeFrom (h.writeRaw (s.step Sign.ofByte b).1) (s.step Sign.ofByte b).2 bs

theorem writeRaw_eq_extend (h : Hstore) (p : Option (RawPair UInt8)) :
    h.writeRaw p = h.extend (p.toList.map (RawPair.toPair Utf8.lossy)) := by
  cases p <;> rfl

/-- What the scanner does next does not depend on what has been written. -/
theorem writeFrom_eq_extend (h : Hstore) (s : State UInt8) (bytes : List UInt8) :
    h.writeFrom s bytes = h.extend (s.pairsFrom bytes) := by
  induction bytes generalizing h s with
  | nil => exact writeRaw_eq_extend h s.commit.1
  | cons b bs ih =>
    have hpairs : s.pairsFrom (b :: bs) =
        (s.step Sign.ofByte b).1.toList.map (RawPair.toPair Utf8.lossy) ++
          (s.step Sign.ofByte b).2.pairsFrom bs := List.map_append
    rw [writeFrom, ih, writeRaw_eq_extend, hpairs, extend_append]

/-- Writing while reading merges what the text says into whatever is there. -/
theorem writeFrom_eq_merge (h : Hstore) (bytes : List UInt8) :
    h.writeFrom {} (trim (fun b => isBlank b.toNat) bytes) = h.merge (parse bytes) := by
  rw [writeFrom_eq_extend, ← scan_eq_merge]
  rfl

/-! ## Driver values -/

theorem scanValue_of_standsFor (h : Hstore) {v : PgValue} {m : Hstore} (hv : v.StandsFor m) :
    h.scanValue v = (h.merge m, .ok ()) := by
  cases hv with
  | null => rfl
  | text s => rw [scanValue, scanText, scan_eq_merge]
  | bytes bs => rw [scanValue, scan_eq_merge]
  | hstore => rfl

theorem scanValue_of_not_standsFor (h : Hstore) {v : PgValue} (hv : ∀ m, ¬ v.StandsFor m) :
    h.scanValue v = (h, .error (.invalidInputType v.typeName)) := by
  cases v with
  | null => exact absurd .null (hv _)
  | text s => exact absurd (.text s) (hv _)
  | bytes bs => exact absurd (.bytes bs) (hv _)
  | hstore g => exact absurd (.hstore g) (hv _)
  | integer | bigint | float | boolean | uuid | timestamp | json => rfl

/-- Reading fails for values of other types only. -/
theorem scanValue_eq_error_iff (h : Hstore) (v : PgValue) :
    (∃ e, (h.scanValue v).2 = .error e) ↔ ∀ m, ¬ v.StandsFor m := by
  constructor
  · rintro ⟨e, he⟩ m hm
    rw [scanValue_of_standsFor h hm] at he
    cases he
  · intro hv
    exact ⟨_, congrArg Prod.snd (scanValue_of_not_standsFor h hv)⟩

theorem lookup?_scan_of_not_mem (h : Hstore) {bytes : List UInt8} {key : String}
    (hkey : key ∉ (reading bytes).map Prod.fst) :
    (h.scan bytes).lookup? key = h.lookup? key := by
  have hfind : PairList.find? key (reading bytes).reverse = none := by
    apply PairList.find?_eq_none_of_not_mem
    rwa [List.map_reverse, List.mem_reverse]
  rw [scan, pairs_eq_reading, lookup?_extend, hfind, Option.none_or]

/-- A key that the value does not mention keeps what it had: nothing, NULL or a text. -/
theorem lookup?_scanValue_of_not_mem (h : Hstore) {v : PgValue} {key : String}
    (hkey : key ∉ v.mentioned) : (h.scanValue v).1.lookup? key = h.lookup? key := by
  cases v with
  | text s => exact lookup?_scan_of_not_mem h hkey
  | bytes bs => exact lookup?_scan_of_not_mem h hkey
  | hstore g =>
    have hnone : g.lookup? key = none := PairList.find?_eq_none_of_not_mem hkey
    have hmerge := lookup?_merge h g key
    rwa [hnone, Option.none_or] at hmerge
  | null | integer | bigint | float | boolean | uuid | timestamp | json => rfl

/-- An hstore in one of the forms in which a driver may hand it over. -/
theorem standsFor_of_mem {h : Hstore} {v : PgValue}
    (hv : v ∈ [.ofHstore? (some h), .text h.toText, .bytes (Utf8.encode h.toText), .hstore h]) :
    v.StandsFor h := by
  have hparse : parse (Utf8.encode h.toText) = h := by
    rw [parse, scan, pairs_toText]
    exact ofPairs_entries h
  have htext := PgValue.StandsFor.text h.toText
  have hbytes := PgValue.StandsFor.bytes (Utf8.encode h.toText)
  rw [hparse] at htext hbytes
  simp only [List.mem_cons, List.not_mem_nil, or_false] at hv
  rcases hv with rfl | rfl | rfl | rfl
  · exact htext
  · exact htext
  · exact hbytes
  · exact .hstore h

/-- **Every form of an hstore has the same effect, and a value of another type has none.** Reading a
driver value into an hstore merges the hstore that the value holds, which does not depend on what it
is read into; this is so too when the pairs of a text are written while it is read. A value that
holds none is refused under the name of its type. Keys that are not mentioned keep what they have,
and all forms of one hstore are merged alike. -/
theorem scanValue_eq_merge (t : Hstore) :
    (∀ v, (∃ e, (t.scanValue v).2 = .error e) ↔ ∀ m, ¬ v.StandsFor m) ∧
    (∀ v, (∀ m, ¬ v.StandsFor m) → t.scanValue v = (t, .error (.invalidInputType v.typeName))) ∧
    (∀ v m, v.StandsFor m → t.scanValue v = (t.merge m, .ok ())) ∧
    (∀ bytes, t.writeFrom {} (trim (fun b => isBlank b.toNat) bytes) = t.merge (parse bytes)) ∧
    (∀ v key, key ∉ v.mentioned → (t.scanValue v).1.lookup? key = t.lookup? key) ∧
    ∀ h v, v ∈ [.ofHstore? (some h), .text h.toText, .bytes (Utf8.encode h.toText), .hstore h] →
      t.scanValue v = (t.merge h, .ok ()) := by
  refine ⟨scanValue_eq_error_iff t, ?_, ?_, writeFrom_eq_merge t, ?_, ?_⟩
  · intro v hv
    exact scanValue_of_not_standsFor t hv
  · intro v m hv
    exact scanValue_of_standsFor t hv
  · intro v key hkey
    exact lookup?_scanValue_of_not_mem t hkey
  · intro h v hv
    exact scanValue_of_standsFor t (standsFor_of_mem hv)

end Hstore

end HstoreKit
