import HstoreKit.Proofs.Hstore.Object
import HstoreKit.Proofs.Json.Grammar

/-!
# Hstores and the texts of objects

A text is read into an hstore member by member, or it is parsed to a value that is then read as an
object. Both ways take the texts that the grammar allows with strings and nulls for values, and give
the same. The value no longer shows the members that a later one overwrites, so the second way also
takes texts in which only those are something else.

* `TextOrNull`: strings and nulls as they stand in a text;
* `ofJsonText_eq_ok_iff`, `parse?_eq_objectOf_iff`: both ways and the grammar;
* `isTextObject_collapse_iff`: which members the value shows;
* `ofJsonText_agrees`: both ways compared.
-/

namespace HstoreKit

namespace Json

/-! ## Values that are no strings and no nulls -/

/-- A whole number or a double. -/
def IsNumber (v : Json) : Prop :=
  (∃ n, v = .int n) ∨ ∃ x, v = .double x

theorem isNumber_of_number? {negative : Bool} {whole fraction : List Nat} {exponent : Option Int}
    {v : Json} (h : number? negative whole fraction exponent = some v) : v.IsNumber := by
  unfold number? at h
  simp only at h
  split at h
  · exact .inl ⟨_, (Option.some.inj h).symm⟩
  · split at h
    · exact .inl ⟨_, (Option.some.inj h).symm⟩
    · obtain ⟨x, -, rfl⟩ := Option.map_eq_some_iff.1 h
      exact .inr ⟨x, rfl⟩

theorem isNumber_of_unsigned? {negative : Bool} {cs rest : List Char} {v : Json}
    (h : unsigned? negative cs = some (v, rest)) : v.IsNumber := by
  unfold unsigned? at h
  simp only at h
  split at h
  · cases h
  · cases h
  · split at h
    · cases h
    · split at h
      · cases h
      · obtain ⟨w, hw, heq⟩ := Option.map_eq_some_iff.1 h
        cases heq
        exact isNumber_of_number? hw

theorem scalar?_ne_obj {cs rest : List Char} {ms : List (String × Json)} :
    scalar? cs ≠ some (.obj ms, rest) := by
  intro h
  unfold scalar? at h
  split at h
  · cases h
  · cases h
  · cases h
  · obtain ⟨s, -, heq⟩ := Option.map_eq_some_iff.1 h
    cases heq
  · rcases isNumber_of_unsigned? h with ⟨n, hn⟩ | ⟨x, hx⟩
    · cases hn
    · cases hx
  · rcases isNumber_of_unsigned? h with ⟨n, hn⟩ | ⟨x, hx⟩
    · cases hn
    · cases hx

/-- An object is read behind its brace, with one budget less for its members. -/
theorem value?_eq_obj_iff {budget : Nat} {cs rest : List Char} {ms : List (String × Json)} :
    value? (budget + 1) cs = some (.obj ms, rest) ↔
      ∃ ds, Blanks cs ('\x7b' :: ds) ∧
        group? (memberOf? (value? budget)) '\x7d' ds = some (ms, rest) := by
  constructor
  · intro h
    unfold value? at h
    split at h
    · obtain ⟨r, -, heq⟩ := Option.map_eq_some_iff.1 h
      cases heq
    · rename_i ds hopen
      obtain ⟨r, hgroup, heq⟩ := Option.map_eq_some_iff.1 h
      cases heq
      exact ⟨ds, (blanks_cons_iff rfl).2 hopen, hgroup⟩
    · exact absurd h scalar?_ne_obj
  · rintro ⟨ds, hopen, hgroup⟩
    rw [value?, (blanks_cons_iff rfl).1 hopen]
    simp [hgroup]

theorem parse?_eq_some_iff {text : String} {v : Json} :
    parse? text = some v ↔
      ∃ rest, value? maxDepth text.toList = some (v, rest) ∧ Blanks rest [] := by
  rw [parse?, parseWithin?]
  constructor
  · intro h
    split at h
    · rename_i w rest hvalue
      split at h
      · rename_i hend
        cases h
        exact ⟨rest, hvalue, blanks_nil_iff.2 (List.isEmpty_iff.1 hend)⟩
      · cases h
    · cases h
  · rintro ⟨rest, hvalue, hend⟩
    simp [hvalue, blanks_nil_iff.1 hend]

/-! ## Overwritten members -/

theorem isTextual_collapse_iff {v : Json} : v.collapse.IsTextual ↔ v.IsTextual := by
  cases v with
  | arr | obj => simp [collapse, IsTextual]
  | null | bool | int | double | str => rw [collapse] <;> simp

/-- The value shows the members whose name does not recur behind them, and no others. -/
theorem isTextObject_collapse_iff {ms : List (String × Json)} :
    (obj ms).collapse.IsTextObject ↔
      ∀ before m behind, ms = before ++ m :: behind → m.1 ∉ behind.map Prod.fst →
        m.2.IsTextual := by
  have hshown : (obj ms).collapse =
      obj ((PairList.ofList ms).map fun m => (m.1, m.2.collapse)) := by
    rw [collapse, collapseMembers_eq_map, PairList.ofList_map]
  rw [hshown]
  constructor
  · rintro ⟨ns, hns, htextual⟩ before m behind hms hlast
    cases hns
    have hm := PairList.mem_ofList_iff.2 ⟨before, behind, hms, hlast⟩
    exact isTextual_collapse_iff.1 (htextual _ (List.mem_map_of_mem hm))
  · intro h
    refine ⟨_, rfl, ?_⟩
    intro n hn
    obtain ⟨m, hm, rfl⟩ := List.mem_map.1 hn
    obtain ⟨before, behind, hms, hlast⟩ := PairList.mem_ofList_iff.1 hm
    exact isTextual_collapse_iff.2 (h before m behind hms hlast)

/-- Where no name recurs the value shows every member. -/
theorem isTextObject_of_collapse {v : Json} (hnames : v.names.Nodup)
    (h : v.collapse.IsTextObject) : v.IsTextObject := by
  cases v with
  | obj ms =>
    refine ⟨ms, rfl, ?_⟩
    intro m hm
    obtain ⟨before, behind, rfl⟩ := List.append_of_mem hm
    refine isTextObject_collapse_iff.1 h before m behind rfl ?_
    rw [names, List.map_append, List.map_cons] at hnames
    exact (List.nodup_cons.1 hnames.of_append_right).1
  | arr | null | bool | int | double | str =>
    obtain ⟨ms, hms, -⟩ := h
    rw [collapse] at hms <;> cases hms

end Json

namespace Hstore

/-! ## Strings and nulls -/

/-- A string or null at the front of a text, what it stands for, and what follows it. -/
inductive TextOrNull : List Char → Option String → List Char → Prop
  | null (rest : List Char) : TextOrNull ('n' :: 'u' :: 'l' :: 'l' :: rest) none rest
  | text {cs rest : List Char} {s : String} (h : Json.Characters cs s.toList rest) :
      TextOrNull ('"' :: cs) (some s) rest

variable {cs rest : List Char} {value : Option String}

theorem TextOrNull.length_le (h : TextOrNull cs value rest) : rest.length ≤ cs.length := by
  cases h with
  | null =>
    simp only [List.length_cons]
    omega
  | text h => exact Nat.le_succ_of_le (Nat.le_of_lt h.length_lt)

/-- No blank stands before the value. -/
theorem TextOrNull.skipBlank_eq (h : TextOrNull cs value rest) : Json.skipBlank cs = cs := by
  cases h with
  | null => exact Json.skipBlank_cons rfl _
  | text => exact Json.skipBlank_cons rfl _

theorem value?_reads : Json.Reads value? (fun value => value) TextOrNull := by
  intro cs value rest
  constructor
  · intro h
    unfold value? at h
    split at h
    · rename_i ds hskip
      cases h
      exact ⟨_, (Json.blanks_cons_iff rfl).2 hskip, .null rest⟩
    · rename_i ds hskip
      obtain ⟨⟨s, rest'⟩, hstring, heq⟩ := Option.map_eq_some_iff.1 h
      cases heq
      exact ⟨_, (Json.blanks_cons_iff rfl).2 hskip, .text (Json.string?_eq_some_iff.1 hstring)⟩
    · cases h
  · rintro ⟨ds, hblanks, hvalue⟩
    rw [value?, hblanks.skipBlank_eq, hvalue.skipBlank_eq]
    cases hvalue with
    | null => rfl
    | text h => simp [Json.string?_eq_some_iff.2 h]

theorem scalar?_eq_jsonOf_iff :
    Json.scalar? cs = some (jsonOf value, rest) ↔ TextOrNull cs value rest := by
  constructor
  · intro h
    have hnumber : ¬ (jsonOf value).IsNumber := by
      rintro (⟨n, hn⟩ | ⟨x, hx⟩)
      · cases value <;> cases hn
      · cases value <;> cases hx
    unfold Json.scalar? at h
    split at h
    · cases value with
      | none =>
        cases h
        exact .null rest
      | some s => cases h
    · cases value <;> cases h
    · cases value <;> cases h
    · obtain ⟨⟨s, rest'⟩, hstring, heq⟩ := Option.map_eq_some_iff.1 h
      cases value with
      | none => cases heq
      | some t =>
        cases heq
        exact .text (Json.string?_eq_some_iff.1 hstring)
    · exact absurd (Json.isNumber_of_unsigned? h) hnumber
    · exact absurd (Json.isNumber_of_unsigned? h) hnumber
  · rintro (_ | h)
    · rfl
    · rw [Json.scalar?, Json.string?_eq_some_iff.2 h]
      rfl

/-- A reader of all values takes strings and nulls where the rule allows them. -/
theorem jsonValue?_reads (budget : Nat) : Json.Reads (Json.value? budget) jsonOf TextOrNull := by
  intro cs value rest
  constructor
  · intro h
    refine ⟨_, Json.blanks_skipBlank cs, scalar?_eq_jsonOf_iff.1 ?_⟩
    cases budget with
    | zero => exact h
    | succ budget =>
      rw [Json.value?] at h
      split at h
      · obtain ⟨r, -, heq⟩ := Option.map_eq_some_iff.1 h
        cases value <;> cases heq
      · obtain ⟨r, -, heq⟩ := Option.map_eq_some_iff.1 h
        cases value <;> cases heq
      · exact h
  · rintro ⟨ds, hblanks, hvalue⟩
    have hscalar := scalar?_eq_jsonOf_iff.2 hvalue
    cases budget with
    | zero => rwa [Json.value?, hblanks.skipBlank_eq, hvalue.skipBlank_eq]
    | succ budget =>
      rw [Json.value?, hblanks.skipBlank_eq, hvalue.skipBlank_eq]
      cases hvalue <;> exact hscalar

/-! ## Both ways -/

section

variable {text : String}

theorem members?_eq_some_iff {ps : List Pair} :
    members? cs = some (ps, rest) ↔
      ∃ ds, Json.Blanks cs ('\x7b' :: ds) ∧ Json.Body TextOrNull ds ps rest := by
  have hgroup (ds : List Char) : Json.group? (Json.memberOf? value?) '\x7d' ds = some (ps, rest) ↔
      Json.Body TextOrNull ds ps rest := by
    rw [← value?_reads.group?_eq_some_iff TextOrNull.length_le, List.map_id']
  constructor
  · intro h
    unfold members? at h
    split at h
    · rename_i ds hopen
      exact ⟨ds, (Json.blanks_cons_iff rfl).2 hopen, (hgroup ds).1 h⟩
    · cases h
  · rintro ⟨ds, hopen, hbody⟩
    rw [members?, (Json.blanks_cons_iff rfl).1 hopen]
    exact (hgroup ds).2 hbody

/-- What the grammar allows is read, and nothing else. -/
theorem ofJsonText_eq_ok_iff {h : Hstore} :
    ofJsonText text = .ok h ↔
      ∃ ps, Json.IsObjectText TextOrNull text ps ∧ h = ofPairs ps := by
  rw [ofJsonText]
  constructor
  · intro hread
    split at hread
    · rename_i ps rest hmembers
      split at hread
      · rename_i hend
        obtain ⟨cs, hopen, hbody⟩ := members?_eq_some_iff.1 hmembers
        have hrest := Json.blanks_nil_iff.2 (List.isEmpty_iff.1 hend)
        exact ⟨ps, ⟨cs, rest, hopen, hbody, hrest⟩, (Except.ok.inj hread).symm⟩
      · cases hread
    · cases hread
  · rintro ⟨ps, ⟨cs, rest, hopen, hbody, hrest⟩, rfl⟩
    simp [members?_eq_some_iff.2 ⟨cs, hopen, hbody⟩, Json.blanks_nil_iff.1 hrest]

/-- What the grammar allows is parsed to the object of its pairs. -/
theorem parse?_eq_objectOf_iff {ps : List Pair} :
    Json.parse? text = some (objectOf ps) ↔ Json.IsObjectText TextOrNull text ps := by
  have hgroup (cs rest : List Char) :
      Json.group? (Json.memberOf? (Json.value? 126)) '\x7d' cs =
        some (ps.map fun p => (p.1, jsonOf p.2), rest) ↔ Json.Body TextOrNull cs ps rest :=
    (jsonValue?_reads 126).group?_eq_some_iff TextOrNull.length_le
  rw [Json.parse?_eq_some_iff]
  constructor
  · rintro ⟨rest, hvalue, hend⟩
    obtain ⟨cs, hopen, hmembers⟩ := Json.value?_eq_obj_iff.1 hvalue
    exact ⟨cs, rest, hopen, (hgroup cs rest).1 hmembers, hend⟩
  · rintro ⟨cs, rest, hopen, hbody, hend⟩
    exact ⟨rest, Json.value?_eq_obj_iff.2 ⟨cs, hopen, (hgroup cs rest).2 hbody⟩, hend⟩

theorem ofJsonText_eq_ok_iff_parse? {h : Hstore} :
    ofJsonText text = .ok h ↔ ∃ ps, Json.parse? text = some (objectOf ps) ∧ h = ofPairs ps := by
  simp only [ofJsonText_eq_ok_iff, parse?_eq_objectOf_iff]

theorem eq_malformed_of_ofJsonText {e : HstoreError} (h : ofJsonText text = .error e) :
    e = .serialization .malformed := by
  unfold ofJsonText at h
  split at h
  · split at h
    · cases h
    · exact (Except.error.inj h).symm
  · exact (Except.error.inj h).symm

theorem ofJsonText_eq_error_iff {e : HstoreError} :
    ofJsonText text = .error e ↔
      (∀ ps, ¬ Json.IsObjectText TextOrNull text ps) ∧ e = .serialization .malformed := by
  constructor
  · intro hread
    refine ⟨?_, eq_malformed_of_ofJsonText hread⟩
    intro ps hps
    rw [ofJsonText_eq_ok_iff.2 ⟨ps, hps, rfl⟩] at hread
    cases hread
  · rintro ⟨hnone, rfl⟩
    cases hread : ofJsonText text with
    | ok h =>
      obtain ⟨ps, hps, -⟩ := ofJsonText_eq_ok_iff.1 hread
      exact absurd hps (hnone ps)
    | error e => rw [eq_malformed_of_ofJsonText hread]

theorem ofObject_collapse_objectOf (ps : List Pair) :
    ofObject (objectOf ps).collapse = .ok (ofPairs ps) := by
  rw [collapse_objectOf, ofObject_toObject]

theorem exists_ofJsonText_iff {v : Json} (hparse : Json.parse? text = some v) :
    (∃ h, ofJsonText text = .ok h) ↔ v.IsTextObject := by
  rw [isTextObject_iff]
  constructor
  · rintro ⟨h, hread⟩
    obtain ⟨ps, hps, -⟩ := ofJsonText_eq_ok_iff_parse?.1 hread
    rw [hparse] at hps
    exact ⟨ps, Option.some.inj hps⟩
  · rintro ⟨ps, rfl⟩
    exact ⟨ofPairs ps, ofJsonText_eq_ok_iff_parse?.2 ⟨ps, hparse, rfl⟩⟩

/-- Where both ways succeed they give the same. -/
theorem ofJsonText_of_ofObject {v : Json} {h : Hstore} (hparse : Json.parse? text = some v)
    (hv : v.IsTextObject) (hobject : ofObject v.collapse = .ok h) : ofJsonText text = .ok h := by
  obtain ⟨ps, rfl⟩ := isTextObject_iff.1 hv
  rw [ofObject_collapse_objectOf] at hobject
  obtain rfl := Except.ok.inj hobject
  exact ofJsonText_eq_ok_iff_parse?.2 ⟨ps, hparse, rfl⟩

end

/-- **Reading a text as an object and reading its value agree but for overwritten members.** A text
is read exactly when the grammar allows it with strings and nulls for values, that is when it is
parsed to an object whose members are all strings or null, those that a later one overwrites
included; the value is then read as the same hstore. Conversely what the value gives is read from
the text when no name recurs in it. The value refuses fewer texts: it does not see the members
whose name recurs behind them. -/
theorem ofJsonText_agrees (text : String) :
    (∀ h, ofJsonText text = .ok h ↔
      ∃ ps, Json.IsObjectText TextOrNull text ps ∧ h = ofPairs ps) ∧
    (∀ ps, Json.parse? text = some (objectOf ps) ↔ Json.IsObjectText TextOrNull text ps) ∧
    (∀ e, ofJsonText text = .error e ↔
      (∀ ps, ¬ Json.IsObjectText TextOrNull text ps) ∧ e = .serialization .malformed) ∧
    ((∃ h, ofJsonText text = .ok h) ↔ ∃ v, Json.parse? text = some v ∧ v.IsTextObject) ∧
    (∀ h, ofJsonText text = .ok h →
      ∃ v, Json.parse? text = some v ∧ ofObject v.collapse = .ok h) ∧
    (∀ v h, Json.parse? text = some v → v.names.Nodup → ofObject v.collapse = .ok h →
      ofJsonText text = .ok h) ∧
    ∀ ms, Json.parse? text = some (.obj ms) →
      ((∃ h, ofJsonText text = .ok h) ↔ ∀ m ∈ ms, m.2.IsTextual) ∧
      ((∃ h, ofObject (Json.obj ms).collapse = .ok h) ↔
        ∀ before m behind, ms = before ++ m :: behind → m.1 ∉ behind.map Prod.fst →
          m.2.IsTextual) := by
  refine ⟨fun h => ofJsonText_eq_ok_iff, fun ps => parse?_eq_objectOf_iff,
    fun e => ofJsonText_eq_error_iff, ?_, ?_, ?_, ?_⟩
  · constructor
    · rintro ⟨h, hread⟩
      obtain ⟨ps, hparse, -⟩ := ofJsonText_eq_ok_iff_parse?.1 hread
      exact ⟨objectOf ps, hparse, isTextObject_iff.2 ⟨ps, rfl⟩⟩
    · rintro ⟨v, hparse, hv⟩
      exact (exists_ofJsonText_iff hparse).2 hv
  · intro h hread
    obtain ⟨ps, hparse, rfl⟩ := ofJsonText_eq_ok_iff_parse?.1 hread
    exact ⟨objectOf ps, hparse, ofObject_collapse_objectOf ps⟩
  · intro v h hparse hnames hobject
    have hv := Json.isTextObject_of_collapse hnames (ofObject_eq_ok_iff_toObject.1 hobject).1
    exact ofJsonText_of_ofObject hparse hv hobject
  · intro ms hparse
    constructor
    · rw [exists_ofJsonText_iff hparse]
      constructor
      · rintro ⟨ns, hns, htextual⟩
        cases hns
        exact htextual
      · intro htextual
        exact ⟨ms, rfl, htextual⟩
    · rw [← Json.isTextObject_collapse_iff]
      exact exists_ofObject_iff

/-- The value does not show the member that is neither a string nor null. -/
example : let text := "\x7b\"a\":true,\"a\":null\x7d"
    ofJsonText text = .error (.serialization .malformed) ∧
    (Json.parse? text).map (fun v => ofObject v.collapse) =
      some (.ok (ofPairs [("a", none)])) := by
  exact ⟨rfl, by cbv⟩

end Hstore

end HstoreKit
