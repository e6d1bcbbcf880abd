import HstoreKit.Proofs.Hstore.Contents
import HstoreKit.Proofs.Json.Settled

/-!
# Hstores and objects

The objects whose members are strings and nulls are those of hstores. An object is read member by
member, and the members before one that is neither are written before the fault is found; reading
them aside keeps them out of an hstore whose contents were to be replaced.

* `IsTextObject`: an object of strings and nulls;
* `writeMembers`: members that are written as they are read;
* `ofObject_eq_writeMembers`: an object is read by writing its members into the empty hstore;
* `collapse_objectOf`: what the object of some pairs means is the object of the hstore they make;
* `ofObject_iff_toObject`: both conversions, and what replacing the contents leaves.
-/

namespace HstoreKit

namespace Json

/-- A string or null. -/
def IsTextual (v : Json) : Prop :=
  v = .null ∨ ∃ s, v = .str s

/-- An object whose members are all strings or null. -/
def IsTextObject (v : Json) : Prop :=
  ∃ ms, v = .obj ms ∧ ∀ m ∈ ms, m.2.IsTextual

end Json

namespace Hstore

theorem isTextual_iff {v : Json} : v.IsTextual ↔ ∃ o, v = jsonOf o := by
  constructor
  · rintro (rfl | ⟨s, rfl⟩)
    · exact ⟨none, rfl⟩
    · exact ⟨some s, rfl⟩
  · rintro ⟨o, rfl⟩
    cases o with
    | none => exact .inl rfl
    | some s => exact .inr ⟨s, rfl⟩

/-- Members that are all strings or null are those of some pairs. -/
theorem exists_pairs_of_textual {ms : List (String × Json)} (h : ∀ m ∈ ms, m.2.IsTextual) :
    ∃ ps : List Pair, ms = ps.map fun p => (p.1, jsonOf p.2) := by
  induction ms with
  | nil => exact ⟨[], rfl⟩
  | cons m ms ih =>
    obtain ⟨hm, hms⟩ := List.forall_mem_cons.1 h
    obtain ⟨o, ho⟩ := isTextual_iff.1 hm
    obtain ⟨ps, rfl⟩ := ih hms
    exact ⟨(m.1, o) :: ps, by rw [List.map_cons, ← ho]⟩

theorem isTextObject_iff {v : Json} : v.IsTextObject ↔ ∃ ps, v = objectOf ps := by
  constructor
  · rintro ⟨ms, rfl, h⟩
    obtain ⟨ps, rfl⟩ := exists_pairs_of_textual h
    exact ⟨ps, rfl⟩
  · rintro ⟨ps, rfl⟩
    refine ⟨_, rfl, ?_⟩
    intro m hm
    obtain ⟨p, -, rfl⟩ := List.mem_map.1 hm
    exact isTextual_iff.2 ⟨p.2, rfl⟩

/-! ## Member by member -/

/-- Writes members one after the other, up to the first that is neither a string nor null. -/
def writeMembers (h : Hstore) : List (String × Json) → Hstore × Except HstoreError Unit
  | [] => (h, .ok ())
  | (key, v) :: ms =>
    match valueOf? v with
    | some value => (h.insert key value).writeMembers ms
    | none => (h, .error .typeMustBeObject)

theorem writeMembers_append (h : Hstore) (ps : List Pair) (ms : List (String × Json)) :
    h.writeMembers (ps.map (fun p => (p.1, jsonOf p.2)) ++ ms) = (h.extend ps).writeMembers ms := by
  induction ps generalizing h with
  | nil => rfl
  | cons p ps ih =>
    have hvalue : valueOf? (jsonOf p.2) = some p.2 := valueOf?_eq_some_iff.2 rfl
    rw [List.map_cons, List.cons_append, writeMembers, hvalue, extend_cons]
    exact ih (h.insert p.1 p.2)

theorem writeMembers_of_not_textual (h : Hstore) {key : String} {v : Json}
    (hv : ¬ v.IsTextual) (ms : List (String × Json)) :
    h.writeMembers ((key, v) :: ms) = (h, .error .typeMustBeObject) := by
  have hvalue : valueOf? v = none := by
    rw [Option.eq_none_iff_forall_ne_some]
    intro o ho
    exact hv (isTextual_iff.2 ⟨o, valueOf?_eq_some_iff.1 ho⟩)
  rw [writeMembers, hvalue]

/-- Members are all strings or null, or there is a first one that is neither. -/
theorem members_cases (ms : List (String × Json)) :
    (∃ ps : List Pair, ms = ps.map fun p => (p.1, jsonOf p.2)) ∨
      ∃ (ps : List Pair) (key : String) (v : Json) (behind : List (String × Json)),
        ¬ v.IsTextual ∧ ms = ps.map (fun p => (p.1, jsonOf p.2)) ++ (key, v) :: behind := by
  induction ms with
  | nil => exact .inl ⟨[], rfl⟩
  | cons m ms ih =>
    obtain ⟨key, v⟩ := m
    by_cases hv : v.IsTextual
    · obtain ⟨o, rfl⟩ := isTextual_iff.1 hv
      rcases ih with ⟨ps, rfl⟩ | ⟨ps, key', v', behind, hv', rfl⟩
      · exact .inl ⟨(key, o) :: ps, rfl⟩
      · exact .inr ⟨(key, o) :: ps, key', v', behind, hv', rfl⟩
    · exact .inr ⟨[], key, v, ms, hv, rfl⟩

theorem ofObject_of_not_textObject {v : Json} (hv : ¬ v.IsTextObject) :
    ofObject v = .error .typeMustBeObject := by
  apply ofObject_eq_error
  intro ps hps
  exact hv (isTextObject_iff.2 ⟨ps, hps⟩)

/-- A member that is neither a string nor null spoils the object, wherever it stands. -/
theorem not_isTextObject_of_mem {ms : List (String × Json)} {m : String × Json} (hm : m ∈ ms)
    (hv : ¬ m.2.IsTextual) : ¬ (Json.obj ms).IsTextObject := by
  rintro ⟨ns, hobj, hall⟩
  obtain rfl := Json.obj.inj hobj
  exact hv (hall m hm)

/-- An object is read by writing its members into the empty hstore. -/
theorem ofObject_eq_writeMembers (ms : List (String × Json)) :
    ofObject (.obj ms) =
      match empty.writeMembers ms with
      | (h, .ok ()) => .ok h
      | (_, .error e) => .error e := by
  rcases members_cases ms with ⟨ps, rfl⟩ | ⟨ps, key, v, behind, hv, rfl⟩
  · have hwrite := writeMembers_append empty ps []
    rw [List.append_nil] at hwrite
    rw [hwrite]
    exact ofObject_objectOf ps
  · have hmem : (key, v) ∈ ps.map (fun p => (p.1, jsonOf p.2)) ++ (key, v) :: behind :=
      List.mem_append_right _ List.mem_cons_self
    rw [writeMembers_append, writeMembers_of_not_textual _ hv,
      ofObject_of_not_textObject (not_isTextObject_of_mem hmem hv)]

/-! ## Both conversions -/

theorem collapse_jsonOf (o : Option String) : (jsonOf o).collapse = jsonOf o := by
  cases o <;> rfl

theorem collapseMembers_map (ps : List Pair) :
    Json.collapseMembers (ps.map fun p => (p.1, jsonOf p.2)) =
      ps.map fun p => (p.1, jsonOf p.2) := by
  rw [Json.collapseMembers_eq_map, List.map_map]
  apply List.map_congr_left
  intro p _
  exact Prod.ext rfl (collapse_jsonOf p.2)

/-- What the object of some pairs means is the object of the hstore that they make. -/
theorem collapse_objectOf (ps : List Pair) : (objectOf ps).collapse = (ofPairs ps).toObject := by
  rw [toObject_eq, objectOf, Json.collapse, collapseMembers_map, PairList.ofList_map jsonOf]
  rfl

/-- No member of the object of an hstore overwrites another one. -/
theorem collapse_toObject (h : Hstore) : h.toObject.collapse = h.toObject := by
  rw [toObject_eq, collapse_objectOf, ofPairs_entries, toObject_eq]

theorem ofObject_toObject (h : Hstore) : ofObject h.toObject = .ok h := by
  rw [toObject_eq, ofObject_objectOf, ofPairs_entries]

theorem ofObject_eq_ok_iff {v : Json} {h : Hstore} :
    ofObject v = .ok h ↔ ∃ ps, v = objectOf ps ∧ h = ofPairs ps := by
  constructor
  · intro hv
    by_cases hobject : v.IsTextObject
    · obtain ⟨ps, rfl⟩ := isTextObject_iff.1 hobject
      rw [ofObject_objectOf] at hv
      exact ⟨ps, rfl, (Except.ok.inj hv).symm⟩
    · rw [ofObject_of_not_textObject hobject] at hv
      cases hv
  · rintro ⟨ps, rfl, rfl⟩
    exact ofObject_objectOf ps

theorem exists_ofObject_iff {v : Json} : (∃ h, ofObject v = .ok h) ↔ v.IsTextObject := by
  rw [isTextObject_iff]
  constructor
  · rintro ⟨h, hv⟩
    obtain ⟨ps, hps, -⟩ := ofObject_eq_ok_iff.1 hv
    exact ⟨ps, hps⟩
  · rintro ⟨ps, hps⟩
    exact ⟨ofPairs ps, ofObject_eq_ok_iff.2 ⟨ps, hps, rfl⟩⟩

theorem ofObject_eq_ok_iff_toObject {v : Json} {h : Hstore} :
    ofObject v = .ok h ↔ v.IsTextObject ∧ h.toObject = v.collapse := by
  rw [ofObject_eq_ok_iff, isTextObject_iff]
  constructor
  · rintro ⟨ps, rfl, rfl⟩
    exact ⟨⟨ps, rfl⟩, (collapse_objectOf ps).symm⟩
  · rintro ⟨⟨ps, rfl⟩, h⟩
    rw [collapse_objectOf] at h
    exact ⟨ps, rfl, eq_of_toObject_eq h⟩

theorem ofObject_eq_error_iff {v : Json} {e : HstoreError} :
    ofObject v = .error e ↔ ¬ v.IsTextObject ∧ e = .typeMustBeObject := by
  constructor
  · intro he
    by_cases hobject : v.IsTextObject
    · obtain ⟨ps, rfl⟩ := isTextObject_iff.1 hobject
      rw [ofObject_objectOf] at he
      cases he
    · rw [ofObject_of_not_textObject hobject] at he
      exact ⟨hobject, (Except.error.inj he).symm⟩
  · rintro ⟨hobject, rfl⟩
    exact ofObject_of_not_textObject hobject

theorem settled_toObject (h : Hstore) : h.toObject.Settled := by
  rw [← collapse_toObject]
  exact Json.settled_collapse h.toObject

/-- **Hstores and objects of strings and nulls are the same, and a failure changes nothing.** A
value is read exactly when it is an object of strings and nulls, and the hstore that is read has the
object that the value means, which for a settled value is the value itself. Every other value is
refused with one error, wherever its first bad member stands. The object of an hstore is settled and
gives it back. Replacing the contents leaves the hstore that is read and nothing else, or what was
there; writing the members into it in place would leave those before the bad one. -/
theorem ofObject_iff_toObject :
    (∀ v : Json, (∃ h, ofObject v = .ok h) ↔ v.IsTextObject) ∧
    (∀ v h, ofObject v = .ok h ↔ v.IsTextObject ∧ h.toObject = v.collapse) ∧
    (∀ v h, v.Settled → (ofObject v = .ok h ↔ h.toObject = v)) ∧
    (∀ v e, ofObject v = .error e ↔ ¬ v.IsTextObject ∧ e = .typeMustBeObject) ∧
    (∀ before key v behind, ¬ v.IsTextual →
      ofObject (.obj (before ++ (key, v) :: behind)) = .error .typeMustBeObject) ∧
    (∀ h : Hstore, h.toObject.Settled ∧ ofObject h.toObject = .ok h) ∧
    (∀ ms, ofObject (.obj ms) =
      match empty.writeMembers ms with
      | (h, .ok ()) => .ok h
      | (_, .error e) => .error e) ∧
    ∀ t : Hstore,
      (∀ v h, ofObject v = .ok h → t.unmarshal v = (h, .ok ())) ∧
      (∀ v e, ofObject v = .error e → t.unmarshal v = (t, .error e)) ∧
      ∀ (ps : List Pair) key v behind, ¬ v.IsTextual →
        let ms := ps.map (fun p => (p.1, jsonOf p.2)) ++ (key, v) :: behind
        t.writeMembers ms = (t.extend ps, .error .typeMustBeObject) ∧
        t.unmarshal (.obj ms) = (t, .error .typeMustBeObject) := by
  have hfail : ∀ (t : Hstore) v e, ofObject v = .error e → t.unmarshal v = (t, .error e) := by
    intro t v e he
    rw [unmarshal, he]
  have hbad : ∀ before key v behind, ¬ v.IsTextual →
      ofObject (.obj (before ++ (key, v) :: behind)) = .error .typeMustBeObject := by
    intro before key v behind hv
    apply ofObject_of_not_textObject
    exact not_isTextObject_of_mem (List.mem_append_right before List.mem_cons_self) hv
  refine ⟨fun v => exists_ofObject_iff, fun v h => ofObject_eq_ok_iff_toObject, ?_,
    fun v e => ofObject_eq_error_iff, hbad, ?_, ofObject_eq_writeMembers, ?_⟩
  · intro v h hv
    constructor
    · intro hread
      rw [(ofObject_eq_ok_iff_toObject.1 hread).2, Json.collapse_of_settled hv]
    · rintro rfl
      exact ofObject_toObject h
  · intro h
    exact ⟨settled_toObject h, ofObject_toObject h⟩
  · intro t
    refine ⟨?_, hfail t, ?_⟩
    · intro v h hv
      rw [unmarshal, hv]
    · intro ps key v behind hv
      refine ⟨?_, hfail t _ _ (hbad _ key v behind hv)⟩
      rw [writeMembers_append, writeMembers_of_not_textual _ hv]

end Hstore

end HstoreKit
