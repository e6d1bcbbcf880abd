import HstoreKit.Json.Basic

/-!
# Values with one member a name

A text may repeat a name and give the members in any order. The value that it means has each name
once, in the order of the names, at every depth; such values are the results of `collapse`, and
`collapse` changes nothing about them.

* `Settled`: one member a name, in the order of the names;
* `settled_collapse`, `collapse_of_settled`: the settled values are those that `collapse` leaves;
* `names`: the names of the members as they stand in the text.
-/

namespace HstoreKit.Json

mutual

/-- One member a name, in the order of the names, at every depth. -/
def Settled : Json → Prop
  | .arr items => SettledItems items
  | .obj members => PairList.Ascending members ∧ SettledMembers members
  | _ => True

def SettledItems : List Json → Prop
  | [] => True
  | v :: vs => v.Settled ∧ SettledItems vs

def SettledMembers : List (String × Json) → Prop
  | [] => True
  | (_, v) :: ms => v.Settled ∧ SettledMembers ms

end

/-- The names of the members of an object, with every repeat. -/
def names : Json → List String
  | .obj members => members.map Prod.fst
  | _ => []

theorem collapseMembers_eq_map (ms : List (String × Json)) :
    collapseMembers ms = ms.map fun m => (m.1, m.2.collapse) := by
  induction ms with
  | nil => rfl
  | cons m ms ih => rw [collapseMembers, ih, List.map_cons]

theorem settledMembers_iff {ms : List (String × Json)} :
    SettledMembers ms ↔ ∀ m ∈ ms, m.2.Settled := by
  induction ms with
  | nil => simp [SettledMembers]
  | cons m ms ih => rw [SettledMembers, ih, List.forall_mem_cons]

mutual

/-- What a text means is settled. -/
theorem settled_collapse (v : Json) : v.collapse.Settled := by
  cases v with
  | arr items =>
    rw [collapse, Settled]
    exact settledItems_collapseItems items
  | obj members =>
    rw [collapse, Settled]
    refine ⟨PairList.ascending_ofList _, settledMembers_iff.2 ?_⟩
    intro m hm
    rcases PairList.mem_insertAll hm with hm | hm
    · cases hm
    · exact settledMembers_iff.1 (settledMembers_collapseMembers members) m hm
  | null | bool | int | double | str => trivial

theorem settledItems_collapseItems (vs : List Json) : SettledItems (collapseItems vs) := by
  cases vs with
  | nil => trivial
  | cons v vs => exact ⟨settled_collapse v, settledItems_collapseItems vs⟩

theorem settledMembers_collapseMembers (ms : List (String × Json)) :
    SettledMembers (collapseMembers ms) := by
  cases ms with
  | nil => trivial
  | cons m ms => exact ⟨settled_collapse m.2, settledMembers_collapseMembers ms⟩

end

mutual

/-- No member of a settled value overwrites another. -/
theorem collapse_of_settled {v : Json} (h : v.Settled) : v.collapse = v := by
  cases v with
  | arr items => rw [collapse, collapseItems_of_settled h]
  | obj members =>
    rw [collapse, collapseMembers_of_settled h.2, PairList.ofList_eq_self h.1]
  | null | bool | int | double | str => rfl

theorem collapseItems_of_settled {vs : List Json} (h : SettledItems vs) :
    collapseItems vs = vs := by
  cases vs with
  | nil => rfl
  | cons v vs => rw [collapseItems, collapse_of_settled h.1, collapseItems_of_settled h.2]

theorem collapseMembers_of_settled {ms : List (String × Json)} (h : SettledMembers ms) :
    collapseMembers ms = ms := by
  cases ms with
  | nil => rfl
  | cons m ms => rw [collapseMembers, collapse_of_settled h.1, collapseMembers_of_settled h.2]

end

end HstoreKit.Json
