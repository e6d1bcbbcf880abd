import HstoreKit.Sql.Query

/-!
# Leaves of filters

A filter is a tree whose leaves are the conditions. Only leaves bind values and only leaves name
plain columns, so both are said leaf by leaf.

* `Leaf.value?`: the value that a leaf binds;
* `render_bindings`: rendering binds the values of the leaves from left to right and counts them;
* `forM_eq_error_iff`: of checks one after the other the first fault is reported;
* `checkFields_eq_forM`: a filter is checked by the fields of its leaves.
-/

namespace HstoreKit.Sql

/-- A condition where a branch of a filter ends. -/
inductive Leaf where
  | condition (c : Condition)
  | hstore (p : Predicate)

namespace Leaf

/-- The value that stands against the column: none for a test that takes no value, and none where
the value is missing. -/
def value? : Leaf → Option Json
  | .condition ⟨_, .isNull, _⟩ => none
  | .condition ⟨_, .isNotNull, _⟩ => none
  | .condition ⟨_, _, value⟩ => value
  | .hstore (.compare _ _ _ value) => some (.str value)
  | .hstore (.like _ _ mode value) => some (.str (mode.pattern value))
  | .hstore _ => none

def render : Leaf → Bindings → String × Bindings
  | .condition c, b => c.render b
  | .hstore p, b => p.render b

/-- The text of a leaf where `n` is the number of the next parameter. -/
def text (l : Leaf) (n : Nat) : String :=
  (l.render ⟨[], .ofNat n⟩).1

/-- A field that is named without quotes is a plain identifier. -/
def Plain : Leaf → Prop
  | .condition c => nameFault? c.field = none
  | .hstore _ => True

end Leaf

/-- The values that leaves bind. -/
def boundValues (ls : List Leaf) : List Json :=
  ls.filterMap Leaf.value?

@[simp] theorem boundValues_nil : boundValues [] = [] := rfl

@[simp] theorem boundValues_append (ls ms : List Leaf) :
    boundValues (ls ++ ms) = boundValues ls ++ boundValues ms :=
  List.filterMap_append

namespace Filter

mutual

/-- The leaves of a filter from left to right. -/
def leaves : Filter → List Leaf
  | .condition c => [.condition c]
  | .group _ fs => leavesAll fs
  | .not f => f.leaves
  | .hstore p => [.hstore p]

def leavesAll : List Filter → List Leaf
  | [] => []
  | f :: fs => f.leaves ++ leavesAll fs

end

end Filter

/-! ## Values -/

/-- The greatest number of a parameter, a signed 32-bit word. -/
def maxParameter : Nat := 0x7FFFFFFF

/-- Bindings with further values. -/
def Bindings.bindAll (b : Bindings) (vs : List Json) : Bindings :=
  ⟨b.values ++ vs, b.next + .ofNat vs.length⟩

@[simp] theorem Bindings.bindAll_nil (b : Bindings) : b.bindAll [] = b := by
  simp [bindAll]

theorem Bindings.bindAll_bindAll (b : Bindings) (vs ws : List Json) :
    (b.bindAll vs).bindAll ws = b.bindAll (vs ++ ws) := by
  simp [bindAll, Int32.ofNat_add, Int32.add_assoc]

theorem Bindings.bind_eq_bindAll (b : Bindings) (v : Json) : (b.bind v).2 = b.bindAll [v] := rfl

theorem Leaf.render_bindings (l : Leaf) (b : Bindings) :
    (l.render b).2 = b.bindAll l.value?.toList := by
  cases l with
  | condition c =>
    obtain ⟨field, op, value⟩ := c
    cases op <;> cases value <;> simp [render, value?, Condition.render, Operator.sql?,
      Bindings.bind_eq_bindAll]
  | hstore p => cases p <;> simp [render, value?, Predicate.render, Bindings.bind_eq_bindAll]

/-- The text of a leaf depends on the number of the next parameter alone. -/
theorem Leaf.render_text (l : Leaf) {b : Bindings} {n : Nat} (hn : b.next = .ofNat n) :
    (l.render b).1 = l.text n := by
  cases l with
  | condition c =>
    obtain ⟨field, op, value⟩ := c
    cases op <;> cases value <;> simp [text, render, Condition.render, Operator.sql?,
      Bindings.bind, hn]
  | hstore p => cases p <;> simp [text, render, Predicate.render, Bindings.bind, hn]

namespace Filter

mutual

/-- Rendering a filter binds the values of its leaves from left to right. -/
theorem render_bindings (f : Filter) (b : Bindings) :
    (f.render b).2 = b.bindAll (boundValues f.leaves) := by
  cases f with
  | condition c => exact (Leaf.condition c).render_bindings b
  | group connective fs =>
    cases fs with
    | nil => simp [render, leaves, leavesAll]
    | cons f fs => exact renderAll_bindings (f :: fs) b
  | not f => exact render_bindings f b
  | hstore p => exact (Leaf.hstore p).render_bindings b

theorem renderAll_bindings (fs : List Filter) (b : Bindings) :
    (renderAll fs b).2 = b.bindAll (boundValues (leavesAll fs)) := by
  cases fs with
  | nil => simp [renderAll, leavesAll]
  | cons f fs =>
    simp only [renderAll, leavesAll, boundValues_append, ← Bindings.bindAll_bindAll]
    rw [renderAll_bindings fs, render_bindings f]

end

/-- The number that is next behind a filter. -/
theorem next_render (f : Filter) {b : Bindings} {n : Nat} (hb : b.next = .ofNat n) :
    (f.render b).2.next = .ofNat (n + (boundValues f.leaves).length) := by
  rw [render_bindings, Bindings.bindAll, hb, Int32.ofNat_add]

end Filter

/-! ## Names -/

/-- The field of a plain condition, whatever it is tested for. Columns and keys of an hstore are no
names of this kind. -/
def Leaf.field? : Leaf → Option String
  | .condition c => some c.field
  | .hstore _ => none

/-- The plain fields of leaves. -/
def plainFields (ls : List Leaf) : List String :=
  ls.filterMap Leaf.field?

theorem plainFields_append (ls ms : List Leaf) :
    plainFields (ls ++ ms) = plainFields ls ++ plainFields ms :=
  List.filterMap_append

theorem Leaf.plain_of_mem {ls : List Leaf} (h : ∀ n ∈ plainFields ls, nameFault? n = none) :
    ∀ l ∈ ls, l.Plain := by
  intro l hl
  cases l with
  | condition c => exact h c.field (List.mem_filterMap.2 ⟨_, hl, rfl⟩)
  | hstore p => trivial

/-- Checks one after the other find no fault where each of them finds none. -/
theorem forM_eq_ok_iff {ε α : Type} {check : α → Except ε Unit} {xs : List α} :
    forM xs check = .ok () ↔ ∀ x ∈ xs, check x = .ok () := by
  induction xs with
  | nil => simp [pure, Except.pure]
  | cons x xs ih =>
    rw [List.forM_cons, List.forall_mem_cons, ← ih]
    cases check x <;> simp [bind, Except.bind]

/-- Checks one after the other report the first fault. -/
theorem forM_eq_error_iff {ε α : Type} {check : α → Except ε Unit} {xs : List α} {e : ε} :
    forM xs check = .error e ↔ ∃ before x behind, xs = before ++ x :: behind ∧
      (∀ y ∈ before, check y = .ok ()) ∧ check x = .error e := by
  constructor
  · intro h
    induction xs with
    | nil => cases h
    | cons x xs ih =>
      rw [List.forM_cons] at h
      cases hx : check x with
      | error f =>
        rw [hx] at h
        obtain rfl := Except.error.inj h
        exact ⟨[], x, xs, rfl, by simp, hx⟩
      | ok u =>
        rw [hx] at h
        obtain ⟨before, y, behind, rfl, hbefore, hy⟩ := ih h
        exact ⟨x :: before, y, behind, rfl, List.forall_mem_cons.2 ⟨hx, hbefore⟩, hy⟩
  · rintro ⟨before, x, behind, rfl, hbefore, hx⟩
    rw [List.forM_append, forM_eq_ok_iff.2 hbefore, List.forM_cons, hx]
    rfl

namespace Query

theorem checkName_eq_ok_iff {name : String} :
    checkName name = .ok () ↔ nameFault? name = none := by
  unfold checkName
  cases nameFault? name <;> simp

theorem checkName_eq_error_iff {name : String} {fault : NameFault} :
    checkName name = .error fault ↔ nameFault? name = some fault := by
  unfold checkName
  cases nameFault? name <;> simp

mutual

/-- A filter is checked by the fields of its leaves from left to right. -/
theorem checkFields_eq_forM (f : Filter) :
    checkFields f = forM (plainFields f.leaves) checkName := by
  cases f with
  | condition c =>
    have hone : forM [c.field] checkName = checkName c.field := by
      rw [List.forM_cons]
      cases checkName c.field <;> rfl
    exact hone.symm
  | group connective fs =>
    rw [checkFields, Filter.leaves]
    exact checkAllFields_eq_forM fs
  | not f =>
    rw [checkFields, Filter.leaves]
    exact checkFields_eq_forM f
  | hstore p => rfl

theorem checkAllFields_eq_forM (fs : List Filter) :
    checkAllFields fs = forM (plainFields (Filter.leavesAll fs)) checkName := by
  cases fs with
  | nil => rfl
  | cons f fs =>
    rw [checkAllFields, Filter.leavesAll, plainFields_append, List.forM_append,
      checkFields_eq_forM f, checkAllFields_eq_forM fs]

end

end Query

end HstoreKit.Sql
