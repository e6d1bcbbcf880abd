import HstoreKit.Proofs.Sql.Leaf

/-!
# Conditions rendered one after the other

Conditions on hstore columns share the values bound so far and the number of the next parameter.
Rendering one only appends to the values, moves the number on, and writes the text that the
condition has on its own with another number at its end.

* `Predicate.bound?`: the text that a condition binds;
* `Predicate.render_snd`, `renderAll_snd`: what one condition and what many leave behind;
* `Predicate.render_fst_of_bound`: where the number stands in the text of a condition;
* `Predicate.renderAll_relocates`: values, number and texts of a list of conditions.
-/

namespace HstoreKit.Sql

/-! ## The number of the next parameter -/

/-- Up to the greatest number the next one is counted without overflow, wherever counting begins. -/
theorem Bindings.toInt_next_bindAll {b : Bindings} {vs : List Json}
    (h : b.next.toInt + vs.length ≤ maxParameter) :
    (b.bindAll vs).next.toInt = b.next.toInt + vs.length := by
  have hleast := b.next.le_toInt
  rw [maxParameter] at h
  rw [bindAll, Int32.toInt_add, Int32.toInt_ofNat', Int.add_bmod_bmod]
  have hsize : Int32.size = 2 ^ 32 := rfl
  apply Int.bmod_eq_of_le
  · omega
  · omega

namespace Predicate

/-- The text that a condition binds: the value itself, or its pattern. -/
def bound? : Predicate → Option String
  | .compare _ _ _ value => some value
  | .like _ _ mode value => some (mode.pattern value)
  | _ => none

end Predicate

/-- The texts that conditions bind, in their order. -/
def boundTexts (ps : List Predicate) : List String :=
  ps.filterMap Predicate.bound?

theorem boundTexts_cons (p : Predicate) (ps : List Predicate) :
    boundTexts (p :: ps) = p.bound?.toList ++ boundTexts ps := by
  unfold boundTexts
  cases h : p.bound? with
  | none => rw [List.filterMap_cons_none h, Option.toList_none, List.nil_append]
  | some text => rw [List.filterMap_cons_some h, Option.toList_some, List.singleton_append]

theorem boundTexts_append (ps qs : List Predicate) :
    boundTexts (ps ++ qs) = boundTexts ps ++ boundTexts qs :=
  List.filterMap_append

namespace Predicate

/-- What a condition binds is the value of its leaf. -/
theorem value?_hstore (p : Predicate) : Leaf.value? (.hstore p) = p.bound?.map .str := by
  cases p with
  | hasKey | hasAllKeys | valueIsNull | compare | like => rfl

theorem render_snd (p : Predicate) (b : Bindings) :
    (p.render b).2 = b.bindAll (p.bound?.toList.map .str) := by
  rw [← Option.toList_map, ← value?_hstore]
  exact Leaf.render_bindings (.hstore p) b

theorem renderAll_snd (ps : List Predicate) (b : Bindings) :
    (renderAll ps b).2 = b.bindAll ((boundTexts ps).map .str) := by
  induction ps generalizing b with
  | nil => exact (Bindings.bindAll_nil b).symm
  | cons p ps ih =>
    rw [boundTexts_cons, List.map_append, ← Bindings.bindAll_bindAll, ← render_snd]
    exact ih (p.render b).2

theorem length_renderAll (ps : List Predicate) (b : Bindings) :
    (renderAll ps b).1.length = ps.length := by
  induction ps generalizing b with
  | nil => rfl
  | cons p ps ih => exact congrArg (· + 1) (ih (p.render b).2)

theorem renderAll_fst_append (ps qs : List Predicate) (b : Bindings) :
    (renderAll (ps ++ qs) b).1 = (renderAll ps b).1 ++ (renderAll qs (renderAll ps b).2).1 := by
  induction ps generalizing b with
  | nil => rfl
  | cons p ps ih =>
    have hrest := ih (p.render b).2
    exact congrArg ((p.render b).1 :: ·) hrest

/-! ## Texts -/

/-- A text that ends in the parameter `$1`, with another number in place of this one. -/
def IsRenumbered (alone : String) (number : Int) (text : String) : Prop :=
  ∃ head, alone = head ++ "$1" ∧ text = head ++ "$" ++ toString number

/-- The text of a condition that binds a text ends in the parameter, and the number of the parameter
occurs nowhere else. -/
theorem render_fst_of_bound {p : Predicate} (h : p.bound? ≠ none) :
    ∃ head, ∀ b, (p.render b).1 = head ++ "$" ++ toString b.next.toInt := by
  cases p with
  | hasKey | hasAllKeys | valueIsNull => exact absurd rfl h
  | compare column key op value =>
    refine ⟨valueAt column key ++ " " ++ op.sql ++ " ", ?_⟩
    intro b
    exact String.append_assoc.symm
  | like column key mode value =>
    refine ⟨valueAt column key ++ " LIKE ", ?_⟩
    intro b
    exact String.append_assoc.symm

theorem isRenumbered_render {p : Predicate} (h : p.bound? ≠ none) (b : Bindings) :
    IsRenumbered (Filter.hstore p).toSql.1 b.next.toInt (p.render b).1 := by
  obtain ⟨head, hhead⟩ := render_fst_of_bound h
  refine ⟨head, ?_, hhead b⟩
  have halone : (Filter.hstore p).toSql.1 = head ++ "$" ++ "1" := hhead {}
  rw [halone, String.append_assoc]
  rfl

theorem render_fst_of_not_bound {p : Predicate} (h : p.bound? = none) (b : Bindings) :
    (p.render b).1 = (Filter.hstore p).toSql.1 := by
  cases p with
  | hasKey | hasAllKeys | valueIsNull => rfl
  | compare | like => cases h

/-- Each condition is rendered with what those before it leave behind. -/
theorem renderAll_getElem? (before : List Predicate) (p : Predicate) (after : List Predicate)
    (b : Bindings) : (renderAll (before ++ p :: after) b).1[before.length]? =
      some (p.render (renderAll before b).2).1 := by
  have hlength := length_renderAll before b
  rw [renderAll_fst_append, List.getElem?_append_right (by omega), hlength, Nat.sub_self]
  rfl

/-- **Rendering conditions only appends and relocates.** From any values and any number on, as long
as no number exceeds the greatest one, each condition that binds a text appends this text to the
values and moves the number on by one, and no other does. In the texts of those conditions only the
number at the end differs from what they are on their own, and the texts of the others do not differ
at all. -/
theorem renderAll_relocates {ps : List Predicate} {b : Bindings}
    (h : b.next.toInt + (boundTexts ps).length ≤ maxParameter) :
    (renderAll ps b).2.values = b.values ++ (boundTexts ps).map .str ∧
    (renderAll ps b).2.next.toInt = b.next.toInt + (boundTexts ps).length ∧
    (renderAll ps b).1.length = ps.length ∧
    ∀ before p after, ps = before ++ p :: after →
      (renderAll before b).2.next.toInt = b.next.toInt + (boundTexts before).length ∧
      ∃ text, (renderAll ps b).1[before.length]? = some text ∧
        (p.bound? = none → text = (Filter.hstore p).toSql.1) ∧
        (p.bound? ≠ none → IsRenumbered (Filter.hstore p).toSql.1
          (b.next.toInt + (boundTexts before).length) text) := by
  have hnext : ∀ qs : List Predicate, (boundTexts qs).length ≤ (boundTexts ps).length →
      (renderAll qs b).2.next.toInt = b.next.toInt + (boundTexts qs).length := by
    intro qs hqs
    rw [renderAll_snd, Bindings.toInt_next_bindAll, List.length_map]
    rw [List.length_map]
    omega
  refine ⟨?_, hnext ps (Nat.le_refl _), length_renderAll ps b, ?_⟩
  · rw [renderAll_snd, Bindings.bindAll]
  · intro before p after hps
    have hbefore : (renderAll before b).2.next.toInt =
        b.next.toInt + (boundTexts before).length := by
      apply hnext
      rw [hps, boundTexts_append, List.length_append]
      omega
    refine ⟨hbefore, (p.render (renderAll before b).2).1, ?_, ?_, ?_⟩
    · rw [hps, renderAll_getElem?]
    · intro hp
      exact render_fst_of_not_bound hp _
    · intro hp
      rw [← hbefore]
      exact isRenumbered_render hp _

/-- Conditions of every kind, from a negative number on. One key has the text of a parameter. -/
def mixedPredicates : List Predicate :=
  [.compare "a" "it's $1" .gte "10", .hasKey "a" "k", .like "a" "k" .atStart "x",
    .hasAllKeys "a" ["k"], .valueIsNull "a" "k", .compare "a" "k" .ne ""]

theorem renderAll_relocates_mixedPredicates :
    (-1 : Int) + (boundTexts mixedPredicates).length ≤ maxParameter ∧
    (renderAll mixedPredicates ⟨[.null], -1⟩).2.values = [.null, .str "10", .str "x%", .str ""] ∧
    (renderAll mixedPredicates ⟨[.null], -1⟩).2.next.toInt = 2 := by
  have hsmall : (-1 : Int) + (boundTexts mixedPredicates).length ≤ maxParameter := by decide
  obtain ⟨hvalues, hnext, -⟩ := renderAll_relocates (b := ⟨[.null], -1⟩) hsmall
  exact ⟨hsmall, hvalues, hnext⟩

end Predicate

end HstoreKit.Sql
