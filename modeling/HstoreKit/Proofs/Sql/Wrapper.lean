import HstoreKit.Sql.ColumnType
import Mathlib.Data.List.Basic

/-!
# Types that may be absent

The column type and whether it may be NULL are read from the same text by different means. A type
is wrapped when it is `Option<..>` however it is spaced; here it is said for which texts the two
readings agree with this.

* `IsWrapped`: the shape that makes a type one that may be absent;
* `unwrapped?_eq_some_iff`, `isSome_unwrapped?_iff_isWrapped`: the shape that the column looks
  through, and that it is this one where all white space is made of spaces;
* `isNullable_iff_isWrapped_iff`: where `isNullable` finds this shape, and the two faults by which
  it misses it;
* `readings_follow_shape`: both readings.
-/

namespace HstoreKit.Sql.ColumnType

/-! ## White space -/

/-- A text without its white space. -/
def squeezed (cs : List Char) : List Char :=
  cs.filter fun c => !Text.isSpace c

theorem squeezed_append (cs ds : List Char) : squeezed (cs ++ ds) = squeezed cs ++ squeezed ds :=
  List.filter_append cs ds

theorem squeezed_trimStart (cs : List Char) : squeezed (Text.trimStart cs) = squeezed cs := by
  induction cs with
  | nil => rfl
  | cons c cs ih =>
    unfold Text.trimStart at ih ⊢
    by_cases hc : Text.isSpace c = true
    · rw [List.dropWhile_cons_of_pos hc, ih]
      simp [squeezed, hc]
    · rw [List.dropWhile_cons_of_neg hc]

/-- White space ends where the first part of a text has a character that is none. -/
theorem trimStart_append {cs : List Char} (h : squeezed cs ≠ []) (ds : List Char) :
    Text.trimStart (cs ++ ds) = Text.trimStart cs ++ ds := by
  have hne : Text.trimStart cs ≠ [] := by
    intro hnil
    apply h
    rw [← squeezed_trimStart, hnil]
    rfl
  unfold Text.trimStart at hne ⊢
  rw [List.dropWhile_append, if_neg]
  rwa [List.isEmpty_iff]

/-! ## Shapes -/

/-- `Option<..>`, whatever white space stands in it. -/
def IsWrapped (t : String) : Prop :=
  ∃ inner, squeezed t.toList = wrapper ++ '<' :: (inner ++ ['>'])

/-- Something in angle brackets, whatever white space stands in it. -/
def IsBracketed (cs : List Char) : Prop :=
  ∃ inner, squeezed cs = '<' :: (inner ++ ['>'])

/-- The name stands at the front, but what follows it is not in angle brackets. -/
def IsBare (t : String) : Prop :=
  ∃ rest, Text.trimStart t.toList = wrapper ++ rest ∧ ¬ IsBracketed rest

/-- What follows the name is in angle brackets, but white space divides the name. -/
def IsDivided (t : String) : Prop :=
  ∃ name rest, t.toList = name ++ rest ∧ squeezed name = wrapper ∧ IsBracketed rest ∧
    ¬ wrapper <+: Text.trimStart name

theorem squeezed_wrapper : squeezed wrapper = wrapper := by decide

theorem unwrapped?_eq_some_iff {cs inner : List Char} :
    unwrapped? cs = some inner ↔ cs = wrapper ++ '<' :: (inner ++ ['>']) := by
  unfold unwrapped?
  dsimp only
  constructor
  · intro h
    split at h
    next hshape =>
      obtain ⟨hfront, hlast⟩ := hshape
      obtain ⟨rest, rfl⟩ := List.isPrefixOf_iff_prefix.1 hfront
      rw [List.drop_left] at hlast h
      obtain ⟨body, rfl⟩ := List.getLast?_eq_some_iff.1 hlast
      rw [List.dropLast_concat] at h
      obtain rfl := Option.some.inj h
      simp
    next => cases h
  · intro h
    subst h
    have hopening :
        wrapper ++ '<' :: (inner ++ ['>']) = (wrapper ++ ['<']) ++ (inner ++ ['>']) := by
      simp
    rw [hopening, List.drop_left, if_pos, List.dropLast_concat]
    exact ⟨List.isPrefixOf_iff_prefix.2 (List.prefix_append _ _), List.getLast?_concat⟩

theorem filter_ne_space {cs : List Char} (h : ∀ c ∈ cs, Text.isSpace c = true → c = ' ') :
    cs.filter (· ≠ ' ') = squeezed cs := by
  apply List.filter_congr
  intro c hc
  by_cases hspace : c = ' '
  · subst hspace
    rfl
  · have hnone : Text.isSpace c ≠ true := fun h' => hspace (h c hc h')
    simp [hspace, hnone]

/-- Where no white space but spaces stands in a type, its column is looked for behind the wrapper
exactly if the type is wrapped. -/
theorem isSome_unwrapped?_iff_isWrapped {t : String}
    (h : ∀ c ∈ t.toList, Text.isSpace c = true → c = ' ') :
    (unwrapped? (t.toList.filter (· ≠ ' '))).isSome = true ↔ IsWrapped t := by
  rw [filter_ne_space h, Option.isSome_iff_exists]
  apply exists_congr
  intro inner
  exact unwrapped?_eq_some_iff

/-- Spaces do not change the column of a type. -/
theorem ofTypeText_squeezed {t : String}
    (h : ∀ c ∈ t.toList, Text.isSpace c = true → c = ' ') :
    ofTypeText (String.ofList (squeezed t.toList)) = ofTypeText t := by
  have htwice : (squeezed t.toList).filter (· ≠ ' ') = t.toList.filter (· ≠ ' ') := by
    rw [← filter_ne_space h, List.filter_filter]
    simp only [Bool.and_self]
  unfold ofTypeText
  rw [String.toList_ofList, htwice]

theorem isNullable_iff {t : String} :
    isNullable t = true ↔ ∃ rest, Text.trimStart t.toList = wrapper ++ rest := by
  rw [isNullable, List.isPrefixOf_iff_prefix]
  constructor
  · intro ⟨rest, h⟩
    exact ⟨rest, h.symm⟩
  · intro ⟨rest, h⟩
    exact ⟨rest, h.symm⟩

/-! ## Agreement -/

/-- Behind the name at the front of a type, brackets make the type a wrapped one. -/
theorem isWrapped_iff_isBracketed {t : String} {rest : List Char}
    (h : Text.trimStart t.toList = wrapper ++ rest) : IsWrapped t ↔ IsBracketed rest := by
  unfold IsWrapped IsBracketed
  rw [← squeezed_trimStart, h, squeezed_append, squeezed_wrapper]
  simp only [List.append_cancel_left_eq]

/-- A wrapped type consists of the letters of the name and of something in angle brackets. -/
theorem IsWrapped.exists_name {t : String} (h : IsWrapped t) :
    ∃ name rest, t.toList = name ++ rest ∧ squeezed name = wrapper ∧ IsBracketed rest := by
  obtain ⟨inner, hinner⟩ := h
  obtain ⟨name, rest, ht, hname, hrest⟩ := List.filter_eq_append_iff.1 hinner
  exact ⟨name, rest, ht, hname, inner, hrest⟩

/-- The name is found at the front of a type exactly if its letters stand together there. -/
theorem isNullable_iff_front {t : String} {name rest : List Char} (ht : t.toList = name ++ rest)
    (hname : squeezed name = wrapper) :
    isNullable t = true ↔ wrapper <+: Text.trimStart name := by
  have hne : squeezed name ≠ [] := by
    rw [hname]
    decide
  rw [isNullable_iff, ht, trimStart_append hne]
  constructor
  · intro ⟨behind, h⟩
    rcases List.append_eq_append_iff.1 h.symm with ⟨more, hmore, -⟩ | ⟨more, hmore, -⟩
    · exact ⟨more, hmore.symm⟩
    · -- a part of the name has too few letters unless it is the whole name
      have hletters : wrapper.length ≤ (Text.trimStart name).length := by
        rw [← hname, ← squeezed_trimStart]
        exact List.length_filter_le _ _
      have hlength := congrArg List.length hmore
      rw [List.length_append] at hlength
      obtain rfl : more = [] := List.eq_nil_of_length_eq_zero (by omega)
      rw [List.append_nil] at hmore
      exact hmore ▸ List.prefix_rfl
  · intro ⟨more, h⟩
    exact ⟨more ++ rest, by rw [← h, List.append_assoc]⟩

/-- A type is found to be one that may be absent exactly if it is wrapped, unless the name at its
front has no brackets behind it or white space divides the name of a wrapped type. -/
theorem isNullable_iff_isWrapped_iff (t : String) :
    (isNullable t = true ↔ IsWrapped t) ↔ ¬ IsBare t ∧ ¬ IsDivided t := by
  constructor
  · intro hagree
    constructor
    · intro ⟨rest, ht, hrest⟩
      have hwrapped := hagree.1 (isNullable_iff.2 ⟨rest, ht⟩)
      exact hrest ((isWrapped_iff_isBracketed ht).1 hwrapped)
    · intro ⟨name, rest, ht, hname, ⟨inner, hinner⟩, hdivided⟩
      have hwrapped : IsWrapped t := ⟨inner, by rw [ht, squeezed_append, hname, hinner]⟩
      exact hdivided ((isNullable_iff_front ht hname).1 (hagree.2 hwrapped))
  · intro ⟨hbare, hdivided⟩
    constructor
    · intro hnullable
      obtain ⟨rest, ht⟩ := isNullable_iff.1 hnullable
      apply (isWrapped_iff_isBracketed ht).2
      by_contra hrest
      exact hbare ⟨rest, ht, hrest⟩
    · intro hwrapped
      obtain ⟨name, rest, ht, hname, hrest⟩ := hwrapped.exists_name
      apply (isNullable_iff_front ht hname).2
      by_contra hfront
      exact hdivided ⟨name, rest, ht, hname, hrest, hfront⟩

/-- **Where both readings follow the shape of a type.** Whether a type may be absent is read from
its shape except for a name without brackets and for a divided name, and in both these cases the
answer is wrong. The column follows the shape, and does not depend on the spacing, where no white
space but spaces stands in the type. -/
theorem readings_follow_shape (t : String) :
    ((isNullable t = true ↔ IsWrapped t) ↔ ¬ IsBare t ∧ ¬ IsDivided t) ∧
    ((∀ c ∈ t.toList, Text.isSpace c = true → c = ' ') →
      ((unwrapped? (t.toList.filter (· ≠ ' '))).isSome = true ↔ IsWrapped t) ∧
      ofTypeText (String.ofList (squeezed t.toList)) = ofTypeText t) := by
  refine ⟨isNullable_iff_isWrapped_iff t, ?_⟩
  intro h
  exact ⟨isSome_unwrapped?_iff_isWrapped h, ofTypeText_squeezed h⟩

theorem readings_follow_shape_spaced :
    (∀ c ∈ "Option < bool >".toList, Text.isSpace c = true → c = ' ') ∧
    ((unwrapped? ("Option < bool >".toList.filter (· ≠ ' '))).isSome = true ↔
      IsWrapped "Option < bool >") ∧
    ofTypeText (String.ofList (squeezed "Option < bool >".toList)) =
      ofTypeText "Option < bool >" := by
  have hspaces : ∀ c ∈ "Option < bool >".toList, Text.isSpace c = true → c = ' ' := by
    intro c hc hspace
    have hall : "Option < bool >".toList.all (fun c => !Text.isSpace c || c = ' ') = true := by
      decide
    simpa [hspace] using List.all_eq_true.1 hall c hc
  exact ⟨hspaces, (readings_follow_shape "Option < bool >").2 hspaces⟩

/-- A type of its own whose name goes on behind that of the wrapper, a wrapped type whose name is
divided, and a tab that hides what the wrapper holds from the column. -/
theorem misread_wrappers :
    (isNullable "Optional" = true ∧ ¬ IsWrapped "Optional") ∧
    (isNullable "Opt ion<i32>" = false ∧ IsWrapped "Opt ion<i32>") ∧
    (ofTypeText "Option<\ti32>" = .varchar ∧ ofTypeText "Option<i32>" = .integer) := by
  refine ⟨⟨by decide, ?_⟩, ⟨by decide, "i32".toList, by decide⟩, by decide, by decide⟩
  intro ⟨inner, h⟩
  have hnext : (squeezed "Optional".toList)[6]? = some 'a' := by decide
  rw [h] at hnext
  simp [wrapper] at hnext

end HstoreKit.Sql.ColumnType
