import HstoreKit.Sql.Filter
import Mathlib.Data.List.Basic

/-!
# Texts that a pattern matches

LIKE as a relation between patterns and texts, and the places where a value may stand in a text.
Neither refers to the conditions that are built of them.

* `Like`: the texts of a pattern;
* `like_append_iff`: a text of two patterns is cut between them;
* `like_pattern_iff`: the pattern of a value looks for the texts of the value;
* `exists_like_of_wildcard`: a value with a wildcard has a text in which it does not stand itself;
* `valueLike_finds`: what the condition on the value at a key finds.
-/

namespace HstoreKit.Sql

/-- The texts of a pattern. A percent sign is any run of characters and an underscore any one
character; a backslash makes the next character literal, and every other one is itself. -/
inductive Like : List Char → List Char → Prop
  | nil : Like [] []
  | run {p t : List Char} (u : List Char) (h : Like p t) : Like ('%' :: p) (u ++ t)
  | one {p t : List Char} (c : Char) (h : Like p t) : Like ('_' :: p) (c :: t)
  | escaped {p t : List Char} (c : Char) (h : Like p t) : Like ('\\' :: c :: p) (c :: t)
  | char {p t : List Char} {c : Char} (hc : c ∉ ['%', '_', '\\']) (h : Like p t) :
      Like (c :: p) (c :: t)

/-- The value stands in the text where the condition looks for it. -/
def LikeMode.Finds (mode : LikeMode) (v t : List Char) : Prop :=
  match mode with
  | .anywhere => v <:+: t
  | .atStart => v <+: t
  | .atEnd => v <:+ t

/-! ## Patterns one behind the other -/

theorem Like.append {p q t u : List Char} (hp : Like p t) (hq : Like q u) :
    Like (p ++ q) (t ++ u) := by
  induction hp with
  | nil => exact hq
  | run v _ ih =>
    rw [List.append_assoc]
    exact .run v ih
  | one c _ ih => exact .one c ih
  | escaped c _ ih => exact .escaped c ih
  | char hc _ ih => exact .char hc ih

/-- A pattern without a backslash leaves nothing open that the pattern behind it could close. -/
theorem Like.exists_of_append {p q s : List Char} (hp : '\\' ∉ p) (h : Like (p ++ q) s) :
    ∃ t u, s = t ++ u ∧ Like p t ∧ Like q u := by
  induction p generalizing s with
  | nil => exact ⟨[], s, rfl, .nil, h⟩
  | cons c p ih =>
    rw [List.mem_cons, not_or] at hp
    rw [List.cons_append] at h
    generalize hrest : p ++ q = r at h
    cases h with
    | run v h =>
      subst hrest
      obtain ⟨t, u, rfl, ht, hu⟩ := ih hp.2 h
      exact ⟨v ++ t, u, (List.append_assoc v t u).symm, .run v ht, hu⟩
    | one d h =>
      subst hrest
      obtain ⟨t, u, rfl, ht, hu⟩ := ih hp.2 h
      exact ⟨d :: t, u, rfl, .one d ht, hu⟩
    | escaped => exact absurd rfl hp.1
    | char hc h =>
      subst hrest
      obtain ⟨t, u, rfl, ht, hu⟩ := ih hp.2 h
      exact ⟨c :: t, u, rfl, .char hc ht, hu⟩

theorem like_append_iff {p q s : List Char} (hp : '\\' ∉ p) :
    Like (p ++ q) s ↔ ∃ t u, s = t ++ u ∧ Like p t ∧ Like q u := by
  constructor
  · exact Like.exists_of_append hp
  · rintro ⟨t, u, rfl, ht, hu⟩
    exact ht.append hu

theorem like_run (t : List Char) : Like ['%'] t := by
  have h := Like.run t .nil
  rwa [List.append_nil] at h

/-- Behind a percent sign any end of the text will do. -/
theorem like_run_cons_iff {p s : List Char} :
    Like ('%' :: p) s ↔ ∃ t u, s = t ++ u ∧ Like p u := by
  constructor
  · intro h
    obtain ⟨t, u, hs, -, hu⟩ := Like.exists_of_append (p := ['%']) (by decide) h
    exact ⟨t, u, hs, hu⟩
  · rintro ⟨t, u, rfl, hu⟩
    exact .run t hu

/-- Before a percent sign any beginning of the text will do. -/
theorem like_append_run_iff {p s : List Char} (hp : '\\' ∉ p) :
    Like (p ++ ['%']) s ↔ ∃ t u, s = t ++ u ∧ Like p t := by
  rw [like_append_iff hp]
  constructor
  · rintro ⟨t, u, hs, ht, -⟩
    exact ⟨t, u, hs, ht⟩
  · rintro ⟨t, u, hs, ht⟩
    exact ⟨t, u, hs, ht, like_run u⟩

/-! ## Patterns of values -/

/-- The pattern of a value looks in its place for a text of the value. -/
theorem like_pattern_iff (mode : LikeMode) {v : String} (hv : '\\' ∉ v.toList) {t : List Char} :
    Like (mode.pattern v).toList t ↔ ∃ u, Like v.toList u ∧ mode.Finds u t := by
  have hrun : "%".toList = ['%'] := rfl
  cases mode with
  | anywhere =>
    rw [LikeMode.pattern, String.toList_append, String.toList_append, hrun, List.append_assoc,
      List.singleton_append, like_run_cons_iff]
    constructor
    · rintro ⟨before, s, rfl, hs⟩
      obtain ⟨u, behind, rfl, hu⟩ := (like_append_run_iff hv).1 hs
      exact ⟨u, hu, before, behind, List.append_assoc before u behind⟩
    · rintro ⟨u, hu, before, behind, rfl⟩
      refine ⟨before, u ++ behind, List.append_assoc before u behind, ?_⟩
      exact (like_append_run_iff hv).2 ⟨u, behind, rfl, hu⟩
  | atStart =>
    rw [LikeMode.pattern, String.toList_append, hrun, like_append_run_iff hv]
    constructor
    · rintro ⟨u, behind, rfl, hu⟩
      exact ⟨u, hu, behind, rfl⟩
    · rintro ⟨u, hu, behind, rfl⟩
      exact ⟨u, behind, rfl, hu⟩
  | atEnd =>
    rw [LikeMode.pattern, String.toList_append, hrun, List.singleton_append, like_run_cons_iff]
    constructor
    · rintro ⟨before, u, rfl, hu⟩
      exact ⟨u, hu, before, rfl⟩
    · rintro ⟨u, hu, before, rfl⟩
      exact ⟨before, u, rfl, hu⟩

/-- Without a backslash a value is one of its own texts: a wildcard stands for itself as well. -/
theorem like_self {v : List Char} (hv : '\\' ∉ v) : Like v v := by
  induction v with
  | nil => exact .nil
  | cons c v ih =>
    rw [List.mem_cons, not_or] at hv
    have hrest := ih hv.2
    by_cases hrun : c = '%'
    · subst hrun
      exact .run ['%'] hrest
    · by_cases hone : c = '_'
      · subst hone
        exact .one '_' hrest
      · apply Like.char _ hrest
        simp [hrun, hone, Ne.symm hv.1]

/-- Without wildcards a value has no other text. -/
theorem eq_of_like {v u : List Char} (hrun : '%' ∉ v) (hone : '_' ∉ v) (hescape : '\\' ∉ v)
    (h : Like v u) : u = v := by
  induction h with
  | nil => rfl
  | run => exact absurd List.mem_cons_self hrun
  | one => exact absurd List.mem_cons_self hone
  | escaped => exact absurd List.mem_cons_self hescape
  | char _ _ ih =>
    rw [List.mem_cons, not_or] at hrun hone hescape
    rw [ih hrun.2 hone.2 hescape.2]

/-! ## Values with wildcards -/

/-- A text of a value: nothing for a percent sign, and a letter for an underscore. -/
def sample (v : List Char) : List Char :=
  v.flatMap fun c => if c = '%' then [] else if c = '_' then ['x'] else [c]

theorem like_sample {v : List Char} (hv : '\\' ∉ v) : Like v (sample v) := by
  induction v with
  | nil => exact .nil
  | cons c v ih =>
    rw [List.mem_cons, not_or] at hv
    have hrest := ih hv.2
    by_cases hrun : c = '%'
    · subst hrun
      exact .run [] hrest
    · by_cases hone : c = '_'
      · subst hone
        exact .one 'x' hrest
      · have hsample : sample (c :: v) = c :: sample v := by simp [sample, hrun, hone]
        rw [hsample]
        apply Like.char _ hrest
        simp [hrun, hone, Ne.symm hv.1]

theorem length_sample_le (v : List Char) : (sample v).length + v.count '%' ≤ v.length := by
  induction v with
  | nil => exact Nat.le_refl 0
  | cons c v ih =>
    have hcons : sample (c :: v) =
        (if c = '%' then [] else if c = '_' then ['x'] else [c]) ++ sample v := rfl
    rw [hcons, List.length_append, List.count_cons, List.length_cons]
    by_cases hrun : c = '%'
    · simp only [hrun, if_true, List.length_nil, beq_self_eq_true]
      omega
    · by_cases hone : c = '_'
      · simp [hone]
        omega
      · simp [hrun, hone]
        omega

theorem underscore_not_mem_sample (v : List Char) : '_' ∉ sample v := by
  intro h
  obtain ⟨c, -, hc⟩ := List.mem_flatMap.1 h
  by_cases hrun : c = '%'
  · simp [hrun] at hc
  · by_cases hone : c = '_'
    · simp [hone] at hc
    · simp [hrun, hone, Ne.symm hone] at hc

theorem LikeMode.Finds.isInfix {mode : LikeMode} {v t : List Char} (h : mode.Finds v t) :
    v <:+: t := by
  cases mode with
  | anywhere => exact h
  | atStart => exact List.IsPrefix.isInfix h
  | atEnd => exact List.IsSuffix.isInfix h

/-- A value with a wildcard has a text in which it does not stand: one that is shorter than the
value, or as long and another. -/
theorem exists_like_of_wildcard {v : List Char} (hv : '\\' ∉ v) (hwild : '%' ∈ v ∨ '_' ∈ v) :
    ∃ u, Like v u ∧ ¬ v <:+: u := by
  refine ⟨sample v, like_sample hv, ?_⟩
  intro hinfix
  have hle := length_sample_le v
  have hge := hinfix.length_le
  have heq : v = sample v := hinfix.eq_of_length (by omega)
  rcases hwild with hrun | hone
  · have hcount := List.count_pos_iff.2 hrun
    omega
  · rw [heq] at hone
    exact underscore_not_mem_sample v hone

/-! ## Conditions -/

theorem finds_self (mode : LikeMode) (v : List Char) : mode.Finds v v := by
  cases mode with
  | anywhere => exact List.infix_rfl
  | atStart => exact List.prefix_rfl
  | atEnd => exact List.suffix_rfl

/-- **The condition on the value at a key finds the texts that it is meant to find.** Wherever it is
rendered, whatever the column and the key, it binds one value, a pattern. If the value has none of
the characters `%`, `_` and backslash, the texts of the pattern are those in which the value stands:
anywhere, at the start or at the end. If it has no backslash, none of these texts is missed, and
then the pattern has no others exactly when the value has neither of the wildcards. -/
theorem valueLike_finds (mode : LikeMode) (column key v : String) :
    ∃ pattern : String,
      (∀ b, ((Filter.valueLike mode column key v).render b).2.values =
        b.values ++ [.str pattern]) ∧
      (Filter.valueLike mode column key v).toSql.2 = [.str pattern] ∧
      ((∀ c ∈ ['%', '_', '\\'], c ∉ v.toList) →
        ∀ t : String, Like pattern.toList t.toList ↔ mode.Finds v.toList t.toList) ∧
      ('\\' ∉ v.toList →
        ∀ t : String, mode.Finds v.toList t.toList → Like pattern.toList t.toList) ∧
      ('\\' ∉ v.toList →
        ((∀ t : String, Like pattern.toList t.toList → mode.Finds v.toList t.toList) ↔
          '%' ∉ v.toList ∧ '_' ∉ v.toList)) := by
  have hcomplete : '\\' ∉ v.toList → ∀ t : String, mode.Finds v.toList t.toList →
      Like (mode.pattern v).toList t.toList := by
    intro hescape t ht
    exact (like_pattern_iff mode hescape).2 ⟨v.toList, like_self hescape, ht⟩
  have hsound : '%' ∉ v.toList → '_' ∉ v.toList → '\\' ∉ v.toList → ∀ t : String,
      Like (mode.pattern v).toList t.toList → mode.Finds v.toList t.toList := by
    intro hrun hone hescape t ht
    obtain ⟨u, hu, hfinds⟩ := (like_pattern_iff mode hescape).1 ht
    rwa [eq_of_like hrun hone hescape hu] at hfinds
  refine ⟨mode.pattern v, fun b => rfl, rfl, ?_, hcomplete, ?_⟩
  · intro hplain t
    have hrun := hplain '%' (by decide)
    have hone := hplain '_' (by decide)
    have hescape := hplain '\\' (by decide)
    exact ⟨hsound hrun hone hescape t, hcomplete hescape t⟩
  · intro hescape
    constructor
    · intro hall
      by_contra hwild
      rw [← not_or, not_not] at hwild
      obtain ⟨u, hu, hnot⟩ := exists_like_of_wildcard hescape hwild
      have hlike : Like (mode.pattern v).toList (String.ofList u).toList := by
        rw [String.toList_ofList]
        exact (like_pattern_iff mode hescape).2 ⟨u, hu, finds_self mode u⟩
      have hfinds := hall (String.ofList u) hlike
      rw [String.toList_ofList] at hfinds
      exact hnot hfinds.isInfix
    · rintro ⟨hrun, hone⟩ t
      exact hsound hrun hone hescape t

end HstoreKit.Sql
