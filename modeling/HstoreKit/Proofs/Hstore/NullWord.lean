import HstoreKit.Hstore.Scan

/-!
# The word NULL

The spellings of NULL in any letter case, listed; `isNullWord_iff_mem` says that the scanner takes
exactly these for SQL NULL.
-/

namespace HstoreKit.Scan

/-- NULL with each letter in upper or lower case. -/
def nullSpellings : List String :=
  ['N', 'n'].flatMap fun n => ['U', 'u'].flatMap fun u => ['L', 'l'].flatMap fun l =>
    ['L', 'l'].map fun m => String.ofList [n, u, l, m]

theorem mem_nullSpellings {s : String} : s ∈ nullSpellings ↔
    ∃ n ∈ ['N', 'n'], ∃ u ∈ ['U', 'u'], ∃ l ∈ ['L', 'l'], ∃ m ∈ ['L', 'l'],
      s.toList = [n, u, l, m] := by
  simp only [nullSpellings, List.mem_flatMap, List.mem_map, String.ext_iff, String.toList_ofList,
    eq_comm]

theorem toNat_toUpper (c : Char) :
    c.toUpper.toNat = if 97 ≤ c.toNat ∧ c.toNat ≤ 122 then c.toNat - 32 else c.toNat := by
  have hrange : ('a'.val ≤ c.val ∧ c.val ≤ 'z'.val) ↔ 97 ≤ c.toNat ∧ c.toNat ≤ 122 := by
    simp [UInt32.le_iff_toNat_le, ← Char.toNat_val]
  unfold Char.toUpper
  split
  · rename_i h
    have hc : 97 ≤ c.val.toNat ∧ c.val.toNat ≤ 122 := hrange.1 h
    have hshift : ('A'.val - 'a'.val).toNat = 4294967264 := by decide
    rw [if_pos (hrange.1 h)]
    change (c.val + ('A'.val - 'a'.val)).toNat = c.val.toNat - 32
    rw [UInt32.toNat_add, hshift]
    omega
  · rename_i h
    rw [if_neg (mt hrange.2 h)]

/-- Two characters have the same capital letter when they are that letter or its small form. -/
theorem toUpper_eq_iff {c u l : Char} (hu : 65 ≤ u.toNat ∧ u.toNat ≤ 90)
    (hl : l.toNat = u.toNat + 32) : c.toUpper = u ↔ c = u ∨ c = l := by
  rw [← Char.toNat_inj, ← Char.toNat_inj, ← Char.toNat_inj, toNat_toUpper, hl]
  split <;> omega

theorem isNullWord_iff_mem {s : String} : isNullWord s = true ↔ s ∈ nullSpellings := by
  have hN (c : Char) : c.toUpper = 'N' ↔ c ∈ ['N', 'n'] := by
    simpa using toUpper_eq_iff (u := 'N') (l := 'n') (by decide) (by decide)
  have hU (c : Char) : c.toUpper = 'U' ↔ c ∈ ['U', 'u'] := by
    simpa using toUpper_eq_iff (u := 'U') (l := 'u') (by decide) (by decide)
  have hL (c : Char) : c.toUpper = 'L' ↔ c ∈ ['L', 'l'] := by
    simpa using toUpper_eq_iff (u := 'L') (l := 'l') (by decide) (by decide)
  rw [mem_nullSpellings, isNullWord, decide_eq_true_eq]
  simp only [List.map_eq_cons_iff, List.map_eq_nil_iff, hN, hU, hL]
  constructor
  · rintro ⟨n, _, hs, hn, u, _, rfl, hu, l, _, rfl, hl, m, _, rfl, hm, rfl⟩
    exact ⟨n, hn, u, hu, l, hl, m, hm, hs⟩
  · rintro ⟨n, hn, u, hu, l, hl, m, hm, hs⟩
    exact ⟨n, _, hs, hn, u, _, rfl, hu, l, _, rfl, hl, m, _, rfl, hm, rfl⟩

end HstoreKit.Scan
