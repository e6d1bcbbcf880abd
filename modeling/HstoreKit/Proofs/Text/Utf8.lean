import HstoreKit.Proofs.Text.ReadBack
import Mathlib

/-!
# Bytes that are a text

A character is a first byte and then digits of its code point, so that bytes have the order of their
texts, and bytes that complete every character are those of a text.

* `encode_lt_encode_iff`: texts stand in the order of their bytes;
* `decode_eq_ok_iff`: strict reading accepts the bytes of a text and nothing else.
-/

namespace HstoreKit.Utf8

/-! ## Order -/

theorem digits_append_lt {k n m : Nat} (hlt : n < m) (hq : n / 64 ^ k = m / 64 ^ k)
    (xs ys : List UInt8) : digits k n ++ xs < digits k m ++ ys := by
  induction k with
  | zero => simp at hq; omega
  | succ k ih =>
    rw [Nat.pow_succ, ← Nat.div_div_eq_div_mul, ← Nat.div_div_eq_div_mul] at hq
    have hle : n / 64 ^ k ≤ m / 64 ^ k := Nat.div_le_div_right (Nat.le_of_lt hlt)
    simp only [digits, List.cons_append, List.cons_lt_cons_iff, UInt8.lt_iff_toNat_lt,
      ← UInt8.toNat_inj, UInt8.toNat_ofNat']
    by_cases hd : n / 64 ^ k = m / 64 ^ k
    · exact .inr ⟨by rw [hd], ih hd⟩
    · left
      omega

/-- A character of more bytes has a greater first byte. -/
theorem lead_lt_lead {n m : Nat} (h : extra n < extra m) (hn : n < 0x110000) :
    lead n < lead m := by
  unfold lead
  rcases extra_cases n with ⟨en, _⟩ | ⟨en, _, _⟩ | ⟨en, _, _⟩ | ⟨en, _⟩ <;>
    rcases extra_cases m with ⟨em, _⟩ | ⟨em, _, _⟩ | ⟨em, _, _⟩ | ⟨em, _⟩ <;>
    rw [en, em] at h <;> simp only [en, em, mark] <;> omega

theorem extra_le_extra {n m : Nat} (h : n ≤ m) : extra n ≤ extra m := by
  rcases extra_cases n with ⟨en, _⟩ | ⟨en, _, _⟩ | ⟨en, _, _⟩ | ⟨en, _⟩ <;>
    rcases extra_cases m with ⟨em, _⟩ | ⟨em, _, _⟩ | ⟨em, _, _⟩ | ⟨em, _⟩ <;> omega

/-- The bytes of a smaller character stand before those of a greater one, whatever follows. -/
theorem utf8EncodeChar_append_lt {c d : Char} (h : c < d) (xs ys : List UInt8) :
    String.utf8EncodeChar c ++ xs < String.utf8EncodeChar d ++ ys := by
  have hlt : c.toNat < d.toNat := h
  have hfirst {n m : Nat} (hnm : n < m) (hm : m < 256) : UInt8.ofNat n < UInt8.ofNat m := by
    rw [UInt8.lt_iff_toNat_lt, UInt8.toNat_ofNat', UInt8.toNat_ofNat']
    omega
  rw [utf8EncodeChar_eq, utf8EncodeChar_eq, List.cons_append, List.cons_append,
    List.cons_lt_cons_iff]
  rcases Nat.lt_or_eq_of_le (extra_le_extra (Nat.le_of_lt hlt)) with hmore | hsame
  · exact .inl (hfirst (lead_lt_lead hmore (toNat_lt c)) (lead_lt (toNat_lt d)))
  · have hle : c.toNat / 64 ^ extra d.toNat ≤ d.toNat / 64 ^ extra d.toNat :=
      Nat.div_le_div_right (Nat.le_of_lt hlt)
    have hlead : lead c.toNat = mark (extra d.toNat) + c.toNat / 64 ^ extra d.toNat := by
      rw [lead, hsame]
    rcases Nat.lt_or_eq_of_le hle with hdigit | hdigit
    · refine .inl (hfirst ?_ (lead_lt (toNat_lt d)))
      rw [hlead, lead]
      omega
    · refine .inr ⟨by rw [hlead, hdigit, lead], ?_⟩
      rw [hsame]
      exact digits_append_lt hlt hdigit xs ys

theorem flatMap_utf8EncodeChar_lt {cs ds : List Char} (h : cs < ds) :
    cs.flatMap String.utf8EncodeChar < ds.flatMap String.utf8EncodeChar := by
  induction h with
  | nil =>
    rw [List.flatMap_cons, utf8EncodeChar_eq]
    exact List.nil_lt_cons _ _
  | rel hcd =>
    rw [List.flatMap_cons, List.flatMap_cons]
    exact utf8EncodeChar_append_lt hcd _ _
  | cons _ ih =>
    rw [List.flatMap_cons, List.flatMap_cons]
    exact List.append_left_lt ih

/-- **Texts stand in the order of their bytes.** -/
theorem encode_lt_encode_iff {s t : String} : encode s < encode t ↔ s < t := by
  constructor
  · intro h
    by_cases hst : s < t
    · exact hst
    · by_cases hts : t < s
      · exact absurd (flatMap_utf8EncodeChar_lt hts) (List.lt_asymm h)
      · obtain rfl : s = t := String.le_antisymm (String.not_lt.1 hts) (String.not_lt.1 hst)
        exact absurd h (List.lt_irrefl _)
  · intro h
    exact flatMap_utf8EncodeChar_lt h

/-! ## Exactness -/

/-- An open character goes on with a byte in its range. -/
theorem exists_of_pieces_some {o : Opened} {bs : List UInt8} {cs : List Char}
    (h : pieces (some o) bs = cs.map .char) :
    ∃ b rest, bs = b :: rest ∧ o.low ≤ b ∧ b ≤ o.high := by
  cases bs with
  | nil => cases cs <;> simp [pieces] at h
  | cons b rest =>
    by_cases hb : o.low ≤ b ∧ b ≤ o.high
    · exact ⟨b, rest, rfl, hb⟩
    · cases cs <;> simp [pieces, step, hb] at h

/-- A byte in the range of an open character is a digit. -/
theorem digit_of_range {b low high : UInt8} (hl : 0x80 ≤ low) (hlow : low ≤ b) (hhigh : b ≤ high)
    (hh : high ≤ 0xBF) :
    b.toNat % 64 + 0x80 = b.toNat ∧ low.toNat ≤ b.toNat ∧ b.toNat ≤ high.toNat := by
  rw [UInt8.le_iff_toNat_le] at hl hlow hhigh hh
  have hbounds : 0x80 ≤ b.toNat ∧ b.toNat ≤ 0xBF :=
    ⟨Nat.le_trans hl hlow, Nat.le_trans hhigh hh⟩
  exact ⟨by omega, hlow, hhigh⟩

/-- What follows an open character that is completed: the last digits of its code point, whose
first digits are those that have been read, and then what else there is. -/
theorem exists_of_pieces_opened {bits read owed : Nat} {low high : UInt8} {bs : List UInt8}
    {cs : List Char} (h : pieces (some ⟨bits, read, owed, low, high⟩) bs = cs.map .char)
    (hl : 0x80 ≤ low) (hh : high ≤ 0xBF) :
    ∃ n rest ds, bs = digits (owed + 1) n ++ rest ∧ n / 64 ^ (owed + 1) = bits ∧
      low.toNat ≤ n / 64 ^ owed % 64 + 0x80 ∧ n / 64 ^ owed % 64 + 0x80 ≤ high.toNat ∧
      cs = .ofNat n :: ds ∧ pieces none rest = ds.map .char := by
  induction owed generalizing bits read low high bs with
  | zero =>
    obtain ⟨b, rest, rfl, hlow, hhigh⟩ := exists_of_pieces_some h
    obtain ⟨hbyte, hlow', hhigh'⟩ := digit_of_range hl hlow hhigh hh
    rw [pieces_complete hlow hhigh] at h
    obtain ⟨c, ds, rfl, hc, hrest⟩ := List.map_eq_cons_iff.1 h.symm
    have hdigit : (bits * 64 + b.toNat % 64) / 64 ^ 0 % 64 + 0x80 = b.toNat := by omega
    refine ⟨bits * 64 + b.toNat % 64, rest, ds, ?_, by omega, ?_, ?_, ?_, hrest.symm⟩
    · rw [digits_succ hdigit]
      rfl
    · rwa [hdigit]
    · rwa [hdigit]
    · rw [Piece.char.inj hc]
  | succ owed ih =>
    obtain ⟨b, rest, rfl, hlow, hhigh⟩ := exists_of_pieces_some h
    obtain ⟨hbyte, hlow', hhigh'⟩ := digit_of_range hl hlow hhigh hh
    rw [pieces_continue hlow hhigh] at h
    obtain ⟨n, rest, ds, rfl, hquot, -, -, hcs, hrest⟩ := ih h (by decide) (by decide)
    have hdigit : n / 64 ^ (owed + 1) % 64 + 0x80 = b.toNat := by
      rw [hquot]
      omega
    refine ⟨n, rest, ds, ?_, ?_, ?_, ?_, hcs, hrest⟩
    · rw [digits_succ hdigit, List.cons_append]
    · rw [Nat.pow_succ, ← Nat.div_div_eq_div_mul, hquot]
      omega
    · rwa [hdigit]
    · rwa [hdigit]

/-- The bytes of a code point that has this first byte. -/
theorem utf8EncodeChar_ofNat {n k : Nat} {b : UInt8} (h : n < 0xD800 ∨ 0xDFFF < n ∧ n < 0x110000)
    (hk : extra n = k) (hb : mark k + n / 64 ^ k = b.toNat) :
    String.utf8EncodeChar (.ofNat n) = b :: digits k n := by
  have hn : (Char.ofNat n).toNat = n := (Char.toNat_ofNat n).trans (if_pos h)
  rw [utf8EncodeChar_eq, hn, lead, hk, hb, UInt8.ofNat_toNat]

/-- An open character and its first byte: whatever completes it is a code point whose bytes begin
with this byte. -/
structure Opened.Follows (o : Opened) (b : UInt8) : Prop where
  low : 0x80 ≤ o.low
  high : o.high ≤ 0xBF
  code : ∀ n, n / 64 ^ (o.owed + 1) = o.bits → o.low.toNat ≤ n / 64 ^ o.owed % 64 + 0x80 →
    n / 64 ^ o.owed % 64 + 0x80 ≤ o.high.toNat → (n < 0xD800 ∨ 0xDFFF < n ∧ n < 0x110000) ∧
      extra n = o.owed + 1 ∧ mark (o.owed + 1) + o.bits = b.toNat

section
variable {b : UInt8}

theorem follows_of_two (hge : 0xC2 ≤ b.toNat) (hlt : b.toNat < 0xE0) :
    Opened.Follows ⟨b.toNat % 32, 1, 0, 0x80, 0xBF⟩ b := by
  refine ⟨UInt8.le_refl _, UInt8.le_refl _, ?_⟩
  intro n hquot hlow hhigh
  dsimp only at hquot hlow hhigh
  have hextra := extra_cases n
  simp only [mark]
  omega

/-- The narrower ranges behind `0xE0` and `0xED` keep out overlong forms and surrogates. -/
theorem follows_of_three (hge : 0xE0 ≤ b.toNat) (hlt : b.toNat < 0xF0) :
    Opened.Follows ⟨b.toNat % 16, 1, 1,
      if b = 0xE0 then 0xA0 else 0x80, if b = 0xED then 0x9F else 0xBF⟩ b := by
  refine ⟨by dsimp only; split <;> decide, by dsimp only; split <;> decide, ?_⟩
  intro n hquot hlow hhigh
  dsimp only at hquot hlow hhigh
  have hshort : b.toNat = 0xE0 → 0xA0 ≤ n / 64 ^ 1 % 64 + 0x80 := by
    intro he
    rwa [if_pos (UInt8.toNat_inj.1 he)] at hlow
  have hsurrogate : b.toNat = 0xED → n / 64 ^ 1 % 64 + 0x80 ≤ 0x9F := by
    intro he
    rwa [if_pos (UInt8.toNat_inj.1 he)] at hhigh
  have hextra := extra_cases n
  simp only [mark]
  omega

/-- The narrower ranges behind `0xF0` and `0xF4` keep out overlong forms and what is above the last
code point. -/
theorem follows_of_four (hge : 0xF0 ≤ b.toNat) (hlt : b.toNat < 0xF5) :
    Opened.Follows ⟨b.toNat % 8, 1, 2,
      if b = 0xF0 then 0x90 else 0x80, if b = 0xF4 then 0x8F else 0xBF⟩ b := by
  refine ⟨by dsimp only; split <;> decide, by dsimp only; split <;> decide, ?_⟩
  intro n hquot hlow hhigh
  dsimp only at hquot hlow hhigh
  have hshort : b.toNat = 0xF0 → 0x90 ≤ n / 64 ^ 2 % 64 + 0x80 := by
    intro he
    rwa [if_pos (UInt8.toNat_inj.1 he)] at hlow
  have hlast : b.toNat = 0xF4 → n / 64 ^ 2 % 64 + 0x80 ≤ 0x8F := by
    intro he
    rwa [if_pos (UInt8.toNat_inj.1 he)] at hhigh
  have hextra := extra_cases n
  simp only [mark]
  omega

theorem first_of_none (h : 0x80 ≤ b.toNat ∧ b.toNat < 0xC2 ∨ 0xF5 ≤ b.toNat) :
    first b = ([.broken 1], none) := by
  simp only [first, UInt8.lt_iff_toNat_lt, UInt8.reduceToNat]
  rw [if_neg (by omega)]
  rcases h with h | h
  · rw [if_pos h.2]
  · rw [if_neg (by omega), if_neg (by omega), if_neg (by omega), if_neg (by omega)]

/-- A first byte is a character, starts none, or leaves one open. -/
theorem first_cases (b : UInt8) :
    (∃ c, first b = ([.char c], none) ∧ String.utf8EncodeChar c = [b]) ∨
      first b = ([.broken 1], none) ∨ ∃ o, first b = ([], some o) ∧ o.Follows b := by
  by_cases h1 : b.toNat < 0x80
  · refine .inl ⟨_, first_of_one h1, ?_⟩
    have hextra : extra b.toNat = 0 := if_pos (by omega)
    exact utf8EncodeChar_ofNat (by omega) hextra (by simp [mark])
  by_cases h2 : b.toNat < 0xC2
  · exact .inr (.inl (first_of_none (.inl ⟨by omega, h2⟩)))
  by_cases h3 : b.toNat < 0xE0
  · exact .inr (.inr ⟨_, first_of_two (by omega) h3, follows_of_two (by omega) h3⟩)
  by_cases h4 : b.toNat < 0xF0
  · exact .inr (.inr ⟨_, first_of_three (by omega) h4, follows_of_three (by omega) h4⟩)
  by_cases h5 : b.toNat < 0xF5
  · exact .inr (.inr ⟨_, first_of_four (by omega) h5, follows_of_four (by omega) h5⟩)
  · exact .inr (.inl (first_of_none (.inr (by omega))))

end

/-- The first character of bytes that are read as characters. -/
theorem exists_of_pieces_cons {b : UInt8} {bs : List UInt8} {cs : List Char}
    (h : pieces none (b :: bs) = cs.map .char) :
    ∃ c rest ds, b :: bs = String.utf8EncodeChar c ++ rest ∧ cs = c :: ds ∧
      pieces none rest = ds.map .char := by
  rw [pieces_cons, step] at h
  rcases first_cases b with ⟨c, hfirst, hc⟩ | hfirst | ⟨o, hfirst, ho⟩
  · rw [hfirst] at h
    obtain ⟨d, ds, rfl, hd, hrest⟩ := List.map_eq_cons_iff.1 h.symm
    obtain rfl := Piece.char.inj hd
    exact ⟨d, bs, ds, by rw [hc]; rfl, rfl, hrest.symm⟩
  · rw [hfirst] at h
    cases cs <;> cases h
  · rw [hfirst] at h
    obtain ⟨n, rest, ds, rfl, hquot, hlow, hhigh, rfl, hrest⟩ :=
      exists_of_pieces_opened h ho.low ho.high
    obtain ⟨hvalid, hextra, hlead⟩ := ho.code n hquot hlow hhigh
    refine ⟨_, rest, ds, ?_, rfl, hrest⟩
    rw [utf8EncodeChar_ofNat hvalid hextra (by rw [hquot, hlead]), List.cons_append]

/-- Bytes that are read as characters are the bytes of these characters. -/
theorem flatMap_utf8EncodeChar_of_pieces {bs : List UInt8} {cs : List Char}
    (h : pieces none bs = cs.map .char) : cs.flatMap String.utf8EncodeChar = bs := by
  induction cs generalizing bs with
  | nil =>
    cases bs with
    | nil => rfl
    | cons b bs =>
      obtain ⟨c, rest, ds, -, hcs, -⟩ := exists_of_pieces_cons h
      cases hcs
  | cons c cs ih =>
    cases bs with
    | nil => cases h
    | cons b bs =>
      obtain ⟨d, rest, ds, hbytes, hcs, hrest⟩ := exists_of_pieces_cons h
      obtain ⟨rfl, rfl⟩ := List.cons.inj hcs
      rw [List.flatMap_cons, ih hrest, hbytes]

theorem exists_chars_of_fault?_eq_none {i : Nat} {ps : List Piece} (h : fault? i ps = none) :
    ∃ cs : List Char, ps = cs.map .char := by
  induction ps generalizing i with
  | nil => exact ⟨[], rfl⟩
  | cons p ps ih =>
    cases p with
    | char c =>
      obtain ⟨cs, rfl⟩ := ih h
      exact ⟨c :: cs, rfl⟩
    | broken n => cases h
    | cut => cases h

/-- **Strict reading accepts the bytes of a text and nothing else.** -/
theorem decode_eq_ok_iff {bs : List UInt8} {s : String} : decode bs = .ok s ↔ bs = encode s := by
  constructor
  · intro h
    unfold decode at h
    split at h
    · cases h
    · rename_i hfault
      obtain ⟨cs, hcs⟩ := exists_chars_of_fault?_eq_none hfault
      obtain rfl := Except.ok.inj h
      rw [lossy, hcs, encode, String.toList_ofList, List.map_map]
      have hshown : Piece.shown ∘ Piece.char = id := rfl
      rw [hshown, List.map_id, flatMap_utf8EncodeChar_of_pieces hcs]
  · rintro rfl
    exact decode_encode s

end HstoreKit.Utf8
