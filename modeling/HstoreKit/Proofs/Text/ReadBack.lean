import HstoreKit.Text.Utf8.Basic
import Mathlib.Algebra.Group.Nat.Defs

/-!
# What a text's bytes are read as

A character is a first byte, which tells how many bytes follow, and then digits of its code point
to base 64.

* `utf8EncodeChar_eq`: the bytes of a character as these digits;
* `first_lead`, `pieces_digits`: the first byte opens a character, and these digits complete it;
* `pieces_flatMap`: the bytes of a text may stand before any further bytes;
* `lossy_encode`, `decode_encode`: either reading gives back the text.
-/

namespace HstoreKit.Utf8

/-! ## Digits -/

/-- How many bytes follow the first one. -/
def extra (n : Nat) : Nat :=
  if n ≤ 0x7F then 0 else if n ≤ 0x7FF then 1 else if n ≤ 0xFFFF then 2 else 3

/-- What the first byte is above the digit that it holds. -/
def mark : Nat → Nat
  | 0 => 0
  | 1 => 0xC0
  | 2 => 0xE0
  | _ => 0xF0

/-- The first byte of a code point. -/
def lead (n : Nat) : Nat :=
  mark (extra n) + n / 64 ^ extra n

/-- The last `k` digits of a code point, each in a byte that continues a character. -/
def digits : Nat → Nat → List UInt8
  | 0, _ => []
  | k + 1, n => .ofNat (n / 64 ^ k % 64 + 0x80) :: digits k n

theorem digits_succ {k n : Nat} {b : UInt8} (h : n / 64 ^ k % 64 + 0x80 = b.toNat) :
    digits (k + 1) n = b :: digits k n := by
  rw [digits, h, UInt8.ofNat_toNat]

theorem toNat_digit (n k : Nat) :
    (UInt8.ofNat (n / 64 ^ k % 64 + 0x80)).toNat = n / 64 ^ k % 64 + 0x80 := by
  rw [UInt8.toNat_ofNat']
  omega

theorem toNat_lt (c : Char) : c.toNat < 0x110000 := by
  have hv : c.toNat < 0xD800 ∨ (0xDFFF < c.toNat ∧ c.toNat < 0x110000) := c.valid
  omega

theorem utf8EncodeChar_eq (c : Char) :
    String.utf8EncodeChar c = .ofNat (lead c.toNat) :: digits (extra c.toNat) c.toNat := by
  have hc := toNat_lt c
  unfold String.utf8EncodeChar lead extra
  simp only [Char.toNat_val]
  generalize c.toNat = n at hc
  by_cases h1 : n ≤ 0x7F
  · simp [h1, mark, digits]
  by_cases h2 : n ≤ 0x7FF
  · have hlead : n / 64 % 32 + 192 = 192 + n / 64 := by omega
    simp [h1, h2, mark, digits, hlead]
  by_cases h3 : n ≤ 0xFFFF
  · have hlead : n / 4096 % 16 + 224 = 224 + n / 4096 := by omega
    simp [h1, h2, h3, mark, digits, hlead]
  · have hlead : n / 262144 % 8 + 240 = 240 + n / 262144 := by omega
    simp [h1, h2, h3, mark, digits, hlead]

theorem extra_cases (n : Nat) : extra n = 0 ∧ n ≤ 0x7F ∨ extra n = 1 ∧ 0x7F < n ∧ n ≤ 0x7FF ∨
    extra n = 2 ∧ 0x7FF < n ∧ n ≤ 0xFFFF ∨ extra n = 3 ∧ 0xFFFF < n := by
  unfold extra
  split
  · omega
  · split
    · omega
    · split <;> omega

theorem lead_lt {n : Nat} (h : n < 0x110000) : lead n < 256 := by
  unfold lead
  rcases extra_cases n with ⟨hn, _⟩ | ⟨hn, _, _⟩ | ⟨hn, _, _⟩ | ⟨hn, _⟩ <;>
    simp only [hn, mark] <;> omega

/-- A byte holds the first byte of a code point. -/
theorem toNat_ofNat_lead {n : Nat} (h : n < 0x110000) : (UInt8.ofNat (lead n)).toNat = lead n :=
  UInt8.toNat_ofNat_of_lt (lead_lt h)

theorem le_of_mem_digits {k n : Nat} {b : UInt8} (h : b ∈ digits k n) : 0x80 ≤ b.toNat := by
  induction k with
  | zero => cases h
  | succ k ih =>
    rcases List.mem_cons.1 h with rfl | h
    · rw [toNat_digit]
      exact Nat.le_add_left _ _
    · exact ih h

/-- Every byte of a character is its code or one that no ASCII character has. -/
theorem mem_utf8EncodeChar {b : UInt8} {c : Char} (h : b ∈ String.utf8EncodeChar c) :
    b.toNat = c.toNat ∨ 0x80 ≤ b.toNat := by
  rw [utf8EncodeChar_eq] at h
  rcases List.mem_cons.1 h with rfl | h
  · rw [toNat_ofNat_lead (toNat_lt c), lead]
    rcases extra_cases c.toNat with ⟨hc, _⟩ | ⟨hc, _, _⟩ | ⟨hc, _, _⟩ | ⟨hc, _⟩ <;>
      simp only [hc, mark] <;> omega
  · exact .inr (le_of_mem_digits h)

theorem utf8EncodeChar_of_lt {c : Char} (h : c.toNat < 0x80) :
    String.utf8EncodeChar c = [.ofNat c.toNat] := by
  have hc : c.val.toNat ≤ 0x7F := Nat.le_of_lt_succ h
  rw [String.utf8EncodeChar, if_pos hc]
  rfl

theorem le_of_mem_utf8EncodeChar {b : UInt8} {c : Char} (hc : 0x80 ≤ c.toNat)
    (hb : b ∈ String.utf8EncodeChar c) : 0x80 ≤ b.toNat := by
  rcases mem_utf8EncodeChar hb with h | h
  · omega
  · exact h

/-! ## The machine -/

theorem pieces_cons (o : Option Opened) (b : UInt8) (bs : List UInt8) :
    pieces o (b :: bs) = (step o b).1 ++ pieces (step o b).2 bs := by
  cases o <;> rfl

/-- A byte that continues an open character. -/
theorem pieces_continue {bits read owed : Nat} {low high b : UInt8} {bs : List UInt8}
    (hl : low ≤ b) (hh : b ≤ high) :
    pieces (some ⟨bits, read, owed + 1, low, high⟩) (b :: bs) =
      pieces (some ⟨bits * 64 + b.toNat % 64, read + 1, owed, 0x80, 0xBF⟩) bs := by
  simp [pieces_cons, step, hl, hh]

/-- The byte that completes an open character. -/
theorem pieces_complete {bits read : Nat} {low high b : UInt8} {bs : List UInt8}
    (hl : low ≤ b) (hh : b ≤ high) :
    pieces (some ⟨bits, read, 0, low, high⟩) (b :: bs) =
      .char (Char.ofNat (bits * 64 + b.toNat % 64)) :: pieces none bs := by
  simp [pieces_cons, step, hl, hh]

/-- An open character whose digits follow is read as that character. -/
theorem pieces_digits {n read owed : Nat} {low high : UInt8} {bs : List UInt8}
    (hlow : low.toNat ≤ n / 64 ^ owed % 64 + 0x80)
    (hhigh : n / 64 ^ owed % 64 + 0x80 ≤ high.toNat) :
    pieces (some ⟨n / 64 ^ (owed + 1), read, owed, low, high⟩) (digits (owed + 1) n ++ bs) =
      .char (Char.ofNat n) :: pieces none bs := by
  have hbits (k : Nat) :
      n / 64 ^ (k + 1) * 64 + (UInt8.ofNat (n / 64 ^ k % 64 + 0x80)).toNat % 64 = n / 64 ^ k := by
    rw [toNat_digit, Nat.pow_succ, ← Nat.div_div_eq_div_mul]
    omega
  rw [← toNat_digit] at hlow hhigh
  induction owed generalizing read low high with
  | zero =>
    rw [digits, digits, List.cons_append, List.nil_append,
      pieces_complete (UInt8.le_iff_toNat_le.2 hlow) (UInt8.le_iff_toNat_le.2 hhigh), hbits,
      Nat.pow_zero, Nat.div_one]
  | succ owed ih =>
    rw [digits, List.cons_append,
      pieces_continue (UInt8.le_iff_toNat_le.2 hlow) (UInt8.le_iff_toNat_le.2 hhigh), hbits]
    apply ih
    · rw [toNat_digit]
      exact Nat.le_add_left _ _
    · rw [toNat_digit]
      change _ ≤ 0xBF
      omega

section
variable {b : UInt8}

theorem first_of_one (h : b.toNat < 0x80) : first b = ([.char (Char.ofNat b.toNat)], none) :=
  if_pos (UInt8.lt_iff_toNat_lt.2 h)

theorem first_of_two (hge : 0xC2 ≤ b.toNat) (hlt : b.toNat < 0xE0) :
    first b = ([], some ⟨b.toNat % 32, 1, 0, 0x80, 0xBF⟩) := by
  simp only [first, UInt8.lt_iff_toNat_lt, UInt8.reduceToNat]
  rw [if_neg (by omega), if_neg (by omega), if_pos hlt]

theorem first_of_three (hge : 0xE0 ≤ b.toNat) (hlt : b.toNat < 0xF0) :
    first b = ([], some ⟨b.toNat % 16, 1, 1,
      if b = 0xE0 then 0xA0 else 0x80, if b = 0xED then 0x9F else 0xBF⟩) := by
  simp only [first, UInt8.lt_iff_toNat_lt, UInt8.reduceToNat]
  rw [if_neg (by omega), if_neg (by omega), if_neg (by omega), if_pos hlt]

theorem first_of_four (hge : 0xF0 ≤ b.toNat) (hlt : b.toNat < 0xF5) :
    first b = ([], some ⟨b.toNat % 8, 1, 2,
      if b = 0xF0 then 0x90 else 0x80, if b = 0xF4 then 0x8F else 0xBF⟩) := by
  simp only [first, UInt8.lt_iff_toNat_lt, UInt8.reduceToNat]
  rw [if_neg (by omega), if_neg (by omega), if_neg (by omega), if_neg (by omega), if_pos hlt]

/-- A bound that is another one behind a certain byte. -/
theorem toNat_ite (c x y : UInt8) : (if b = c then x else y).toNat =
    if b.toNat = c.toNat then x.toNat else y.toNat := by
  rw [apply_ite UInt8.toNat]
  simp only [UInt8.toNat_inj]

/-- A byte that leaves open the digits of `n` behind the first one. -/
def Opens (b : UInt8) (owed n : Nat) : Prop :=
  ∃ low high, first b = ([], some ⟨n / 64 ^ (owed + 1), 1, owed, low, high⟩) ∧
    low.toNat ≤ n / 64 ^ owed % 64 + 0x80 ∧ n / 64 ^ owed % 64 + 0x80 ≤ high.toNat

variable {n : Nat}

theorem opens_of_two (hb : b.toNat = 0xC0 + n / 64) (hn : 0x7F < n ∧ n ≤ 0x7FF) :
    Opens b 0 n := by
  have hbits : b.toNat % 32 = n / 64 ^ (0 + 1) := by omega
  refine ⟨0x80, 0xBF, ?_, ?_, ?_⟩
  · rw [first_of_two (by omega) (by omega), hbits]
  · exact Nat.le_add_left _ _
  · change _ ≤ 0xBF
    omega

/-- The narrower ranges let every code point through that has no shorter form and is no
surrogate. -/
theorem opens_of_three (hb : b.toNat = 0xE0 + n / 64 ^ 2) (hn : 0x7FF < n ∧ n ≤ 0xFFFF)
    (hvalid : n < 0xD800 ∨ 0xDFFF < n) : Opens b 1 n := by
  have hbits : b.toNat % 16 = n / 64 ^ (1 + 1) := by omega
  refine ⟨_, _, (first_of_three (by omega) (by omega)).trans (by rw [hbits]), ?_, ?_⟩
  · rw [toNat_ite]
    simp only [UInt8.reduceToNat]
    split <;> omega
  · rw [toNat_ite]
    simp only [UInt8.reduceToNat]
    split <;> omega

theorem opens_of_four (hb : b.toNat = 0xF0 + n / 64 ^ 3) (hn : 0xFFFF < n ∧ n < 0x110000) :
    Opens b 2 n := by
  have hbits : b.toNat % 8 = n / 64 ^ (2 + 1) := by omega
  refine ⟨_, _, (first_of_four (by omega) (by omega)).trans (by rw [hbits]), ?_, ?_⟩
  · rw [toNat_ite]
    simp only [UInt8.reduceToNat]
    split <;> omega
  · rw [toNat_ite]
    simp only [UInt8.reduceToNat]
    split <;> omega

end

/-- The first byte of a code point is a character by itself or leaves the digits behind it open. -/
theorem first_lead {n : Nat} (hvalid : n < 0xD800 ∨ 0xDFFF < n ∧ n < 0x110000) :
    (extra n = 0 ∧ first (.ofNat (lead n)) = ([.char (Char.ofNat n)], none)) ∨
      ∃ owed, extra n = owed + 1 ∧ Opens (.ofNat (lead n)) owed n := by
  have hlead := toNat_ofNat_lead (n := n) (by omega)
  rcases extra_cases n with ⟨he, hn⟩ | ⟨he, hn⟩ | ⟨he, hn⟩ | ⟨he, hn⟩
  · left
    have hcode : (UInt8.ofNat (lead n)).toNat = n := by
      rw [hlead, lead, he, mark, Nat.pow_zero, Nat.div_one, Nat.zero_add]
    rw [first_of_one (by omega), hcode]
    exact ⟨he, rfl⟩
  · right
    exact ⟨0, he, opens_of_two (by rw [hlead, lead, he]; rfl) hn⟩
  · right
    exact ⟨1, he, opens_of_three (by rw [hlead, lead, he]; rfl) hn (by omega)⟩
  · right
    exact ⟨2, he, opens_of_four (by rw [hlead, lead, he]; rfl) (by omega)⟩

/-- The bytes of a character are read as that character. -/
theorem pieces_utf8EncodeChar (c : Char) (bs : List UInt8) :
    pieces none (String.utf8EncodeChar c ++ bs) = .char c :: pieces none bs := by
  have hc : Char.ofNat c.toNat = c := Char.ofNat_toNat c
  have hvalid : c.toNat < 0xD800 ∨ (0xDFFF < c.toNat ∧ c.toNat < 0x110000) := c.valid
  rw [utf8EncodeChar_eq, List.cons_append, pieces_cons, step]
  rcases first_lead hvalid with ⟨hextra, hfirst⟩ | ⟨owed, hextra, low, high, hfirst, hlow, hhigh⟩
  · rw [hfirst, hextra, hc]
    rfl
  · rw [hfirst, hextra, pieces_digits hlow hhigh, hc]
    rfl

/-! ## Texts -/

@[simp] theorem encode_append (s t : String) : encode (s ++ t) = encode s ++ encode t := by
  simp [encode]

theorem pieces_flatMap (cs : List Char) (bs : List UInt8) :
    pieces none (cs.flatMap String.utf8EncodeChar ++ bs) = cs.map Piece.char ++ pieces none bs := by
  induction cs with
  | nil => rfl
  | cons c cs ih =>
    rw [List.flatMap_cons, List.append_assoc, pieces_utf8EncodeChar, ih]
    rfl

theorem lossy_encode (s : String) : lossy (encode s) = s := by
  have h := pieces_flatMap s.toList []
  rw [List.append_nil] at h
  rw [lossy, encode, h]
  simp [pieces, Piece.shown, Function.comp_def]

theorem fault?_map_char (i : Nat) (cs : List Char) : fault? i (cs.map Piece.char) = none := by
  induction cs generalizing i with
  | nil => rfl
  | cons c cs ih => exact ih _

theorem decode_encode (s : String) : decode (encode s) = .ok s := by
  have h := pieces_flatMap s.toList []
  rw [List.append_nil] at h
  rw [decode, lossy_encode, encode, h]
  simp [pieces, fault?_map_char]

end HstoreKit.Utf8
