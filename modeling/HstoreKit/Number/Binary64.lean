/-!
# Double-precision numbers

A double is its 64-bit word: sign, eleven bits of exponent, fifty-two of fraction. Arithmetic is
exact arithmetic on natural numbers followed by one rounding, `round`, to the nearest double, a tie
going to the even one.
-/

namespace HstoreKit

/-- A double-precision number as its word. -/
structure Binary64 where
  word : UInt64
  deriving DecidableEq, Repr

namespace Binary64

/-- The bit of the sign. -/
def signBit : Nat := 0x8000000000000000

/-- The leading bit of a significand, the one that the word leaves out. -/
def unitBit : Nat := 0x10000000000000

/-- The word without its sign. -/
def magnitude (x : Binary64) : Nat :=
  x.word.toNat % signBit

def isNegative (x : Binary64) : Bool :=
  signBit ≤ x.word.toNat

/-- The magnitude of the infinities; above it stand the words that are no number. -/
def infinite : Nat := 0x7FF0000000000000

def isFinite (x : Binary64) : Bool :=
  x.magnitude < infinite

/-- The double of a sign and a magnitude. -/
def ofParts (negative : Bool) (magnitude : Nat) : Binary64 :=
  ⟨UInt64.ofNat (magnitude + if negative then signBit else 0)⟩

def neg (x : Binary64) : Binary64 :=
  ofParts (!x.isNegative) x.magnitude

/-- A finite magnitude is `m * 2 ^ (e - 1074)` for the pair `(m, e)`. -/
def split (magnitude : Nat) : Nat × Nat :=
  let exponent := magnitude / unitBit
  let fraction := magnitude % unitBit
  if exponent = 0 then (fraction, 0) else (unitBit + fraction, exponent - 1)

/-- `num / den` to the nearest natural number, a tie to the even one. -/
def divEven (num den : Nat) : Nat :=
  let q := num / den
  let r := num % den
  if 2 * r < den then q else if den < 2 * r then q + 1 else q + q % 2

/-- The greatest `e` with `2 ^ e ≤ num / den`, raised by 1074 and no less than 52: the place of the
leading bit, counted from that of the least positive double. -/
def place (num den : Nat) : Nat :=
  let guess := num.log2 + 1074 - den.log2
  let reached :=
    if guess < 1074 then den ≤ num * Nat.pow 2 (1074 - guess)
    else den * Nat.pow 2 (guess - 1074) ≤ num
  max 52 (if reached then guess else guess - 1)

/-- The magnitude nearest to `num / den`, infinite when that is out of range. -/
def round (num den : Nat) : Nat :=
  if num = 0 then 0 else
    let e := place num den - 52
    let m :=
      if e < 1074 then divEven (num * Nat.pow 2 (1074 - e)) den
      else divEven num (den * Nat.pow 2 (e - 1074))
    min infinite (e * unitBit + m)

/-- The double nearest to a whole number. -/
def ofInt (n : Int) : Binary64 :=
  ofParts (n < 0) (round n.natAbs 1)

/-- The magnitude nearest to the product of two finite ones. -/
def mulMagnitude (a b : Nat) : Nat :=
  let (m, e) := split a
  let (n, f) := split b
  round (m * n * Nat.pow 2 (e + f)) (Nat.pow 2 2148)

/-- The magnitude nearest to the quotient of two finite ones. -/
def divMagnitude (a b : Nat) : Nat :=
  let (m, e) := split a
  let (n, f) := split b
  round (m * Nat.pow 2 e) (n * Nat.pow 2 f)

end Binary64

end HstoreKit
