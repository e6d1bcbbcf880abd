import HstoreKit.Number.Binary64

/-!
# Doubles from decimal digits

A decimal is read in two steps. Its leading digits are gathered into a 64-bit word for as long as
they fit; the word, rounded to a double, is then multiplied or divided by the double nearest to a
power of ten. Each step rounds, so a long decimal may end one place away from the nearest double.
-/

namespace HstoreKit.Binary64

/-- Appends digits to a word while the result stays below `2 ^ 64`; the digits left over are
counted. -/
def gather (w : Nat) : List Nat → Nat × Nat
  | [] => (w, 0)
  | d :: ds =>
    if w * 10 + d < 0x10000000000000000 then gather (w * 10 + d) ds else (w, ds.length + 1)

/-- The magnitude nearest to a power of ten. -/
def powerOfTen (n : Nat) : Nat :=
  round (Nat.pow 10 n) 1

/-- A word times a power of ten; none when that is out of range. Powers below `10 ^ -308` are
divided out in two parts, and below `10 ^ -616` nothing of a 64-bit word is left. -/
def scaled? (w : Nat) (exponent : Int) : Option Nat :=
  let x := round w 1
  if 0 ≤ exponent then
    if exponent ≤ 308 then
      let y := mulMagnitude x (powerOfTen exponent.toNat)
      if y < infinite then some y else none
    else if w = 0 then some 0 else none
  else
    let n := exponent.natAbs
    if n ≤ 308 then some (divMagnitude x (powerOfTen n))
    else if n ≤ 616 then
      some (divMagnitude (divMagnitude x (powerOfTen 308)) (powerOfTen (n - 308)))
    else some 0

/-- The double of whole digits, fraction digits and a decimal exponent. -/
def ofDigits? (negative : Bool) (whole fraction : List Nat) (exponent : Int) : Option Binary64 :=
  let (w, dropped) := gather 0 whole
  let (w, unread) := gather w fraction
  (scaled? w (dropped + unread - fraction.length + exponent)).map (ofParts negative)

end HstoreKit.Binary64
