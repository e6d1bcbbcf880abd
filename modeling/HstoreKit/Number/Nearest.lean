import HstoreKit.Number.Binary64

/-!
# The double nearest to a decimal
-/

namespace HstoreKit.Binary64

/-- The magnitude nearest to `n * 10 ^ exponent`; none when that is out of range. Beyond 400 places
on either side the answer does not depend on the digits. -/
def nearest? (n : Nat) (exponent : Int) : Option Nat :=
  let places := (Nat.toDigits 10 n).length + exponent
  if n = 0 ∨ places < -400 then some 0
  else if 400 < places then none
  else
    let x := round (n * Nat.pow 10 exponent.toNat) (Nat.pow 10 (-exponent).toNat)
    if x < infinite then some x else none

end HstoreKit.Binary64
