import HstoreKit.Number.Binary64

/-!
# The shortest decimal of a double

Among the decimals that round to a double, those with the fewest digits, and of them the nearest to
its value, a tie going to the even digit. The search goes from coarse to fine over the grids of
multiples of a power of ten; the first grid with a multiple that reads back gives the digits.
-/

namespace HstoreKit.Binary64

/-- The multiple of `10 ^ k` nearest to a positive magnitude among those that round to it. The
reals that do so end half a unit of the last place away, a quarter below a power of two, and the
ends belong to an even magnitude. -/
def onGrid? (magnitude : Nat) (k : Int) : Option Nat :=
  let (m, e) := split magnitude
  let num := Nat.pow 2 e * Nat.pow 10 (-k).toNat
  let den := Nat.pow 2 1076 * Nat.pow 10 k.toNat
  let low := (4 * m - if m = unitBit ∧ 0 < e then 1 else 2) * num
  let high := (4 * m + 2) * num
  let inside (d : Nat) : Bool :=
    if m % 2 = 0 then low ≤ d * den && d * den ≤ high else low < d * den && d * den < high
  let below := 4 * m * num / den
  match inside below, inside (below + 1) with
  | true, true => some (divEven (4 * m * num) den)
  | true, false => some below
  | false, true => some (below + 1)
  | false, false => none

/-- The digits of a positive finite magnitude and the power of ten that they count. -/
def shortest (magnitude : Nat) : Nat × Int :=
  ((List.range 660).findSome? fun (i : Nat) =>
    (onGrid? magnitude (309 - i)).map fun d => (d, 309 - (i : Int))).getD (0, 0)

/-- Which decimal exponents are written without an exponent mark. -/
def isPositional (exponent : Int) : Bool :=
  -5 ≤ exponent && exponent < 16

/-- Digits with a point, at least one of them behind it. -/
def positional (digits : List Char) (power : Int) : List Char :=
  let whole := (digits.length + power).toNat
  if 0 ≤ power then digits ++ List.replicate power.toNat '0' ++ ['.', '0']
  else if 0 < whole then digits.take whole ++ '.' :: digits.drop whole
  else '0' :: '.' :: List.replicate (-power - digits.length).toNat '0' ++ digits

/-- One digit, the others behind a point if there are any, and a signed exponent. -/
def scientific (digits : List Char) (exponent : Int) : List Char :=
  digits.take 1 ++ (if digits.length ≤ 1 then [] else '.' :: digits.drop 1) ++
    (if exponent < 0 then ['e', '-'] else ['e', '+']) ++ (toString exponent.natAbs).toList

/-- The text of a finite double. -/
def toText (x : Binary64) : String :=
  let sign := if x.isNegative then ['-'] else []
  if x.magnitude = 0 then String.ofList (sign ++ ['0', '.', '0'])
  else
    let (d, power) := shortest x.magnitude
    let digits := (toString d).toList
    let exponent := digits.length - 1 + power
    String.ofList (sign ++
      if isPositional exponent then positional digits power else scientific digits exponent)

end HstoreKit.Binary64
