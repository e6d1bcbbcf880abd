import HstoreKit.Json.Basic
import HstoreKit.Number.Hex
import HstoreKit.Number.Scaled

/-!
# Reading JSON

A strict reader: one value with blanks around it and nothing else. Raw control characters in
strings, surrogates without a partner, numbers that overflow a double and nesting beyond the budget
are refused. A number without fraction and exponent is whole when it lies between `-2^63` and
`2^64 - 1` and is not written `-0`; every other number is a double.
-/

namespace HstoreKit.Json

def isBlank (c : Char) : Bool :=
  c = ' ' || c = '\t' || c = '\n' || c = '\r'

def skipBlank (cs : List Char) : List Char :=
  cs.dropWhile isBlank

/-! ## strings -/

/-- What a backslash and one letter stand for. -/
def escaped? : Char → Option Char
  | '"' => some '"'
  | '\\' => some '\\'
  | '/' => some '/'
  | 'b' => some '\x08'
  | 'f' => some '\x0c'
  | 'n' => some '\n'
  | 'r' => some '\r'
  | 't' => some '\t'
  | _ => none

/-- A part of a string: a character, or a UTF-16 unit written in hexadecimal. -/
inductive Part where
  | char (c : Char)
  | unit (u : Nat)

/-- The parts of a string up to its closing quote, and what follows the quote. -/
def parts? : List Char → Option (List Part × List Char)
  | [] => none
  | '"' :: cs => some ([], cs)
  | '\\' :: 'u' :: a :: b :: c :: d :: cs =>
    match Hex.number? [a, b, c, d], parts? cs with
    | some u, some (ps, cs) => some (.unit u :: ps, cs)
    | _, _ => none
  | '\\' :: c :: cs =>
    match escaped? c, parts? cs with
    | some c, some (ps, cs) => some (.char c :: ps, cs)
    | _, _ => none
  | c :: cs =>
    if c.toNat < 0x20 then none
    else match parts? cs with
      | some (ps, cs) => some (.char c :: ps, cs)
      | none => none

def isLead (u : Nat) : Bool :=
  0xD800 ≤ u && u < 0xDC00

def isTrail (u : Nat) : Bool :=
  0xDC00 ≤ u && u < 0xE000

/-- The characters of the parts. A leading surrogate must stand right before a trailing one. -/
def joined? : List Part → Option (List Char)
  | [] => some []
  | .char c :: ps => (joined? ps).map (c :: ·)
  | [.unit u] => if isLead u || isTrail u then none else some [Char.ofNat u]
  | .unit u :: .char c :: ps =>
    if isLead u || isTrail u then none else (joined? ps).map fun cs => Char.ofNat u :: c :: cs
  | .unit u :: .unit v :: ps =>
    if isLead u then
      if isTrail v then
        (joined? ps).map (Char.ofNat (0x10000 + (u - 0xD800) * 1024 + (v - 0xDC00)) :: ·)
      else none
    else if isTrail u then none
    else (joined? (.unit v :: ps)).map (Char.ofNat u :: ·)

/-- The string that ends at the next closing quote. -/
def string? (cs : List Char) : Option (String × List Char) :=
  match parts? cs with
  | some (ps, cs) => (joined? ps).map fun s => (String.ofList s, cs)
  | none => none

/-! ## numbers -/

/-- The digits at the front. -/
def digits (cs : List Char) : List Nat × List Char :=
  ((cs.takeWhile Char.isDigit).map fun c => c.toNat - 48, cs.dropWhile Char.isDigit)

/-- The fraction digits behind a point, at least one; none are read where there is no point. -/
def fraction? : List Char → Option (List Nat × List Char)
  | '.' :: cs => if (digits cs).1.isEmpty then none else some (digits cs)
  | cs => some ([], cs)

/-- A signed exponent behind its mark, with at least one digit. -/
def exponent? : List Char → Option (Option Int × List Char)
  | c :: cs =>
    if c = 'e' ∨ c = 'E' then
      let (sign, cs) : Int × List Char := match cs with
        | '-' :: cs => (-1, cs)
        | '+' :: cs => (1, cs)
        | cs => (1, cs)
      if (digits cs).1.isEmpty then none
      else some (some (sign * Nat.ofDigitChars 10 (cs.takeWhile Char.isDigit) 0), (digits cs).2)
    else some (none, c :: cs)
  | [] => some (none, [])

/-- The number of its parts. -/
def number? (negative : Bool) (whole fraction : List Nat) (exponent : Option Int) : Option Json :=
  let n : Nat := whole.foldl (fun n d => n * 10 + d) 0
  let plain := fraction.isEmpty ∧ exponent = none
  if plain ∧ ¬ negative ∧ n < 0x10000000000000000 then some (.int n)
  else if plain ∧ negative ∧ 0 < n ∧ n ≤ 0x8000000000000000 then some (.int (-n))
  else (Binary64.ofDigits? negative whole fraction (exponent.getD 0)).map .double

/-- A number behind its sign; a leading zero stands alone. -/
def unsigned? (negative : Bool) (cs : List Char) : Option (Json × List Char) :=
  let (whole, cs) := digits cs
  match whole with
  | [] => none
  | 0 :: _ :: _ => none
  | _ =>
    match fraction? cs with
    | none => none
    | some (fraction, cs) =>
      match exponent? cs with
      | none => none
      | some (exponent, cs) => (number? negative whole fraction exponent).map (·, cs)

/-! ## values -/

/-- A value that holds no other. -/
def scalar? : List Char → Option (Json × List Char)
  | 'n' :: 'u' :: 'l' :: 'l' :: cs => some (.null, cs)
  | 't' :: 'r' :: 'u' :: 'e' :: cs => some (.bool true, cs)
  | 'f' :: 'a' :: 'l' :: 's' :: 'e' :: cs => some (.bool false, cs)
  | '"' :: cs => (string? cs).map fun (s, cs) => (.str s, cs)
  | '-' :: cs => unsigned? true cs
  | cs => unsigned? false cs

/-- One or more items with commas between them, up to the closing mark. The fuel bounds their
number. -/
def items? {α : Type} (item? : List Char → Option (α × List Char)) (close : Char) :
    Nat → List Char → Option (List α × List Char)
  | 0, _ => none
  | fuel + 1, cs =>
    match item? cs with
    | none => none
    | some (x, cs) =>
      match skipBlank cs with
      | [] => none
      | c :: cs =>
        if c = close then some ([x], cs)
        else if c = ',' then (items? item? close fuel cs).map fun (xs, cs) => (x :: xs, cs)
        else none

/-- What stands behind an opening mark: the closing one at once, or items up to it. -/
def group? {α : Type} (item? : List Char → Option (α × List Char)) (close : Char)
    (cs : List Char) : Option (List α × List Char) :=
  match skipBlank cs with
  | [] => none
  | c :: rest => if c = close then some ([], rest) else items? item? close cs.length cs

/-- A name, a colon and a value. -/
def memberOf? {α : Type} (value? : List Char → Option (α × List Char)) (cs : List Char) :
    Option ((String × α) × List Char) :=
  match skipBlank cs with
  | '"' :: cs =>
    match string? cs with
    | none => none
    | some (name, cs) =>
      match skipBlank cs with
      | ':' :: cs => (value? cs).map fun (v, cs) => ((name, v), cs)
      | _ => none
  | _ => none

/-- A value in which arrays and objects nest no deeper than the budget. -/
def value? : Nat → List Char → Option (Json × List Char)
  | 0, cs => scalar? (skipBlank cs)
  | budget + 1, cs =>
    match skipBlank cs with
    | '[' :: cs => (group? (value? budget) ']' cs).map fun (vs, cs) => (.arr vs, cs)
    | '\x7b' :: cs =>
      (group? (memberOf? (value? budget)) '\x7d' cs).map fun (ms, cs) => (.obj ms, cs)
    | cs => scalar? cs

/-- The nesting that a document may have. -/
def maxDepth : Nat := 127

/-- The value that a text of bounded nesting writes. -/
def parseWithin? (budget : Nat) (text : String) : Option Json :=
  match value? budget text.toList with
  | some (v, cs) => if (skipBlank cs).isEmpty then some v else none
  | none => none

/-- The value that a document writes, every member kept. -/
def parse? (text : String) : Option Json :=
  parseWithin? maxDepth text

end HstoreKit.Json
