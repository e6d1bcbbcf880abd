import HstoreKit.Number.Hex
import HstoreKit.Number.Nearest
import HstoreKit.Toml.Basic

/-!
# TOML strings, numbers and dates

What a value without brackets looks like. Strings come in four kinds, with or without escapes and on
one line or several; everything else is one word.
-/

namespace HstoreKit.Toml

/-- Characters that may stand in comments and strings: no controls but the tab. -/
def isTextChar (c : Char) : Bool :=
  c = '\t' || (0x20 ≤ c.toNat && c.toNat ≠ 0x7F)

/-! ## strings -/

/-- The character of a hexadecimal escape of that many digits. -/
def codePoint? (width : Nat) (cs : List Char) : Option (Char × List Char) :=
  if cs.length < width then none
  else match Hex.number? (cs.take width) with
    | some n => if n.isValidChar then some (Char.ofNat n, cs.drop width) else none
    | none => none

/-- The character that stands behind a backslash. -/
def escaped? : List Char → Option (Char × List Char)
  | 'b' :: cs => some ('\x08', cs)
  | 't' :: cs => some ('\t', cs)
  | 'n' :: cs => some ('\n', cs)
  | 'f' :: cs => some ('\x0c', cs)
  | 'r' :: cs => some ('\r', cs)
  | 'e' :: cs => some ('\x1b', cs)
  | '"' :: cs => some ('"', cs)
  | '\\' :: cs => some ('\\', cs)
  | 'x' :: cs => codePoint? 2 cs
  | 'u' :: cs => codePoint? 4 cs
  | 'U' :: cs => codePoint? 8 cs
  | _ => none

/-- A string on one line, behind its opening quote. The fuel bounds its length. -/
def line? (quote : Char) (escapes : Bool) : Nat → List Char → Option (List Char × List Char)
  | 0, _ => none
  | _, [] => none
  | fuel + 1, c :: cs =>
    if c = quote then some ([], cs)
    else if escapes ∧ c = '\\' then
      match escaped? cs with
      | some (c, cs) => (line? quote escapes fuel cs).map fun (s, cs) => (c :: s, cs)
      | none => none
    else if isTextChar c then (line? quote escapes fuel cs).map fun (s, cs) => (c :: s, cs)
    else none

def isBlank (c : Char) : Bool :=
  c = ' ' || c = '\t'

/-- A line end at the front, taken off. -/
def newline? : List Char → Option (List Char)
  | '\n' :: cs => some cs
  | '\r' :: '\n' :: cs => some cs
  | _ => none

/-- Drops blanks and line ends. -/
def skipWhite : List Char → List Char
  | '\r' :: '\n' :: cs => skipWhite cs
  | c :: cs => if isBlank c ∨ c = '\n' then skipWhite cs else c :: cs
  | [] => []

/-- A string of several lines, behind its opening quotes. Up to two quotes may stand right before
the three that close it. A backslash at the end of a line takes the line end with it and the white
space behind. -/
def block? (quote : Char) (escapes : Bool) : Nat → List Char → Option (List Char × List Char)
  | 0, _ => none
  | _, [] => none
  | fuel + 1, c :: cs =>
    if c = quote then
      let run := (c :: cs).takeWhile (· = quote)
      let rest := (c :: cs).drop run.length
      if 5 < run.length then none
      else if 3 ≤ run.length then some (run.drop 3, rest)
      else (block? quote escapes fuel rest).map fun (s, cs) => (run ++ s, cs)
    else if escapes ∧ c = '\\' then
      match escaped? cs with
      | some (c, cs) => (block? quote escapes fuel cs).map fun (s, cs) => (c :: s, cs)
      | none =>
        match newline? (cs.dropWhile isBlank) with
        | some cs => block? quote escapes fuel (skipWhite cs)
        | none => none
    else if isTextChar c then (block? quote escapes fuel cs).map fun (s, cs) => (c :: s, cs)
    else match newline? (c :: cs) with
      | some rest =>
        (block? quote escapes fuel rest).map fun (s, cs') =>
          ((c :: cs).take (cs.length + 1 - rest.length) ++ s, cs')
      | none => none

/-- A string of either kind with that quote. A line end right behind the three opening quotes does
not count. -/
def quotedString? (quote : Char) (escapes : Bool) : List Char → Option (List Char × List Char)
  | a :: b :: c :: cs =>
    if a = quote ∧ b = quote ∧ c = quote then
      block? quote escapes (cs.length + 1) ((newline? cs).getD cs)
    else if a = quote then line? quote escapes (cs.length + 3) (b :: c :: cs)
    else none
  | a :: cs => if a = quote then line? quote escapes (cs.length + 1) cs else none
  | [] => none

/-! ## numbers -/

/-- Whether an underscore has a digit on either side of it; the flag says that what comes before
will do for its left side. -/
def separated (isDigit : Char → Bool) : Bool → List Char → Bool
  | _, [] => true
  | left, '_' :: cs => left && cs.head?.any isDigit && separated isDigit false cs
  | _, c :: cs => separated isDigit (isDigit c) cs

/-- The text without its underscores. -/
def joined (cs : List Char) : List Char :=
  cs.filter (· ≠ '_')

/-- The number that one or more digits spell. -/
def decimal? (cs : List Char) : Option Nat :=
  if !cs.isEmpty && cs.all Char.isDigit then some (Nat.ofDigitChars 10 cs 0) else none

def signedBy (negative : Bool) (n : Int) : Int :=
  if negative then -n else n

/-- A sign taken off: whether it is a minus, whether there is one, and the rest. -/
def unsigned : List Char → Bool × Bool × List Char
  | '-' :: cs => (true, true, cs)
  | '+' :: cs => (false, true, cs)
  | cs => (false, false, cs)

/-- A whole number of a base, behind the mark of the base. No digits at all spell no number. -/
def based? (base : Nat) (cs : List Char) : Option Value :=
  let isDigit (c : Char) : Bool := (Hex.digit? c).any (· < base)
  if separated isDigit false cs ∧ (joined cs).all isDigit then
    some (.integer (if cs.isEmpty then none
      else some ((joined cs).foldl (fun n c => n * base + (Hex.digit? c).getD 0) 0)))
  else none

/-- A decimal whole number behind its sign. It starts with digits, the first of them no needless
zero, or with an underscore. What follows an underscore need not be digits; then the word spells no
number. A sign may stand left of an underscore. -/
def whole? (negative signed : Bool) (cs : List Char) : Option Value :=
  let rest := cs.dropWhile Char.isDigit
  if cs = ['0'] ∨ (cs.head? ≠ none ∧ cs.head? ≠ some '0' ∧ (rest = [] ∨ rest.head? = some '_') ∧
      separated (fun c => (Hex.digit? c).isSome) signed cs) then
    some (.integer ((decimal? (joined cs)).map fun n => signedBy negative n))
  else none

/-- What stands before a character and, if it occurs, what stands behind it. -/
def cut (p : Char → Bool) (cs : List Char) : List Char × Option (List Char) :=
  (cs.takeWhile (!p ·), (cs.dropWhile (!p ·)).tail?)

/-- A decimal exponent with its sign. -/
def exponent? (cs : List Char) : Option Int :=
  let (negative, _, cs) := unsigned cs
  (decimal? cs).map fun n => signedBy negative n

def isExponentMark (c : Char) : Bool :=
  c = 'e' || c = 'E'

/-- A float behind its sign: whole digits without a needless zero, and behind them a fraction, an
exponent or both. A sign may stand left of an underscore. -/
def float? (negative signed : Bool) (cs : List Char) : Option Value := do
  let (mantissa, exponent) := cut isExponentMark (joined cs)
  let (whole, fraction) := cut (· = '.') mantissa
  if !separated Char.isDigit signed cs ∨ (cs.head? = some '0' ∧ 1 < whole.length) then none
  else
    let _ ← decimal? whole
    let _ ← fraction.elim (some 0) decimal?
    let exponent ← exponent.elim (some 0) exponent?
    let digits := fraction.getD []
    let n := Nat.ofDigitChars 10 (whole ++ digits) 0
    return .float ((Binary64.nearest? n (exponent - digits.length)).map
      (Binary64.ofParts negative))

/-- The word of no number in the place of a fraction. -/
def notANumber : Nat := 0x7FF8000000000000

def number? (word : List Char) : Option Value :=
  let (negative, signed, cs) := unsigned word
  match cs with
  | ['i', 'n', 'f'] => some (.float (some (.ofParts negative Binary64.infinite)))
  | ['n', 'a', 'n'] => some (.float (some (.ofParts negative notANumber)))
  | '0' :: 'x' :: ds => if signed then none else based? 16 ds
  | '0' :: 'o' :: ds => if signed then none else based? 8 ds
  | '0' :: 'b' :: ds => if signed then none else based? 2 ds
  | _ =>
    if cs.any fun c => c = '.' || isExponentMark c then float? negative signed cs
    else whole? negative signed cs

/-! ## dates and times -/

/-- A number of exactly that many digits, and the rest. -/
def fixed? (width : Nat) (cs : List Char) : Option (Nat × List Char) :=
  let ds := cs.takeWhile Char.isDigit
  if ds.length = width then some (Nat.ofDigitChars 10 ds 0, cs.drop width) else none

def expect? (c : Char) : List Char → Option (List Char)
  | d :: cs => if d = c then some cs else none
  | [] => none

def daysInMonth (year month : Nat) : Nat :=
  if month = 2 then
    if year % 4 = 0 ∧ (year % 100 ≠ 0 ∨ year % 400 = 0) then 29 else 28
  else if month = 4 ∨ month = 6 ∨ month = 9 ∨ month = 11 then 30
  else 31

/-- A date, and the rest. -/
def date? (cs : List Char) : Option (List Char) := do
  let (year, cs) ← fixed? 4 cs
  let (month, cs) ← fixed? 2 (← expect? '-' cs)
  let (day, cs) ← fixed? 2 (← expect? '-' cs)
  if 1 ≤ month ∧ month ≤ 12 ∧ 1 ≤ day ∧ day ≤ daysInMonth year month then some cs else none

/-- Digits behind a point, if there is one. -/
def subsecond? : List Char → Option (List Char)
  | '.' :: cs => if cs.head?.any Char.isDigit then some (cs.dropWhile Char.isDigit) else none
  | cs => some cs

/-- A time of day, and the rest. Seconds may be left out, and may be 60. -/
def time? (cs : List Char) : Option (List Char) := do
  let (hour, cs) ← fixed? 2 cs
  let (minute, cs) ← fixed? 2 (← expect? ':' cs)
  if 23 < hour ∨ 59 < minute then none
  else match cs with
    | ':' :: cs =>
      let (second, cs) ← fixed? 2 cs
      if 60 < second then none else subsecond? cs
    | cs => some cs

/-- Whether the text is an offset from UTC, or nothing. -/
def isOffset : List Char → Bool
  | [] => true
  | [c] => c = 'Z' || c = 'z'
  | c :: cs =>
    (c = '+' || c = '-') && match fixed? 2 cs with
      | some (hours, ':' :: cs) =>
        match fixed? 2 cs with
        | some (minutes, []) => hours ≤ 23 && minutes ≤ 59
        | _ => false
      | _ => false

/-- Whether the text is a date, a time of day, or both with or without an offset. -/
def isDateTime (cs : List Char) : Bool :=
  match date? cs with
  | some [] => true
  | some (c :: rest) =>
    (c = 'T' || c = 't' || c = ' ') && (time? rest).any isOffset
  | none => (time? cs).any List.isEmpty

/-! ## words -/

/-- The characters that end a value without quotes and brackets. -/
def endsWord (c : Char) : Bool :=
  c ∈ ['=', ',', '[', ']', '\x7b', '\x7d', '#', ' ', '\t', '\r', '\n']

/-- The word at the front. A date may be followed by one blank and a time. -/
def word (cs : List Char) : List Char × List Char :=
  let w := cs.takeWhile (!endsWord ·)
  let rest := cs.drop w.length
  match rest with
  | ' ' :: d :: more =>
    if d.isDigit ∧ (date? w).any List.isEmpty then
      let t := (d :: more).takeWhile (!endsWord ·)
      (w ++ ' ' :: t, (d :: more).drop t.length)
    else (w, rest)
  | _ => (w, rest)

/-- The value of a word. -/
def ofWord? (w : List Char) : Option Value :=
  if w = ['t', 'r', 'u', 'e'] then some (.boolean true)
  else if w = ['f', 'a', 'l', 's', 'e'] then some (.boolean false)
  else if isDateTime w then some (.dateTime (String.ofList w))
  else number? w

/-- A value without brackets. -/
def scalar? (cs : List Char) : Option (Value × List Char) :=
  match cs with
  | '"' :: _ => (quotedString? '"' true cs).map fun (s, cs) => (.string (String.ofList s), cs)
  | '\'' :: _ => (quotedString? '\'' false cs).map fun (s, cs) => (.string (String.ofList s), cs)
  | _ => (ofWord? (word cs).1).map (·, (word cs).2)

end HstoreKit.Toml
