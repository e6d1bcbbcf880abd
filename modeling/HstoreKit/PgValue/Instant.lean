import HstoreKit.Text.Space

/-!
# Instants

A point in time as seconds since 1970 and nanoseconds. A leap second is the second before it with a
thousand million nanoseconds more. Dates are proleptic Gregorian; an instant is written in UTC with
as many fraction digits as it needs, and read in a loose form of RFC 3339 in which blanks may stand
before each part.
-/

namespace HstoreKit

structure Instant where
  second : Int
  nano : Nat
  deriving DecidableEq, Repr

namespace Instant

/-! ## the calendar -/

/-- Days from 1970 to a date. Years run from March here, in eras of 400. -/
def daysOfDate (year : Int) (month day : Nat) : Int :=
  let y := if month ≤ 2 then year - 1 else year
  let era := Int.fdiv y 400
  let yearOfEra := y - era * 400
  let dayOfYear : Int := ((153 * ((month + 9) % 12) + 2) / 5 + day - 1 : Nat)
  era * 146097 + yearOfEra * 365 + yearOfEra / 4 - yearOfEra / 100 + dayOfYear - 719468

/-- The date that so many days after 1970 begin. -/
def dateOfDays (days : Int) : Int × Nat × Nat :=
  let z := days + 719468
  let era := Int.fdiv z 146097
  let dayOfEra := (z - era * 146097).toNat
  let yearOfEra := (dayOfEra - dayOfEra / 1460 + dayOfEra / 36524 - dayOfEra / 146096) / 365
  let dayOfYear := dayOfEra - (365 * yearOfEra + yearOfEra / 4 - yearOfEra / 100)
  let shifted := (5 * dayOfYear + 2) / 153
  let day := dayOfYear - (153 * shifted + 2) / 5 + 1
  let month := if shifted < 10 then shifted + 3 else shifted - 9
  (yearOfEra + era * 400 + (if month ≤ 2 then 1 else 0), month, day)

def isLeapYear (year : Int) : Bool :=
  year % 4 = 0 && (year % 100 ≠ 0 || year % 400 = 0)

def daysInMonth (year : Int) (month : Nat) : Nat :=
  if month = 2 then (if isLeapYear year then 29 else 28)
  else if month = 4 ∨ month = 6 ∨ month = 9 ∨ month = 11 then 30
  else 31

/-- The years that a date may lie in. -/
def inRange (year : Int) : Bool :=
  -262143 ≤ year && year ≤ 262142

/-! ## reading -/

/-- A number of one digit up to `width`, behind blanks. -/
def number? (width : Nat) (cs : List Char) : Option (Nat × List Char) :=
  let cs := Text.trimStart cs
  let ds := (cs.take width).takeWhile Char.isDigit
  if ds.isEmpty then none else some (Nat.ofDigitChars 10 ds 0, cs.drop ds.length)

/-- A year: up to four digits, or any number of them behind a sign. -/
def year? (cs : List Char) : Option (Int × List Char) :=
  match Text.trimStart cs with
  | '-' :: cs =>
    if cs.head?.any Char.isDigit then (number? cs.length cs).map fun (n, cs) => (-n, cs)
    else none
  | '+' :: cs =>
    if cs.head?.any Char.isDigit then (number? cs.length cs).map fun (n, cs) => (n, cs)
    else none
  | cs => (number? 4 cs).map fun (n, cs) => (n, cs)

/-- A mark behind blanks. -/
def mark? (c : Char) (cs : List Char) : Option (List Char) :=
  match Text.trimStart cs with
  | d :: cs => if d = c then some cs else none
  | [] => none

/-- Nanoseconds behind a point. The first nine digits count. -/
def fraction? : List Char → Option (Nat × List Char)
  | '.' :: cs =>
    let ds := cs.takeWhile Char.isDigit
    if ds.isEmpty then none
    else some (Nat.ofDigitChars 10 (ds.take 9) 0 * Nat.pow 10 (9 - ds.length), cs.drop ds.length)
  | cs => some (0, cs)

/-- Two digits and what follows them. -/
def twoDigits? : List Char → Option (Nat × List Char)
  | a :: b :: cs =>
    if a.isDigit ∧ b.isDigit then some (Nat.ofDigitChars 10 [a, b] 0, cs) else none
  | _ => none

/-- Hours and minutes east of UTC, in seconds; colons and blanks may stand between them. -/
def east? (cs : List Char) : Option (Int × List Char) := do
  let (hours, cs) ← twoDigits? cs
  let (minutes, cs) ← twoDigits? (cs.dropWhile fun c => c = ':' || Text.isSpace c)
  if minutes < 60 then return (hours * 3600 + minutes * 60, cs) else none

/-- An offset from UTC in seconds: `UTC`, `Z`, or a sign, hours and minutes. -/
def offset? : List Char → Option (Int × List Char)
  | '+' :: cs => east? cs
  | '-' :: cs => (east? cs).map fun (n, cs) => (-n, cs)
  | '\u2212' :: cs => (east? cs).map fun (n, cs) => (-n, cs)
  | c :: cs =>
    if c = 'Z' ∨ c = 'z' then some (0, cs)
    else if (c :: cs.take 2).map Char.toUpper = ['U', 'T', 'C'] then some (0, cs.drop 2)
    else none
  | [] => none

/-- The instant of a local date and time at an offset from UTC. Second 60 is the leap second. -/
def ofLocal? (year : Int) (month day hour minute second nano : Nat) (offset : Int) :
    Option Instant :=
  if inRange year ∧ 1 ≤ month ∧ month ≤ 12 ∧ 1 ≤ day ∧ day ≤ daysInMonth year month ∧ hour ≤ 23 ∧
      minute ≤ 59 ∧ second ≤ 60 ∧ offset.natAbs < 86400 then
    let s := daysOfDate year month day * 86400 + hour * 3600 + minute * 60 + min second 59 - offset
    if inRange (dateOfDays (Int.fdiv s 86400)).1 then
      some ⟨s, if second = 60 then 1000000000 + nano else nano⟩
    else none
  else none

/-- The instant that a text names. -/
def parse? (text : String) : Option Instant := do
  let (year, cs) ← year? text.toList
  let (month, cs) ← number? 2 (← mark? '-' cs)
  let (day, cs) ← number? 2 (← mark? '-' cs)
  let cs ← match cs with
    | c :: cs => if c = 'T' ∨ c = 't' ∨ c = ' ' then some cs else none
    | [] => none
  let (hour, cs) ← number? 2 cs
  let (minute, cs) ← number? 2 (← mark? ':' cs)
  let (second, cs) ← number? 2 (← mark? ':' cs)
  let (nano, cs) ← fraction? cs
  let (offset, cs) ← offset? (Text.trimStart cs)
  if (Text.trimStart cs).isEmpty then ofLocal? year month day hour minute second nano offset
  else none

/-! ## writing -/

/-- A number with zeros before it up to a width. -/
def padded (width n : Nat) : String :=
  String.ofList ((toString n).toList.leftpad width '0')

/-- Four digits, or a sign and at least four digits for a year beyond them. -/
def yearText (year : Int) : String :=
  if 0 ≤ year ∧ year ≤ 9999 then padded 4 year.natAbs
  else (if year < 0 then "-" else "+") ++ padded 4 year.natAbs

/-- Three, six or nine digits behind a point, the fewest that lose nothing, or nothing at all. -/
def fractionText (nano : Nat) : String :=
  if nano = 0 then ""
  else if nano % 1000000 = 0 then "." ++ padded 3 (nano / 1000000)
  else if nano % 1000 = 0 then "." ++ padded 6 (nano / 1000)
  else "." ++ padded 9 nano

/-- The instant in UTC. -/
def toText (t : Instant) : String :=
  let days := Int.fdiv t.second 86400
  let s := (t.second - days * 86400).toNat
  let (year, month, day) := dateOfDays days
  let leap := 1000000000 ≤ t.nano
  yearText year ++ "-" ++ padded 2 month ++ "-" ++ padded 2 day ++ "T" ++ padded 2 (s / 3600) ++
    ":" ++ padded 2 (s / 60 % 60) ++ ":" ++ padded 2 (s % 60 + if leap then 1 else 0) ++
    fractionText (if leap then t.nano - 1000000000 else t.nano) ++ "Z"

end Instant

end HstoreKit
