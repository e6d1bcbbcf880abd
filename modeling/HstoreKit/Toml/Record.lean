import HstoreKit.Toml.Basic

/-!
# Records in TOML

A record of named fields is read from a table, or from an array that holds the fields in order. A
table may have further keys, but their numbers have to be numbers that can be held; a date counts as
a table that has none of the fields.
-/

namespace HstoreKit.Toml

namespace Value

mutual

/-- Whether every number in a value can be held: whole numbers in 128 bits, floats in range. -/
def isSound : Value → Bool
  | .integer n =>
    n.any fun n =>
      -0x80000000000000000000000000000000 ≤ n && n < 0x100000000000000000000000000000000
  | .float x => x.isSome
  | .array items => areSound items
  | .tables items => tablesAreSound items
  | .table _ entries => entriesAreSound entries
  | _ => true

def areSound : List Value → Bool
  | [] => true
  | v :: vs => v.isSound && areSound vs

def entriesAreSound : List (String × Value) → Bool
  | [] => true
  | (_, v) :: es => v.isSound && entriesAreSound es

def tablesAreSound : List (Origin × List (String × Value)) → Bool
  | [] => true
  | (_, es) :: ts => entriesAreSound es && tablesAreSound ts

end

/-- The fields of those names. -/
def fields? (names : List String) : Value → Option (List (Option Value))
  | .table _ entries =>
    if (entries.filter fun e => e.1 ∉ names).all fun e => e.2.isSound then
      some (names.map fun name => entries.lookup name)
    else none
  | .array items => some ((List.range names.length).map (items[·]?))
  | .tables items =>
    some ((List.range names.length).map fun i => items[i]?.map fun t => .table t.1 t.2)
  | .dateTime _ => some (names.map fun _ => none)
  | _ => none

def string? : Value → Option String
  | .string s => some s
  | _ => none

def boolean? : Value → Option Bool
  | .boolean b => some b
  | _ => none

/-- A whole number of that many unsigned bits. -/
def unsigned? (bits : Nat) : Value → Option Nat
  | .integer (some n) => if 0 ≤ n ∧ n < Nat.pow 2 bits then some n.toNat else none
  | _ => none

end Value

end HstoreKit.Toml
