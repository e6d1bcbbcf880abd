import HstoreKit.Json.Printer

/-!
# Values on a query

What is sent for a JSON value: a text, a 64-bit whole number, a double, a truth value or NULL.
Arrays and objects are sent as their compact text.
-/

namespace HstoreKit.Sql

inductive Bound where
  | text (s : String)
  | bigint (n : Int)
  | double (x : Binary64)
  | boolean (b : Bool)
  | null

/-- What is sent for a value. A whole number beyond 64 signed bits becomes the nearest double. -/
def Bound.ofJson : Json → Bound
  | .str s => .text s
  | .int n =>
    if -0x8000000000000000 ≤ n ∧ n < 0x8000000000000000 then .bigint n else .double (.ofInt n)
  | .double x => .double x
  | .bool b => .boolean b
  | .null => .null
  | v => .text v.collapse.compact

/-- Puts a value behind the arguments that a query has. -/
def bindValue (args : List Bound) (value : Json) : List Bound :=
  args ++ [.ofJson value]

/-- Puts values on a query one after the other. -/
def bindValues (args : List Bound) (values : List Json) : List Bound :=
  values.foldl bindValue args

/-- The arguments of a new query. -/
def arguments (values : List Json) : List Bound :=
  bindValues [] values

/-- Every value becomes one argument, in the order of the values. -/
theorem bindValues_eq (args : List Bound) (values : List Json) :
    bindValues args values = args ++ values.map Bound.ofJson := by
  induction values generalizing args with
  | nil => simp [bindValues]
  | cons v vs ih =>
    have hstep : bindValues args (v :: vs) = bindValues (bindValue args v) vs := rfl
    rw [hstep, ih, bindValue, List.append_assoc, List.map_cons, List.singleton_append]

end HstoreKit.Sql
