import HstoreKit.Json.Basic
import HstoreKit.Sql.Quote

/-!
# Conditions on an hstore column

Keys are written into the statement as string literals, values are bound as parameters. Rendering
threads the values bound so far and the number of the next parameter.
-/

namespace HstoreKit.Sql

/-- The values bound so far, and the number of the next parameter, a signed 32-bit word. -/
structure Bindings where
  values : List Json := []
  next : Int32 := 1

/-- Binds a value: the parameter that stands for it, and the bindings with it. -/
def Bindings.bind (b : Bindings) (v : Json) : String × Bindings :=
  ("$" ++ toString b.next.toInt, ⟨b.values ++ [v], b.next + 1⟩)

/-- The comparisons that a value may be put to. -/
inductive Comparison where
  | eq
  | ne
  | gt
  | gte
  | lt
  | lte
  deriving DecidableEq, Repr

def Comparison.sql : Comparison → String
  | .eq => "="
  | .ne => "<>"
  | .gt => ">"
  | .gte => ">="
  | .lt => "<"
  | .lte => "<="

/-- Where in a text a LIKE condition looks for a value. -/
inductive LikeMode where
  | anywhere
  | atStart
  | atEnd
  deriving DecidableEq, Repr

/-- The pattern of a value. Wildcards inside the value stay wildcards. -/
def LikeMode.pattern (mode : LikeMode) (value : String) : String :=
  match mode with
  | .anywhere => "%" ++ value ++ "%"
  | .atStart => value ++ "%"
  | .atEnd => "%" ++ value

/-- A condition on an hstore column. -/
inductive Predicate where
  | hasKey (column key : String)
  | hasAllKeys (column : String) (keys : List String)
  | valueIsNull (column key : String)
  | compare (column key : String) (op : Comparison) (value : String)
  | like (column key : String) (mode : LikeMode) (value : String)
  deriving DecidableEq, Repr

/-- The value at a key of a column. -/
def valueAt (column key : String) : String :=
  quotedName column ++ " -> " ++ literal key

/-- The list of keys as an SQL array. -/
def keyArray : List String → String
  | [] => "ARRAY[]::text[]"
  | keys => "ARRAY[" ++ String.intercalate "," (keys.map literal) ++ "]"

/-- The SQL of a condition. -/
def Predicate.render : Predicate → Bindings → String × Bindings
  | .hasKey column key, b => ("exist(" ++ quotedName column ++ ", " ++ literal key ++ ")", b)
  | .hasAllKeys column keys, b => (quotedName column ++ " ?& " ++ keyArray keys, b)
  | .valueIsNull column key, b =>
    ("defined(" ++ quotedName column ++ ", " ++ literal key ++ ") is false", b)
  | .compare column key op value, b =>
    let (parameter, b) := b.bind (.str value)
    (valueAt column key ++ " " ++ op.sql ++ " " ++ parameter, b)
  | .like column key mode value, b =>
    let (parameter, b) := b.bind (.str (mode.pattern value))
    (valueAt column key ++ " LIKE " ++ parameter, b)

/-- Renders conditions one after the other. -/
def Predicate.renderAll : List Predicate → Bindings → List String × Bindings
  | [], b => ([], b)
  | p :: ps, b =>
    let (sql, b) := p.render b
    let (sqls, b) := renderAll ps b
    (sql :: sqls, b)

end HstoreKit.Sql
