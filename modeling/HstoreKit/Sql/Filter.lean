import HstoreKit.Sql.Predicate

/-!
# Filters

Conditions on plain columns and on hstore columns, combined by AND, OR and NOT. A filter is data;
`render` writes its SQL and numbers the parameters from left to right.
-/

namespace HstoreKit.Sql

/-- The tests that a plain column may be put to. -/
inductive Operator where
  | eq
  | ne
  | gt
  | gte
  | lt
  | lte
  | like
  | isNull
  | isNotNull
  deriving DecidableEq, Repr

/-- The sign of an operator that takes a value. -/
def Operator.sql? : Operator → Option String
  | .eq => some "="
  | .ne => some "<>"
  | .gt => some ">"
  | .gte => some ">="
  | .lt => some "<"
  | .lte => some "<="
  | .like => some "LIKE"
  | .isNull => none
  | .isNotNull => none

/-- A test of a plain column. The value JSON null is a value like any other. -/
structure Condition where
  field : String
  operator : Operator
  value : Option Json

/-- The SQL of a condition. Equality with no value tests for NULL; any other comparison with no
value never holds. -/
def Condition.render (c : Condition) (b : Bindings) : String × Bindings :=
  match c.operator, c.value with
  | .isNull, _ => (c.field ++ " IS NULL", b)
  | .eq, none => (c.field ++ " IS NULL", b)
  | .isNotNull, _ => (c.field ++ " IS NOT NULL", b)
  | .ne, none => (c.field ++ " IS NOT NULL", b)
  | _, none => ("1=0", b)
  | op, some v =>
    match op.sql? with
    | some sign =>
      let (parameter, b) := b.bind v
      (c.field ++ " " ++ sign ++ " " ++ parameter, b)
    | none => ("1=0", b)

/-- How the members of a group are joined. -/
inductive Connective where
  | and
  | or
  deriving DecidableEq, Repr

def Connective.sql : Connective → String
  | .and => " AND "
  | .or => " OR "

/-- What an empty group means: all of no conditions hold, and none of them does. -/
def Connective.identity : Connective → String
  | .and => "1=1"
  | .or => "1=0"

inductive Filter where
  | condition (c : Condition)
  | group (connective : Connective) (filters : List Filter)
  | not (filter : Filter)
  | hstore (p : Predicate)

/-- The filter that always holds. -/
instance : Inhabited Filter := ⟨.group .and []⟩

namespace Filter

mutual

/-- The SQL of a filter. -/
def render : Filter → Bindings → String × Bindings
  | .condition c, b => c.render b
  | .group connective [], b => (connective.identity, b)
  | .group connective (f :: fs), b =>
    let (sqls, b) := renderAll (f :: fs) b
    ("(" ++ String.intercalate connective.sql sqls ++ ")", b)
  | .not f, b =>
    let (sql, b) := f.render b
    ("NOT (" ++ sql ++ ")", b)
  | .hstore p, b => p.render b

/-- Renders filters one after the other. -/
def renderAll : List Filter → Bindings → List String × Bindings
  | [], b => ([], b)
  | f :: fs, b =>
    let (sql, b) := f.render b
    let (sqls, b) := renderAll fs b
    (sql :: sqls, b)

end

/-- The SQL of a filter on its own, and the values that its parameters stand for. -/
def toSql (f : Filter) : String × List Json :=
  let (sql, b) := f.render {}
  (sql, b.values)

/-! ## shorthands -/

/-- A plain column against a value. -/
def test (op : Operator) (field : String) (value : Json) : Filter :=
  .condition ⟨field, op, some value⟩

/-- A plain column against a LIKE pattern. -/
def like (field pattern : String) : Filter :=
  test .like field (.str pattern)

def isNull (field : String) : Filter :=
  .condition ⟨field, .isNull, none⟩

def isNotNull (field : String) : Filter :=
  .condition ⟨field, .isNotNull, none⟩

/-- All of the filters hold. -/
def all (filters : List Filter) : Filter :=
  .group .and filters

/-- One of the filters holds. -/
def any (filters : List Filter) : Filter :=
  .group .or filters

def hasKey (column key : String) : Filter :=
  .hstore (.hasKey column key)

def hasAllKeys (column : String) (keys : List String) : Filter :=
  .hstore (.hasAllKeys column keys)

def valueIsNull (column key : String) : Filter :=
  .hstore (.valueIsNull column key)

/-- The value at a key against another. -/
def valueCompare (op : Comparison) (column key value : String) : Filter :=
  .hstore (.compare column key op value)

/-- The value at a key contains, starts with or ends with another. -/
def valueLike (mode : LikeMode) (column key value : String) : Filter :=
  .hstore (.like column key mode value)

end Filter

end HstoreKit.Sql
