import HstoreKit.Sql.Filter
import HstoreKit.Sql.Identifier

/-!
# SELECT statements

A query collects filters, ordering and pagination. `clauses` writes them; `select` puts them behind
a table, provided that the table and every plain field is a plain identifier.
-/

namespace HstoreKit.Sql

inductive Direction where
  | asc
  | desc
  deriving DecidableEq, Repr

def Direction.sql : Direction → String
  | .asc => "ASC"
  | .desc => "DESC"

instance : Inhabited Direction := ⟨.asc⟩

structure Query where
  filters : List Filter := []
  order : List (String × Direction) := []
  limit : Option Int := none
  offset : Option Int := none

/-- The clauses of a statement, each empty if there is nothing to say, and the values bound. -/
structure Clauses where
  filter : String
  order : String
  page : String
  values : List Json

namespace Query

/-- Adds a filter that has to hold too. -/
def filter (q : Query) (f : Filter) : Query :=
  { q with filters := q.filters ++ [f] }

/-- Adds filters that have to hold too. -/
def whereAll (q : Query) (fs : List Filter) : Query :=
  { q with filters := q.filters ++ fs }

/-- Orders by a field, after the fields that were given before. -/
def orderBy (q : Query) (field : String) (direction : Direction) : Query :=
  { q with order := q.order ++ [(field, direction)] }

def withLimit (q : Query) (n : Int) : Query :=
  { q with limit := some n }

def withOffset (q : Query) (n : Int) : Query :=
  { q with offset := some n }

/-! ## clauses -/

/-- The WHERE clause and the values that it binds. -/
def filterClause (filters : List Filter) : String × List Json :=
  match filters with
  | [] => ("", [])
  | fs =>
    let (sqls, b) := Filter.renderAll fs {}
    ("WHERE " ++ String.intercalate " AND " sqls, b.values)

/-- A field and its direction. -/
def orderItem (item : String × Direction) : String :=
  item.1 ++ " " ++ item.2.sql

def orderClause : List (String × Direction) → String
  | [] => ""
  | items => "ORDER BY " ++ String.intercalate ", " (items.map orderItem)

/-- The LIMIT and OFFSET clauses. -/
def pageClause (limit offset : Option Int) : String :=
  let limits := limit.toList.map fun n => "LIMIT " ++ toString n
  let offsets := offset.toList.map fun n => "OFFSET " ++ toString n
  String.intercalate " " (limits ++ offsets)

/-- Every clause of the query. -/
def clauses (q : Query) : Clauses :=
  let (filter, values) := filterClause q.filters
  ⟨filter, orderClause q.order, pageClause q.limit q.offset, values⟩

/-! ## statements -/

/-- Checks one name. -/
def checkName (name : String) : Except NameFault Unit :=
  match nameFault? name with
  | none => .ok ()
  | some fault => .error fault

mutual

/-- Checks the plain fields of a filter from left to right. -/
def checkFields : Filter → Except NameFault Unit
  | .condition c => checkName c.field
  | .group _ fs => checkAllFields fs
  | .not f => checkFields f
  | .hstore _ => .ok ()

def checkAllFields : List Filter → Except NameFault Unit
  | [] => .ok ()
  | f :: fs => do
    checkFields f
    checkAllFields fs

end

/-- Checks the fields of an ordering. -/
def checkOrder : List (String × Direction) → Except NameFault Unit
  | [] => .ok ()
  | item :: items => do
    checkName item.1
    checkOrder items

/-- A clause behind a space, or nothing. -/
def appended (clause : String) : String :=
  if clause.isEmpty then "" else " " ++ clause

/-- The statement on a table and the values of its parameters. -/
def select (q : Query) (table : String) : Except NameFault (String × List Json) := do
  let table ← Identifier.check table
  checkAllFields q.filters
  checkOrder q.order
  let c := q.clauses
  return ("SELECT * FROM " ++ quotedName table.name ++ appended c.filter ++ appended c.order ++
    appended c.page, c.values)

end Query

end HstoreKit.Sql
