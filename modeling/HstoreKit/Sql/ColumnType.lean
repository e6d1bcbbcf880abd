import HstoreKit.Text.Space

/-!
# Column types

The column type of a field, read from the text of the field's type. One `Option<..>` around a type
is looked through; it says that the column may be NULL. Types that are not known become VARCHAR.
-/

namespace HstoreKit.Sql

inductive ColumnType where
  | hstore
  | uuid
  | varchar
  | smallint
  | integer
  | bigint
  | real
  | doublePrecision
  | boolean
  | timestamp
  | jsonb
  | bytea
  | textArray
  deriving DecidableEq, Repr

namespace ColumnType

def sql : ColumnType → String
  | .hstore => "HSTORE"
  | .uuid => "UUID"
  | .varchar => "VARCHAR"
  | .smallint => "SMALLINT"
  | .integer => "INTEGER"
  | .bigint => "BIGINT"
  | .real => "REAL"
  | .doublePrecision => "DOUBLE PRECISION"
  | .boolean => "BOOLEAN"
  | .timestamp => "TIMESTAMP WITH TIME ZONE"
  | .jsonb => "JSONB"
  | .bytea => "BYTEA"
  | .textArray => "TEXT[]"

/-- The known types and their columns. -/
def table : List (String × ColumnType) := [
  ("Hstore", .hstore), ("type_mapping::Hstore", .hstore),
  ("HashMap<String,Option<String>>", .hstore), ("BTreeMap<String,Option<String>>", .hstore),
  ("Uuid", .uuid), ("uuid::Uuid", .uuid), ("String", .varchar), ("i16", .smallint),
  ("i32", .integer), ("i64", .bigint), ("f32", .real), ("f64", .doublePrecision),
  ("bool", .boolean), ("chrono::DateTime<chrono::Utc>", .timestamp), ("DateTime<Utc>", .timestamp),
  ("serde_json::Value", .jsonb), ("Value", .jsonb), ("Vec<u8>", .bytea),
  ("Vec<String>", .textArray)]

/-- The start of a type that may be absent. -/
def wrapper : List Char :=
  "Option".toList

/-- What stands in `Option<..>`. -/
def unwrapped? (t : List Char) : Option (List Char) :=
  let opening := wrapper ++ ['<']
  if opening.isPrefixOf t ∧ (t.drop opening.length).getLast? = some '>' then
    some (t.drop opening.length).dropLast
  else none

/-- The column of a type. Spaces do not count. -/
def ofTypeText (t : String) : ColumnType :=
  let t := t.toList.filter (· ≠ ' ')
  let inner := (unwrapped? t).getD t
  (table.lookup (String.ofList inner)).getD .varchar

/-- Whether the column of a type may be NULL: whether the type begins with the wrapper's name, white
space aside. -/
def isNullable (t : String) : Bool :=
  wrapper.isPrefixOf (Text.trimStart t.toList)

end ColumnType

/-! ## the hstore type itself -/

/-- The hstore type in the dialects that have one. -/
def schemaTypes : List (String × String) :=
  [("postgres", "hstore")]

/-- The hstore type in a dialect. -/
def schemaType? (dialect : String) : Option String :=
  schemaTypes.lookup dialect

/-- The name under which a server knows the type. -/
def typeName : String := "hstore"

/-- The name of its array type. -/
def arrayTypeName : String := "_hstore"

/-- A parameter that is to be read as an hstore. -/
def castParameter (placeholder : String) : String :=
  placeholder ++ "::hstore"

end HstoreKit.Sql
