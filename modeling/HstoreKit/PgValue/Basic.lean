import HstoreKit.Hstore.Error
import HstoreKit.Hstore.Scan
import HstoreKit.Hstore.Text
import HstoreKit.Json.Basic
import HstoreKit.PgValue.Instant
import HstoreKit.PgValue.Uuid

/-!
# Driver values

What a database driver hands over for a column. An hstore reads itself from its text, from bytes of
text, from a decoded hstore and from NULL; any other value is of the wrong type and changes nothing.
-/

namespace HstoreKit

inductive PgValue where
  | text (s : String)
  | bytes (bs : List UInt8)
  | integer (n : Int32)
  | bigint (n : Int64)
  | float (x : Binary64)
  | boolean (b : Bool)
  | uuid (u : Uuid)
  | timestamp (t : Instant)
  | json (v : Json)
  | hstore (h : Hstore)
  | null

namespace PgValue

/-- The name of the column type. -/
def typeName : PgValue → String
  | .text _ => "text"
  | .bytes _ => "bytea"
  | .integer _ => "integer"
  | .bigint _ => "bigint"
  | .float _ => "double precision"
  | .boolean _ => "boolean"
  | .uuid _ => "uuid"
  | .timestamp _ => "timestamp with time zone"
  | .json _ => "jsonb"
  | .hstore _ => "hstore"
  | .null => "null"

def isNull : PgValue → Bool
  | .null => true
  | _ => false

/-- The value of something that may be absent. -/
def ofOption {α : Type} (value : α → PgValue) : Option α → PgValue
  | some a => value a
  | none => .null

/-- The value that is sent for an hstore: its text form, or NULL when there is none. -/
def ofHstore? (h : Option Hstore) : PgValue :=
  ofOption .text (Hstore.textOf? h)

end PgValue

namespace Hstore

/-- Reads a driver value and writes its pairs. -/
def scanValue (h : Hstore) : PgValue → Hstore × Except HstoreError Unit
  | .null => (h, .ok ())
  | .hstore other => (h.merge other, .ok ())
  | .text s => (h.scanText s, .ok ())
  | .bytes bs => (h.scan bs, .ok ())
  | v => (h, .error (.invalidInputType v.typeName))

end Hstore

end HstoreKit
