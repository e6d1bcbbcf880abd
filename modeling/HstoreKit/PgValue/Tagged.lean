import HstoreKit.Hstore.Object
import HstoreKit.PgValue.Basic

/-!
# Driver values as tagged JSON

A value is an object of one member whose name tells the kind, NULL also the bare string `Null`.
Whole numbers are refused where they are out of range, and doubles where a whole number is asked
for; a double that is not finite is written as null.
-/

namespace HstoreKit.PgValue

/-- A whole number of `bits` signed bits. -/
def signed? (bits : Nat) : Json → Option Int
  | .int n =>
    let limit : Int := Nat.pow 2 (bits - 1)
    if -limit ≤ n ∧ n < limit then some n else none
  | _ => none

def byte? : Json → Option UInt8
  | .int n => if 0 ≤ n ∧ n < 256 then some (.ofNat n.toNat) else none
  | _ => none

/-- Any number as a double. -/
def double? : Json → Option Binary64
  | .double x => some x
  | .int n => some (.ofInt n)
  | _ => none

/-- The value of a tag and its content. -/
def ofMember? : String → Json → Option PgValue
  | "Text", .str s => some (.text s)
  | "Bytes", .arr items => (items.mapM byte?).map .bytes
  | "Integer", v => (signed? 32 v).map fun n => .integer (.ofInt n)
  | "BigInt", v => (signed? 64 v).map fun n => .bigint (.ofInt n)
  | "Float", v => (double? v).map .float
  | "Boolean", .bool b => some (.boolean b)
  | "Uuid", .str s => (Uuid.parse? s).map .uuid
  | "Timestamp", .str s => (Instant.parse? s).map .timestamp
  | "Json", v => some (.json v.collapse)
  | "Hstore", v => (Hstore.ofObject v).toOption.map .hstore
  | "Null", .null => some .null
  | _, _ => none

/-- The value that tagged JSON stands for. -/
def ofTagged? : Json → Option PgValue
  | .str s => if s = "Null" then some .null else none
  | .obj [(tag, v)] => ofMember? tag v
  | _ => none

/-- The value that a JSON text writes. -/
def ofJsonText (text : String) : Except HstoreError PgValue :=
  match (Json.parse? text).bind ofTagged? with
  | some v => .ok v
  | none => .error (.serialization .malformed)

/-- The tagged JSON of a value. -/
def toTagged : PgValue → Json
  | .text s => .obj [("Text", .str s)]
  | .bytes bs => .obj [("Bytes", .arr (bs.map fun b => .int b.toNat))]
  | .integer n => .obj [("Integer", .int n.toInt)]
  | .bigint n => .obj [("BigInt", .int n.toInt)]
  | .float x => .obj [("Float", if x.isFinite then .double x else .null)]
  | .boolean b => .obj [("Boolean", .bool b)]
  | .uuid u => .obj [("Uuid", .str u.toText)]
  | .timestamp t => .obj [("Timestamp", .str t.toText)]
  | .json v => .obj [("Json", v)]
  | .hstore h => .obj [("Hstore", h.toObject)]
  | .null => .str "Null"

end HstoreKit.PgValue
