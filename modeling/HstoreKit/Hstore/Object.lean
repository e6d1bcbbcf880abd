import HstoreKit.Hstore.Error
import HstoreKit.Json.Printer
import HstoreKit.Json.Reader

/-!
# Hstores as JSON objects

An hstore is the object whose members are its pairs, SQL NULL being null. Only objects of strings
and nulls are read back, from a value or straight from a text. The value that a text means no longer
shows the members that a later one overwrites; reading the text does see them.
-/

namespace HstoreKit.Hstore

/-- The value of a member: a string, or null for SQL NULL. -/
def valueOf? : Json → Option (Option String)
  | .str s => some (some s)
  | .null => some none
  | _ => none

/-- The pairs of members that are all strings or null. -/
def pairsOf? : List (String × Json) → Option (List Pair)
  | [] => some []
  | (k, v) :: ms =>
    match valueOf? v, pairsOf? ms with
    | some v, some ps => some ((k, v) :: ps)
    | _, _ => none

/-- The hstore of an object. -/
def ofObject : Json → Except HstoreError Hstore
  | .obj members =>
    match pairsOf? members with
    | some ps => .ok (ofPairs ps)
    | none => .error .typeMustBeObject
  | _ => .error .typeMustBeObject

/-- Replaces an hstore by that of an object, if it is the object of one. -/
def unmarshal (h : Hstore) (v : Json) : Hstore × Except HstoreError Unit :=
  match ofObject v with
  | .ok new => (new, .ok ())
  | .error e => (h, .error e)

/-- The object of an hstore. -/
def toObject (h : Hstore) : Json :=
  .obj (h.entries.map fun p => (p.1, match p.2 with
    | some s => .str s
    | none => .null))

/-! ## reading text -/

/-- A value at the front of a text: a string, or null for SQL NULL. -/
def value? (cs : List Char) : Option (Option String × List Char) :=
  match Json.skipBlank cs with
  | 'n' :: 'u' :: 'l' :: 'l' :: cs => some (none, cs)
  | '"' :: cs => (Json.string? cs).map fun (s, cs) => (some s, cs)
  | _ => none

/-- The pairs of an object at the front of a text. -/
def members? (cs : List Char) : Option (List Pair × List Char) :=
  match Json.skipBlank cs with
  | '\x7b' :: cs => Json.group? (Json.memberOf? value?) '\x7d' cs
  | _ => none

/-- The hstore that a JSON text writes. Its members are read one by one, also those that a later one
overwrites. -/
def ofJsonText (text : String) : Except HstoreError Hstore :=
  match members? text.toList with
  | some (ps, cs) =>
    if (Json.skipBlank cs).isEmpty then .ok (ofPairs ps) else .error (.serialization .malformed)
  | none => .error (.serialization .malformed)

/-! ## writing -/

/-- The compact JSON text. -/
def toJsonText (h : Hstore) : String :=
  h.toObject.compact

/-- A place for bytes, with room for so many more or without end. -/
structure Sink where
  written : List UInt8 := []
  room : Option Nat := none

/-- Writes what there is room for, and tells whether that was all. -/
def Sink.write (s : Sink) (bytes : List UInt8) : Sink × Bool :=
  match s.room with
  | none => ({ s with written := s.written ++ bytes }, true)
  | some n =>
    (⟨s.written ++ bytes.take n, some (n - bytes.length)⟩, decide (bytes.length ≤ n))

/-- Writes the compact JSON text and then a line feed. -/
def marshal (h : Hstore) (sink : Sink) : Sink × Except HstoreError Unit :=
  match sink.write (Utf8.encode h.toJsonText) with
  | (sink, false) => (sink, .error (.serialization .writeRefused))
  | (sink, true) =>
    match sink.write (Utf8.encode "\n") with
    | (sink, false) => (sink, .error (.serialization .writeRefused))
    | (sink, true) => (sink, .ok ())

end HstoreKit.Hstore
