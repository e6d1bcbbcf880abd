import HstoreKit.Number.Binary64

/-!
# TOML values and tables

A document is a sequence of statements: headers, which name the table that follows, and key-value
pairs. `Document.root?` runs them. What a later statement may do to a table depends on how the table
came to be: only tables that no statement has defined outright may still be extended from outside.
-/

namespace HstoreKit.Toml

/-- How a table came to be. -/
inductive Origin where
  /-- A header named it. -/
  | header
  /-- A longer header passes through it. -/
  | passed
  /-- A dotted key passes through it. -/
  | dotted
  /-- It is written in braces. -/
  | inline
  deriving DecidableEq, Repr

/-- Tables that no statement has defined outright. -/
def Origin.isOpen : Origin → Bool
  | .passed => true
  | .dotted => true
  | _ => false

/-- A value. A float out of range has no double, and a whole number has none when its word holds
more than digits. Either is a fault only where the number is asked for. -/
inductive Value where
  | string (s : String)
  | integer (n : Option Int)
  | float (x : Option Binary64)
  | boolean (b : Bool)
  | dateTime (text : String)
  | array (items : List Value)
  /-- The tables that double-bracket headers append. -/
  | tables (items : List (Origin × List (String × Value)))
  | table (origin : Origin) (entries : List (String × Value))

abbrev Entries := List (String × Value)

namespace Entries

/-- Replaces the value at a key that is there. -/
def replace (es : Entries) (key : String) (v : Value) : Entries :=
  es.map fun e => if e.1 = key then (key, v) else e

/-- Changes the table at the end of a path, making the tables on the way that are missing. The path
leads through the last of appended tables. No path leads into a table in braces, and a dotted key
not into a table that a statement has defined. -/
def change? (dotted : Bool) (f : Origin → Entries → Option (Origin × Entries)) :
    List String → Origin → Entries → Option (Origin × Entries)
  | [], origin, es => f origin es
  | key :: path, origin, es =>
    match es.lookup key with
    | none =>
      (change? dotted f path (if dotted then .dotted else .passed) []).map fun t =>
        (origin, es ++ [(key, .table t.1 t.2)])
    | some (.table o inner) =>
      if o = .inline ∨ (dotted ∧ !o.isOpen) then none
      else (change? dotted f path o inner).map fun t => (origin, es.replace key (.table t.1 t.2))
    | some (.tables items) =>
      match items.getLast? with
      | none => none
      | some (o, inner) =>
        (change? dotted f path o inner).map fun t =>
          (origin, es.replace key (.tables (items.dropLast ++ [t])))
    | some _ => none

/-- Adds a key that is not there yet. Keys with a path are added to tables that dotted keys made,
and only they. -/
def add? (dotted : Bool) (key : String) (v : Value) (origin : Origin) (es : Entries) :
    Option (Origin × Entries) :=
  if decide (origin = .dotted) ≠ dotted ∨ (es.lookup key).isSome then none
  else some (origin, es ++ [(key, v)])

/-- Writes a value at a dotted key. -/
def assign? (path : List String) (key : String) (v : Value) (origin : Origin) (es : Entries) :
    Option (Origin × Entries) :=
  change? true (add? (!path.isEmpty) key v) path origin es

/-- Defines a table by its header. It may have been passed through before, no more. -/
def define? (key : String) (origin : Origin) (es : Entries) : Option (Origin × Entries) :=
  match es.lookup key with
  | none => some (origin, es ++ [(key, .table .header [])])
  | some (.table .passed inner) => some (origin, es.replace key (.table .header inner))
  | some _ => none

/-- Appends an empty table by its header. -/
def append? (key : String) (origin : Origin) (es : Entries) : Option (Origin × Entries) :=
  match es.lookup key with
  | none => some (origin, es ++ [(key, .tables [(.header, [])])])
  | some (.tables items) => some (origin, es.replace key (.tables (items ++ [(.header, [])])))
  | some _ => none

end Entries

/-- A line of a document. Keys are given as the path before their last part, and that part. -/
inductive Statement where
  | assign (path : List String) (key : String) (v : Value)
  | header (path : List String) (key : String)
  | append (path : List String) (key : String)

/-- The root table so far, and the path of the table that pairs go to. -/
structure Document where
  entries : Entries := []
  target : List String := []

namespace Document

def run? (d : Document) : Statement → Option Document
  | .assign path key v =>
    (Entries.change? false (Entries.assign? path key v) d.target .header d.entries).map fun t =>
      { d with entries := t.2 }
  | .header path key =>
    (Entries.change? false (Entries.define? key) path .header d.entries).map fun t =>
      ⟨t.2, path ++ [key]⟩
  | .append path key =>
    (Entries.change? false (Entries.append? key) path .header d.entries).map fun t =>
      ⟨t.2, path ++ [key]⟩

/-- The root table that statements build. -/
def root? (statements : List Statement) : Option Entries :=
  (statements.foldlM run? {}).map Document.entries

end Document

end HstoreKit.Toml
