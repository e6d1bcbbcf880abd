import HstoreKit.Hstore.Basic

/-!
# Writing hstore text

Each key and value stands in double quotes, with a backslash before every quote and backslash
inside; SQL NULL is the bare word. A comma divides the pairs.
-/

namespace HstoreKit.Hstore

def escape (c : Char) : List Char :=
  if c = '\\' then ['\\', '\\'] else if c = '"' then ['\\', '"'] else [c]

/-- A key or value in quotes. -/
def quoted (s : String) : String :=
  String.ofList ('"' :: s.toList.flatMap escape ++ ['"'])

/-- A pair with its arrow. -/
def pairText (p : Pair) : String :=
  quoted p.1 ++ "=>" ++ match p.2 with
    | some v => quoted v
    | none => "NULL"

/-- The text form, pairs in key order. -/
def toText (h : Hstore) : String :=
  String.intercalate "," (h.entries.map pairText)

/-- The text form of an hstore that may be absent. -/
def textOf? (h : Option Hstore) : Option String :=
  h.map toText

end HstoreKit.Hstore
