import HstoreKit.Json.Basic
import HstoreKit.Number.Hex
import HstoreKit.Number.Shortest

/-!
# Writing JSON

The compact text of a value: no blanks, members in their order, and escapes only where the format
asks for them.
-/

namespace HstoreKit.Json

/-- A character inside a string. -/
def escape (c : Char) : List Char :=
  if c = '"' then ['\\', '"']
  else if c = '\\' then ['\\', '\\']
  else if c = '\x08' then ['\\', 'b']
  else if c = '\x0c' then ['\\', 'f']
  else if c = '\n' then ['\\', 'n']
  else if c = '\r' then ['\\', 'r']
  else if c = '\t' then ['\\', 't']
  else if c.toNat < 0x20 then
    '\\' :: 'u' :: Hex.padded 4 c.toNat
  else [c]

def quoted (s : String) : List Char :=
  '"' :: s.toList.flatMap escape ++ ['"']

mutual

/-- The compact text of a value. -/
def chars : Json → List Char
  | .null => ['n', 'u', 'l', 'l']
  | .bool true => ['t', 'r', 'u', 'e']
  | .bool false => ['f', 'a', 'l', 's', 'e']
  | .int n => (toString n).toList
  | .double x => x.toText.toList
  | .str s => quoted s
  | .arr items => '[' :: (List.intercalate [','] (itemChars items) ++ [']'])
  | .obj members => '\x7b' :: (List.intercalate [','] (memberChars members) ++ ['\x7d'])

def itemChars : List Json → List (List Char)
  | [] => []
  | v :: vs => v.chars :: itemChars vs

def memberChars : List (String × Json) → List (List Char)
  | [] => []
  | (k, v) :: ms => (quoted k ++ ':' :: v.chars) :: memberChars ms

end

/-- The compact text of a value. -/
def compact (v : Json) : String :=
  String.ofList v.chars

end HstoreKit.Json
