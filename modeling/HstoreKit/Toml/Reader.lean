import HstoreKit.Toml.Scalar

/-!
# Reading TOML

Documents of TOML 1.1: a statement stands on one line, but between the brackets of an array and the
braces of a table lines may end and comments stand anywhere outside a key. Both may end in a comma,
and both nest up to 80 deep.
-/

namespace HstoreKit.Toml

/-- Drops blanks, line ends and comments; the flag says that a comment is open. -/
def skipLines? : Bool → List Char → Option (List Char)
  | _, [] => some []
  | _, '\n' :: cs => skipLines? false cs
  | _, '\r' :: '\n' :: cs => skipLines? false cs
  | true, c :: cs => if isTextChar c then skipLines? true cs else none
  | false, c :: cs =>
    if c = '#' then skipLines? true cs
    else if isBlank c then skipLines? false cs
    else some (c :: cs)

/-- Drops blanks. -/
def skipBlanks? (cs : List Char) : Option (List Char) :=
  some (cs.dropWhile isBlank)

/-- What follows a line that has nothing left but a comment. -/
def lineEnd? (cs : List Char) : Option (List Char) :=
  let cs := cs.dropWhile isBlank
  let cs := if cs.head? = some '#' then cs.dropWhile isTextChar else cs
  if cs.isEmpty then some [] else newline? cs

/-! ## keys -/

def isBareChar (c : Char) : Bool :=
  c.isAlphanum || c = '_' || c = '-'

/-- One part of a key: bare, or a string on one line. -/
def keyPart? : List Char → Option (String × List Char)
  | '"' :: cs => (line? '"' true (cs.length + 1) cs).map fun (s, cs) => (String.ofList s, cs)
  | '\'' :: cs => (line? '\'' false (cs.length + 1) cs).map fun (s, cs) => (String.ofList s, cs)
  | cs =>
    let part := cs.takeWhile isBareChar
    if part.isEmpty then none else some (String.ofList part, cs.drop part.length)

/-- A key: the parts before the last one, and the last. Points divide the parts. -/
def key? : Nat → List Char → Option ((List String × String) × List Char)
  | 0, _ => none
  | fuel + 1, cs =>
    match keyPart? (cs.dropWhile isBlank) with
    | none => none
    | some (part, cs) =>
      match cs.dropWhile isBlank with
      | '.' :: cs => (key? fuel cs).map fun ((path, last), cs) => ((part :: path, last), cs)
      | cs => some (([], part), cs)

/-! ## values -/

/-- Items with commas between them, and perhaps behind the last one, up to the closing mark. -/
def items? {α : Type} (item? : List Char → Option (α × List Char)) (close : Char) :
    Nat → List Char → Option (List α × List Char)
  | 0, _ => none
  | fuel + 1, cs =>
    match skipLines? false cs with
    | none => none
    | some [] => none
    | some (c :: cs) =>
      if c = close then some ([], cs)
      else match item? (c :: cs) with
        | none => none
        | some (x, cs) =>
          match skipLines? false cs with
          | none => none
          | some [] => none
          | some (c :: cs) =>
            if c = close then some ([x], cs)
            else if c = ',' then (items? item? close fuel cs).map fun (xs, cs) => (x :: xs, cs)
            else none

/-- A key, an equals sign and a value. `skip?` drops what may stand on either side of the sign. -/
def pair? (skip? : List Char → Option (List Char))
    (value? : List Char → Option (Value × List Char)) (cs : List Char) :
    Option ((List String × String × Value) × List Char) := do
  let ((path, last), cs) ← key? (cs.length + 1) cs
  match ← skip? cs with
  | '=' :: cs => (value? (← skip? cs)).map fun (v, cs) => ((path, last, v), cs)
  | _ => none

/-- The table in braces of its pairs. -/
def inlineTable? (pairs : List (List String × String × Value)) : Option Value :=
  (pairs.foldlM (fun (t : Origin × Entries) p => Entries.assign? p.1 p.2.1 p.2.2 t.1 t.2)
    (Origin.inline, [])).map fun t => .table t.1 t.2

/-- A value in which brackets and braces nest no deeper than the budget. -/
def value? : Nat → List Char → Option (Value × List Char)
  | 0, cs => scalar? cs
  | budget + 1, cs =>
    match cs with
    | '[' :: cs =>
      (items? (value? budget) ']' (cs.length + 1) cs).map fun (vs, cs) => (.array vs, cs)
    | '\x7b' :: cs =>
      match items? (pair? (skipLines? false) (value? budget)) '\x7d' (cs.length + 1) cs with
      | some (pairs, cs) => (inlineTable? pairs).map (·, cs)
      | none => none
    | cs => scalar? cs

/-- The nesting that a value may have. -/
def maxDepth : Nat := 80

/-! ## documents -/

/-- A header behind its opening marks, up to and with its closing ones. -/
def header? (closing : List Char) (cs : List Char) :
    Option ((List String × String) × List Char) :=
  match key? (cs.length + 1) cs with
  | some (key, cs) => if closing.isPrefixOf cs then some (key, cs.drop closing.length) else none
  | none => none

/-- The statement at the front. -/
def statement? : List Char → Option (Statement × List Char)
  | '[' :: '[' :: cs =>
    (header? [']', ']'] cs).map fun ((path, last), cs) => (.append path last, cs)
  | '[' :: cs => (header? [']'] cs).map fun ((path, last), cs) => (.header path last, cs)
  | cs =>
    (pair? skipBlanks? (value? maxDepth) cs).map fun ((path, last, v), cs) =>
      (.assign path last v, cs)

/-- The statements of a text, one on a line at most. -/
def statements? : Nat → List Char → Option (List Statement)
  | 0, _ => none
  | fuel + 1, cs =>
    match skipLines? false cs with
    | none => none
    | some [] => some []
    | some (c :: cs) =>
      match statement? (c :: cs) with
      | none => none
      | some (s, cs) =>
        match lineEnd? cs with
        | none => none
        | some cs => (statements? fuel cs).map (s :: ·)

/-- The root table of a document. A byte order mark at its start does not count. -/
def parse? (text : String) : Option Entries :=
  let cs := text.toList
  let cs := if cs.head? = some '\uFEFF' then cs.tail else cs
  (statements? (cs.length + 1) cs).bind Document.root?

end HstoreKit.Toml
