import HstoreKit.Text.Letters
import HstoreKit.Text.Space

/-!
# Environment files

A `.env` file holds one variable on a line, `KEY=VALUE`, perhaps behind `export`. A value may be
quoted in either way, `$NAME` and the form in braces stand for variables set before, and a line goes
on behind its end while a quote is open. A variable that is already set keeps its value. The first
line that cannot be read refuses the file.
-/

namespace HstoreKit.DotEnv

/-- Variables and their values. -/
abbrev Environment := List (String × String)

/-! ## lines -/

/-- What has been read of a line, as far as it tells where the line ends. -/
inductive LineState where
  | complete
  | blank
  | escape
  | inWeak
  | inWeakEscape
  | inStrong
  | inStrongEscape
  deriving DecidableEq, Repr

/-- The state outside quotes that a character leads to. -/
def LineState.opened (c : Char) : LineState :=
  if c = '\\' then .escape
  else if c = '"' then .inWeak
  else if c = '\'' then .inStrong
  else .complete

/-- The next state. -/
def LineState.next (s : LineState) (c : Char) : LineState :=
  match s with
  | .complete => if Text.isSpace c ∧ c ≠ '\n' ∧ c ≠ '\r' then .blank else .opened c
  | .blank => .opened c
  | .escape => .complete
  | .inWeak => if c = '\\' then .inWeakEscape else if c = '"' then .complete else .inWeak
  | .inWeakEscape => .inWeak
  | .inStrong => if c = '\\' then .inStrongEscape else if c = '\'' then .complete else .inStrong
  | .inStrongEscape => .inStrong

/-- The end of a physical line, as far as the state tells: the state at its end, and what comes
before a comment that a blank introduces, if there is one. -/
def scanLine : LineState → List Char → LineState × Option (List Char)
  | s, [] => (s, none)
  | s, c :: cs =>
    if s = .blank ∧ c = '#' then (s, some [])
    else
      let (s, before) := scanLine (s.next c) cs
      (s, before.map (c :: ·))

/-- The physical lines, each with its line feed. -/
def physicalLines (cs : List Char) : List (List Char) :=
  match cs with
  | [] => []
  | c :: cs =>
    if c = '\n' then ['\n'] :: physicalLines cs
    else match physicalLines cs with
      | [] => [[c]]
      | l :: ls => (c :: l) :: ls

/-- Drops a line end. -/
def chomp (cs : List Char) : List Char :=
  match cs.reverse with
  | '\n' :: '\r' :: r => r.reverse
  | '\n' :: r => r.reverse
  | _ => cs

/-- The logical lines of physical ones, where `read` of a line has been read. A text that ends in
the middle of a line has a line that cannot be read. -/
def logicalLines (read : List Char) : LineState → List (List Char) → List (Option (List Char))
  | s, [] => if s = .complete then [] else [none]
  | s, l :: ls =>
    if (Text.trimStart (read ++ l)).head? = some '#' then some [] :: logicalLines [] .complete ls
    else match scanLine s l with
      | (_, some before) => some (read ++ before) :: logicalLines [] .complete ls
      | (.complete, none) => some (chomp (read ++ l)) :: logicalLines [] .complete ls
      | (s, none) => logicalLines (read ++ l) s ls

/-! ## values -/

/-- Whether a variable is being named, with or without braces. -/
inductive Naming where
  | off
  | bare
  | braced
  deriving DecidableEq, Repr

/-- What has been read of a value. -/
structure ValueState where
  strong : Bool := false
  weak : Bool := false
  escaped : Bool := false
  ended : Bool := false
  naming : Naming := .off
  name : List Char := []
  output : List Char := []

namespace ValueState

/-- Writes the value of the variable that has been named. -/
def apply (env : Environment) (s : ValueState) : ValueState :=
  let value := (env.lookup (String.ofList s.name)).getD ""
  { s with naming := .off, name := [], output := s.output ++ value.toList }

def put (s : ValueState) (c : Char) : ValueState :=
  { s with output := s.output ++ [c] }

/-- A character while a variable is being named. -/
def inName (env : Environment) (s : ValueState) (c : Char) : ValueState :=
  if Text.isAlphanumeric c then { s with name := s.name ++ [c] }
  else if s.naming = .braced then
    if c = '\x7d' then s.apply env else { s with name := s.name ++ [c] }
  else if c = '\x7b' ∧ s.name.isEmpty then { s with naming := .braced }
  else if c = '$' then { s.apply env with naming := .bare }
  else (s.apply env).put c

/-- A character of a value; none if it cannot stand there. -/
def step? (env : Environment) (s : ValueState) (c : Char) : Option ValueState :=
  if s.escaped then
    if c = '\\' ∨ c = '\'' ∨ c = '"' ∨ c = '$' ∨ c = ' ' then some { s.put c with escaped := false }
    else if c = 'n' then some { s.put '\n' with escaped := false }
    else none
  else if s.strong then some (if c = '\'' then { s with strong := false } else s.put c)
  else if s.naming ≠ .off then some (s.inName env c)
  else if c = '$' then some { s with naming := .bare }
  else if c = '\\' then some { s with escaped := true }
  else if c = '"' then some { s with weak := !s.weak }
  else if s.weak then some (s.put c)
  else if c = '\'' then some { s with strong := true }
  else if c = ' ' ∨ c = '\t' then some { s with ended := true }
  else some (s.put c)

/-- The value at its end; none while a quote or a brace is open. -/
def finish? (env : Environment) (s : ValueState) : Option (List Char) :=
  if s.naming = .braced ∨ s.strong ∨ s.weak then none else some (s.apply env).output

/-- Reads a value. After a blank outside quotes only blanks and a comment may follow. -/
def run? (env : Environment) : ValueState → List Char → Option (List Char)
  | s, [] => s.finish? env
  | s, c :: cs =>
    if s.ended then
      if c = ' ' ∨ c = '\t' then run? env s cs
      else if c = '#' then s.finish? env
      else none
    else match s.step? env c with
      | some s => run? env s cs
      | none => none

end ValueState

/-! ## assignments -/

/-- The name at the front, and the rest. -/
def key? (cs : List Char) : Option (List Char × List Char) :=
  if cs.head?.any fun c => c.isAlpha || c = '_' then
    some (cs.span fun c => c.isAlphanum || c = '_' || c = '.')
  else none

/-- What stands behind an equals sign. -/
def equals? (cs : List Char) : Option (List Char) :=
  match Text.trimStart cs with
  | '=' :: cs => some (Text.trimStart cs)
  | _ => none

/-- The name of an assignment and the text of its value. `export` may stand before the name, and is
a name itself when an equals sign follows it. -/
def split? (cs : List Char) : Option (List Char × List Char) := do
  let (key, rest) ← key? cs
  match equals? rest with
  | some value => return (key, value)
  | none =>
    if key = "export".toList then
      let (key, rest) ← key? (Text.trimStart rest)
      return (key, ← equals? rest)
    else none

/-- The assignment on a line: outside none if the line cannot be read, inside none if the line is
empty. -/
def assignment? (env : Environment) (line : List Char) : Option (Option (String × String)) := do
  let cs := Text.trimStart (Text.trimEnd line)
  if cs.isEmpty ∨ cs.head? = some '#' then return none
  let (key, value) ← split? cs
  let value ← if value.isEmpty ∨ value.head? = some '#' then some []
    else ValueState.run? env {} value
  return some (String.ofList key, String.ofList value)

/-- Sets a variable that is not set yet. -/
def define (env : Environment) (a : String × String) : Environment :=
  if (env.lookup a.1).isSome then env else a :: env

/-- Reads lines one after the other. -/
def defineAll? (env : Environment) : List (Option (List Char)) → Option Environment
  | [] => some env
  | none :: _ => none
  | some line :: lines =>
    match assignment? env line with
    | none => none
    | some none => defineAll? env lines
    | some (some a) => defineAll? (define env a) lines

/-- The variables after a file. A byte order mark at its start does not count. -/
def load? (env : Environment) (text : String) : Option Environment :=
  let cs := text.toList
  let cs := if cs.head? = some '\uFEFF' then cs.tail else cs
  defineAll? env (logicalLines [] .complete (physicalLines cs))

end HstoreKit.DotEnv
