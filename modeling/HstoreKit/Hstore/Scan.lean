import HstoreKit.Hstore.Basic
import HstoreKit.Text.Utf8.Basic

/-!
# Reading hstore text

A machine that reads the text form symbol by symbol and never refuses. A backslash protects the next
symbol, quotes protect what they enclose, an arrow sends what follows to the value, a comma ends the
pair. It runs over any alphabet whose symbols have signs; `Hstore.scan` runs it over bytes and
decodes each key and value when its pair is complete.
-/

namespace HstoreKit.Scan

/-- What a symbol means where nothing protects it. -/
inductive Sign where
  | escape
  | quote
  | noise
  | arrow
  | comma
  | plain
  deriving DecidableEq, Repr

/-- The sign of a code. -/
def Sign.ofCode (n : Nat) : Sign :=
  if n = '\\'.toNat then .escape
  else if n = '"'.toNat then .quote
  else if n = ' '.toNat ∨ n = '\t'.toNat ∨ n = '\n'.toNat ∨ n = '\r'.toNat ∨ n = '='.toNat then
    .noise
  else if n = '>'.toNat then .arrow
  else if n = ','.toNat then .comma
  else .plain

def Sign.ofByte (b : UInt8) : Sign :=
  .ofCode b.toNat

/-- The half of a pair that is being read. -/
inductive Half where
  | key
  | value
  deriving DecidableEq, Repr

/-- A pair as it was read: its symbols, and whether a quote has closed since its last arrow. -/
structure RawPair (α : Type) where
  key : List α
  value : List α
  closed : Bool

/-- What the machine remembers between two symbols. `closed` outlives the pair: only an arrow takes
it back. -/
structure State (α : Type) where
  escaping : Bool := false
  quoted : Bool := false
  closed : Bool := false
  half : Half := .key
  key : Array α := #[]
  value : Array α := #[]

namespace State

variable {α : Type}

/-- Adds a symbol to the half that is being read. -/
def put (s : State α) (a : α) : State α :=
  match s.half with
  | .key => { s with key := s.key.push a }
  | .value => { s with value := s.value.push a }

/-- Ends the pair. A pair without arrow and without symbols is none. -/
def commit (s : State α) : Option (RawPair α) × State α :=
  let next := { s with half := .key, key := #[], value := #[] }
  if s.half = .key ∧ s.key.isEmpty ∧ s.value.isEmpty then (none, next)
  else (some ⟨s.key.toList, s.value.toList, s.closed⟩, next)

/-- Reads a symbol, which may complete a pair. -/
def step (sign : α → Sign) (s : State α) (a : α) : Option (RawPair α) × State α :=
  if s.escaping then (none, { s with escaping := false }.put a)
  else
    match sign a, s.quoted with
    | .escape, _ => (none, { s with escaping := true })
    | .quote, false => (none, { s with quoted := true })
    | .quote, true => (none, { s with quoted := false, closed := true })
    | _, true => (none, s.put a)
    | .noise, false => (none, s)
    | .arrow, false => (none, { s with half := .value, closed := false })
    | .comma, false => s.commit
    | .plain, false => (none, s.put a)

/-- The pairs of a text, from a state on; the end of the text ends the last one. -/
def run (sign : α → Sign) : State α → List α → List (RawPair α)
  | s, [] => s.commit.1.toList
  | s, a :: as => (s.step sign a).1.toList ++ run sign (s.step sign a).2 as

end State

/-- Whether a text is the word NULL in any letter case. -/
def isNullWord (s : String) : Bool :=
  s.toList.map Char.toUpper = ['N', 'U', 'L', 'L']

/-- The pair of a raw one. The word NULL stands for SQL NULL unless a quote has closed. -/
def RawPair.toPair {α : Type} (text : List α → String) (p : RawPair α) : Pair :=
  (text p.key, if !p.closed && isNullWord (text p.value) then none else some (text p.value))

/-- Space, tab, line feed, carriage return and form feed. -/
def isBlank (n : Nat) : Bool :=
  n = 32 || n = 9 || n = 10 || n = 13 || n = 12

/-- Drops what satisfies the test from both ends. -/
def trim {α : Type} (blank : α → Bool) (l : List α) : List α :=
  ((l.dropWhile blank).reverse.dropWhile blank).reverse

/-- The pairs of a text over any alphabet, in the order in which they stand. -/
def pairs {α : Type} (code : α → Nat) (text : List α → String) (l : List α) : List Pair :=
  (State.run (fun a => .ofCode (code a)) {} (trim (fun a => isBlank (code a)) l)).map
    (RawPair.toPair text)

end HstoreKit.Scan

namespace HstoreKit.Hstore

/-- Reads text given as bytes and writes its pairs. -/
def scan (h : Hstore) (bytes : List UInt8) : Hstore :=
  h.extend (Scan.pairs UInt8.toNat Utf8.lossy bytes)

/-- Reads a text and writes its pairs. -/
def scanText (h : Hstore) (text : String) : Hstore :=
  h.scan (Utf8.encode text)

/-- The hstore of a text given as bytes. -/
def parse (bytes : List UInt8) : Hstore :=
  empty.scan bytes

end HstoreKit.Hstore
