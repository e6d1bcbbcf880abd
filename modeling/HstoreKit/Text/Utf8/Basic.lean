/-!
# UTF-8

The bytes of a text, and the reading of bytes that need not be text. The machine reads one byte at a
time; what it reads is a list of pieces, each a character or a stretch that is none. Two readings
are built on the pieces: `lossy` shows a replacement character for every stretch that is none, and
`decode` refuses the first of them and says where it stands.
-/

namespace HstoreKit.Utf8

/-- The bytes of a text. -/
def encode (s : String) : List UInt8 :=
  s.toList.flatMap String.utf8EncodeChar

/-- A character of which `read` bytes are known. They spell `bits`; the next byte has to lie between
`low` and `high`, and `owed` more follow it. -/
structure Opened where
  bits : Nat
  read : Nat
  owed : Nat
  low : UInt8
  high : UInt8

/-- What a stretch of bytes stands for. -/
inductive Piece where
  | char (c : Char)
  /-- The start of a character that the next byte does not continue, or a byte that starts none. -/
  | broken (length : Nat)
  /-- The start of a character at the end of the bytes. -/
  | cut

/-- The first byte of a character. The narrower ranges keep out overlong forms, surrogates and
numbers above the last code point. -/
def first (b : UInt8) : List Piece × Option Opened :=
  if b < 0x80 then ([.char (Char.ofNat b.toNat)], none)
  else if b < 0xC2 then ([.broken 1], none)
  else if b < 0xE0 then ([], some ⟨b.toNat % 32, 1, 0, 0x80, 0xBF⟩)
  else if b < 0xF0 then
    ([], some ⟨b.toNat % 16, 1, 1,
      if b = 0xE0 then 0xA0 else 0x80, if b = 0xED then 0x9F else 0xBF⟩)
  else if b < 0xF5 then
    ([], some ⟨b.toNat % 8, 1, 2,
      if b = 0xF0 then 0x90 else 0x80, if b = 0xF4 then 0x8F else 0xBF⟩)
  else ([.broken 1], none)

/-- One byte: the pieces it ends, and the character it leaves open. A byte that does not continue
the open character is read again as a first byte. -/
def step : Option Opened → UInt8 → List Piece × Option Opened
  | none, b => first b
  | some o, b =>
    if o.low ≤ b ∧ b ≤ o.high then
      match o.owed with
      | 0 => ([.char (Char.ofNat (o.bits * 64 + b.toNat % 64))], none)
      | n + 1 => ([], some ⟨o.bits * 64 + b.toNat % 64, o.read + 1, n, 0x80, 0xBF⟩)
    else (.broken o.read :: (first b).1, (first b).2)

/-- The pieces of a run of bytes, from a character that may be open. -/
def pieces : Option Opened → List UInt8 → List Piece
  | none, [] => []
  | some _, [] => [.cut]
  | o, b :: bs => (step o b).1 ++ pieces (step o b).2 bs

/-- A character stands for itself, any other piece for the replacement character. -/
def Piece.shown : Piece → Char
  | .char c => c
  | _ => '\uFFFD'

/-- The text of any bytes, with one replacement character for each piece that is no character. -/
def lossy (bs : List UInt8) : String :=
  String.ofList ((pieces none bs).map Piece.shown)

/-- Why bytes are no text: the `length` bytes from `index` on, or an end inside a character. -/
inductive Fault where
  | invalid (length index : Nat)
  | incomplete (index : Nat)
  deriving DecidableEq, Repr

def Fault.message : Fault → String
  | .invalid length index =>
    "invalid utf-8 sequence of " ++ toString length ++ " bytes from index " ++ toString index
  | .incomplete index => "incomplete utf-8 byte sequence from index " ++ toString index

/-- The first piece that is no character, where `index` bytes come before the pieces. -/
def fault? (index : Nat) : List Piece → Option Fault
  | [] => none
  | .char c :: ps => fault? (index + c.utf8Size) ps
  | .broken length :: _ => some (.invalid length index)
  | .cut :: _ => some (.incomplete index)

/-- The text of bytes that are its UTF-8. -/
def decode (bs : List UInt8) : Except Fault String :=
  match fault? 0 (pieces none bs) with
  | some f => .error f
  | none => .ok (lossy bs)

end HstoreKit.Utf8
