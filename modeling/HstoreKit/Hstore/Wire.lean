import HstoreKit.Hstore.Basic
import HstoreKit.Text.Utf8.Basic

/-!
# The binary form

A message is the number of pairs and then the pairs, each a key and a value behind their lengths in
bytes. Numbers are signed 32-bit words, most significant byte first; the length -1 marks SQL NULL.
Reading is strict: the first thing that is not as it should be is reported.
-/

namespace HstoreKit.Wire

/-- What a length measures. -/
inductive Measure where
  | pairCount
  | key
  | value
  deriving DecidableEq, Repr

def Measure.name : Measure → String
  | .pairCount => "pair count"
  | .key => "key"
  | .value => "value"

/-- Why a message cannot be written or read. -/
inductive Fault where
  | oversize (length : Nat)
  | endOfInput
  | short (expected left : Nat)
  | negative (measure : Measure) (length : Int)
  | text (fault : Utf8.Fault)
  | trailing (length : Nat)
  deriving DecidableEq, Repr

def Fault.message : Fault → String
  | .oversize n => "length " ++ toString n ++ " does not fit in i32"
  | .endOfInput => "unexpected end of input"
  | .short expected left =>
    "expected " ++ toString expected ++ " bytes, " ++ toString left ++ " left"
  | .negative measure n => "negative " ++ measure.name ++ " length " ++ toString n
  | .text fault => "invalid utf-8: " ++ fault.message
  | .trailing n => toString n ++ " trailing bytes"

/-! ## writing -/

/-- The four bytes of a word. -/
def word (n : Nat) : List UInt8 :=
  [.ofNat (n / 0x1000000), .ofNat (n / 0x10000), .ofNat (n / 0x100), .ofNat n]

/-- A length, which must be below `2 ^ 31`. -/
def length (n : Nat) : Except Fault (List UInt8) :=
  if n < 0x80000000 then .ok (word n) else .error (.oversize n)

/-- A text behind its length. -/
def text (s : String) : Except Fault (List UInt8) := do
  let bytes := Utf8.encode s
  let head ← length bytes.length
  return head ++ bytes

/-- The word of -1. -/
def nullMark : List UInt8 := [0xFF, 0xFF, 0xFF, 0xFF]

def value : Option String → Except Fault (List UInt8)
  | some s => text s
  | none => .ok nullMark

def pairs : List Pair → Except Fault (List UInt8)
  | [] => .ok []
  | p :: ps => do
    let k ← text p.1
    let v ← value p.2
    let rest ← pairs ps
    return k ++ v ++ rest

/-- The message of an hstore. -/
def encode (h : Hstore) : Except Fault (List UInt8) := do
  let count ← length h.size
  let body ← pairs h.entries
  return count ++ body

/-! ## reading -/

/-- The signed number of four bytes. -/
def signed (a b c d : UInt8) : Int :=
  let n := ((a.toNat * 256 + b.toNat) * 256 + c.toNat) * 256 + d.toNat
  if n < 0x80000000 then n else n - 0x100000000

def readWord : List UInt8 → Except Fault (Int × List UInt8)
  | a :: b :: c :: d :: bs => .ok (signed a b c d, bs)
  | _ => .error .endOfInput

def readLength (measure : Measure) (bs : List UInt8) : Except Fault (Nat × List UInt8) := do
  let (n, bs) ← readWord bs
  if n < 0 then .error (.negative measure n) else .ok (n.toNat, bs)

/-- A text of that many bytes. -/
def readText (n : Nat) (bs : List UInt8) : Except Fault (String × List UInt8) :=
  if bs.length < n then .error (.short n bs.length)
  else match Utf8.decode (bs.take n) with
    | .ok s => .ok (s, bs.drop n)
    | .error fault => .error (.text fault)

def readKey (bs : List UInt8) : Except Fault (String × List UInt8) := do
  let (n, bs) ← readLength .key bs
  readText n bs

def readValue (bs : List UInt8) : Except Fault (Option String × List UInt8) := do
  let (n, bs) ← readWord bs
  if n = -1 then return (none, bs)
  else if n < 0 then .error (.negative .value n)
  else
    let (s, bs) ← readText n.toNat bs
    return (some s, bs)

/-- That many pairs. -/
def readPairs : Nat → List UInt8 → Except Fault (List Pair × List UInt8)
  | 0, bs => .ok ([], bs)
  | n + 1, bs => do
    let (k, bs) ← readKey bs
    let (v, bs) ← readValue bs
    let (ps, bs) ← readPairs n bs
    return ((k, v) :: ps, bs)

/-- The pairs of a whole message, as they stand in it. -/
def message (bs : List UInt8) : Except Fault (List Pair) := do
  let (n, bs) ← readLength .pairCount bs
  let (ps, bs) ← readPairs n bs
  if bs.isEmpty then return ps else .error (.trailing bs.length)

/-- The hstore of a message; of a repeated key the last pair stays. -/
def decode (bs : List UInt8) : Except Fault Hstore := do
  let ps ← message bs
  return .ofPairs ps

end HstoreKit.Wire
