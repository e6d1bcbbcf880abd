import HstoreKit.Number.Hex

/-!
# UUIDs

A UUID is a 128-bit number. It is written as 32 digits in groups of 8, 4, 4, 4 and 12, and read in
that form, in braces, behind `urn:uuid:`, or without hyphens.
-/

namespace HstoreKit

structure Uuid where
  bits : BitVec 128
  deriving DecidableEq, Repr

namespace Uuid

/-- The lengths of the groups. -/
def groups : List Nat := [8, 4, 4, 4, 12]

/-- Puts hyphens between the groups. -/
def hyphenated : List Nat → List Char → List Char
  | [], _ => []
  | [n], cs => cs.take n
  | n :: ns, cs => cs.take n ++ '-' :: hyphenated ns (cs.drop n)

/-- Takes the hyphens from between the groups. -/
def joined? : List Nat → List Char → Option (List Char)
  | [], cs => if cs.isEmpty then some [] else none
  | [n], cs => if cs.length = n then some cs else none
  | n :: ns, cs =>
    match cs.drop n with
    | '-' :: rest => (joined? ns rest).map (cs.take n ++ ·)
    | _ => none

/-- The digits of a written UUID, told apart by its length. -/
def digits? (cs : List Char) : Option (List Char) :=
  if cs.length = 32 then some cs
  else if cs.length = 36 then joined? groups cs
  else if cs.length = 38 then
    if cs.head? = some '\x7b' ∧ cs.getLast? = some '\x7d' then joined? groups cs.tail.dropLast
    else none
  else if "urn:uuid:".toList.isPrefixOf cs then joined? groups (cs.drop 9)
  else none

def parse? (text : String) : Option Uuid := do
  let n ← Hex.number? (← digits? text.toList)
  return ⟨BitVec.ofNat 128 n⟩

def toText (u : Uuid) : String :=
  String.ofList (hyphenated groups (Hex.padded 32 u.bits.toNat))

end Uuid

end HstoreKit
