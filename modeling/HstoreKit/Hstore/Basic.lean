import HstoreKit.PairList

/-!
# Hstore values

A finite map from text keys to a text or SQL NULL, kept as the list of its pairs in key order. Equal
maps are therefore equal values. A key that is missing, one whose value is NULL and one whose value
is the empty text are three different things; `lookup?` tells them apart, `get?` and `getText` do
not.
-/

namespace HstoreKit

/-- A key and its value, none standing for SQL NULL. -/
abbrev Pair := String × Option String

/-- An hstore. -/
structure Hstore where
  entries : List Pair
  ascending : PairList.Ascending entries
  deriving DecidableEq

namespace Hstore

def empty : Hstore :=
  ⟨[], List.Pairwise.nil⟩

/-- Writes a value at a key, in place of the old one. -/
def insert (h : Hstore) (key : String) (value : Option String) : Hstore :=
  ⟨PairList.insert key value h.entries, PairList.ascending_insert h.ascending⟩

/-- Writes pairs one after the other. -/
def extend (h : Hstore) (pairs : List Pair) : Hstore :=
  ⟨PairList.insertAll h.entries pairs, PairList.ascending_insertAll h.ascending⟩

/-- The hstore of pairs in any order; of a repeated key the last pair stays. -/
def ofPairs (pairs : List Pair) : Hstore :=
  empty.extend pairs

/-- The hstore of keys that all have a value. -/
def ofTexts (pairs : List (String × String)) : Hstore :=
  ofPairs (pairs.map fun p => (p.1, some p.2))

/-- Writes every pair of another hstore. -/
def merge (h other : Hstore) : Hstore :=
  h.extend other.entries

/-- Removes a key. -/
def erase (h : Hstore) (key : String) : Hstore :=
  ⟨PairList.erase key h.entries, PairList.ascending_erase h.ascending⟩

/-- What stands at a key: nothing, NULL or a text. -/
def lookup? (h : Hstore) (key : String) : Option (Option String) :=
  PairList.find? key h.entries

/-- Whether the key is there, whatever its value. -/
def contains (h : Hstore) (key : String) : Bool :=
  (h.lookup? key).isSome

/-- The text at a key; none for a missing key and for NULL. -/
def get? (h : Hstore) (key : String) : Option String :=
  (h.lookup? key).join

/-- The text at a key; empty for a missing key and for NULL. -/
def getText (h : Hstore) (key : String) : String :=
  (h.get? key).getD ""

def size (h : Hstore) : Nat :=
  h.entries.length

def isEmpty (h : Hstore) : Bool :=
  h.entries.isEmpty

/-- The keys in ascending order. -/
def keys (h : Hstore) : List String :=
  h.entries.map Prod.fst

/-! ## what stands at a key -/

theorem lookup?_empty (i : String) : empty.lookup? i = none := rfl

theorem lookup?_insert (h : Hstore) (key : String) (value : Option String) (i : String) :
    (h.insert key value).lookup? i = if key = i then some value else h.lookup? i :=
  PairList.find?_insert i

theorem lookup?_erase (h : Hstore) (key i : String) :
    (h.erase key).lookup? i = if key = i then none else h.lookup? i :=
  PairList.find?_erase i

theorem lookup?_extend (h : Hstore) (ps : List Pair) (i : String) :
    (h.extend ps).lookup? i = (PairList.find? i ps.reverse).or (h.lookup? i) :=
  PairList.find?_insertAll i

theorem lookup?_ofPairs (ps : List Pair) (i : String) :
    (ofPairs ps).lookup? i = PairList.find? i ps.reverse := by
  rw [ofPairs, lookup?_extend, lookup?_empty, Option.or_none]

@[simp] theorem extend_nil (h : Hstore) : h.extend [] = h := rfl

@[simp] theorem extend_cons (h : Hstore) (p : Pair) (ps : List Pair) :
    h.extend (p :: ps) = (h.insert p.1 p.2).extend ps := rfl

theorem extend_append (h : Hstore) (ps qs : List Pair) :
    h.extend (ps ++ qs) = (h.extend ps).extend qs := by
  induction ps generalizing h with
  | nil => rfl
  | cons p ps ih => exact ih (h.insert p.1 p.2)

/-- The pairs of an hstore, written into the empty one, give it back. -/
theorem ofPairs_entries (h : Hstore) : ofPairs h.entries = h := by
  obtain ⟨entries, ha⟩ := h
  have hl : PairList.insertAll [] entries = entries := PairList.insertAll_eq_append ha
  simp only [ofPairs, extend, empty, hl]

/-- Hstores are equal when the same stands at every key. -/
theorem eq_of_lookup?_eq {h g : Hstore} (e : ∀ i, h.lookup? i = g.lookup? i) : h = g := by
  cases h with
  | mk hs ha =>
    cases g with
    | mk gs ga =>
      have : hs = gs := PairList.eq_of_find?_eq ha ga e
      subst this
      rfl

/-! ## walking through the pairs -/

/-- A place between two pairs of an hstore. -/
structure Cursor where
  rest : List Pair

/-- The place before the first pair. -/
def cursor (h : Hstore) : Cursor :=
  ⟨h.entries⟩

namespace Cursor

/-- The next pair and the place behind it. -/
def next? : Cursor → Option (Pair × Cursor)
  | ⟨[]⟩ => none
  | ⟨p :: ps⟩ => some (p, ⟨ps⟩)

/-- How many pairs are left. -/
def left (c : Cursor) : Nat :=
  c.rest.length

/-- Up to `n` calls of `next?`; a call that finds no pair is the last one. -/
def walk : Nat → Cursor → List (Option Pair) × Cursor
  | 0, c => ([], c)
  | n + 1, c =>
    match c.next? with
    | none => ([none], c)
    | some (p, c) =>
      let (seen, c) := walk n c
      (some p :: seen, c)

end Cursor

end Hstore

end HstoreKit
