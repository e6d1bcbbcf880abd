import HstoreKit.Json.Printer
import HstoreKit.Proofs.Json.Grammar

/-!
# JSON that reads back

What is written as a string or as an object is what the grammar allows, whatever follows it in the
text; so every reader of the grammar reads it back.

* `escape_cases`: the three ways in which a character is written inside a string;
* `characters_quoted`: a written string is the string;
* `WrittenAs`: a value that is written as a rule allows, with anything behind it;
* `isObjectText_compact`: a written object is the object of its members.
-/

namespace HstoreKit.Hex

theorem digit?_digit {n : Nat} (h : n < 16) : digit? (digit n) = some n := by
  revert n
  decide

/-- Four digits spell the number that they were made of, if they have room for it. -/
theorem number?_padded {n : Nat} (h : n < 0x10000) : number? (padded 4 n) = some n := by
  have hdigit : ∀ m, digit? (digit (m % 16)) = some (m % 16) := by
    intro m
    apply digit?_digit
    omega
  have hsplit : ((n / 16 / 16 / 16 % 16 * 16 + n / 16 / 16 % 16) * 16 + n / 16 % 16) * 16 + n % 16 =
      n := by
    omega
  simp [number?, padded, hdigit, hsplit]

end HstoreKit.Hex

namespace HstoreKit.Json

/-! ## Characters -/

/-- A character is written behind a backslash, as a unit in hexadecimal, or as it is. -/
theorem escape_cases (c : Char) :
    (∃ e, escaped? e = some c ∧ escape c = ['\\', e]) ∨
    (c.toNat < 0x20 ∧ escape c = '\\' :: 'u' :: Hex.padded 4 c.toNat) ∨
    c ≠ '"' ∧ c ≠ '\\' ∧ 0x20 ≤ c.toNat ∧ escape c = [c] := by
  by_cases hshort : c ∈ ['"', '\\', '\x08', '\x0c', '\n', '\r', '\t']
  · simp only [List.mem_cons, List.not_mem_nil, or_false] at hshort
    rcases hshort with rfl | rfl | rfl | rfl | rfl | rfl | rfl <;> exact .inl ⟨_, rfl, rfl⟩
  · simp only [List.mem_cons, List.not_mem_nil, or_false, not_or] at hshort
    obtain ⟨hquote, hslash, h1, h2, h3, h4, h5⟩ := hshort
    right
    by_cases hc : c.toNat < 0x20
    · exact .inl ⟨hc, by simp [escape, hquote, hslash, h1, h2, h3, h4, h5, hc]⟩
    · refine .inr ⟨hquote, hslash, by omega, ?_⟩
      simp [escape, hquote, hslash, h1, h2, h3, h4, h5, hc]

/-- Each character is written as the grammar allows. -/
theorem Characters.escape {cs s rest : List Char} (h : Characters cs s rest) (c : Char) :
    Characters (Json.escape c ++ cs) (c :: s) rest := by
  rcases escape_cases c with ⟨e, he, htext⟩ | ⟨hc, htext⟩ | ⟨hquote, hslash, hc, htext⟩
  · rw [htext]
    exact .short (escaped?_eq_some_iff.1 he) h
  · have hunit : HexUnit (Hex.padded 4 c.toNat) c.toNat := by
      apply number?_eq_some_iff.1
      apply Hex.number?_padded
      omega
    have hchar := Characters.unit hunit (by omega) h
    rw [Char.ofNat_toNat] at hchar
    rw [htext]
    exact hchar
  · rw [htext]
    exact .raw hquote hslash hc h

/-! ## Strings -/

theorem characters_quoted (s rest : List Char) :
    Characters (s.flatMap escape ++ '"' :: rest) s rest := by
  induction s with
  | nil => exact .close rest
  | cons c s ih =>
    rw [List.flatMap_cons, List.append_assoc]
    exact ih.escape c

theorem quoted_append (s : String) (rest : List Char) :
    quoted s ++ rest = '"' :: (s.toList.flatMap escape ++ '"' :: rest) := by
  simp [quoted]

/-! ## Objects -/

section

variable {α : Type} {Value : List Char → α → List Char → Prop} {g : α → Json}
  {ms : List (String × α)}

/-- A value is written as the rule allows, with anything behind it. -/
def WrittenAs (Value : List Char → α → List Char → Prop) (v : Json) (a : α) : Prop :=
  ∀ rest, Value (v.chars ++ rest) a rest

/-- A member whose value is written as `g` says. -/
def memberText (g : α → Json) (m : String × α) : List Char :=
  quoted m.1 ++ ':' :: (g m.2).chars

theorem memberChars_map (g : α → Json) (ms : List (String × α)) :
    memberChars (ms.map fun m => (m.1, g m.2)) = ms.map (memberText g) := by
  induction ms with
  | nil => rfl
  | cons m ms ih => rw [List.map_cons, memberChars, ih, List.map_cons, memberText]

theorem memberText_append (m : String × α) (rest : List Char) :
    memberText g m ++ rest =
      '"' :: (m.1.toList.flatMap escape ++ '"' :: (':' :: ((g m.2).chars ++ rest))) := by
  rw [memberText, List.append_assoc, quoted_append]
  rfl

theorem WrittenAs.member {m : String × α} (h : WrittenAs Value (g m.2) m.2) (rest : List Char) :
    Member Value (memberText g m ++ rest) m rest := by
  rw [memberText_append]
  exact .mk (.none _) (characters_quoted m.1.toList _) (.none _) (.none _) (h rest)

/-- The members of an object, with commas between them. -/
def membersText (g : α → Json) (ms : List (String × α)) : List Char :=
  List.intercalate [','] (ms.map (memberText g))

theorem membersText_cons {m : String × α} (hne : ms ≠ []) :
    membersText g (m :: ms) = memberText g m ++ ',' :: membersText g ms := by
  rw [membersText, List.map_cons, List.intercalate_cons_of_ne_nil (by simpa using hne),
    List.append_assoc]
  rfl

theorem membersText_singleton (m : String × α) : membersText g [m] = memberText g m :=
  List.intercalate_singleton

/-- Behind each member stands the closing brace, or a comma and more members. -/
theorem members_membersText (h : ∀ m ∈ ms, WrittenAs Value (g m.2) m.2) (hne : ms ≠ [])
    (rest : List Char) : Members Value (membersText g ms ++ '\x7d' :: rest) ms rest := by
  induction ms with
  | nil => exact absurd rfl hne
  | cons m ms ih =>
    have hm := (h m List.mem_cons_self).member
    by_cases hlast : ms = []
    · subst hlast
      rw [membersText_singleton]
      exact .last (hm _) (.none _)
    · have hms : ∀ n ∈ ms, WrittenAs Value (g n.2) n.2 := by
        intro n hn
        exact h n (List.mem_cons_of_mem m hn)
      rw [membersText_cons hlast, List.append_assoc]
      exact .more (hm _) (.none _) (ih hms hlast)

theorem body_membersText (h : ∀ m ∈ ms, WrittenAs Value (g m.2) m.2) (rest : List Char) :
    Body Value (membersText g ms ++ '\x7d' :: rest) ms rest := by
  by_cases hne : ms = []
  · subst hne
    exact .empty (.none _)
  · exact .members (members_membersText h hne rest)

theorem obj_chars (g : α → Json) (ms : List (String × α)) :
    (obj (ms.map fun m => (m.1, g m.2))).chars = '\x7b' :: (membersText g ms ++ ['\x7d']) := by
  rw [chars, memberChars_map, membersText]

/-- A written object is a text of its members, and nothing else. -/
theorem isObjectText_compact (h : ∀ m ∈ ms, WrittenAs Value (g m.2) m.2) :
    IsObjectText Value (obj (ms.map fun m => (m.1, g m.2))).compact ms := by
  refine ⟨membersText g ms ++ ['\x7d'], [], ?_, body_membersText h [], .none []⟩
  rw [compact, String.toList_ofList, obj_chars]
  exact .none _

end

end HstoreKit.Json
