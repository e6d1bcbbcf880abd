import HstoreKit.Json.Reader

/-!
# The grammar of strings and objects

Which texts are JSON strings and objects, said by rules and not by a reader. A rule relates a text
to what it begins with and to what follows that, so a text may go on with anything. The rule of the
values of members is left open.

* `Blanks`, `Characters`: blanks, and the characters of a string up to its closing quote;
* `Member`, `Members`, `Body`, `IsObjectText`: objects, and texts that hold one and nothing else;
* `string?_eq_some_iff`: the reader of strings takes what the rule allows;
* `Reads`, `Reads.memberOf?_eq_some_iff`, `Reads.group?_eq_some_iff`: so does the reader of objects
  wherever the reader of values does.
-/

namespace HstoreKit.Json

/-- Some blanks, and what follows them. -/
inductive Blanks : List Char → List Char → Prop
  | none (cs : List Char) : Blanks cs cs
  | blank {c : Char} {cs rest : List Char} (hc : c ∈ [' ', '\t', '\n', '\r'])
      (h : Blanks cs rest) : Blanks (c :: cs) rest

/-! ## Rules of strings -/

/-- A hexadecimal digit in either case, and its value. -/
def HexDigit (c : Char) (n : Nat) : Prop :=
  n < 10 ∧ c.toNat = 48 + n ∨ 10 ≤ n ∧ n < 16 ∧ (c.toNat = 87 + n ∨ c.toNat = 55 + n)

/-- Four hexadecimal digits, and the UTF-16 unit that they write. -/
inductive HexUnit : List Char → Nat → Prop
  | mk {a b c d : Char} {i j k l : Nat} (ha : HexDigit a i) (hb : HexDigit b j)
      (hc : HexDigit c k) (hd : HexDigit d l) :
      HexUnit [a, b, c, d] (((i * 16 + j) * 16 + k) * 16 + l)

/-- The letters that may stand behind a backslash, each with the character that it writes. -/
def shortEscapes : List (Char × Char) :=
  [('"', '"'), ('\\', '\\'), ('/', '/'), ('b', '\x08'), ('f', '\x0c'), ('n', '\n'), ('r', '\r'),
    ('t', '\t')]

/-- The characters of a string up to its closing quote, and what follows the quote. A character
stands for itself, or it is written by an escape, by a UTF-16 unit or by a pair of surrogates. -/
inductive Characters : List Char → List Char → List Char → Prop
  | close (rest : List Char) : Characters ('"' :: rest) [] rest
  | raw {c : Char} {cs s rest : List Char} (hquote : c ≠ '"') (hslash : c ≠ '\\')
      (hc : 0x20 ≤ c.toNat) (h : Characters cs s rest) : Characters (c :: cs) (c :: s) rest
  | short {e c : Char} {cs s rest : List Char} (he : (e, c) ∈ shortEscapes)
      (h : Characters cs s rest) : Characters ('\\' :: e :: cs) (c :: s) rest
  | unit {ds cs s rest : List Char} {u : Nat} (hu : HexUnit ds u) (hplain : u < 0xD800 ∨ 0xDFFF < u)
      (h : Characters cs s rest) : Characters ('\\' :: 'u' :: (ds ++ cs)) (Char.ofNat u :: s) rest
  | pair {ds es cs s rest : List Char} {u v : Nat} (hu : HexUnit ds u) (hv : HexUnit es v)
      (hlead : 0xD800 ≤ u ∧ u ≤ 0xDBFF) (htrail : 0xDC00 ≤ v ∧ v ≤ 0xDFFF)
      (h : Characters cs s rest) :
      Characters ('\\' :: 'u' :: (ds ++ '\\' :: 'u' :: (es ++ cs)))
        (Char.ofNat (0x10000 + (u - 0xD800) * 0x400 + (v - 0xDC00)) :: s) rest

/-! ## Rules of objects -/

section

variable {α : Type} (Value : List Char → α → List Char → Prop)

/-- A name, a colon and a value, with blanks before each of them. -/
inductive Member : List Char → String × α → List Char → Prop
  | mk {cs ds es fs gs rest : List Char} {name : String} {v : α} (hopen : Blanks cs ('"' :: ds))
      (hname : Characters ds name.toList es) (hcolon : Blanks es (':' :: fs))
      (hblanks : Blanks fs gs) (hv : Value gs v rest) : Member cs (name, v) rest

/-- One or more members with commas between them, up to the closing brace. -/
inductive Members : List Char → List (String × α) → List Char → Prop
  | last {cs ds rest : List Char} {m : String × α} (hm : Member Value cs m ds)
      (hclose : Blanks ds ('\x7d' :: rest)) : Members cs [m] rest
  | more {cs ds es rest : List Char} {m : String × α} {ms : List (String × α)}
      (hm : Member Value cs m ds) (hcomma : Blanks ds (',' :: es)) (h : Members es ms rest) :
      Members cs (m :: ms) rest

/-- What stands behind an opening brace: the closing one, or members up to it. -/
inductive Body : List Char → List (String × α) → List Char → Prop
  | empty {cs rest : List Char} (hclose : Blanks cs ('\x7d' :: rest)) : Body cs [] rest
  | members {cs rest : List Char} {ms : List (String × α)} (h : Members Value cs ms rest) :
      Body cs ms rest

/-- A text that holds an object with these members, between blanks, and nothing else. -/
def IsObjectText (text : String) (ms : List (String × α)) : Prop :=
  ∃ cs rest, Blanks text.toList ('\x7b' :: cs) ∧ Body Value cs ms rest ∧ Blanks rest []

end

/-! ## Blanks -/

theorem isBlank_iff {c : Char} : isBlank c = true ↔ c ∈ [' ', '\t', '\n', '\r'] := by
  simp [isBlank, or_assoc]

theorem skipBlank_cons {c : Char} (h : isBlank c = false) (cs : List Char) :
    skipBlank (c :: cs) = c :: cs :=
  List.dropWhile_cons_of_neg (by simp [h])

theorem blanks_skipBlank (cs : List Char) : Blanks cs (skipBlank cs) := by
  induction cs with
  | nil => exact .none []
  | cons c cs ih =>
    by_cases hc : isBlank c = true
    · rw [skipBlank, List.dropWhile_cons_of_pos hc]
      exact .blank (isBlank_iff.1 hc) ih
    · rw [skipBlank, List.dropWhile_cons_of_neg hc]
      exact .none _

theorem Blanks.skipBlank_eq {cs rest : List Char} (h : Blanks cs rest) :
    skipBlank cs = skipBlank rest := by
  induction h with
  | none => rfl
  | blank hc _ ih =>
    rw [skipBlank, List.dropWhile_cons_of_pos (isBlank_iff.2 hc)]
    exact ih

/-- What is no blank stands behind some blanks where skipping them leads. -/
theorem blanks_cons_iff {c : Char} (hc : isBlank c = false) {cs rest : List Char} :
    Blanks cs (c :: rest) ↔ skipBlank cs = c :: rest := by
  constructor
  · intro h
    rw [h.skipBlank_eq, skipBlank_cons hc]
  · intro h
    rw [← h]
    exact blanks_skipBlank cs

theorem blanks_nil_iff {cs : List Char} : Blanks cs [] ↔ skipBlank cs = [] := by
  constructor
  · intro h
    exact h.skipBlank_eq
  · intro h
    rw [← h]
    exact blanks_skipBlank cs

theorem Blanks.length_le {cs rest : List Char} (h : Blanks cs rest) :
    rest.length ≤ cs.length := by
  induction h with
  | none => exact Nat.le_refl _
  | blank _ _ ih => exact Nat.le_succ_of_le ih

/-! ## Digits and escapes -/

theorem digit?_eq_some_iff {c : Char} {n : Nat} : Hex.digit? c = some n ↔ HexDigit c n := by
  have hle (d : Char) : (d ≤ c ↔ d.toNat ≤ c.toNat) ∧ (c ≤ d ↔ c.toNat ≤ d.toNat) := by
    simp [Char.le_def, UInt32.le_iff_toNat_le]
  simp only [Hex.digit?, (hle _).1, (hle _).2, HexDigit, Char.reduceToNat]
  split
  · rw [Option.some_inj]
    omega
  · split
    · rw [Option.some_inj]
      omega
    · split
      · rw [Option.some_inj]
        omega
      · simp only [reduceCtorEq, false_iff]
        omega

theorem number?_eq_some_iff {a b c d : Char} {u : Nat} :
    Hex.number? [a, b, c, d] = some u ↔ HexUnit [a, b, c, d] u := by
  constructor
  · intro h
    simp only [Hex.number?, List.foldlM_cons, List.foldlM_nil, Option.bind_eq_bind,
      Option.bind_eq_some_iff, Option.map_eq_some_iff, Option.pure_def, Option.some_inj,
      digit?_eq_some_iff] at h
    obtain ⟨_, ⟨i, ha, rfl⟩, _, ⟨j, hb, rfl⟩, _, ⟨k, hc, rfl⟩, _, ⟨l, hd, rfl⟩, rfl⟩ := h
    rw [Nat.zero_mul, Nat.zero_add]
    exact .mk ha hb hc hd
  · rintro ⟨ha, hb, hc, hd⟩
    rw [← digit?_eq_some_iff] at ha hb hc hd
    simp [Hex.number?, ha, hb, hc, hd]

theorem escaped?_eq_some_iff {e c : Char} : escaped? e = some c ↔ (e, c) ∈ shortEscapes := by
  unfold escaped?
  split <;> simp_all [shortEscapes, eq_comm]

/-! ## Strings -/

/-- A part in front of other parts. -/
def withPart (p : Part) (r : List Part × List Char) : List Part × List Char :=
  (p :: r.1, r.2)

theorem parts?_escaped {e c : Char} (h : escaped? e = some c) (cs : List Char) :
    parts? ('\\' :: e :: cs) = (parts? cs).map (withPart (.char c)) := by
  have hu : e ≠ 'u' := by
    rintro rfl
    cases h
  rw [parts?]
  · rw [h]
    cases parts? cs <;> rfl
  · intros
    simp_all

theorem parts?_unit {a b c d : Char} {u : Nat} (h : Hex.number? [a, b, c, d] = some u)
    (cs : List Char) :
    parts? ('\\' :: 'u' :: a :: b :: c :: d :: cs) = (parts? cs).map (withPart (.unit u)) := by
  rw [parts?, h]
  cases parts? cs <;> rfl

theorem parts?_raw {c : Char} (hquote : c ≠ '"') (hslash : c ≠ '\\') (hc : 0x20 ≤ c.toNat)
    (cs : List Char) : parts? (c :: cs) = (parts? cs).map (withPart (.char c)) := by
  have hcontrol : ¬ c.toNat < 0x20 := by omega
  rw [parts?]
  · rw [if_neg hcontrol]
    cases parts? cs <;> rfl
  all_goals simp_all

/-- One part of a string, and what follows it. -/
inductive IsPart : List Char → Part → List Char → Prop
  | raw {c : Char} {rest : List Char} (hquote : c ≠ '"') (hslash : c ≠ '\\')
      (hc : 0x20 ≤ c.toNat) : IsPart (c :: rest) (.char c) rest
  | short {e c : Char} {rest : List Char} (he : (e, c) ∈ shortEscapes) :
      IsPart ('\\' :: e :: rest) (.char c) rest
  | unit {ds rest : List Char} {u : Nat} (hu : HexUnit ds u) :
      IsPart ('\\' :: 'u' :: (ds ++ rest)) (.unit u) rest

theorem parts?_eq_nil_iff {cs rest : List Char} :
    parts? cs = some ([], rest) ↔ cs = '"' :: rest := by
  constructor
  · intro h
    unfold parts? at h
    split at h
    · cases h
    · cases h
      rfl
    · split at h <;> cases h
    · split at h <;> cases h
    · split at h
      · cases h
      · split at h <;> cases h
  · rintro rfl
    rfl

theorem exists_isPart_of_parts? {cs rest : List Char} {p : Part} {ps : List Part}
    (h : parts? cs = some (p :: ps, rest)) :
    ∃ ds, IsPart cs p ds ∧ parts? ds = some (ps, rest) := by
  unfold parts? at h
  split at h
  · cases h
  · cases h
  · split at h
    · rename_i hu hparts
      cases h
      exact ⟨_, .unit (number?_eq_some_iff.1 hu), hparts⟩
    · cases h
  · split at h
    · rename_i he hparts
      cases h
      exact ⟨_, .short (escaped?_eq_some_iff.1 he), hparts⟩
    · cases h
  · rename_i c cs hquote _ hslash
    split at h
    · cases h
    · split at h
      · rename_i hc _ _ _ hparts
        cases h
        refine ⟨cs, .raw hquote ?_ (Nat.le_of_not_lt hc), hparts⟩
        rintro rfl
        -- a backslash at the end of the text leaves nothing to read
        cases cs with
        | nil => cases hparts
        | cons d ds => exact hslash d ds rfl rfl
      · cases h

theorem IsPart.parts?_eq {cs ds : List Char} {p : Part} (h : IsPart cs p ds) :
    parts? cs = (parts? ds).map (withPart p) := by
  cases h with
  | raw hquote hslash hc => exact parts?_raw hquote hslash hc ds
  | short he => exact parts?_escaped (escaped?_eq_some_iff.2 he) ds
  | unit hu =>
    obtain ⟨ha, hb, hc, hd⟩ := hu
    exact parts?_unit (number?_eq_some_iff.2 (.mk ha hb hc hd)) ds

theorem parts?_eq_cons_iff {cs rest : List Char} {p : Part} {ps : List Part} :
    parts? cs = some (p :: ps, rest) ↔ ∃ ds, IsPart cs p ds ∧ parts? ds = some (ps, rest) := by
  constructor
  · exact exists_isPart_of_parts?
  · rintro ⟨ds, hp, hds⟩
    rw [hp.parts?_eq, hds]
    rfl

theorem joined?_char (c : Char) (ps : List Part) :
    joined? (.char c :: ps) = (joined? ps).map (c :: ·) := by
  rw [joined?]

/-- A unit that is no surrogate stands for itself. -/
theorem joined?_unit {u : Nat} (h : u < 0xD800 ∨ 0xDFFF < u) (ps : List Part) :
    joined? (.unit u :: ps) = (joined? ps).map (Char.ofNat u :: ·) := by
  have hlead : isLead u = false := by
    rw [isLead, Bool.and_eq_false_iff, decide_eq_false_iff_not, decide_eq_false_iff_not]
    omega
  have htrail : isTrail u = false := by
    rw [isTrail, Bool.and_eq_false_iff, decide_eq_false_iff_not, decide_eq_false_iff_not]
    omega
  cases ps with
  | nil => simp [joined?, hlead, htrail]
  | cons p ps =>
    cases p with
    | char c => simp [joined?, hlead, htrail, Function.comp_def]
    | unit v => simp [joined?, hlead, htrail]

/-- A unit stands for itself, or it leads a pair. -/
theorem joined?_unit_cases {u : Nat} {ps : List Part} {s : List Char}
    (h : joined? (.unit u :: ps) = some s) :
    (u < 0xD800 ∨ 0xDFFF < u) ∨
      (0xD800 ≤ u ∧ u ≤ 0xDBFF) ∧ ∃ v qs, ps = .unit v :: qs ∧ 0xDC00 ≤ v ∧ v ≤ 0xDFFF := by
  by_cases hplain : u < 0xD800 ∨ 0xDFFF < u
  · exact .inl hplain
  · right
    have hsurrogate : (isLead u || isTrail u) = true := by
      simp only [isLead, isTrail, Bool.or_eq_true, Bool.and_eq_true, decide_eq_true_eq]
      omega
    cases ps with
    | nil =>
      rw [joined?, if_pos hsurrogate] at h
      cases h
    | cons p qs =>
      cases p with
      | char c =>
        rw [joined?, if_pos hsurrogate] at h
        cases h
      | unit v =>
        rw [joined?] at h
        split at h
        · rename_i hlead
          split at h
          · rename_i htrail
            simp only [isLead, isTrail, Bool.and_eq_true, decide_eq_true_eq] at hlead htrail
            exact ⟨by omega, v, qs, rfl, by omega, by omega⟩
          · cases h
        · rename_i hlead
          rw [Bool.not_eq_true] at hlead
          rw [hlead, Bool.false_or] at hsurrogate
          rw [if_pos hsurrogate] at h
          cases h

theorem joined?_pair {u v : Nat} (hlead : 0xD800 ≤ u ∧ u ≤ 0xDBFF)
    (htrail : 0xDC00 ≤ v ∧ v ≤ 0xDFFF) (ps : List Part) :
    joined? (.unit u :: .unit v :: ps) =
      (joined? ps).map (Char.ofNat (0x10000 + (u - 0xD800) * 0x400 + (v - 0xDC00)) :: ·) := by
  have hu : isLead u = true := by
    rw [isLead, Bool.and_eq_true, decide_eq_true_eq, decide_eq_true_eq]
    omega
  have hv : isTrail v = true := by
    rw [isTrail, Bool.and_eq_true, decide_eq_true_eq, decide_eq_true_eq]
    omega
  rw [joined?, if_pos hu, if_pos hv]

theorem Characters.exists_parts {cs s rest : List Char} (h : Characters cs s rest) :
    ∃ ps, parts? cs = some (ps, rest) ∧ joined? ps = some s := by
  induction h with
  | close rest => exact ⟨[], rfl, rfl⟩
  | @raw c cs s rest hquote hslash hc _ ih =>
    obtain ⟨ps, hparts, hjoined⟩ := ih
    refine ⟨.char c :: ps, parts?_eq_cons_iff.2 ⟨cs, .raw hquote hslash hc, hparts⟩, ?_⟩
    rw [joined?_char, hjoined]
    rfl
  | @short e c cs s rest he _ ih =>
    obtain ⟨ps, hparts, hjoined⟩ := ih
    refine ⟨.char c :: ps, parts?_eq_cons_iff.2 ⟨cs, .short he, hparts⟩, ?_⟩
    rw [joined?_char, hjoined]
    rfl
  | @unit ds cs s rest u hu hplain _ ih =>
    obtain ⟨ps, hparts, hjoined⟩ := ih
    refine ⟨.unit u :: ps, parts?_eq_cons_iff.2 ⟨cs, .unit hu, hparts⟩, ?_⟩
    rw [joined?_unit hplain, hjoined]
    rfl
  | @pair ds es cs s rest u v hu hv hlead htrail _ ih =>
    obtain ⟨ps, hparts, hjoined⟩ := ih
    have htail := parts?_eq_cons_iff.2 ⟨cs, .unit hv, hparts⟩
    refine ⟨.unit u :: .unit v :: ps, parts?_eq_cons_iff.2 ⟨_, .unit hu, htail⟩, ?_⟩
    rw [joined?_pair hlead htrail, hjoined]
    rfl

/-- A pair of units is one character, so the induction is on the number of parts. -/
theorem characters_of_parts (n : Nat) {ps : List Part} (hn : ps.length ≤ n)
    {cs s rest : List Char} (hparts : parts? cs = some (ps, rest)) (hjoined : joined? ps = some s) :
    Characters cs s rest := by
  induction n generalizing ps cs s with
  | zero =>
    obtain rfl := List.eq_nil_of_length_eq_zero (Nat.le_zero.1 hn)
    obtain rfl := Option.some.inj hjoined
    rw [parts?_eq_nil_iff.1 hparts]
    exact .close rest
  | succ n ih =>
    cases ps with
    | nil =>
      obtain rfl := Option.some.inj hjoined
      rw [parts?_eq_nil_iff.1 hparts]
      exact .close rest
    | cons p ps =>
      obtain ⟨ds, hp, hds⟩ := parts?_eq_cons_iff.1 hparts
      rw [List.length_cons] at hn
      cases hp with
      | raw hquote hslash hc =>
        rw [joined?_char] at hjoined
        obtain ⟨s, hs, rfl⟩ := Option.map_eq_some_iff.1 hjoined
        exact .raw hquote hslash hc (ih (by omega) hds hs)
      | short he =>
        rw [joined?_char] at hjoined
        obtain ⟨s, hs, rfl⟩ := Option.map_eq_some_iff.1 hjoined
        exact .short he (ih (by omega) hds hs)
      | unit hu =>
        rcases joined?_unit_cases hjoined with hplain | ⟨hlead, v, qs, rfl, htrail⟩
        · rw [joined?_unit hplain] at hjoined
          obtain ⟨s, hs, rfl⟩ := Option.map_eq_some_iff.1 hjoined
          exact .unit hu hplain (ih (by omega) hds hs)
        · rw [joined?_pair hlead htrail] at hjoined
          obtain ⟨s, hs, rfl⟩ := Option.map_eq_some_iff.1 hjoined
          obtain ⟨es, hv, hes⟩ := parts?_eq_cons_iff.1 hds
          rw [List.length_cons] at hn
          cases hv with
          | unit hv => exact .pair hu hv hlead htrail (ih (by omega) hes hs)

/-- The reader of strings takes what the rule allows. -/
theorem string?_eq_some_iff {cs rest : List Char} {s : String} :
    string? cs = some (s, rest) ↔ Characters cs s.toList rest := by
  constructor
  · intro h
    unfold string? at h
    split at h
    · rename_i ps ds hparts
      obtain ⟨chars, hjoined, hs⟩ := Option.map_eq_some_iff.1 h
      cases hs
      rw [String.toList_ofList]
      exact characters_of_parts _ (Nat.le_refl _) hparts hjoined
    · cases h
  · intro h
    obtain ⟨ps, hparts, hjoined⟩ := h.exists_parts
    simp [string?, hparts, hjoined]

theorem Characters.length_lt {cs s rest : List Char} (h : Characters cs s rest) :
    rest.length < cs.length := by
  induction h with
  | close => exact Nat.lt_succ_self _
  | raw _ _ _ _ ih => exact Nat.lt_succ_of_lt ih
  | short _ _ ih =>
    rw [List.length_cons, List.length_cons]
    omega
  | unit _ _ _ ih =>
    rw [List.length_cons, List.length_cons, List.length_append]
    omega
  | pair _ _ _ _ _ ih =>
    simp only [List.length_cons, List.length_append]
    omega

/-! ## Objects -/

section

variable {α β : Type} {Value : List Char → α → List Char → Prop} {g : α → β}
  {read : List Char → Option (β × List Char)}

/-- A reader takes the values that the rule allows, behind blanks, and gives each as `g` says. -/
def Reads (read : List Char → Option (β × List Char)) (g : α → β)
    (Value : List Char → α → List Char → Prop) : Prop :=
  ∀ cs a rest, read cs = some (g a, rest) ↔ ∃ ds, Blanks cs ds ∧ Value ds a rest

theorem memberOf?_eq_some {cs rest : List Char} {name : String} {b : β} :
    memberOf? read cs = some ((name, b), rest) ↔ ∃ ds es fs, Blanks cs ('"' :: ds) ∧
      Characters ds name.toList es ∧ Blanks es (':' :: fs) ∧ read fs = some (b, rest) := by
  constructor
  · intro h
    unfold memberOf? at h
    split at h
    · rename_i ds hopen
      split at h
      · cases h
      · rename_i name' es hname
        split at h
        · rename_i fs hcolon
          obtain ⟨⟨b', rest'⟩, hread, hb⟩ := Option.map_eq_some_iff.1 h
          cases hb
          exact ⟨ds, es, fs, (blanks_cons_iff rfl).2 hopen, string?_eq_some_iff.1 hname,
            (blanks_cons_iff rfl).2 hcolon, hread⟩
        · cases h
    · cases h
  · rintro ⟨ds, es, fs, hopen, hname, hcolon, hread⟩
    rw [memberOf?, (blanks_cons_iff rfl).1 hopen]
    simp only [string?_eq_some_iff.2 hname, (blanks_cons_iff (c := ':') rfl).1 hcolon, hread,
      Option.map_some]

theorem Reads.memberOf?_eq_some_iff (h : Reads read g Value) {cs rest : List Char} {name : String}
    {a : α} : memberOf? read cs = some ((name, g a), rest) ↔ Member Value cs (name, a) rest := by
  rw [memberOf?_eq_some]
  constructor
  · rintro ⟨ds, es, fs, hopen, hname, hcolon, hread⟩
    obtain ⟨gs, hblanks, hv⟩ := (h fs a rest).1 hread
    exact .mk hopen hname hcolon hblanks hv
  · rintro ⟨hopen, hname, hcolon, hblanks, hv⟩
    exact ⟨_, _, _, hopen, hname, hcolon, (h _ _ _).2 ⟨_, hblanks, hv⟩⟩

theorem Reads.members_of_items? (h : Reads read g Value) {fuel : Nat} {cs rest : List Char}
    {ms : List (String × α)}
    (hitems : items? (memberOf? read) '\x7d' fuel cs = some (ms.map fun m => (m.1, g m.2), rest)) :
    Members Value cs ms rest := by
  induction fuel generalizing cs ms with
  | zero => cases hitems
  | succ fuel ih =>
    rw [items?] at hitems
    split at hitems
    · cases hitems
    · rename_i b ds hitem
      split at hitems
      · cases hitems
      · rename_i c es hnext
        split at hitems
        · rename_i hclose
          subst hclose
          obtain ⟨hb, rfl⟩ := Prod.mk.inj (Option.some.inj hitems)
          obtain ⟨m, rfl, hm⟩ := List.map_eq_singleton_iff.1 hb.symm
          rw [← hm] at hitem
          exact .last (h.memberOf?_eq_some_iff.1 hitem) ((blanks_cons_iff rfl).2 hnext)
        · split at hitems
          · rename_i hcomma
            subst hcomma
            obtain ⟨⟨bs, rest'⟩, hrest, hbs⟩ := Option.map_eq_some_iff.1 hitems
            obtain ⟨hlist, rfl⟩ := Prod.mk.inj hbs
            obtain ⟨m, ns, rfl, hm, rfl⟩ := List.map_eq_cons_iff.1 hlist.symm
            rw [← hm] at hitem
            exact .more (h.memberOf?_eq_some_iff.1 hitem) ((blanks_cons_iff rfl).2 hnext)
              (ih hrest)
          · cases hitems

theorem Reads.items?_of_members (h : Reads read g Value) {cs rest : List Char}
    {ms : List (String × α)} (hms : Members Value cs ms rest) {fuel : Nat}
    (hfuel : ms.length ≤ fuel) : items? (memberOf? read) '\x7d' fuel cs =
      some (ms.map fun m => (m.1, g m.2), rest) := by
  induction hms generalizing fuel with
  | last hm hclose =>
    obtain ⟨fuel, rfl⟩ := Nat.exists_eq_add_of_le' hfuel
    rw [List.length_singleton, items?, h.memberOf?_eq_some_iff.2 hm]
    simp [(blanks_cons_iff (c := '\x7d') rfl).1 hclose]
  | @more cs ds es rest m ms hm hcomma _ ih =>
    rw [List.length_cons] at hfuel
    obtain ⟨fuel, rfl⟩ : ∃ n, fuel = n + 1 := ⟨fuel - 1, by omega⟩
    rw [items?, h.memberOf?_eq_some_iff.2 hm]
    simp [(blanks_cons_iff (c := ',') rfl).1 hcomma, ih (Nat.le_of_succ_le_succ hfuel)]

variable (hlength : ∀ {cs a rest}, Value cs a rest → rest.length ≤ cs.length)

include hlength in
theorem Member.length_lt {cs rest : List Char} {m : String × α} (h : Member Value cs m rest) :
    rest.length < cs.length := by
  obtain ⟨hopen, hname, hcolon, hblanks, hv⟩ := h
  have h1 := hopen.length_le
  have h2 := hname.length_lt
  have h3 := hcolon.length_le
  have h4 := hblanks.length_le
  have h5 := hlength hv
  rw [List.length_cons] at h1 h3
  omega

include hlength in
/-- There are no more members than characters. -/
theorem Members.length_le {cs rest : List Char} {ms : List (String × α)}
    (h : Members Value cs ms rest) : ms.length ≤ cs.length := by
  induction h with
  | last hm _ =>
    have hlt := hm.length_lt hlength
    rw [List.length_singleton]
    omega
  | more hm hcomma _ ih =>
    have hlt := hm.length_lt hlength
    have hle := hcomma.length_le
    rw [List.length_cons] at hle ⊢
    omega

theorem Members.exists_quote {cs rest : List Char} {ms : List (String × α)}
    (h : Members Value cs ms rest) : ∃ ds, skipBlank cs = '"' :: ds := by
  cases h with
  | last hm _ =>
    obtain ⟨hopen, -, -, -, -⟩ := hm
    exact ⟨_, (blanks_cons_iff rfl).1 hopen⟩
  | more hm _ _ =>
    obtain ⟨hopen, -, -, -, -⟩ := hm
    exact ⟨_, (blanks_cons_iff rfl).1 hopen⟩

include hlength in
/-- The reader of objects takes what the rule allows. -/
theorem Reads.group?_eq_some_iff (h : Reads read g Value) {cs rest : List Char}
    {ms : List (String × α)} :
    group? (memberOf? read) '\x7d' cs = some (ms.map fun m => (m.1, g m.2), rest) ↔
      Body Value cs ms rest := by
  constructor
  · intro hgroup
    unfold group? at hgroup
    split at hgroup
    · cases hgroup
    · rename_i c ds hskip
      split at hgroup
      · rename_i hclose
        subst hclose
        obtain ⟨hms, rfl⟩ := Prod.mk.inj (Option.some.inj hgroup)
        obtain rfl := List.map_eq_nil_iff.1 hms.symm
        exact .empty ((blanks_cons_iff rfl).2 hskip)
      · exact .members (h.members_of_items? hgroup)
  · rintro (hclose | hms)
    · rw [group?, (blanks_cons_iff rfl).1 hclose]
      rfl
    · obtain ⟨ds, hskip⟩ := hms.exists_quote
      rw [group?, hskip]
      exact h.items?_of_members hms (hms.length_le hlength)

end

end HstoreKit.Json
