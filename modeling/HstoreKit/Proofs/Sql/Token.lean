import HstoreKit.Sql.Identifier
import HstoreKit.Sql.Quote
import Mathlib.Data.List.Forall2

/-!
# Tokens of SQL

The lexical rules of SQL as a machine that reads a text character by character and knows which
token is open. A text is refused where a quote is not closed, where a comment begins, and where
characters stand that make no token.

* `Token`, `tokens?`: the tokens of a text;
* `tokens?_append`: a token ends before a space, a comma, a bracket or a parenthesis;
* `tokens?_closed_append`: behind a text that leaves no token open anything may follow;
* `tokens?_sep`, `tokens?_intercalate`: texts with a separator between them;
* `Within`: a text that stands in another and keeps its tokens there.
-/

namespace HstoreKit.Sql

inductive Token where
  /-- A string literal. -/
  | literal (s : String)
  /-- A quoted identifier. -/
  | name (s : String)
  /-- A keyword or a plain identifier. -/
  | word (s : String)
  | integer (n : Nat)
  | parameter (n : Nat)
  | operator (s : String)
  | punctuation (s : String)
  deriving DecidableEq, Repr

namespace Token

def isSpace (c : Char) : Bool :=
  c ∈ [' ', '\t', '\n', '\r', '\x0b', '\x0c']

/-- A letter, an underscore or any character beyond ASCII. -/
def isWordStart (c : Char) : Bool :=
  c.isAlpha || c = '_' || 0x80 ≤ c.toNat

def isWordPart (c : Char) : Bool :=
  isWordStart c || c.isDigit || c = '$'

def isOperatorPart (c : Char) : Bool :=
  c ∈ "+-*/<>=~!@#%^&|`?".toList

def isPunctuation (c : Char) : Bool :=
  c ∈ ['(', ')', '[', ']', ',', ';', '.']

/-- The quotes around a string literal and around an identifier. -/
inductive Quote where
  | single
  | double
  deriving DecidableEq, Repr

def Quote.char : Quote → Char
  | .single => '\''
  | .double => '"'

/-- The token that is open, with what has been read of it. -/
inductive Mode where
  | between
  | quoted (q : Quote) (s : List Char)
  /-- Behind a quote that ends the token unless a second one follows. -/
  | closing (q : Quote) (s : List Char)
  | word (s : List Char)
  | integer (s : List Char)
  | parameter (s : List Char)
  | operator (s : List Char)
  | colon
  | refused
  deriving DecidableEq, Repr

/-- What a character begins where no token is open. -/
def start (c : Char) : List Token × Mode :=
  if isSpace c then ([], .between)
  else if c = '\'' then ([], .quoted .single [])
  else if c = '"' then ([], .quoted .double [])
  else if isWordStart c then ([], .word [c])
  else if c.isDigit then ([], .integer [c])
  else if c = '$' then ([], .parameter [])
  else if isOperatorPart c then ([], .operator [c])
  else if c = ':' then ([], .colon)
  else if isPunctuation c then ([.punctuation (String.singleton c)], .between)
  else ([], .refused)

/-- What stands in quotes. -/
def ofQuoted : Quote → String → Token
  | .single, s => .literal s
  | .double, s => .name s

/-- The number that digits spell. -/
def value (digits : List Char) : Nat :=
  Nat.ofDigitChars 10 digits 0

/-- Whether a character makes the end of an operator the beginning of a comment. -/
def opensComment (s : List Char) (c : Char) : Bool :=
  (s.getLast? = some '-' && c = '-') || (s.getLast? = some '/' && c = '*')

/-- Ends a token with the character behind it. -/
def endWith (t : Token) (c : Char) : List Token × Mode :=
  (t :: (start c).1, (start c).2)

/-- One character: the tokens it ends, and the one it leaves open. A word before a single quote and
a word or point behind digits would make tokens of other kinds and are refused. -/
def step : Mode → Char → List Token × Mode
  | .between, c => start c
  | .quoted q s, c => if c = q.char then ([], .closing q s) else ([], .quoted q (s ++ [c]))
  | .closing q s, c =>
    if c = q.char then ([], .quoted q (s ++ [c])) else endWith (ofQuoted q (String.ofList s)) c
  | .word s, c =>
    if isWordPart c then ([], .word (s ++ [c]))
    else if c = '\'' then ([], .refused)
    else endWith (.word (String.ofList s)) c
  | .integer s, c =>
    if c.isDigit then ([], .integer (s ++ [c]))
    else if isWordPart c || c = '.' then ([], .refused)
    else endWith (.integer (value s)) c
  | .parameter s, c =>
    if c.isDigit then ([], .parameter (s ++ [c]))
    else if s.isEmpty || isWordPart c then ([], .refused)
    else endWith (.parameter (value s)) c
  | .operator s, c =>
    if opensComment s c then ([], .refused)
    else if isOperatorPart c then ([], .operator (s ++ [c]))
    else endWith (.operator (String.ofList s)) c
  | .colon, c =>
    if c = ':' then ([.punctuation "::"], .between) else endWith (.punctuation ":") c
  | .refused, _ => ([], .refused)

/-- The tokens that end in a text, and the one that is open behind it. -/
def feed : Mode → List Char → List Token × Mode
  | m, [] => ([], m)
  | m, c :: cs => ((step m c).1 ++ (feed (step m c).2 cs).1, (feed (step m c).2 cs).2)

/-- The token that is open at the end of a text, if it may end there. -/
def Mode.finish? : Mode → Option (List Token)
  | .between => some []
  | .quoted _ _ => none
  | .closing q s => some [ofQuoted q (String.ofList s)]
  | .word s => some [.word (String.ofList s)]
  | .integer s => some [.integer (value s)]
  | .parameter s => if s.isEmpty then none else some [.parameter (value s)]
  | .operator s => some [.operator (String.ofList s)]
  | .colon => some [.punctuation ":"]
  | .refused => none

end Token

open Token

/-- The tokens of a text. -/
def tokens? (sql : String) : Option (List Token) :=
  (feed .between sql.toList).2.finish?.map ((feed .between sql.toList).1 ++ ·)

namespace Token

/-! ## Text behind text -/

theorem feed_append (m : Mode) (cs ds : List Char) : feed m (cs ++ ds) =
    ((feed m cs).1 ++ (feed (feed m cs).2 ds).1, (feed (feed m cs).2 ds).2) := by
  induction cs generalizing m with
  | nil => rfl
  | cons c cs ih => simp [feed, ih]

/-- A character that ends every token but a quoted one. -/
def isBreak (c : Char) : Bool :=
  c ∈ [' ', ',', '(', ')', '[', ']']

theorem step_between (c : Char) : step .between c = start c := rfl

theorem eq_of_isBreak {c : Char} (h : isBreak c = true) :
    c = ' ' ∨ c = ',' ∨ c = '(' ∨ c = ')' ∨ c = '[' ∨ c = ']' := by
  simpa [isBreak] using h

theorem not_part_of_isBreak {c : Char} (h : isBreak c = true) : c ≠ '\'' ∧ c ≠ '"' ∧ c ≠ ':' ∧
    c ≠ '.' ∧ isWordPart c = false ∧ c.isDigit = false ∧ isOperatorPart c = false := by
  rcases eq_of_isBreak h with rfl | rfl | rfl | rfl | rfl | rfl <;> decide

theorem step_of_break {m : Mode} {ts : List Token} {c : Char} (hm : m.finish? = some ts)
    (hc : isBreak c = true) : step m c = (ts ++ (start c).1, (start c).2) := by
  obtain ⟨hsingle, hdouble, hcolon, hpoint, hword, hdigit, hoperator⟩ := not_part_of_isBreak hc
  have hcomment (s : List Char) : opensComment s c = false := by
    rcases eq_of_isBreak hc with rfl | rfl | rfl | rfl | rfl | rfl <;> simp [opensComment]
  cases m with
  | between =>
    obtain rfl := Option.some.inj hm
    rfl
  | quoted q s => simp [Mode.finish?] at hm
  | closing q s =>
    obtain rfl := Option.some.inj hm
    cases q <;> simp [step, endWith, Quote.char, hsingle, hdouble]
  | word s =>
    obtain rfl := Option.some.inj hm
    simp [step, endWith, hword, hsingle]
  | integer s =>
    obtain rfl := Option.some.inj hm
    simp [step, endWith, hword, hdigit, hpoint]
  | parameter s =>
    by_cases hs : s.isEmpty = true
    · simp [Mode.finish?, hs] at hm
    · rw [Mode.finish?, if_neg hs] at hm
      obtain rfl := Option.some.inj hm
      simp [step, endWith, hdigit, hword, hs]
  | operator s =>
    obtain rfl := Option.some.inj hm
    simp [step, endWith, hcomment, hoperator]
  | colon =>
    obtain rfl := Option.some.inj hm
    simp [step, endWith, hcolon]
  | refused => simp [Mode.finish?] at hm

/-- A text that begins with a character that ends every token. -/
def Breaks (s : String) : Prop :=
  ∃ c cs, s.toList = c :: cs ∧ isBreak c = true

theorem Breaks.append {s : String} (h : Breaks s) (t : String) : Breaks (s ++ t) := by
  obtain ⟨c, cs, hs, hc⟩ := h
  exact ⟨c, cs ++ t.toList, by simp [hs], hc⟩

/-- Tokens are read one after the other where the second text begins with a break. -/
theorem tokens?_append {s t : String} {ts us : List Token} (hs : tokens? s = some ts)
    (ht : tokens? t = some us) (hb : Breaks t) : tokens? (s ++ t) = some (ts ++ us) := by
  obtain ⟨c, cs, hlist, hc⟩ := hb
  obtain ⟨ends, hm, rfl⟩ := Option.map_eq_some_iff.1 hs
  obtain ⟨last, hlast, rfl⟩ := Option.map_eq_some_iff.1 ht
  rw [hlist] at hlast ⊢
  have hend : (feed (start c).2 cs).2.finish? = some last := hlast
  simp only [tokens?, String.toList_append, hlist, feed_append, feed, step_of_break hm hc, hend,
    Option.map_some, step_between, List.append_assoc]

/-- A text that leaves no token open. -/
def Closed (s : String) (ts : List Token) : Prop :=
  feed .between s.toList = (ts, .between)

theorem tokens?_closed_append {s t : String} {ts us : List Token} (hs : Closed s ts)
    (ht : Sql.tokens? t = some us) : Sql.tokens? (s ++ t) = some (ts ++ us) := by
  have hfeed : feed .between s.toList = (ts, .between) := hs
  obtain ⟨last, hlast, rfl⟩ := Option.map_eq_some_iff.1 ht
  simp only [Sql.tokens?, String.toList_append, feed_append, hfeed, hlast, Option.map_some,
    List.append_assoc]

/-- Closed text keeps closed what it follows. -/
theorem Closed.append {s t : String} {ts us : List Token} (hs : Closed s ts) (ht : Closed t us) :
    Closed (s ++ t) (ts ++ us) := by
  have hs' : feed .between s.toList = (ts, .between) := hs
  have ht' : feed .between t.toList = (us, .between) := ht
  simp [Closed, feed_append, hs', ht']

/-- Text closes what is open before it when it begins with a break and is closed itself. -/
theorem closed_of_tokens?_append {s t : String} {ts us : List Token}
    (hs : Sql.tokens? s = some ts) (ht : Closed t us) (hb : Breaks t) :
    Closed (s ++ t) (ts ++ us) := by
  obtain ⟨c, cs, hlist, hc⟩ := hb
  obtain ⟨ends, hm, rfl⟩ := Option.map_eq_some_iff.1 hs
  have ht' : ((start c).1 ++ (feed (start c).2 cs).1, (feed (start c).2 cs).2) =
      (us, .between) := by
    have hfeed : feed .between t.toList = (us, .between) := ht
    rwa [hlist] at hfeed
  obtain ⟨rfl, hmode⟩ := Prod.mk.inj ht'
  simp only [Closed, String.toList_append, hlist, feed_append, feed, step_of_break hm hc, hmode,
    List.append_assoc]

/-! ## Separators -/

/-- A text that divides whatever stands on both sides of it. -/
structure Separates (sep : String) (ms : List Token) : Prop where
  breaks : Breaks sep
  closed : Closed sep ms

theorem tokens?_sep {s sep t : String} {ts ms us : List Token} (hs : Sql.tokens? s = some ts)
    (hsep : Separates sep ms) (ht : Sql.tokens? t = some us) :
    Sql.tokens? (s ++ sep ++ t) = some (ts ++ ms ++ us) :=
  tokens?_closed_append (closed_of_tokens?_append hs hsep.closed hsep.breaks) ht

theorem tokens?_intercalate {sep : String} {ms : List Token} (hsep : Separates sep ms)
    {ss : List String} {tss : List (List Token)}
    (h : List.Forall₂ (fun s ts => Sql.tokens? s = some ts) ss tss) :
    Sql.tokens? (String.intercalate sep ss) = some (ms.intercalate tss) := by
  induction h with
  | nil => rfl
  | @cons s ts ss tss hs hrest ih =>
    cases hrest with
    | nil => simpa using hs
    | cons =>
      rw [String.intercalate_cons_cons, List.intercalate_cons_cons]
      exact tokens?_sep hs hsep ih

theorem tokens?_intercalate_map {sep : String} {ms : List Token} (hsep : Separates sep ms)
    {α : Type} {f : α → String} {g : α → List Token} {l : List α}
    (h : ∀ a ∈ l, Sql.tokens? (f a) = some (g a)) :
    Sql.tokens? (String.intercalate sep (l.map f)) = some (ms.intercalate (l.map g)) := by
  apply tokens?_intercalate hsep
  rw [List.forall₂_map_left_iff, List.forall₂_map_right_iff, List.forall₂_same]
  exact h

/-! ## A text in a text -/

/-- A text with its tokens, in a longer text with the tokens of that one: what is before it leaves
no token open, and what is behind it does not go on with its last token. -/
def Within (t : String) (ts : List Token) (s : String) (us : List Token) : Prop :=
  ∃ before pres after posts, s = before ++ t ++ after ∧ us = pres ++ ts ++ posts ∧
    Closed before pres ∧ Sql.tokens? after = some posts ∧ (after = "" ∨ Breaks after)

theorem Within.refl (t : String) (ts : List Token) : Within t ts t ts :=
  ⟨"", [], "", [], by simp, by simp, rfl, rfl, .inl rfl⟩

theorem Within.trans {t s r : String} {ts us vs : List Token} (hts : Within t ts s us)
    (hsr : Within s us r vs) : Within t ts r vs := by
  obtain ⟨a, as, b, bs, rfl, rfl, ha, hb, hbreak⟩ := hts
  obtain ⟨c, cs, d, ds, rfl, rfl, hc, hd, hend⟩ := hsr
  refine ⟨c ++ a, cs ++ as, b ++ d, bs ++ ds, by simp only [String.append_assoc],
    by simp only [List.append_assoc], hc.append ha, ?_, ?_⟩
  · rcases hend with rfl | hend
    · obtain rfl : [] = ds := Option.some.inj hd
      simpa using hb
    · exact tokens?_append hb hd hend
  · rcases hbreak with rfl | hbreak
    · simpa using hend
    · exact .inr (hbreak.append d)

/-- The tokens inside decide the tokens of the whole. -/
theorem Within.tokens? {t s : String} {ts us : List Token} (h : Within t ts s us)
    (ht : Sql.tokens? t = some ts) : Sql.tokens? s = some us := by
  obtain ⟨before, pres, after, posts, rfl, rfl, hbefore, hafter, hend⟩ := h
  have hleft := tokens?_closed_append hbefore ht
  rcases hend with rfl | hbreak
  · obtain rfl : [] = posts := Option.some.inj hafter
    simpa using hleft
  · exact tokens?_append hleft hafter hbreak

theorem within_left {s sep t : String} {ss ms us : List Token} (hsep : Separates sep ms)
    (ht : Sql.tokens? t = some us) : Within s ss (s ++ sep ++ t) (ss ++ ms ++ us) :=
  ⟨"", [], sep ++ t, ms ++ us, by simp [String.append_assoc], by simp, rfl,
    tokens?_closed_append hsep.closed ht, .inr (hsep.breaks.append t)⟩

theorem within_right {s sep t : String} {ss ms us : List Token} (hs : Sql.tokens? s = some ss)
    (hsep : Separates sep ms) : Within t us (s ++ sep ++ t) (ss ++ ms ++ us) :=
  ⟨s ++ sep, ss ++ ms, "", [], by simp, by simp,
    closed_of_tokens?_append hs hsep.closed hsep.breaks, rfl, .inl rfl⟩

theorem within_behind {opening : String} {ms : List Token} (ho : Closed opening ms) (s : String)
    (us : List Token) : Within s us (opening ++ s) (ms ++ us) :=
  ⟨opening, ms, "", [], by simp, by simp, ho, rfl, .inl rfl⟩

/-- A text behind one that leaves no token open and before a parenthesis that closes. -/
theorem within_parentheses {opening : String} {ms : List Token} (ho : Closed opening ms)
    (s : String) (us : List Token) :
    Within s us (opening ++ s ++ ")") (ms ++ us ++ [.punctuation ")"]) :=
  ⟨opening, ms, ")", [.punctuation ")"], rfl, rfl, ho, rfl, .inr ⟨')', [], rfl, rfl⟩⟩

/-! ## Texts that are one token -/

theorem tokens?_of_feed {s : String} {us ts : List Token} {m : Mode}
    (h : feed .between s.toList = (us, m)) (hm : m.finish? = some ts) :
    Sql.tokens? s = some (us ++ ts) := by
  rw [Sql.tokens?, h, hm, Option.map_some]

theorem feed_quoted (q : Quote) (acc cs : List Char) :
    feed (.quoted q acc) (cs.flatMap fun c => if c = q.char then [q.char, q.char] else [c]) =
      ([], .quoted q (acc ++ cs)) := by
  induction cs generalizing acc with
  | nil => simp [feed]
  | cons c cs ih =>
    rw [List.flatMap_cons, feed_append]
    by_cases hc : c = q.char
    · simp [hc, feed, step, ih]
    · simp [hc, feed, step, ih]

/-- Whatever stands in quotes is one token, and the text between them is its content. -/
theorem tokens?_enclosed (q : Quote) (s : String) :
    Sql.tokens? (enclosed q.char s) = some [ofQuoted q s] := by
  have hopen : start q.char = ([], .quoted q []) := by
    cases q <;> rfl
  have hinside := feed_quoted q [] s.toList
  rw [List.nil_append] at hinside
  have hfeed : feed .between (enclosed q.char s).toList = ([], .closing q s.toList) := by
    simp only [enclosed, doubled, String.toList_ofList, List.cons_append, feed, hopen, feed_append,
      hinside, step, if_pos, List.append_nil]
  rw [tokens?_of_feed hfeed rfl, String.ofList_toList, List.nil_append]

theorem tokens?_literal (s : String) : Sql.tokens? (Sql.literal s) = some [.literal s] :=
  tokens?_enclosed .single s

theorem tokens?_quotedName (s : String) : Sql.tokens? (quotedName s) = some [.name s] :=
  tokens?_enclosed .double s

/-- Characters that go on with the open token are added to it. -/
theorem feed_grow {mode : List Char → Mode} {part : Char → Bool}
    (hstep : ∀ s c, part c = true → step (mode s) c = ([], mode (s ++ [c]))) {cs : List Char}
    (h : ∀ c ∈ cs, part c = true) (s : List Char) : feed (mode s) cs = ([], mode (s ++ cs)) := by
  induction cs generalizing s with
  | nil => simp [feed]
  | cons c cs ih =>
    have hc := hstep s c (h c List.mem_cons_self)
    have hrest := ih (fun d hd => h d (List.mem_cons_of_mem _ hd)) (s ++ [c])
    rw [feed, hc, hrest, List.append_assoc, List.singleton_append]
    rfl

theorem feed_word (s : List Char) {cs : List Char} (h : ∀ c ∈ cs, isWordPart c = true) :
    feed (.word s) cs = ([], .word (s ++ cs)) :=
  feed_grow (fun s c hc => by simp [step, hc]) h s

theorem feed_integer (s : List Char) {cs : List Char} (h : ∀ c ∈ cs, c.isDigit = true) :
    feed (.integer s) cs = ([], .integer (s ++ cs)) :=
  feed_grow (fun s c hc => by simp [step, hc]) h s

theorem feed_parameter (s : List Char) {cs : List Char} (h : ∀ c ∈ cs, c.isDigit = true) :
    feed (.parameter s) cs = ([], .parameter (s ++ cs)) :=
  feed_grow (fun s c hc => by simp [step, hc]) h s

theorem start_of_isWordStart {c : Char} (h : isWordStart c = true) :
    start c = ([], .word [c]) := by
  have hne : isSpace c = false ∧ c ≠ '\'' ∧ c ≠ '"' := by
    refine ⟨?_, ?_, ?_⟩
    · cases hs : isSpace c
      · rfl
      · have hc : c = ' ' ∨ c = '\t' ∨ c = '\n' ∨ c = '\r' ∨ c = '\x0b' ∨ c = '\x0c' := by
          simpa [isSpace] using hs
        rcases hc with rfl | rfl | rfl | rfl | rfl | rfl <;> revert h <;> decide
    · rintro rfl
      revert h
      decide
    · rintro rfl
      revert h
      decide
  simp [start, hne, h]

/-- A plain identifier is one word. -/
theorem tokens?_plain {name : String} (h : nameFault? name = none) :
    Sql.tokens? name = some [.word name] := by
  obtain ⟨c, cs, hname, hstart, hparts⟩ := chars_of_nameFault?_eq_none h
  have hc : isWordStart c = true := by
    rcases Bool.or_eq_true_iff.1 hstart with h | h <;> simp [isWordStart, h]
  have hcs : ∀ d ∈ cs, isWordPart d = true := by
    intro d hd
    have hd' := hparts d hd
    simp only [isNameChar, Char.isAlphanum, Bool.or_eq_true] at hd'
    rcases hd' with (h | h) | h <;> simp [isWordPart, isWordStart, h]
  have hfeed : feed .between name.toList = ([], .word name.toList) := by
    simp [hname, feed, step_between, start_of_isWordStart hc, feed_word [c] hcs]
  rw [tokens?_of_feed hfeed rfl, String.ofList_toList, List.nil_append]

theorem mem_of_isDigit {c : Char} (h : c.isDigit = true) : c ∈ "0123456789".toList := by
  have hrange : 48 ≤ c.toNat ∧ c.toNat ≤ 57 := by
    simpa [Char.isDigit, UInt32.le_iff_toNat_le, ← Char.toNat_val] using h
  have hall : ∀ n < 58, 48 ≤ n → Char.ofNat n ∈ "0123456789".toList := by decide
  have hmem := hall c.toNat (by omega) hrange.1
  rwa [Char.ofNat_toNat] at hmem

theorem start_of_isDigit {c : Char} (h : c.isDigit = true) : start c = ([], .integer [c]) := by
  have hall : ("0123456789".toList.all fun d => start d = ([], .integer [d])) = true := by decide
  exact of_decide_eq_true (List.all_eq_true.1 hall c (mem_of_isDigit h))

/-- A digit ends an operator before it. -/
theorem step_sign_of_isDigit {c : Char} (h : c.isDigit = true) :
    step (.operator ['-']) c = ([.operator "-"], .integer [c]) := by
  have hall : ("0123456789".toList.all fun d =>
      step (.operator ['-']) d = ([.operator "-"], .integer [d])) = true := by decide
  exact of_decide_eq_true (List.all_eq_true.1 hall c (mem_of_isDigit h))

/-- The digits of a number: the first begins an integer and the others go on with it. -/
theorem exists_toDigits (n : Nat) : ∃ c cs, Nat.toDigits 10 n = c :: cs ∧
    start c = ([], .integer [c]) ∧ feed (.integer [c]) cs = ([], .integer (Nat.toDigits 10 n)) := by
  obtain ⟨c, cs, hdigits⟩ := List.exists_cons_of_ne_nil (Nat.toDigits_ne_nil (n := n) (b := 10))
  have hall : ∀ d ∈ c :: cs, d.isDigit = true := by
    intro d hd
    exact Nat.isDigit_of_mem_toDigits (by decide) (Nat.le_refl 10) (hdigits ▸ hd)
  have hrest := feed_integer [c] fun d hd => hall d (List.mem_cons_of_mem _ hd)
  exact ⟨c, cs, hdigits, start_of_isDigit (hall c List.mem_cons_self), hdigits ▸ hrest⟩

theorem value_toDigits (n : Nat) : value (Nat.toDigits 10 n) = n :=
  Nat.ofDigitChars_ten_toDigits

theorem tokens?_nat (n : Nat) : Sql.tokens? (toString n) = some [.integer n] := by
  obtain ⟨c, cs, hdigits, hfirst, hrest⟩ := exists_toDigits n
  have hfeed : feed .between (toString n).toList = ([], .integer (Nat.toDigits 10 n)) := by
    rw [Nat.toString_eq_repr, Nat.toList_repr, hdigits, feed, step_between, hfirst, hrest, hdigits]
    rfl
  rw [tokens?_of_feed hfeed rfl, value_toDigits, List.nil_append]

theorem tokens?_parameter (n : Nat) : Sql.tokens? ("$" ++ toString n) = some [.parameter n] := by
  have hall : ∀ c ∈ Nat.toDigits 10 n, c.isDigit = true := by
    intro c hc
    exact Nat.isDigit_of_mem_toDigits (by decide) (Nat.le_refl 10) hc
  have hdigits := feed_parameter [] hall
  have hstart : start '$' = ([], .parameter []) := rfl
  have hfeed : feed .between ("$" ++ toString n).toList =
      ([], .parameter (Nat.toDigits 10 n)) := by
    rw [String.toList_append, Nat.toString_eq_repr, Nat.toList_repr,
      show "$".toList = ['$'] from rfl, List.singleton_append, feed, step_between, hstart, hdigits]
    rfl
  have hfinish : (Mode.parameter (Nat.toDigits 10 n)).finish? = some [.parameter n] := by
    simp [Mode.finish?, Nat.toDigits_ne_nil, value_toDigits]
  rw [tokens?_of_feed hfeed hfinish, List.nil_append]

/-- A whole number as SQL reads it: a sign is an operator. -/
def ofInt (n : Int) : List Token :=
  if n < 0 then [.operator "-", .integer n.natAbs] else [.integer n.natAbs]

theorem tokens?_int (n : Int) : Sql.tokens? (toString n) = some (ofInt n) := by
  cases n with
  | ofNat n => exact tokens?_nat n
  | negSucc n =>
    obtain ⟨c, cs, hdigits, hfirst, hrest⟩ := exists_toDigits (n + 1)
    have hmem : c ∈ Nat.toDigits 10 (n + 1) := hdigits ▸ List.mem_cons_self
    have hc := Nat.isDigit_of_mem_toDigits (by decide) (Nat.le_refl 10) hmem
    have hsign : start '-' = ([], .operator ['-']) := rfl
    have htext : (toString (Int.negSucc n)).toList = '-' :: Nat.toDigits 10 (n + 1) := by
      have hrepr : toString (Int.negSucc n) = "-" ++ (n + 1).repr := rfl
      rw [hrepr, String.toList_append, Nat.toList_repr]
      rfl
    have hfeed : feed .between (toString (Int.negSucc n)).toList =
        ([.operator "-"], .integer (Nat.toDigits 10 (n + 1))) := by
      rw [htext, hdigits, feed, step_between, hsign, feed, step_sign_of_isDigit hc, hrest,
        hdigits]
      rfl
    rw [tokens?_of_feed hfeed rfl, value_toDigits, ofInt, if_pos (Int.negSucc_lt_zero n)]
    rfl

end Token

end HstoreKit.Sql
