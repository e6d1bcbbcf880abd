import HstoreKit.Proofs.Sql.Token

/-!
# Tokens with their text

The machine of `Token.step` run once more, now keeping for every token the characters it is read
from and the space before it. The tokens are the same (`exists_readFrom`) and no character is lost
(`State.chars_feed`).

* `Lexeme.text`: the text from one token to another;
* `Lexes`: a text whose last character belongs to a token;
* `Lexes.append`, `Lexes.behind`: texts behind one another;
* `exists_lexes`, `Lexes.text_eq`: a text that is read as tokens is the text of these tokens.
-/

namespace HstoreKit.Sql

open Token

/-- A token, the characters it is read from and the space before it. -/
structure Lexeme where
  space : List Char
  token : Token
  source : List Char
  deriving DecidableEq, Repr

namespace Lexeme

def chars (l : Lexeme) : List Char :=
  l.space ++ l.source

/-- The text of tokens that follow one another, without the space before the first. -/
def text (ls : List Lexeme) : String :=
  String.ofList ((ls.flatMap chars).dropWhile isSpace)

/-- The token that is open, its characters so far and the space before it. -/
structure State where
  mode : Mode
  space : List Char
  source : List Char

/-- No token is open behind that space. -/
def State.behind (space : List Char) : State :=
  ⟨.between, space, []⟩

/-- What has been read since the last token. -/
def State.pending (s : State) : List Char :=
  s.space ++ s.source

/-- The open token, if it ends before the character. -/
def endsBefore? (m : Mode) (c : Char) : Option Token :=
  match m.finish? with
  -- the token may end here; it does where the machine goes on as behind a finished token
  | some [t] => if Token.step m c = endWith t c then some t else none
  | _ => none

/-- A character that ends no token before it: it completes one, is space, or is a part of the one
that is open behind it. -/
def State.take (s : State) (c : Char) : List Lexeme × State :=
  match Token.step s.mode c with
  | (t :: _, m) => ([⟨s.space, t, s.source ++ [c]⟩], ⟨m, [], []⟩)
  | ([], .between) => ([], .behind (s.pending ++ [c]))
  | ([], m) => ([], ⟨m, s.space, s.source ++ [c]⟩)

def State.step (s : State) (c : Char) : List Lexeme × State :=
  match endsBefore? s.mode c with
  | some t => (⟨s.space, t, s.source⟩ :: ((State.behind []).take c).1, ((State.behind []).take c).2)
  | none => s.take c

def State.feed : State → List Char → List Lexeme × State
  | s, [] => ([], s)
  | s, c :: cs => ((s.step c).1 ++ ((s.step c).2.feed cs).1, ((s.step c).2.feed cs).2)

/-- The token that is open at the end of a text, if it may end there. -/
def State.finish? (s : State) : Option (List Lexeme) :=
  s.mode.finish?.map fun ts => ts.map fun t => ⟨s.space, t, s.source⟩

/-- The lexemes of a text behind some space. -/
def readFrom (space cs : List Char) : Option (List Lexeme) :=
  ((State.behind space).feed cs).2.finish?.map (((State.behind space).feed cs).1 ++ ·)

end Lexeme

open Lexeme

/-- The tokens of a text with their characters. -/
def lexemes? (sql : String) : Option (List Lexeme) :=
  readFrom [] sql.toList

namespace Lexeme

/-! ## The same tokens -/

/-- A token is open except between tokens, and it is one. -/
theorem finish?_cases {m : Mode} {ts : List Token} (h : m.finish? = some ts) :
    m = .between ∧ ts = [] ∨ m ≠ .between ∧ ∃ t, ts = [t] := by
  cases m with
  | between =>
    obtain rfl := Option.some.inj h
    exact .inl ⟨rfl, rfl⟩
  | quoted | refused => cases h
  | parameter s =>
    rw [Mode.finish?] at h
    split at h
    · cases h
    · obtain rfl := Option.some.inj h
      refine .inr ⟨?_, _, rfl⟩
      intro hm
      cases hm
  | closing | word | integer | operator | colon =>
    obtain rfl := Option.some.inj h
    refine .inr ⟨?_, _, rfl⟩
    intro hm
    cases hm

theorem step_of_endsBefore? {m : Mode} {c : Char} {t : Token} (h : endsBefore? m c = some t) :
    Token.step m c = endWith t c := by
  unfold endsBefore? at h
  split at h
  · split at h
    · rename_i hstep
      obtain rfl := Option.some.inj h
      exact hstep
    · cases h
  · cases h

theorem endsBefore?_eq_some {m : Mode} {c : Char} {t : Token} (hm : m.finish? = some [t])
    (hstep : Token.step m c = endWith t c) : endsBefore? m c = some t := by
  simp only [endsBefore?, hm, hstep, if_true]

theorem length_start_le (c : Char) : (start c).1.length ≤ 1 := by
  unfold start
  repeat' split
  all_goals simp

/-- A character that ends no token before it gives one token at most. -/
theorem length_step_le {m : Mode} {c : Char} (h : endsBefore? m c = none) :
    (Token.step m c).1.length ≤ 1 := by
  have hends {t : Token} (hm : m.finish? = some [t]) : Token.step m c ≠ endWith t c := by
    intro hstep
    rw [endsBefore?_eq_some hm hstep] at h
    cases h
  cases m with
  | between => exact length_start_le c
  | quoted q s =>
    rw [Token.step]
    split <;> exact Nat.zero_le 1
  | closing q s =>
    by_cases hc : c = q.char
    · simp [Token.step, hc]
    · exact absurd (if_neg hc) (hends rfl)
  | word s =>
    by_cases hc : isWordPart c = true
    · simp [Token.step, hc]
    · by_cases hq : c = '\''
      · rw [Token.step, if_neg hc, if_pos hq]
        exact Nat.zero_le 1
      · exact absurd ((if_neg hc).trans (if_neg hq)) (hends rfl)
  | integer s =>
    by_cases hc : c.isDigit = true
    · simp [Token.step, hc]
    · by_cases hq : (isWordPart c || c = '.') = true
      · simp [Token.step, hc, hq]
      · exact absurd ((if_neg hc).trans (if_neg hq)) (hends rfl)
  | parameter s =>
    by_cases hc : c.isDigit = true
    · simp [Token.step, hc]
    · by_cases hq : (s.isEmpty || isWordPart c) = true
      · simp [Token.step, hc, hq]
      · have hs : ¬ s.isEmpty = true := fun hs => hq (by rw [hs, Bool.true_or])
        exact absurd ((if_neg hc).trans (if_neg hq)) (hends (if_neg hs))
  | operator s =>
    by_cases hc : opensComment s c = true
    · simp [Token.step, hc]
    · by_cases hq : isOperatorPart c = true
      · simp [Token.step, hc, hq]
      · exact absurd ((if_neg hc).trans (if_neg hq)) (hends rfl)
  | colon =>
    by_cases hc : c = ':'
    · simp [Token.step, hc]
    · exact absurd (if_neg hc) (hends rfl)
  | refused => exact Nat.zero_le 1

theorem State.take_tokens {s : State} {c : Char} (h : (Token.step s.mode c).1.length ≤ 1) :
    (s.take c).1.map token = (Token.step s.mode c).1 ∧
      (s.take c).2.mode = (Token.step s.mode c).2 := by
  unfold take
  split
  · rename_i t ts m hstep
    rw [hstep] at h ⊢
    obtain rfl : ts = [] := List.eq_nil_of_length_eq_zero (by simpa using h)
    exact ⟨rfl, rfl⟩
  · rename_i hstep
    rw [hstep]
    exact ⟨rfl, rfl⟩
  · rename_i hstep
    rw [hstep]
    exact ⟨rfl, rfl⟩

theorem State.step_tokens (s : State) (c : Char) :
    (s.step c).1.map token = (Token.step s.mode c).1 ∧
      (s.step c).2.mode = (Token.step s.mode c).2 := by
  unfold step
  split
  · rename_i t hends
    obtain ⟨htokens, hmode⟩ := take_tokens (s := .behind []) (length_start_le c)
    rw [step_of_endsBefore? hends, List.map_cons, htokens, hmode]
    exact ⟨rfl, rfl⟩
  · rename_i hends
    exact take_tokens (length_step_le hends)

theorem State.feed_tokens (s : State) (cs : List Char) :
    (s.feed cs).1.map token = (Token.feed s.mode cs).1 ∧
      (s.feed cs).2.mode = (Token.feed s.mode cs).2 := by
  induction cs generalizing s with
  | nil => exact ⟨rfl, rfl⟩
  | cons c cs ih =>
    obtain ⟨htokens, hmode⟩ := s.step_tokens c
    obtain ⟨hrest, hend⟩ := ih (s.step c).2
    rw [feed, Token.feed, List.map_append, htokens, hrest, hend, hmode]
    exact ⟨rfl, rfl⟩

/-! ## All characters -/

theorem State.chars_take (s : State) (c : Char) :
    (s.take c).1.flatMap chars ++ (s.take c).2.pending = s.pending ++ [c] := by
  unfold take
  split
  · simp [chars, pending]
  · simp [pending, behind]
  · simp [pending]

theorem State.chars_step (s : State) (c : Char) :
    (s.step c).1.flatMap chars ++ (s.step c).2.pending = s.pending ++ [c] := by
  unfold step
  split
  · have htake := (State.behind []).chars_take c
    rw [List.flatMap_cons, List.append_assoc, htake]
    rfl
  · exact s.chars_take c

/-- No character is lost. -/
theorem State.chars_feed (s : State) (cs : List Char) :
    (s.feed cs).1.flatMap chars ++ (s.feed cs).2.pending = s.pending ++ cs := by
  induction cs generalizing s with
  | nil => exact (List.append_nil _).symm
  | cons c cs ih =>
    rw [feed, List.flatMap_append, List.append_assoc, ih, ← List.append_assoc, s.chars_step,
      List.append_assoc]
    rfl

theorem State.feed_append (s : State) (cs ds : List Char) : s.feed (cs ++ ds) =
    ((s.feed cs).1 ++ ((s.feed cs).2.feed ds).1, ((s.feed cs).2.feed ds).2) := by
  induction cs generalizing s with
  | nil => rfl
  | cons c cs ih => simp [feed, ih]

theorem isSpace_of_step {m : Mode} {c : Char} (h : Token.step m c = ([], .between)) :
    isSpace c = true := by
  cases m with
  | between =>
    by_cases hc : isSpace c = true
    · exact hc
    · rw [step_between, start, if_neg hc] at h
      repeat' split at h
      all_goals cases h
  | quoted | closing | word | integer | parameter | operator | colon | refused =>
    have hends (t : Token) : endWith t c ≠ ([], .between) := by
      intro he
      exact List.cons_ne_nil _ _ (congrArg Prod.fst he)
    simp only [Token.step] at h
    repeat' split at h
    all_goals first | exact absurd h (hends _) | cases h

theorem State.pending_take {s : State} {c : Char} (hc : isSpace c = false)
    (h : (s.take c).2.mode = .between) : (s.take c).2.pending = [] := by
  unfold take at h ⊢
  cases hstep : Token.step s.mode c with
  | mk ts m =>
    rw [hstep] at h
    cases ts with
    | cons t ts => rfl
    | nil =>
      cases m with
      | between =>
        rw [isSpace_of_step hstep] at hc
        cases hc
      | quoted | closing | word | integer | parameter | operator | colon | refused => cases h

/-- Behind a character that is no space nothing is pending where no token is open. -/
theorem State.pending_step {s : State} {c : Char} (hc : isSpace c = false)
    (h : (s.step c).2.mode = .between) : (s.step c).2.pending = [] := by
  unfold step at h ⊢
  split at h
  · exact pending_take hc h
  · exact pending_take hc h

/-! ## Texts -/

/-- A text behind some space, with its lexemes. They hold all of it, so it ends with a token. -/
structure Lexes (space : List Char) (s : String) (ls : List Lexeme) : Prop where
  read : readFrom space s.toList = some ls
  whole : ls.flatMap chars = space ++ s.toList

/-- A text that ends with a token: the lexemes that are complete behind it, and the open one. -/
theorem Lexes.exists_feed {space : List Char} {s : String} {ls : List Lexeme}
    (h : Lexes space s ls) : ∃ done last state, (State.behind space).feed s.toList = (done, state) ∧
      state.finish? = some last ∧ ls = done ++ last ∧ (last = [] → state.pending = []) := by
  obtain ⟨last, hlast, hls⟩ := Option.map_eq_some_iff.1 h.read
  refine ⟨_, last, _, rfl, hlast, hls.symm, ?_⟩
  rintro rfl
  have hchars := (State.behind space).chars_feed s.toList
  have hpending : (State.behind space).pending = space := List.append_nil space
  have hwhole := h.whole
  rw [← hls, List.append_nil] at hwhole
  rw [hwhole, hpending] at hchars
  exact List.append_right_eq_self.1 hchars

/-- A break ends what is open and begins anew. -/
theorem State.step_of_break {s : State} {ls : List Lexeme} {c : Char} (hs : s.finish? = some ls)
    (hpending : ls = [] → s.pending = []) (hc : isBreak c = true) :
    s.step c = (ls ++ ((State.behind []).step c).1, ((State.behind []).step c).2) := by
  have hfresh : (State.behind []).step c = (State.behind []).take c := rfl
  obtain ⟨ts, hm, rfl⟩ := Option.map_eq_some_iff.1 hs
  rcases finish?_cases hm with ⟨hbetween, rfl⟩ | ⟨-, t, rfl⟩
  · obtain ⟨mode, space, source⟩ := s
    obtain ⟨rfl, rfl⟩ : space = [] ∧ source = [] := List.append_eq_nil_iff.1 (hpending rfl)
    obtain rfl : mode = .between := hbetween
    rfl
  · have hstep : Token.step s.mode c = endWith t c := Token.step_of_break hm hc
    rw [hfresh, step, endsBefore?_eq_some hm hstep]
    rfl

/-- A text behind one that ends with a token, when it begins with a break. -/
theorem Lexes.append {space : List Char} {s t : String} {ls ms : List Lexeme}
    (hs : Lexes space s ls) (hb : Breaks t) (ht : Lexes [] t ms) :
    Lexes space (s ++ t) (ls ++ ms) := by
  obtain ⟨done, last, state, hfeed, hlast, rfl, hpending⟩ := hs.exists_feed
  obtain ⟨c, cs, hlist, hc⟩ := hb
  constructor
  · have hread := ht.read
    rw [readFrom, hlist] at hread
    rw [readFrom, String.toList_append, hlist, State.feed_append, hfeed, State.feed,
      State.step_of_break hlast hpending hc]
    rw [State.feed] at hread
    obtain ⟨ends, hends, rfl⟩ := Option.map_eq_some_iff.1 hread
    rw [hends, Option.map_some]
    simp only [List.append_assoc]
  · rw [List.flatMap_append, hs.whole, ht.whole, String.toList_append]
    simp only [List.nil_append, List.append_assoc]

/-- A text behind one that leaves no token open. -/
theorem Lexes.behind {space space' : List Char} {opening s : String} {ls ms : List Lexeme}
    (ho : (State.behind space).feed opening.toList = (ls, .behind space'))
    (hs : Lexes space' s ms) :
    Lexes space (opening ++ s) (ls ++ ms) := by
  constructor
  · obtain ⟨ends, hends, rfl⟩ := Option.map_eq_some_iff.1 hs.read
    rw [readFrom, String.toList_append, State.feed_append, ho, hends, Option.map_some,
      List.append_assoc]
  · have hopening := (State.behind space).chars_feed opening.toList
    rw [ho] at hopening
    have hpending (g : List Char) : (State.behind g).pending = g := List.append_nil g
    rw [hpending, hpending] at hopening
    rw [List.flatMap_append, hs.whole, String.toList_append, ← List.append_assoc, hopening,
      List.append_assoc]

/-! ## The text of tokens -/

/-- A text that does not begin with space. -/
def BeginsTight (s : String) : Prop :=
  ∃ c cs, s.toList = c :: cs ∧ isSpace c = false

/-- A text that does not end with space. -/
def EndsTight (s : String) : Prop :=
  ∃ cs c, s.toList = cs ++ [c] ∧ isSpace c = false

theorem BeginsTight.append {s : String} (h : BeginsTight s) (t : String) :
    BeginsTight (s ++ t) := by
  obtain ⟨c, cs, hs, hc⟩ := h
  exact ⟨c, cs ++ t.toList, by rw [String.toList_append, hs]; rfl, hc⟩

theorem EndsTight.append {t : String} (h : EndsTight t) (s : String) : EndsTight (s ++ t) := by
  obtain ⟨cs, c, ht, hc⟩ := h
  exact ⟨s.toList ++ cs, c, by rw [String.toList_append, ht, List.append_assoc], hc⟩

/-- The lexemes of a text are there when its tokens are. -/
theorem exists_readFrom (space : List Char) {s : String} {ts : List Token}
    (hs : tokens? s = some ts) : ∃ ls, readFrom space s.toList = some ls ∧ ls.map token = ts := by
  obtain ⟨ends, hends, rfl⟩ := Option.map_eq_some_iff.1 hs
  have hfeed : ((State.behind space).feed s.toList).1.map token = (Token.feed .between s.toList).1 ∧
      ((State.behind space).feed s.toList).2.mode = (Token.feed .between s.toList).2 :=
    (State.behind space).feed_tokens s.toList
  rw [← hfeed.2] at hends
  refine ⟨_, by rw [readFrom, State.finish?, hends]; rfl, ?_⟩
  rw [List.map_append, hfeed.1, List.map_map]
  exact congrArg _ (List.map_id ends)

/-- A text that does not end with space ends with a token. -/
theorem exists_lexes (space : List Char) {s : String} {ts : List Token}
    (hs : tokens? s = some ts) (he : EndsTight s) :
    ∃ ls, Lexes space s ls ∧ ls.map token = ts := by
  obtain ⟨ls, hread, htokens⟩ := exists_readFrom space hs
  refine ⟨ls, ⟨hread, ?_⟩, htokens⟩
  obtain ⟨last, hlast, rfl⟩ := Option.map_eq_some_iff.1 hread
  obtain ⟨ends, hends, rfl⟩ := Option.map_eq_some_iff.1 hlast
  have hchars := (State.behind space).chars_feed s.toList
  have hpending : (State.behind space).pending = space := List.append_nil space
  rw [hpending] at hchars
  rw [List.flatMap_append, ← hchars]
  congr 1
  -- space is pending at the end only where the last character is space
  rcases finish?_cases hends with ⟨hbetween, rfl⟩ | ⟨-, t, rfl⟩
  · obtain ⟨cs, c, hlist, hc⟩ := he
    rw [hlist, State.feed_append] at hbetween ⊢
    exact (State.pending_step hc hbetween).symm
  · exact List.append_nil _

theorem Lexes.text_eq {space : List Char} {s : String} {ls : List Lexeme} (h : Lexes space s ls)
    (hspace : ∀ c ∈ space, isSpace c = true) (hs : BeginsTight s) : text ls = s := by
  obtain ⟨c, cs, hlist, hc⟩ := hs
  rw [text, h.whole, List.dropWhile_append_of_pos hspace, hlist,
    List.dropWhile_cons_of_neg (by rw [hc]; exact Bool.false_ne_true), ← hlist,
    String.ofList_toList]

end Lexeme

end HstoreKit.Sql
