import HstoreKit.Proofs.Sql.Lexeme
import HstoreKit.Sql.Filter

/-!
# Boolean conditions of SQL

How SQL reads a text of conditions, whoever wrote it: NOT binds tighter than AND, AND tighter than
OR, and parentheses group. A condition is whatever stands between them, with its own brackets and
words; it is known by its text alone. Values are SQL's three.

* `Truth`, `Formula.value`: three-valued logic and formulas over texts of conditions;
* `Reads`, `ReadsClause`: the grammar;
* `scan`: how far brackets are open, and that no connective stands outside them;
* `Reads.unique`: a text is read in one way.
-/

namespace HstoreKit.Sql

/-! ## Three values -/

inductive Truth where
  | true
  | false
  | unknown
  deriving DecidableEq, Repr

namespace Truth

def not : Truth → Truth
  | true => false
  | false => true
  | unknown => unknown

def and : Truth → Truth → Truth
  | false, _ => false
  | _, false => false
  | true, true => true
  | _, _ => unknown

def or : Truth → Truth → Truth
  | true, _ => true
  | _, true => true
  | false, false => false
  | _, _ => unknown

/-- The two values joined. -/
def join : Connective → Truth → Truth → Truth
  | .and => and
  | .or => or

/-- The value of nothing joined. -/
def unit : Connective → Truth
  | .and => true
  | .or => false

/-- All values joined: their conjunction or their disjunction. -/
def joinAll (connective : Connective) (ts : List Truth) : Truth :=
  ts.foldr (join connective) (unit connective)

theorem join_assoc (connective : Connective) (a b c : Truth) :
    join connective (join connective a b) c = join connective a (join connective b c) := by
  cases connective <;> cases a <;> cases b <;> cases c <;> rfl

theorem join_unit (connective : Connective) (a : Truth) :
    join connective a (unit connective) = a := by
  cases connective <;> cases a <;> rfl

end Truth

/-! ## Formulas -/

/-- What a text of conditions says. -/
inductive Formula where
  | constant (t : Truth)
  | condition (text : String)
  | not (e : Formula)
  | join (connective : Connective) (e f : Formula)

/-- The value where each condition has the value of its text. -/
def Formula.value (σ : String → Truth) : Formula → Truth
  | constant t => t
  | condition text => σ text
  | not e => (e.value σ).not
  | join connective e f => .join connective (e.value σ) (f.value σ)

/-! ## Grammar -/

/-- A keyword in any letter case. -/
def Token.isKeyword (keyword : String) : Token → Bool
  | .word w => upper w = keyword
  | _ => false

def Connective.keyword : Connective → String
  | .and => "AND"
  | .or => "OR"

def Token.opens (t : Token) : Bool :=
  t = .punctuation "(" || t = .punctuation "["

def Token.closes (t : Token) : Bool :=
  t = .punctuation ")" || t = .punctuation "]"

/-- What a text may be read as: a factor, or operands of one connective. -/
inductive Level where
  | factor
  | joined (connective : Connective)
  deriving DecidableEq, Repr

/-- AND joins factors, and OR joins what AND has joined. -/
def Connective.operand : Connective → Level
  | .and => .factor
  | .or => .joined .and

/-- The connectives that may not stand outside brackets. -/
def Level.stops : Level → Token → Bool
  | .factor, t => t.isKeyword "AND" || t.isKeyword "OR"
  | .joined .and, t => t.isKeyword "OR"
  | .joined .or, _ => false

/-- How many brackets are open behind a token. None closes that has not been opened, and what stops
does not stand outside them. -/
def depthAfter (stops : Token → Bool) (d : Nat) (t : Token) : Option Nat :=
  if t.opens then some (d + 1)
  else if t.closes then if d = 0 then none else some (d - 1)
  else if d = 0 && stops t then none
  else some d

/-- How many brackets are open behind tokens. -/
def scan (stops : Token → Bool) (d : Nat) (ts : List Token) : Option Nat :=
  ts.foldlM (depthAfter stops) d

/-- The tests that always and never hold. -/
def constant? : List Token → Option Truth
  | [.integer 1, .operator "=", .integer 1] => some .true
  | [.integer 1, .operator "=", .integer 0] => some .false
  | _ => none

/-- A token that begins neither a group nor a negation. -/
def Token.Begins (t : Token) : Prop :=
  t ≠ .punctuation "(" ∧ t.isKeyword "NOT" = false

/-- A condition of its own: every bracket is closed, no connective stands outside brackets, and it
begins with neither NOT nor a parenthesis. Other words, the NOT of IS NOT NULL among them, belong to
it. -/
structure IsCondition (ts : List Token) : Prop where
  begins : ∃ t rest, ts = t :: rest ∧ t.Begins
  flat : scan Level.factor.stops 0 ts = some 0
  varies : constant? ts = none

/-- How a text is read, given by its lexemes. -/
inductive Reads : Level → List Lexeme → Formula → Prop
  | constant {ls : List Lexeme} {t : Truth} (h : constant? (ls.map Lexeme.token) = some t) :
      Reads .factor ls (.constant t)
  | condition {ls : List Lexeme} (h : IsCondition (ls.map Lexeme.token)) :
      Reads .factor ls (.condition (Lexeme.text ls))
  | group {l r : Lexeme} {ls : List Lexeme} {e : Formula} (opening : l.token = .punctuation "(")
      (inside : Reads (.joined .or) ls e) (closing : r.token = .punctuation ")") :
      Reads .factor (l :: ls ++ [r]) e
  | not {l : Lexeme} {ls : List Lexeme} {e : Formula} (keyword : l.token.isKeyword "NOT" = true)
      (operand : Reads .factor ls e) : Reads .factor (l :: ls) (.not e)
  | single {connective : Connective} {ls : List Lexeme} {e : Formula}
      (operand : Reads connective.operand ls e) : Reads (.joined connective) ls e
  | join {connective : Connective} {ls ms : List Lexeme} {l : Lexeme} {e f : Formula}
      (left : Reads (.joined connective) ls e)
      (keyword : l.token.isKeyword connective.keyword = true)
      (right : Reads connective.operand ms f) :
      Reads (.joined connective) (ls ++ l :: ms) (.join connective e f)

/-- How a clause is read. No clause is no condition. -/
inductive ReadsClause : List Lexeme → Formula → Prop
  | none : ReadsClause [] (.constant .true)
  | filter {l : Lexeme} {ls : List Lexeme} {e : Formula} (keyword : l.token.isKeyword "WHERE" = true)
      (conditions : Reads (.joined .or) ls e) : ReadsClause (l :: ls) e

/-! ## Brackets -/

section
variable {stops stops' : Token → Bool} {d k : Nat} {t : Token} {ts us : List Token}

theorem scan_cons : scan stops d (t :: ts) = (depthAfter stops d t).bind (scan stops · ts) := rfl

theorem scan_append : scan stops d (ts ++ us) = (scan stops d ts).bind (scan stops · us) :=
  List.foldlM_append

/-- What a token can be: an opening bracket, a closing one, or neither. -/
theorem depthAfter_eq_some_iff : depthAfter stops d t = some k ↔
    t.opens = true ∧ k = d + 1 ∨ t.opens = false ∧ t.closes = true ∧ d = k + 1 ∨
      t.opens = false ∧ t.closes = false ∧ (d = 0 → stops t = false) ∧ k = d := by
  unfold depthAfter
  cases t.opens with
  | true => grind
  | false => cases t.closes <;> grind

theorem depthAfter_weaken (hw : ∀ t, stops' t = true → stops t = true)
    (h : depthAfter stops d t = some k) : depthAfter stops' d t = some k := by
  rw [depthAfter_eq_some_iff] at h ⊢
  rcases h with h | h | ⟨ho, hc, hstops, rfl⟩
  · exact .inl h
  · exact .inr (.inl h)
  · refine .inr (.inr ⟨ho, hc, ?_, rfl⟩)
    intro hd
    have hpasses := hstops hd
    cases hstop' : stops' t with
    | false => rfl
    | true => rw [hw t hstop'] at hpasses; cases hpasses

/-- Fewer connectives stop less. -/
theorem scan_weaken (hw : ∀ t, stops' t = true → stops t = true) (h : scan stops d ts = some k) :
    scan stops' d ts = some k := by
  induction ts generalizing d with
  | nil => exact h
  | cons t ts ih =>
    rw [scan_cons] at h ⊢
    obtain ⟨j, hj, hrest⟩ := Option.bind_eq_some_iff.1 h
    rw [depthAfter_weaken hw hj]
    exact ih hrest

theorem depthAfter_succ (h : depthAfter stops d t = some k) :
    depthAfter stops' (d + 1) t = some (k + 1) := by
  rw [depthAfter_eq_some_iff] at h ⊢
  rcases h with ⟨ho, rfl⟩ | ⟨ho, hc, rfl⟩ | ⟨ho, hc, -, rfl⟩
  · exact .inl ⟨ho, rfl⟩
  · exact .inr (.inl ⟨ho, hc, rfl⟩)
  · exact .inr (.inr ⟨ho, hc, nofun, rfl⟩)

/-- Inside a further bracket nothing stops. -/
theorem scan_succ (h : scan stops d ts = some k) : scan stops' (d + 1) ts = some (k + 1) := by
  induction ts generalizing d with
  | nil =>
    obtain rfl := Option.some.inj h
    rfl
  | cons t ts ih =>
    rw [scan_cons] at h ⊢
    obtain ⟨j, hj, hrest⟩ := Option.bind_eq_some_iff.1 h
    rw [depthAfter_succ hj]
    exact ih hrest

end

/-- A keyword is no bracket, and passes where it does not stop. -/
theorem depthAfter_of_isKeyword {stops : Token → Bool} {keyword : String} {t : Token}
    (h : t.isKeyword keyword = true) :
    depthAfter stops 0 t = if stops t = true then none else some 0 := by
  cases t with
  | word w => simp [depthAfter, Token.opens, Token.closes]
  | literal | name | integer | parameter | operator | punctuation => cases h

/-! ## Connectives outside brackets -/

theorem isKeyword_inj {keyword keyword' : String} {t : Token} (h : t.isKeyword keyword = true)
    (h' : t.isKeyword keyword' = true) : keyword = keyword' := by
  cases t with
  | word w => exact (of_decide_eq_true h).symm.trans (of_decide_eq_true h')
  | literal | name | integer | parameter | operator | punctuation => cases h

theorem Connective.stops_operand (connective : Connective) (t : Token) :
    connective.operand.stops t = true ↔
      t.isKeyword connective.keyword = true ∨ (Level.joined connective).stops t = true := by
  cases connective with
  | and => exact Bool.or_eq_true_iff
  | or => exact ⟨.inl, fun h => h.resolve_right nofun⟩

/-- A connective does not stop what it joins further. -/
theorem Connective.stops_joined {connective : Connective} {t : Token}
    (h : t.isKeyword connective.keyword = true) : (Level.joined connective).stops t = false := by
  cases connective with
  | and =>
    cases hor : t.isKeyword "OR" with
    | false => exact hor
    | true => exact absurd (isKeyword_inj h hor) (by decide)
  | or => rfl

/-- No connective of a level stands outside brackets, and all brackets are closed. -/
def Flat (level : Level) (ls : List Lexeme) : Prop :=
  scan level.stops 0 (ls.map Lexeme.token) = some 0

theorem Flat.of_operand {connective : Connective} {ls : List Lexeme}
    (h : Flat connective.operand ls) : Flat (.joined connective) ls :=
  scan_weaken (fun t ht => (connective.stops_operand t).2 (.inr ht)) h

/-- Behind a connective of the level the rest is scanned as a text of its own. -/
theorem scan_joined {connective : Connective} {ls : List Lexeme} {l : Lexeme}
    (h : Flat (.joined connective) ls) (hl : l.token.isKeyword connective.keyword = true)
    (ms : List Lexeme) : Flat (.joined connective) (ls ++ l :: ms) ↔
      Flat (.joined connective) ms := by
  have hls : scan (Level.joined connective).stops 0 (ls.map Lexeme.token) = some 0 := h
  rw [Flat, Flat, List.map_append, scan_append, hls, List.map_cons, Option.bind_some, scan_cons,
    depthAfter_of_isKeyword hl, Connective.stops_joined hl]
  rfl

theorem Reads.flat {level : Level} {ls : List Lexeme} {e : Formula} (h : Reads level ls e) :
    Flat level ls := by
  induction h with
  | @constant ls t h =>
    unfold constant? at h
    split at h
    · rename_i htokens
      rw [Flat, htokens]
      rfl
    · rename_i htokens
      rw [Flat, htokens]
      rfl
    · cases h
  | condition h => exact h.flat
  | @group l r ls e opening _ closing ih =>
    have hinside : scan Level.factor.stops 1 (ls.map Lexeme.token) = some 1 := scan_succ ih
    have hopen : depthAfter Level.factor.stops 0 (.punctuation "(") = some 1 := rfl
    have hclose : scan Level.factor.stops 1 [.punctuation ")"] = some 0 := rfl
    rw [Flat, List.map_append, List.map_cons, scan_append, scan_cons, opening, hopen,
      Option.bind_some, hinside, Option.bind_some, List.map_singleton, closing, hclose]
  | @not l ls e keyword _ ih =>
    have hstops : Level.factor.stops l.token = false := by
      cases hs : Level.factor.stops l.token with
      | false => rfl
      | true =>
        rcases Bool.or_eq_true_iff.1 hs with hand | hor
        · exact absurd (isKeyword_inj keyword hand) (by decide)
        · exact absurd (isKeyword_inj keyword hor) (by decide)
    rw [Flat, List.map_cons, scan_cons, depthAfter_of_isKeyword keyword, hstops]
    exact ih
  | single _ ih => exact ih.of_operand
  | join _ keyword _ ihleft ihright => exact (scan_joined ihleft keyword _).2 ihright.of_operand

/-- No operand of a connective has that connective outside brackets. -/
theorem not_flat_operand {connective : Connective} {ls : List Lexeme} {l : Lexeme}
    (h : Flat (.joined connective) ls) (hl : l.token.isKeyword connective.keyword = true)
    (ms : List Lexeme) : ¬ Flat connective.operand (ls ++ l :: ms) := by
  intro hflat
  rw [Flat, List.map_append, scan_append] at hflat
  obtain ⟨d, hd, hrest⟩ := Option.bind_eq_some_iff.1 hflat
  have hls : scan (Level.joined connective).stops 0 (ls.map Lexeme.token) = some d :=
    scan_weaken (fun t ht => (connective.stops_operand t).2 (.inr ht)) hd
  obtain rfl : 0 = d := Option.some.inj (Eq.trans (Eq.symm h) hls)
  have hstop : connective.operand.stops l.token = true :=
    (connective.stops_operand l.token).2 (.inl hl)
  rw [List.map_cons, scan_cons, depthAfter_of_isKeyword hl, if_pos hstop] at hrest
  cases hrest

/-- The last connective outside brackets stands at one place. -/
theorem split_unique {connective : Connective} {ls ls' ms ms' : List Lexeme} {l l' : Lexeme}
    (he : ls ++ l :: ms = ls' ++ l' :: ms') (hls : Flat (.joined connective) ls)
    (hl : l.token.isKeyword connective.keyword = true) (hms : Flat connective.operand ms)
    (hls' : Flat (.joined connective) ls')
    (hl' : l'.token.isKeyword connective.keyword = true) (hms' : Flat connective.operand ms') :
    ls = ls' ∧ ms = ms' := by
  -- were one left side longer, its connective would stand in the other's right operand
  have hend {as bs cs ds xs : List Lexeme} {x y : Lexeme} (has : Flat (.joined connective) as)
      (hx : x.token.isKeyword connective.keyword = true)
      (hy : y.token.isKeyword connective.keyword = true) (hbs : Flat connective.operand bs)
      (hcs : Flat (.joined connective) cs) (h : cs = as ++ xs) (h' : x :: bs = xs ++ y :: ds) :
      xs = [] := by
    cases xs with
    | nil => rfl
    | cons z zs =>
      obtain ⟨rfl, rfl⟩ := List.cons.inj h'
      rw [h, scan_joined has hx] at hcs
      exact absurd hbs (not_flat_operand hcs hy ds)
  rcases List.append_eq_append_iff.1 he with ⟨xs, h, h'⟩ | ⟨xs, h, h'⟩
  · obtain rfl := hend hls hl hl' hms hls' h h'
    exact ⟨by rw [h, List.append_nil], (List.cons.inj h').2⟩
  · obtain rfl := hend hls' hl' hl hms' hls h h'
    exact ⟨by rw [h, List.append_nil], (List.cons.inj h').2.symm⟩

/-! ## One reading -/

theorem begins_of_isCondition {t : Token} {ts : List Token} (h : IsCondition (t :: ts)) :
    t.Begins := by
  obtain ⟨u, rest, he, hu⟩ := h.begins
  obtain ⟨rfl, -⟩ := List.cons.inj he
  exact hu

theorem begins_of_constant? {t : Token} {ts : List Token} {v : Truth}
    (h : constant? (t :: ts) = some v) : t.Begins := by
  unfold constant? at h
  split at h
  · rename_i he
    obtain ⟨rfl, -⟩ := List.cons.inj he
    exact ⟨nofun, rfl⟩
  · rename_i he
    obtain ⟨rfl, -⟩ := List.cons.inj he
    exact ⟨nofun, rfl⟩
  · cases h

theorem not_begins_of_isKeyword {t : Token} (h : t.isKeyword "NOT" = true) : ¬ t.Begins := by
  intro hb
  rw [hb.2] at h
  cases h

theorem Reads.of_constant {ls : List Lexeme} {e : Formula} {v : Truth} (h : Reads .factor ls e)
    (hv : constant? (ls.map Lexeme.token) = some v) : e = .constant v := by
  generalize hlevel : Level.factor = level at h
  cases h with
  | constant hv' =>
    rw [hv] at hv'
    rw [Option.some.inj hv']
  | condition hc =>
    rw [hc.varies] at hv
    cases hv
  | group opening _ _ => exact absurd opening (begins_of_constant? hv).1
  | not keyword _ => exact absurd (begins_of_constant? hv) (not_begins_of_isKeyword keyword)
  | single | join => cases hlevel

theorem Reads.of_condition {ls : List Lexeme} {e : Formula} (h : Reads .factor ls e)
    (hc : IsCondition (ls.map Lexeme.token)) : e = .condition (Lexeme.text ls) := by
  generalize hlevel : Level.factor = level at h
  cases h with
  | constant hv =>
    rw [hc.varies] at hv
    cases hv
  | condition => rfl
  | group opening _ _ => exact absurd opening (begins_of_isCondition hc).1
  | not keyword _ => exact absurd (begins_of_isCondition hc) (not_begins_of_isKeyword keyword)
  | single | join => cases hlevel

theorem Reads.of_group {l r : Lexeme} {ls : List Lexeme} {e : Formula}
    (h : Reads .factor (l :: ls ++ [r]) e) (hl : l.token = .punctuation "(") :
    Reads (.joined .or) ls e := by
  generalize hlevel : Level.factor = level at h
  generalize hlist : l :: ls ++ [r] = all at h
  cases h with
  | constant hv =>
    rw [← hlist] at hv
    exact absurd hl (begins_of_constant? hv).1
  | condition hc =>
    rw [← hlist] at hc
    exact absurd hl (begins_of_isCondition hc).1
  | group _ inside _ =>
    obtain ⟨-, hrest⟩ := List.cons.inj hlist
    obtain ⟨rfl, -⟩ := List.append_inj' hrest rfl
    exact inside
  | not keyword _ =>
    obtain ⟨rfl, -⟩ := List.cons.inj hlist
    rw [hl] at keyword
    cases keyword
  | single | join => cases hlevel

theorem Reads.of_not {l : Lexeme} {ls : List Lexeme} {e : Formula} (h : Reads .factor (l :: ls) e)
    (hl : l.token.isKeyword "NOT" = true) : ∃ f, Reads .factor ls f ∧ e = .not f := by
  generalize hlevel : Level.factor = level at h
  generalize hlist : l :: ls = all at h
  cases h with
  | constant hv =>
    rw [← hlist] at hv
    exact absurd (begins_of_constant? hv) (not_begins_of_isKeyword hl)
  | condition hc =>
    rw [← hlist] at hc
    exact absurd (begins_of_isCondition hc) (not_begins_of_isKeyword hl)
  | group opening _ _ =>
    obtain ⟨rfl, -⟩ := List.cons.inj hlist
    rw [opening] at hl
    cases hl
  | not _ operand =>
    obtain ⟨-, rfl⟩ := List.cons.inj hlist
    exact ⟨_, operand, rfl⟩
  | single | join => cases hlevel

theorem Reads.joined_cases {connective : Connective} {all : List Lexeme} {e : Formula}
    (h : Reads (.joined connective) all e) : Reads connective.operand all e ∨
      ∃ ls l ms f g, all = ls ++ l :: ms ∧ Reads (.joined connective) ls f ∧
        l.token.isKeyword connective.keyword = true ∧ Reads connective.operand ms g ∧
        e = .join connective f g := by
  cases h with
  | single operand => exact .inl operand
  | join left keyword right => exact .inr ⟨_, _, _, _, _, rfl, left, keyword, right, rfl⟩

/-- **A text is read in one way.** -/
theorem Reads.unique {level : Level} {ls : List Lexeme} {e e' : Formula} (h : Reads level ls e)
    (h' : Reads level ls e') : e = e' := by
  induction h generalizing e' with
  | constant hv => exact (h'.of_constant hv).symm
  | condition hc => exact (h'.of_condition hc).symm
  | group opening _ _ ih => exact ih (h'.of_group opening)
  | not keyword _ ih =>
    obtain ⟨f, hf, rfl⟩ := h'.of_not keyword
    rw [ih hf]
  | single operand ih =>
    rcases h'.joined_cases with h' | ⟨ls, l, ms, f, g, rfl, left, keyword, -, -⟩
    · exact ih h'
    · exact absurd operand.flat (not_flat_operand left.flat keyword ms)
  | join left keyword right ihleft ihright =>
    rcases h'.joined_cases with h' | ⟨ls, l, ms, f, g, he, left', keyword', right', rfl⟩
    · exact absurd h'.flat (not_flat_operand left.flat keyword _)
    · obtain ⟨rfl, rfl⟩ :=
        split_unique he left.flat keyword right.flat left'.flat keyword' right'.flat
      rw [ihleft left', ihright right']

theorem ReadsClause.unique {ls : List Lexeme} {e e' : Formula} (h : ReadsClause ls e)
    (h' : ReadsClause ls e') : e = e' := by
  cases h with
  | none =>
    cases h'
    rfl
  | filter _ conditions =>
    cases h' with
    | filter _ conditions' => exact conditions.unique conditions'

end HstoreKit.Sql
