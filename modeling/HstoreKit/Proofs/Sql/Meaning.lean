import HstoreKit.Proofs.Sql.Boolean
import HstoreKit.Proofs.Sql.Statement

/-!
# What a filter clause says

A filter has a value wherever the texts of its leaves have one. The clause that is written for
filters, read by SQL's grammar, has the value of their conjunction.

* `Filter.value`, `Filter.values`: the values of filters;
* `Condition.isCondition`, `Predicate.isCondition`: the tokens of a leaf are one condition;
* `Means`, `IsFactor`: a text that is read with that value;
* `Filter.isFactor_render`: the text of a filter has its value;
* `filterClause_value`: so does the whole clause, and it is read in no other way.
-/

namespace HstoreKit.Sql

open Token Lexeme

/-! ## Values of filters -/

/-- A comparison without value. -/
def Condition.isVoid (c : Condition) : Bool :=
  c.value.isNone && c.operator ∉ [.eq, .ne, .isNull, .isNotNull]

/-- A leaf has the value of its text, where `n` is the number of the next parameter. A comparison
without value never holds. -/
def Leaf.value (σ : String → Truth) : Leaf → Nat → Truth
  | .condition c, n => if c.isVoid then .false else σ ((Leaf.condition c).text n)
  | .hstore p, n => σ ((Leaf.hstore p).text n)

namespace Filter

mutual

/-- The value of a filter: a group is the conjunction or the disjunction of its members. -/
def value (σ : String → Truth) : Filter → Nat → Truth
  | .condition c, n => (Leaf.condition c).value σ n
  | .group connective fs, n => .joinAll connective (values σ fs n)
  | .not f, n => (f.value σ n).not
  | .hstore p, n => (Leaf.hstore p).value σ n

/-- The values of filters one by one. -/
def values (σ : String → Truth) : List Filter → Nat → List Truth
  | [], _ => []
  | f :: fs, n => f.value σ n :: values σ fs (n + (boundValues f.leaves).length)

end

end Filter

/-! ## Leaves are conditions -/

section
variable {stops : Token → Bool} {d : Nat} {t : Token} {ts : List Token}

theorem scan_pass (ho : t.opens = false) (hc : t.closes = false) (hs : d = 0 → stops t = false) :
    scan stops d (t :: ts) = scan stops d ts := by
  have hd : depthAfter stops d t = some d :=
    depthAfter_eq_some_iff.2 (.inr (.inr ⟨ho, hc, hs, rfl⟩))
  rw [scan_cons, hd]
  rfl

end

theorem isKeyword_field {field keyword : String} (h : nameFault? field = none)
    (hk : keyword ∈ reservedWords) : (Token.word field).isKeyword keyword = false := by
  have hne : upper field ≠ keyword := by
    rintro rfl
    exact upper_not_mem_of_nameFault?_eq_none h hk
  exact decide_eq_false hne

/-- A plain field in front of further tokens. -/
theorem isCondition_field {field : String} {t : Token} {ts : List Token}
    (h : nameFault? field = none) (hrest : scan Level.factor.stops 0 (t :: ts) = some 0) :
    IsCondition (.word field :: t :: ts) where
  begins := ⟨_, _, rfl, nofun, isKeyword_field h (by decide)⟩
  flat := by
    rw [scan_pass rfl rfl, hrest]
    intro _
    rw [Level.stops, isKeyword_field h (by decide), isKeyword_field h (by decide)]
    rfl
  varies := rfl

theorem Condition.isCondition (c : Condition) (n : Nat) (hf : nameFault? c.field = none)
    (hc : c.isVoid = false) : IsCondition (c.tokens n) := by
  obtain ⟨field, op, value⟩ := c
  cases value with
  | none =>
    cases op with
    | eq | ne | isNull | isNotNull => exact isCondition_field hf rfl
    | gt | gte | lt | lte | like => cases hc
  | some v => cases op <;> exact isCondition_field hf rfl

theorem Condition.tokens_of_isVoid {c : Condition} (n : Nat) (hc : c.isVoid = true) :
    c.tokens n = falseTokens := by
  obtain ⟨field, op, value⟩ := c
  cases value with
  | none =>
    cases op with
    | eq | ne | isNull | isNotNull => cases hc
    | gt | gte | lt | lte | like => rfl
  | some v => cases hc

/-- The keys between the brackets of an array. -/
theorem scan_keys (stops : Token → Bool) (key : String) (keys : List String) :
    scan stops 1 ([Token.punctuation ","].intercalate
      ((key :: keys).map fun key => [.literal key])) = some 1 := by
  induction keys generalizing key with
  | nil => rfl
  | cons key' keys ih =>
    rw [List.map_cons, List.map_cons, List.intercalate_cons_cons, scan_append, scan_append]
    exact ih key'

theorem Predicate.isCondition (p : Predicate) (n : Nat) : IsCondition (p.tokens n) := by
  cases p with
  | hasKey column key => exact ⟨⟨_, _, rfl, nofun, rfl⟩, rfl, rfl⟩
  | hasAllKeys column keys =>
    refine ⟨⟨_, _, rfl, nofun, rfl⟩, ?_, rfl⟩
    cases keys with
    | nil => rfl
    | cons key keys =>
      have hsplit : (Predicate.hasAllKeys column (key :: keys)).tokens n =
          [.name column, .operator "?&", .word "ARRAY", .punctuation "["] ++
            [Token.punctuation ","].intercalate ((key :: keys).map fun key => [.literal key]) ++
            [.punctuation "]"] := rfl
      have hopen : scan Level.factor.stops 0
          [.name column, .operator "?&", .word "ARRAY", .punctuation "["] = some 1 := rfl
      rw [hsplit, scan_append, scan_append, hopen, Option.bind_some, scan_keys]
      rfl
  | valueIsNull column key => exact ⟨⟨_, _, rfl, nofun, rfl⟩, rfl, rfl⟩
  | compare column key op value => exact ⟨⟨_, _, rfl, nofun, rfl⟩, rfl, rfl⟩
  | like column key mode value => exact ⟨⟨_, _, rfl, nofun, rfl⟩, rfl, rfl⟩

/-! ## Ends of the leaves -/

theorem beginsTight_of_isNameStart {s : String} {c : Char} {cs : List Char}
    (hs : s.toList = c :: cs) (hc : isNameStart c = true) : BeginsTight s := by
  refine ⟨c, cs, hs, ?_⟩
  cases hspace : isSpace c with
  | false => rfl
  | true =>
    have hcases : c = ' ' ∨ c = '\t' ∨ c = '\n' ∨ c = '\r' ∨ c = '\x0b' ∨ c = '\x0c' := by
      simpa [isSpace] using hspace
    rcases hcases with rfl | rfl | rfl | rfl | rfl | rfl <;> revert hc <;> decide

theorem beginsTight_quotedName (s : String) : BeginsTight (quotedName s) :=
  ⟨'"', doubled '"' s ++ ['"'], String.toList_ofList, rfl⟩

theorem endsTight_nat (n : Nat) : EndsTight (toString n) := by
  have hne : Nat.toDigits 10 n ≠ [] := Nat.toDigits_ne_nil
  have hlast := Nat.isDigit_of_mem_toDigits (by decide) (Nat.le_refl 10) (List.getLast_mem hne)
  have hdigit := mem_of_isDigit hlast
  have hall : ("0123456789".toList.all fun d => !isSpace d) = true := by decide
  have hspace := (Bool.not_eq_true' _).mp (List.all_eq_true.1 hall _ hdigit)
  exact ⟨_, _, Nat.toList_repr.trans (List.dropLast_append_getLast hne).symm, hspace⟩

theorem endsTight_bind (b : Bindings) (v : Json) : EndsTight (b.bind v).1 := by
  apply EndsTight.append
  cases b.next.toInt with
  | ofNat n => exact endsTight_nat n
  | negSucc n => exact (endsTight_nat (n + 1)).append "-"

theorem Condition.beginsTight {c : Condition} (hf : nameFault? c.field = none) (b : Bindings) :
    BeginsTight (c.render b).1 := by
  obtain ⟨field, op, value⟩ := c
  obtain ⟨c, cs, hfield, hc, -⟩ := chars_of_nameFault?_eq_none hf
  have hbegins : BeginsTight field := beginsTight_of_isNameStart hfield hc
  have hvoid : BeginsTight "1=0" := ⟨_, _, rfl, rfl⟩
  cases value with
  | none =>
    cases op with
    | eq | ne | isNull | isNotNull => exact hbegins.append _
    | gt | gte | lt | lte | like => exact hvoid
  | some v =>
    cases op with
    | isNull | isNotNull => exact hbegins.append _
    | eq | ne | gt | gte | lt | lte | like =>
      exact (((hbegins.append " ").append _).append " ").append _

theorem Condition.endsTight (c : Condition) (b : Bindings) : EndsTight (c.render b).1 := by
  obtain ⟨field, op, value⟩ := c
  have hnull : EndsTight " IS NULL" := ⟨" IS NUL".toList, 'L', rfl, rfl⟩
  have hnotNull : EndsTight " IS NOT NULL" := ⟨" IS NOT NUL".toList, 'L', rfl, rfl⟩
  have hvoid : EndsTight "1=0" := ⟨"1=".toList, '0', rfl, rfl⟩
  cases value with
  | none =>
    cases op with
    | eq | isNull => exact hnull.append field
    | ne | isNotNull => exact hnotNull.append field
    | gt | gte | lt | lte | like => exact hvoid
  | some v =>
    cases op with
    | isNull => exact hnull.append field
    | isNotNull => exact hnotNull.append field
    | eq | ne | gt | gte | lt | lte | like => exact (endsTight_bind b v).append _

theorem Predicate.beginsTight (p : Predicate) (b : Bindings) : BeginsTight (p.render b).1 := by
  have hexist : BeginsTight "exist(" := ⟨_, _, rfl, rfl⟩
  have hdefined : BeginsTight "defined(" := ⟨_, _, rfl, rfl⟩
  cases p with
  | hasKey column key => exact (((hexist.append _).append _).append _).append _
  | hasAllKeys column keys => exact ((beginsTight_quotedName column).append _).append _
  | valueIsNull column key => exact (((hdefined.append _).append _).append _).append _
  | compare column key op value =>
    have hat : BeginsTight (valueAt column key) :=
      ((beginsTight_quotedName column).append _).append _
    exact (((hat.append _).append _).append _).append _
  | like column key mode value =>
    have hat : BeginsTight (valueAt column key) :=
      ((beginsTight_quotedName column).append _).append _
    exact (hat.append _).append _

theorem endsTight_keyArray (keys : List String) : EndsTight (keyArray keys) := by
  have hbracket : EndsTight "]" := ⟨[], ']', rfl, rfl⟩
  cases keys with
  | nil => exact ⟨"ARRAY[]::text[".toList, ']', rfl, rfl⟩
  | cons key keys => exact hbracket.append _

theorem Predicate.endsTight (p : Predicate) (b : Bindings) : EndsTight (p.render b).1 := by
  have hclosing : EndsTight ")" := ⟨[], ')', rfl, rfl⟩
  have hfalse : EndsTight ") is false" := ⟨") is fals".toList, 'e', rfl, rfl⟩
  cases p with
  | hasKey column key => exact hclosing.append _
  | hasAllKeys column keys => exact (endsTight_keyArray keys).append _
  | valueIsNull column key => exact hfalse.append _
  | compare column key op value => exact (endsTight_bind b (.str value)).append _
  | like column key mode value => exact (endsTight_bind b (.str (mode.pattern value))).append _

/-! ## Texts with a value -/

section
variable {σ : String → Truth}

/-- Blank characters. -/
def Blank (space : List Char) : Prop :=
  ∀ c ∈ space, isSpace c = true

/-- A text that is read, behind some space, at a level and with that value. -/
def Means (σ : String → Truth) (level : Level) (space : List Char) (s : String) (t : Truth) :
    Prop :=
  ∃ ls e, Lexes space s ls ∧ Reads level ls e ∧ e.value σ = t

/-- A text that is a factor with that value behind any space. -/
def IsFactor (σ : String → Truth) (s : String) (t : Truth) : Prop :=
  ∀ space, Blank space → Means σ .factor space s t

theorem blank_nil : Blank [] := nofun

theorem blank_space : Blank [' '] := by
  intro c hc
  rw [List.mem_singleton.1 hc]
  rfl

/-- A factor stands at every level. -/
theorem Reads.of_factor {ls : List Lexeme} {e : Formula} (h : Reads .factor ls e) (level : Level) :
    Reads level ls e := by
  have hand : Reads (.joined .and) ls e := .single h
  cases level with
  | factor => exact h
  | joined connective =>
    cases connective with
    | and => exact hand
    | or => exact .single hand

theorem Means.of_factor {space : List Char} {s : String} {t : Truth}
    (h : Means σ .factor space s t) (level : Level) : Means σ level space s t := by
  obtain ⟨ls, e, hlex, hread, hvalue⟩ := h
  exact ⟨ls, e, hlex, hread.of_factor level, hvalue⟩

theorem Means.to_disjunction {connective : Connective} {space : List Char} {s : String} {t : Truth}
    (h : Means σ (.joined connective) space s t) : Means σ (.joined .or) space s t := by
  obtain ⟨ls, e, hlex, hread, hvalue⟩ := h
  cases connective with
  | and => exact ⟨ls, e, hlex, .single hread, hvalue⟩
  | or => exact ⟨ls, e, hlex, hread, hvalue⟩

theorem Means.join {connective : Connective} {space : List Char} {s s' : String} {t t' : Truth}
    (h : Means σ (.joined connective) space s t)
    (h' : Means σ connective.operand [' '] s' t') :
    Means σ (.joined connective) space (s ++ connective.sql ++ s') (.join connective t t') := by
  obtain ⟨ls, e, hlex, hread, rfl⟩ := h
  obtain ⟨ms, f, hlex', hread', rfl⟩ := h'
  have hword : ∃ l : Lexeme, l.token = connective.word ∧
      (State.behind []).feed connective.sql.toList = ([l], .behind [' ']) := by
    cases connective with
    | and => exact ⟨⟨[' '], .word "AND", "AND".toList⟩, rfl, rfl⟩
    | or => exact ⟨⟨[' '], .word "OR", "OR".toList⟩, rfl, rfl⟩
  obtain ⟨l, hl, hfeed⟩ := hword
  have hkeyword : l.token.isKeyword connective.keyword = true := by
    rw [hl]
    cases connective <;> decide
  have hbreaks : Breaks (connective.sql ++ s') := connective.separates.breaks.append s'
  rw [String.append_assoc]
  exact ⟨_, _, hlex.append hbreaks (Lexes.behind hfeed hlex'), .join hread hkeyword hread', rfl⟩

/-- A text in parentheses, the opening one at the end of what stands before it. -/
theorem Means.enclosed {opening s : String} {space : List Char} {t : Truth}
    (h : Means σ (.joined .or) [] s t) {before : List Lexeme} {l : Lexeme}
    (ho : (State.behind space).feed opening.toList = (before ++ [l], .behind []))
    (hl : l.token = .punctuation "(") :
    ∃ ls e, Lexes space (opening ++ s ++ ")") (before ++ ls) ∧ Reads .factor ls e ∧
      e.value σ = t := by
  obtain ⟨ls, e, hlex, hread, hvalue⟩ := h
  have hclose : Lexes [] ")" [⟨[], .punctuation ")", [')']⟩] := ⟨rfl, rfl⟩
  have hall := (Lexes.behind ho hlex).append ⟨')', [], rfl, rfl⟩ hclose
  refine ⟨l :: ls ++ [⟨[], .punctuation ")", [')']⟩], e, ?_, .group hl hread rfl, hvalue⟩
  simpa only [List.append_assoc, List.cons_append, List.nil_append] using hall

theorem Means.group {s : String} {t : Truth} (h : Means σ (.joined .or) [] s t)
    (space : List Char) : Means σ .factor space ("(" ++ s ++ ")") t := by
  have hopen : (State.behind space).feed "(".toList =
      ([] ++ [⟨space, .punctuation "(", ['(']⟩], .behind []) := rfl
  exact h.enclosed hopen rfl

theorem Means.not {s : String} {t : Truth} (h : Means σ (.joined .or) [] s t)
    (space : List Char) : Means σ .factor space ("NOT (" ++ s ++ ")") t.not := by
  have hopen : (State.behind space).feed "NOT (".toList =
      ([⟨space, .word "NOT", "NOT".toList⟩] ++ [⟨[' '], .punctuation "(", ['(']⟩],
        .behind []) := rfl
  have hnot : (Token.word "NOT").isKeyword "NOT" = true := by decide
  obtain ⟨ls, e, hlex, hread, rfl⟩ := h.enclosed hopen rfl
  exact ⟨_, .not e, hlex, .not hnot hread, rfl⟩

/-- Further members are joined one by one to what stands before them. -/
theorem Means.joinAll {connective : Connective} {space : List Char} {s : String} {t : Truth}
    {ss : List String} {ts : List Truth} (h : Means σ (.joined connective) space s t)
    (hrest : List.Forall₂ (Means σ .factor [' ']) ss ts) :
    Means σ (.joined connective) space (String.intercalate connective.sql (s :: ss))
      (.joinAll connective (t :: ts)) := by
  induction hrest generalizing s t with
  | nil =>
    rw [Truth.joinAll, List.foldr_cons, List.foldr_nil, Truth.join_unit]
    simpa using h
  | @cons s' t' ss ts hfirst _ ih =>
    have hjoined := ih (h.join (hfirst.of_factor connective.operand))
    have hvalue : Truth.joinAll connective (t :: t' :: ts) =
        Truth.joinAll connective (.join connective t t' :: ts) :=
      (Truth.join_assoc connective t t' _).symm
    rw [String.intercalate_cons_cons, ← String.intercalate_cons_append, hvalue]
    exact hjoined

/-! ## Leaves and filters -/

theorem Leaf.beginsTight {l : Leaf} (hl : l.Plain) (n : Nat) : BeginsTight (l.text n) := by
  cases l with
  | condition c => exact Condition.beginsTight hl _
  | hstore p => exact p.beginsTight _

theorem Leaf.endsTight (l : Leaf) (n : Nat) : EndsTight (l.text n) := by
  cases l with
  | condition c => exact c.endsTight _
  | hstore p => exact p.endsTight _

/-- The text of a leaf is one condition and has its value, wherever it stands. -/
theorem Leaf.isFactor {l : Leaf} {n : Nat} (hl : l.Plain)
    (hn : l.value?.isSome → n ≤ maxParameter) : IsFactor σ (l.text n) (l.value σ n) := by
  intro space hspace
  obtain ⟨ls, hlex, htokens⟩ := exists_lexes space (l.tokens?_text hl hn) (l.endsTight n)
  have htext : Lexeme.text ls = l.text n := hlex.text_eq hspace (Leaf.beginsTight hl n)
  have hcondition (hc : IsCondition (l.tokens n)) :
      Means σ .factor space (l.text n) (σ (l.text n)) :=
    ⟨ls, _, hlex, .condition (htokens ▸ hc), congrArg σ htext⟩
  cases l with
  | condition c =>
    rw [Leaf.value]
    split
    · rename_i hvoid
      have hfalse : constant? (ls.map token) = some .false := by
        rw [htokens, Leaf.tokens, Condition.tokens_of_isVoid n hvoid]
        rfl
      exact ⟨ls, _, hlex, .constant hfalse, rfl⟩
    · rename_i hvoid
      exact hcondition (c.isCondition n hl (Bool.eq_false_iff.2 hvoid))
  | hstore p => exact hcondition (p.isCondition n)

theorem Connective.isFactor_identity (connective : Connective) :
    IsFactor σ connective.identity (.unit connective) := by
  intro space _
  obtain ⟨ls, hlex, htokens⟩ := exists_lexes space connective.tokens?_identity
    ⟨"1=".toList, if connective = .and then '1' else '0', by cases connective <;> rfl,
      by cases connective <;> rfl⟩
  have hconstant : constant? (ls.map token) = some (.unit connective) := by
    rw [htokens]
    cases connective <;> rfl
  exact ⟨ls, _, hlex, .constant hconstant, rfl⟩

theorem means_intercalate {connective : Connective} {ss : List String} {ts : List Truth}
    (h : List.Forall₂ (IsFactor σ) ss ts) (hne : ss ≠ []) {space : List Char}
    (hspace : Blank space) : Means σ (.joined connective) space
      (String.intercalate connective.sql ss) (.joinAll connective ts) := by
  cases h with
  | nil => exact absurd rfl hne
  | cons hfirst hrest =>
    have hothers := hrest.imp fun s t hs => hs [' '] blank_space
    exact ((hfirst space hspace).of_factor _).joinAll hothers

namespace Filter

mutual

/-- **The text of a filter is one factor and has its value.** -/
theorem isFactor_render (f : Filter) {b : Bindings} {n : Nat} (hb : b.next = .ofNat n)
    (hn : n + (boundValues f.leaves).length ≤ maxParameter + 1) (hf : ∀ l ∈ f.leaves, l.Plain) :
    IsFactor σ (f.render b).1 (f.value σ n) := by
  cases f with
  | condition c =>
    have htext := (Leaf.condition c).render_text hb
    have hplain : (Leaf.condition c).Plain := hf _ List.mem_cons_self
    exact htext ▸ Leaf.isFactor hplain (le_of_isSome hn)
  | group connective fs =>
    cases fs with
    | nil => exact connective.isFactor_identity
    | cons f fs =>
      intro space _
      have hall := isFactor_renderAll (f :: fs) hb hn hf
      have hinside :
          Means σ (.joined connective) [] _ (.joinAll connective (values σ (f :: fs) n)) :=
        means_intercalate hall nofun blank_nil
      exact hinside.to_disjunction.group space
  | not f =>
    intro space _
    have hinside := isFactor_render f hb hn hf
    exact ((hinside [] blank_nil).of_factor _).not space
  | hstore p =>
    have htext := (Leaf.hstore p).render_text hb
    have hplain : (Leaf.hstore p).Plain := trivial
    exact htext ▸ Leaf.isFactor hplain (le_of_isSome hn)

theorem isFactor_renderAll (fs : List Filter) {b : Bindings} {n : Nat} (hb : b.next = .ofNat n)
    (hn : n + (boundValues (leavesAll fs)).length ≤ maxParameter + 1)
    (hf : ∀ l ∈ leavesAll fs, l.Plain) :
    List.Forall₂ (IsFactor σ) (renderAll fs b).1 (values σ fs n) := by
  cases fs with
  | nil => exact .nil
  | cons f fs =>
    rw [leavesAll, boundValues_append, List.length_append] at hn
    simp only [leavesAll, List.mem_append, or_imp, forall_and] at hf
    have hnext := next_render f hb
    have hfirst := isFactor_render f hb (by omega) hf.1
    have hrest := isFactor_renderAll fs hnext (by omega) hf.2
    exact .cons hfirst hrest

end

end Filter

/-- The clause of some filters, with the value of all of them. -/
theorem exists_readsClause {fs : List Filter}
    (hn : (boundValues (Filter.leavesAll fs)).length < maxParameter)
    (hf : ∀ l ∈ Filter.leavesAll fs, l.Plain) :
    ∃ ls e, lexemes? (Query.filterClause fs).1 = some ls ∧ ReadsClause ls e ∧
      e.value σ = .joinAll .and (Filter.values σ fs 1) := by
  cases fs with
  | nil => exact ⟨[], _, rfl, .none, rfl⟩
  | cons f fs =>
    have hall := Filter.isFactor_renderAll (σ := σ) (f :: fs) (b := {}) (n := 1) rfl (by omega) hf
    have hjoined : Means σ (.joined .and) [' '] _ (.joinAll .and (Filter.values σ (f :: fs) 1)) :=
      means_intercalate hall nofun blank_space
    obtain ⟨ls, e, hlex, hread, hvalue⟩ := hjoined.to_disjunction
    have hopen : (State.behind []).feed "WHERE ".toList =
        ([⟨[], .word "WHERE", "WHERE".toList⟩], .behind [' ']) := rfl
    have hwhere : (Token.word "WHERE").isKeyword "WHERE" = true := by decide
    exact ⟨_, e, (Lexes.behind hopen hlex).read, .filter hwhere hread, hvalue⟩

end

/-- **Rendering preserves the meaning of filters.** Read by SQL's grammar, the clause that is
written for filters says one thing, and whatever truth values the texts of the leaves have, its
value is that of the conjunction of the filters: quotes, brackets and words inside a leaf change
nothing, and no two filters run into each other. -/
theorem filterClause_value {fs : List Filter} (hf : ∀ l ∈ Filter.leavesAll fs, l.Plain)
    (hn : (Query.filterClause fs).2.length < maxParameter) :
    ∃ ls e, lexemes? (Query.filterClause fs).1 = some ls ∧ ReadsClause ls e ∧
      (∀ e', ReadsClause ls e' → e' = e) ∧
      ∀ σ : String → Truth, e.value σ = .joinAll .and (Filter.values σ fs 1) := by
  rw [Query.filterClause_values] at hn
  -- the reading is fixed before the values are: it does not depend on them
  obtain ⟨ls, e, hlex, hread, -⟩ := exists_readsClause (σ := fun _ => .unknown) hn hf
  refine ⟨ls, e, hlex, hread, fun e' hread' => hread'.unique hread, ?_⟩
  intro σ
  obtain ⟨ms, f, hlex', hread', hvalue⟩ := exists_readsClause (σ := σ) hn hf
  obtain rfl := Option.some.inj (hlex.symm.trans hlex')
  rw [hread.unique hread', hvalue]

/-- Connectives at three depths, a key that spells them, a comparison without value and a group
without members. -/
def nestedFilters : List Filter :=
  [.group .or [.condition ⟨"name", .isNotNull, none⟩,
    .not (.group .and [.hstore (.valueIsNull "attrs" "a) OR NOT (b"),
      .condition ⟨"age", .gt, none⟩])],
    .condition ⟨"rank", .eq, some (.int 1)⟩, .group .or []]

theorem plain_nestedFilters : ∀ l ∈ Filter.leavesAll nestedFilters, l.Plain := by
  intro l hl
  simp only [nestedFilters, Filter.leavesAll, Filter.leaves, List.append_nil, List.cons_append,
    List.nil_append, List.mem_cons, List.not_mem_nil, or_false] at hl
  rcases hl with rfl | rfl | rfl | rfl
  · rfl
  · trivial
  · rfl
  · rfl

theorem filterClause_value_nestedFilters :
    (Query.filterClause nestedFilters).1 = "WHERE (name IS NOT NULL OR NOT " ++
      "((defined(\"attrs\", 'a) OR NOT (b') is false AND 1=0))) AND rank = $1 AND 1=0" ∧
    ∃ ls e, lexemes? (Query.filterClause nestedFilters).1 = some ls ∧ ReadsClause ls e ∧
      (∀ e', ReadsClause ls e' → e' = e) ∧
      ∀ σ : String → Truth, e.value σ = .joinAll .and (Filter.values σ nestedFilters 1) :=
  ⟨rfl, filterClause_value plain_nestedFilters (by decide)⟩

end HstoreKit.Sql
