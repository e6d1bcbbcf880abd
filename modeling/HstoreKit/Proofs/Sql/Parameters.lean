import HstoreKit.Proofs.Sql.Statement
import HstoreKit.Sql.Bound

/-!
# Parameters and values

The parameters of a statement are numbered as they stand, and the value at a position of the list
is the value of the leaf whose text holds the parameter of that number.

* `Filter.parameters_tokens`: the parameters of a filter are a range;
* `Filter.within_render`: where a leaf stands in the text of a filter, and with which number;
* `Query.parameters_select`: parameters, values and arguments of a statement.
-/

namespace HstoreKit.Sql

open Token

/-! ## Numbers -/

def Token.parameter? : Token → Option Nat
  | .parameter n => some n
  | _ => none

/-- The numbers of the parameters. What stands in quotes is no parameter. -/
def parameters (ts : List Token) : List Nat :=
  ts.filterMap Token.parameter?

@[simp] theorem parameters_nil : parameters [] = [] := rfl

@[simp] theorem parameters_append (ts us : List Token) :
    parameters (ts ++ us) = parameters ts ++ parameters us :=
  List.filterMap_append

theorem parameters_cons_of_none {t : Token} (h : t.parameter? = none) (ts : List Token) :
    parameters (t :: ts) = parameters ts := by
  rw [parameters, List.filterMap_cons, h]
  rfl

theorem parameters_intercalate {t : Token} (h : t.parameter? = none) (tss : List (List Token)) :
    parameters ([t].intercalate tss) = tss.flatMap parameters := by
  induction tss with
  | nil => rfl
  | cons ts tss ih =>
    cases tss with
    | nil => simp
    | cons us tss =>
      rw [List.intercalate_cons_cons, parameters_append, parameters_append, ih,
        parameters_cons_of_none h, parameters_nil, List.append_nil, List.flatMap_cons (x := ts)]

theorem parameters_keyArrayTokens (keys : List String) :
    parameters (keyArrayTokens keys) = [] := by
  cases keys with
  | nil => rfl
  | cons key keys =>
    rw [keyArrayTokens, parameters_append, parameters_append, parameters_intercalate rfl,
      List.flatMap_map]
    simp [parameters, Token.parameter?]

/-- The parameter of a leaf that binds a value has the number that is next. -/
theorem Leaf.parameters_tokens (l : Leaf) (n : Nat) :
    parameters (l.tokens n) = List.range' n (boundValues [l]).length := by
  cases l with
  | condition c =>
    obtain ⟨field, op, value⟩ := c
    cases op <;> cases value <;> rfl
  | hstore p =>
    cases p with
    | hasAllKeys column keys =>
      have hkeys := parameters_keyArrayTokens keys
      rw [Leaf.tokens, Predicate.tokens, parameters_append, hkeys]
      rfl
    | hasKey | valueIsNull | compare | like => rfl

namespace Filter

mutual

/-- The parameters of a filter are numbered without gap from the next number on. -/
theorem parameters_tokens (f : Filter) (n : Nat) :
    parameters (f.tokens n) = List.range' n (boundValues f.leaves).length := by
  cases f with
  | condition c => exact (Leaf.condition c).parameters_tokens n
  | group connective fs =>
    cases fs with
    | nil => cases connective <;> rfl
    | cons f fs =>
      have hword : connective.word.parameter? = none := by
        cases connective <;> rfl
      rw [tokens, parameters_append, parameters_append, parameters_intercalate hword,
        parameters_tokensAll (f :: fs) n]
      exact List.append_nil _
  | not f =>
    rw [tokens, parameters_append, parameters_append, parameters_tokens f n]
    exact List.append_nil _
  | hstore p => exact (Leaf.hstore p).parameters_tokens n

theorem parameters_tokensAll (fs : List Filter) (n : Nat) :
    (tokensAll fs n).flatMap parameters =
      List.range' n (boundValues (leavesAll fs)).length := by
  cases fs with
  | nil => rfl
  | cons f fs =>
    rw [tokensAll, leavesAll, List.flatMap_cons, parameters_tokens f n,
      parameters_tokensAll fs, boundValues_append, List.length_append, List.range'_append_1]

end

end Filter

theorem Query.parameters_tokens (q : Query) (table : String) :
    parameters (q.tokens table) =
      List.range' 1 (boundValues (Filter.leavesAll q.filters)).length := by
  have hfilter : parameters (filterTokens q.filters) =
      List.range' 1 (boundValues (Filter.leavesAll q.filters)).length := by
    cases hfilters : q.filters with
    | nil => rfl
    | cons f fs =>
      rw [filterTokens, parameters_cons_of_none rfl, parameters_intercalate rfl,
        Filter.parameters_tokensAll]
  have horder : parameters (orderTokens q.order) = [] := by
    cases q.order with
    | nil => rfl
    | cons i items =>
      rw [orderTokens, parameters_append, parameters_intercalate rfl, List.flatMap_map]
      simp [parameters, Token.parameter?]
  have hint (n : Int) : parameters (ofInt n) = [] := by
    unfold ofInt
    split <;> rfl
  have hclause (s : String) (bound : Option Int) :
      parameters (bound.toList.flatMap fun n => .word s :: ofInt n) = [] := by
    cases bound with
    | none => rfl
    | some n =>
      have hword : parameters (.word s :: ofInt n) = [] := by
        rw [parameters_cons_of_none rfl, hint]
      simpa using hword
  have hpage : parameters (pageTokens q.limit q.offset) = [] := by
    rw [pageTokens, parameters_append, hclause, hclause]
    rfl
  rw [Query.tokens, parameters_append, parameters_append, parameters_append, hfilter, horder, hpage]
  simp [parameters, Token.parameter?]

/-! ## Places -/

/-- A text in one of the members of a list, with the tokens of all of them. -/
inductive WithinOne (t : String) (ts : List Token) : List String → List (List Token) → Prop
  | head {s ss us uss} (h : Within t ts s us)
      (rest : List.Forall₂ (fun s us => tokens? s = some us) ss uss) :
      WithinOne t ts (s :: ss) (us :: uss)
  | tail {s ss us uss} (h : tokens? s = some us) (rest : WithinOne t ts ss uss) :
      WithinOne t ts (s :: ss) (us :: uss)

theorem WithinOne.intercalate {t sep : String} {ts ms : List Token} {ss : List String}
    {uss : List (List Token)} (h : WithinOne t ts ss uss) (hsep : Separates sep ms) :
    Within t ts (String.intercalate sep ss) (ms.intercalate uss) := by
  induction h with
  | @head s ss us uss hfirst hrest =>
    cases hrest with
    | nil => simpa using hfirst
    | cons hs hss =>
      rw [String.intercalate_cons_cons, List.intercalate_cons_cons]
      exact hfirst.trans (within_left hsep (tokens?_intercalate hsep (.cons hs hss)))
  | @tail s ss us uss hs hrest ih =>
    cases hrest with
    | head | tail =>
      rw [String.intercalate_cons_cons, List.intercalate_cons_cons]
      exact ih.trans (within_right hs hsep)

/-- A leaf of two lists is one of the first, or one of the second behind all of the first. -/
theorem split_append {as bs ls ms : List Leaf} {l : Leaf} (h : as ++ bs = ls ++ l :: ms) :
    (∃ ms', as = ls ++ l :: ms') ∨ ∃ ls', ls = as ++ ls' ∧ bs = ls' ++ l :: ms := by
  rcases List.append_eq_append_iff.1 h with ⟨ls', hls, hbs⟩ | ⟨ms', has, hms⟩
  · exact .inr ⟨ls', hls, hbs⟩
  · cases ms' with
    | nil => exact .inr ⟨[], by simpa using has.symm, by simpa using hms.symm⟩
    | cons m ms' =>
      obtain ⟨rfl, rfl⟩ := List.cons.inj hms
      exact .inl ⟨ms', has⟩

theorem split_singleton {k l : Leaf} {ls ms : List Leaf} (h : [k] = ls ++ l :: ms) :
    ls = [] ∧ l = k := by
  cases ls with
  | nil => exact ⟨rfl, (List.cons.inj h).1.symm⟩
  | cons m ls => simp at h

namespace Filter

mutual

/-- **Where a leaf stands in a filter.** Its text has the number behind those of the values that
the leaves on its left bind. -/
theorem within_render (f : Filter) {b : Bindings} {n : Nat} (hb : b.next = .ofNat n)
    (hn : n + (boundValues f.leaves).length ≤ maxParameter + 1) (hf : ∀ l ∈ f.leaves, l.Plain)
    {ls ms : List Leaf} {l : Leaf} (hl : f.leaves = ls ++ l :: ms) :
    Within (l.text (n + (boundValues ls).length)) (l.tokens (n + (boundValues ls).length))
      (f.render b).1 (f.tokens n) := by
  cases f with
  | condition c =>
    obtain ⟨rfl, rfl⟩ := split_singleton hl
    have htext := (Leaf.condition c).render_text hb
    exact htext ▸ Within.refl _ _
  | group connective fs =>
    cases fs with
    | nil => simp [leaves, leavesAll] at hl
    | cons f fs =>
      have hone := withinOne_renderAll (f :: fs) hb hn hf hl
      exact (hone.intercalate connective.separates).trans (within_parentheses closed_opening _ _)
  | not f =>
    have hinside := within_render f hb hn hf hl
    exact hinside.trans (within_parentheses closed_not _ _)
  | hstore p =>
    obtain ⟨rfl, rfl⟩ := split_singleton hl
    have htext := (Leaf.hstore p).render_text hb
    exact htext ▸ Within.refl _ _

theorem withinOne_renderAll (fs : List Filter) {b : Bindings} {n : Nat} (hb : b.next = .ofNat n)
    (hn : n + (boundValues (leavesAll fs)).length ≤ maxParameter + 1)
    (hf : ∀ l ∈ leavesAll fs, l.Plain) {ls ms : List Leaf} {l : Leaf}
    (hl : leavesAll fs = ls ++ l :: ms) :
    WithinOne (l.text (n + (boundValues ls).length)) (l.tokens (n + (boundValues ls).length))
      (renderAll fs b).1 (tokensAll fs n) := by
  cases fs with
  | nil => simp [leavesAll] at hl
  | cons f fs =>
    rw [leavesAll, boundValues_append, List.length_append] at hn
    simp only [leavesAll, List.mem_append, or_imp, forall_and] at hf
    have hnext := next_render f hb
    -- in the first filter the number goes on from `n`, in the others from behind that filter
    rcases split_append hl with ⟨ms', hfirst⟩ | ⟨ls', rfl, hrest⟩
    · exact .head (within_render f hb (by omega) hf.1 hfirst)
        (tokens?_renderAll fs hnext (by omega) hf.2)
    · rw [boundValues_append, List.length_append, ← Nat.add_assoc]
      exact .tail (tokens?_render f hb (by omega) hf.1)
        (withinOne_renderAll fs hnext (by omega) hf.2 hrest)

end

end Filter

/-! ## Values -/

/-- The leaves that bind a value. -/
def binding (ls : List Leaf) : List Leaf :=
  ls.filter fun l => l.value?.isSome

theorem length_binding (ls : List Leaf) : (binding ls).length = (boundValues ls).length := by
  rw [binding, boundValues, List.length_filterMap_eq_countP, List.countP_eq_length_filter]

/-- Before the leaf at a position among those that bind there are as many values. -/
theorem exists_split {ls : List Leaf} {i : Nat} {l : Leaf} (h : (binding ls)[i]? = some l) :
    ∃ before after, ls = before ++ l :: after ∧ (boundValues before).length = i ∧
      l.value?.isSome = true := by
  induction ls generalizing i with
  | nil => simp [binding] at h
  | cons k ls ih =>
    cases hk : k.value? with
    | none =>
      have hrest : (binding ls)[i]? = some l := by
        simpa [binding, hk] using h
      obtain ⟨before, after, rfl, hcount, hl⟩ := ih hrest
      exact ⟨k :: before, after, rfl, by simpa [boundValues, hk] using hcount, hl⟩
    | some v =>
      have hcons : binding (k :: ls) = k :: binding ls := by
        simp [binding, hk]
      rw [hcons] at h
      cases i with
      | zero =>
        obtain rfl : k = l := by simpa using h
        exact ⟨[], ls, rfl, rfl, by simp [hk]⟩
      | succ i =>
        obtain ⟨before, after, rfl, hcount, hl⟩ := ih (by simpa using h)
        exact ⟨k :: before, after, rfl, by simpa [boundValues, hk] using hcount, hl⟩

namespace Query

theorem within_filterClause {fs : List Filter}
    (hn : (boundValues (Filter.leavesAll fs)).length < maxParameter)
    (hf : ∀ l ∈ Filter.leavesAll fs, l.Plain) {ls ms : List Leaf} {l : Leaf}
    (hl : Filter.leavesAll fs = ls ++ l :: ms) :
    (filterClause fs).1 ≠ "" ∧
      Within (l.text (1 + (boundValues ls).length)) (l.tokens (1 + (boundValues ls).length))
        (filterClause fs).1 (filterTokens fs) := by
  cases fs with
  | nil => simp [Filter.leavesAll] at hl
  | cons f fs =>
    have hone := Filter.withinOne_renderAll (f :: fs) (b := {}) (n := 1) rfl (by omega) hf hl
    have hlist := hone.intercalate Connective.and.separates
    refine ⟨?_, hlist.trans (within_behind closed_where _ _)⟩
    simp [filterClause]

/-- Where a leaf stands in a statement. -/
theorem within_select {q : Query} {table sql : String} {values : List Json}
    (h : q.select table = .ok (sql, values)) (small : values.length < maxParameter)
    {ls ms : List Leaf} {l : Leaf} (hl : Filter.leavesAll q.filters = ls ++ l :: ms) :
    Within (l.text (1 + (boundValues ls).length)) (l.tokens (1 + (boundValues ls).length)) sql
      (q.tokens table) := by
  obtain ⟨hfields, horder, rfl, rfl⟩ := of_select_eq_ok h
  obtain ⟨hne, hclause⟩ := within_filterClause small hfields hl
  have htable := tokens?_closed_append closed_select (tokens?_quotedName table)
  have hfilter := hclause.trans (within_appended htable hne)
  have horder := hfilter.trans (within_before (tokens?_orderClause horder))
  exact horder.trans (within_before (tokens?_pageClause q.limit q.offset))

/-- **Parameters and values stay aligned.** The parameters of a statement are numbered from one
without gap as they stand, one for each value. The value at a position is that of the leaf at the
same position among the leaves that bind one, and the parameter of that number is the one in the
text of this leaf. On a query the values become arguments in the same order. -/
theorem parameters_select {q : Query} {table sql : String} {values : List Json}
    (h : q.select table = .ok (sql, values)) (small : values.length < maxParameter) :
    ∃ ts, tokens? sql = some ts ∧ parameters ts = List.range' 1 values.length ∧
      (binding (Filter.leavesAll q.filters)).length = values.length ∧
      (∀ i l, (binding (Filter.leavesAll q.filters))[i]? = some l → values[i]? = l.value? ∧
        ∃ us, tokens? (l.text (i + 1)) = some us ∧ parameters us = [i + 1] ∧
          Within (l.text (i + 1)) us sql ts) ∧
      ∀ args, bindValues args values = args ++ values.map Bound.ofJson := by
  obtain ⟨hfields, horder, hsql, hvalues⟩ := of_select_eq_ok h
  refine ⟨q.tokens table, ?_, ?_, ?_, ?_, fun args => bindValues_eq args values⟩
  · rw [hsql]
    exact tokens?_text table (hvalues ▸ small) hfields horder
  · rw [parameters_tokens, hvalues]
  · rw [length_binding, hvalues]
  · intro i l hi
    obtain ⟨ls, ms, hl, rfl, hsome⟩ := exists_split hi
    obtain ⟨v, hv⟩ := Option.isSome_iff_exists.1 hsome
    have hwithin := within_select h small hl
    rw [Nat.add_comm] at hwithin
    have hsplit : values = boundValues ls ++ v :: boundValues ms := by
      rw [hvalues, hl, boundValues_append]
      simp [boundValues, hv]
    have hnumber : (boundValues ls).length + 1 ≤ maxParameter := by
      rw [hsplit, List.length_append, List.length_cons] at small
      omega
    refine ⟨by simp [hsplit, hv], l.tokens _, ?_, ?_, hwithin⟩
    · exact l.tokens?_text (hfields l (by simp [hl])) fun _ => hnumber
    · rw [Leaf.parameters_tokens]
      simp [boundValues, hv]

theorem parameters_select_quotingQuery : ∃ sql values,
    quotingQuery.select "items" = .ok (sql, values) ∧ values.length < maxParameter ∧
      ∃ ts, tokens? sql = some ts ∧ parameters ts = [1, 2] := by
  have hsmall : [Json.str "' OR 1=1 --", .str "7"].length < maxParameter := by decide
  obtain ⟨ts, hts, hparameters, -⟩ := parameters_select quotingQuery_select hsmall
  exact ⟨_, _, quotingQuery_select, hsmall, ts, hts, hparameters⟩

end Query

end HstoreKit.Sql
