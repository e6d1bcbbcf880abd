import HstoreKit.Proofs.Sql.Leaf
import HstoreKit.Proofs.Sql.Token

/-!
# Statements as tokens

Every part of a query is given its tokens, which name the table, the columns, the keys, the fields
and the numbers as the caller gave them. What is written is read as these tokens.

* `Filter.tokens`: the tokens of a filter from the number of its first parameter on;
* `Leaf.tokens?_text`, `Filter.tokens?_render`: the text of a leaf and of a filter;
* `Query.tokens`: the tokens of a statement;
* `Query.tokens?_select`: a statement is read as its tokens.
-/

namespace HstoreKit.Sql

/-! ## Tokens of the parts -/

/-- Equality and the like are operators; LIKE is a word. The tests for NULL take no value. -/
def Operator.token? : Operator → Option Token
  | .eq => some (.operator "=")
  | .ne => some (.operator "<>")
  | .gt => some (.operator ">")
  | .gte => some (.operator ">=")
  | .lt => some (.operator "<")
  | .lte => some (.operator "<=")
  | .like => some (.word "LIKE")
  | .isNull => none
  | .isNotNull => none

/-- The test that never holds. -/
def falseTokens : List Token :=
  [.integer 1, .operator "=", .integer 0]

/-- A plain field is one word whatever it is tested for. -/
def Condition.tokens (c : Condition) (n : Nat) : List Token :=
  match c.operator, c.value with
  | .isNull, _ => [.word c.field, .word "IS", .word "NULL"]
  | .eq, none => [.word c.field, .word "IS", .word "NULL"]
  | .isNotNull, _ => [.word c.field, .word "IS", .word "NOT", .word "NULL"]
  | .ne, none => [.word c.field, .word "IS", .word "NOT", .word "NULL"]
  | _, none => falseTokens
  | op, some _ =>
    match op.token? with
    | some sign => [.word c.field, sign, .parameter n]
    | none => falseTokens

def keyArrayTokens : List String → List Token
  | [] => [.word "ARRAY", .punctuation "[", .punctuation "]", .punctuation "::", .word "text",
      .punctuation "[", .punctuation "]"]
  | key :: keys => [.word "ARRAY", .punctuation "["] ++
      [Token.punctuation ","].intercalate ((key :: keys).map fun key => [.literal key]) ++
      [.punctuation "]"]

/-- An hstore column is one quoted identifier, and a key is one string literal. -/
def Predicate.tokens : Predicate → Nat → List Token
  | .hasKey column key, _ => [.word "exist", .punctuation "(", .name column, .punctuation ",",
      .literal key, .punctuation ")"]
  | .hasAllKeys column keys, _ => [.name column, .operator "?&"] ++ keyArrayTokens keys
  | .valueIsNull column key, _ => [.word "defined", .punctuation "(", .name column,
      .punctuation ",", .literal key, .punctuation ")", .word "is", .word "false"]
  | .compare column key op _, n =>
    [.name column, .operator "->", .literal key, .operator op.sql, .parameter n]
  | .like column key _ _, n =>
    [.name column, .operator "->", .literal key, .word "LIKE", .parameter n]

def Leaf.tokens : Leaf → Nat → List Token
  | .condition c, n => c.tokens n
  | .hstore p, n => p.tokens n

def Connective.word : Connective → Token
  | .and => .word "AND"
  | .or => .word "OR"

/-- What an empty group stands for. -/
def Connective.identityTokens : Connective → List Token
  | .and => [.integer 1, .operator "=", .integer 1]
  | .or => falseTokens

namespace Filter

mutual

/-- The tokens of a filter where `n` is the number of the next parameter. -/
def tokens : Filter → Nat → List Token
  | .condition c, n => (Leaf.condition c).tokens n
  | .group connective [], _ => connective.identityTokens
  | .group connective (f :: fs), n =>
    [.punctuation "("] ++ [connective.word].intercalate (tokensAll (f :: fs) n) ++
      [.punctuation ")"]
  | .not f, n => [.word "NOT", .punctuation "("] ++ f.tokens n ++ [.punctuation ")"]
  | .hstore p, n => (Leaf.hstore p).tokens n

/-- The tokens of filters one by one. The values that a filter binds come before those of the next
one. -/
def tokensAll : List Filter → Nat → List (List Token)
  | [], _ => []
  | f :: fs, n => f.tokens n :: tokensAll fs (n + (boundValues f.leaves).length)

end

end Filter

namespace Query

def filterTokens : List Filter → List Token
  | [] => []
  | f :: fs => .word "WHERE" :: [Token.word "AND"].intercalate (Filter.tokensAll (f :: fs) 1)

def orderTokens : List (String × Direction) → List Token
  | [] => []
  | item :: items => [.word "ORDER", .word "BY"] ++
      [Token.punctuation ","].intercalate
        ((item :: items).map fun i => [.word i.1, .word i.2.sql])

def pageTokens (limit offset : Option Int) : List Token :=
  (limit.toList.flatMap fun n => .word "LIMIT" :: Token.ofInt n) ++
    offset.toList.flatMap fun n => .word "OFFSET" :: Token.ofInt n

/-- The tokens of the statement on a table. -/
def tokens (q : Query) (table : String) : List Token :=
  [.word "SELECT", .operator "*", .word "FROM", .name table] ++ filterTokens q.filters ++
    orderTokens q.order ++ pageTokens q.limit q.offset

end Query

open Token

/-! ## Texts of the leaves -/

theorem separates_space : Separates " " [] :=
  ⟨⟨_, _, rfl, rfl⟩, rfl⟩

theorem separates_comma : Separates ", " [.punctuation ","] ∧ Separates "," [.punctuation ","] :=
  ⟨⟨⟨_, _, rfl, rfl⟩, rfl⟩, ⟨⟨_, _, rfl, rfl⟩, rfl⟩⟩

theorem separates_arrow : Separates " -> " [.operator "->"] :=
  ⟨⟨_, _, rfl, rfl⟩, rfl⟩

theorem Connective.separates (connective : Connective) :
    Separates connective.sql [connective.word] := by
  cases connective with
  | and => exact ⟨⟨_, _, rfl, rfl⟩, rfl⟩
  | or => exact ⟨⟨_, _, rfl, rfl⟩, rfl⟩

theorem Comparison.tokens?_sql (op : Comparison) : tokens? op.sql = some [.operator op.sql] := by
  cases op <;> rfl

/-- The text of a parameter while its number fits in a signed 32-bit word. -/
theorem Bindings.tokens?_bind {n : Nat} (vs : List Json) (v : Json) (hn : n ≤ maxParameter) :
    tokens? (Bindings.bind ⟨vs, .ofNat n⟩ v).1 = some [.parameter n] := by
  have hnumber : toString (Int32.ofNat n).toInt = toString n := by
    have hword : (Int32.ofNat n).toInt = n :=
      Int32.toInt_ofNat_of_lt (Nat.lt_succ_of_le hn)
    rw [hword]
    rfl
  rw [bind, hnumber]
  exact tokens?_parameter n

theorem tokens?_false : tokens? "1=0" = some falseTokens := by
  decide

theorem Condition.tokens?_text (c : Condition) {n : Nat} (hf : nameFault? c.field = none)
    (hn : (Leaf.condition c).value?.isSome → n ≤ maxParameter) :
    tokens? ((Leaf.condition c).text n) = some (c.tokens n) := by
  obtain ⟨field, op, value⟩ := c
  have hfield : tokens? field = some [.word field] := tokens?_plain hf
  have hnull : tokens? (field ++ " IS NULL") = some [.word field, .word "IS", .word "NULL"] :=
    tokens?_append hfield rfl ⟨_, _, rfl, rfl⟩
  have hnotNull : tokens? (field ++ " IS NOT NULL") =
      some [.word field, .word "IS", .word "NOT", .word "NULL"] :=
    tokens?_append hfield rfl ⟨_, _, rfl, rfl⟩
  cases value with
  | none =>
    cases op with
    | eq | isNull => exact hnull
    | ne | isNotNull => exact hnotNull
    | gt | gte | lt | lte | like => exact tokens?_false
  | some v =>
    have hsign {sign : String} {t : Token} (hs : tokens? sign = some [t]) (hb : n ≤ maxParameter) :
        tokens? (field ++ " " ++ sign ++ " " ++ (Bindings.bind ⟨[], .ofNat n⟩ v).1) =
          some [.word field, t, .parameter n] :=
      tokens?_sep (tokens?_sep hfield separates_space hs) separates_space
        (Bindings.tokens?_bind [] v hb)
    cases op with
    | isNull => exact hnull
    | isNotNull => exact hnotNull
    | eq | ne | gt | gte | lt | lte | like => exact hsign rfl (hn rfl)

theorem tokens?_keyArray (keys : List String) :
    tokens? (keyArray keys) = some (keyArrayTokens keys) := by
  cases keys with
  | nil => rfl
  | cons key keys =>
    have heach : ∀ k ∈ key :: keys, tokens? (literal k) = some [.literal k] := by
      intro k _
      exact tokens?_literal k
    have hlist := tokens?_intercalate_map separates_comma.2 heach
    have hopen : Closed "ARRAY[" [.word "ARRAY", .punctuation "["] := rfl
    exact tokens?_append (tokens?_closed_append hopen hlist) rfl ⟨_, _, rfl, rfl⟩

theorem tokens?_valueAt (column key : String) :
    tokens? (valueAt column key) = some [.name column, .operator "->", .literal key] :=
  tokens?_sep (tokens?_quotedName column) separates_arrow (tokens?_literal key)

theorem Predicate.tokens?_text (p : Predicate) {n : Nat}
    (hn : (Leaf.hstore p).value?.isSome → n ≤ maxParameter) :
    tokens? ((Leaf.hstore p).text n) = some (p.tokens n) := by
  have hcall {opening : String} {ms : List Token} (ho : Closed opening ms) (column key : String) :
      tokens? (opening ++ quotedName column ++ ", " ++ literal key) =
        some (ms ++ [.name column] ++ [.punctuation ","] ++ [.literal key]) :=
    tokens?_sep (tokens?_closed_append ho (tokens?_quotedName column)) separates_comma.1
      (tokens?_literal key)
  cases p with
  | hasKey column key =>
    have hopen : Closed "exist(" [.word "exist", .punctuation "("] := rfl
    exact tokens?_append (hcall hopen column key) rfl ⟨_, _, rfl, rfl⟩
  | hasAllKeys column keys =>
    have hsep : Separates " ?& " [.operator "?&"] := ⟨⟨_, _, rfl, rfl⟩, rfl⟩
    exact tokens?_sep (tokens?_quotedName column) hsep (tokens?_keyArray keys)
  | valueIsNull column key =>
    have hopen : Closed "defined(" [.word "defined", .punctuation "("] := rfl
    exact tokens?_append (hcall hopen column key) rfl ⟨_, _, rfl, rfl⟩
  | compare column key op value =>
    have hleft := tokens?_sep (tokens?_valueAt column key) separates_space op.tokens?_sql
    exact tokens?_sep hleft separates_space (Bindings.tokens?_bind [] (.str value) (hn rfl))
  | like column key mode value =>
    have hsep : Separates " LIKE " [.word "LIKE"] := ⟨⟨_, _, rfl, rfl⟩, rfl⟩
    exact tokens?_sep (tokens?_valueAt column key) hsep
      (Bindings.tokens?_bind [] (.str (mode.pattern value)) (hn rfl))

/-- The text of a leaf is read as its tokens, whatever stands in its column, key and value. -/
theorem Leaf.tokens?_text (l : Leaf) {n : Nat} (hl : l.Plain)
    (hn : l.value?.isSome → n ≤ maxParameter) : tokens? (l.text n) = some (l.tokens n) := by
  cases l with
  | condition c => exact c.tokens?_text hl hn
  | hstore p => exact p.tokens?_text hn

/-! ## Texts of the filters -/

theorem closed_opening : Closed "(" [.punctuation "("] := rfl

theorem closed_not : Closed "NOT (" [.word "NOT", .punctuation "("] := rfl

theorem Connective.tokens?_identity (connective : Connective) :
    tokens? connective.identity = some connective.identityTokens := by
  cases connective <;> decide

/-- A leaf that binds a value has a number left for it. -/
theorem le_of_isSome {l : Leaf} {n : Nat} (hn : n + (boundValues [l]).length ≤ maxParameter + 1) :
    l.value?.isSome → n ≤ maxParameter := by
  intro hsome
  obtain ⟨v, hv⟩ := Option.isSome_iff_exists.1 hsome
  simp only [boundValues, List.filterMap_cons, hv, List.length_cons] at hn
  omega

namespace Filter

mutual

/-- **The text of a filter is read as its tokens**, at every depth and from every number on, as
long as the numbers of its parameters fit in a signed 32-bit word. -/
theorem tokens?_render (f : Filter) {b : Bindings} {n : Nat} (hb : b.next = .ofNat n)
    (hn : n + (boundValues f.leaves).length ≤ maxParameter + 1) (hf : ∀ l ∈ f.leaves, l.Plain) :
    tokens? (f.render b).1 = some (f.tokens n) := by
  cases f with
  | condition c =>
    have htext := (Leaf.condition c).render_text hb
    have hplain : (Leaf.condition c).Plain := hf _ List.mem_cons_self
    exact htext ▸ Leaf.tokens?_text _ hplain (le_of_isSome hn)
  | group connective fs =>
    cases fs with
    | nil => exact connective.tokens?_identity
    | cons f fs =>
      have hall := tokens?_renderAll (f :: fs) hb hn hf
      have hinside := tokens?_intercalate connective.separates hall
      exact (within_parentheses closed_opening _ _).tokens? hinside
  | not f =>
    have hinside := tokens?_render f hb hn hf
    exact (within_parentheses closed_not _ _).tokens? hinside
  | hstore p =>
    have htext := (Leaf.hstore p).render_text hb
    exact htext ▸ Leaf.tokens?_text _ trivial (le_of_isSome hn)

theorem tokens?_renderAll (fs : List Filter) {b : Bindings} {n : Nat} (hb : b.next = .ofNat n)
    (hn : n + (boundValues (leavesAll fs)).length ≤ maxParameter + 1)
    (hf : ∀ l ∈ leavesAll fs, l.Plain) :
    List.Forall₂ (fun s ts => tokens? s = some ts) (renderAll fs b).1 (tokensAll fs n) := by
  cases fs with
  | nil => exact .nil
  | cons f fs =>
    rw [leavesAll, boundValues_append, List.length_append] at hn
    simp only [leavesAll, List.mem_append, or_imp, forall_and] at hf
    have hnext := next_render f hb
    have hfirst := tokens?_render f hb (by omega) hf.1
    have hrest := tokens?_renderAll fs hnext (by omega) hf.2
    exact .cons hfirst hrest

end

end Filter

/-! ## Texts of the clauses -/

namespace Query

theorem filterClause_values (fs : List Filter) :
    (filterClause fs).2 = boundValues (Filter.leavesAll fs) := by
  cases fs with
  | nil => rfl
  | cons f fs =>
    have hbindings := Filter.renderAll_bindings (f :: fs) {}
    simp only [filterClause, hbindings, Bindings.bindAll, List.nil_append]

theorem closed_where : Closed "WHERE " [.word "WHERE"] := rfl

theorem tokens?_filterClause {fs : List Filter}
    (hn : (boundValues (Filter.leavesAll fs)).length < maxParameter)
    (hf : ∀ l ∈ Filter.leavesAll fs, l.Plain) :
    tokens? (filterClause fs).1 = some (filterTokens fs) := by
  cases fs with
  | nil => rfl
  | cons f fs =>
    have hall := Filter.tokens?_renderAll (f :: fs) (b := {}) (n := 1) rfl (by omega) hf
    exact tokens?_closed_append closed_where (tokens?_intercalate Connective.and.separates hall)

theorem checkOrder_eq_forM (items : List (String × Direction)) :
    checkOrder items = forM (items.map Prod.fst) checkName := by
  induction items with
  | nil => rfl
  | cons item items ih => rw [checkOrder, ih, List.map_cons, List.forM_cons]

theorem tokens?_direction (d : Direction) : tokens? d.sql = some [.word d.sql] := by
  cases d <;> rfl

theorem tokens?_orderClause {items : List (String × Direction)}
    (hf : ∀ i ∈ items, nameFault? i.1 = none) :
    tokens? (orderClause items) = some (orderTokens items) := by
  cases items with
  | nil => rfl
  | cons i items =>
    have heach : ∀ item ∈ i :: items,
        tokens? (orderItem item) = some [.word item.1, .word item.2.sql] := by
      intro item hitem
      exact tokens?_sep (tokens?_plain (hf item hitem)) separates_space (tokens?_direction item.2)
    have hopen : Closed "ORDER BY " [.word "ORDER", .word "BY"] := rfl
    exact tokens?_closed_append hopen (tokens?_intercalate_map separates_comma.1 heach)

theorem tokens?_pageClause (limit offset : Option Int) :
    tokens? (pageClause limit offset) = some (pageTokens limit offset) := by
  have hword : Closed "LIMIT " [.word "LIMIT"] ∧ Closed "OFFSET " [.word "OFFSET"] := ⟨rfl, rfl⟩
  have hlimit (n : Int) : tokens? ("LIMIT " ++ toString n) = some (.word "LIMIT" :: ofInt n) :=
    tokens?_closed_append hword.1 (tokens?_int n)
  have hoffset (n : Int) : tokens? ("OFFSET " ++ toString n) = some (.word "OFFSET" :: ofInt n) :=
    tokens?_closed_append hword.2 (tokens?_int n)
  cases limit with
  | none =>
    cases offset with
    | none => rfl
    | some n => simpa [pageClause, pageTokens] using hoffset n
  | some m =>
    cases offset with
    | none => simpa [pageClause, pageTokens] using hlimit m
    | some n =>
      have hboth := tokens?_sep (hlimit m) separates_space (hoffset n)
      simpa [pageClause, pageTokens] using hboth

/-! ## Texts of the statements -/

theorem appended_eq {clause : String} (h : clause ≠ "") : appended clause = " " ++ clause := by
  simp [appended, h]

/-- A clause stands behind what is written before it. -/
theorem within_appended {s clause : String} {ts us : List Token} (hs : tokens? s = some ts)
    (hne : clause ≠ "") : Within clause us (s ++ appended clause) (ts ++ us) := by
  have hright : Within clause us (s ++ " " ++ clause) (ts ++ [] ++ us) :=
    within_right hs separates_space
  rwa [List.append_nil, String.append_assoc, ← appended_eq hne] at hright

/-- What is written before a clause keeps its tokens. -/
theorem within_before {s clause : String} {ts us : List Token} (hc : tokens? clause = some us) :
    Within s ts (s ++ appended clause) (ts ++ us) := by
  by_cases hne : clause = ""
  · subst hne
    obtain rfl : [] = us := Option.some.inj hc
    simpa [appended] using Within.refl s ts
  · have hleft : Within s ts (s ++ " " ++ clause) (ts ++ [] ++ us) :=
      within_left separates_space hc
    rwa [List.append_nil, String.append_assoc, ← appended_eq hne] at hleft

/-- The statement on a table, whether or not the names are accepted. -/
def text (q : Query) (table : String) : String :=
  "SELECT * FROM " ++ quotedName table ++ appended (filterClause q.filters).1 ++
    appended (orderClause q.order) ++ appended (pageClause q.limit q.offset)

/-- The names that a query has checked: the table, the plain fields of the filters from left to
right, and the fields of the ordering. -/
def names (q : Query) (table : String) : List String :=
  table :: (plainFields (Filter.leavesAll q.filters) ++ q.order.map Prod.fst)

/-- A statement is its text behind the check of its names. -/
theorem select_eq (q : Query) (table : String) : q.select table = do
    forM (q.names table) checkName
    return (q.text table, q.clauses.values) := by
  rw [select, names, List.forM_cons, List.forM_append, ← checkAllFields_eq_forM,
    ← checkOrder_eq_forM]
  unfold Identifier.check
  split
  · rename_i hname
    rw [checkName_eq_ok_iff.2 hname]
    simp only [bind, Except.bind]
    cases checkAllFields q.filters with
    | error fault => rfl
    | ok u => cases checkOrder q.order <;> rfl
  · rename_i fault hname
    rw [checkName_eq_error_iff.2 hname]
    rfl

theorem select_eq_ok_iff {q : Query} {table sql : String} {values : List Json} :
    q.select table = .ok (sql, values) ↔ (∀ n ∈ q.names table, nameFault? n = none) ∧
      sql = q.text table ∧ values = q.clauses.values := by
  have hnames : forM (q.names table) checkName = .ok () ↔
      ∀ n ∈ q.names table, nameFault? n = none := by
    simp only [forM_eq_ok_iff, checkName_eq_ok_iff]
  rw [select_eq, ← hnames]
  cases forM (q.names table) checkName with
  | error fault => simp [bind, Except.bind]
  | ok u => simp [bind, Except.bind, pure, Except.pure, eq_comm]

theorem select_eq_error_iff {q : Query} {table : String} {fault : NameFault} :
    q.select table = .error fault ↔ ∃ before name behind, q.names table = before ++ name :: behind ∧
      (∀ n ∈ before, nameFault? n = none) ∧ nameFault? name = some fault := by
  have hnames : q.select table = .error fault ↔ forM (q.names table) checkName = .error fault := by
    rw [select_eq]
    cases forM (q.names table) checkName <;> simp [bind, Except.bind, pure, Except.pure]
  simp only [hnames, forM_eq_error_iff, checkName_eq_ok_iff, checkName_eq_error_iff]

/-- What is known where a statement is given. -/
theorem of_select_eq_ok {q : Query} {table sql : String} {values : List Json}
    (h : q.select table = .ok (sql, values)) :
    (∀ l ∈ Filter.leavesAll q.filters, l.Plain) ∧ (∀ i ∈ q.order, nameFault? i.1 = none) ∧
      sql = q.text table ∧ values = boundValues (Filter.leavesAll q.filters) := by
  obtain ⟨hnames, hsql, hvalues⟩ := select_eq_ok_iff.1 h
  obtain ⟨hfields, horder⟩ := List.forall_mem_append.1 (List.forall_mem_cons.1 hnames).2
  refine ⟨Leaf.plain_of_mem hfields, ?_, hsql, hvalues.trans (filterClause_values q.filters)⟩
  intro i hi
  exact horder i.1 (List.mem_map_of_mem hi)

theorem closed_select : Closed "SELECT * FROM " [.word "SELECT", .operator "*", .word "FROM"] := rfl

theorem tokens?_text {q : Query} (table : String)
    (hn : (boundValues (Filter.leavesAll q.filters)).length < maxParameter)
    (hfields : ∀ l ∈ Filter.leavesAll q.filters, l.Plain)
    (horder : ∀ i ∈ q.order, nameFault? i.1 = none) :
    tokens? (q.text table) = some (q.tokens table) := by
  have htable := tokens?_closed_append closed_select (tokens?_quotedName table)
  have hfilter := (within_before (tokens?_filterClause hn hfields)).tokens? htable
  have hordered := (within_before (tokens?_orderClause horder)).tokens? hfilter
  exact (within_before (tokens?_pageClause q.limit q.offset)).tokens? hordered

/-- **A statement is read as its tokens.** Whatever the filters, the table, the columns, the keys,
the values and the numbers are, none of them reaches beyond the token that is made for it. -/
theorem tokens?_select {q : Query} {table sql : String} {values : List Json}
    (h : q.select table = .ok (sql, values)) (small : values.length < maxParameter) :
    tokens? sql = some (q.tokens table) := by
  obtain ⟨hfields, horder, rfl, rfl⟩ := of_select_eq_ok h
  exact tokens?_text table small hfields horder

/-- A query with quotes and a parameter's name in what the caller gave. -/
def quotingQuery : Query where
  filters := [.not (.group .or [.condition ⟨"name", .eq, some (.str "' OR 1=1 --")⟩,
    .hstore (.compare "at\"trs" "it's $1" .gt "7")])]
  order := [("rank", .desc)]
  limit := some (-1)

theorem quotingQuery_select : quotingQuery.select "items" =
    .ok ("SELECT * FROM \"items\" WHERE NOT ((name = $1 OR \"at\"\"trs\" -> 'it''s $1' > $2)) " ++
      "ORDER BY rank DESC LIMIT -1", [.str "' OR 1=1 --", .str "7"]) := by
  rfl

theorem tokens?_select_quotingQuery : ∃ sql values,
    quotingQuery.select "items" = .ok (sql, values) ∧ values.length < maxParameter ∧
    tokens? sql = some [.word "SELECT", .operator "*", .word "FROM",
      .name "items", .word "WHERE", .word "NOT", .punctuation "(", .punctuation "(", .word "name",
      .operator "=", .parameter 1, .word "OR", .name "at\"trs", .operator "->", .literal "it's $1",
      .operator ">", .parameter 2, .punctuation ")", .punctuation ")", .word "ORDER", .word "BY",
      .word "rank", .word "DESC", .word "LIMIT", .operator "-", .integer 1] :=
  ⟨_, _, quotingQuery_select, by decide, tokens?_select quotingQuery_select (by decide)⟩

end Query

end HstoreKit.Sql
