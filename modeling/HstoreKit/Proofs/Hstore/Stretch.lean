import HstoreKit.Hstore.Scan

/-!
# Reading in stretches

The scanner is run over a whole text, and what it does to a part of the text is what matters:

* `completed` and `after`: the pairs that end within a stretch, and the state behind it;
* `run_append`: a text is read stretch by stretch;
* `Leads`: a stretch that ends no pair, from one state to the next;
* `trim_eq_self`: a text that neither begins nor ends with a blank is read as it stands.
-/

namespace HstoreKit.Scan

/-! ## One symbol -/

namespace State

variable {α : Type} {sign : α → Sign} {s : State α} {a : α}

/-- An escaped symbol belongs to the half that is being read, whatever its sign. -/
theorem step_escaped (he : s.escaping = true) :
    s.step sign a = (none, { s with escaping := false }.put a) := by
  simp [step, he]

theorem step_escape (he : s.escaping = false) (ha : sign a = .escape) :
    s.step sign a = (none, { s with escaping := true }) := by
  simp [step, he, ha]

theorem step_open (he : s.escaping = false) (hq : s.quoted = false) (ha : sign a = .quote) :
    s.step sign a = (none, { s with quoted := true }) := by
  simp [step, he, hq, ha]

theorem step_close (he : s.escaping = false) (hq : s.quoted = true) (ha : sign a = .quote) :
    s.step sign a = (none, { s with quoted := false, closed := true }) := by
  simp [step, he, hq, ha]

/-- Inside quotes only the escape and the quote itself are more than a symbol. -/
theorem step_enclosed (he : s.escaping = false) (hq : s.quoted = true) (ha : sign a ≠ .escape)
    (hn : sign a ≠ .quote) : s.step sign a = (none, s.put a) := by
  cases h : sign a with
  | escape => exact absurd h ha
  | quote => exact absurd h hn
  | noise | arrow | comma | plain => simp [step, he, hq, h]

theorem step_noise (he : s.escaping = false) (hq : s.quoted = false) (ha : sign a = .noise) :
    s.step sign a = (none, s) := by
  simp [step, he, hq, ha]

theorem step_arrow (he : s.escaping = false) (hq : s.quoted = false) (ha : sign a = .arrow) :
    s.step sign a = (none, { s with half := .value, closed := false }) := by
  simp [step, he, hq, ha]

theorem step_comma (he : s.escaping = false) (hq : s.quoted = false) (ha : sign a = .comma) :
    s.step sign a = s.commit := by
  simp [step, he, hq, ha]

theorem step_plain (he : s.escaping = false) (hq : s.quoted = false) (ha : sign a = .plain) :
    s.step sign a = (none, s.put a) := by
  simp [step, he, hq, ha]

/-- A plain symbol is taken as it is in every state. -/
theorem step_of_plain (ha : sign a = .plain) :
    s.step sign a = (none, { s with escaping := false }.put a) := by
  cases he : s.escaping with
  | true => exact step_escaped he
  | false =>
    have hs : { s with escaping := false } = s := by rw [← he]
    rw [hs]
    cases hq : s.quoted with
    | true => exact step_enclosed he hq (by simp [ha]) (by simp [ha])
    | false => exact step_plain he hq ha

@[simp] theorem put_escaping : (s.put a).escaping = s.escaping := by
  unfold put; split <;> rfl

@[simp] theorem put_quoted : (s.put a).quoted = s.quoted := by
  unfold put; split <;> rfl

@[simp] theorem put_closed : (s.put a).closed = s.closed := by
  unfold put; split <;> rfl

@[simp] theorem put_half : (s.put a).half = s.half := by
  unfold put; split <;> rfl

/-! ## A stretch -/

/-- The pairs that are completed within a stretch. -/
def completed (sign : α → Sign) : State α → List α → List (RawPair α)
  | _, [] => []
  | s, a :: as => (s.step sign a).1.toList ++ completed sign (s.step sign a).2 as

/-- The state behind a stretch. -/
def after (sign : α → Sign) (s : State α) (l : List α) : State α :=
  l.foldl (fun s a => (s.step sign a).2) s

@[simp] theorem after_nil : s.after sign [] = s := rfl

@[simp] theorem after_cons {as : List α} :
    s.after sign (a :: as) = (s.step sign a).2.after sign as := rfl

/-- A text is read stretch by stretch: the state between two stretches is all that the second one
knows of the first. -/
theorem run_append (s : State α) (l m : List α) :
    run sign s (l ++ m) = s.completed sign l ++ run sign (s.after sign l) m := by
  induction l generalizing s with
  | nil => rfl
  | cons a as ih => simp [run, completed, ih]

/-- A stretch that leads from one state to another and completes no pair. -/
def Leads (sign : α → Sign) (s : State α) (l : List α) (t : State α) : Prop :=
  s.completed sign l = [] ∧ s.after sign l = t

theorem Leads.nil (s : State α) : Leads sign s [] s :=
  ⟨rfl, rfl⟩

theorem Leads.cons {t u : State α} {as : List α} (h : s.step sign a = (none, t))
    (hs : Leads sign t as u) : Leads sign s (a :: as) u := by
  obtain ⟨hc, ha⟩ := hs
  exact ⟨by simp [completed, h, hc], by simp [h, ha]⟩

theorem Leads.single {t : State α} (h : s.step sign a = (none, t)) : Leads sign s [a] t :=
  .cons h (.nil t)

theorem Leads.append {t u : State α} {l m : List α} (hl : Leads sign s l t)
    (hm : Leads sign t m u) : Leads sign s (l ++ m) u := by
  induction l generalizing s with
  | nil =>
    obtain ⟨-, rfl⟩ := hl
    exact hm
  | cons a as ih =>
    obtain ⟨hc, ha⟩ := hl
    obtain ⟨hn, hc⟩ := List.append_eq_nil_iff.1 hc
    have hnext : s.step sign a = (none, (s.step sign a).2) :=
      Prod.ext (Option.toList_eq_nil_iff.1 hn) rfl
    exact .cons hnext (ih ⟨hc, ha⟩)

/-- Behind such a stretch the text is read on as if it began there. -/
theorem Leads.run_append {t : State α} {l : List α} (h : Leads sign s l t) (m : List α) :
    run sign s (l ++ m) = run sign t m := by
  rw [State.run_append, h.1, h.2, List.nil_append]

/-- Behind an escape every symbol is taken as it is, and the state is otherwise what it was. -/
theorem leads_protected {b : α} (he : s.escaping = false) (ha : sign a = .escape) :
    Leads sign s [a, b] (s.put b) := by
  obtain ⟨escaping, quoted, closed, half, key, value⟩ := s
  obtain rfl : escaping = false := he
  exact .cons (step_escape rfl ha) (.single (step_escaped rfl))

/-- Noise before an arrow is passed over; the arrow sends what follows to the value. -/
theorem leads_arrow {b : α} (he : s.escaping = false) (hq : s.quoted = false)
    (ha : sign a = .noise) (hb : sign b = .arrow) :
    Leads sign s [a, b] { s with half := .value, closed := false } :=
  .cons (step_noise he hq ha) (.single (step_arrow he hq hb))

/-! ## Several symbols for one half -/

/-- Adds symbols to the half that is being read. -/
def putAll (s : State α) (l : List α) : State α :=
  l.foldl put s

@[simp] theorem putAll_nil : s.putAll [] = s := rfl

@[simp] theorem putAll_cons {l : List α} : s.putAll (a :: l) = (s.put a).putAll l := rfl

theorem putAll_append {l m : List α} : s.putAll (l ++ m) = (s.putAll l).putAll m :=
  List.foldl_append

@[simp] theorem putAll_escaping {l : List α} : (s.putAll l).escaping = s.escaping := by
  induction l generalizing s with
  | nil => rfl
  | cons a l ih => rw [putAll_cons, ih, put_escaping]

@[simp] theorem putAll_quoted {l : List α} : (s.putAll l).quoted = s.quoted := by
  induction l generalizing s with
  | nil => rfl
  | cons a l ih => rw [putAll_cons, ih, put_quoted]

theorem putAll_key {l : List α} (h : s.half = .key) :
    s.putAll l = { s with key := s.key ++ l } := by
  induction l generalizing s with
  | nil => simp
  | cons a l ih =>
    have hp : s.put a = { s with key := s.key.push a } := by simp only [put, h]
    rw [putAll_cons, ih (by rw [put_half, h]), hp]
    simp

theorem putAll_value {l : List α} (h : s.half = .value) :
    s.putAll l = { s with value := s.value ++ l } := by
  induction l generalizing s with
  | nil => simp
  | cons a l ih =>
    have hp : s.put a = { s with value := s.value.push a } := by simp only [put, h]
    rw [putAll_cons, ih (by rw [put_half, h]), hp]
    simp

theorem put_with_quoted {q : Bool} :
    ({ s with quoted := q } : State α).put a = { s.put a with quoted := q } := by
  cases h : s.half <;> simp [put, h]

theorem putAll_with_quoted {l : List α} {q : Bool} :
    ({ s with quoted := q } : State α).putAll l = { s.putAll l with quoted := q } := by
  induction l generalizing s with
  | nil => rfl
  | cons a l ih => rw [putAll_cons, putAll_cons, put_with_quoted, ih]

/-- Inside quotes, symbols that are neither escapes nor quotes are taken as they are. -/
theorem leads_enclosed {l : List α} (he : s.escaping = false) (hq : s.quoted = true)
    (hl : ∀ a ∈ l, sign a ≠ .escape ∧ sign a ≠ .quote) : Leads sign s l (s.putAll l) := by
  induction l generalizing s with
  | nil => exact .nil s
  | cons a l ih =>
    have ha := hl a List.mem_cons_self
    have hrest := ih (s := s.put a) (by simp [he]) (by simp [hq])
      fun b hb => hl b (List.mem_cons_of_mem _ hb)
    exact .cons (step_enclosed he hq ha.1 ha.2) hrest

/-- Symbols without a meaning of their own are taken as they are, in quotes and outside. -/
theorem leads_plain {l : List α} (he : s.escaping = false) (hl : ∀ a ∈ l, sign a = .plain) :
    Leads sign s l (s.putAll l) := by
  induction l generalizing s with
  | nil => exact .nil s
  | cons a l ih =>
    have hs : { s with escaping := false } = s := by rw [← he]
    have hstep : s.step sign a = (none, s.put a) := by
      rw [step_of_plain (hl a List.mem_cons_self), hs]
    have hrest := ih (s := s.put a) (by simp [he]) fun b hb => hl b (List.mem_cons_of_mem _ hb)
    exact .cons hstep hrest

/-- If an escape is pending it is spent on the first of them. -/
theorem leads_cons_of_plain {l : List α} (hl : ∀ b ∈ a :: l, sign b = .plain) :
    Leads sign s (a :: l) ({ s with escaping := false }.putAll (a :: l)) := by
  have hrest : Leads sign ({ s with escaping := false }.put a) l
      (({ s with escaping := false }.put a).putAll l) := by
    apply leads_plain (by simp)
    intro b hb
    exact hl b (List.mem_cons_of_mem a hb)
  exact .cons (step_of_plain (hl a List.mem_cons_self)) hrest

/-! ## Between two pairs -/

/-- Nothing of the next pair has been read. Whether a quote has closed may be left over from the
pair before. -/
structure Fresh (s : State α) : Prop where
  escaping : s.escaping = false
  quoted : s.quoted = false
  half : s.half = .key
  key : s.key = #[]
  value : s.value = #[]

theorem fresh_initial : Fresh ({} : State α) :=
  ⟨rfl, rfl, rfl, rfl, rfl⟩

theorem Fresh.eq (h : Fresh s) : s = { closed := s.closed } := by
  obtain ⟨escaping, quoted, closed, half, key, value⟩ := s
  obtain ⟨rfl, rfl, rfl, rfl, rfl⟩ := h
  rfl

theorem fresh_commit (he : s.escaping = false) (hq : s.quoted = false) : Fresh s.commit.2 := by
  unfold commit
  split <;> exact ⟨he, hq, rfl, rfl, rfl⟩

/-- The state in which a pair with an arrow has been read whole. -/
def ofPair (p : RawPair α) : State α :=
  { half := .value, key := p.key.toArray, value := p.value.toArray, closed := p.closed }

@[simp] theorem commit_ofPair (p : RawPair α) : (ofPair p).commit.1 = some p := by
  simp [commit, ofPair]

theorem fresh_commit_ofPair (p : RawPair α) : Fresh (ofPair p).commit.2 :=
  fresh_commit rfl rfl

/-- Stretches that hold one whole pair each, with a comma between them and anything behind them. -/
theorem run_intercalate_append {ι : Type} {text : ι → List α} {raw : ι → RawPair α} {c : α}
    (hc : sign c = .comma) (h : ∀ i, ∀ t, Fresh t → Leads sign t (text i) (ofPair (raw i)))
    (hs : Fresh s) (is : List ι) (i : ι) (m : List α) :
    run sign s ([c].intercalate ((is ++ [i]).map text) ++ m) =
      is.map raw ++ run sign (ofPair (raw i)) m := by
  -- behind every comma the scanner is fresh, but for a quote that may have closed before
  induction is generalizing s with
  | nil =>
    rw [List.nil_append, List.map_singleton, List.intercalate_singleton]
    exact (h i s hs).run_append m
  | cons j is ih =>
    have hcomma : (ofPair (raw j)).step sign c = (ofPair (raw j)).commit := step_comma rfl rfl hc
    have hrest := ih (fresh_commit_ofPair (raw j))
    rw [List.cons_append, List.map_cons, List.intercalate_cons_of_ne_nil (by simp),
      List.append_assoc, List.append_assoc, (h j s hs).run_append, List.singleton_append, run,
      hcomma, commit_ofPair, hrest]
    rfl

end State

/-! ## The ends of a text -/

theorem dropWhile_eq_self {α : Type} {p : α → Bool} {l : List α}
    (h : ∀ a ∈ l.head?, p a = false) : l.dropWhile p = l := by
  cases l with
  | nil => rfl
  | cons a l => exact List.dropWhile_cons_of_neg (by simp [h a rfl])

/-- A text that neither begins nor ends with a blank is not trimmed. -/
theorem trim_eq_self {α : Type} {blank : α → Bool} {l : List α}
    (hfront : ∀ a ∈ l.head?, blank a = false) (hback : ∀ a ∈ l.getLast?, blank a = false) :
    trim blank l = l := by
  have hrev : l.reverse.dropWhile blank = l.reverse :=
    dropWhile_eq_self (by rwa [List.head?_reverse])
  rw [trim, dropWhile_eq_self hfront, hrev, List.reverse_reverse]

end HstoreKit.Scan
