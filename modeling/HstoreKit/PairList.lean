/-!
# Lists of pairs in key order

Association lists whose keys ascend strictly, in the order of code points. `insert`, `erase` and
`ofList` keep the order, and look-up after each is what a finite map gives: the last write wins.
-/

namespace HstoreKit.PairList

variable {β : Type}

/-- The keys ascend strictly, so none is repeated. -/
def Ascending (l : List (String × β)) : Prop :=
  l.Pairwise fun a b => a.1 < b.1

/-- Writes `v` at `k`, in place of what stood there. -/
def insert (k : String) (v : β) : List (String × β) → List (String × β)
  | [] => [(k, v)]
  | p :: l =>
    if k < p.1 then (k, v) :: p :: l
    else if k = p.1 then (k, v) :: l
    else p :: insert k v l

/-- Removes `k`. -/
def erase (k : String) (l : List (String × β)) : List (String × β) :=
  l.filter fun p => p.1 ≠ k

/-- The value at `k`. -/
def find? (k : String) (l : List (String × β)) : Option β :=
  (l.find? fun p => p.1 = k).map Prod.snd

/-- Writes pairs one after the other. -/
def insertAll (l : List (String × β)) (ps : List (String × β)) : List (String × β) :=
  ps.foldl (fun l p => insert p.1 p.2 l) l

/-- The pairs in key order; of a repeated key the last pair stays. -/
def ofList (ps : List (String × β)) : List (String × β) :=
  insertAll [] ps

/-! ## order -/

theorem fst_mem_insert {k : String} {v : β} {l : List (String × β)} {p : String × β}
    (h : p ∈ insert k v l) : p = (k, v) ∨ p ∈ l := by
  induction l with
  | nil => simpa [insert] using h
  | cons q l ih =>
    rw [insert] at h
    split at h
    · simpa using h
    · split at h
      · rcases List.mem_cons.1 h with h | h
        · exact .inl h
        · exact .inr (List.mem_cons_of_mem _ h)
      · rcases List.mem_cons.1 h with h | h
        · exact .inr (h ▸ List.mem_cons_self)
        · exact (ih h).imp_right (List.mem_cons_of_mem _)

theorem ascending_insert {k : String} {v : β} {l : List (String × β)} (h : Ascending l) :
    Ascending (insert k v l) := by
  induction l with
  | nil => simp [insert, Ascending]
  | cons q l ih =>
    obtain ⟨hq, hl⟩ := List.pairwise_cons.1 h
    rw [insert]
    split
    · rename_i hk
      refine List.pairwise_cons.2 ⟨?_, h⟩
      intro p hp
      rcases List.mem_cons.1 hp with rfl | hp
      · exact hk
      · exact String.lt_trans hk (hq p hp)
    · rename_i hk
      split
      · rename_i he
        exact List.pairwise_cons.2 ⟨fun p hp => by simpa [he] using hq p hp, hl⟩
      · rename_i he
        refine List.pairwise_cons.2 ⟨fun p hp => ?_, ih hl⟩
        rcases fst_mem_insert hp with rfl | hp
        · exact Std.lt_of_le_of_ne (String.not_lt.1 hk) (Ne.symm he)
        · exact hq p hp

theorem ascending_erase {k : String} {l : List (String × β)} (h : Ascending l) :
    Ascending (erase k l) :=
  List.Pairwise.filter _ h

theorem ascending_insertAll {l ps : List (String × β)} (h : Ascending l) :
    Ascending (insertAll l ps) := by
  induction ps generalizing l with
  | nil => exact h
  | cons p ps ih => exact ih (ascending_insert h)

theorem ascending_ofList (ps : List (String × β)) : Ascending (ofList ps) :=
  ascending_insertAll List.Pairwise.nil

/-- A key behind all others is written at the end. -/
theorem insert_eq_append {k : String} {v : β} {l : List (String × β)} (h : ∀ p ∈ l, p.1 < k) :
    insert k v l = l ++ [(k, v)] := by
  induction l with
  | nil => rfl
  | cons p l ih =>
    have hp := h p List.mem_cons_self
    have hne : k ≠ p.1 := fun he => String.lt_irrefl k (he ▸ hp)
    rw [insert, if_neg (String.lt_asymm hp), if_neg hne,
      ih fun q hq => h q (List.mem_cons_of_mem _ hq)]
    rfl

/-- Pairs that go on in key order are written one behind the other. -/
theorem insertAll_eq_append {l ps : List (String × β)} (h : Ascending (l ++ ps)) :
    insertAll l ps = l ++ ps := by
  induction ps generalizing l with
  | nil => exact (List.append_nil l).symm
  | cons p ps ih =>
    have hp : ∀ q ∈ l, q.1 < p.1 := fun q hq =>
      (List.pairwise_append.1 h).2.2 q hq p List.mem_cons_self
    have hnext : insert p.1 p.2 l = l ++ [p] := insert_eq_append hp
    have hstep : insertAll l (p :: ps) = insertAll (insert p.1 p.2 l) ps := rfl
    rw [hstep, hnext, ih (by rwa [List.append_assoc]), List.append_assoc]
    rfl

/-- A list in key order is what its pairs make. -/
theorem ofList_eq_self {l : List (String × β)} (h : Ascending l) : ofList l = l :=
  insertAll_eq_append h

/-! ## other values -/

theorem insert_map {γ : Type} (f : β → γ) (k : String) (v : β) (l : List (String × β)) :
    insert k (f v) (l.map fun p => (p.1, f p.2)) = (insert k v l).map fun p => (p.1, f p.2) := by
  induction l with
  | nil => rfl
  | cons p l ih =>
    rw [List.map_cons, insert, insert]
    split
    · rfl
    · split
      · rfl
      · rw [ih, List.map_cons]

theorem insertAll_map {γ : Type} (f : β → γ) (l ps : List (String × β)) :
    insertAll (l.map fun p => (p.1, f p.2)) (ps.map fun p => (p.1, f p.2)) =
      (insertAll l ps).map fun p => (p.1, f p.2) := by
  induction ps generalizing l with
  | nil => rfl
  | cons p ps ih =>
    have hstep : insertAll l (p :: ps) = insertAll (insert p.1 p.2 l) ps := rfl
    rw [hstep, ← ih, ← insert_map]
    rfl

/-- It does not matter whether the values are changed before the pairs are written or after. -/
theorem ofList_map {γ : Type} (f : β → γ) (ps : List (String × β)) :
    ofList (ps.map fun p => (p.1, f p.2)) = (ofList ps).map fun p => (p.1, f p.2) :=
  insertAll_map f [] ps

/-! ## what is written -/

theorem mem_insertAll {l ps : List (String × β)} {p : String × β} (h : p ∈ insertAll l ps) :
    p ∈ l ∨ p ∈ ps := by
  induction ps generalizing l with
  | nil => exact .inl h
  | cons q ps ih =>
    rcases ih h with h | h
    · rcases fst_mem_insert h with rfl | h
      · exact .inr List.mem_cons_self
      · exact .inl h
    · exact .inr (List.mem_cons_of_mem q h)

/-! ## look-up -/

@[simp] theorem find?_nil {k : String} : find? k ([] : List (String × β)) = none := rfl

theorem find?_cons {k : String} {p : String × β} {l : List (String × β)} :
    find? k (p :: l) = if p.1 = k then some p.2 else find? k l := by
  by_cases h : p.1 = k <;> simp [find?, h]

/-- A key before the first one is not there. -/
theorem find?_eq_none_of_lt {k : String} {l : List (String × β)} (h : ∀ p ∈ l, k < p.1) :
    find? k l = none := by
  induction l with
  | nil => rfl
  | cons p l ih =>
    have hp : p.1 ≠ k := fun he => String.lt_irrefl k (he ▸ h p List.mem_cons_self)
    rw [find?_cons, if_neg hp]
    exact ih fun q hq => h q (List.mem_cons_of_mem _ hq)

/-- After a write the key has the written value, and every other key what it had. -/
theorem find?_insert {k : String} {v : β} {l : List (String × β)} (i : String) :
    find? i (insert k v l) = if k = i then some v else find? i l := by
  induction l with
  | nil => simp [insert, find?_cons]
  | cons p l ih =>
    rw [insert]
    split
    · rw [find?_cons]
    · split
      · rename_i he
        subst he
        by_cases h : p.1 = i <;> simp [find?_cons, h]
      · rename_i he
        by_cases h : p.1 = i
        · subst h
          simp [find?_cons, he]
        · simp [find?_cons, h, ih]

theorem find?_append {k : String} {l m : List (String × β)} :
    find? k (l ++ m) = (find? k l).or (find? k m) := by
  induction l with
  | nil => rfl
  | cons p l ih =>
    rw [List.cons_append, find?_cons, find?_cons, ih]
    by_cases h : p.1 = k
    · rw [if_pos h, if_pos h]
      rfl
    · rw [if_neg h, if_neg h]

/-- After writing pairs a key has the value of its last pair, and what it had where it has none. -/
theorem find?_insertAll {l ps : List (String × β)} (i : String) :
    find? i (insertAll l ps) = (find? i ps.reverse).or (find? i l) := by
  induction ps generalizing l with
  | nil => rfl
  | cons p ps ih =>
    have hstep : insertAll l (p :: ps) = insertAll (insert p.1 p.2 l) ps := rfl
    rw [hstep, ih, find?_insert, List.reverse_cons, find?_append, Option.or_assoc, find?_cons]
    by_cases h : p.1 = i
    · rw [if_pos h, if_pos h]
      rfl
    · rw [if_neg h, if_neg h]
      rfl

theorem find?_erase {k : String} {l : List (String × β)} (i : String) :
    find? i (erase k l) = if k = i then none else find? i l := by
  induction l with
  | nil => simp [erase]
  | cons p l ih =>
    by_cases hk : p.1 = k
    · have : erase k (p :: l) = erase k l := by simp [erase, hk]
      rw [this, ih, find?_cons, hk]
      split <;> rfl
    · have : erase k (p :: l) = p :: erase k l := by simp [erase, hk]
      rw [this, find?_cons, ih, find?_cons]
      by_cases hi : p.1 = i
      · have : k ≠ i := fun h => hk (hi.trans h.symm)
        simp [hi, this]
      · simp [hi]

theorem mem_of_find?_eq_some {k : String} {v : β} {l : List (String × β)}
    (h : find? k l = some v) : (k, v) ∈ l := by
  induction l with
  | nil => cases h
  | cons p l ih =>
    rw [find?_cons] at h
    split at h
    · rename_i hp
      obtain rfl := Option.some.inj h
      rw [← hp]
      exact List.mem_cons_self
    · exact List.mem_cons_of_mem p (ih h)

theorem find?_eq_none_of_not_mem {k : String} {l : List (String × β)}
    (h : k ∉ l.map Prod.fst) : find? k l = none := by
  cases hvalue : find? k l with
  | none => rfl
  | some v => exact absurd (List.mem_map_of_mem (mem_of_find?_eq_some hvalue)) h

/-- In a list in key order a pair stands for what its key has. -/
theorem find?_eq_some_of_mem {p : String × β} {l : List (String × β)} (hl : Ascending l)
    (h : p ∈ l) : find? p.1 l = some p.2 := by
  induction l with
  | nil => cases h
  | cons q l ih =>
    obtain ⟨hq, hl⟩ := List.pairwise_cons.1 hl
    rw [find?_cons]
    rcases List.mem_cons.1 h with rfl | h
    · exact if_pos rfl
    · have hne : q.1 ≠ p.1 := fun he => String.lt_irrefl p.1 (he ▸ hq p h)
      rw [if_neg hne, ih hl h]

/-- A key has the value of its first pair. -/
theorem find?_eq_some_iff {k : String} {v : β} {l : List (String × β)} :
    find? k l = some v ↔
      ∃ before behind, l = before ++ (k, v) :: behind ∧ k ∉ before.map Prod.fst := by
  constructor
  · intro h
    obtain ⟨⟨i, w⟩, hfind, rfl⟩ := Option.map_eq_some_iff.1 h
    obtain ⟨hi, before, behind, rfl, hbefore⟩ := List.find?_eq_some_iff_append.1 hfind
    obtain rfl := of_decide_eq_true hi
    refine ⟨before, behind, rfl, ?_⟩
    intro hmem
    obtain ⟨q, hq, hkey⟩ := List.mem_map.1 hmem
    have hother := hbefore q hq
    rw [hkey] at hother
    simp at hother
  · rintro ⟨before, behind, rfl, hbefore⟩
    rw [find?_append, find?_eq_none_of_not_mem hbefore, Option.none_or, find?_cons, if_pos rfl]

/-- Of the pairs those stay whose key does not recur behind them. -/
theorem mem_ofList_iff {p : String × β} {ps : List (String × β)} :
    p ∈ ofList ps ↔ ∃ before behind, ps = before ++ p :: behind ∧ p.1 ∉ behind.map Prod.fst := by
  have hvalue : p ∈ ofList ps ↔ find? p.1 ps.reverse = some p.2 := by
    have hfind : find? p.1 (ofList ps) = find? p.1 ps.reverse := by
      rw [ofList, find?_insertAll, find?_nil, Option.or_none]
    rw [← hfind]
    exact ⟨find?_eq_some_of_mem (ascending_ofList ps), mem_of_find?_eq_some⟩
  rw [hvalue, find?_eq_some_iff]
  constructor
  · rintro ⟨behind, before, hps, hbehind⟩
    refine ⟨before.reverse, behind.reverse, ?_, ?_⟩
    · rw [← List.reverse_reverse ps, hps]
      simp
    · rwa [List.map_reverse, List.mem_reverse]
  · rintro ⟨before, behind, rfl, hbehind⟩
    refine ⟨behind.reverse, before.reverse, ?_, ?_⟩
    · simp
    · rwa [List.map_reverse, List.mem_reverse]

/-- Lists in key order are equal when they hold the same value at every key. -/
theorem eq_of_find?_eq {l m : List (String × β)} (hl : Ascending l) (hm : Ascending m)
    (h : ∀ k, find? k l = find? k m) : l = m := by
  induction l generalizing m with
  | nil =>
    cases m with
    | nil => rfl
    | cons q m => simpa [find?_cons] using h q.1
  | cons p l ih =>
    obtain ⟨hp, hl⟩ := List.pairwise_cons.1 hl
    cases m with
    | nil => simpa [find?_cons] using h p.1
    | cons q m =>
      obtain ⟨hq, hm'⟩ := List.pairwise_cons.1 hm
      have hkey : p.1 = q.1 := by
        refine Decidable.byContradiction fun hne => ?_
        by_cases hlt : p.1 < q.1
        · have h1 := h p.1
          rw [find?_cons, if_pos rfl, find?_cons, if_neg (Ne.symm hne),
            find?_eq_none_of_lt fun r hr => String.lt_trans hlt (hq r hr)] at h1
          exact Option.some_ne_none _ h1
        · have hlt := Std.lt_of_le_of_ne (String.not_lt.1 hlt) (Ne.symm hne)
          have h1 := h q.1
          rw [find?_cons, if_neg hne, find?_cons, if_pos rfl,
            find?_eq_none_of_lt fun r hr => String.lt_trans hlt (hp r hr)] at h1
          exact Option.some_ne_none _ h1.symm
      have hval : p.2 = q.2 := by
        have h1 := h p.1
        rw [find?_cons, if_pos rfl, find?_cons, if_pos hkey.symm] at h1
        exact Option.some.inj h1
      have hpq : p = q := Prod.ext hkey hval
      subst hpq
      refine congrArg (p :: ·) (ih hl hm' fun k => ?_)
      have h1 := h k
      rw [find?_cons, find?_cons] at h1
      by_cases hk : p.1 = k
      · subst hk
        rw [find?_eq_none_of_lt hp, find?_eq_none_of_lt hq]
      · rwa [if_neg hk, if_neg hk] at h1
end HstoreKit.PairList
