import HstoreKit.Proofs.Hstore.Characters
import HstoreKit.Proofs.Hstore.NullWord

/-!
# Text behind backslashes

Pairs that are written without quotes, every character of a key or value behind a backslash. The
scanner takes each of them as it is, but white space is trimmed from the end of a text before it is
scanned, and a backslash does not protect the last character from that.

* `run_backslashed`: what is read of the pairs, also where a backslash is left over at the end;
* `exists_toList_backslashedText`: the end of the text;
* `parse_backslashedText`: the pairs are read back, but for a blank at the very end.
-/

namespace HstoreKit.Hstore

open Scan Scan.State

/-- Every character behind a backslash. -/
def backslashed (s : String) : String :=
  String.ofList (s.toList.flatMap fun c => ['\\', c])

/-- A pair with its arrow, without quotes. -/
def backslashedPair (p : String × String) : String :=
  backslashed p.1 ++ "=>" ++ backslashed p.2

/-- Such pairs with commas between them. -/
def backslashedText (ps : List (String × String)) : String :=
  String.intercalate "," (ps.map backslashedPair)

/-! ## One pair -/

theorem toList_backslashed (s : String) :
    (backslashed s).toList = s.toList.flatMap fun c => ['\\', c] :=
  String.toList_ofList

theorem toList_backslashedPair (p : String × String) : (backslashedPair p).toList =
    (backslashed p.1).toList ++ ['=', '>'] ++ (backslashed p.2).toList := by
  simp [backslashedPair]

theorem leads_backslashed {s : State Char} (he : s.escaping = false) (cs : List Char) :
    Leads Sign.ofChar s (cs.flatMap fun c => ['\\', c]) (s.putAll cs) := by
  induction cs generalizing s with
  | nil => exact .nil s
  | cons c cs ih => exact (leads_protected he rfl).append (ih (by simp [he]))

/-- What is to be read from a pair. No quote closes in it. -/
def bareRaw (p : String × String) : RawPair Char :=
  ⟨p.1.toList, p.2.toList, false⟩

theorem leads_backslashedPair (p : String × String) {s : State Char} (hs : Fresh s) :
    Leads Sign.ofChar s (backslashedPair p).toList (State.ofPair (bareRaw p)) := by
  have hkey := leads_backslashed hs.escaping p.1.toList
  have harrow : Leads Sign.ofChar (s.putAll p.1.toList) ['=', '>']
      { s.putAll p.1.toList with half := .value, closed := false } :=
    leads_arrow (by simp [hs.escaping]) (by simp [hs.quoted]) rfl rfl
  have hhalf : { s.putAll p.1.toList with half := .value, closed := false } =
      State.ofPair ⟨p.1.toList, [], false⟩ := by
    rw [putAll_key hs.half, hs.eq]
    simp [State.ofPair]
  have hvalue := leads_backslashed (s := State.ofPair ⟨p.1.toList, [], false⟩) rfl p.2.toList
  rw [putAll_value rfl] at hvalue
  rw [hhalf] at harrow
  rw [toList_backslashedPair, toList_backslashed, toList_backslashed]
  simpa [State.ofPair, bareRaw] using (hkey.append harrow).append hvalue

/-! ## The whole text -/

theorem toList_backslashedText (ps : List (String × String)) : (backslashedText ps).toList =
    [','].intercalate (ps.map fun p => (backslashedPair p).toList) := by
  simp [backslashedText, Function.comp_def]

/-- A backslash that nothing follows leaves no trace. -/
theorem run_ofPair_backslash (raw : RawPair Char) :
    run Sign.ofChar (State.ofPair raw) ['\\'] = [raw] := by
  rw [run, step_escape rfl rfl]
  rfl

theorem run_backslashed (ps : List (String × String)) :
    run Sign.ofChar {} (backslashedText ps).toList = ps.map bareRaw ∧
      run Sign.ofChar {} ((backslashedText ps).toList ++ ['\\']) = ps.map bareRaw := by
  rcases List.eq_nil_or_concat ps with rfl | ⟨qs, p, rfl⟩
  · exact ⟨rfl, rfl⟩
  · have hcomma : Sign.ofChar ',' = .comma := rfl
    have hrun := run_intercalate_append hcomma (fun p t ht => leads_backslashedPair p ht)
      fresh_initial qs p
    rw [List.concat_eq_append, toList_backslashedText]
    constructor
    · rw [← List.append_nil (List.intercalate _ _), hrun, run, commit_ofPair, List.map_append]
      rfl
    · rw [hrun, run_ofPair_backslash, List.map_append]
      rfl

/-- A text of pairs begins with a backslash or an equals sign. -/
theorem head?_backslashedText (ps : List (String × String)) :
    ∀ c ∈ (backslashedText ps).toList.head?, isBlank c.toNat = false := by
  cases ps with
  | nil => simp [backslashedText]
  | cons p ps =>
    have hpair : ∃ c cs, (backslashedPair p).toList = c :: cs ∧ isBlank c.toNat = false := by
      rw [toList_backslashedPair, toList_backslashed]
      cases p.1.toList with
      | nil => exact ⟨'=', _, rfl, rfl⟩
      | cons c cs => exact ⟨'\\', _, rfl, rfl⟩
    obtain ⟨c, cs, hcs, hc⟩ := hpair
    rw [toList_backslashedText, List.map_cons, hcs]
    cases ps <;> simpa using hc

/-- Where the last value of a text stands. -/
theorem exists_toList_backslashedText (qs : List (String × String)) (key : String) :
    ∃ front, ∀ value, (backslashedText (qs ++ [(key, value)])).toList =
      front ++ '>' :: (backslashed value).toList := by
  cases qs with
  | nil =>
    refine ⟨(backslashed key).toList ++ ['='], fun value => ?_⟩
    simp [toList_backslashedText, toList_backslashedPair]
  | cons q qs =>
    refine ⟨(backslashedText (q :: qs)).toList ++ ',' :: (backslashed key).toList ++ ['='],
      fun value => ?_⟩
    have hjoin : backslashedText (q :: qs ++ [(key, value)]) =
        backslashedText (q :: qs) ++ "," ++ backslashedPair (key, value) := by
      rw [backslashedText, List.map_append, String.intercalate_append_of_ne_nil (by simp) (by simp),
        List.map_singleton, String.intercalate_singleton, backslashedText]
    rw [hjoin]
    simp [toList_backslashedPair]

/-- The last character of such a text is that of the last value, or the arrow. -/
theorem getLast?_backslashedText (ps : List (String × String)) :
    ∀ c ∈ (backslashedText ps).toList.getLast?,
      c = '>' ∨ ∃ p ∈ ps.getLast?, c ∈ p.2.toList.getLast? := by
  rcases List.eq_nil_or_concat ps with rfl | ⟨qs, ⟨key, value⟩, rfl⟩
  · simp [backslashedText]
  · obtain ⟨front, hfront⟩ := exists_toList_backslashedText qs key
    rw [List.concat_eq_append, hfront, toList_backslashed]
    rcases List.eq_nil_or_concat value.toList with hv | ⟨cs, c, hv⟩ <;>
      simp [hv, List.getLast?_cons]

/-- A blank behind text without blanks at its ends is trimmed alone. -/
theorem trim_concat {α : Type} {p : α → Bool} {l : List α} {a : α}
    (hfront : ∀ b ∈ (l ++ [a]).head?, p b = false) (hback : ∀ b ∈ l.getLast?, p b = false)
    (ha : p a = true) : trim p (l ++ [a]) = l := by
  have hl : l.reverse.dropWhile p = l.reverse := dropWhile_eq_self (by rwa [List.head?_reverse])
  rw [trim, dropWhile_eq_self hfront, List.reverse_append, List.reverse_singleton,
    List.singleton_append, List.dropWhile_cons_of_pos ha, hl, List.reverse_reverse]

/-- The pair that is read. Without quotes the word NULL is SQL NULL. -/
def readBack (p : String × String) : Pair :=
  (p.1, if p.2 ∈ nullSpellings then none else some p.2)

theorem toPair_bareRaw (p : String × String) :
    (bareRaw p).toPair String.ofList = readBack p := by
  simp [bareRaw, RawPair.toPair, readBack, isNullWord_iff_mem]

theorem map_readBack {ps : List (String × String)} (h : ∀ p ∈ ps, p.2 ∉ nullSpellings) :
    ps.map readBack = ps.map fun p => (p.1, some p.2) := by
  apply List.map_congr_left
  intro p hp
  rw [readBack, if_neg (h p hp)]

theorem parse_eq_of_run {s : String} {ps : List (String × String)}
    (h : run Sign.ofChar {} (trim (fun c => isBlank c.toNat) s.toList) = ps.map bareRaw) :
    parse (Utf8.encode s) = ofPairs (ps.map readBack) := by
  have hpairs : Scan.pairs Char.toNat String.ofList s.toList = ps.map readBack := by
    change (run Sign.ofChar {} (trim (fun c => isBlank c.toNat) s.toList)).map _ = _
    rw [h, List.map_map]
    exact List.map_congr_left fun p _ => toPair_bareRaw p
  rw [parse, scan, pairs_encode, hpairs, ofPairs]

/-- Whether the value of the last pair ends in white space. -/
def endsBlank (ps : List (String × String)) : Bool :=
  ps.getLast?.any fun p => p.2.toList.getLast?.any fun c => isBlank c.toNat

theorem isBlank_of_endsBlank {ps : List (String × String)} (h : endsBlank ps = false) :
    ∀ c ∈ (backslashedText ps).toList.getLast?, isBlank c.toNat = false := by
  intro c hc
  rcases getLast?_backslashedText ps c hc with rfl | ⟨p, hp, hc⟩
  · rfl
  · rw [endsBlank, hp, Option.any_some, hc, Option.any_some] at h
    exact h

/-- **What stands behind backslashes is read as it is, but for a blank at the very end.** Pairs whose
values are not the word NULL are read back whatever their characters. Where the last value ends in
white space, its last character is trimmed with the end of the text, and what is read at its key is
the value without it. -/
theorem parse_backslashedText (ps : List (String × String)) (h : ∀ p ∈ ps, p.2 ∉ nullSpellings) :
    (endsBlank ps = false → parse (Utf8.encode (backslashedText ps)) = ofTexts ps) ∧
    ∀ qs key value c, ps = qs ++ [(key, value.push c)] → isBlank c.toNat = true →
      parse (Utf8.encode (backslashedText ps)) =
        (ofTexts qs).insert key (if value ∈ nullSpellings then none else some value) := by
  constructor
  · intro hlast
    have htrim : trim (fun c : Char => isBlank c.toNat) (backslashedText ps).toList =
        (backslashedText ps).toList :=
      trim_eq_self (head?_backslashedText ps) (isBlank_of_endsBlank hlast)
    rw [parse_eq_of_run (htrim.symm ▸ (run_backslashed ps).1), map_readBack h, ofTexts]
  · rintro qs key value c rfl hc
    obtain ⟨front, hfront⟩ := exists_toList_backslashedText qs key
    have htext : (backslashedText (qs ++ [(key, value.push c)])).toList =
        (backslashedText (qs ++ [(key, value)])).toList ++ ['\\'] ++ [c] := by
      simp [hfront, toList_backslashed]
    have htrim : trim (fun c : Char => isBlank c.toNat)
        (backslashedText (qs ++ [(key, value.push c)])).toList =
          (backslashedText (qs ++ [(key, value)])).toList ++ ['\\'] := by
      rw [htext]
      exact trim_concat (htext ▸ head?_backslashedText _) (by simp [isBlank]) hc
    have hqs := map_readBack fun p hp => h p (List.mem_append_left _ hp)
    rw [parse_eq_of_run (htrim.symm ▸ (run_backslashed _).2), List.map_append, hqs, ofPairs,
      extend_append]
    rfl

/-- White space and signs inside a value, and a NULL that a lost blank uncovers. -/
theorem parse_backslashedText_lostBlank :
    parse (Utf8.encode (backslashedText [("a ", "\t, \"=>\\é")])) = ofTexts [("a ", "\t, \"=>\\é")] ∧
      parse (Utf8.encode (backslashedText [("", " x "), ("k", "null\n")])) =
        (ofTexts [("", " x ")]).insert "k" none := by
  have hkept := (parse_backslashedText [("a ", "\t, \"=>\\é")] (by decide)).1 (by decide)
  have hlost := (parse_backslashedText [("", " x "), ("k", "null\n")] (by decide)).2
    [("", " x ")] "k" "null" '\n' (by decide) (by decide)
  exact ⟨hkept, hlost⟩

/-- A blank value at the end of the text is read as an empty one. -/
theorem parse_backslashedText_ne :
    (∀ p ∈ [("a", " ")], p.2 ∉ nullSpellings) ∧
      parse (Utf8.encode (backslashedText [("a", " ")])) ≠ ofTexts [("a", " ")] := by
  decide

end HstoreKit.Hstore
