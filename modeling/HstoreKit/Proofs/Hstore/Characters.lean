import HstoreKit.Proofs.Hstore.Stretch
import HstoreKit.Proofs.Text.ReadBack
import Mathlib.Data.List.TakeWhile

/-!
# Reading characters

On the bytes of a text the scanner does what it does on the characters themselves. Signs and blanks
are ASCII, so the bytes of any other character are plain and stay together: an escape protects the
first of them, and the others need no protection.

* `State.encoded`, `RawPair.encoded`: what the scanner of bytes holds where the scanner of
  characters holds this;
* `reads_encoded`, `run_encoded`: one character, and a run;
* `trim_flatMap`: blanks at the ends;
* `DrawnFrom`: what has been read into a pair is a part of the text, in its order;
* `parse_encode`: reading a text damages no character.
-/

namespace HstoreKit.Scan

/-- The sign of a character. -/
def Sign.ofChar (c : Char) : Sign :=
  .ofCode c.toNat

theorem Sign.ofCode_of_le {n : Nat} (h : 0x80 ≤ n) : Sign.ofCode n = .plain := by
  simp only [ofCode, Char.reduceToNat]
  grind

/-- The pair as it is read from bytes. -/
def RawPair.encoded (p : RawPair Char) : RawPair UInt8 where
  key := p.key.flatMap String.utf8EncodeChar
  value := p.value.flatMap String.utf8EncodeChar
  closed := p.closed

theorem RawPair.toPair_encoded (p : RawPair Char) :
    p.encoded.toPair Utf8.lossy = p.toPair String.ofList := by
  have hlossy (cs : List Char) : Utf8.lossy (cs.flatMap String.utf8EncodeChar) = .ofList cs := by
    simpa [Utf8.encode] using Utf8.lossy_encode (.ofList cs)
  simp only [toPair, encoded, hlossy]

namespace State

variable {s : State Char} {c : Char}

/-- The state of the scanner of bytes behind the bytes of what has been read. -/
def encoded (s : State Char) : State UInt8 where
  escaping := s.escaping
  quoted := s.quoted
  closed := s.closed
  half := s.half
  key := (s.key.toList.flatMap String.utf8EncodeChar).toArray
  value := (s.value.toList.flatMap String.utf8EncodeChar).toArray

/-! ## One character -/

theorem encoded_put (s : State Char) (c : Char) :
    (s.put c).encoded = s.encoded.putAll (String.utf8EncodeChar c) := by
  cases h : s.half with
  | key =>
    rw [putAll_key (s := s.encoded) h]
    simp [put, encoded, h]
  | value =>
    rw [putAll_value (s := s.encoded) h]
    simp [put, encoded, h]

theorem isEmpty_encoded (cs : Array Char) :
    (cs.toList.flatMap String.utf8EncodeChar).toArray.isEmpty = cs.isEmpty := by
  rw [List.isEmpty_toArray, ← Array.isEmpty_toList, Bool.eq_iff_iff, List.isEmpty_iff,
    List.isEmpty_iff, List.flatMap_eq_nil_iff]
  constructor
  · intro h
    exact List.eq_nil_iff_forall_not_mem.2 fun c hc => String.utf8EncodeChar_ne_nil (h c hc)
  · intro h c hc
    rw [h] at hc
    cases hc

theorem commit_encoded (s : State Char) :
    s.encoded.commit = (s.commit.1.map RawPair.encoded, s.commit.2.encoded) := by
  have hkey : s.encoded.key.isEmpty = s.key.isEmpty := isEmpty_encoded s.key
  have hvalue : s.encoded.value.isEmpty = s.value.isEmpty := isEmpty_encoded s.value
  have hhalf : s.encoded.half = s.half := rfl
  unfold commit
  rw [hkey, hvalue, hhalf]
  split <;> rfl

/-- A symbol of one byte and of the same sign. -/
theorem step_encoded {b : UInt8} (hbytes : String.utf8EncodeChar c = [b])
    (hsign : Sign.ofByte b = Sign.ofChar c) : s.encoded.step Sign.ofByte b =
      ((s.step Sign.ofChar c).1.map RawPair.encoded, (s.step Sign.ofChar c).2.encoded) := by
  have hput (t : State Char) : t.encoded.put b = (t.put c).encoded := by
    rw [encoded_put, hbytes]
    rfl
  have hescaping : s.encoded.escaping = s.escaping := rfl
  have hquoted : s.encoded.quoted = s.quoted := rfl
  unfold step
  rw [hsign, hescaping, hquoted]
  split
  · exact Prod.ext rfl (hput { s with escaping := false })
  · -- the cases in the order in which the scanner tries them
    split
    · rfl
    · rfl
    · rfl
    · exact Prod.ext rfl (hput s)
    · rfl
    · rfl
    · exact commit_encoded s
    · exact Prod.ext rfl (hput s)

/-- The scanner of bytes reads the bytes of a character as the scanner of characters reads the
character. -/
theorem reads_encoded (s : State Char) (c : Char) :
    s.encoded.completed Sign.ofByte (String.utf8EncodeChar c) =
        (s.step Sign.ofChar c).1.toList.map RawPair.encoded ∧
      s.encoded.after Sign.ofByte (String.utf8EncodeChar c) = (s.step Sign.ofChar c).2.encoded := by
  rcases Nat.lt_or_ge c.toNat 0x80 with hc | hc
  · have hcode : (UInt8.ofNat c.toNat).toNat = c.toNat := by
      rw [UInt8.toNat_ofNat']
      omega
    have hbytes := Utf8.utf8EncodeChar_of_lt hc
    have hstep := step_encoded (s := s) hbytes (by rw [Sign.ofByte, hcode, Sign.ofChar])
    rw [hbytes, completed, completed, after_cons, after_nil, hstep, List.append_nil]
    exact ⟨Option.toList_map .., rfl⟩
  · -- a character of several bytes is plain, and so is each byte
    have hplain : ∀ b ∈ String.utf8EncodeChar c, Sign.ofByte b = .plain := fun b hb =>
      Sign.ofCode_of_le (Utf8.le_of_mem_utf8EncodeChar hc hb)
    obtain ⟨b, bs, hbytes⟩ := List.exists_cons_of_ne_nil (String.utf8EncodeChar_ne_nil (c := c))
    have hleads := leads_cons_of_plain (s := s.encoded) (hbytes ▸ hplain)
    have hstep : s.step Sign.ofChar c = (none, { s with escaping := false }.put c) :=
      step_of_plain (Sign.ofCode_of_le hc)
    rw [hstep, encoded_put, hbytes]
    exact hleads

/-- What is read from the bytes of a text is what is read from its characters. -/
theorem run_encoded (s : State Char) (cs : List Char) :
    run Sign.ofByte s.encoded (cs.flatMap String.utf8EncodeChar) =
      (run Sign.ofChar s cs).map RawPair.encoded := by
  induction cs generalizing s with
  | nil =>
    rw [List.flatMap_nil, run, run, commit_encoded]
    exact Option.toList_map ..
  | cons c cs ih =>
    obtain ⟨hcompleted, hafter⟩ := reads_encoded s c
    rw [List.flatMap_cons, run_append, hcompleted, hafter, ih, run, List.map_append]

end State

/-! ## The ends of a text -/

section
variable {α β : Type} {p : α → Bool} {q : β → Bool} {f : α → List β}

theorem dropWhile_flatMap (hne : ∀ a, f a ≠ []) (h : ∀ a, ∀ b ∈ f a, q b = p a) (l : List α) :
    (l.flatMap f).dropWhile q = (l.dropWhile p).flatMap f := by
  induction l with
  | nil => rfl
  | cons a l ih =>
    cases ha : p a with
    | true =>
      have hall : (f a).dropWhile q = [] :=
        List.dropWhile_eq_nil_iff.2 fun b hb => (h a b hb).trans ha
      rw [List.flatMap_cons, List.dropWhile_append, hall, List.isEmpty_nil, if_pos rfl, ih,
        List.dropWhile_cons_of_pos ha]
    | false =>
      obtain ⟨b, bs, hb⟩ := List.exists_cons_of_ne_nil (hne a)
      have hq : q b = false := (h a b (hb ▸ List.mem_cons_self)).trans ha
      rw [List.dropWhile_cons_of_neg (by simp [ha]), List.flatMap_cons, hb, List.cons_append,
        List.dropWhile_cons_of_neg (by simp [hq])]

/-- Symbols that stand for several others are trimmed as these are. -/
theorem trim_flatMap (hne : ∀ a, f a ≠ []) (h : ∀ a, ∀ b ∈ f a, q b = p a) (l : List α) :
    trim q (l.flatMap f) = (trim p l).flatMap f := by
  have hback := dropWhile_flatMap (f := List.reverse ∘ f) (p := p) (q := q)
    (fun a => by simpa using hne a) (fun a b hb => h a b (by simpa using hb))
  rw [trim, trim, dropWhile_flatMap hne h, List.reverse_flatMap, hback, List.reverse_flatMap]
  simp [Function.comp_def]

end

theorem isBlank_of_le {n : Nat} (h : 0x80 ≤ n) : isBlank n = false := by
  simp only [isBlank]
  grind

theorem isBlank_of_mem_utf8EncodeChar {c : Char} {b : UInt8} (hb : b ∈ String.utf8EncodeChar c) :
    isBlank b.toNat = isBlank c.toNat := by
  rcases Nat.lt_or_ge c.toNat 0x80 with hc | hc
  · rw [Utf8.utf8EncodeChar_of_lt hc, List.mem_singleton] at hb
    have hcode : b.toNat = c.toNat := by
      rw [hb, UInt8.toNat_ofNat']
      omega
    rw [hcode]
  · rw [isBlank_of_le hc, isBlank_of_le (Utf8.le_of_mem_utf8EncodeChar hc hb)]

theorem pairs_encode (s : String) : Scan.pairs UInt8.toNat Utf8.lossy (Utf8.encode s) =
    Scan.pairs Char.toNat String.ofList s.toList := by
  have htrim := trim_flatMap (p := fun c : Char => isBlank c.toNat) @String.utf8EncodeChar_ne_nil
    (fun c b hb => isBlank_of_mem_utf8EncodeChar hb) s.toList
  have hrun := State.run_encoded {} (trim (fun c : Char => isBlank c.toNat) s.toList)
  rw [Scan.pairs, Utf8.encode, htrim]
  change (State.run Sign.ofByte (State.encoded {}) _).map _ = _
  rw [hrun, List.map_map]
  exact List.map_congr_left fun p _ => p.toPair_encoded

/-! ## What a pair is made of -/

section
variable {α : Type} {sign : α → Sign} {s : State α} {l m : List α} {a : α}

/-- Both halves of the pair that is being read are drawn from these symbols, in their order. -/
structure State.DrawnFrom (l : List α) (s : State α) : Prop where
  key : s.key.toList.Sublist l
  value : s.value.toList.Sublist l

theorem State.DrawnFrom.mono (h : s.DrawnFrom l) (hl : l.Sublist m) : s.DrawnFrom m :=
  ⟨h.key.trans hl, h.value.trans hl⟩

theorem State.DrawnFrom.put (h : s.DrawnFrom l) : (s.put a).DrawnFrom (l ++ [a]) := by
  have hl := List.sublist_append_left l [a]
  unfold State.put
  split
  · exact ⟨by simpa using h.key.append (.refl [a]), h.value.trans hl⟩
  · exact ⟨h.key.trans hl, by simpa using h.value.append (.refl [a])⟩

/-- Behind the end of a pair nothing is held. -/
theorem State.DrawnFrom.commit (s : State α) (l : List α) : s.commit.2.DrawnFrom l := by
  unfold State.commit
  split <;> exact ⟨List.nil_sublist l, List.nil_sublist l⟩

theorem State.DrawnFrom.step (h : s.DrawnFrom l) : (s.step sign a).2.DrawnFrom (l ++ [a]) := by
  have hl := h.mono (List.sublist_append_left l [a])
  have hescaped : ({ s with escaping := false } : State α).DrawnFrom l := ⟨h.key, h.value⟩
  unfold State.step
  split
  · exact hescaped.put
  · split
    · exact ⟨hl.key, hl.value⟩
    · exact ⟨hl.key, hl.value⟩
    · exact ⟨hl.key, hl.value⟩
    · exact h.put
    · exact hl
    · exact ⟨hl.key, hl.value⟩
    · exact .commit s _
    · exact h.put

theorem State.DrawnFrom.of_commit (h : s.DrawnFrom l) {p : RawPair α} (hp : p ∈ s.commit.1) :
    p.key.Sublist l ∧ p.value.Sublist l := by
  unfold State.commit at hp
  split at hp
  · cases hp
  · obtain rfl := Option.some.inj hp
    exact ⟨h.key, h.value⟩

/-- Only the end of a pair completes one. -/
theorem State.mem_commit_of_mem_step {p : RawPair α} (hp : p ∈ (s.step sign a).1) :
    p ∈ s.commit.1 := by
  unfold State.step at hp
  grind

/-- A pair is made of symbols of the text, in their order. -/
theorem State.DrawnFrom.run (h : s.DrawnFrom l) {p : RawPair α} (hp : p ∈ State.run sign s m) :
    p.key.Sublist (l ++ m) ∧ p.value.Sublist (l ++ m) := by
  induction m generalizing s l with
  | nil =>
    rw [List.append_nil]
    exact h.of_commit (Option.mem_toList.1 hp)
  | cons a m ih =>
    rw [State.run, List.mem_append] at hp
    rcases hp with hp | hp
    · exact (h.mono (List.sublist_append_left l _)).of_commit
        (State.mem_commit_of_mem_step (Option.mem_toList.1 hp))
    · have hrest := ih h.step hp
      rwa [List.append_assoc] at hrest

end

theorem trim_sublist {α : Type} (p : α → Bool) (l : List α) : (trim p l).Sublist l := by
  have hback := List.dropWhile_sublist p (l := (l.dropWhile p).reverse)
  have hfront := List.dropWhile_sublist p (l := l)
  exact (List.reverse_sublist.2 hback).trans (by rwa [List.reverse_reverse])

/-- The keys and values of the pairs that are read are parts of the text, in its order. -/
theorem sublist_of_mem_pairs {cs : List Char} {p : Pair}
    (hp : p ∈ Scan.pairs Char.toNat String.ofList cs) :
    p.1.toList.Sublist cs ∧ ∀ v ∈ p.2, v.toList.Sublist cs := by
  obtain ⟨raw, hraw, rfl⟩ := List.mem_map.1 hp
  have hinitial : ({} : State Char).DrawnFrom [] := ⟨.refl [], .refl []⟩
  obtain ⟨hkey, hvalue⟩ := hinitial.run hraw
  have htrim := trim_sublist (fun c : Char => isBlank c.toNat) cs
  refine ⟨by simpa [RawPair.toPair] using hkey.trans htrim, fun v hv => ?_⟩
  have hv : v = String.ofList raw.value := by
    simp only [RawPair.toPair] at hv
    grind
  simpa [hv] using hvalue.trans htrim

end HstoreKit.Scan

namespace HstoreKit.Hstore

/-- The keys and those values that are not NULL. -/
def texts (h : Hstore) : List String :=
  h.entries.flatMap fun p => p.1 :: p.2.toList

theorem mem_texts_ofPairs {ps : List Pair} {t : String} (ht : t ∈ (ofPairs ps).texts) :
    ∃ p ∈ ps, t = p.1 ∨ t ∈ p.2 := by
  obtain ⟨p, hp, ht⟩ := List.mem_flatMap.1 ht
  rcases PairList.mem_insertAll hp with hp | hp
  · cases hp
  · refine ⟨p, hp, ?_⟩
    rcases List.mem_cons.1 ht with ht | ht
    · exact .inl ht
    · exact .inr (Option.mem_toList.1 ht)

/-- The hstore of a text that is read character by character. -/
def parseChars (s : String) : Hstore :=
  ofPairs (Scan.pairs Char.toNat String.ofList s.toList)

/-- **Reading a text damages no character.** The bytes of a text are read as its characters are. So
every key and value is made of characters of the text, in their order, and a replacement character
stands in one only if the text has it. -/
theorem parse_encode (s : String) :
    parse (Utf8.encode s) = parseChars s ∧
      ∀ t ∈ (parse (Utf8.encode s)).texts,
        t.toList.Sublist s.toList ∧ ('\uFFFD' ∈ t.toList → '\uFFFD' ∈ s.toList) := by
  have hparse : parse (Utf8.encode s) = parseChars s := by
    rw [parse, scan, Scan.pairs_encode]
    rfl
  refine ⟨hparse, fun t ht => ?_⟩
  rw [hparse] at ht
  obtain ⟨p, hp, htext⟩ := mem_texts_ofPairs ht
  obtain ⟨hkey, hvalue⟩ := Scan.sublist_of_mem_pairs hp
  have hsublist : t.toList.Sublist s.toList := by
    rcases htext with rfl | htext
    · exact hkey
    · exact hvalue t htext
  exact ⟨hsublist, fun hmem => hsublist.mem hmem⟩

/-- A backslash before a character of two bytes, and one of four bytes behind a quote. -/
theorem parse_encode_escapedAccent :
    "é😀" ∈ (parse (Utf8.encode "\\é \"😀\"=>ü")).texts ∧
      parse (Utf8.encode "\\é \"😀\"=>ü") = parseChars "\\é \"😀\"=>ü" ∧
      "é😀".toList.Sublist "\\é \"😀\"=>ü".toList := by
  have ht : "é😀" ∈ (parse (Utf8.encode "\\é \"😀\"=>ü")).texts := by decide
  have h := parse_encode "\\é \"😀\"=>ü"
  exact ⟨ht, h.1, (h.2 _ ht).1⟩

end HstoreKit.Hstore
