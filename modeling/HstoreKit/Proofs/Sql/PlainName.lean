import HstoreKit.Proofs.Hstore.NullWord
import HstoreKit.Proofs.Sql.Leaf
import HstoreKit.Proofs.Sql.Token
import HstoreKit.Proofs.Text.ReadBack

/-!
# Plain names

Which names are plain identifiers, said by code points, by the bytes of the name and by letter case,
apart from the check; and the rules that a name can break, in the order in which they are asked.

* `IsPlainName`: the grammar of plain identifiers;
* `NameFault.Applies`, `faults`: what each fault says of a name, and the order of the faults;
* `nameFault?_eq_find?`: the check finds the first fault that applies;
* `nameFault?_of_sameWord`: the letter case of a name makes no difference;
* `check_iff_isPlainName`: which names are accepted, what is said of others, and what an accepted
  name is in a statement.
-/

namespace HstoreKit.Sql

/-! ## Characters -/

def IsAsciiLetter (c : Char) : Prop :=
  65 ≤ c.toNat ∧ c.toNat ≤ 90 ∨ 97 ≤ c.toNat ∧ c.toNat ≤ 122

def IsAsciiDigit (c : Char) : Prop :=
  48 ≤ c.toNat ∧ c.toNat ≤ 57

instance (c : Char) : Decidable (IsAsciiLetter c) :=
  inferInstanceAs (Decidable (_ ∨ _))

instance (c : Char) : Decidable (IsAsciiDigit c) :=
  inferInstanceAs (Decidable (_ ∧ _))

theorem isAlpha_iff {c : Char} : c.isAlpha = true ↔ IsAsciiLetter c := by
  have hupper : c.isUpper = true ↔ 65 ≤ c.toNat ∧ c.toNat ≤ 90 := decide_eq_true_iff
  have hlower : c.isLower = true ↔ 97 ≤ c.toNat ∧ c.toNat ≤ 122 := by
    change (decide (97 ≤ c.toNat) && decide (c.toNat ≤ 122)) = true ↔ _
    rw [Bool.and_eq_true, decide_eq_true_eq, decide_eq_true_eq]
  change (c.isUpper || c.isLower) = true ↔ _
  rw [Bool.or_eq_true, hupper, hlower, IsAsciiLetter]

theorem isDigit_iff {c : Char} : c.isDigit = true ↔ IsAsciiDigit c := by
  simp [Char.isDigit, IsAsciiDigit, UInt32.le_iff_toNat_le, ← Char.toNat_val]

theorem isNameStart_iff {c : Char} : isNameStart c = true ↔ IsAsciiLetter c ∨ c = '_' := by
  rw [isNameStart, Bool.or_eq_true, isAlpha_iff, decide_eq_true_eq]

theorem isNameChar_iff {c : Char} :
    isNameChar c = true ↔ IsAsciiLetter c ∨ IsAsciiDigit c ∨ c = '_' := by
  rw [isNameChar, Char.isAlphanum, Bool.or_eq_true, Bool.or_eq_true, isAlpha_iff, isDigit_iff,
    decide_eq_true_eq, or_assoc]

/-! ## Letter case -/

/-- The same character, or the capital and the small form of one ASCII letter. -/
def SameLetter (c d : Char) : Prop :=
  c = d ∨ 65 ≤ c.toNat ∧ c.toNat ≤ 90 ∧ d.toNat = c.toNat + 32 ∨
    65 ≤ d.toNat ∧ d.toNat ≤ 90 ∧ c.toNat = d.toNat + 32

/-- Texts that differ in the case of ASCII letters only. -/
def SameWord (s t : String) : Prop :=
  List.Forall₂ SameLetter s.toList t.toList

instance (c d : Char) : Decidable (SameLetter c d) :=
  inferInstanceAs (Decidable (_ ∨ _))

instance (s t : String) : Decidable (SameWord s t) :=
  inferInstanceAs (Decidable (List.Forall₂ _ _ _))

theorem SameLetter.symm {c d : Char} (h : SameLetter c d) : SameLetter d c := by
  rcases h with rfl | h | h
  · exact .inl rfl
  · exact .inr (.inr h)
  · exact .inr (.inl h)

theorem SameWord.symm {s t : String} (h : SameWord s t) : SameWord t s :=
  List.Forall₂.flip (h.imp fun _ _ => SameLetter.symm)

theorem toUpper_eq_toUpper_iff {c d : Char} : c.toUpper = d.toUpper ↔ SameLetter c d := by
  rw [← Char.toNat_inj, Scan.toNat_toUpper, Scan.toNat_toUpper, SameLetter, ← Char.toNat_inj]
  split <;> split <;> omega

theorem upper_eq_upper_iff {s t : String} : upper s = upper t ↔ SameWord s t := by
  rw [upper, upper, String.ofList_inj, SameWord, ← List.forall₂_eq_eq_eq,
    List.forall₂_map_left_iff, List.forall₂_map_right_iff]
  simp only [toUpper_eq_toUpper_iff]

/-- The reserved words are listed in capital letters. -/
theorem upper_of_mem_reservedWords : ∀ w ∈ reservedWords, upper w = w := by
  decide

theorem upper_mem_reservedWords_iff {s : String} :
    upper s ∈ reservedWords ↔ ∃ w ∈ reservedWords, SameWord s w := by
  constructor
  · intro h
    refine ⟨upper s, h, ?_⟩
    rw [← upper_eq_upper_iff]
    exact (upper_of_mem_reservedWords _ h).symm
  · rintro ⟨w, hw, hsame⟩
    rwa [upper_eq_upper_iff.2 hsame, upper_of_mem_reservedWords w hw]

theorem SameLetter.isAsciiLetter {c d : Char} (h : SameLetter c d) (hc : IsAsciiLetter c) :
    IsAsciiLetter d := by
  rw [IsAsciiLetter] at hc ⊢
  rcases h with rfl | h | h
  · exact hc
  · omega
  · omega

theorem SameLetter.start {c d : Char} (h : SameLetter c d) (hc : IsAsciiLetter c ∨ c = '_') :
    IsAsciiLetter d ∨ d = '_' := by
  rcases hc with hc | rfl
  · exact .inl (h.isAsciiLetter hc)
  · rcases h with rfl | h | h
    · exact .inr rfl
    · simp at h
    · simp at h
      omega

theorem SameLetter.part {c d : Char} (h : SameLetter c d)
    (hc : IsAsciiLetter c ∨ IsAsciiDigit c ∨ c = '_') :
    IsAsciiLetter d ∨ IsAsciiDigit d ∨ d = '_' := by
  rcases hc with hc | hc | hc
  · exact .inl (h.isAsciiLetter hc)
  · rw [IsAsciiDigit] at hc
    rcases h with rfl | h | h
    · exact .inr (.inl hc)
    · omega
    · omega
  · exact (h.start (.inr hc)).imp_right .inr

theorem SameLetter.length_utf8EncodeChar {c d : Char} (h : SameLetter c d) :
    (String.utf8EncodeChar c).length = (String.utf8EncodeChar d).length := by
  rcases h with rfl | h | h
  · rfl
  · rw [Utf8.utf8EncodeChar_of_lt (by omega), Utf8.utf8EncodeChar_of_lt (by omega)]
    rfl
  · rw [Utf8.utf8EncodeChar_of_lt (by omega), Utf8.utf8EncodeChar_of_lt (by omega)]
    rfl

theorem length_flatMap_of_forall₂ {cs ds : List Char} (h : List.Forall₂ SameLetter cs ds) :
    (cs.flatMap String.utf8EncodeChar).length = (ds.flatMap String.utf8EncodeChar).length := by
  induction h with
  | nil => rfl
  | cons hc _ ih =>
    rw [List.flatMap_cons, List.flatMap_cons, List.length_append, List.length_append, ih,
      hc.length_utf8EncodeChar]

theorem SameWord.length_encode {s t : String} (h : SameWord s t) :
    (Utf8.encode s).length = (Utf8.encode t).length :=
  length_flatMap_of_forall₂ h

theorem length_encode (s : String) : (Utf8.encode s).length = s.utf8ByteSize := by
  rw [← String.size_toByteArray, ← String.utf8Encode_toList, List.utf8Encode,
    List.size_toByteArray, Utf8.encode]

/-! ## Names and faults -/

/-- A plain identifier: one to sixty-three bytes, a letter or underscore first, then letters, digits
and underscores, and in no letter case a reserved word. -/
structure IsPlainName (s : String) : Prop where
  bytes : 1 ≤ (Utf8.encode s).length ∧ (Utf8.encode s).length ≤ 63
  start : ∃ c ∈ s.toList.head?, IsAsciiLetter c ∨ c = '_'
  parts : ∀ c ∈ s.toList, IsAsciiLetter c ∨ IsAsciiDigit c ∨ c = '_'
  free : ∀ w ∈ reservedWords, ¬ SameWord s w

/-- What a fault says of a name, whatever name it was reported for. -/
def NameFault.Applies (s : String) : NameFault → Prop
  | .empty => s = ""
  | .tooLong _ _ limit => limit < (Utf8.encode s).length
  | .invalidStart _ => ∃ c ∈ s.toList.head?, ¬ (IsAsciiLetter c ∨ c = '_')
  | .invalidCharacters _ => ∃ c ∈ s.toList, ¬ (IsAsciiLetter c ∨ IsAsciiDigit c ∨ c = '_')
  | .reserved _ => ∃ w ∈ reservedWords, SameWord s w

instance (s : String) : DecidablePred (NameFault.Applies s)
  | .empty => inferInstanceAs (Decidable (s = ""))
  | .tooLong _ _ limit => inferInstanceAs (Decidable (limit < (Utf8.encode s).length))
  | .invalidStart _ => inferInstanceAs (Decidable (∃ c ∈ s.toList.head?, _))
  | .invalidCharacters _ => inferInstanceAs (Decidable (∃ c ∈ s.toList, _))
  | .reserved _ => inferInstanceAs (Decidable (∃ w ∈ reservedWords, _))

/-- The faults that a name can have, in the order in which they are looked for. -/
def faults (s : String) : List NameFault :=
  [.empty, .tooLong s (Utf8.encode s).length 63, .invalidStart s, .invalidCharacters s, .reserved s]

theorem find?_cons_eq_ite {α : Type} {p : α → Prop} [DecidablePred p] (a : α) (l : List α) :
    (a :: l).find? (fun x => p x) = if p a then some a else l.find? fun x => p x := by
  by_cases h : p a <;> simp [h]

/-- The check reports the first fault that applies. -/
theorem nameFault?_eq_find? (s : String) :
    nameFault? s = (faults s).find? fun fault => fault.Applies s := by
  rw [faults, find?_cons_eq_ite, find?_cons_eq_ite, find?_cons_eq_ite, find?_cons_eq_ite,
    find?_cons_eq_ite, List.find?_nil]
  cases hs : s.toList with
  | nil =>
    have hempty : NameFault.Applies s .empty := String.toList_eq_nil_iff.1 hs
    rw [if_pos hempty, nameFault?, hs]
  | cons c cs =>
    have hempty : ¬ NameFault.Applies s .empty := by
      rintro rfl
      cases hs
    have hlong (n : Nat) :
        NameFault.Applies s (.tooLong s n 63) ↔ maxNameLength < s.utf8ByteSize := by
      rw [NameFault.Applies, length_encode, maxNameLength]
    have hstart : NameFault.Applies s (.invalidStart s) ↔ (!isNameStart c) = true := by
      simp [NameFault.Applies, hs, ← isNameStart_iff]
    have hparts : NameFault.Applies s (.invalidCharacters s) ↔
        (!(c :: cs).all isNameChar) = true := by
      rw [NameFault.Applies, hs, Bool.not_eq_true', List.all_eq_false]
      simp only [isNameChar_iff]
    have hreserved : NameFault.Applies s (.reserved s) ↔ upper s ∈ reservedWords :=
      upper_mem_reservedWords_iff.symm
    rw [if_neg hempty, nameFault?, hs]
    have htooLong : some (NameFault.tooLong s s.utf8ByteSize maxNameLength) =
        some (.tooLong s (Utf8.encode s).length 63) := by
      rw [length_encode, maxNameLength]
    -- both sides ask the remaining rules in the same order
    apply if_congr (hlong _).symm htooLong
    apply if_congr hstart.symm rfl
    apply if_congr hparts.symm rfl
    exact if_congr hreserved.symm rfl rfl

theorem nameFault?_eq_some_iff {s : String} {fault : NameFault} :
    nameFault? s = some fault ↔ ∃ before behind, faults s = before ++ fault :: behind ∧
      (∀ other ∈ before, ¬ other.Applies s) ∧ fault.Applies s := by
  rw [nameFault?_eq_find?, List.find?_eq_some_iff_append]
  simp only [decide_eq_true_eq, Bool.not_eq_true', decide_eq_false_iff_not]
  constructor
  · rintro ⟨happlies, before, behind, hfaults, hbefore⟩
    exact ⟨before, behind, hfaults, hbefore, happlies⟩
  · rintro ⟨before, behind, hfaults, hbefore, happlies⟩
    exact ⟨happlies, before, behind, hfaults, hbefore⟩

theorem nameFault?_eq_none_iff {s : String} : nameFault? s = none ↔ IsPlainName s := by
  have hnone : nameFault? s = none ↔ ∀ fault ∈ faults s, ¬ fault.Applies s := by
    rw [nameFault?_eq_find?, List.find?_eq_none]
    simp only [decide_eq_true_eq]
  rw [hnone, faults]
  simp only [List.forall_mem_cons]
  constructor
  · rintro ⟨hempty, hlong, hstart, hparts, hreserved, -⟩
    obtain ⟨c, cs, hs⟩ := List.exists_cons_of_ne_nil (mt String.toList_eq_nil_iff.1 hempty)
    have hhead : c ∈ s.toList.head? := by
      rw [hs]
      rfl
    refine ⟨⟨?_, Nat.le_of_not_lt hlong⟩, ⟨c, hhead, ?_⟩, ?_, ?_⟩
    · rw [Utf8.encode, hs, List.flatMap_cons, List.length_append]
      have hc := List.length_pos_iff.2 (String.utf8EncodeChar_ne_nil (c := c))
      omega
    · by_contra hc
      exact hstart ⟨c, hhead, hc⟩
    · intro d hd
      by_contra hpart
      exact hparts ⟨d, hd, hpart⟩
    · intro w hw hsame
      exact hreserved ⟨w, hw, hsame⟩
  · rintro ⟨hbytes, ⟨c, hhead, hc⟩, hparts, hfree⟩
    refine ⟨?_, Nat.not_lt.2 hbytes.2, ?_, ?_, ?_, by simp⟩
    · intro hs
      obtain rfl : s = "" := hs
      cases hhead
    · rintro ⟨d, hd, hnot⟩
      exact hnot (Option.mem_unique hhead hd ▸ hc)
    · rintro ⟨d, hd, hnot⟩
      exact hnot (hparts d hd)
    · rintro ⟨w, hw, hsame⟩
      exact hfree w hw hsame

/-! ## Names in other letter case -/

/-- The fault, reported for another name. -/
def NameFault.about (t : String) : NameFault → NameFault
  | .empty => .empty
  | .tooLong _ length limit => .tooLong t length limit
  | .invalidStart _ => .invalidStart t
  | .invalidCharacters _ => .invalidCharacters t
  | .reserved _ => .reserved t

theorem NameFault.applies_about {s t : String} {fault : NameFault} :
    (fault.about t).Applies s ↔ fault.Applies s := by
  cases fault <;> rfl

theorem NameFault.Applies.of_sameWord {s t : String} (h : SameWord s t) {fault : NameFault}
    (hs : fault.Applies s) : fault.Applies t := by
  cases fault with
  | empty =>
    obtain rfl : s = "" := hs
    have hnil : List.Forall₂ SameLetter [] t.toList := h
    rw [List.forall₂_nil_left_iff] at hnil
    exact String.toList_eq_nil_iff.1 hnil
  | tooLong name length limit =>
    rw [Applies] at hs ⊢
    rwa [← h.length_encode]
  | invalidStart name =>
    obtain ⟨c, hhead, hc⟩ := hs
    obtain ⟨cs, hlist⟩ := List.head?_eq_some_iff.1 hhead
    rw [SameWord, hlist, List.forall₂_cons_left_iff] at h
    obtain ⟨d, ds, hcd, -, hd⟩ := h
    refine ⟨d, ?_, fun hstart => hc (hcd.symm.start hstart)⟩
    rw [hd]
    rfl
  | invalidCharacters name =>
    obtain ⟨c, hmem, hc⟩ := hs
    obtain ⟨i, hi, rfl⟩ := List.getElem_of_mem hmem
    have hi' : i < t.toList.length := h.length_eq ▸ hi
    have hcd : SameLetter s.toList[i] t.toList[i] := h.get hi hi'
    exact ⟨_, List.getElem_mem hi', fun hpart => hc (hcd.symm.part hpart)⟩
  | reserved name =>
    obtain ⟨w, hw, hsame⟩ := hs
    refine ⟨w, hw, ?_⟩
    rw [← upper_eq_upper_iff] at h hsame ⊢
    exact h.symm.trans hsame

theorem faults_of_sameWord {s t : String} (h : SameWord s t) :
    faults t = (faults s).map (.about t) := by
  rw [faults, ← h.length_encode]
  rfl

/-- The same is reported of a name in other letter case. -/
theorem nameFault?_of_sameWord {s t : String} (h : SameWord s t) :
    nameFault? t = (nameFault? s).map (.about t) := by
  have happlies (fault : NameFault) : (fault.about t).Applies t ↔ fault.Applies s := by
    rw [NameFault.applies_about]
    exact ⟨.of_sameWord h.symm, .of_sameWord h⟩
  rw [nameFault?_eq_find?, nameFault?_eq_find?, faults_of_sameWord h, List.find?_map]
  simp only [Function.comp_def, happlies]

/-! ## Names in statements -/

theorem check_eq_ok_iff {s : String} {i : Identifier} :
    Identifier.check s = .ok i ↔ nameFault? s = none ∧ i.name = s := by
  unfold Identifier.check
  obtain ⟨name, plain⟩ := i
  split
  · rename_i hs
    simp [hs, eq_comm]
  · rename_i fault hs
    simp [hs]

theorem check_eq_error_iff {s : String} {fault : NameFault} :
    Identifier.check s = .error fault ↔ nameFault? s = some fault := by
  unfold Identifier.check
  split
  · rename_i hs
    simp [hs]
  · rename_i other hs
    simp [hs]

/-- A name that stands in the place of a table and one that stands in the place of a field are
checked alike. -/
theorem checkName_eq_check (s : String) :
    Query.checkName s = (Identifier.check s).map fun _ => () := by
  cases hs : nameFault? s with
  | none =>
    rw [Query.checkName_eq_ok_iff.2 hs, check_eq_ok_iff (i := ⟨s, hs⟩).2 ⟨hs, rfl⟩]
    rfl
  | some fault =>
    rw [Query.checkName_eq_error_iff.2 hs, check_eq_error_iff.2 hs]
    rfl

/-- Between double quotes a plain name is written as it is. -/
theorem quotedName_of_isPlainName {s : String} (h : IsPlainName s) :
    quotedName s = "\"" ++ s ++ "\"" := by
  apply quotedName_of_not_mem
  intro hquote
  have hpart := h.parts '"' hquote
  simp [IsAsciiLetter, IsAsciiDigit] at hpart

/-- **A name is accepted when it is a plain name, and of another the first fault is reported.** It
does not matter whether the name is to stand for a table or for a field, an accepted name is given
back as it was, and names that differ in letter case only are accepted or refused alike, for the
same reason. An accepted name is one word of a statement, and between double quotes it is written as
it is. -/
theorem check_iff_isPlainName (s : String) :
    Query.checkName s = (Identifier.check s).map (fun _ => ()) ∧
    ((∃ i, Identifier.check s = .ok i) ↔ IsPlainName s) ∧
    (∀ i, Identifier.check s = .ok i → i.name = s) ∧
    (∀ fault, Identifier.check s = .error fault ↔
      ∃ before behind, faults s = before ++ fault :: behind ∧
        (∀ other ∈ before, ¬ other.Applies s) ∧ fault.Applies s) ∧
    (∀ t, SameWord s t →
      ((∃ i, Identifier.check t = .ok i) ↔ ∃ i, Identifier.check s = .ok i) ∧
      ∀ fault, Identifier.check s = .error fault → Identifier.check t = .error (fault.about t)) ∧
    (IsPlainName s → tokens? s = some [.word s] ∧ quotedName s = "\"" ++ s ++ "\"") := by
  have haccepts (t : String) : (∃ i, Identifier.check t = .ok i) ↔ nameFault? t = none := by
    constructor
    · rintro ⟨i, hi⟩
      exact (check_eq_ok_iff.1 hi).1
    · intro ht
      exact ⟨⟨t, ht⟩, check_eq_ok_iff.2 ⟨ht, rfl⟩⟩
  refine ⟨checkName_eq_check s, (haccepts s).trans nameFault?_eq_none_iff, ?_, ?_, ?_, ?_⟩
  · intro i hi
    exact (check_eq_ok_iff.1 hi).2
  · intro fault
    exact check_eq_error_iff.trans nameFault?_eq_some_iff
  · intro t ht
    have hfault := nameFault?_of_sameWord ht
    constructor
    · rw [haccepts, haccepts, hfault, Option.map_eq_none_iff]
    · intro fault hs
      rw [check_eq_error_iff] at hs ⊢
      rw [hfault, hs, Option.map_some]
  · intro hs
    exact ⟨Token.tokens?_plain (nameFault?_eq_none_iff.2 hs), quotedName_of_isPlainName hs⟩

/-- A name of sixty-five bytes that breaks other rules as well. -/
example : Identifier.check ("1" ++ String.ofList (List.replicate 32 'é')) =
    .error (.tooLong ("1" ++ String.ofList (List.replicate 32 'é')) 65 63) := by
  rfl

end HstoreKit.Sql
