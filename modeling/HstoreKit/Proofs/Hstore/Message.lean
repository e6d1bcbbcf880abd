import HstoreKit.Hstore.Error
import HstoreKit.Proofs.Text.Utf8

/-!
# The grammar of messages

A message as a grammar of bytes, apart from how it is read and written: a count, and so many pairs,
each a text behind its length and then the null mark or another such text.

* `message_eq_ok_iff`: reading accepts exactly the messages of this grammar;
* `encode_eq_ok_iff`: writing gives the message of the entries, whenever they have one;
* `IsMessage.unique`, `IsMessage.unique_bytes`: a message is of one list of pairs, and a list of
  pairs has one message.
-/

namespace HstoreKit.Wire

/-! ## Grammar -/

/-- The number that bytes spell, the most significant first. -/
def bigEndian (bs : List UInt8) : Nat :=
  bs.foldl (fun n b => n * 256 + b.toNat) 0

/-- Four bytes that spell a length. The first bit is the sign and is not set. -/
structure IsLength (n : Nat) (bs : List UInt8) : Prop where
  four : bs.length = 4
  spells : bigEndian bs = n
  fits : n < 0x80000000

/-- A text behind the number of its bytes. -/
def IsText (s : String) (bs : List UInt8) : Prop :=
  ∃ head, IsLength (Utf8.encode s).length head ∧ bs = head ++ Utf8.encode s

/-- A text, or for NULL the four bytes of -1 alone. -/
def IsValue : Option String → List UInt8 → Prop
  | some s, bs => IsText s bs
  | none, bs => bs = [0xFF, 0xFF, 0xFF, 0xFF]

/-- Keys and values in turn. -/
inductive IsPairs : List Pair → List UInt8 → Prop
  | nil : IsPairs [] []
  | cons {k : String} {v : Option String} {ps : List Pair} {key value rest : List UInt8}
      (hk : IsText k key) (hv : IsValue v value) (hps : IsPairs ps rest) :
      IsPairs ((k, v) :: ps) (key ++ value ++ rest)

/-- The number of the pairs, then the pairs, then nothing. -/
def IsMessage (ps : List Pair) (bs : List UInt8) : Prop :=
  ∃ count body, IsLength ps.length count ∧ IsPairs ps body ∧ bs = count ++ body

/-! ## Steps that may fail -/

theorem bind_eq_ok_iff {ε α β : Type} {x : Except ε α} {f : α → Except ε β} {b : β} :
    (x >>= f) = .ok b ↔ ∃ a, x = .ok a ∧ f a = .ok b := by
  constructor
  · intro h
    cases x with
    | error e => cases h
    | ok a => exact ⟨a, rfl, h⟩
  · rintro ⟨a, rfl, h⟩
    exact h

theorem pure_eq_ok_iff {ε α : Type} {a b : α} : (pure a : Except ε α) = .ok b ↔ a = b :=
  ⟨Except.ok.inj, fun h => congrArg Except.ok h⟩

/-! ## Lengths -/

theorem bigEndian_four (a b c d : UInt8) :
    bigEndian [a, b, c, d] = ((a.toNat * 256 + b.toNat) * 256 + c.toNat) * 256 + d.toNat := by
  simp [bigEndian]

theorem signed_eq (a b c d : UInt8) :
    signed a b c d = if bigEndian [a, b, c, d] < 0x80000000 then
      (bigEndian [a, b, c, d] : Int) else bigEndian [a, b, c, d] - 0x100000000 := by
  rw [bigEndian_four]
  rfl

theorem bigEndian_lt (a b c d : UInt8) : bigEndian [a, b, c, d] < 0x100000000 := by
  have ha := a.toNat_lt
  have hb := b.toNat_lt
  have hc := c.toNat_lt
  have hd := d.toNat_lt
  rw [bigEndian_four]
  omega

/-- A word that spells no length is negative. -/
theorem signed_eq_natCast_iff {a b c d : UInt8} {n : Nat} :
    signed a b c d = n ↔ IsLength n [a, b, c, d] := by
  have hlt := bigEndian_lt a b c d
  rw [signed_eq]
  constructor
  · intro h
    split at h
    · rename_i hfits
      have hn : bigEndian [a, b, c, d] = n := by omega
      exact ⟨rfl, hn, hn ▸ hfits⟩
    · omega
  · rintro ⟨-, rfl, hfits⟩
    rw [if_pos hfits]

theorem readWord_eq_ok_iff {bs rest : List UInt8} {n : Int} :
    readWord bs = .ok (n, rest) ↔
      ∃ a b c d, bs = [a, b, c, d] ++ rest ∧ signed a b c d = n := by
  constructor
  · intro h
    unfold readWord at h
    split at h
    · obtain ⟨rfl, rfl⟩ := Prod.mk.inj (Except.ok.inj h)
      exact ⟨_, _, _, _, rfl, rfl⟩
    · cases h
  · rintro ⟨a, b, c, d, rfl, rfl⟩
    rfl

theorem readLength_eq_ok_iff {m : Measure} {bs rest : List UInt8} {n : Nat} :
    readLength m bs = .ok (n, rest) ↔ ∃ head, IsLength n head ∧ bs = head ++ rest := by
  unfold readLength
  rw [bind_eq_ok_iff]
  constructor
  · rintro ⟨⟨i, bs'⟩, hword, h⟩
    obtain ⟨a, b, c, d, rfl, rfl⟩ := readWord_eq_ok_iff.1 hword
    dsimp only at h
    split at h
    · cases h
    · obtain ⟨hn, rfl⟩ := Prod.mk.inj (Except.ok.inj h)
      exact ⟨[a, b, c, d], signed_eq_natCast_iff.1 (by omega), rfl⟩
  · rintro ⟨head, hhead, rfl⟩
    obtain ⟨a, b, c, d, rfl⟩ := List.length_eq_four.1 hhead.four
    refine ⟨(n, rest), readWord_eq_ok_iff.2 ⟨a, b, c, d, rfl, ?_⟩, ?_⟩
    · exact signed_eq_natCast_iff.2 hhead
    · rfl

theorem isLength_word {n : Nat} (h : n < 0x80000000) : IsLength n (word n) := by
  refine ⟨rfl, ?_, h⟩
  rw [word, bigEndian_four]
  simp only [UInt8.toNat_ofNat']
  omega

/-- Four bytes spell one number, and a number is spelled by four bytes in one way. -/
theorem IsLength.eq_word {n : Nat} {bs : List UInt8} (h : IsLength n bs) : bs = word n := by
  obtain ⟨a, b, c, d, rfl⟩ := List.length_eq_four.1 h.four
  have hn := h.spells
  have ha := a.toNat_lt
  have hb := b.toNat_lt
  have hc := c.toNat_lt
  have hd := d.toNat_lt
  have hfits := h.fits
  rw [bigEndian_four] at hn
  simp only [word, List.cons.injEq, ← UInt8.toNat_inj, UInt8.toNat_ofNat', and_true]
  omega

theorem length_eq_ok_iff {n : Nat} {bs : List UInt8} : length n = .ok bs ↔ IsLength n bs := by
  unfold length
  constructor
  · intro h
    split at h
    · rename_i hfits
      obtain rfl := Except.ok.inj h
      exact isLength_word hfits
    · cases h
  · intro h
    rw [if_pos h.fits, h.eq_word]

/-! ## Reading -/

theorem readText_eq_ok_iff {n : Nat} {bs rest : List UInt8} {s : String} :
    readText n bs = .ok (s, rest) ↔ (Utf8.encode s).length = n ∧ bs = Utf8.encode s ++ rest := by
  unfold readText
  constructor
  · intro h
    split at h
    · cases h
    · rename_i hlen
      split at h
      · rename_i s' hdecode
        obtain ⟨rfl, rfl⟩ := Prod.mk.inj (Except.ok.inj h)
        have htake := Utf8.decode_eq_ok_iff.1 hdecode
        rw [← htake, List.take_append_drop, List.length_take]
        exact ⟨by omega, rfl⟩
      · cases h
  · rintro ⟨rfl, rfl⟩
    rw [if_neg (by simp), List.take_left, List.drop_left, Utf8.decode_encode]

theorem readKey_eq_ok_iff {bs rest : List UInt8} {s : String} :
    readKey bs = .ok (s, rest) ↔ ∃ key, IsText s key ∧ bs = key ++ rest := by
  unfold readKey
  rw [bind_eq_ok_iff]
  constructor
  · rintro ⟨⟨n, bs'⟩, hlen, htext⟩
    obtain ⟨head, hhead, rfl⟩ := readLength_eq_ok_iff.1 hlen
    obtain ⟨rfl, rfl⟩ := readText_eq_ok_iff.1 htext
    exact ⟨_, ⟨head, hhead, rfl⟩, (List.append_assoc _ _ _).symm⟩
  · rintro ⟨key, ⟨head, hhead, rfl⟩, rfl⟩
    rw [List.append_assoc]
    exact ⟨(_, _), readLength_eq_ok_iff.2 ⟨head, hhead, rfl⟩, readText_eq_ok_iff.2 ⟨rfl, rfl⟩⟩

/-- The only word of -1. -/
theorem signed_eq_neg_one_iff {a b c d : UInt8} :
    signed a b c d = -1 ↔ [a, b, c, d] = [0xFF, 0xFF, 0xFF, 0xFF] := by
  have ha := a.toNat_lt
  have hb := b.toNat_lt
  have hc := c.toNat_lt
  have hd := d.toNat_lt
  rw [signed_eq, bigEndian_four]
  simp only [List.cons.injEq, ← UInt8.toNat_inj, and_true, UInt8.reduceToNat]
  split <;> omega

theorem readValue_eq_ok_iff {bs rest : List UInt8} {v : Option String} :
    readValue bs = .ok (v, rest) ↔ ∃ value, IsValue v value ∧ bs = value ++ rest := by
  unfold readValue
  rw [bind_eq_ok_iff]
  constructor
  · rintro ⟨⟨i, bs'⟩, hword, h⟩
    obtain ⟨a, b, c, d, rfl, rfl⟩ := readWord_eq_ok_iff.1 hword
    dsimp only at h
    split at h
    · rename_i hnull
      obtain ⟨rfl, rfl⟩ := Prod.mk.inj (Except.ok.inj h)
      exact ⟨[a, b, c, d], signed_eq_neg_one_iff.1 hnull, rfl⟩
    · split at h
      · cases h
      · rename_i hsign
        obtain ⟨⟨s, bs''⟩, htext, h⟩ := bind_eq_ok_iff.1 h
        obtain ⟨rfl, rfl⟩ := Prod.mk.inj (Except.ok.inj h)
        obtain ⟨hlen, rfl⟩ := readText_eq_ok_iff.1 htext
        have hhead : IsLength (Utf8.encode s).length [a, b, c, d] :=
          signed_eq_natCast_iff.1 (by omega)
        exact ⟨_, ⟨_, hhead, rfl⟩, (List.append_assoc _ _ _).symm⟩
  · rintro ⟨value, hvalue, rfl⟩
    cases v with
    | none =>
      obtain rfl : value = [0xFF, 0xFF, 0xFF, 0xFF] := hvalue
      have hword : readWord ([0xFF, 0xFF, 0xFF, 0xFF] ++ rest) = .ok (-1, rest) :=
        readWord_eq_ok_iff.2 ⟨_, _, _, _, rfl, signed_eq_neg_one_iff.2 rfl⟩
      exact ⟨(-1, rest), hword, rfl⟩
    | some s =>
      obtain ⟨head, hhead, rfl⟩ := hvalue
      obtain ⟨a, b, c, d, rfl⟩ := List.length_eq_four.1 hhead.four
      have hword : signed a b c d = (Utf8.encode s).length := signed_eq_natCast_iff.2 hhead
      rw [List.append_assoc]
      refine ⟨_, readWord_eq_ok_iff.2 ⟨a, b, c, d, rfl, hword⟩, ?_⟩
      dsimp only
      rw [if_neg (by omega), if_neg (by omega), bind_eq_ok_iff]
      exact ⟨(s, rest), readText_eq_ok_iff.2 ⟨rfl, rfl⟩, rfl⟩

theorem readPairs_eq_ok_iff {n : Nat} {bs rest : List UInt8} {ps : List Pair} :
    readPairs n bs = .ok (ps, rest) ↔
      ps.length = n ∧ ∃ body, IsPairs ps body ∧ bs = body ++ rest := by
  induction n generalizing bs ps with
  | zero =>
    constructor
    · intro h
      obtain ⟨rfl, rfl⟩ := Prod.mk.inj (Except.ok.inj h)
      exact ⟨rfl, [], .nil, rfl⟩
    · rintro ⟨hlen, body, hbody, rfl⟩
      obtain rfl := List.eq_nil_of_length_eq_zero hlen
      cases hbody
      rfl
  | succ n ih =>
    unfold readPairs
    simp only [bind_eq_ok_iff]
    constructor
    · rintro ⟨⟨k, bs₁⟩, hkey, ⟨v, bs₂⟩, hvalue, ⟨qs, bs₃⟩, hpairs, h⟩
      obtain ⟨rfl, rfl⟩ := Prod.mk.inj (Except.ok.inj h)
      obtain ⟨key, hk, rfl⟩ := readKey_eq_ok_iff.1 hkey
      obtain ⟨value, hv, rfl⟩ := readValue_eq_ok_iff.1 hvalue
      obtain ⟨hlen, body, hps, rfl⟩ := ih.1 hpairs
      refine ⟨congrArg (· + 1) hlen, key ++ value ++ body, .cons hk hv hps, ?_⟩
      simp only [List.append_assoc]
    · rintro ⟨hlen, body, hbody, rfl⟩
      cases hbody with
      | nil => cases hlen
      | @cons k v ps key value body hk hv hps =>
        simp only [List.append_assoc]
        exact ⟨(k, _), readKey_eq_ok_iff.2 ⟨key, hk, rfl⟩,
          (v, _), readValue_eq_ok_iff.2 ⟨value, hv, rfl⟩,
          (ps, rest), ih.2 ⟨Nat.succ.inj hlen, body, hps, rfl⟩, rfl⟩

/-- **Reading accepts exactly the messages of the grammar.** -/
theorem message_eq_ok_iff {bs : List UInt8} {ps : List Pair} :
    message bs = .ok ps ↔ IsMessage ps bs := by
  unfold message
  simp only [bind_eq_ok_iff]
  constructor
  · rintro ⟨⟨n, bs₁⟩, hcount, ⟨qs, bs₂⟩, hpairs, h⟩
    dsimp only at h
    split at h
    · rename_i hend
      obtain rfl := Except.ok.inj h
      obtain rfl := List.isEmpty_iff.1 hend
      obtain ⟨count, hhead, rfl⟩ := readLength_eq_ok_iff.1 hcount
      obtain ⟨rfl, body, hbody, rfl⟩ := readPairs_eq_ok_iff.1 hpairs
      exact ⟨count, body, hhead, hbody, by rw [List.append_nil]⟩
    · cases h
  · rintro ⟨count, body, hcount, hbody, rfl⟩
    refine ⟨(ps.length, body), readLength_eq_ok_iff.2 ⟨count, hcount, rfl⟩, (ps, []), ?_, rfl⟩
    exact readPairs_eq_ok_iff.2 ⟨rfl, body, hbody, (List.append_nil body).symm⟩

/-! ## Writing -/

theorem text_eq_ok_iff {s : String} {bs : List UInt8} : text s = .ok bs ↔ IsText s bs := by
  unfold text
  simp only [bind_eq_ok_iff, length_eq_ok_iff, pure_eq_ok_iff]
  constructor
  · rintro ⟨head, hhead, rfl⟩
    exact ⟨head, hhead, rfl⟩
  · rintro ⟨head, hhead, rfl⟩
    exact ⟨head, hhead, rfl⟩

theorem value_eq_ok_iff {v : Option String} {bs : List UInt8} :
    value v = .ok bs ↔ IsValue v bs := by
  cases v with
  | some s => exact text_eq_ok_iff
  | none =>
    constructor
    · intro h
      exact (Except.ok.inj h).symm
    · intro h
      exact congrArg Except.ok (Eq.symm h)

theorem pairs_eq_ok_iff {ps : List Pair} {bs : List UInt8} :
    pairs ps = .ok bs ↔ IsPairs ps bs := by
  induction ps generalizing bs with
  | nil =>
    constructor
    · intro h
      obtain rfl := Except.ok.inj h
      exact .nil
    · intro h
      cases h
      rfl
  | cons p ps ih =>
    unfold pairs
    simp only [bind_eq_ok_iff, text_eq_ok_iff, value_eq_ok_iff, ih, pure_eq_ok_iff]
    constructor
    · rintro ⟨key, hk, value, hv, rest, hps, rfl⟩
      exact .cons hk hv hps
    · intro h
      cases h with
      | cons hk hv hps => exact ⟨_, hk, _, hv, _, hps, rfl⟩

/-- **Writing gives the message of the entries.** -/
theorem encode_eq_ok_iff {h : Hstore} {bs : List UInt8} :
    encode h = .ok bs ↔ IsMessage h.entries bs := by
  unfold encode IsMessage
  simp only [bind_eq_ok_iff, length_eq_ok_iff, pairs_eq_ok_iff, pure_eq_ok_iff]
  constructor
  · rintro ⟨count, hcount, body, hbody, rfl⟩
    exact ⟨count, body, hcount, hbody, rfl⟩
  · rintro ⟨count, body, hcount, hbody, rfl⟩
    exact ⟨count, hcount, body, hbody, rfl⟩

/-! ## One list of pairs, one message -/

theorem IsMessage.unique {ps qs : List Pair} {bs : List UInt8} (hp : IsMessage ps bs)
    (hq : IsMessage qs bs) : ps = qs := by
  have hread := message_eq_ok_iff.2 hp
  rw [message_eq_ok_iff.2 hq] at hread
  exact (Except.ok.inj hread).symm

theorem IsMessage.iff_eq {ps : List Pair} {bs : List UInt8} (hp : IsMessage ps bs)
    (qs : List Pair) : IsMessage qs bs ↔ qs = ps := by
  constructor
  · intro hq
    exact hq.unique hp
  · rintro rfl
    exact hp

theorem IsMessage.unique_bytes {ps : List Pair} {bs cs : List UInt8} (hb : IsMessage ps bs)
    (hc : IsMessage ps cs) : bs = cs := by
  obtain ⟨count, body, hcount, hbody, rfl⟩ := hb
  obtain ⟨count', body', hcount', hbody', rfl⟩ := hc
  have hsame := pairs_eq_ok_iff.2 hbody
  rw [pairs_eq_ok_iff.2 hbody'] at hsame
  rw [hcount.eq_word, hcount'.eq_word, Except.ok.inj hsame]

theorem decode_eq_ok_iff {bs : List UInt8} {h : Hstore} :
    decode bs = .ok h ↔ ∃ ps, IsMessage ps bs ∧ .ofPairs ps = h := by
  unfold decode
  simp only [bind_eq_ok_iff, message_eq_ok_iff, pure_eq_ok_iff]

end HstoreKit.Wire

namespace HstoreKit.Hstore

theorem mapError_eq_ok_iff {ε ε' α : Type} {f : ε → ε'} {x : Except ε α} {a : α} :
    x.mapError f = .ok a ↔ x = .ok a := by
  cases x with
  | error e => exact ⟨nofun, nofun⟩
  | ok b =>
    constructor <;> intro h <;> exact congrArg Except.ok (Except.ok.inj h)

theorem encodeBinary_eq_ok_iff {h : Hstore} {bs : List UInt8} :
    h.encodeBinary = .ok bs ↔ Wire.IsMessage h.entries bs := by
  rw [encodeBinary, mapError_eq_ok_iff, Wire.encode_eq_ok_iff]

theorem decodeBinary_eq_ok_iff {bs : List UInt8} {h : Hstore} :
    decodeBinary bs = .ok h ↔ ∃ ps, Wire.IsMessage ps bs ∧ ofPairs ps = h := by
  rw [decodeBinary, mapError_eq_ok_iff, Wire.decode_eq_ok_iff]

theorem decodeBinary_eq_error_iff {bs : List UInt8} :
    (∃ fault, decodeBinary bs = .error (.invalidBinary fault)) ↔
      ∀ ps, ¬ Wire.IsMessage ps bs := by
  constructor
  · rintro ⟨fault, hfault⟩ ps hps
    rw [decodeBinary_eq_ok_iff.2 ⟨ps, hps, rfl⟩] at hfault
    cases hfault
  · intro hnone
    unfold decodeBinary
    cases hdecode : Wire.decode bs with
    | error fault => exact ⟨fault, rfl⟩
    | ok h =>
      obtain ⟨ps, hps, -⟩ := Wire.decode_eq_ok_iff.1 hdecode
      exact absurd hps (hnone ps)

/-- **A binary form is read exactly when it is a message.** Its pairs are then the only ones that it
is a message of, and they are written one after the other, so that a repeated key keeps its last
value. Bytes that are no message are refused as such, whatever they are. -/
theorem decodeBinary_iff_isMessage (bs : List UInt8) :
    (∀ h, decodeBinary bs = .ok h ↔
      ∃ ps, (∀ qs, Wire.IsMessage qs bs ↔ qs = ps) ∧ h = ofPairs ps ∧
        ∀ key, h.lookup? key = PairList.find? key ps.reverse) ∧
    ((∃ fault, decodeBinary bs = .error (.invalidBinary fault)) ↔
      ∀ ps, ¬ Wire.IsMessage ps bs) := by
  refine ⟨fun h => ?_, decodeBinary_eq_error_iff⟩
  rw [decodeBinary_eq_ok_iff]
  constructor
  · rintro ⟨ps, hps, rfl⟩
    exact ⟨ps, hps.iff_eq, rfl, lookup?_ofPairs ps⟩
  · rintro ⟨ps, honly, hh, -⟩
    exact ⟨ps, (honly ps).2 rfl, hh.symm⟩

end HstoreKit.Hstore
