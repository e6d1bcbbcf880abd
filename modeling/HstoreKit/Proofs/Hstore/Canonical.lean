import HstoreKit.Proofs.Hstore.Message

/-!
# The canonical message

An hstore that fits has one message that writing gives. Among the messages that are read as this
hstore it is a shortest one, and it is the only one whose keys ascend.

* `Fits.exists_isMessage`: what fits has a message;
* `ofPairs_entries_eq_iff`: pairs in key order are the entries that they give;
* `encodeBinary_canonical`: the two directions of the codec.
-/

namespace HstoreKit.Wire

/-! ## What fits -/

/-- The bytes of the key and of the value can be counted by a length. -/
structure PairFits (p : Pair) : Prop where
  key : (Utf8.encode p.1).length < 0x80000000
  value : ∀ v, p.2 = some v → (Utf8.encode v).length < 0x80000000

theorem exists_isText {s : String} (h : (Utf8.encode s).length < 0x80000000) : ∃ bs, IsText s bs :=
  ⟨_, _, isLength_word h, rfl⟩

theorem exists_isValue {v : Option String}
    (h : ∀ s, v = some s → (Utf8.encode s).length < 0x80000000) : ∃ bs, IsValue v bs := by
  cases v with
  | none => exact ⟨_, rfl⟩
  | some s => exact exists_isText (h s rfl)

theorem exists_isPairs {ps : List Pair} (h : ∀ p ∈ ps, PairFits p) : ∃ bs, IsPairs ps bs := by
  induction ps with
  | nil => exact ⟨[], .nil⟩
  | cons p ps ih =>
    have hp := h p List.mem_cons_self
    obtain ⟨key, hk⟩ := exists_isText hp.key
    obtain ⟨value, hv⟩ := exists_isValue hp.value
    obtain ⟨rest, hps⟩ := ih fun q hq => h q (List.mem_cons_of_mem p hq)
    exact ⟨key ++ value ++ rest, .cons hk hv hps⟩

theorem IsText.fits {s : String} {bs : List UInt8} (h : IsText s bs) :
    (Utf8.encode s).length < 0x80000000 := by
  obtain ⟨head, hhead, -⟩ := h
  exact hhead.fits

theorem IsPairs.fits {ps : List Pair} {bs : List UInt8} (h : IsPairs ps bs) :
    ∀ p ∈ ps, PairFits p := by
  induction h with
  | nil =>
    intro p hp
    cases hp
  | @cons k v ps key value rest hk hv _ ih =>
    intro p hp
    rcases List.mem_cons.1 hp with rfl | hp
    · refine ⟨hk.fits, ?_⟩
      rintro s rfl
      exact IsText.fits hv
    · exact ih p hp

/-! ## How long a message is -/

/-- The bytes of a text behind its length. -/
def textSize (s : String) : Nat :=
  4 + (Utf8.encode s).length

def valueSize : Option String → Nat
  | some s => textSize s
  | none => 4

def pairSize (p : Pair) : Nat :=
  textSize p.1 + valueSize p.2

theorem IsText.length_eq {s : String} {bs : List UInt8} (h : IsText s bs) :
    bs.length = textSize s := by
  obtain ⟨head, hhead, rfl⟩ := h
  rw [List.length_append, hhead.four, textSize]

theorem IsValue.length_eq {v : Option String} {bs : List UInt8} (h : IsValue v bs) :
    bs.length = valueSize v := by
  cases v with
  | some s => exact IsText.length_eq h
  | none =>
    obtain rfl : bs = [0xFF, 0xFF, 0xFF, 0xFF] := h
    rfl

theorem IsPairs.length_eq {ps : List Pair} {bs : List UInt8} (h : IsPairs ps bs) :
    bs.length = (ps.map pairSize).sum := by
  induction h with
  | nil => rfl
  | cons hk hv _ ih =>
    rw [List.map_cons, List.sum_cons, List.length_append, List.length_append, ih, hk.length_eq,
      hv.length_eq, pairSize]

theorem IsMessage.length_eq {ps : List Pair} {bs : List UInt8} (h : IsMessage ps bs) :
    bs.length = 4 + (ps.map pairSize).sum := by
  obtain ⟨count, body, hcount, hbody, rfl⟩ := h
  rw [List.length_append, hcount.four, hbody.length_eq]

end HstoreKit.Wire

namespace HstoreKit.PairList

variable {β : Type}

theorem sum_insert_le (w : String × β → Nat) {k : String} {v : β} {l : List (String × β)} :
    ((insert k v l).map w).sum ≤ (l.map w).sum + w (k, v) := by
  induction l with
  | nil => simp [insert]
  | cons p l ih =>
    rw [insert]
    split
    · simp only [List.map_cons, List.sum_cons]
      omega
    · split
      · simp only [List.map_cons, List.sum_cons]
        omega
      · simp only [List.map_cons, List.sum_cons]
        omega

/-- Pairs that are written weigh at most as much as they do together with what was there. -/
theorem sum_insertAll_le (w : String × β → Nat) {l ps : List (String × β)} :
    ((insertAll l ps).map w).sum ≤ (l.map w).sum + (ps.map w).sum := by
  induction ps generalizing l with
  | nil => exact Nat.le_refl _
  | cons p ps ih =>
    have hrest : ((insertAll (insert p.1 p.2 l) ps).map w).sum ≤
        ((insert p.1 p.2 l).map w).sum + (ps.map w).sum := ih
    have hfirst : ((insert p.1 p.2 l).map w).sum ≤ (l.map w).sum + w p := sum_insert_le w
    rw [List.map_cons, List.sum_cons]
    exact Nat.le_trans hrest (by omega)

end HstoreKit.PairList

namespace HstoreKit.Hstore

/-- The pairs, and the bytes of every key and value, can be counted by a length. -/
structure Fits (h : Hstore) : Prop where
  size : h.size < 0x80000000
  pairs : ∀ p ∈ h.entries, Wire.PairFits p

theorem Fits.exists_isMessage {h : Hstore} (hf : h.Fits) : ∃ bs, Wire.IsMessage h.entries bs := by
  obtain ⟨body, hbody⟩ := Wire.exists_isPairs hf.pairs
  exact ⟨_, Wire.word h.size, body, Wire.isLength_word hf.size, hbody, rfl⟩

theorem size_ofPairs_le (ps : List Pair) : (ofPairs ps).size ≤ ps.length := by
  have hsum : ((ofPairs ps).entries.map fun _ => 1).sum ≤ 0 + (ps.map fun _ => 1).sum :=
    PairList.sum_insertAll_le fun _ => 1
  rwa [List.map_const', List.map_const', List.sum_replicate_nat, List.sum_replicate_nat,
    Nat.mul_one, Nat.mul_one, Nat.zero_add] at hsum

theorem fits_ofPairs {ps : List Pair} {bs : List UInt8} (h : Wire.IsMessage ps bs) :
    (ofPairs ps).Fits := by
  obtain ⟨count, body, hcount, hbody, -⟩ := h
  constructor
  · exact Nat.lt_of_le_of_lt (size_ofPairs_le ps) hcount.fits
  · intro p hp
    rcases PairList.mem_insertAll hp with hp | hp
    · cases hp
    · exact hbody.fits p hp

/-- A message is never shorter than that of the hstore it is read as. -/
theorem length_le_of_isMessage {ps : List Pair} {bs cs : List UInt8} (hb : Wire.IsMessage ps bs)
    (hc : Wire.IsMessage (ofPairs ps).entries cs) : cs.length ≤ bs.length := by
  have hsum : ((ofPairs ps).entries.map Wire.pairSize).sum ≤ 0 + (ps.map Wire.pairSize).sum :=
    PairList.sum_insertAll_le Wire.pairSize
  rw [hb.length_eq, hc.length_eq]
  omega

/-! ## The canonical order -/

theorem ascending_iff_encode {ps : List Pair} :
    PairList.Ascending ps ↔ (ps.map fun p => Utf8.encode p.1).Pairwise (· < ·) := by
  rw [List.pairwise_map]
  constructor
  · intro h
    exact h.imp Utf8.encode_lt_encode_iff.2
  · intro h
    exact h.imp Utf8.encode_lt_encode_iff.1

/-- Pairs in key order are the entries that they give, and no other pairs are. -/
theorem ofPairs_entries_eq_iff {ps : List Pair} :
    (ofPairs ps).entries = ps ↔ PairList.Ascending ps := by
  constructor
  · intro h
    rw [← h]
    exact (ofPairs ps).ascending
  · intro h
    exact PairList.insertAll_eq_append h

/-- **The binary form is a bijection onto the canonical messages.** What fits is written, and read
back from what was written. What is read from any message is written again, in no more bytes, and as
the same message exactly when the keys of the message ascend strictly by their bytes. -/
theorem encodeBinary_canonical :
    (∀ h : Hstore, h.Fits → ∃ bs, h.encodeBinary = .ok bs ∧ decodeBinary bs = .ok h) ∧
    ∀ (bs : List UInt8) (h : Hstore), decodeBinary bs = .ok h →
      ∃ cs, h.encodeBinary = .ok cs ∧ cs.length ≤ bs.length ∧ decodeBinary cs = .ok h ∧
        ∃ ps, (∀ qs, Wire.IsMessage qs bs ↔ qs = ps) ∧
          (cs = bs ↔ (ps.map fun p => Utf8.encode p.1).Pairwise (· < ·)) := by
  have hback : ∀ {h : Hstore} {bs}, Wire.IsMessage h.entries bs → decodeBinary bs = .ok h := by
    intro h bs hbs
    exact decodeBinary_eq_ok_iff.2 ⟨h.entries, hbs, ofPairs_entries h⟩
  constructor
  · intro h hfits
    obtain ⟨bs, hbs⟩ := hfits.exists_isMessage
    exact ⟨bs, encodeBinary_eq_ok_iff.2 hbs, hback hbs⟩
  · intro bs h hdecode
    obtain ⟨ps, hps, rfl⟩ := decodeBinary_eq_ok_iff.1 hdecode
    obtain ⟨cs, hcs⟩ := (fits_ofPairs hps).exists_isMessage
    refine ⟨cs, encodeBinary_eq_ok_iff.2 hcs, length_le_of_isMessage hps hcs, hback hcs, ps,
      hps.iff_eq, ?_⟩
    rw [← ascending_iff_encode, ← ofPairs_entries_eq_iff]
    constructor
    · rintro rfl
      exact hcs.unique hps
    · intro he
      rw [he] at hcs
      exact hcs.unique_bytes hps

/-- The pairs `b` and the text `x`, `a` and NULL, `b` and the empty text. -/
def repeatingMessage : List UInt8 :=
  [0, 0, 0, 3, 0, 0, 0, 1, 98, 0, 0, 0, 1, 120, 0, 0, 0, 1, 97, 0xFF, 0xFF, 0xFF, 0xFF,
    0, 0, 0, 1, 98, 0, 0, 0, 0]

theorem decodeBinary_repeatingMessage :
    decodeBinary repeatingMessage = .ok (ofPairs [("a", none), ("b", some "")]) := by
  cbv

theorem encodeBinary_canonical_repeatingMessage :
    (∃ bs, (ofPairs [("a", none), ("b", some "")]).encodeBinary = .ok bs ∧
      decodeBinary bs = .ok (ofPairs [("a", none), ("b", some "")])) ∧
    ∃ cs, (ofPairs [("a", none), ("b", some "")]).encodeBinary = .ok cs ∧
      cs.length ≤ repeatingMessage.length ∧
      decodeBinary cs = .ok (ofPairs [("a", none), ("b", some "")]) ∧
      ∃ ps, (∀ qs, Wire.IsMessage qs repeatingMessage ↔ qs = ps) ∧
        (cs = repeatingMessage ↔ (ps.map fun p => Utf8.encode p.1).Pairwise (· < ·)) := by
  obtain ⟨ps, hps, hfrom⟩ := decodeBinary_eq_ok_iff.1 decodeBinary_repeatingMessage
  exact ⟨encodeBinary_canonical.1 _ (hfrom ▸ fits_ofPairs hps),
    encodeBinary_canonical.2 _ _ decodeBinary_repeatingMessage⟩

end HstoreKit.Hstore
