import HstoreKit.Proofs.Hstore.Message

/-!
# Messages that are cut off or go on

A message ends where its count and its lengths say, so no message is the beginning of another one.

* `Truncated`: the faults that tell of an end where more is to be read;
* `ReadsForward`: a reader that finds no other fault in the front part of what it can read;
* `message_of_cut`, `message_of_append`: a message that is cut off, and one that goes on;
* `decodeBinary_cut_or_append`: what is reported of both.
-/

namespace HstoreKit.Wire

/-- The bytes end where more are expected. -/
inductive Truncated : Fault → Prop
  | endOfInput : Truncated .endOfInput
  | short {expected left : Nat} (fewer : left < expected) : Truncated (.short expected left)

theorem Truncated.message {fault : Fault} (h : Truncated fault) :
    fault.message = "unexpected end of input" ∨
      ∃ expected left : Nat, left < expected ∧ fault.message =
        "expected " ++ toString expected ++ " bytes, " ++ toString left ++ " left" := by
  cases h with
  | endOfInput => exact .inl rfl
  | @short expected left fewer => exact .inr ⟨expected, left, fewer, rfl⟩

/-! ## The front part -/

/-- Where a reader reads some bytes, it reads the same from a front part that holds all it takes,
and finds a shorter one truncated. -/
def ReadsForward {α : Type} (read : List UInt8 → Except Fault (α × List UInt8)) : Prop :=
  ∀ ⦃front more rest a⦄, read (front ++ more) = .ok (a, rest) →
    (∃ left, rest = left ++ more ∧ read front = .ok (a, left)) ∨
      ∃ fault, Truncated fault ∧ read front = .error fault

theorem ReadsForward.pure {α : Type} (a : α) :
    ReadsForward fun bs => (.ok (a, bs) : Except Fault (α × List UInt8)) := by
  intro front more rest b h
  obtain ⟨rfl, rfl⟩ := Prod.mk.inj (Except.ok.inj h)
  exact .inl ⟨front, rfl, rfl⟩

theorem ReadsForward.error {α : Type} (fault : Fault) :
    ReadsForward fun _ => (.error fault : Except Fault (α × List UInt8)) := by
  intro front more rest a h
  cases h

/-- Readers one after the other. -/
theorem ReadsForward.bind {α β : Type} {read : List UInt8 → Except Fault (α × List UInt8)}
    {next : α → List UInt8 → Except Fault (β × List UInt8)} (hread : ReadsForward read)
    (hnext : ∀ a, ReadsForward (next a)) :
    ReadsForward (fun bs => do
      let (a, bs) ← read bs
      next a bs) := by
  intro front more rest b h
  obtain ⟨⟨a, middle⟩, hfirst, hsecond⟩ := bind_eq_ok_iff.1 h
  dsimp only at hsecond ⊢
  rcases hread hfirst with ⟨left, rfl, hok⟩ | ⟨fault, htruncated, herror⟩
  · rw [hok]
    exact hnext a hsecond
  · rw [herror]
    exact .inr ⟨fault, htruncated, rfl⟩

theorem readsForward_readWord : ReadsForward readWord := by
  intro front more rest n h
  match front, h with
  | a :: b :: c :: d :: left, h =>
    obtain ⟨rfl, rfl⟩ := Prod.mk.inj (Except.ok.inj h)
    exact .inl ⟨left, rfl, rfl⟩
  | [], _ | [_], _ | [_, _], _ | [_, _, _], _ => exact .inr ⟨_, .endOfInput, rfl⟩

theorem readsForward_readLength (m : Measure) : ReadsForward (readLength m) := by
  have hsign (n : Int) : ReadsForward fun bs : List UInt8 =>
      if n < 0 then .error (.negative m n) else .ok (n.toNat, bs) := by
    by_cases hn : n < 0
    · simpa only [if_pos hn] using .error (.negative m n)
    · simpa only [if_neg hn] using .pure n.toNat
  exact readsForward_readWord.bind hsign

/-- Where the bytes suffice they are the same bytes, so they are text or not in both. -/
theorem readsForward_readText (n : Nat) : ReadsForward (readText n) := by
  intro front more rest s h
  by_cases hlen : front.length < n
  · exact .inr ⟨_, .short hlen, if_pos hlen⟩
  · obtain ⟨hbytes, hsplit⟩ := readText_eq_ok_iff.1 h
    obtain ⟨left, rfl⟩ : Utf8.encode s <+: front :=
      List.prefix_of_prefix_length_le ⟨rest, hsplit.symm⟩ ⟨more, rfl⟩ (by omega)
    rw [List.append_assoc] at hsplit
    exact .inl ⟨left, (List.append_cancel_left hsplit).symm, readText_eq_ok_iff.2 ⟨hbytes, rfl⟩⟩

theorem readsForward_readKey : ReadsForward readKey :=
  (readsForward_readLength .key).bind readsForward_readText

theorem readsForward_readValue : ReadsForward readValue := by
  have hmark (n : Int) : ReadsForward fun bs : List UInt8 =>
      if n = -1 then return (none, bs)
      else if n < 0 then .error (.negative .value n)
      else readText n.toNat bs >>= fun read => return (some read.1, read.2) := by
    by_cases hnull : n = -1
    · simpa only [if_pos hnull] using .pure none
    · by_cases hn : n < 0
      · simpa only [if_neg hnull, if_pos hn] using .error (.negative .value n)
      · simp only [if_neg hnull, if_neg hn]
        exact (readsForward_readText n.toNat).bind fun s => .pure (some s)
  exact readsForward_readWord.bind hmark

theorem readsForward_readPairs (n : Nat) : ReadsForward (readPairs n) := by
  induction n with
  | zero => exact .pure []
  | succ n ih =>
    exact readsForward_readKey.bind fun k => readsForward_readValue.bind fun v =>
      ih.bind fun ps => .pure ((k, v) :: ps)

/-! ## The whole message -/

/-- The front part of a message is truncated, wherever it is cut. -/
theorem message_of_cut {front more : List UInt8} {ps : List Pair} (h : IsMessage ps (front ++ more))
    (hmore : more ≠ []) : ∃ fault, Truncated fault ∧ message front = .error fault := by
  obtain ⟨count, body, hcount, hbody, hsplit⟩ := h
  have hlength : readLength .pairCount (front ++ more) = .ok (ps.length, body) :=
    readLength_eq_ok_iff.2 ⟨count, hcount, hsplit⟩
  have hpairs : readPairs ps.length body = .ok (ps, []) :=
    readPairs_eq_ok_iff.2 ⟨rfl, body, hbody, (List.append_nil body).symm⟩
  unfold message
  rcases readsForward_readLength _ hlength with ⟨left, rfl, hok⟩ | ⟨fault, htruncated, herror⟩
  · rw [hok]
    -- the count is whole; were the pairs whole too, nothing would have been cut off
    rcases readsForward_readPairs _ hpairs with ⟨behind, hend, -⟩ | ⟨fault, htruncated, herror⟩
    · exact absurd (List.append_eq_nil_iff.1 hend.symm).2 hmore
    · refine ⟨fault, htruncated, ?_⟩
      simp only [bind, Except.bind, herror]
  · rw [herror]
    exact ⟨fault, htruncated, rfl⟩

/-- Nothing behind a message is read. -/
theorem message_of_append {bs more : List UInt8} {ps : List Pair} (h : IsMessage ps bs)
    (hmore : more ≠ []) : message (bs ++ more) = .error (.trailing more.length) := by
  obtain ⟨count, body, hcount, hbody, rfl⟩ := h
  have hlength : readLength .pairCount (count ++ (body ++ more)) =
      .ok (ps.length, body ++ more) := readLength_eq_ok_iff.2 ⟨count, hcount, rfl⟩
  have hpairs : readPairs ps.length (body ++ more) = .ok (ps, more) :=
    readPairs_eq_ok_iff.2 ⟨rfl, body, hbody, rfl⟩
  simp only [message, List.append_assoc, hlength, hpairs, bind, Except.bind]
  rw [if_neg (mt List.isEmpty_iff.1 hmore)]

end HstoreKit.Wire

namespace HstoreKit.Hstore

open Wire

theorem decodeBinary_of_message_eq_error {bs : List UInt8} {fault : Fault}
    (h : message bs = .error fault) : decodeBinary bs = .error (.invalidBinary fault) := by
  rw [decodeBinary, decode, h]
  rfl

/-- **A binary form that is cut off or goes on is refused, and for that reason.** Every shorter
front part is found to end too early, whether the cut is in the count, in a length, between pairs or
inside a character, and never faulty in itself. Of a longer one exactly what it has too much is
reported. So no binary form is the beginning of another. -/
theorem decodeBinary_cut_or_append {bs : List UInt8} {h : Hstore} (hok : decodeBinary bs = .ok h) :
    (∀ front, front <+: bs → front ≠ bs →
      ∃ fault, decodeBinary front = .error (.invalidBinary fault) ∧ Truncated fault ∧
        (fault.message = "unexpected end of input" ∨
          ∃ expected left : Nat, left < expected ∧ fault.message =
            "expected " ++ toString expected ++ " bytes, " ++ toString left ++ " left")) ∧
    (∀ more, more ≠ [] →
      decodeBinary (bs ++ more) = .error (.invalidBinary (.trailing more.length)) ∧
        (Fault.trailing more.length).message = toString more.length ++ " trailing bytes") ∧
    ∀ cs g, decodeBinary cs = .ok g → bs <+: cs → bs = cs := by
  obtain ⟨ps, hps, -⟩ := decodeBinary_eq_ok_iff.1 hok
  have hlonger {more : List UInt8} (hmore : more ≠ []) :
      decodeBinary (bs ++ more) = .error (.invalidBinary (.trailing more.length)) :=
    decodeBinary_of_message_eq_error (message_of_append hps hmore)
  refine ⟨?_, fun more hmore => ⟨hlonger hmore, rfl⟩, ?_⟩
  · rintro front ⟨more, rfl⟩ hne
    have hmore : more ≠ [] := by
      rintro rfl
      exact hne (List.append_nil front).symm
    obtain ⟨fault, htruncated, herror⟩ := message_of_cut hps hmore
    exact ⟨fault, decodeBinary_of_message_eq_error herror, htruncated, htruncated.message⟩
  · rintro cs g hcs ⟨more, rfl⟩
    by_cases hmore : more = []
    · rw [hmore, List.append_nil]
    · rw [hlonger hmore] at hcs
      cases hcs

/-- The key `é` with NULL. -/
def accentMessage : List UInt8 :=
  [0, 0, 0, 1, 0, 0, 0, 2, 0xC3, 0xA9, 0xFF, 0xFF, 0xFF, 0xFF]

theorem decodeBinary_accentMessage : decodeBinary accentMessage = .ok (ofPairs [("é", none)]) := by
  cbv

/-- A cut in the middle of the character, and one byte too many. -/
theorem decodeBinary_cut_or_append_accentMessage :
    decodeBinary accentMessage = .ok (ofPairs [("é", none)]) ∧
    (∃ fault, decodeBinary (accentMessage.take 9) = .error (.invalidBinary fault) ∧
      Truncated fault) ∧
    decodeBinary (accentMessage ++ [0]) = .error (.invalidBinary (.trailing 1)) := by
  obtain ⟨hcut, hlonger, -⟩ := decodeBinary_cut_or_append decodeBinary_accentMessage
  obtain ⟨fault, herror, htruncated, -⟩ := hcut (accentMessage.take 9) (by decide) (by decide)
  exact ⟨decodeBinary_accentMessage, ⟨fault, herror, htruncated⟩, (hlonger [0] (by decide)).1⟩

end HstoreKit.Hstore
