import HstoreKit.Proofs.Hstore.ObjectText
import HstoreKit.Proofs.Json.ReadBack

/-!
# Hstores written as JSON

An hstore is written as the compact text of its object and a line feed. The text is described here
pair by pair, apart from the object and its printer.

* `Sink.writeAll_eq_write`: it does not matter to a sink in which pieces it is written to;
* `marshal_eq_write`: writing an hstore is writing its line;
* `parse?_toJsonText`, `ofJsonText_toJsonText`: the text read back, as an object and as an hstore;
* `marshal_readBack`: what a sink with bounded room holds, and what is read from it.
-/

namespace HstoreKit.Hstore

/-! ## The line -/

/-- A pair as it stands in the text: key and value as JSON strings, null for SQL NULL. -/
def jsonMember (p : Pair) : List Char :=
  Json.quoted p.1 ++ ':' :: match p.2 with
    | some s => Json.quoted s
    | none => ['n', 'u', 'l', 'l']

/-- The pairs in key order, with commas between them and in braces. -/
def jsonText (h : Hstore) : String :=
  String.ofList ('\x7b' :: (List.intercalate [','] (h.entries.map jsonMember) ++ ['\x7d']))

/-- The bytes of the text and of the line feed behind it. -/
def jsonLine (h : Hstore) : List UInt8 :=
  Utf8.encode (h.jsonText ++ "\n")

theorem jsonMember_eq (p : Pair) : jsonMember p = Json.memberText jsonOf p := by
  obtain ⟨k, v⟩ := p
  cases v <;> rfl

theorem map_jsonMember (ps : List Pair) :
    List.intercalate [','] (ps.map jsonMember) = Json.membersText jsonOf ps := by
  rw [funext jsonMember_eq, Json.membersText]

theorem toJsonText_eq (h : Hstore) : h.toJsonText = h.jsonText := by
  rw [toJsonText, toObject_eq, objectOf, Json.compact, Json.obj_chars jsonOf, jsonText,
    map_jsonMember]

/-! ## Sinks -/

/-- Writes pieces one after the other, up to the first that there is no room for. -/
def Sink.writeAll (s : Sink) : List (List UInt8) → Sink × Bool
  | [] => (s, true)
  | piece :: pieces =>
    match s.write piece with
    | (s, false) => (s, false)
    | (s, true) => s.writeAll pieces

theorem Sink.write_nil (s : Sink) : s.write [] = (s, true) := by
  obtain ⟨written, room⟩ := s
  cases room <;> simp [write]

/-- A first piece is written whole, or there is no room for anything behind it. -/
theorem Sink.write_append (s : Sink) (a b : List UInt8) :
    s.write (a ++ b) =
      match s.write a with
      | (s, false) => (s, false)
      | (s, true) => s.write b := by
  obtain ⟨written, room⟩ := s
  cases room with
  | none => simp [write]
  | some n =>
    by_cases ha : a.length ≤ n
    · have hroom : a.length + b.length ≤ n ↔ b.length ≤ n - a.length := by omega
      simp [write, ha, hroom, List.take_append, List.take_of_length_le ha, Nat.sub_add_eq]
    · have hnone : n - a.length = 0 := by omega
      have hab : ¬ a.length + b.length ≤ n := by omega
      simp [write, ha, hab, hnone, List.take_append, Nat.sub_add_eq]

/-- It does not matter in which pieces something is written. -/
theorem Sink.writeAll_eq_write (s : Sink) (pieces : List (List UInt8)) :
    s.writeAll pieces = s.write pieces.flatten := by
  induction pieces generalizing s with
  | nil => rw [writeAll, List.flatten_nil, write_nil]
  | cons piece pieces ih =>
    rw [writeAll, List.flatten_cons, write_append]
    split
    · rfl
    · exact ih _

/-- An hstore is written as its line is, and the answer is whether that was written whole. -/
theorem marshal_eq_write (h : Hstore) (s : Sink) :
    h.marshal s =
      match s.write h.jsonLine with
      | (s, true) => (s, .ok ())
      | (s, false) => (s, .error (.serialization .writeRefused)) := by
  rw [marshal, toJsonText_eq, jsonLine, Utf8.encode_append, Sink.write_append]
  rcases s.write (Utf8.encode h.jsonText) with ⟨s', text⟩
  cases text with
  | false => rfl
  | true =>
    dsimp only
    rcases s'.write (Utf8.encode "\n") with ⟨s'', line⟩
    cases line <;> rfl

/-! ## Reading back -/

theorem writtenAs_jsonOf (value : Option String) :
    Json.WrittenAs TextOrNull (jsonOf value) value := by
  intro rest
  cases value with
  | none => exact .null rest
  | some s =>
    rw [jsonOf, Json.chars, Json.quoted_append]
    exact .text (Json.characters_quoted s.toList rest)

/-- The text is that of an object whose members are the pairs. -/
theorem isObjectText_toJsonText (h : Hstore) :
    Json.IsObjectText TextOrNull h.toJsonText h.entries := by
  rw [toJsonText, toObject_eq, objectOf]
  apply Json.isObjectText_compact
  intro p _
  exact writtenAs_jsonOf p.2

/-- The text is read straight into the hstore. -/
theorem ofJsonText_toJsonText (h : Hstore) : ofJsonText h.toJsonText = .ok h :=
  ofJsonText_eq_ok_iff.2 ⟨h.entries, isObjectText_toJsonText h, (ofPairs_entries h).symm⟩

/-- The text is read as the object, every member as it was. -/
theorem parse?_toJsonText (h : Hstore) : Json.parse? h.toJsonText = some h.toObject := by
  have hparse := parse?_eq_objectOf_iff.2 (isObjectText_toJsonText h)
  rwa [toObject_eq]

theorem decode_jsonLine (h : Hstore) : Utf8.decode h.jsonLine.dropLast = .ok h.toJsonText := by
  have hline : h.jsonLine = Utf8.encode h.jsonText ++ [10] := by
    rw [jsonLine, Utf8.encode_append]
    rfl
  rw [hline, List.dropLast_concat, Utf8.decode_encode, toJsonText_eq]

/-- **What is written of an hstore is the front of its line, and the line reads back.** A sink with
room for `limit` bytes takes as many of the line, and refuses the line unless all of it fits; in
which pieces the line comes does not matter. Without its line feed it is read as the object of the
hstore, and the object and the text both give back the hstore. -/
theorem marshal_readBack (h : Hstore) :
    (h.keys.Pairwise (· < ·) ∧ h.toJsonText = h.jsonText) ∧
    (∀ limit : Nat, ∃ answer,
      h.marshal { room := some limit } =
        (⟨h.jsonLine.take limit, some (limit - h.jsonLine.length)⟩, answer) ∧
      (answer = .ok () ↔ h.jsonLine.length ≤ limit) ∧
      (answer ≠ .ok () → ∃ fault, answer = .error (.serialization fault))) ∧
    (∀ (s : Sink) (pieces : List (List UInt8)), pieces.flatten = h.jsonLine →
      (h.marshal s).1 = (s.writeAll pieces).1 ∧
      ((h.marshal s).2 = .ok () ↔ (s.writeAll pieces).2 = true)) ∧
    Utf8.decode h.jsonLine.dropLast = .ok h.toJsonText ∧
    (Json.parse? h.toJsonText = some h.toObject ∧ h.toObject.collapse = h.toObject) ∧
    ofObject h.toObject = .ok h ∧
    ofJsonText h.toJsonText = .ok h := by
  have hkeys : h.keys.Pairwise (· < ·) := List.pairwise_map.2 h.ascending
  refine ⟨⟨hkeys, toJsonText_eq h⟩, ?_, ?_, decode_jsonLine h,
    ⟨parse?_toJsonText h, collapse_toObject h⟩, ofObject_toObject h, ofJsonText_toJsonText h⟩
  · intro limit
    rw [marshal_eq_write, Sink.write]
    by_cases hfits : h.jsonLine.length ≤ limit
    · exact ⟨.ok (), by simp [hfits]⟩
    · exact ⟨.error (.serialization .writeRefused), by simp [hfits]⟩
  · intro s pieces hpieces
    rw [marshal_eq_write, Sink.writeAll_eq_write, hpieces]
    rcases s.write h.jsonLine with ⟨s', whole⟩
    cases whole <;> simp

/-- The text fits and the line feed does not. -/
example : (ofPairs [("\n", none)]).marshal { room := some 11 } =
    (⟨Utf8.encode "\x7b\"\\n\":null\x7d", some 0⟩, .error (.serialization .writeRefused)) := by
  rfl

end HstoreKit.Hstore
