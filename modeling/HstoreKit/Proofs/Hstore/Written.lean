import HstoreKit.Hstore.Text
import HstoreKit.Proofs.Hstore.NullWord
import HstoreKit.Proofs.Hstore.Stretch
import HstoreKit.Proofs.Text.ReadBack

/-!
# Written pairs

Text that is written pair by pair, keys and values in quotes and SQL NULL as the bare word in any
letter case.

* `leads_quoted`: what stands in quotes is read as it was before it was escaped;
* `run_written`: the scanner reads one pair from each written one;
* `scanText_writtenText`: reading the written text writes exactly its pairs into any hstore, so an
  hstore's own text reads back as that hstore.
-/

namespace HstoreKit.Hstore

open Scan Scan.State

/-- A pair in one of its written forms. -/
inductive Written where
  | text (key value : String)
  | null (key word : String) (spelled : word ∈ nullSpellings)

namespace Written

/-- The pair that is written. -/
def pair : Written → Pair
  | .text key value => (key, some value)
  | .null key _ _ => (key, none)

def form : Written → String
  | .text key value => quoted key ++ "=>" ++ quoted value
  | .null key word _ => quoted key ++ "=>" ++ word

/-- What the scanner is to read from the form. -/
def raw : Written → RawPair UInt8
  | .text key value => ⟨Utf8.encode key, Utf8.encode value, true⟩
  | .null key word _ => ⟨Utf8.encode key, Utf8.encode word, false⟩

/-- The form that `pairText` chooses. -/
def ofPair : Pair → Written
  | (key, some value) => .text key value
  | (key, none) => .null key "NULL" (by decide)

@[simp] theorem pair_ofPair (p : Pair) : (ofPair p).pair = p := by
  obtain ⟨key, _ | value⟩ := p <;> rfl

@[simp] theorem form_ofPair (p : Pair) : (ofPair p).form = pairText p := by
  obtain ⟨key, _ | value⟩ := p <;> rfl

theorem toPair_raw (w : Written) : w.raw.toPair Utf8.lossy = w.pair := by
  cases w with
  | text key value => simp [raw, RawPair.toPair, pair, Utf8.lossy_encode]
  | null key word spelled =>
    simp [raw, RawPair.toPair, pair, Utf8.lossy_encode, isNullWord_iff_mem.2 spelled]

end Written

/-! ## Inside quotes -/

theorem ofByte_eq_escape {b : UInt8} : Sign.ofByte b = .escape ↔ b.toNat = '\\'.toNat := by
  unfold Sign.ofByte Sign.ofCode
  grind

theorem ofByte_eq_quote {b : UInt8} : Sign.ofByte b = .quote ↔ b.toNat = '"'.toNat := by
  unfold Sign.ofByte Sign.ofCode
  grind

/-- A character that is no backslash and no quote has neither among its bytes. -/
theorem ofByte_mem_utf8EncodeChar {b : UInt8} {c : Char} (h : b ∈ String.utf8EncodeChar c)
    (hc : c ≠ '\\') (hq : c ≠ '"') : Sign.ofByte b ≠ .escape ∧ Sign.ofByte b ≠ .quote := by
  rw [Ne, Ne, ofByte_eq_escape, ofByte_eq_quote]
  rcases Utf8.mem_utf8EncodeChar h with hb | hb
  · rw [hb, Char.toNat_inj, Char.toNat_inj]
    exact ⟨hc, hq⟩
  · have hback : '\\'.toNat = 92 := rfl
    have hquote : '"'.toNat = 34 := rfl
    omega

/-- An escaped character is read as the character. -/
theorem leads_escape {s : State UInt8} (he : s.escaping = false) (hq : s.quoted = true)
    (c : Char) : Leads Sign.ofByte s ((escape c).flatMap String.utf8EncodeChar)
      (s.putAll (String.utf8EncodeChar c)) := by
  unfold escape
  split
  · rename_i h
    subst h
    exact leads_protected he (by decide)
  · split
    · rename_i h
      subst h
      exact leads_protected he (by decide)
    · rename_i hc hq'
      rw [List.flatMap_singleton]
      exact leads_enclosed he hq fun b hb => ofByte_mem_utf8EncodeChar hb hc hq'

theorem leads_escape_all {s : State UInt8} (he : s.escaping = false) (hq : s.quoted = true)
    (cs : List Char) : Leads Sign.ofByte s ((cs.flatMap escape).flatMap String.utf8EncodeChar)
      (s.putAll (cs.flatMap String.utf8EncodeChar)) := by
  induction cs generalizing s with
  | nil => exact .nil s
  | cons c cs ih =>
    rw [List.flatMap_cons, List.flatMap_append, List.flatMap_cons, putAll_append]
    exact (leads_escape he hq c).append (ih (by simp [he]) (by simp [hq]))

theorem encode_quoted (t : String) : Utf8.encode (quoted t) =
    0x22 :: ((t.toList.flatMap escape).flatMap String.utf8EncodeChar ++ [0x22]) := by
  simp only [quoted, Utf8.encode, String.toList_ofList, List.cons_append, List.flatMap_cons,
    List.flatMap_append, List.flatMap_nil, List.append_nil]
  rfl

/-- A quoted text is read as the text, and a quote has closed behind it. -/
theorem leads_quoted {s : State UInt8} (he : s.escaping = false) (hq : s.quoted = false)
    (t : String) : Leads Sign.ofByte s (Utf8.encode (quoted t))
      { s.putAll (Utf8.encode t) with closed := true } := by
  have hopen : s.step Sign.ofByte 0x22 = (none, { s with quoted := true }) :=
    step_open he hq (by decide)
  have hinside := leads_escape_all (s := { s with quoted := true }) he rfl t.toList
  rw [putAll_with_quoted] at hinside
  have hclose : ({ s.putAll (Utf8.encode t) with quoted := true } : State UInt8).step
      Sign.ofByte 0x22 = (none, { s.putAll (Utf8.encode t) with closed := true }) := by
    have hs : (s.putAll (Utf8.encode t)).quoted = false := putAll_quoted.trans hq
    rw [step_close (by simp [he]) rfl (by decide), ← hs]
  rw [encode_quoted]
  exact .cons hopen (hinside.append (.single hclose))

/-! ## One pair -/

/-- The bytes of a spelling of NULL stand for themselves. -/
theorem ofByte_mem_spelling {word : String} (h : word ∈ nullSpellings) {b : UInt8}
    (hb : b ∈ Utf8.encode word) : Sign.ofByte b = .plain := by
  have hall : (nullSpellings.all fun w => (Utf8.encode w).all fun c =>
      Sign.ofByte c = .plain) = true := by decide
  exact of_decide_eq_true (List.all_eq_true.1 (List.all_eq_true.1 hall word h) b hb)

theorem encode_arrow : Utf8.encode "=>" = [0x3D, 0x3E] := by
  decide

/-- A key in quotes and the arrow leave the scanner before the value. -/
theorem leads_key {s : State UInt8} (hs : Fresh s) (key : String) :
    Leads Sign.ofByte s (Utf8.encode (quoted key ++ "=>"))
      (ofPair ⟨Utf8.encode key, [], false⟩) := by
  have hquoted := leads_quoted hs.escaping hs.quoted key
  have harrow : Leads Sign.ofByte { s.putAll (Utf8.encode key) with closed := true } [0x3D, 0x3E]
      { s.putAll (Utf8.encode key) with half := .value, closed := false } :=
    leads_arrow (by simp [hs.escaping]) (by simp [hs.quoted]) (by decide) (by decide)
  have hend : ({ s.putAll (Utf8.encode key) with half := .value, closed := false } : State UInt8) =
      ofPair ⟨Utf8.encode key, [], false⟩ := by
    rw [putAll_key hs.half, hs.eq]
    simp [ofPair]
  rw [Utf8.encode_append, encode_arrow, ← hend]
  exact hquoted.append harrow

theorem leads_form {s : State UInt8} (hs : Fresh s) (w : Written) :
    Leads Sign.ofByte s (Utf8.encode w.form) (ofPair w.raw) := by
  cases w with
  | text key value =>
    have hvalue := leads_quoted (s := ofPair ⟨Utf8.encode key, [], false⟩) rfl rfl value
    rw [putAll_value rfl] at hvalue
    rw [Written.form, Utf8.encode_append]
    exact (leads_key hs key).append (by simpa [ofPair, Written.raw] using hvalue)
  | null key word spelled =>
    have hvalue := leads_plain (s := ofPair ⟨Utf8.encode key, [], false⟩) rfl
      fun b hb => ofByte_mem_spelling spelled hb
    rw [putAll_value rfl] at hvalue
    rw [Written.form, Utf8.encode_append]
    exact (leads_key hs key).append (by simpa [ofPair, Written.raw] using hvalue)

/-! ## The whole text -/

/-- Written pairs with commas between them. -/
def writtenText (ws : List Written) : String :=
  String.intercalate "," (ws.map Written.form)

@[simp] theorem writtenText_nil : writtenText [] = "" := rfl

theorem writtenText_singleton (w : Written) : writtenText [w] = w.form :=
  String.intercalate_singleton

theorem writtenText_cons (w v : Written) (ws : List Written) :
    writtenText (w :: v :: ws) = w.form ++ "," ++ writtenText (v :: ws) :=
  String.intercalate_cons_cons

theorem encode_writtenText (ws : List Written) : Utf8.encode (writtenText ws) =
    [0x2C].intercalate (ws.map fun w => Utf8.encode w.form) := by
  have hcomma : Utf8.encode "," = [0x2C] := by decide
  induction ws with
  | nil => rfl
  | cons w ws ih =>
    cases ws with
    | nil => rw [writtenText_singleton, List.map_singleton, List.intercalate_singleton]
    | cons v ws =>
      rw [writtenText_cons, Utf8.encode_append, Utf8.encode_append, ih, hcomma, List.map_cons,
        List.map_cons, List.map_cons, List.intercalate_cons_cons]

/-- The scanner reads from written pairs one raw pair each. -/
theorem run_written {s : State UInt8} (hs : Fresh s) (ws : List Written) :
    run Sign.ofByte s (Utf8.encode (writtenText ws)) = ws.map Written.raw := by
  rcases List.eq_nil_or_concat ws with rfl | ⟨vs, w, rfl⟩
  · rw [hs.eq]
    rfl
  · have hcomma : Sign.ofByte 0x2C = .comma := rfl
    have hrun := run_intercalate_append hcomma (fun v t ht => leads_form ht v) hs vs w []
    rw [List.append_nil] at hrun
    rw [List.concat_eq_append, encode_writtenText, hrun, run, commit_ofPair, List.map_append]
    rfl

theorem head?_encode_form (w : Written) : (Utf8.encode w.form).head? = some 0x22 := by
  cases w <;> simp [Written.form, encode_quoted]

/-- A written pair ends with a quote or with the last letter of NULL. -/
theorem getLast?_encode_form (w : Written) :
    (Utf8.encode w.form).getLast? ∈ [some 0x22, some 0x4C, some 0x6C] := by
  cases w with
  | text key value =>
    rw [Written.form, Utf8.encode_append, encode_quoted value, ← List.cons_append,
      ← List.append_assoc, List.getLast?_concat]
    exact List.mem_cons_self
  | null key word spelled =>
    have hword : (Utf8.encode word).getLast? ∈ [some 0x4C, some 0x6C] := by
      revert word
      decide
    rw [Written.form, Utf8.encode_append, List.getLast?_append]
    simp only [List.mem_cons, List.not_mem_nil, or_false] at hword
    rcases hword with h | h <;> simp [h]

theorem getLast?_encode_writtenText (w : Written) (ws : List Written) :
    (Utf8.encode (writtenText (w :: ws))).getLast? ∈ [some 0x22, some 0x4C, some 0x6C] := by
  induction ws generalizing w with
  | nil => exact writtenText_singleton w ▸ getLast?_encode_form w
  | cons v ws ih =>
    have hrest := ih v
    rw [writtenText_cons, Utf8.encode_append, List.getLast?_append]
    simp only [List.mem_cons, List.not_mem_nil, or_false] at hrest
    rcases hrest with h | h | h <;> simp [h]

theorem head?_encode_writtenText (w : Written) (ws : List Written) :
    (Utf8.encode (writtenText (w :: ws))).head? = some 0x22 := by
  cases ws with
  | nil => exact writtenText_singleton w ▸ head?_encode_form w
  | cons v ws =>
    rw [writtenText_cons, Utf8.encode_append, Utf8.encode_append, List.append_assoc,
      List.head?_append, head?_encode_form]
    rfl

/-- Written pairs begin with a quote and end with a quote or a letter, so nothing is trimmed. -/
theorem trim_writtenText (ws : List Written) :
    trim (fun b => isBlank b.toNat) (Utf8.encode (writtenText ws)) =
      Utf8.encode (writtenText ws) := by
  cases ws with
  | nil => rfl
  | cons w ws =>
    apply trim_eq_self
    · intro b hb
      rw [head?_encode_writtenText] at hb
      obtain rfl := Option.some.inj hb
      rfl
    · intro b hb
      have hlast := getLast?_encode_writtenText w ws
      rw [Option.mem_def.1 hb] at hlast
      simp only [List.mem_cons, List.not_mem_nil, or_false, Option.some.injEq] at hlast
      rcases hlast with rfl | rfl | rfl <;> rfl

theorem pairs_writtenText (ws : List Written) :
    Scan.pairs UInt8.toNat Utf8.lossy (Utf8.encode (writtenText ws)) = ws.map Written.pair := by
  have hrun : run (fun b => Sign.ofCode b.toNat) {} (Utf8.encode (writtenText ws)) =
      ws.map Written.raw := run_written fresh_initial ws
  rw [Scan.pairs, trim_writtenText, hrun, List.map_map]
  exact List.map_congr_left fun w _ => w.toPair_raw

/-- An hstore's own text is one of the written texts of its pairs. -/
theorem toText_eq_writtenText (h : Hstore) : h.toText = writtenText (h.entries.map .ofPair) := by
  simp [toText, writtenText, Function.comp_def]

/-- **Written text reads back.** Reading pairs that were written one by one, in any order, with any
keys and values and with NULL in any letter case, writes exactly these pairs into whatever hstore
they are read into. So the text of an hstore is read as that hstore. -/
theorem scanText_writtenText (h : Hstore) (ws : List Written) :
    h.scanText (writtenText ws) = h.extend (ws.map Written.pair) ∧
      ∀ g : Hstore, parse (Utf8.encode g.toText) = g := by
  refine ⟨?_, fun g => ?_⟩
  · rw [scanText, scan, pairs_writtenText]
  · have hpairs : (g.entries.map Written.ofPair).map Written.pair = g.entries := by
      simp [Function.comp_def]
    rw [parse, scan, toText_eq_writtenText, pairs_writtenText, hpairs]
    exact ofPairs_entries g

end HstoreKit.Hstore
