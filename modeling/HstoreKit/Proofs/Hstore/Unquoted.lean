import HstoreKit.Proofs.Hstore.Segments

/-!
# Outside quotes

What a comma and noise do to a text where nothing protects them.

* `Bare`: the scanner is outside quotes, and no backslash waits for its symbol;
* `Fresh.pairsFrom_eq`: between two pairs, nothing that is left over of the first is seen again;
* `scan_append_comma`: a text that is cut at a bare comma is scanned part by part;
* `exists_trim_insert`: trimming takes at most a part of what is put into a text;
* `parse_insert_noise`: noise at a bare place changes nothing.
-/

namespace HstoreKit.Scan

namespace State

variable {α : Type} {sign : α → Sign} {s : State α}

/-- Outside quotes, and no backslash waits for the symbol behind it. -/
structure Bare (s : State α) : Prop where
  escaping : s.escaping = false
  quoted : s.quoted = false

theorem Bare.fresh_commit (h : s.Bare) : Fresh s.commit.2 :=
  State.fresh_commit h.escaping h.quoted

theorem Bare.leads_noise (h : s.Bare) {w : List α} (hw : ∀ a ∈ w, sign a = .noise) :
    Leads sign s w s := by
  induction w with
  | nil => exact .nil s
  | cons a w ih =>
    have ha := hw a List.mem_cons_self
    have hrest : Leads sign s w s := by
      apply ih
      intro b hb
      exact hw b (List.mem_cons_of_mem a hb)
    exact .cons (step_noise h.escaping h.quoted ha) hrest

/-- A comma ends the pair just as the end of the text does. -/
theorem run_append_comma {l m : List α} {c : α} (h : (s.after sign l).Bare)
    (hc : sign c = .comma) :
    run sign s (l ++ c :: m) = run sign s l ++ run sign (s.after sign l).commit.2 m := by
  have hl : run sign s l = s.completed sign l ++ (s.after sign l).commit.1.toList := by
    conv => lhs; rw [← List.append_nil l, run_append]
    rfl
  rw [run_append, hl, run, step_comma h.escaping h.quoted hc, List.append_assoc]

/-! ## Between two pairs -/

/-- The pairs that are read from a state on. -/
def pairsFrom (s : State UInt8) (bytes : List UInt8) : List Pair :=
  (run Sign.ofByte s bytes).map (RawPair.toPair Utf8.lossy)

/-- Whether a quote has closed in an earlier pair makes no difference: an arrow takes it back, and a
pair without arrow has no value that could be NULL. -/
theorem Fresh.pairsFrom_eq {s : State UInt8} (hs : Fresh s) (bytes : List UInt8) :
    s.pairsFrom bytes = pairsFrom {} bytes := by
  -- the segments of a text say what is read from it, and they know nothing of the state
  have hsegments {t : State UInt8} (ht : Fresh t) : t.pairsFrom bytes =
      ((roles [] bytes).splitOnP fun x => x.2 = .separator).filterMap pairOf? :=
    Stands.run_eq ⟨ht.escaping, ht.quoted, collects_of_fresh ht⟩ (by simp) bytes
  rw [hsegments hs, hsegments fresh_initial]

theorem pairsFrom_append_comma {a : List UInt8} (h : (after Sign.ofByte {} a).Bare)
    (b : List UInt8) : pairsFrom {} (a ++ 0x2C :: b) = pairsFrom {} a ++ pairsFrom {} b := by
  rw [pairsFrom, run_append_comma h rfl, List.map_append]
  exact congrArg _ (h.fresh_commit.pairsFrom_eq b)

theorem Bare.pairsFrom_step_comma {s : State UInt8} (h : s.Bare) (bytes : List UInt8) :
    (s.step Sign.ofByte 0x2C).2.pairsFrom bytes = pairsFrom {} bytes := by
  rw [step_comma h.escaping h.quoted rfl]
  exact h.fresh_commit.pairsFrom_eq bytes

end State

/-! ## The ends of a text -/

section
variable {α : Type} {p : α → Bool} {u w v : List α}

theorem exists_dropWhile_insert (h : ∀ a ∈ (u ++ v).head?, p a = false) :
    ∃ w', w'.Sublist w ∧ (u ++ w ++ v).dropWhile p = u ++ w' ++ v := by
  cases u with
  | nil =>
    refine ⟨w.dropWhile p, List.dropWhile_sublist p, ?_⟩
    have hv : v.dropWhile p = v := dropWhile_eq_self h
    rw [List.nil_append, List.nil_append, List.dropWhile_append, hv]
    split
    · rename_i hw
      rw [List.isEmpty_iff.1 hw, List.nil_append]
    · rfl
  | cons a u => exact ⟨w, .refl w, dropWhile_eq_self h⟩

/-- Where a text has no blanks at its ends, trimming takes nothing but a part of what is put into
it. -/
theorem exists_trim_insert (hfront : ∀ a ∈ (u ++ v).head?, p a = false)
    (hback : ∀ a ∈ (u ++ v).getLast?, p a = false) :
    ∃ w', w'.Sublist w ∧ trim p (u ++ w ++ v) = u ++ w' ++ v := by
  obtain ⟨x, hx, hdrop⟩ := exists_dropWhile_insert (w := w) hfront
  have hrev : ∀ a ∈ (v.reverse ++ u.reverse).head?, p a = false := by
    rwa [← List.reverse_append, List.head?_reverse]
  obtain ⟨y, hy, hdrop'⟩ := exists_dropWhile_insert (w := x.reverse) hrev
  refine ⟨y.reverse, ?_, ?_⟩
  · exact (List.reverse_sublist.2 hy).trans (by rwa [List.reverse_reverse])
  · have hturn : (u ++ x ++ v).reverse = v.reverse ++ x.reverse ++ u.reverse := by
      simp only [List.reverse_append, List.append_assoc]
    rw [trim, hdrop, hturn, hdrop']
    simp only [List.reverse_append, List.reverse_reverse, List.append_assoc]

end

/-- Bytes that neither begin nor end with white space. -/
structure Tight (bytes : List UInt8) : Prop where
  front : ∀ b ∈ bytes.head?, isWhite b = false
  back : ∀ b ∈ bytes.getLast?, isWhite b = false

instance (bytes : List UInt8) : Decidable (Tight bytes) :=
  decidable_of_iff (bytes.head?.any isWhite = false ∧ bytes.getLast?.any isWhite = false)
    ⟨fun h => ⟨(Option.any_eq_false ..).1 h.1, (Option.any_eq_false ..).1 h.2⟩,
      fun h => ⟨(Option.any_eq_false ..).2 h.front, (Option.any_eq_false ..).2 h.back⟩⟩

theorem Tight.pairs_eq {bytes : List UInt8} (h : Tight bytes) :
    Scan.pairs UInt8.toNat Utf8.lossy bytes = State.pairsFrom {} bytes := by
  rw [Scan.pairs, trim_eq_self (by simpa only [isBlank_toNat] using h.front)
    (by simpa only [isBlank_toNat] using h.back)]
  rfl

/-- Texts without white space at their ends have none there when a comma joins them. -/
theorem Tight.append_comma {a b : List UInt8} (ha : Tight a) (hb : Tight b) :
    Tight (a ++ 0x2C :: b) := by
  have hcomma : isWhite 0x2C = false := rfl
  constructor
  · cases a with
    | nil => simpa using hcomma
    | cons x a => exact ha.front
  · rw [List.getLast?_append_of_ne_nil a (List.cons_ne_nil 0x2C b)]
    cases b with
    | nil => simpa using hcomma
    | cons y b => exact hb.back

end HstoreKit.Scan

namespace HstoreKit.Hstore

open Scan

theorem scan_of_tight (h : Hstore) {bytes : List UInt8} (hb : Tight bytes) :
    h.scan bytes = h.extend (State.pairsFrom {} bytes) := by
  rw [scan, hb.pairs_eq]

/-- **A text is scanned part by part when it is cut at a bare comma.** Scanning both parts with the
comma between them writes what scanning one after the other writes, into whatever hstore. For behind
a comma outside quotes any state of the scanner reads on as the state at the start does. -/
theorem scan_append_comma (h : Hstore) {a b : List UInt8} (ha : Tight a) (hb : Tight b)
    (hs : (State.after Sign.ofByte {} a).Bare) :
    h.scan (a ++ 0x2C :: b) = (h.scan a).scan b ∧
      ∀ s : State UInt8, s.Bare → ∀ bytes,
        (s.step Sign.ofByte 0x2C).2.pairsFrom bytes = State.pairsFrom {} bytes := by
  refine ⟨?_, fun s hs bytes => hs.pairsFrom_step_comma bytes⟩
  rw [scan_of_tight h (ha.append_comma hb), scan_of_tight h ha, scan_of_tight _ hb,
    State.pairsFrom_append_comma hs, extend_append]

/-- The quote that closes before the comma does not make the bare NULL behind it a text. -/
theorem scan_append_comma_staleQuote :
    Tight (Utf8.encode "a=>\"b\"") ∧ Tight (Utf8.encode "c=>NULL") ∧
      (State.after Sign.ofByte {} (Utf8.encode "a=>\"b\"")).Bare ∧
      (ofPairs [("c", some "old")]).scan (Utf8.encode "a=>\"b\"" ++ 0x2C :: Utf8.encode "c=>NULL") =
        ((ofPairs [("c", some "old")]).scan (Utf8.encode "a=>\"b\"")).scan
          (Utf8.encode "c=>NULL") := by
  have ha : Tight (Utf8.encode "a=>\"b\"") := by decide
  have hb : Tight (Utf8.encode "c=>NULL") := by decide
  have hs : (State.after Sign.ofByte {} (Utf8.encode "a=>\"b\"")).Bare := ⟨by decide, by decide⟩
  exact ⟨ha, hb, hs, (scan_append_comma _ ha hb hs).1⟩

/-- Space, tab, line feed, carriage return or an equals sign. -/
def isNoise (b : UInt8) : Bool :=
  b ∈ [0x20, 0x09, 0x0A, 0x0D, 0x3D]

theorem ofByte_of_isNoise {b : UInt8} (h : isNoise b = true) : Sign.ofByte b = .noise := by
  simp only [isNoise, List.mem_cons, List.not_mem_nil, or_false, decide_eq_true_eq] at h
  rcases h with rfl | rfl | rfl | rfl | rfl <;> rfl

/-- **Noise at a bare place changes nothing.** Spaces, tabs, line breaks and equals signs may stand
at any place of a text where nothing protects them, in any number, also inside a bare word and at
both ends. -/
theorem parse_insert_noise {u v w : List UInt8} (huv : Tight (u ++ v))
    (hu : (State.after Sign.ofByte {} u).Bare)
    (hw : w.all isNoise = true) :
    parse (u ++ w ++ v) = parse (u ++ v) := by
  -- at an end of the text a part of the noise is trimmed; the scanner passes over the rest
  obtain ⟨x, hx, htrim⟩ := exists_trim_insert (p := fun b : UInt8 => isBlank b.toNat) (w := w)
    (by simpa only [isBlank_toNat] using huv.front) (by simpa only [isBlank_toNat] using huv.back)
  have hnoise : State.Leads Sign.ofByte (State.after Sign.ofByte {} u) x
      (State.after Sign.ofByte {} u) := by
    apply hu.leads_noise
    intro b hb
    exact ofByte_of_isNoise (List.all_eq_true.1 hw b (hx.mem hb))
  have hrun : State.run Sign.ofByte {} (u ++ x ++ v) = State.run Sign.ofByte {} (u ++ v) := by
    rw [List.append_assoc, State.run_append, hnoise.run_append, ← State.run_append]
  have hpairs : Scan.pairs UInt8.toNat Utf8.lossy (u ++ w ++ v) = State.pairsFrom {} (u ++ v) := by
    rw [Scan.pairs, htrim]
    exact congrArg (List.map (RawPair.toPair Utf8.lossy)) hrun
  rw [parse, parse, scan, hpairs, scan_of_tight _ huv]

/-- Noise inside the bare word NULL. -/
theorem parse_insert_noise_nullWord :
    Tight (Utf8.encode "a=>nu" ++ Utf8.encode "ll") ∧
      (State.after Sign.ofByte {} (Utf8.encode "a=>nu")).Bare ∧
      (Utf8.encode " =\n").all isNoise = true ∧
      parse (Utf8.encode "a=>nu" ++ Utf8.encode " =\n" ++ Utf8.encode "ll") =
        parse (Utf8.encode "a=>nu" ++ Utf8.encode "ll") := by
  have huv : Tight (Utf8.encode "a=>nu" ++ Utf8.encode "ll") := by decide
  have hu : (State.after Sign.ofByte {} (Utf8.encode "a=>nu")).Bare := ⟨by decide, by decide⟩
  have hw : (Utf8.encode " =\n").all isNoise = true := by decide
  exact ⟨huv, hu, hw, parse_insert_noise huv hu hw⟩

end HstoreKit.Hstore
