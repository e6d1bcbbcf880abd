import HstoreKit.Proofs.Hstore.NullWord
import HstoreKit.Proofs.Hstore.Stretch
import Mathlib.Data.List.DropRight

/-!
# Segments

The text form said without a machine. Every byte has a role that follows from the bytes before it;
the text is cut at the bytes that separate, and each segment is a pair or nothing.

* `Role`, `roleOf`, `roles`: what each byte of a text is for;
* `pairOf?`, `reading`: what a segment says, and the pairs of a whole text;
* `Collects`: what the scanner holds while it is inside a segment;
* `parse_eq_ofPairs_reading`: the scanner reads every text so.
-/

namespace HstoreKit.Scan

/-! ## Roles -/

/-- What a byte is for where it stands. A mark is a backslash or an opening quote. -/
inductive Role where
  | literal
  | mark
  | closing
  | noise
  | arrow
  | separator
  deriving DecidableEq, Repr

/-- Whether a byte is escaped: whether it follows a backslash that is not escaped itself. The bytes
before it are given from the nearest to the first. -/
def escapedAfter : List UInt8 → Bool
  | [] => false
  | b :: before => b = 0x5C && !escapedAfter before

/-- Whether a quote is open: every quote that is not escaped opens one or closes it. -/
def quotedAfter : List UInt8 → Bool
  | [] => false
  | b :: before =>
    if b = 0x22 && !escapedAfter before then !quotedAfter before else quotedAfter before

/-- The role of a byte behind others, which are given from the nearest to the first. -/
def roleOf (before : List UInt8) (b : UInt8) : Role :=
  if escapedAfter before then .literal
  else if b = 0x5C then .mark
  else if b = 0x22 then if quotedAfter before then .closing else .mark
  else if quotedAfter before then .literal
  else if b ∈ [0x20, 0x09, 0x0A, 0x0D, 0x3D] then .noise
  else if b = 0x3E then .arrow
  else if b = 0x2C then .separator
  else .literal

/-- Bytes with their roles. -/
def roles : List UInt8 → List UInt8 → List (UInt8 × Role)
  | _, [] => []
  | before, b :: bs => (b, roleOf before b) :: roles (b :: before) bs

/-! ## Pairs -/

/-- The bytes of a stretch that are meant as they stand. -/
def literals (seg : List (UInt8 × Role)) : List UInt8 :=
  (seg.filter fun x => x.2 = .literal).map Prod.fst

def isNoArrow (x : UInt8 × Role) : Bool :=
  x.2 ≠ .arrow

/-- The literal bytes before the first arrow, all of them if there is no arrow. -/
def keyBytes (seg : List (UInt8 × Role)) : List UInt8 :=
  literals (seg.takeWhile isNoArrow)

/-- The literal bytes behind the first arrow. -/
def valueBytes (seg : List (UInt8 × Role)) : List UInt8 :=
  literals ((seg.dropWhile isNoArrow).drop 1)

/-- Whether a quote closes behind the last arrow. -/
def closesLate (seg : List (UInt8 × Role)) : Bool :=
  (seg.rtakeWhile isNoArrow).any fun x => x.2 = .closing

/-- The pair that a segment says. One without arrow and literals says none; an unquoted NULL is SQL
NULL. -/
def pairOf? (seg : List (UInt8 × Role)) : Option Pair :=
  if seg.any fun x => x.2 = .literal || x.2 = .arrow then
    let value := Utf8.lossy (valueBytes seg)
    some (Utf8.lossy (keyBytes seg),
      if value ∈ nullSpellings ∧ closesLate seg = false then none else some value)
  else none

/-- Space, tab, line feed, carriage return or form feed. -/
def isWhite (b : UInt8) : Bool :=
  b ∈ [0x20, 0x09, 0x0A, 0x0D, 0x0C]

theorem isBlank_toNat (b : UInt8) : isBlank b.toNat = isWhite b := by
  simp [isBlank, isWhite, ← UInt8.toNat_inj]
  grind

/-- The bytes between the white space at both ends, cut at the separators. -/
def segments (bytes : List UInt8) : List (List (UInt8 × Role)) :=
  (roles [] ((bytes.dropWhile isWhite).rdropWhile isWhite)).splitOnP fun x => x.2 = .separator

/-- The pairs of a text, in the order in which they stand. -/
def reading (bytes : List UInt8) : List Pair :=
  (segments bytes).filterMap pairOf?

/-! ## One more byte -/

section
variable {seg : List (UInt8 × Role)} {b : UInt8} {r : Role}

theorem literals_concat : literals (seg ++ [(b, r)]) =
    literals seg ++ if r = .literal then [b] else [] := by
  by_cases h : r = .literal <;> simp [literals, h]

/-- A byte is added to the key as long as no arrow has been read. -/
theorem keyBytes_concat : keyBytes (seg ++ [(b, r)]) =
    keyBytes seg ++ if seg.all isNoArrow ∧ r = .literal then [b] else [] := by
  unfold keyBytes
  by_cases h : ∀ x ∈ seg, isNoArrow x = true
  · have hall : seg.all isNoArrow = true := List.all_eq_true.2 h
    rw [List.takeWhile_append_of_pos h, List.takeWhile_eq_self_iff.2 h]
    by_cases hr : r = .arrow
    · subst hr
      simp [isNoArrow]
    · simp [isNoArrow, hr, hall, literals_concat]
  · have hall : seg.all isNoArrow ≠ true := mt List.all_eq_true.1 h
    have hlength : (seg.takeWhile isNoArrow).length ≠ seg.length := by
      intro hlength
      have hself := (List.takeWhile_sublist isNoArrow).eq_of_length hlength
      exact h (List.takeWhile_eq_self_iff.1 hself)
    rw [List.takeWhile_append, if_neg hlength]
    simp [hall]

/-- A byte is added to the value once an arrow has been read. -/
theorem valueBytes_concat : valueBytes (seg ++ [(b, r)]) =
    valueBytes seg ++ if seg.all isNoArrow = false ∧ r = .literal then [b] else [] := by
  unfold valueBytes
  by_cases h : ∀ x ∈ seg, isNoArrow x = true
  · have hall : seg.all isNoArrow = true := List.all_eq_true.2 h
    rw [List.dropWhile_append_of_pos h, List.dropWhile_eq_nil_iff.2 h]
    by_cases hr : r = .arrow
    · subst hr
      simp [isNoArrow, hall]
    · simp [isNoArrow, hr, hall]
  · have hall : seg.all isNoArrow = false := Bool.eq_false_iff.2 (mt List.all_eq_true.1 h)
    obtain ⟨x, l, hl⟩ := List.exists_cons_of_ne_nil (mt List.dropWhile_eq_nil_iff.1 h)
    rw [List.dropWhile_append, hl]
    simp [hall, literals_concat]

/-- An arrow takes back what closed before it. -/
theorem closesLate_concat : closesLate (seg ++ [(b, r)]) =
    if r = .arrow then false else closesLate seg || decide (r = .closing) := by
  unfold closesLate
  rw [List.rtakeWhile_concat]
  by_cases hr : r = .arrow <;> simp [isNoArrow, hr]

/-! ## Inside a segment -/

/-- What the scanner holds of the segment it is in. Before the first arrow, `closed` may still tell
of an earlier segment. -/
structure Collects (seg : List (UInt8 × Role)) (s : State UInt8) : Prop where
  half : s.half = if seg.all isNoArrow then .key else .value
  key : s.key = (keyBytes seg).toArray
  value : s.value = (valueBytes seg).toArray
  closed : seg.all isNoArrow = false → s.closed = closesLate seg

variable {s : State UInt8}

theorem collects_of_fresh (hs : State.Fresh s) : Collects [] s :=
  ⟨hs.half, hs.key, hs.value, fun h => by simp at h⟩

theorem Collects.put (h : Collects seg s) : Collects (seg ++ [(b, .literal)]) (s.put b) := by
  have hall : (seg ++ [(b, Role.literal)]).all isNoArrow = seg.all isNoArrow := by
    simp [isNoArrow]
  obtain ⟨half, key, value, closed⟩ := h
  refine ⟨by rw [State.put_half, half, hall], ?_, ?_, ?_⟩
  · rw [keyBytes_concat]
    cases ha : seg.all isNoArrow <;> simp [State.put, half, ha, key]
  · rw [valueBytes_concat]
    cases ha : seg.all isNoArrow <;> simp [State.put, half, ha, value]
  · intro harrow
    rw [State.put_closed, closed (hall ▸ harrow), closesLate_concat]
    simp

/-- A mark or noise changes nothing. -/
theorem Collects.skip (h : Collects seg s) (hl : r ≠ .literal) (ha : r ≠ .arrow)
    (hc : r ≠ .closing) : Collects (seg ++ [(b, r)]) s := by
  have hall : (seg ++ [(b, r)]).all isNoArrow = seg.all isNoArrow := by
    simp [isNoArrow, ha]
  obtain ⟨half, key, value, closed⟩ := h
  refine ⟨by rw [half, hall], ?_, ?_, fun harrow => ?_⟩
  · rw [key, keyBytes_concat]
    simp [hl]
  · rw [value, valueBytes_concat]
    simp [hl]
  · rw [closed (hall ▸ harrow), closesLate_concat]
    simp [ha, hc]

theorem Collects.close (h : Collects seg s) :
    Collects (seg ++ [(b, .closing)]) { s with closed := true } := by
  have hall : (seg ++ [(b, Role.closing)]).all isNoArrow = seg.all isNoArrow := by
    simp [isNoArrow]
  obtain ⟨half, key, value, -⟩ := h
  refine ⟨half.trans (by rw [hall]), ?_, ?_, fun _ => ?_⟩
  · simp [key, keyBytes_concat]
  · simp [value, valueBytes_concat]
  · simp [closesLate_concat]

theorem Collects.arrow (h : Collects seg s) :
    Collects (seg ++ [(b, .arrow)]) { s with half := .value, closed := false } := by
  obtain ⟨-, key, value, -⟩ := h
  refine ⟨by simp [isNoArrow], ?_, ?_, fun _ => ?_⟩
  · simp [key, keyBytes_concat]
  · simp [value, valueBytes_concat]
  · simp [closesLate_concat]

theorem Collects.of_eq {t : State UInt8} (h : Collects seg s) (half : t.half = s.half)
    (key : t.key = s.key) (value : t.value = s.value) (closed : t.closed = s.closed) :
    Collects seg t :=
  ⟨half.trans h.half, key.trans h.key, value.trans h.value, fun ha => closed.trans (h.closed ha)⟩

theorem keyBytes_of_all (h : seg.all isNoArrow = true) : keyBytes seg = literals seg := by
  rw [keyBytes, List.takeWhile_eq_self_iff.2 (List.all_eq_true.1 h)]

theorem valueBytes_of_all (h : seg.all isNoArrow = true) : valueBytes seg = [] := by
  rw [valueBytes, List.dropWhile_eq_nil_iff.2 (List.all_eq_true.1 h)]
  rfl

/-- A segment says nothing just when it has no arrow and nothing to read before one. -/
theorem any_literal_or_arrow : (seg.any fun x => x.2 = .literal || x.2 = .arrow) = false ↔
    seg.all isNoArrow = true ∧ keyBytes seg = [] := by
  constructor
  · intro h
    have hall : seg.all isNoArrow = true := by
      rw [List.all_eq_true]
      intro x hx
      have := List.any_eq_false.1 h x hx
      simp_all [isNoArrow]
    refine ⟨hall, ?_⟩
    rw [keyBytes_of_all hall, literals, List.map_eq_nil_iff, List.filter_eq_nil_iff]
    intro x hx
    have := List.any_eq_false.1 h x hx
    simp_all
  · rintro ⟨hall, hkey⟩
    rw [keyBytes_of_all hall, literals, List.map_eq_nil_iff, List.filter_eq_nil_iff] at hkey
    rw [List.any_eq_false]
    intro x hx
    have harrow := List.all_eq_true.1 hall x hx
    have hliteral := hkey x hx
    simp_all [isNoArrow]

/-- Ending the pair ends the segment. -/
theorem Collects.commit (h : Collects seg s) :
    s.commit.1.map (RawPair.toPair Utf8.lossy) = pairOf? seg := by
  obtain ⟨half, key, value, closed⟩ := h
  have hvacuous : (s.half = .key ∧ s.key.isEmpty ∧ s.value.isEmpty) ↔
      seg.all isNoArrow = true ∧ keyBytes seg = [] := by
    rw [half, key, value]
    constructor
    · rintro ⟨hh, hk, -⟩
      cases hall : seg.all isNoArrow
      · simp [hall] at hh
      · exact ⟨rfl, by simpa using hk⟩
    · rintro ⟨hall, hk⟩
      simp [hall, hk, valueBytes_of_all hall]
  unfold State.commit pairOf?
  by_cases hv : seg.all isNoArrow = true ∧ keyBytes seg = []
  · rw [if_pos (hvacuous.2 hv), any_literal_or_arrow.2 hv]
    rfl
  · have hany : (seg.any fun x => x.2 = .literal || x.2 = .arrow) = true := by
      rw [← Bool.not_eq_false, any_literal_or_arrow]
      exact hv
    rw [if_neg (mt hvacuous.1 hv), hany, if_pos rfl, key, value]
    simp only [Option.map_some, RawPair.toPair, Bool.and_eq_true, Bool.not_eq_true',
      isNullWord_iff_mem]
    cases hall : seg.all isNoArrow
    · rw [closed hall]
      simp only [and_comm]
    · have hword : Utf8.lossy [] ∉ nullSpellings := by decide
      simp [valueBytes_of_all hall, hword]

/-! ## The whole text -/

/-- The scanner stands behind bytes when it knows what they leave open and holds their segment. -/
structure Stands (before : List UInt8) (seg : List (UInt8 × Role)) (s : State UInt8) : Prop where
  escaping : s.escaping = escapedAfter before
  quoted : s.quoted = quotedAfter before
  collects : Collects seg s

theorem ofByte_eq (b : UInt8) : Sign.ofByte b =
    if b = 0x5C then .escape
    else if b = 0x22 then .quote
    else if b ∈ [0x20, 0x09, 0x0A, 0x0D, 0x3D] then .noise
    else if b = 0x3E then .arrow
    else if b = 0x2C then .comma
    else .plain := by
  simp only [Sign.ofByte, Sign.ofCode, List.mem_cons, List.not_mem_nil, or_false,
    ← UInt8.toNat_inj]
  rfl

variable {before : List UInt8}

/-- The scanner goes on to stand behind one more byte of the segment. -/
def Passes (before : List UInt8) (seg : List (UInt8 × Role)) (s : State UInt8) (b : UInt8) : Prop :=
  ∃ t, s.step Sign.ofByte b = (none, t) ∧
    Stands (b :: before) (seg ++ [(b, roleOf before b)]) t

theorem Stands.passes_escaped (h : Stands before seg s) (he : escapedAfter before = true) :
    Passes before seg s b := by
  obtain ⟨escaping, quoted, collects⟩ := h
  have hrole : roleOf before b = .literal := by simp [roleOf, he]
  refine ⟨_, State.step_escaped (escaping.trans he), ?_, ?_, ?_⟩
  · simp [escapedAfter, he]
  · simp [quotedAfter, he, quoted]
  · rw [hrole]
    exact Collects.put (collects.of_eq rfl rfl rfl rfl)

theorem Stands.passes_backslash (h : Stands before seg s) (he : escapedAfter before = false) :
    Passes before seg s 0x5C := by
  obtain ⟨escaping, quoted, collects⟩ := h
  have hrole : roleOf before 0x5C = .mark := by simp [roleOf, he]
  refine ⟨_, State.step_escape (escaping.trans he) rfl, ?_, ?_, ?_⟩
  · simp [escapedAfter, he]
  · simp [quotedAfter, quoted]
  · rw [hrole]
    exact Collects.skip (collects.of_eq rfl rfl rfl rfl) (by decide) (by decide) (by decide)

/-- A quote is a mark where it opens and tells of itself where it closes. -/
theorem Stands.passes_quote (h : Stands before seg s) (he : escapedAfter before = false) :
    Passes before seg s 0x22 := by
  obtain ⟨escaping, quoted, collects⟩ := h
  have hes : s.escaping = false := escaping.trans he
  cases ho : quotedAfter before with
  | false =>
    have hrole : roleOf before 0x22 = .mark := by simp [roleOf, he, ho]
    refine ⟨_, State.step_open hes (quoted.trans ho) rfl, ?_, ?_, ?_⟩
    · simp [escapedAfter, hes]
    · simp [quotedAfter, he, ho]
    · rw [hrole]
      exact Collects.skip (collects.of_eq rfl rfl rfl rfl) (by decide) (by decide) (by decide)
  | true =>
    have hrole : roleOf before 0x22 = .closing := by simp [roleOf, he, ho]
    have hopened : Collects seg { s with quoted := false } := collects.of_eq rfl rfl rfl rfl
    refine ⟨_, State.step_close hes (quoted.trans ho) rfl, ?_, ?_, ?_⟩
    · simp [escapedAfter, hes]
    · simp [quotedAfter, he, ho]
    · rw [hrole]
      exact hopened.close

/-- A byte that is neither a backslash nor a quote leaves both flags as they are. -/
theorem flags_cons (he : escapedAfter before = false) (hb : b ≠ 0x5C) (hq : b ≠ 0x22) :
    escapedAfter (b :: before) = false ∧ quotedAfter (b :: before) = quotedAfter before := by
  simp [escapedAfter, quotedAfter, hb, hq, he]

theorem Stands.passes_enclosed (h : Stands before seg s) (he : escapedAfter before = false)
    (ho : quotedAfter before = true) (hb : b ≠ 0x5C) (hq : b ≠ 0x22) :
    Passes before seg s b := by
  obtain ⟨escaping, quoted, collects⟩ := h
  obtain ⟨hescaped, hquoted⟩ := flags_cons he hb hq
  have hrole : roleOf before b = .literal := by simp [roleOf, he, hb, hq, ho]
  have hsign : Sign.ofByte b ≠ .escape ∧ Sign.ofByte b ≠ .quote := by
    rw [ofByte_eq, if_neg hb, if_neg hq]
    grind
  refine ⟨_, State.step_enclosed (escaping.trans he) (quoted.trans ho) hsign.1 hsign.2, ?_, ?_, ?_⟩
  · rw [State.put_escaping, escaping, he, hescaped]
  · rw [State.put_quoted, quoted, hquoted]
  · rw [hrole]
    exact collects.put

/-- Outside quotes a byte is noise, an arrow, a separator or itself. -/
theorem Stands.passes_bare (h : Stands before seg s) (he : escapedAfter before = false)
    (ho : quotedAfter before = false) (hb : b ≠ 0x5C) (hq : b ≠ 0x22)
    (hr : roleOf before b ≠ .separator) : Passes before seg s b := by
  obtain ⟨escaping, quoted, collects⟩ := h
  obtain ⟨hescaped, hquoted⟩ := flags_cons he hb hq
  have hes : s.escaping = false := escaping.trans he
  have hqs : s.quoted = false := quoted.trans ho
  have hflags : s.escaping = escapedAfter (b :: before) ∧ s.quoted = quotedAfter (b :: before) :=
    ⟨hes.trans hescaped.symm, quoted.trans hquoted.symm⟩
  by_cases hn : b ∈ [0x20, 0x09, 0x0A, 0x0D, 0x3D]
  · have hrole : roleOf before b = .noise := by
      simp only [roleOf, he, hb, hq, ho, hn]
      rfl
    have hsign : Sign.ofByte b = .noise := by
      rw [ofByte_eq, if_neg hb, if_neg hq, if_pos hn]
    refine ⟨s, State.step_noise hes hqs hsign, hflags.1, hflags.2, ?_⟩
    rw [hrole]
    exact collects.skip (by decide) (by decide) (by decide)
  · by_cases ha : b = 0x3E
    · subst ha
      have hrole : roleOf before 0x3E = .arrow := by simp [roleOf, he, ho]
      refine ⟨_, State.step_arrow hes hqs rfl, hflags.1, hflags.2, ?_⟩
      rw [hrole]
      exact collects.arrow
    · have hc : b ≠ 0x2C := by
        rintro rfl
        exact hr (by simp [roleOf, he, ho])
      have hrole : roleOf before b = .literal := by
        simp only [roleOf, he, hb, hq, ho, hn, ha, hc]
        rfl
      have hsign : Sign.ofByte b = .plain := by
        rw [ofByte_eq, if_neg hb, if_neg hq, if_neg hn, if_neg ha, if_neg hc]
      refine ⟨_, State.step_plain hes hqs hsign, ?_, ?_, ?_⟩
      · rw [State.put_escaping, hflags.1]
      · rw [State.put_quoted, hflags.2]
      · rw [hrole]
        exact collects.put

/-- The next byte of a segment, whatever it is, leaves the scanner behind it. -/
theorem Stands.passes (h : Stands before seg s) (hr : roleOf before b ≠ .separator) :
    Passes before seg s b := by
  cases he : escapedAfter before with
  | true => exact h.passes_escaped he
  | false =>
    by_cases hb : b = 0x5C
    · exact hb ▸ h.passes_backslash he
    · by_cases hq : b = 0x22
      · exact hq ▸ h.passes_quote he
      · cases ho : quotedAfter before with
        | true => exact h.passes_enclosed he ho hb hq
        | false => exact h.passes_bare he ho hb hq hr

/-- A separator ends the pair and begins the next segment. -/
theorem Stands.step_separator (h : Stands before seg s) (hr : roleOf before b = .separator) :
    s.step Sign.ofByte b = s.commit ∧ Stands (b :: before) [] s.commit.2 := by
  obtain ⟨he, ho, rfl⟩ :
      escapedAfter before = false ∧ quotedAfter before = false ∧ b = 0x2C := by
    unfold roleOf at hr
    grind
  have hes : s.escaping = false := h.escaping.trans he
  have hqs : s.quoted = false := h.quoted.trans ho
  have hfresh := State.fresh_commit hes hqs
  refine ⟨State.step_comma hes hqs rfl, ?_, ?_, collects_of_fresh hfresh⟩
  · simp [escapedAfter, hfresh.escaping]
  · simp [quotedAfter, ho, hfresh.quoted]

/-- From any place in a text, the scanner reads on as the segments say. -/
theorem Stands.run_eq (h : Stands before seg s) (hseg : ∀ x ∈ seg, x.2 ≠ .separator)
    (bs : List UInt8) :
    (State.run Sign.ofByte s bs).map (RawPair.toPair Utf8.lossy) =
      ((seg ++ roles before bs).splitOnP fun x => x.2 = .separator).filterMap pairOf? := by
  -- what has been read is in `h`; a separator ends `seg` and everything else makes it longer
  induction bs generalizing before seg s with
  | nil =>
    have hone : seg.splitOnP (fun x => x.2 = .separator) = [seg] :=
      List.splitOnP_eq_singleton fun x hx => by simp [hseg x hx]
    rw [roles, List.append_nil, hone, State.run, List.filterMap_cons, ← h.collects.commit]
    cases s.commit.1 <;> rfl
  | cons b bs ih =>
    rw [State.run, roles]
    by_cases hr : roleOf before b = .separator
    · obtain ⟨hstep, hnext⟩ := h.step_separator hr
      have hcut : (seg ++ (b, roleOf before b) :: roles (b :: before) bs).splitOnP
          (fun x => x.2 = .separator) =
          seg :: (roles (b :: before) bs).splitOnP fun x => x.2 = .separator :=
        List.splitOnP_append_cons_of_forall_mem (fun x hx => by simp [hseg x hx]) _
          (by simp [hr]) _
      have hrest := ih hnext (by simp)
      rw [List.nil_append] at hrest
      rw [hcut, hstep, List.map_append, hrest, List.filterMap_cons, ← h.collects.commit]
      cases s.commit.1 <;> rfl
    · obtain ⟨t, hstep, hnext⟩ := h.passes hr
      have hrest := ih hnext fun x hx => by
        rcases List.mem_append.1 hx with hx | hx
        · exact hseg x hx
        · rw [List.mem_singleton.1 hx]
          exact hr
      rw [hstep, ← List.singleton_append, ← List.append_assoc, ← hrest]
      rfl

end

end HstoreKit.Scan

namespace HstoreKit.Hstore

open Scan

theorem pairs_eq_reading (bytes : List UInt8) :
    Scan.pairs UInt8.toNat Utf8.lossy bytes = reading bytes := by
  have hblank : (fun b : UInt8 => isBlank b.toNat) = isWhite := funext isBlank_toNat
  have hstart : Stands [] [] ({} : State UInt8) :=
    ⟨rfl, rfl, collects_of_fresh State.fresh_initial⟩
  rw [Scan.pairs, hblank]
  exact hstart.run_eq (by simp) _

/-- **The scanner reads what the segments say.** For any bytes whatever: behind white space at the
ends, every byte has the role that the bytes before it give it, the separators cut the text into
segments, and the hstore is made of one pair a segment, of which a later one wins. -/
theorem parse_eq_ofPairs_reading (bytes : List UInt8) : parse bytes = ofPairs (reading bytes) := by
  rw [parse, scan, pairs_eq_reading, ofPairs]

/-- A comma in quotes, a quote inside a value, a blank segment, a bare NULL and a key alone. -/
example : reading (Utf8.encode " \"a,\"=>Nu\\l\"\"l,, b=>NULL, c") =
    [("a,", some "Null"), ("b", none), ("c", some "")] := by
  decide

end HstoreKit.Hstore
