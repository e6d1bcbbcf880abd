import HstoreKit.Proofs.Sql.Statement

/-!
# Names that are checked

A query has a statement when its table and every name that it writes without quotes are plain
identifiers. The statement is then its clauses behind the table, and of other queries the first name
that is none is reported.

* `Filter.mapHstore`: a filter with other conditions on its hstore columns;
* `text_eq`: a statement has one space before each clause that is not empty;
* `select_iff_names`: which queries have a statement, what it is, and what is reported of others.
-/

namespace HstoreKit.Sql

/-! ## Conditions on hstore columns -/

namespace Filter

mutual

/-- The filter with other conditions in place of those on hstore columns. -/
def mapHstore (g : Predicate → Predicate) : Filter → Filter
  | .condition c => .condition c
  | .group connective fs => .group connective (mapHstoreAll g fs)
  | .not f => .not (f.mapHstore g)
  | .hstore p => .hstore (g p)

def mapHstoreAll (g : Predicate → Predicate) : List Filter → List Filter
  | [] => []
  | f :: fs => f.mapHstore g :: mapHstoreAll g fs

end

mutual

/-- The plain fields are what they were. -/
theorem plainFields_mapHstore (g : Predicate → Predicate) (f : Filter) :
    plainFields (f.mapHstore g).leaves = plainFields f.leaves := by
  cases f with
  | condition c => rfl
  | group connective fs =>
    rw [mapHstore, leaves, leaves]
    exact plainFields_mapHstoreAll g fs
  | not f =>
    rw [mapHstore, leaves, leaves]
    exact plainFields_mapHstore g f
  | hstore p => rfl

theorem plainFields_mapHstoreAll (g : Predicate → Predicate) (fs : List Filter) :
    plainFields (leavesAll (mapHstoreAll g fs)) = plainFields (leavesAll fs) := by
  cases fs with
  | nil => rfl
  | cons f fs =>
    rw [mapHstoreAll, leavesAll, leavesAll, plainFields_append, plainFields_append,
      plainFields_mapHstore g f, plainFields_mapHstoreAll g fs]

end

end Filter

namespace Query

/-- The query with other conditions in place of those on hstore columns. -/
def mapHstore (g : Predicate → Predicate) (q : Query) : Query :=
  { q with filters := Filter.mapHstoreAll g q.filters }

theorem names_mapHstore (g : Predicate → Predicate) (q : Query) (table : String) :
    (q.mapHstore g).names table = q.names table := by
  rw [names, names, mapHstore, Filter.plainFields_mapHstoreAll]

/-! ## Clauses that are not empty -/

/-- Clauses are put behind a text with one space before each that is not empty. -/
theorem foldl_appended (s : String) (cs : List String) :
    cs.foldl (fun s c => s ++ appended c) s = " ".intercalate (s :: cs.filter (· ≠ "")) := by
  induction cs generalizing s with
  | nil => exact String.intercalate_singleton.symm
  | cons c cs ih =>
    rw [List.foldl_cons, ih]
    by_cases hc : c = ""
    · subst hc
      simp [appended]
    · have hkeep : (c :: cs).filter (· ≠ "") = c :: cs.filter (· ≠ "") := by simp [hc]
      rw [appended_eq hc, hkeep, String.intercalate_cons_cons, String.append_assoc,
        String.intercalate_cons_append, String.intercalate_cons_append]

theorem text_eq (q : Query) (table : String) :
    q.text table = " ".intercalate (("SELECT * FROM " ++ quotedName table) ::
      [q.clauses.filter, q.clauses.order, q.clauses.page].filter (· ≠ "")) :=
  foldl_appended ("SELECT * FROM " ++ quotedName table)
    [q.clauses.filter, q.clauses.order, q.clauses.page]

/-! ## Statements and faults -/

/-- **A query has a statement when its names are plain identifiers, and the first that is none is
reported.** The names are the table, the field of every plain condition at any depth, and the fields
of the ordering, in this order; what is said of hstore columns makes no difference. The statement is
the table and behind it the clauses that are not empty, and the values are those of the clauses. -/
theorem select_iff_names (q : Query) (table : String) :
    ((∃ result, q.select table = .ok result) ↔ ∀ n ∈ q.names table, nameFault? n = none) ∧
    (∀ fault, q.select table = .error fault ↔
      ∃ before name behind, q.names table = before ++ name :: behind ∧
        (∀ n ∈ before, nameFault? n = none) ∧ nameFault? name = some fault) ∧
    (∀ sql values, q.select table = .ok (sql, values) →
      sql = " ".intercalate (("SELECT * FROM " ++ quotedName table) ::
        [q.clauses.filter, q.clauses.order, q.clauses.page].filter (· ≠ "")) ∧
      values = q.clauses.values) ∧
    ∀ g fault, (q.mapHstore g).select table = .error fault ↔ q.select table = .error fault := by
  refine ⟨⟨?_, ?_⟩, ?_, ?_, ?_⟩
  · rintro ⟨⟨sql, values⟩, h⟩
    exact (select_eq_ok_iff.1 h).1
  · intro hnames
    exact ⟨_, select_eq_ok_iff.2 ⟨hnames, rfl, rfl⟩⟩
  · intro fault
    exact select_eq_error_iff
  · intro sql values h
    obtain ⟨-, hsql, hvalues⟩ := select_eq_ok_iff.1 h
    exact ⟨hsql.trans (q.text_eq table), hvalues⟩
  · intro g fault
    rw [select_eq_error_iff, select_eq_error_iff, names_mapHstore]

/-- Of two bad names the one in the group comes first; a column of an hstore may be anything. -/
example : Query.select
    { filters := [.hstore (.hasKey "no name" "k"), .not (.group .or [.condition ⟨"or", .eq, none⟩])]
      order := [("1st", .asc)] } "items" = .error (.reserved "or") := by
  rfl

end Query

end HstoreKit.Sql
