/-!
# Plain identifiers

The names that may stand in a statement without quotes: one to sixty-three bytes, a letter or
underscore first, then letters, digits and underscores, and no reserved word in any letter case.
`nameFault?` reports the first rule that a name breaks.
-/

namespace HstoreKit.Sql

/-- Why a name is no plain identifier. -/
inductive NameFault where
  | empty
  | tooLong (name : String) (length limit : Nat)
  | invalidStart (name : String)
  | invalidCharacters (name : String)
  | reserved (name : String)
  deriving DecidableEq, Repr

def NameFault.message : NameFault → String
  | .empty => "Name cannot be empty"
  | .tooLong name length limit =>
    "Name '" ++ name ++ "' is too long: " ++ toString length ++ " characters (max " ++
      toString limit ++ ")"
  | .invalidStart name => "Name '" ++ name ++ "' must start with a letter or underscore"
  | .invalidCharacters name =>
    "Invalid characters in name '" ++ name ++
      "': only alphanumeric characters and underscores are allowed"
  | .reserved name => "Name '" ++ name ++ "' is a reserved SQL keyword"

/-- The most bytes that a name may have. -/
def maxNameLength : Nat := 63

def reservedWords : List String := [
  "ALL", "AND", "ARRAY", "AS", "ASC", "BETWEEN", "BY", "CASE", "CHECK", "COLUMN", "CONSTRAINT",
  "CREATE", "DEFAULT", "DELETE", "DESC", "DISTINCT", "DROP", "ELSE", "END", "EXISTS", "FALSE",
  "FOREIGN", "FROM", "FULL", "GROUP", "HAVING", "IN", "INNER", "INSERT", "INTO", "IS", "JOIN",
  "LEFT", "LIKE", "LIMIT", "NOT", "NULL", "OFFSET", "ON", "OR", "ORDER", "OUTER", "PRIMARY",
  "REFERENCES", "RETURNING", "RIGHT", "SELECT", "TABLE", "THEN", "TO", "TRUE", "UNION", "UNIQUE",
  "UPDATE", "USING", "WHEN", "WHERE", "WITH"]

/-- A text with its ASCII letters in upper case. -/
def upper (s : String) : String :=
  String.ofList (s.toList.map Char.toUpper)

def isNameStart (c : Char) : Bool :=
  c.isAlpha || c = '_'

def isNameChar (c : Char) : Bool :=
  c.isAlphanum || c = '_'

/-- The first rule that a name breaks. -/
def nameFault? (name : String) : Option NameFault :=
  match name.toList with
  | [] => some .empty
  | c :: cs =>
    if maxNameLength < name.utf8ByteSize then some (.tooLong name name.utf8ByteSize maxNameLength)
    else if !isNameStart c then some (.invalidStart name)
    else if !(c :: cs).all isNameChar then some (.invalidCharacters name)
    else if upper name ∈ reservedWords then some (.reserved name)
    else none

/-- The characters of a name that breaks no rule. -/
theorem chars_of_nameFault?_eq_none {name : String} (h : nameFault? name = none) :
    ∃ c cs, name.toList = c :: cs ∧ isNameStart c = true ∧ ∀ d ∈ cs, isNameChar d = true := by
  unfold nameFault? at h
  cases hname : name.toList with
  | nil => simp [hname] at h
  | cons c cs =>
    simp only [hname] at h
    split at h
    · simp at h
    · split at h
      · simp at h
      · split at h
        · simp at h
        · rename_i hstart hall
          refine ⟨c, cs, rfl, by simpa using hstart, fun d hd => ?_⟩
          have hchars : ∀ e ∈ c :: cs, isNameChar e = true := by
            rw [Bool.not_eq_true', Bool.not_eq_false, List.all_eq_true] at hall
            exact hall
          exact hchars d (List.mem_cons_of_mem _ hd)

/-- A name that breaks no rule is no reserved word in any letter case. -/
theorem upper_not_mem_of_nameFault?_eq_none {name : String} (h : nameFault? name = none) :
    upper name ∉ reservedWords := by
  unfold nameFault? at h
  split at h
  · cases h
  · repeat' split at h
    all_goals first | assumption | cases h

/-- A plain identifier. -/
structure Identifier where
  name : String
  plain : nameFault? name = none

/-- The identifier of a name, or the first rule that the name breaks. -/
def Identifier.check (name : String) : Except NameFault Identifier :=
  match h : nameFault? name with
  | none => .ok ⟨name, h⟩
  | some fault => .error fault

end HstoreKit.Sql
