/-!
# Quoted SQL

A string literal stands in single quotes, a quoted identifier in double ones; inside, the quote is
written twice.
-/

namespace HstoreKit.Sql

/-- Writes every occurrence of a character twice. -/
def doubled (q : Char) (s : String) : List Char :=
  s.toList.flatMap fun c => if c = q then [q, q] else [c]

def enclosed (q : Char) (s : String) : String :=
  String.ofList (q :: doubled q s ++ [q])

/-- Where the quote does not occur, nothing is written twice. -/
theorem doubled_of_not_mem {q : Char} {s : String} (h : q ∉ s.toList) : doubled q s = s.toList := by
  have hsingle : ∀ cs : List Char, q ∉ cs →
      (cs.flatMap fun c => if c = q then [q, q] else [c]) = cs := by
    intro cs
    induction cs with
    | nil => intro _; rfl
    | cons c cs ih =>
      intro hcs
      rw [List.mem_cons, not_or] at hcs
      rw [List.flatMap_cons, if_neg (Ne.symm hcs.1), ih hcs.2, List.singleton_append]
  exact hsingle s.toList h

/-- A string literal. -/
def literal (s : String) : String :=
  enclosed '\'' s

/-- A quoted identifier. -/
def quotedName (s : String) : String :=
  enclosed '"' s

theorem quotedName_of_not_mem {s : String} (h : '"' ∉ s.toList) :
    quotedName s = "\"" ++ s ++ "\"" := by
  rw [quotedName, enclosed, doubled_of_not_mem h, ← String.toList_inj]
  simp

end HstoreKit.Sql
