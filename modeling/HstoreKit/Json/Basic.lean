import HstoreKit.Number.Binary64
import HstoreKit.PairList

/-!
# JSON values

A value as it is written: an object keeps its members in order, with every repeat of a name.
`collapse` is the value that the text means, where the last of repeated members stands and members
are ordered by name.
-/

namespace HstoreKit

/-- A JSON value. Whole numbers and doubles are kept apart. -/
inductive Json where
  | null
  | bool (b : Bool)
  | int (n : Int)
  | double (x : Binary64)
  | str (s : String)
  | arr (items : List Json)
  | obj (members : List (String × Json))

instance : Inhabited Json := ⟨.null⟩

namespace Json

mutual

/-- The value with one member a name, ordered by name, at every depth. -/
def collapse : Json → Json
  | .arr items => .arr (collapseItems items)
  | .obj members => .obj (PairList.ofList (collapseMembers members))
  | v => v

def collapseItems : List Json → List Json
  | [] => []
  | v :: vs => v.collapse :: collapseItems vs

def collapseMembers : List (String × Json) → List (String × Json)
  | [] => []
  | (k, v) :: ms => (k, v.collapse) :: collapseMembers ms

end

/-- The last member of that name. -/
def member? (name : String) : Json → Option Json
  | .obj members => PairList.find? name members.reverse
  | _ => none

end Json

end HstoreKit
