import HstoreKit.Hstore.Object
import HstoreKit.PgValue.Basic

/-!
# Operations on an hstore

What a caller can do to an hstore that it holds, and what it is told. Operations that make a new
hstore put it in place of the one that is held.
-/

namespace HstoreKit.Hstore

inductive Operation where
  | new
  | clear
  | set (key : String) (value : Option String)
  | setText (key value : String)
  | delete (key : String)
  | extend (pairs : List Pair)
  | merge (other : Hstore)
  | ofTexts (pairs : List (String × String))
  | collect (pairs : List Pair)
  /-- The pairs are those of an ordered map. -/
  | ofMap (pairs : List Pair) (ascending : PairList.Ascending pairs)
  | scanValue (v : PgValue)
  | scanText (text : String)
  | scanBytes (bytes : List UInt8)
  | unmarshal (v : Json)
  /-- Reads a binary form, and keeps what is held if that fails. -/
  | decode (bytes : List UInt8)

/-- What the caller is told. -/
inductive Answer where
  | done
  | removed (entry : Option (Option String))
  | failed (e : HstoreError)

def Answer.ofResult : Except HstoreError Unit → Answer
  | .ok _ => .done
  | .error e => .failed e

/-- The hstore after an operation, and its answer. -/
def perform (h : Hstore) : Operation → Hstore × Answer
  | .new | .clear => (empty, .done)
  | .set key value => (h.insert key value, .done)
  | .setText key value => (h.insert key (some value), .done)
  | .delete key => (h.erase key, .removed (h.lookup? key))
  | .extend pairs => (h.extend pairs, .done)
  | .merge other => (h.merge other, .done)
  | .ofTexts pairs => (ofTexts pairs, .done)
  | .collect pairs => (ofPairs pairs, .done)
  | .ofMap pairs ascending => (⟨pairs, ascending⟩, .done)
  | .scanValue v => ((h.scanValue v).1, .ofResult (h.scanValue v).2)
  | .scanText text => (h.scanText text, .done)
  | .scanBytes bytes => (h.scan bytes, .done)
  | .unmarshal v => ((h.unmarshal v).1, .ofResult (h.unmarshal v).2)
  | .decode bytes =>
    match decodeBinary bytes with
    | .ok new => (new, .done)
    | .error e => (h, .failed e)

/-- Operations one after the other, and their answers. -/
def performAll (h : Hstore) : List Operation → Hstore × List Answer
  | [] => (h, [])
  | op :: ops =>
    let (h, answer) := h.perform op
    let (h, answers) := performAll h ops
    (h, answer :: answers)

end HstoreKit.Hstore
