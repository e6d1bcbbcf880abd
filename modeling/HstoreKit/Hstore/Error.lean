import HstoreKit.Hstore.Wire

/-!
# Why a conversion to or from an hstore fails
-/

namespace HstoreKit

/-- What went wrong with a JSON text. -/
inductive JsonTextFault where
  | malformed
  | writeRefused
  deriving DecidableEq, Repr

def JsonTextFault.message : JsonTextFault → String
  | .malformed => "malformed text"
  | .writeRefused => "write refused"

inductive HstoreError where
  | invalidInputType (typeName : String)
  | typeMustBeObject
  | invalidBinary (fault : Wire.Fault)
  | serialization (fault : JsonTextFault)
  deriving DecidableEq, Repr

def HstoreError.message : HstoreError → String
  | .invalidInputType typeName => "invalid input type: " ++ typeName
  | .typeMustBeObject => "type Hstore must be a object"
  | .invalidBinary fault => "invalid binary hstore: " ++ fault.message
  | .serialization fault => "Serialization error: " ++ fault.message

namespace Hstore

/-- The binary form. -/
def encodeBinary (h : Hstore) : Except HstoreError (List UInt8) :=
  (Wire.encode h).mapError .invalidBinary

/-- The hstore of a binary form. -/
def decodeBinary (bytes : List UInt8) : Except HstoreError Hstore :=
  (Wire.decode bytes).mapError .invalidBinary

end Hstore

end HstoreKit
