import HstoreKit.Settings.Document
import HstoreKit.Sql.Identifier

/-!
# Failures

Every way in which work on a database can fail, with the text that is shown for it.
-/

namespace HstoreKit

/-- Why a statement is not carried out. -/
inductive ConnectionFault where
  | poolClosed
  deriving DecidableEq, Repr

def ConnectionFault.message : ConnectionFault → String
  | .poolClosed => "attempted to acquire a connection on a closed pool"

inductive Failure where
  | connection (fault : ConnectionFault)
  | settings (error : SettingsError)
  | statement (fault : Sql.NameFault)
  deriving DecidableEq, Repr

def Failure.message : Failure → String
  | .connection fault => "Database connection error: " ++ fault.message
  | .settings error => "Configuration error: " ++ error.message
  | .statement fault => "Store error: Validation error: " ++ fault.message

end HstoreKit
