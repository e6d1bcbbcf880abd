import HstoreKit.Failure

/-!
# Setting up the extension

The extension is created in its schema unless the settings say not to. Whatever carries out the
statement is given as a function.
-/

namespace HstoreKit

/-- Whatever carries out statements. -/
abbrev Pool := String → Except ConnectionFault Unit

/-- The pool that lends no connection any more. -/
def Pool.closed : Pool :=
  fun _ => .error .poolClosed

/-- Creates the extension, unless the settings say not to. -/
def ExtensionSettings.ensure (e : ExtensionSettings) (pool : Pool) : Except Failure Unit :=
  if e.create then (pool e.createSql).mapError .connection else .ok ()

end HstoreKit
