import HstoreKit.Sql.Quote

/-!
# Settings

What is needed to connect to a database and to set up the hstore extension there. `check` reports
the first setting that cannot be used; `check_eq_ok_iff` says of each kind of settings which ones it
accepts.
-/

namespace HstoreKit

structure DatabaseSettings where
  host : String
  port : UInt16
  database : String
  username : String
  password : String
  maxConnections : UInt32 := 5
  timeoutSeconds : UInt64 := 30
  deriving DecidableEq, Repr

structure ExtensionSettings where
  schema : String := "public"
  create : Bool := true
  deriving DecidableEq, Repr

structure Settings where
  database : DatabaseSettings
  extension : ExtensionSettings := {}
  deriving DecidableEq, Repr

/-- Why settings cannot be used. -/
inductive SettingsFault where
  | emptyHost
  | zeroPort
  | emptyDatabase
  | emptyUsername
  | zeroConnections
  | zeroTimeout
  | schemaNotPlain (schema : String)
  | noPath
  deriving DecidableEq, Repr

/-- Where settings are looked for when no other place is named. -/
def defaultPath : String := "./storehaus.toml"

/-- The variable that names another place. -/
def pathVariable : String := "STOREHAUS_CONFIG"

def SettingsFault.message : SettingsFault → String
  | .emptyHost => "Database host cannot be empty"
  | .zeroPort => "Database port cannot be zero"
  | .emptyDatabase => "Database name cannot be empty"
  | .emptyUsername => "Database username cannot be empty"
  | .zeroConnections => "Database max_connections must be greater than 0"
  | .zeroTimeout => "Database connection_timeout_seconds must be greater than 0"
  | .schemaNotPlain schema =>
    "Hstore extension_schema '" ++ schema ++ "' must be a plain identifier"
  | .noPath =>
    "Config path must be specified in .env file as " ++ pathVariable ++ " or in " ++ defaultPath ++
      " file"

namespace DatabaseSettings

/-- The address that a client connects to. -/
def address (d : DatabaseSettings) : String :=
  "postgresql://" ++ d.username ++ ":" ++ d.password ++ "@" ++ d.host ++ ":" ++
    toString d.port.toNat ++ "/" ++ d.database

def check (d : DatabaseSettings) : Except SettingsFault Unit :=
  if d.host.isEmpty then .error .emptyHost
  else if d.port = 0 then .error .zeroPort
  else if d.database.isEmpty then .error .emptyDatabase
  else if d.username.isEmpty then .error .emptyUsername
  else if d.maxConnections = 0 then .error .zeroConnections
  else if d.timeoutSeconds = 0 then .error .zeroTimeout
  else .ok ()

end DatabaseSettings

namespace ExtensionSettings

/-- Whether nothing differs from the defaults. -/
def isDefault (e : ExtensionSettings) : Bool :=
  e = {}

def isSchemaChar (c : Char) : Bool :=
  c.isAlphanum || c = '_'

def check (e : ExtensionSettings) : Except SettingsFault Unit :=
  if e.schema.isEmpty || !e.schema.toList.all isSchemaChar then .error (.schemaNotPlain e.schema)
  else .ok ()

/-- The statement that sets up the extension in its schema. -/
def createSql (e : ExtensionSettings) : String :=
  "CREATE EXTENSION IF NOT EXISTS hstore WITH SCHEMA " ++ Sql.quotedName e.schema

end ExtensionSettings

def Settings.check (s : Settings) : Except SettingsFault Unit := do
  s.database.check
  s.extension.check

/-! ## what the checks accept -/

theorem ite_error_eq_ok_iff {ε : Type} {c : Prop} [Decidable c] {fault : ε}
    {rest : Except ε Unit} :
    (if c then .error fault else rest) = .ok () ↔ ¬ c ∧ rest = .ok () := by
  split
  next h => simp [h]
  next h => simp [h]

/-- The settings with which a connection can be tried. The password may be empty. -/
structure DatabaseSettings.Usable (d : DatabaseSettings) : Prop where
  host : d.host ≠ ""
  port : d.port ≠ 0
  database : d.database ≠ ""
  username : d.username ≠ ""
  maxConnections : d.maxConnections ≠ 0
  timeoutSeconds : d.timeoutSeconds ≠ 0

theorem DatabaseSettings.check_eq_ok_iff {d : DatabaseSettings} :
    d.check = .ok () ↔ d.Usable := by
  unfold check
  simp only [ite_error_eq_ok_iff, String.isEmpty_iff, and_true]
  constructor
  · intro ⟨host, port, database, username, maxConnections, timeoutSeconds⟩
    exact ⟨host, port, database, username, maxConnections, timeoutSeconds⟩
  · intro h
    exact ⟨h.host, h.port, h.database, h.username, h.maxConnections, h.timeoutSeconds⟩

theorem ExtensionSettings.check_eq_ok_iff {e : ExtensionSettings} :
    e.check = .ok () ↔ e.schema ≠ "" ∧ ∀ c ∈ e.schema.toList, isSchemaChar c = true := by
  unfold check
  simp only [ite_error_eq_ok_iff, Bool.or_eq_true, String.isEmpty_iff, not_or, and_true,
    Bool.not_eq_true', Bool.not_eq_false, List.all_eq_true]

/-- The default schema may be used. -/
theorem ExtensionSettings.check_default : ({} : ExtensionSettings).check = .ok () := rfl

theorem Settings.check_eq_ok_iff {s : Settings} :
    s.check = .ok () ↔ s.database.check = .ok () ∧ s.extension.check = .ok () := by
  unfold check
  cases s.database.check with
  | error fault => simp [bind, Except.bind]
  | ok u => simp [bind, Except.bind]

end HstoreKit
