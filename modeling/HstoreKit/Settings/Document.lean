import HstoreKit.Settings.Basic
import HstoreKit.Toml.Reader
import HstoreKit.Toml.Record

/-!
# Settings in a document

A document has a `database` record and perhaps an `hstore` record. Fields that have a default may be
left out. Settings are checked once they are read.
-/

namespace HstoreKit

/-- Why settings are not loaded. -/
inductive SettingsError where
  | unreadableFile
  | malformedDocument
  | malformedEnvironment
  | invalid (fault : SettingsFault)
  deriving DecidableEq, Repr

def SettingsError.message : SettingsError → String
  | .unreadableFile => "unreadable file"
  | .malformedDocument => "malformed document"
  | .malformedEnvironment => "malformed environment file"
  | .invalid fault => "Invalid configuration: " ++ fault.message

namespace Settings

/-- A field read by `read?`, or its default when it is left out. -/
def orDefault {α : Type} (default : α) (read? : Toml.Value → Option α) :
    Option Toml.Value → Option α
  | none => some default
  | some v => read? v

def database? (v : Toml.Value) : Option DatabaseSettings := do
  let fields ← v.fields? ["host", "port", "database", "username", "password", "max_connections",
    "connection_timeout_seconds"]
  match fields with
  | [some host, some port, some database, some username, some password, connections, timeout] =>
    return {
      host := ← host.string?
      port := .ofNat (← port.unsigned? 16)
      database := ← database.string?
      username := ← username.string?
      password := ← password.string?
      maxConnections := .ofNat (← orDefault 5 (Toml.Value.unsigned? 32) connections)
      timeoutSeconds := .ofNat (← orDefault 30 (Toml.Value.unsigned? 64) timeout) }
  | _ => none

def extension? (v : Toml.Value) : Option ExtensionSettings := do
  let fields ← v.fields? ["extension_schema", "create_extension"]
  match fields with
  | [schema, create] =>
    return {
      schema := ← orDefault "public" Toml.Value.string? schema
      create := ← orDefault true Toml.Value.boolean? create }
  | _ => none

/-- The settings of a root table. -/
def ofTable? (entries : Toml.Entries) : Option Settings := do
  let fields ← (Toml.Value.table .header entries).fields? ["database", "hstore"]
  match fields with
  | [some database, extension] =>
    return { database := ← database? database, extension := ← orDefault {} extension? extension }
  | _ => none

/-- The settings of a document, if they can be used. -/
def ofToml (text : String) : Except SettingsError Settings :=
  match (Toml.parse? text).bind ofTable? with
  | none => .error .malformedDocument
  | some s =>
    match s.check with
    | .ok _ => .ok s
    | .error fault => .error (.invalid fault)

/-- Settings come from a document only if they can be used. -/
theorem ofToml_eq_ok_iff {text : String} {s : Settings} :
    ofToml text = .ok s ↔ (Toml.parse? text).bind ofTable? = some s ∧ s.check = .ok () := by
  unfold ofToml
  cases (Toml.parse? text).bind ofTable? with
  | none => simp
  | some t =>
    rw [Option.some.injEq]
    constructor
    · intro h
      cases hcheck : t.check with
      | error fault => simp [hcheck] at h
      | ok u =>
        obtain rfl : t = s := by simpa [hcheck] using h
        exact ⟨rfl, hcheck⟩
    · intro ⟨hs, hcheck⟩
      subst hs
      simp [hcheck]

end Settings

end HstoreKit
