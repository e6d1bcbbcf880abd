import HstoreKit.Proofs.Sql.Token
import HstoreKit.Settings.Document

/-!
# The statement that sets up the extension

The schema may be any text. Between its quotes it stays one token, so no schema adds to the
statement or takes anything from it.

* `ExtensionSettings.quote_not_mem`: the schema of accepted settings is written as it is;
* `ExtensionSettings.tokens?_createSql`: the tokens of the statement.
-/

namespace HstoreKit

open Sql Sql.Token

namespace ExtensionSettings

/-- An accepted schema has no quote. -/
theorem quote_not_mem {e : ExtensionSettings} (h : e.check = .ok ()) : '"' ∉ e.schema.toList := by
  intro hmem
  have hchar := (check_eq_ok_iff.1 h).2 '"' hmem
  revert hchar
  decide

/-- The words before the schema. -/
def createTokens : List Token :=
  ["CREATE", "EXTENSION", "IF", "NOT", "EXISTS", "hstore", "WITH", "SCHEMA"].map .word

theorem closed_create :
    Closed "CREATE EXTENSION IF NOT EXISTS hstore WITH SCHEMA " createTokens := by
  unfold Closed
  decide

theorem tokens?_create_schema (e : ExtensionSettings) :
    tokens? e.createSql = some (createTokens ++ [.name e.schema]) :=
  tokens?_closed_append closed_create (tokens?_quotedName e.schema)

/-- **No schema alters the statement.** Whatever the schema is, the statement consists of the words
that set up the extension and of one quoted identifier whose content is the schema, so that two
statements are the same only for the same schema. Of settings that a document gives, the schema
stands between the quotes as it is. -/
theorem tokens?_createSql (e : ExtensionSettings) :
    tokens? e.createSql = some [.word "CREATE", .word "EXTENSION", .word "IF", .word "NOT",
      .word "EXISTS", .word "hstore", .word "WITH", .word "SCHEMA", .name e.schema] ∧
    (∀ f : ExtensionSettings, e.createSql = f.createSql ↔ e.schema = f.schema) ∧
    ∀ text s, Settings.ofToml text = .ok s → s.extension.createSql =
      "CREATE EXTENSION IF NOT EXISTS hstore WITH SCHEMA " ++
        ("\"" ++ s.extension.schema ++ "\"") := by
  refine ⟨tokens?_create_schema e, ?_, ?_⟩
  · intro f
    constructor
    · intro h
      have htokens := tokens?_create_schema e
      rw [h, tokens?_create_schema f] at htokens
      have hname := List.append_cancel_left (Option.some.inj htokens)
      injection hname with hname
      injection hname with hname
      exact hname.symm
    · intro h
      unfold createSql
      rw [h]
  · intro text s h
    have hcheck := (Settings.check_eq_ok_iff.1 (Settings.ofToml_eq_ok_iff.1 h).2).2
    unfold createSql
    rw [quotedName_of_not_mem (quote_not_mem hcheck)]

/-- A document that names a schema. -/
def schemaDocument : String :=
  "[database]\nhost = \"db\"\nport = 5432\ndatabase = \"store\"\nusername = \"app\"\n" ++
    "password = \"\"\n[hstore]\nextension_schema = \"ext_1\"\n"

def schemaSettings : Settings where
  database := {
    host := "db", port := 5432, database := "store", username := "app", password := "" }
  extension := { schema := "ext_1" }

theorem tokens?_createSql_schemaDocument :
    Settings.ofToml schemaDocument = .ok schemaSettings ∧ schemaSettings.extension.createSql =
      "CREATE EXTENSION IF NOT EXISTS hstore WITH SCHEMA " ++
        ("\"" ++ schemaSettings.extension.schema ++ "\"") := by
  have hread : Settings.ofToml schemaDocument = .ok schemaSettings := by
    decide +kernel
  exact ⟨hread, (tokens?_createSql {}).2.2 schemaDocument schemaSettings hread⟩

/-- Quotes at both ends of a schema, and what would otherwise end the statement. -/
example : ({ schema := "\"; DROP TABLE users; --\"" } : ExtensionSettings).createSql =
    "CREATE EXTENSION IF NOT EXISTS hstore WITH SCHEMA \"\"\"; DROP TABLE users; --\"\"\"" := by
  rfl

end ExtensionSettings

end HstoreKit
