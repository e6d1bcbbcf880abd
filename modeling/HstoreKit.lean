import HstoreKit.Hstore.Object
import HstoreKit.Hstore.Operation
import HstoreKit.PgValue.Tagged
import HstoreKit.Settings.Extension
import HstoreKit.Settings.Load
import HstoreKit.Sql.Bound
import HstoreKit.Sql.ColumnType
import HstoreKit.Sql.Query
import HstoreKit.Proofs.Text.ReadBack
import HstoreKit.Proofs.Hstore.Stretch
import HstoreKit.Proofs.Hstore.NullWord
import HstoreKit.Proofs.Hstore.Written
import HstoreKit.Proofs.Hstore.Segments
import HstoreKit.Proofs.Sql.Token
import HstoreKit.Proofs.Sql.Leaf
import HstoreKit.Proofs.Sql.Statement
import HstoreKit.Proofs.Sql.Parameters
import HstoreKit.Proofs.Text.Utf8
import HstoreKit.Proofs.Hstore.Message
import HstoreKit.Proofs.Hstore.Canonical
import HstoreKit.Proofs.Hstore.Contents
import HstoreKit.Proofs.Sql.Lexeme
import HstoreKit.Proofs.Sql.Boolean
import HstoreKit.Proofs.Sql.Meaning
import HstoreKit.Proofs.Hstore.Unquoted
import HstoreKit.Proofs.Hstore.Characters
import HstoreKit.Proofs.Hstore.Backslash
import HstoreKit.Proofs.Hstore.Merge
import HstoreKit.Proofs.Hstore.Truncation
import HstoreKit.Proofs.Sql.Names
import HstoreKit.Proofs.Json.ReadBack
import HstoreKit.Proofs.Hstore.Marshal
import HstoreKit.Proofs.Sql.PlainName
import HstoreKit.Proofs.Sql.Like
import HstoreKit.Proofs.Json.Settled
import HstoreKit.Proofs.Json.Grammar
import HstoreKit.Proofs.Hstore.Object
import HstoreKit.Proofs.Hstore.ObjectText
import HstoreKit.Proofs.Sql.Wrapper
import HstoreKit.Proofs.Sql.Predicates
import HstoreKit.Proofs.Settings.Extension
import HstoreKit.Proofs.Settings.Address
