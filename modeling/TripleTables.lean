import TripleTables.Text.Blank
import TripleTables.Text.Escape
import TripleTables.Text.Numeral
import TripleTables.Name
import TripleTables.Graph.Term
import TripleTables.Graph.Literal
import TripleTables.Graph.Expr
import TripleTables.Graph.Renaming
import TripleTables.Like
import TripleTables.FunctionTable
import TripleTables.Catalog.Template
import TripleTables.Catalog.Basic
import TripleTables.Catalog.Definition
import TripleTables.Sql.Syntax
import TripleTables.Sql.Reader
import TripleTables.Sql.Lexeme
import TripleTables.Sql.Expression
import TripleTables.Sql.Fault
import TripleTables.Sql.Statement
import TripleTables.Query.Basic
import TripleTables.Query.Builder
import TripleTables.Query.View
import TripleTables.Sparql.Expr
import TripleTables.Sparql.Query
import TripleTables.Compile.Error
import TripleTables.Compile.Expression
import TripleTables.Compile.Statement
import TripleTables.Json
import TripleTables.Graph.Json
import TripleTables.Query.Json
import TripleTables.Document
import TripleTables.Document.Reading
import TripleTables.Yaml.Place
import TripleTables.Yaml.Scalar
import TripleTables.Yaml.BlockScalar
import TripleTables.Yaml.Tag
import TripleTables.Yaml.Token
import TripleTables.Yaml.Node
import TripleTables.Catalog.Document
import TripleTables.Settings
import TripleTables.CommandLine
import TripleTables.Main
import TripleTables.Proofs.Run
import TripleTables.Proofs.Compile.Recursion
import TripleTables.Proofs.Builder.Change
import TripleTables.Proofs.Builder.Consistent
import TripleTables.Proofs.Builder.Capture
import TripleTables.Proofs.Builder.Scope
import TripleTables.Proofs.Compile.Phases
import TripleTables.Proofs.Compile.Scope
import TripleTables.Proofs.Compile.Outcome
import TripleTables.Proofs.Compile.CommaJoin
import TripleTables.Proofs.Like.Matching
import TripleTables.Proofs.Like.Regex
import TripleTables.Proofs.Meaning
import TripleTables.Proofs.Compile.Meaning
import TripleTables.Proofs.Sql.Parts
import TripleTables.Proofs.Sql.Reader
import TripleTables.Proofs.Sql.Lexeme
import TripleTables.Proofs.Sql.Regular
import TripleTables.Proofs.Sql.Token
import TripleTables.Proofs.Sql.Quotation
import TripleTables.Proofs.Sql.Print
import TripleTables.Proofs.Sql.Phrase
import TripleTables.Proofs.Sql.Opening
import TripleTables.Proofs.Sql.Primary
import TripleTables.Proofs.Sql.Level
import TripleTables.Proofs.Sql.Restyling
import TripleTables.Proofs.Sql.Agreement
import TripleTables.Proofs.Sql.Lowering
import TripleTables.Proofs.Sql.Spelling
import TripleTables.Proofs.Sql.Insensitive
import TripleTables.Proofs.Sql.Progress
import TripleTables.Proofs.Sql.Termination
import TripleTables.Proofs.Sql.RoundTrip
import TripleTables.Proofs.Builder.Representation
import TripleTables.Proofs.Builder.Layout
import TripleTables.Proofs.Builder.Blocks
import TripleTables.Proofs.Builder.Placement
import TripleTables.Proofs.Compile.Mentions
import TripleTables.Proofs.Compile.Blanking
import TripleTables.Proofs.Compile.Optionality
import TripleTables.Proofs.Compile.Texts
import TripleTables.Proofs.Compile.WellScoped
import TripleTables.Proofs.Sparql.Reading
import TripleTables.Proofs.Sparql.Numeral
import TripleTables.Proofs.Compile.Signs
import TripleTables.Proofs.Catalog.Validated
import TripleTables.Proofs.Builder.Failures
import TripleTables.Proofs.Builder.Atomic
import TripleTables.Proofs.Compile.Failures
import TripleTables.Proofs.Sparql.Rendering
import TripleTables.Proofs.Compile.Rendering
import TripleTables.Proofs.Compile.Occurrence
import TripleTables.Proofs.Compile.Names
import TripleTables.Proofs.Graph.Nodes
import TripleTables.Proofs.Compile.Provenance
import TripleTables.Proofs.Compile.Aggregates
import TripleTables.Proofs.Compile.Arity
import TripleTables.Proofs.Compile.GroupKeys
import TripleTables.Proofs.Graph.Renaming
import TripleTables.Proofs.Query.View
import TripleTables.Proofs.Like.Translation
import TripleTables.Proofs.Lookup
import TripleTables.Proofs.Catalog.Index
import TripleTables.Proofs.Catalog.TripleText
import TripleTables.Proofs.Builder.Resolution
import TripleTables.Proofs.Builder.Star
import TripleTables.Proofs.Compile.History
import TripleTables.Proofs.Compile.WorkStack
import TripleTables.Proofs.Settings
