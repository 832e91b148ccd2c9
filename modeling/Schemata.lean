import Schemata.CommandLine.Arguments
import Schemata.CommandLine.Command
import Schemata.CommandLine.Inputs
import Schemata.CommandLine.Run
import Schemata.Conversion
import Schemata.Definition
import Schemata.Dialect.Basic
import Schemata.Dialect.Environment
import Schemata.Dialect.Spelling
import Schemata.Digest.Sha256
import Schemata.Json.Basic
import Schemata.Json.Reader
import Schemata.Json.Writer
import Schemata.Lexeme.Basic
import Schemata.Lexeme.Split
import Schemata.Lexer.Comment
import Schemata.Lexer.Escape
import Schemata.Lexer.Keyword
import Schemata.Lexer.Lexicon
import Schemata.Lexer.Number
import Schemata.Lexer.Quoted
import Schemata.Lexer.Scan
import Schemata.Lexer.Token
import Schemata.LogicalType
import Schemata.Main
import Schemata.Migration
import Schemata.Prompt
import Schemata.Proofs.CommandLine.Export
import Schemata.Proofs.Conversion
import Schemata.Proofs.Definition.Contents
import Schemata.Proofs.Definition.Kept
import Schemata.Proofs.Dialect.Names
import Schemata.Proofs.Indexed.Reading
import Schemata.Proofs.Lexeme.Alike
import Schemata.Proofs.Lexeme.Depth
import Schemata.Proofs.Lexeme.Groups
import Schemata.Proofs.Lexeme.Nesting
import Schemata.Proofs.Lexeme.Plain
import Schemata.Proofs.Lexeme.Statements
import Schemata.Proofs.Lexer.Reading
import Schemata.Proofs.Lexer.Script
import Schemata.Proofs.Lexer.Search
import Schemata.Proofs.Lexer.Words
import Schemata.Proofs.Migration.Creatable
import Schemata.Proofs.Migration.References
import Schemata.Proofs.Migration.Shortcut
import Schemata.Proofs.Response
import Schemata.Proofs.Response.Foreign
import Schemata.Proofs.Response.Growing
import Schemata.Proofs.Schema.Correspondence
import Schemata.Proofs.Schema.Edges
import Schemata.Proofs.Schema.Editing
import Schemata.Proofs.Schema.Inferred
import Schemata.Proofs.Schema.Linking
import Schemata.Proofs.Schema.WellFormed
import Schemata.Proofs.Script.Appended
import Schemata.Proofs.Script.ClauseKinds
import Schemata.Proofs.Script.Columns
import Schemata.Proofs.Script.Constraints
import Schemata.Proofs.Script.Defaults
import Schemata.Proofs.Script.Draft
import Schemata.Proofs.Script.Extended
import Schemata.Proofs.Script.KeyClauses
import Schemata.Proofs.Script.KeyPlacement
import Schemata.Proofs.Script.Permuted
import Schemata.Proofs.Script.Prose
import Schemata.Proofs.Script.References
import Schemata.Proofs.Script.Resolution
import Schemata.Proofs.Script.RoundTrip
import Schemata.Proofs.Script.Settled
import Schemata.Proofs.Script.Skipped
import Schemata.Proofs.Script.Statements
import Schemata.Proofs.Script.Tables
import Schemata.Proofs.Script.TypedColumns
import Schemata.Proofs.Separation.Runs
import Schemata.Proofs.Separation.Separated
import Schemata.Proofs.Stability
import Schemata.Proofs.Text.Identifier
import Schemata.Proofs.Validation.Generated
import Schemata.Proofs.Validation.Joined
import Schemata.Proofs.Workspace.Delivery
import Schemata.Proofs.Workspace.Edits
import Schemata.Proofs.Workspace.Run
import Schemata.Proofs.Workspace.Subscriptions
import Schemata.Response
import Schemata.Schema.Basic
import Schemata.Schema.Consistency
import Schemata.Schema.Document
import Schemata.Schema.Edit
import Schemata.Schema.Inference
import Schemata.Script.Column
import Schemata.Script.Draft
import Schemata.Script.Issue
import Schemata.Script.Phrase
import Schemata.Script.Reading
import Schemata.Script.Request
import Schemata.Script.Separation
import Schemata.Script.Statement
import Schemata.Text.Affix
import Schemata.Text.Alphabet
import Schemata.Text.Alphabet.Ranges
import Schemata.Text.Blank
import Schemata.Text.Case
import Schemata.Text.Case.Ranges
import Schemata.Text.Caseless
import Schemata.Text.Decimal
import Schemata.Text.Hexadecimal
import Schemata.Text.Literal
import Schemata.Text.Literal.Ranges
import Schemata.Text.Numeral
import Schemata.Validation
import Schemata.Workspace.Basic
import Schemata.Workspace.Listeners
