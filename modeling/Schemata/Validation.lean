import Schemata.Lexeme.Basic
import Schemata.Script.Separation
import Schemata.Text.Caseless

/-!
# Checking scripts

Every statement is checked against spellings that the dialect does not know. A finding is listed
once, in the order of its first occurrence; warnings leave a script valid. A script without tokens
is warned of as well; what a complete grammar of SQL has to say about the tokens is left out.
-/
namespace Schemata

/-- A rule that statements of a dialect have to keep. -/
inductive Rule where
  | missingColumns
  | postgresqlAutoIncrement
  | postgresqlEngine
  | mysqlSerial
  | mysqlBoolean
  | sqliteAutoIncrement
deriving DecidableEq

namespace Rule

def message : Rule → String
  | .missingColumns => "CREATE TABLE statement missing column definitions"
  | .postgresqlAutoIncrement =>
    "Use SERIAL or GENERATED ALWAYS AS IDENTITY instead of AUTO_INCREMENT in PostgreSQL"
  | .postgresqlEngine => "ENGINE clause is not supported in PostgreSQL"
  | .mysqlSerial => "Use AUTO_INCREMENT instead of SERIAL in MySQL"
  | .mysqlBoolean =>
    "Consider using TINYINT(1) instead of BOOLEAN in MySQL for better compatibility"
  | .sqliteAutoIncrement => "Use AUTOINCREMENT instead of AUTO_INCREMENT in SQLite"

/-- Whether a broken rule makes a script invalid. -/
def isError : Rule → Bool
  | .mysqlBoolean => false
  | _ => true

/-- The rules of a dialect, in the order of their checks. -/
def ofDialect : Dialect → List Rule
  | .postgresql => [.missingColumns, .postgresqlAutoIncrement, .postgresqlEngine]
  | .mysql => [.missingColumns, .mysqlSerial, .mysqlBoolean]
  | .sqlite => [.missingColumns, .sqliteAutoIncrement]

/-- Whether a statement creates a table and has no parenthesis after that. -/
def lacksColumns (statement : List Char) : Bool :=
  match Text.afterKeyword? "create".toList (statement.dropWhile Text.isBlank) with
  | none => false
  | some rest =>
    let later := rest.dropWhile Text.isBlank
    match Text.afterKeyword? "table".toList later with
    | none => false
    | some after =>
      later.length < rest.length && !(after.head?.map Text.isWordChar).getD false && '(' ∉ after

/-- Whether a storage engine is set, in a text after a given character. -/
def setsEngine (before : Option Char) : List Char → Bool
  | [] => false
  | c :: cs =>
    (Text.isWordEdge before (c :: cs) &&
      match Text.afterKeyword? "engine".toList (c :: cs) with
      | some rest => (rest.dropWhile Text.isBlank).head? = some '='
      | none => false) ||
    setsEngine (some c) cs

def hasWord (keywords : List String) (statement : List Char) : Bool :=
  Text.hasWholeWord (keywords.map (·.toList)) none statement

def isBrokenBy (statement : List Char) : Rule → Bool
  | .missingColumns => lacksColumns statement
  | .postgresqlAutoIncrement => hasWord ["auto_increment"] statement
  | .postgresqlEngine => setsEngine none statement
  | .mysqlSerial => hasWord ["bigserial", "serial"] statement
  | .mysqlBoolean => hasWord ["boolean"] statement
  | .sqliteAutoIncrement => hasWord ["auto_increment"] statement

end Rule

/-- The rules that statements break, in order, with repetitions. -/
def brokenRules (d : Dialect) (statements : List (List Char)) : List Rule :=
  statements.flatMap fun s => (Rule.ofDialect d).filter (Rule.isBrokenBy s)

structure Findings where
  errors : List String
  warnings : List String
deriving DecidableEq

def Findings.valid (f : Findings) : Bool := f.errors.isEmpty

/-- The warning that a script has no tokens. That tokens do not parse as SQL makes no warning here,
although it would make one of the same form: the grammar of the parser is not part of this. -/
def lexicalWarning (d : Dialect) (script : List Char) : List String :=
  match d.lexemes script with
  | .ok _ => []
  | .error e =>
    ["sqlglot could not parse the script: " ++ String.ofList (Text.firstLine e.message.toList)]

/-- The findings on a script, without a warning that its tokens do not parse. -/
def validate (d : Dialect) (script : List Char) : Findings :=
  let broken := brokenRules d (Script.separate false script)
  { errors := ((broken.filter Rule.isError).map Rule.message).eraseDups
    warnings :=
      ((broken.filter (!·.isError)).map Rule.message).eraseDups ++ lexicalWarning d script }

end Schemata
