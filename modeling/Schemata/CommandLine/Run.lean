import Schemata.CommandLine.Command
import Schemata.Conversion
import Schemata.Json.Reader
import Schemata.Json.Writer
import Schemata.Migration
import Schemata.Prompt
import Schemata.Schema.Document
import Schemata.Validation

/-!
# Running commands

A command reads its inputs and writes one text, or nothing if it fails. Schemas are written in
printable ASCII, findings and migrations with all their characters. The outcome fixes the exit code:
0 for success, 1 for failure and for an invalid script, 2 for misuse.
-/
namespace Schemata.CommandLine

/-- What a migration is marked with. -/
structure Stamp where
  id : String
  time : String
  date : String

inductive Failure where
  | unreadable (input : String)
  /-- The input is no JSON document. -/
  | noDocument
  /-- The document holds no schema. -/
  | noSchema (faults : List DocumentFault)
  /-- A length in the document has too many digits. -/
  | longLength (length : Text.LongNumber)
  /-- A strict reading has warnings. -/
  | warnings (issues : List Issue)

def Failure.message : Failure → String
  | .unreadable input => "cannot read '" ++ input ++ "'"
  | .noDocument => "the input is not a JSON document"
  | .noSchema faults => "the document is not a schema: " ++ toString faults.length ++ " faults"
  | .longLength length => length.message
  | .warnings issues => Issue.summary (issues.map Issue.message)

structure Result where
  output : String := ""
  /-- Whether the command has nothing to object to. -/
  success : Bool := true
deriving DecidableEq

/-! ## Documents -/

def issueDocument (i : Issue) : Json :=
  .object
    [("code", .string i.code.name), ("severity", .string i.severity.name),
     ("message", .string i.message), ("table", .ofOption .string i.table?)]

def reportDocument (r : Script.Report) : Json :=
  .object [("schema", r.schema.toJson), ("issues", .array (r.issues.map issueDocument))]

def findingsDocument (f : Findings) : Json :=
  .object
    [("valid", .bool f.valid), ("errors", .ofStrings f.errors),
     ("warnings", .ofStrings f.warnings)]

def migrationDocument (stamp : Stamp) (m : Migration) : Json :=
  .object
    [("id", .string ("migration_" ++ stamp.id)), ("name", .string (m.title stamp.date)),
     ("sql", .string m.script), ("checksum", .string m.checksum),
     ("createdAt", .string stamp.time), ("rollbackSql", .ofOption .string m.rollback)]

/-! ## Commands -/

/-- A text with the line break that ends it. -/
def line (text : String) : String := text ++ "\n"

def Inputs.text (i : Inputs) (name : String) : Except Failure (String × Inputs) :=
  match i.read? name with
  | some read => .ok read
  | none => .error (.unreadable name)

def parse (settings : Settings) (dialect : Option String) (strict report : Bool) (text : String) :
    Except Failure Result :=
  let mode := if strict then .strict else Script.Mode.ofSettings settings
  let d := Dialect.forReading settings dialect
  match (Script.read d.lexemes text.toList).accept mode with
  | .error issues => .error (.warnings issues)
  | .ok r =>
    .ok { output := line ((if report then reportDocument r else r.schema.toJson).write .ascii) }

def generate (d : Dialect) (text : String) : Except Failure Result :=
  match Json.read? text with
  | none => .error .noDocument
  | some json =>
    match Document.schema json with
    | .faults faults => .error (.noSchema faults)
    | .ok s =>
      match s.checkedScript d with
      | .error length => .error (.longLength length)
      | .ok script => .ok { output := line script }

def migrate (stamp : Stamp) (name : Option String) (d : Dialect) (previous current : String) :
    Result :=
  match Migration.plan? name d previous current with
  | none => {}
  | some m => { output := line ((migrationDocument stamp m).write .unicode) }

/-- Carries out a command. -/
def Command.run (settings : Settings) (stamp : Stamp) (inputs : Inputs) :
    Command → Except Failure Result
  | .parse input dialect strict report => do
    let (text, _) ← inputs.text input
    CommandLine.parse settings dialect strict report text
  | .generate input dialect => do
    let (text, _) ← inputs.text input
    CommandLine.generate (Dialect.resolve settings dialect) text
  | .convert input source target => do
    let (text, _) ← inputs.text input
    pure { output := line (Schemata.convert (Dialect.resolve settings source)
      (Dialect.resolve settings target) text) }
  | .validate input dialect => do
    let (text, _) ← inputs.text input
    let found := Schemata.validate (Dialect.resolve settings dialect) text.toList
    pure { output := line ((findingsDocument found).write .unicode), success := found.valid }
  | .prompt dialect => pure { output := line (Prompt.text (Dialect.resolve settings dialect)) }
  | .migrate previous current name dialect => do
    let (before, left) ← inputs.text previous
    let (after, _) ← left.text current
    pure (CommandLine.migrate stamp name (Dialect.resolve settings dialect) before after)

/-! ## Outcomes -/

inductive Outcome where
  | usage
  | misuse
  | failed (failure : Failure)
  | finished (result : Result)

namespace Outcome

def usageText : String :=
  line ("usage: schemata [-h] [--verbose] " ++
    "(" ++ " | ".intercalate (CommandForm.all.map (·.name)) ++ ") ...")

def code : Outcome → UInt8
  | .usage => 0
  | .misuse => 2
  | .failed _ => 1
  | .finished result => if result.success then 0 else 1

/-- What is written to the standard output. -/
def output : Outcome → String
  | .usage => usageText
  | .finished result => result.output
  | _ => ""

/-- What is written to the standard error output. -/
def complaint : Outcome → String
  | .misuse => usageText
  | .failed failure => line failure.message
  | _ => ""

end Outcome

/-- Carries out a command line. -/
def run (settings : Settings) (stamp : Stamp) (inputs : Inputs) (arguments : List String) :
    Outcome :=
  match Command.ofLine arguments with
  | .error .usage => .usage
  | .error .misuse => .misuse
  | .ok command =>
    match command.run settings stamp inputs with
    | .error failure => .failed failure
    | .ok result => .finished result

end Schemata.CommandLine
