import Schemata.Json.Basic
import Schemata.Script.Reading
import Schemata.Text.Literal

/-!
# Requests to read a script

A request names a dialect and a mode, or leaves them to the settings. Its script may be any value:
empty values count as an empty script, other values that are no text cannot be read.
-/
namespace Schemata.Script

/-- The script that a value stands for. -/
def textOf : Json → Except ValueKind (List Char)
  | .null => .ok []
  | .bool b => if b then .error .bool else .ok []
  | .integer n => if n = 0 then .ok [] else .error .int
  | .decimal _ digits _ => if digits = 0 then .ok [] else .error .float
  | .nonFinite => .error .float
  | .string s => .ok s.toList
  | .brokenString => .ok []
  | .array items => if items.isEmpty then .ok [] else .error .list
  | .object members => if members.isEmpty then .ok [] else .error .dict

structure Request where
  dialect : Option String := none
  mode : Option String := none
  script : Json

/-- Why a request has no report. -/
inductive Refusal where
  | unknownMode (name : String)
  | notText (kind : ValueKind)
  /-- The warnings of a strict reading. -/
  | warnings (issues : List Issue)

def Refusal.message : Refusal → String
  | .unknownMode name => Text.literal name ++ " is not a valid ParseMode"
  | .notText kind => kind.complaint
  | .warnings issues => Issue.summary (issues.map Issue.message)

/-- A report with the dialect and the mode that it was made in. -/
structure Answer where
  dialect : Dialect
  mode : Mode
  report : Report

namespace Request

def dialectIn (r : Request) (settings : Settings) : Dialect :=
  Dialect.forReading settings r.dialect

def modeIn (r : Request) (settings : Settings) : Except Refusal Mode :=
  match r.mode with
  | none => .ok (Mode.ofSettings settings)
  | some name =>
    match Mode.ofName? name with
    | some mode => .ok mode
    | none => .error (.unknownMode name)

/-- The report on a script; a lenient reading reports even that there is no text. -/
def reportIn (r : Request) (d : Dialect) (mode : Mode) : Except Refusal Report :=
  match textOf r.script with
  | .ok text =>
    match (read d.lexemes text).accept mode with
    | .ok report => .ok report
    | .error issues => .error (.warnings issues)
  | .error kind =>
    match mode with
    | .strict => .error (.notText kind)
    | .lenient => .ok ⟨{}, [.notText kind]⟩

def answer (r : Request) (settings : Settings) : Except Refusal Answer := do
  let mode ← r.modeIn settings
  let d := r.dialectIn settings
  let report ← r.reportIn d mode
  pure ⟨d, mode, report⟩

end Request

end Schemata.Script
