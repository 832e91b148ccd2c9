import Schemata.Response
import Schemata.Schema.Inference
import Schemata.Script.Statement

/-!
# Reading a script

Every `CREATE TABLE` statement becomes a table or an issue. When all tables are known, references
are attached to their fields, and unreferenced fields are linked by their names.
-/
namespace Schemata.Script

/-! ## Tables -/

/-- Drops `IF NOT EXISTS`. -/
def dropIfNotExists (us : List Lexeme) : List Lexeme :=
  match us with
  | a :: b :: c :: rest =>
    if a.isWord ["IF"] && b.isWord ["NOT"] && c.isWord ["EXISTS"] then rest else us
  | _ => us

/-- The name and the body of the table that a statement creates. -/
def tableBody (s : Statement) : Except Issue (String × List Lexeme) :=
  let shown := String.ofList ((Lexeme.sourceText s.source s.lexemes).toList.take 120)
  match Phrase.qualifiedName? (dropIfNotExists ((dropModifiers (s.lexemes.drop 1)).drop 1)) with
  | none => .error (.unnamedTable shown)
  | some (name, rest) =>
    match rest with
    | [] => .error (.noColumnList name shown)
    | u :: us =>
      if u.isOpening then
        match Lexeme.closing? us with
        | none => .error (.openColumnList name shown)
        | some (body, _, _) => .ok (name, body)
      else .error (.noColumnList name shown)

/-- The tables read so far and the issues of the statements, in order. -/
structure Progress where
  drafts : List Draft := []
  issues : List Issue := []

/-- Reads one statement; what creates no table is passed over. -/
def Progress.add (p : Progress) (s : Statement) : Progress :=
  if isCreateTable s.lexemes then
    match tableBody s with
    | .error issue => { p with issues := p.issues ++ [issue] }
    | .ok (name, body) =>
      if p.drafts.any (·.name = name) then { p with issues := p.issues ++ [.duplicateTable name] }
      else
        let draft := Draft.ofClauses s.source name (Lexeme.clauses body)
        { drafts := p.drafts ++ [draft], issues := p.issues ++ draft.issues }
  else p

/-! ## References -/

/-- The column that a target stands for among the tables of a script. -/
def resolve? (tables : List Table) (t : Phrase.Target) : Option Reference :=
  match t.column with
  | some column => some ⟨t.table, column⟩
  | none =>
    ((tables.find? (·.name = t.table)).bind (·.primaryKey?)).map fun key => ⟨t.table, key.name⟩

/-- A table with its references attached, their relationships, and the issues of those that are left
open. -/
structure Resolved where
  table : Table
  relationships : List Relationship := []
  issues : List Issue := []

def setReference (t : Table) (field : String) (r : Reference) : Table :=
  { t with
    fields := t.fields.map fun f => if f.name = field then { f with foreignKey := some r } else f }

def Resolved.add (tables : List Table) (resolved : Resolved) (p : Pending) : Resolved :=
  match resolve? tables p.target with
  | some r =>
    { resolved with
      table := setReference resolved.table p.field r
      relationships :=
        resolved.relationships ++ [r.relationship resolved.table.name p.field] }
  | none =>
    { resolved with
      issues := resolved.issues ++
        [.unresolvedReference resolved.table.name p.field p.target.table] }

def Draft.resolved (tables : List Table) (d : Draft) : Resolved :=
  d.pending.foldl (·.add tables) ⟨d.table, [], []⟩

/-! ## Reports -/

/-- A schema with the issues of the script that it was read from. -/
structure Report where
  schema : Schema
  issues : List Issue

/-- The issues that say that structure is lost. -/
def Report.warnings (r : Report) : List Issue := r.issues.filter Issue.isWarning

/-- The schema with the declared references only. -/
def declared (p : Progress) : Report :=
  let resolved := p.drafts.map (·.resolved (p.drafts.map Draft.table))
  { schema :=
      { tables := resolved.map (·.table), relationships := resolved.flatMap (·.relationships) }
    issues := p.issues ++ resolved.flatMap (·.issues) }

/-- Reads a script without prose around it. -/
def readScript (tokenize : Tokenizer) (script : List Char) : Report :=
  let (found, unreadable) := statements tokenize script
  let report := declared (found.foldl Progress.add { issues := unreadable })
  { report with schema := report.schema.infer }

/-- Reads a script, which may be fenced in prose. -/
def read (tokenize : Tokenizer) (text : List Char) : Report :=
  readScript tokenize (Response.script text)

/-- How a reader reacts to issues. -/
inductive Mode where
  | lenient | strict
deriving DecidableEq

def Mode.name : Mode → String
  | .lenient => "lenient"
  | .strict => "strict"

def Mode.ofName? (name : String) : Option Mode := [Mode.lenient, .strict].find? (·.name = name)

/-- The mode that the settings ask for. -/
def Mode.ofSettings (settings : Settings) : Mode := if settings.strict then .strict else .lenient

/-- A strict reading refuses a report with warnings; the refusal lists them. -/
def Report.accept (mode : Mode) (r : Report) : Except (List Issue) Report :=
  if mode = .strict && r.warnings ≠ [] then .error r.warnings else .ok r

/-- The schema of a script, whatever the issues. -/
def readSchema (tokenize : Tokenizer) (script : String) : Schema :=
  (read tokenize script.toList).schema

end Script

/-- The schema of a script in a dialect. -/
def Dialect.readSchema (d : Dialect) (script : String) : Schema :=
  Script.readSchema d.lexemes script

end Schemata
