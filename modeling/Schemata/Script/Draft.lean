import Schemata.Script.Column
import Schemata.Script.Issue

/-!
# Tables in the making

The clauses of a table body are read one after the other onto a draft: first the columns, then the
table constraints. References are kept aside until all tables are known.
-/
namespace Schemata.Script

open Phrase

/-- A field that refers to another table. -/
structure Pending where
  field : String
  target : Target
deriving DecidableEq

structure Draft where
  name : String
  fields : List Field := []
  pending : List Pending := []
  issues : List Issue := []
deriving DecidableEq

namespace Draft

def table (d : Draft) : Table := ⟨d.name, d.fields⟩

def field? (d : Draft) (name : String) : Option Field := d.table.field? name

def report (d : Draft) (issue : Issue) : Draft := { d with issues := d.issues ++ [issue] }

/-- The issue that a reference is not kept for. -/
def referenceIssue (table clause : String) : ReferenceFault → Issue
  | .noTable => .referenceToNothing table clause
  | .notSingle target columns => .referenceToSeveral table clause target columns

/-- Reads a column definition. -/
def addColumn (source : List Char) (d : Draft) (clause : List Lexeme) : Draft :=
  let text := Lexeme.sourceText source clause
  match clause with
  | first :: second :: rest =>
    if !first.isName then d.report (.unreadableColumn d.name text)
    else
      let name := first.identifier
      if (d.field? name).isSome then d.report (.duplicateColumn d.name text name)
      else
        let traits := columnTraits source 0 {} rest
        { d with
          fields := d.fields ++ [columnField name (typeText second) traits]
          pending := d.pending ++ (traits.target.map (Pending.mk name)).toList
          issues := d.issues ++ traits.faults.map (referenceIssue d.name text) }
  | _ => d.report (.unreadableColumn d.name text)

/-- Makes a field the primary key. -/
def setPrimaryKey (d : Draft) (name : String) : Draft :=
  { d with
    fields := d.fields.map fun f =>
      if f.name = name then { f with primaryKey := true, nullable := false } else f }

/-- Reads what follows `PRIMARY KEY`. -/
def addPrimaryKey (d : Draft) (text : String) (us : List Lexeme) : Draft :=
  match (nameList us).1 with
  | [name] =>
    if (d.field? name).isSome then d.setPrimaryKey name
    else d.report (.unknownKeyColumn d.name text name)
  | names => d.report (.compositePrimaryKey d.name text names)

/-- Keeps a reference of the named columns, which have to be one known column without another
reference. -/
def addTarget (d : Draft) (text : String) (names : List String) (target : Target) : Draft :=
  match names with
  | [name] =>
    if (d.field? name).isNone then d.report (.unknownForeignColumn d.name text name)
    else if d.pending.any (·.field = name) then d.report (.conflictingReference d.name text name)
    else { d with pending := d.pending ++ [⟨name, target⟩] }
  | names => d.report (.compositeForeignKey d.name text names)

/-- Reads what follows `FOREIGN KEY`. -/
def addForeignKey (d : Draft) (text : String) (us : List Lexeme) : Draft :=
  let (names, rest) := nameList us
  match rest with
  | u :: rest =>
    if u.isWord ["REFERENCES"] then
      match (reference rest).1 with
      | .error fault => d.report (referenceIssue d.name text fault)
      | .ok target => d.addTarget text names target
    else d.report (.foreignKeyToNothing d.name text)
  | [] => d.report (.foreignKeyToNothing d.name text)

/-- A constraint without its name. -/
def unnamed : List Lexeme → List Lexeme
  | [] => []
  | u :: us => if u.isWord ["CONSTRAINT"] then us.drop 1 else u :: us

/-- Reads a table constraint. -/
def addConstraint (source : List Char) (d : Draft) (clause : List Lexeme) : Draft :=
  let text := Lexeme.sourceText source clause
  let body := unnamed clause
  if pairIs "PRIMARY" "KEY" body then d.addPrimaryKey text (body.drop 2)
  else if pairIs "FOREIGN" "KEY" body then d.addForeignKey text (body.drop 2)
  else d.report (.unmodeledConstraint d.name text)

end Draft

/-- Whether a lexeme is a known type. -/
def isKnownType (u : Lexeme) : Bool := u.isName && TypeWord.isKnown u.text

/-- Whether a clause is a table constraint. A keyword that may also name a column is one only if no
type follows it. -/
def isTableConstraint : List Lexeme → Bool
  | [] => false
  | first :: rest =>
    if first.isWord ["CONSTRAINT", "EXCLUDE", "FULLTEXT", "SPATIAL"] then true
    else if pairIs "PRIMARY" "KEY" (first :: rest) || pairIs "FOREIGN" "KEY" (first :: rest) then
      true
    else if first.isWord ["UNIQUE", "CHECK"] then !(rest.head?.map isKnownType).getD false
    else if first.isWord ["INDEX", "KEY"] then
      match rest with
      | [] => false
      | second :: rest =>
        second.isOpening || ((rest.head?.map Lexeme.isOpening).getD false && !isKnownType second)
    else false

/-- Reads the clauses of a table body. -/
def Draft.ofClauses (source : List Char) (name : String) (clauses : List (List Lexeme)) : Draft :=
  let columns := clauses.filter (!isTableConstraint ·)
  let constraints := clauses.filter isTableConstraint
  constraints.foldl (·.addConstraint source) (columns.foldl (·.addColumn source) ⟨name, [], [], []⟩)

end Schemata.Script
