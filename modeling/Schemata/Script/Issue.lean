/-!
# Issues

What is found in a script that a schema cannot hold. A warning says that structure is lost; a notice
names a clause that a schema does not carry.
-/
namespace Schemata

inductive IssueCode where
  | tokenizeFailed
  | malformedStatement
  | malformedColumn
  | unsupportedConstraint
  | duplicateTable
  | duplicateColumn
  | unresolvedReference
  | conflictingReference
  | internalError
deriving DecidableEq

namespace IssueCode

def all : List IssueCode :=
  [.tokenizeFailed, .malformedStatement, .malformedColumn, .unsupportedConstraint, .duplicateTable,
   .duplicateColumn, .unresolvedReference, .conflictingReference, .internalError]

theorem mem_all (c : IssueCode) : c ∈ all := by cases c <;> simp [all]

def name : IssueCode → String
  | .tokenizeFailed => "TOKENIZE_FAILED"
  | .malformedStatement => "MALFORMED_STATEMENT"
  | .malformedColumn => "MALFORMED_COLUMN"
  | .unsupportedConstraint => "UNSUPPORTED_CONSTRAINT"
  | .duplicateTable => "DUPLICATE_TABLE"
  | .duplicateColumn => "DUPLICATE_COLUMN"
  | .unresolvedReference => "UNRESOLVED_REFERENCE"
  | .conflictingReference => "CONFLICTING_REFERENCE"
  | .internalError => "INTERNAL_ERROR"

def ofName? (name : String) : Option IssueCode := all.find? (·.name = name)

/-- The group that a code belongs to. -/
def group : IssueCode → String
  | .tokenizeFailed => "SYNTAX"
  | .malformedStatement => "SYNTAX"
  | .malformedColumn => "SYNTAX"
  | .unsupportedConstraint => "UNMODELED"
  | .duplicateTable => "CONFLICT"
  | .duplicateColumn => "CONFLICT"
  | .unresolvedReference => "REFERENCE"
  | .conflictingReference => "CONFLICT"
  | .internalError => "INTERNAL"

/-- The group of a name; what names no code counts as internal. -/
def groupOfName (name : String) : String := ((ofName? name).map group).getD "INTERNAL"

end IssueCode

inductive Severity where
  | info | warning
deriving DecidableEq

def Severity.name : Severity → String
  | .info => "info"
  | .warning => "warning"

/-- The kinds of values that are no text. -/
inductive ValueKind where
  | int | float | bool | list | dict
deriving DecidableEq

def ValueKind.name : ValueKind → String
  | .int => "int"
  | .float => "float"
  | .bool => "bool"
  | .list => "list"
  | .dict => "dict"

/-- Why a value that is no text cannot be read. -/
def ValueKind.complaint (kind : ValueKind) : String :=
  "expected string or bytes-like object, got '" ++ kind.name ++ "'"

inductive Issue where
  /-- A part of a script that has no tokens. -/
  | unreadable (excerpt : String)
  | unnamedTable (excerpt : String)
  | noColumnList (table excerpt : String)
  | openColumnList (table excerpt : String)
  /-- A later declaration of a table that has been read. -/
  | duplicateTable (table : String)
  | unreadableColumn (table clause : String)
  | duplicateColumn (table clause column : String)
  | referenceToNothing (table clause : String)
  | referenceToSeveral (table clause target : String) (columns : List String)
  | compositePrimaryKey (table clause : String) (columns : List String)
  | unknownKeyColumn (table clause column : String)
  | foreignKeyToNothing (table clause : String)
  | compositeForeignKey (table clause : String) (columns : List String)
  | unknownForeignColumn (table clause column : String)
  /-- A second reference of one column. -/
  | conflictingReference (table clause column : String)
  | unmodeledConstraint (table clause : String)
  /-- A reference that names no column, to a table without a known primary key. -/
  | unresolvedReference (table column target : String)
  | notText (kind : ValueKind)
deriving DecidableEq

namespace Issue

def code : Issue → IssueCode
  | .unreadable .. => .tokenizeFailed
  | .unnamedTable .. => .malformedStatement
  | .noColumnList .. => .malformedStatement
  | .openColumnList .. => .malformedStatement
  | .duplicateTable .. => .duplicateTable
  | .unreadableColumn .. => .malformedColumn
  | .duplicateColumn .. => .duplicateColumn
  | .referenceToNothing .. => .malformedColumn
  | .referenceToSeveral .. => .unsupportedConstraint
  | .compositePrimaryKey .. => .unsupportedConstraint
  | .unknownKeyColumn .. => .unresolvedReference
  | .foreignKeyToNothing .. => .malformedColumn
  | .compositeForeignKey .. => .unsupportedConstraint
  | .unknownForeignColumn .. => .unresolvedReference
  | .conflictingReference .. => .conflictingReference
  | .unmodeledConstraint .. => .unsupportedConstraint
  | .unresolvedReference .. => .unresolvedReference
  | .notText .. => .internalError

def severity : Issue → Severity
  | .unmodeledConstraint .. => .info
  | _ => .warning

/-- The table that the issue is about. -/
def table? : Issue → Option String
  | .unreadable _ => none
  | .unnamedTable _ => none
  | .noColumnList t _ => some t
  | .openColumnList t _ => some t
  | .duplicateTable t => some t
  | .unreadableColumn t _ => some t
  | .duplicateColumn t _ _ => some t
  | .referenceToNothing t _ => some t
  | .referenceToSeveral t _ _ _ => some t
  | .compositePrimaryKey t _ _ => some t
  | .unknownKeyColumn t _ _ => some t
  | .foreignKeyToNothing t _ => some t
  | .compositeForeignKey t _ _ => some t
  | .unknownForeignColumn t _ _ => some t
  | .conflictingReference t _ _ => some t
  | .unmodeledConstraint t _ => some t
  | .unresolvedReference t _ _ => some t
  | .notText _ => none

/-- The source text that the issue is about. -/
def clause? : Issue → Option String
  | .unreadable excerpt => some excerpt
  | .unnamedTable excerpt => some excerpt
  | .noColumnList _ excerpt => some excerpt
  | .openColumnList _ excerpt => some excerpt
  | .duplicateTable _ => none
  | .unreadableColumn _ clause => some clause
  | .duplicateColumn _ clause _ => some clause
  | .referenceToNothing _ clause => some clause
  | .referenceToSeveral _ clause _ _ => some clause
  | .compositePrimaryKey _ clause _ => some clause
  | .unknownKeyColumn _ clause _ => some clause
  | .foreignKeyToNothing _ clause => some clause
  | .compositeForeignKey _ clause _ => some clause
  | .unknownForeignColumn _ clause _ => some clause
  | .conflictingReference _ clause _ => some clause
  | .unmodeledConstraint _ clause => some clause
  | .unresolvedReference _ _ _ => none
  | .notText _ => none

def message : Issue → String
  | .unreadable _ => "statement could not be tokenized"
  | .unnamedTable _ => "CREATE TABLE without a table name"
  | .noColumnList t _ => "CREATE TABLE " ++ t ++ " has no column list"
  | .openColumnList t _ => "CREATE TABLE " ++ t ++ " column list is not closed"
  | .duplicateTable t =>
    "table " ++ t ++ " is declared more than once; keeping the first declaration"
  | .unreadableColumn _ clause => "cannot read column definition '" ++ clause ++ "'"
  | .duplicateColumn t _ c => "column " ++ t ++ "." ++ c ++ " is declared more than once"
  | .referenceToNothing _ clause => "REFERENCES without a table in '" ++ clause ++ "'"
  | .referenceToSeveral _ _ target columns =>
    "reference to " ++ target ++ "(" ++ ", ".intercalate columns ++ ") is not a single column"
  | .compositePrimaryKey t _ columns =>
    "composite primary key (" ++ ", ".intercalate columns ++ ") on " ++ t ++ " is not modeled"
  | .unknownKeyColumn t _ c => "primary key names unknown column " ++ t ++ "." ++ c
  | .foreignKeyToNothing t _ => "FOREIGN KEY without REFERENCES on " ++ t
  | .compositeForeignKey t _ columns =>
    "composite foreign key (" ++ ", ".intercalate columns ++ ") on " ++ t ++ " is not modeled"
  | .unknownForeignColumn t _ c => "foreign key names unknown column " ++ t ++ "." ++ c
  | .conflictingReference t _ c => t ++ "." ++ c ++ " already has a REFERENCES clause"
  | .unmodeledConstraint t clause => "table constraint on " ++ t ++ " is not modeled: " ++ clause
  | .unresolvedReference t c target =>
    t ++ "." ++ c ++ " references " ++ target ++ " without a column and no primary key is known"
  | .notText kind => "internal parser failure: " ++ kind.complaint

def isWarning (i : Issue) : Bool := i.severity = .warning

/-- What a strict reading says about the issues that it refuses, given their messages. -/
def summary (messages : List String) : String :=
  match messages with
  | [] => "DDL parse failed"
  | first :: _ => toString messages.length ++ " parse issue(s); first: " ++ first

end Issue

end Schemata
