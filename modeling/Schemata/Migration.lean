import Schemata.Definition
import Schemata.Digest.Sha256
import Schemata.Script.Reading

/-!
# Migrations

The changes that turn one schema into another: columns are added before others are dropped, tables
are created in order and dropped in reverse order. Changed definitions of columns are not compared.
-/
namespace Schemata

inductive Change where
  | createTable (table : Table)
  | addColumn (table : String) (field : Field)
  | dropColumn (table column : String)
  | dropTable (table : String)
deriving DecidableEq

namespace Change

/-- The statement that makes a change on the way to a schema. -/
def statement (target : Schema) (d : Dialect) : Change → String
  | .createTable t => target.tableDefinition d t
  | .addColumn t f =>
    "ALTER TABLE " ++ t ++ " ADD COLUMN " ++ Text.trimmed (target.columnLine d t f) ++ ";"
  | .dropColumn t c => "ALTER TABLE " ++ t ++ " DROP COLUMN " ++ c ++ ";"
  | .dropTable t => "DROP TABLE IF EXISTS " ++ t ++ ";"

/-- The first length of a type in the statement that has too many digits. -/
def longLength? : Change → Option Text.LongNumber
  | .createTable t => t.longLength?
  | .addColumn _ f => f.longLength?
  | .dropColumn .. => none
  | .dropTable _ => none

/-- The columns to add and those to drop so that one version of a table becomes the other. -/
def ofTable (previous current : Table) : List Change :=
  (current.fields.filter fun f => (previous.field? f.name).isNone).map (.addColumn current.name) ++
  (previous.fields.filter fun f => (current.field? f.name).isNone).map
    (.dropColumn current.name ·.name)

/-- The changes that a table of the new schema asks for. Without fields it cannot be created. -/
def toTable (previous : Schema) (t : Table) : List Change :=
  match previous.table? t.name with
  | some old => ofTable old t
  | none => if t.fields = [] then [] else [.createTable t]

/-- The changes that turn one schema into another. -/
def between (previous current : Schema) : List Change :=
  current.tables.flatMap (toTable previous) ++
  (previous.tables.reverse.filter fun t => (current.table? t.name).isNone).map (.dropTable ·.name)

end Change

/-- The statements that turn one schema into another. -/
def Schema.statementsFrom (previous current : Schema) (d : Dialect) : List String :=
  (Change.between previous current).map (Change.statement current d)

/-- The statements that turn one schema into another, unless a length has too many digits. -/
def Schema.checkedStatementsFrom (previous current : Schema) (d : Dialect) :
    Except Text.LongNumber (List String) :=
  Text.LongNumber.refuse ((Change.between previous current).findSome? (·.longLength?))
    (previous.statementsFrom current d)

/-- A script that changes a schema, with the script that changes it back. -/
structure Migration where
  /-- The name that was asked for; without one a migration is named after its date. -/
  name : Option String
  script : String
  checksum : String
  rollback : Option String
deriving DecidableEq

namespace Migration

/-- The name of a migration that is planned on a given date. -/
def title (m : Migration) (date : String) : String := m.name.getD ("Schema_Update_" ++ date)

/-- The migration between two schemas, if they differ in tables or columns. -/
def ofSchemas? (name : Option String) (d : Dialect) (previous current : Schema) :
    Option Migration :=
  match previous.statementsFrom current d with
  | [] => none
  | forward =>
    let script := "\n".intercalate forward
    let back := "\n".intercalate (current.statementsFrom previous d)
    some
      { name := if name = some "" then none else name
        script := script
        checksum := Sha256.ofText script
        rollback := if back = "" then none else some back }

/-- The migration between two scripts. Scripts that differ in surrounding blanks only are equal. -/
def plan? (name : Option String) (d : Dialect) (previous current : String) : Option Migration :=
  if Text.trimmed previous = Text.trimmed current then none
  else ofSchemas? name d (d.readSchema previous) (d.readSchema current)

end Migration

end Schemata
