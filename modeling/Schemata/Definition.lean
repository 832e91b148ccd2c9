import Schemata.Dialect.Spelling
import Schemata.Schema.Basic

/-!
# Writing table definitions

A schema is written as one `CREATE TABLE` statement for each table, in order. The reference of a
column is taken from the relationships of the schema. A type whose length has too many digits stands
against the whole script.
-/
namespace Schemata

/-- The types that number their rows when they are the primary key. -/
def autoIncrementTypes : List String := ["int8", "integer", "serial"]

namespace Field

/-- The type of a column, together with its key if it is the primary key. -/
def typeDefinition (f : Field) (s : Spelling) : String :=
  if f.primaryKey then
    if Text.lowerCase f.type ∈ autoIncrementTypes then s.autoIncrement
    else s.typeWord f.type none ++ " " ++ s.primaryKey
  else s.typeWord f.type none

/-- The parts of a column definition: name, type, `NOT NULL` and reference. -/
def definitionParts (f : Field) (s : Spelling) (link : Option Relationship) : List String :=
  [f.name, f.typeDefinition s] ++
    (if !f.nullable && !f.primaryKey then [s.notNull] else []) ++
    (link.map fun r => s.foreignKey r.toTable r.toField).toList

/-- A column definition without indentation. -/
def definition (f : Field) (s : Spelling) (link : Option Relationship) : String :=
  " ".intercalate (f.definitionParts s link)

/-- The length of the type that has too many digits. -/
def longLength? (f : Field) : Option Text.LongNumber := Spelling.longLength? f.type

end Field

/-- The first length of a column type that has too many digits. -/
def Table.longLength? (t : Table) : Option Text.LongNumber := t.fields.findSome? (·.longLength?)

namespace Schema

/-- The definition of a column in a schema. -/
def columnDefinition (schema : Schema) (d : Dialect) (table : String) (f : Field) : String :=
  f.definition d.spelling (schema.relationship? table f.name)

/-- A column definition as a line of its table. -/
def columnLine (schema : Schema) (d : Dialect) (table : String) (f : Field) : String :=
  "    " ++ schema.columnDefinition d table f

def tableDefinition (schema : Schema) (d : Dialect) (t : Table) : String :=
  "CREATE TABLE IF NOT EXISTS " ++ t.name ++ " (\n" ++
    ",\n".intercalate (t.fields.map (schema.columnLine d t.name)) ++ "\n);"

/-- The tables that can be created: those with fields. -/
def creatable (schema : Schema) : List Table := schema.tables.filter (·.fields ≠ [])

/-- The script that creates a schema. -/
def script (schema : Schema) (d : Dialect) : String :=
  "\n\n".intercalate (schema.creatable.map (schema.tableDefinition d))

/-- The first length of a column type that has too many digits. -/
def longLength? (schema : Schema) : Option Text.LongNumber :=
  schema.tables.findSome? (·.longLength?)

/-- The script that creates a schema, unless a length has too many digits. -/
def checkedScript (schema : Schema) (d : Dialect) : Except Text.LongNumber String :=
  Text.LongNumber.refuse schema.longLength? (schema.script d)

end Schema

end Schemata
