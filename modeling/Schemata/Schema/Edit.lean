import Schemata.Schema.Basic

/-!
# Editing a schema

Adding a table replaces a table of the same name in its place and rebuilds the relationships that
leave it. Removing a table takes with it every relationship that touches it and every reference to
it.
-/
namespace Schemata

/-- The relationships that the references of a table stand for, in field order. -/
def Table.relationships (t : Table) : List Relationship :=
  t.fields.filterMap fun f => f.foreignKey.map (·.relationship t.name f.name)

/-- A field without its reference, if that points at a given table. -/
def Field.withoutReferenceTo (table : String) (f : Field) : Field :=
  if (f.foreignKey.map (·.table)) = some table then { f with foreignKey := none } else f

namespace Schema

/-- Puts a table in the place of the first one of its name, or at the end. -/
def putTable (t : Table) : List Table → List Table
  | [] => [t]
  | old :: rest => if old.name = t.name then t :: rest else old :: putTable t rest

def addTable (s : Schema) (t : Table) : Schema where
  tables := putTable t s.tables
  relationships := s.relationships.filter (·.fromTable ≠ t.name) ++ t.relationships

/-- The schema without the first table of a given name, if there is one. -/
def removeTable? (s : Schema) (name : String) : Option Schema :=
  if (s.table? name).isNone then none
  else some
    { tables := (s.tables.eraseP (·.name = name)).map fun t =>
        { t with fields := t.fields.map (Field.withoutReferenceTo name) }
      relationships := s.relationships.filter fun r => r.fromTable ≠ name && r.toTable ≠ name }

end Schema

end Schemata
