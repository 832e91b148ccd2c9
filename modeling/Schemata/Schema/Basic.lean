/-!
# Relational schemas

Tables with their fields, and the relationships between them, all in declaration order. A foreign
key is kept twice: as the reference of a field and as a relationship of the schema.
-/
namespace Schemata

/-- The column that a foreign key points at. -/
structure Reference where
  table : String
  column : String
deriving DecidableEq, Inhabited

def Reference.text (r : Reference) : String := r.table ++ "(" ++ r.column ++ ")"

/-- One column. The type is the name of a logical type, or any word in a schema edited by hand. -/
structure Field where
  name : String
  type : String := "text"
  nullable : Bool := true
  primaryKey : Bool := false
  foreignKey : Option Reference := none
  defaultValue : Option String := none
deriving DecidableEq, Inhabited

structure Table where
  name : String
  fields : List Field := []
deriving DecidableEq, Inhabited

/-- A foreign key as an edge from one column to another. -/
structure Relationship where
  fromTable : String
  fromField : String
  toTable : String
  toField : String
deriving DecidableEq, Inhabited

def Relationship.text (r : Relationship) : String :=
  r.fromTable ++ "." ++ r.fromField ++ " -> " ++ r.toTable ++ "." ++ r.toField

/-- The end of the edge. -/
def Relationship.target (r : Relationship) : Reference := ⟨r.toTable, r.toField⟩

/-- The edge that a reference of a field stands for. -/
def Reference.relationship (table field : String) (r : Reference) : Relationship :=
  ⟨table, field, r.table, r.column⟩

@[simp] theorem Reference.target_relationship (table field : String) (r : Reference) :
    (r.relationship table field).target = r := rfl

structure Schema where
  tables : List Table := []
  relationships : List Relationship := []
deriving DecidableEq, Inhabited

namespace Table

/-- The first field of a given name. -/
def field? (t : Table) (name : String) : Option Field := t.fields.find? (·.name = name)

/-- The first field that is a primary key. -/
def primaryKey? (t : Table) : Option Field := t.fields.find? (·.primaryKey)

end Table

namespace Schema

/-- The first table of a given name. -/
def table? (s : Schema) (name : String) : Option Table := s.tables.find? (·.name = name)

/-- All fields with their tables, in declaration order. -/
def fields (s : Schema) : List (Table × Field) :=
  s.tables.flatMap fun t => t.fields.map (t, ·)

theorem mem_fields {s : Schema} {t : Table} {f : Field} :
    (t, f) ∈ s.fields ↔ t ∈ s.tables ∧ f ∈ t.fields := by
  simp [fields]

/-- The first relationship that leaves a field. -/
def relationship? (s : Schema) (table field : String) : Option Relationship :=
  s.relationships.find? fun r => r.fromTable = table && r.fromField = field

def fieldCount (s : Schema) : Nat := s.fields.length

end Schema

end Schemata
