import Schemata.Schema.Basic
import Schemata.Text.Affix

/-!
# Inferred relationships

A field called `user_id` that has no reference is linked to the primary key of the first table whose
name fits the stem `user`. Only a trailing `s` counts as a plural.
-/
namespace Schemata

/-- A table name without one trailing `s`. -/
def singular (name : String) : String :=
  match Text.before? ['s'] name.toList with
  | some stem => String.ofList stem
  | none => name

/-- The name stems that may refer to a table. -/
def nameVariations (name : String) : List String :=
  [name, singular name, name ++ "_id", singular name ++ "_id"]

/-- The stem of a field name that ends in `_id`, unless it is empty. -/
def referenceStem? (field : String) : Option String :=
  match Text.before? ['_', 'i', 'd'] field.toList with
  | some [] => none
  | some stem => some (String.ofList stem)
  | none => none

/-- A table that fields may refer to, with its primary key. -/
structure Candidate where
  table : String
  key : String
deriving DecidableEq

/-- Whether a table name fits the stem of a field name. -/
def Candidate.fits (c : Candidate) (stem : String) : Bool :=
  (nameVariations c.table).any fun v => v = stem || v = stem ++ "s" || v = stem ++ "_id"

namespace Schema

/-- The tables with a primary key, the first one of each name. -/
def candidatesOf : List Table → List Candidate
  | [] => []
  | t :: ts =>
    match t.primaryKey? with
    | none => candidatesOf ts
    | some key => ⟨t.name, key.name⟩ :: (candidatesOf ts).filter (·.table ≠ t.name)

/-- The first candidate that an unreferenced field fits. -/
def candidate? (candidates : List Candidate) (f : Field) : Option Candidate :=
  if f.foreignKey.isSome || f.primaryKey then none
  else (referenceStem? f.name).bind fun stem => candidates.find? (·.fits stem)

/-- The new relationship of a field, unless its table already has one between the same names. -/
def newLink? (candidates : List Candidate) (table : String) (known : List Relationship)
    (f : Field) : Option Relationship :=
  match candidate? candidates f with
  | none => none
  | some c =>
    if known.any fun r => r.fromTable = table && r.fromField = f.name && r.toTable = c.table then
      none
    else some ⟨table, f.name, c.table, c.key⟩

/-- Links the fields of a table in order; the links found so far are known to the later ones. -/
def linkFields (candidates : List Candidate) (table : String) (known : List Relationship) :
    List Field → List Field × List Relationship
  | [] => ([], [])
  | f :: fs =>
    match newLink? candidates table known f with
    | none =>
      let rest := linkFields candidates table known fs
      (f :: rest.1, rest.2)
    | some r =>
      let rest := linkFields candidates table (known ++ [r]) fs
      ({ f with foreignKey := some r.target } :: rest.1, r :: rest.2)

def linkTables (candidates : List Candidate) (known : List Relationship) :
    List Table → List Table × List Relationship
  | [] => ([], [])
  | t :: ts =>
    let linked := linkFields candidates t.name known t.fields
    let rest := linkTables candidates (known ++ linked.2) ts
    ({ t with fields := linked.1 } :: rest.1, linked.2 ++ rest.2)

/-- The inferred relationships, in table and field order. -/
def inferred (s : Schema) : List Relationship :=
  (linkTables (candidatesOf s.tables) s.relationships s.tables).2

/-- The schema with its inferred relationships added. -/
def infer (s : Schema) : Schema where
  tables := (linkTables (candidatesOf s.tables) s.relationships s.tables).1
  relationships := s.relationships ++ s.inferred

end Schema

end Schemata
