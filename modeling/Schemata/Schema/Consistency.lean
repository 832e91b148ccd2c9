import Schemata.Schema.Basic

/-!
# Consistency of references and relationships

In a consistent schema every relationship belongs to exactly one field with that reference, and
every field with a reference has exactly one relationship.
-/
namespace Schemata

/-- A relationship or a field that has not exactly one partner. -/
inductive Inconsistency where
  | edge (r : Relationship) (fields : Nat)
  | reference (table field : String) (r : Reference) (edges : Nat)
deriving DecidableEq

def Inconsistency.message : Inconsistency → String
  | .edge r n => "relationship " ++ r.text ++ " matches " ++ toString n ++ " field(s)"
  | .reference table field r n =>
    "field " ++ table ++ "." ++ field ++ " -> " ++ r.text ++ " has " ++ toString n ++
      " relationship(s)"

namespace Schema

/-- The edge that a field of a table stands for, if it has a reference. -/
def edge? (entry : Table × Field) : Option Relationship :=
  entry.2.foreignKey.map (·.relationship entry.1.name entry.2.name)

/-- The edges that the fields stand for, in declaration order. -/
def edges (s : Schema) : List Relationship := s.fields.filterMap edge?

/-- Each relationship that is not the edge of exactly one field, then each field whose edge is not
listed exactly once. -/
def inconsistencies (s : Schema) : List Inconsistency :=
  (s.relationships.filterMap fun r =>
    let n := s.edges.count r
    if n = 1 then none else some (.edge r n)) ++
  s.edges.filterMap fun e =>
    let n := s.relationships.count e
    if n = 1 then none else some (.reference e.fromTable e.fromField e.target n)

/-- Relationships and references correspond one to one. -/
def Consistent (s : Schema) : Prop :=
  (∀ r ∈ s.relationships, s.edges.count r = 1) ∧ ∀ e ∈ s.edges, s.relationships.count e = 1

theorem inconsistencies_eq_nil_iff (s : Schema) : s.inconsistencies = [] ↔ s.Consistent := by
  simp [inconsistencies, Consistent, List.filterMap_eq_nil_iff]

end Schema

end Schemata
