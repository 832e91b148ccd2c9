import Mathlib.Data.List.Basic
import Mathlib.Tactic
import Schemata.Definition
import Schemata.Proofs.Schema.WellFormed

/-!
# What a script keeps of a schema

A script leaves out the tables without fields, the defaults and the order of the relationships, and
one family collapses two types. What it keeps is a well-formed schema again, with nothing more to
infer, and unless types collapse it is written as the same scripts.
-/
namespace Schemata

/-- The type that a column of a given type is read back as. One family has no booleans and no
timestamps. -/
def Dialect.storedType : Dialect → String → String
  | .sqlite, "boolean" => "int8"
  | .sqlite, "timestamp" => "text"
  | _, type => type

theorem Dialect.storedType_eq_self {d : Dialect} (h : d ≠ .sqlite) (type : String) :
    d.storedType type = type := by
  cases d with
  | sqlite => exact absurd rfl h
  | _ => rfl

namespace LogicalType

/-- The type that a column is read back as. -/
def stored (l : LogicalType) (d : Dialect) : LogicalType :=
  match l, d with
  | .boolean, .sqlite => .int8
  | .timestamp, .sqlite => .text
  | l, _ => l

theorem storedType_name (l : LogicalType) (d : Dialect) :
    d.storedType l.name = (l.stored d).name := by
  cases l <;> cases d <;> rfl

end LogicalType

namespace Field

def stored (f : Field) (d : Dialect) : Field := { f with type := d.storedType f.type }

/-- What a script keeps of a column. -/
def kept (f : Field) (d : Dialect) : Field := { f.stored d with defaultValue := none }

@[simp] theorem kept_name (f : Field) (d : Dialect) : (f.kept d).name = f.name := rfl

theorem kept_eq_stored {f : Field} (h : f.defaultValue = none) (d : Dialect) :
    f.kept d = f.stored d := by
  rw [kept, ← h]
  rfl

end Field

namespace Table

def stored (t : Table) (d : Dialect) : Table := { t with fields := t.fields.map (·.stored d) }

def kept (t : Table) (d : Dialect) : Table := { t with fields := t.fields.map (·.kept d) }

theorem stored_eq_self {d : Dialect} (h : d ≠ .sqlite) (t : Table) : t.stored d = t := by
  have hfields : t.fields.map (·.stored d) = t.fields := by
    refine (List.map_congr_left fun f _ => ?_).trans (List.map_id _)
    rw [Field.stored, Dialect.storedType_eq_self h]
    rfl
  rw [stored, hfields]

@[simp] theorem kept_name (t : Table) (d : Dialect) : (t.kept d).name = t.name := rfl

@[simp] theorem kept_fields (t : Table) (d : Dialect) :
    (t.kept d).fields = t.fields.map (·.kept d) := rfl

theorem kept_eq_stored {t : Table} (h : ∀ f ∈ t.fields, f.defaultValue = none) (d : Dialect) :
    t.kept d = t.stored d := by
  have hfields : t.fields.map (·.kept d) = t.fields.map (·.stored d) :=
    List.map_congr_left fun f hf => Field.kept_eq_stored (h f hf) d
  rw [kept, hfields, stored]

@[simp] theorem relationships_kept (t : Table) (d : Dialect) :
    (t.kept d).relationships = t.relationships := by
  simp only [relationships, kept_fields, List.filterMap_map]
  rfl

theorem primaryKey?_kept (t : Table) (d : Dialect) :
    (t.kept d).primaryKey?.map (·.name) = t.primaryKey?.map (·.name) := by
  rw [primaryKey?, kept_fields, List.find?_map, Option.map_map]
  rfl

end Table

theorem Table.WellFormed.kept {t : Table} (h : t.WellFormed) (d : Dialect) :
    (t.kept d).WellFormed := by
  refine ⟨?_, fun f hf => ?_, fun f hf => ?_⟩
  · rw [Table.kept_fields, List.map_map]
    exact h.names
  · obtain ⟨g, hg, rfl⟩ := List.mem_map.mp hf
    obtain ⟨l, hl⟩ := h.types g hg
    exact ⟨l.stored d, (congrArg d.storedType hl).trans (l.storedType_name d)⟩
  · obtain ⟨g, hg, rfl⟩ := List.mem_map.mp hf
    exact h.keys g hg

namespace Schema

/-- What a script keeps of a schema. -/
def kept (s : Schema) (d : Dialect) : Schema where
  tables := s.creatable.map (·.kept d)
  relationships := s.edges

theorem edges_creatable (s : Schema) : s.creatable.flatMap Table.relationships = s.edges := by
  rw [edges_eq_flatMap, creatable]
  induction s.tables with
  | nil => rfl
  | cons t ts ih =>
    by_cases ht : t.fields = []
    · have hnone : t.relationships = [] := by rw [Table.relationships, ht, List.filterMap_nil]
      rw [List.filter_cons_of_neg (by simpa using ht), List.flatMap_cons, hnone, List.nil_append,
        ih]
    · rw [List.filter_cons_of_pos (by simpa using ht), List.flatMap_cons, List.flatMap_cons, ih]

theorem edges_kept (s : Schema) (d : Dialect) : (s.kept d).edges = s.edges := by
  rw [edges_eq_flatMap, kept, List.flatMap_map]
  simp only [Table.relationships_kept, edges_creatable]

theorem WellFormed.kept {s : Schema} (h : s.WellFormed) (d : Dialect) : (s.kept d).WellFormed := by
  have hnames : ((s.kept d).tables.map (·.name)).Nodup := by
    rw [Schema.kept, List.map_map]
    exact (List.filter_sublist.map _).nodup h.tableNames
  have htables : ∀ t ∈ (s.kept d).tables, t.WellFormed := by
    intro t ht
    obtain ⟨u, hu, rfl⟩ := List.mem_map.mp ht
    exact (h.tables u (List.mem_of_mem_filter hu)).kept d
  have hdistinct : (s.kept d).DistinctNames := ⟨hnames, fun t ht => (htables t ht).names⟩
  refine ⟨hnames, htables, hdistinct.inconsistencies_eq_nil_iff.mpr ?_⟩
  rw [edges_kept]
  exact List.Perm.refl _

theorem candidatesOf_kept (s : Schema) (d : Dialect) :
    candidatesOf (s.kept d).tables = candidatesOf s.tables := by
  have hkept : candidatesOf (s.creatable.map (·.kept d)) = candidatesOf s.creatable :=
    candidatesOf_map (·.kept_name d) (·.primaryKey?_kept d) _
  refine hkept.trans (candidatesOf_filter fun t _ ht => ?_)
  have hfields : t.fields = [] := by simpa using ht
  rw [Table.primaryKey?, hfields, List.find?_nil]

/-- If nothing can be inferred from a schema, nothing can be inferred from what is kept of it. -/
theorem inferred_kept {s : Schema} (h : s.WellFormed) (hs : s.inferred = []) (d : Dialect) :
    (s.kept d).inferred = [] := by
  rw [inferred_eq_nil_iff] at hs ⊢
  rw [candidatesOf_kept]
  intro t ht f hf
  obtain ⟨u, hu, rfl⟩ := List.mem_map.mp ht
  obtain ⟨g, hg, rfl⟩ := List.mem_map.mp hf
  have hnone := hs u (List.mem_of_mem_filter hu) g hg
  have hsub : s.relationships ⊆ s.edges :=
    (h.distinctNames.inconsistencies_eq_nil_iff.mp h.consistent).subset
  exact newLink?_eq_none_of_subset hnone hsub

/-! ## Scripts of what is kept -/

theorem tableDefinition_eq (s : Schema) (d : Dialect) (t : Table) :
    s.tableDefinition d t = "CREATE TABLE IF NOT EXISTS " ++ t.name ++ " (\n" ++
      ",\n".intercalate (t.fields.map (s.columnLine d t.name)) ++ "\n);" := rfl

/-- A column definition depends on what its relationship points at only. -/
theorem definition_congr (sp : Spelling) {f : Field} {link link' : Option Relationship}
    (h : link.map (·.target) = link'.map (·.target)) :
    f.definition sp link = f.definition sp link' := by
  have hkey : ∀ l : Option Relationship, l.map (fun r => sp.foreignKey r.toTable r.toField) =
      (l.map (·.target)).map fun r => sp.foreignKey r.table r.column := by
    intro l
    rw [Option.map_map]
    rfl
  rw [Field.definition, Field.definition, Field.definitionParts, Field.definitionParts, hkey, h,
    hkey]

section Scripts

variable {s : Schema} {t : Table} {f : Field} {b : Dialect}

/-- A column that was read back is written with the type that was read, and with the reference that
it had. -/
theorem columnLine_kept (h : s.WellFormed) (ht : t ∈ s.creatable) (hf : f ∈ t.fields)
    (c : Dialect) :
    (s.kept b).columnLine c t.name (f.kept b) = s.columnLine c t.name (f.stored b) := by
  have hold := h.distinctNames.target_relationship? h.consistent (List.mem_of_mem_filter ht) hf
  have hnew := (h.kept b).distinctNames.target_relationship? (h.kept b).consistent
    (List.mem_map_of_mem ht) (List.mem_map_of_mem hf)
  rw [columnLine, columnLine, columnDefinition, columnDefinition]
  exact congrArg _ (definition_congr c.spelling (f := f.stored b) (hnew.trans hold.symm))

theorem tableDefinition_kept (h : s.WellFormed) (ht : t ∈ s.creatable) (c : Dialect) :
    (s.kept b).tableDefinition c (t.kept b) = s.tableDefinition c (t.stored b) := by
  have hlines : (t.fields.map (·.kept b)).map ((s.kept b).columnLine c t.name) =
      (t.fields.map (·.stored b)).map (s.columnLine c t.name) := by
    rw [List.map_map, List.map_map]
    exact List.map_congr_left fun f hf => columnLine_kept h ht hf c
  rw [tableDefinition_eq, tableDefinition_eq, Table.kept_fields, Table.kept_name, hlines]
  rfl

/-- What is kept is written table by table, with the types that were read. -/
theorem script_kept_eq (h : s.WellFormed) (b c : Dialect) :
    (s.kept b).script c =
      "\n\n".intercalate (s.creatable.map fun t => s.tableDefinition c (t.stored b)) := by
  have hcreatable : (s.kept b).creatable = s.creatable.map (·.kept b) := by
    refine List.filter_eq_self.mpr fun t ht => ?_
    obtain ⟨u, hu, rfl⟩ := List.mem_map.mp ht
    simpa using of_decide_eq_true (List.mem_filter.mp hu).2
  rw [script, hcreatable, List.map_map]
  exact congrArg _ (List.map_congr_left fun t ht => tableDefinition_kept h ht c)

/-- Where no types collapse, what is kept is written as the schema itself is. -/
theorem script_kept (h : s.WellFormed) (hb : b ≠ .sqlite) (c : Dialect) :
    (s.kept b).script c = s.script c := by
  rw [script_kept_eq h, script]
  simp only [Table.stored_eq_self hb]

end Scripts

end Schema

end Schemata
