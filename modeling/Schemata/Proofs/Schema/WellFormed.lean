import Schemata.LogicalType
import Schemata.Proofs.Schema.Linking

/-!
# Well-formed schemas

What every script that is read leaves behind, whatever its text: names that tell tables and fields
apart, logical types, keys that are never null, and references that agree with the relationships.
-/
namespace Schemata

namespace Table

/-- What a script declares of a table: different field names, logical types, and keys that are never
null. -/
structure WellFormed (t : Table) : Prop where
  names : (t.fields.map (·.name)).Nodup
  types : ∀ f ∈ t.fields, ∃ l : LogicalType, f.type = l.name
  keys : ∀ f ∈ t.fields, f.primaryKey = true → f.nullable = false

theorem wellFormed_unlinked {t : Table} : t.unlinked.WellFormed ↔ t.WellFormed := by
  have hnames : t.unlinked.fields.map (·.name) = t.fields.map (·.name) := by
    simp only [unlinked_fields, List.map_map, Function.comp_def, Field.unlinked_name]
  constructor
  · intro h
    refine ⟨hnames ▸ h.names, fun f hf => ?_, fun f hf => ?_⟩
    · exact h.types f.unlinked (List.mem_map_of_mem hf)
    · exact h.keys f.unlinked (List.mem_map_of_mem hf)
  · intro h
    refine ⟨hnames ▸ h.names, fun f hf => ?_, fun f hf => ?_⟩ <;>
      obtain ⟨g, hg, rfl⟩ := List.mem_map.mp hf
    · exact h.types g hg
    · exact h.keys g hg

end Table

namespace Schema

structure WellFormed (s : Schema) : Prop where
  tableNames : (s.tables.map (·.name)).Nodup
  tables : ∀ t ∈ s.tables, t.WellFormed
  consistent : s.inconsistencies = []

theorem WellFormed.distinctNames {s : Schema} (h : s.WellFormed) : s.DistinctNames :=
  ⟨h.tableNames, fun t ht => (h.tables t ht).names⟩

/-- Names, types and keys do not depend on the references. -/
theorem tables_wellFormed_of_unlinked {ts us : List Table}
    (h : ts.map Table.unlinked = us.map Table.unlinked) (hu : ∀ u ∈ us, u.WellFormed) :
    ∀ t ∈ ts, t.WellFormed := by
  intro t ht
  have hmem : t.unlinked ∈ us.map Table.unlinked := h ▸ List.mem_map_of_mem ht
  obtain ⟨u, hus, he⟩ := List.mem_map.mp hmem
  exact Table.wellFormed_unlinked.mp (he ▸ Table.wellFormed_unlinked.mpr (hu u hus))

theorem WellFormed.infer {s : Schema} (h : s.WellFormed) : s.infer.WellFormed where
  tableNames := names_eq_of_unlinked s.unlinked_infer ▸ h.tableNames
  tables := tables_wellFormed_of_unlinked s.unlinked_infer h.tables
  consistent := inconsistencies_infer h.consistent

end Schema

end Schemata
