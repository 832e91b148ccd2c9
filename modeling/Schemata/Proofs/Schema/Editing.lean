import Schemata.Proofs.Schema.Linking

/-!
# Edits and their edges

Adding a table replaces the edges that leave tables of its name, removing a table drops the edges at
both of its ends. Both edits treat the relationships in the same way, which keeps a schema with
different names consistent.
-/
namespace Schemata

namespace Table

theorem filter_fromTable_of_ne {t : Table} {name : String} (h : t.name ≠ name) :
    t.relationships.filter (·.fromTable ≠ name) = t.relationships := by
  rw [List.filter_eq_self]
  intro r hr
  exact decide_eq_true (fromTable_of_mem hr ▸ h)

theorem filter_fromTable_of_eq {t : Table} {name : String} (h : t.name = name) :
    t.relationships.filter (·.fromTable ≠ name) = [] := by
  rw [List.filter_eq_nil_iff]
  intro r hr
  simp only [ne_eq, decide_not, Bool.not_eq_true', decide_eq_false_iff_not, not_not]
  exact (fromTable_of_mem hr).trans h

/-- The references to a table are dropped with their edges. -/
theorem relationships_withoutReferenceTo (t : Table) (name : String) :
    (⟨t.name, t.fields.map (Field.withoutReferenceTo name)⟩ : Table).relationships =
      t.relationships.filter (·.toTable ≠ name) := by
  obtain ⟨table, fs⟩ := t
  dsimp only
  induction fs with
  | nil => rfl
  | cons f fs ih =>
    rw [List.map_cons, relationships_cons, relationships_cons, List.filter_append, ih]
    congr 1
    cases hf : f.foreignKey with
    | none => simp [Field.withoutReferenceTo, hf]
    | some r =>
      by_cases hr : r.table = name
      · simp [Field.withoutReferenceTo, hf, hr, Reference.relationship]
      · simp [Field.withoutReferenceTo, hf, hr, Reference.relationship]

end Table

namespace Schema

/-! ## Adding -/

theorem mem_putTable {t u : Table} {ts : List Table} (h : u ∈ putTable t ts) : u = t ∨ u ∈ ts := by
  induction ts with
  | nil => exact Or.inl (List.mem_singleton.mp h)
  | cons old rest ih =>
    simp only [putTable] at h
    split at h
    · rcases List.mem_cons.mp h with rfl | h
      · exact Or.inl rfl
      · exact Or.inr (List.mem_cons_of_mem old h)
    · rcases List.mem_cons.mp h with rfl | h
      · exact Or.inr List.mem_cons_self
      · exact (ih h).imp_right (List.mem_cons_of_mem old)

theorem nodup_putTable {t : Table} {ts : List Table} (h : (ts.map (·.name)).Nodup) :
    ((putTable t ts).map (·.name)).Nodup := by
  induction ts with
  | nil => exact List.nodup_singleton _
  | cons old rest ih =>
    simp only [List.map_cons, List.nodup_cons] at h
    simp only [putTable]
    split
    · next he =>
      rw [List.map_cons, ← he]
      exact List.nodup_cons.mpr h
    · next hne =>
      refine List.nodup_cons.mpr ⟨fun hmem => ?_, ih h.2⟩
      obtain ⟨u, hu, hname⟩ := List.mem_map.mp hmem
      rcases mem_putTable hu with rfl | hu
      · exact hne hname.symm
      · exact h.1 (List.mem_map.mpr ⟨u, hu, hname⟩)

theorem DistinctNames.addTable {s : Schema} (h : s.DistinctNames) {t : Table}
    (ht : (t.fields.map (·.name)).Nodup) : (s.addTable t).DistinctNames where
  tables := nodup_putTable h.tables
  fields := by
    intro u hu
    rcases mem_putTable hu with rfl | hu
    · exact ht
    · exact h.fields u hu

theorem relationships_putTable (t : Table) {ts : List Table} (h : (ts.map (·.name)).Nodup) :
    ((putTable t ts).flatMap Table.relationships).Perm
      ((ts.flatMap Table.relationships).filter (·.fromTable ≠ t.name) ++ t.relationships) := by
  induction ts with
  | nil => simp [putTable]
  | cons old rest ih =>
    simp only [List.map_cons, List.nodup_cons] at h
    rw [putTable, List.flatMap_cons, List.filter_append]
    split
    · next he =>
      have hrest : (rest.flatMap Table.relationships).filter (·.fromTable ≠ t.name) =
          rest.flatMap Table.relationships := by
        rw [List.filter_flatMap]
        refine List.flatMap_congr fun u hu => Table.filter_fromTable_of_ne fun hname => ?_
        exact h.1 (List.mem_map.mpr ⟨u, hu, hname.trans he.symm⟩)
      rw [Table.filter_fromTable_of_eq he, hrest, List.nil_append, List.flatMap_cons]
      exact List.perm_append_comm
    · next hne =>
      rw [Table.filter_fromTable_of_ne hne, List.append_assoc, List.flatMap_cons]
      exact (ih h.2).append_left _

theorem inconsistencies_addTable {s : Schema} (h : s.DistinctNames) (hs : s.inconsistencies = [])
    {t : Table} (ht : (t.fields.map (·.name)).Nodup) : (s.addTable t).inconsistencies = [] := by
  rw [(h.addTable ht).inconsistencies_eq_nil_iff, edges_eq_flatMap]
  have hedges := h.inconsistencies_eq_nil_iff.mp hs
  rw [edges_eq_flatMap] at hedges
  exact ((hedges.filter _).append_right _).trans (relationships_putTable t h.tables).symm

/-! ## Removing -/

theorem removeTable?_eq_some {s rest : Schema} {name : String}
    (h : s.removeTable? name = some rest) :
    rest.tables = (s.tables.eraseP (·.name = name)).map (fun t =>
        { t with fields := t.fields.map (Field.withoutReferenceTo name) }) ∧
      rest.relationships =
        s.relationships.filter fun r => r.fromTable ≠ name && r.toTable ≠ name := by
  simp only [removeTable?] at h
  split at h
  · cases h
  · obtain rfl := Option.some.inj h
    exact ⟨rfl, rfl⟩

theorem DistinctNames.removeTable? {s rest : Schema} {name : String} (h : s.DistinctNames)
    (hrest : s.removeTable? name = some rest) : rest.DistinctNames := by
  obtain ⟨htables, -⟩ := removeTable?_eq_some hrest
  have hsub : (s.tables.eraseP (·.name = name)).Sublist s.tables := List.eraseP_sublist
  refine ⟨?_, fun t ht => ?_⟩
  · rw [htables, List.map_map]
    exact h.tables.sublist (hsub.map _)
  · rw [htables] at ht
    obtain ⟨u, hu, rfl⟩ := List.mem_map.mp ht
    have hnames : (u.fields.map (Field.withoutReferenceTo name)).map (·.name) =
        u.fields.map (·.name) := by
      rw [List.map_map]
      refine List.map_congr_left fun f _ => ?_
      simp only [Function.comp_apply, Field.withoutReferenceTo]
      split <;> rfl
    exact hnames ▸ h.fields u (hsub.subset hu)

theorem relationships_eraseP (name : String) {ts : List Table} (h : (ts.map (·.name)).Nodup) :
    (((ts.eraseP (·.name = name)).map fun t =>
        ({ t with fields := t.fields.map (Field.withoutReferenceTo name) } : Table)).flatMap
      Table.relationships) =
      (ts.flatMap Table.relationships).filter fun r => r.fromTable ≠ name && r.toTable ≠ name := by
  have hboth : ∀ rs : List Relationship,
      rs.filter (fun r => r.fromTable ≠ name && r.toTable ≠ name) =
        (rs.filter (·.fromTable ≠ name)).filter (·.toTable ≠ name) := by
    intro rs
    rw [List.filter_filter]
    exact List.filter_congr fun r _ => Bool.and_comm ..
  induction ts with
  | nil => rfl
  | cons t ts ih =>
    simp only [List.map_cons, List.nodup_cons] at h
    rw [List.flatMap_cons, List.filter_append, hboth t.relationships]
    by_cases ht : t.name = name
    · have hrest : ∀ u ∈ ts, u.name ≠ name := fun u hu he =>
        h.1 (List.mem_map.mpr ⟨u, hu, he.trans ht.symm⟩)
      rw [List.eraseP_cons_of_pos (by simpa using ht), Table.filter_fromTable_of_eq ht,
        List.filter_nil, List.nil_append, List.filter_flatMap, List.flatMap_map]
      refine List.flatMap_congr fun u hu => ?_
      rw [Table.relationships_withoutReferenceTo, hboth, Table.filter_fromTable_of_ne (hrest u hu)]
    · rw [List.eraseP_cons_of_neg (by simpa using ht), List.map_cons, List.flatMap_cons, ih h.2,
        Table.filter_fromTable_of_ne ht, Table.relationships_withoutReferenceTo]

theorem inconsistencies_removeTable? {s rest : Schema} {name : String} (h : s.DistinctNames)
    (hs : s.inconsistencies = []) (hrest : s.removeTable? name = some rest) :
    rest.inconsistencies = [] := by
  rw [(h.removeTable? hrest).inconsistencies_eq_nil_iff, edges_eq_flatMap]
  obtain ⟨htables, hrelationships⟩ := removeTable?_eq_some hrest
  have hedges := h.inconsistencies_eq_nil_iff.mp hs
  rw [edges_eq_flatMap] at hedges
  rw [htables, hrelationships, relationships_eraseP name h.tables]
  exact hedges.filter _

end Schema

end Schemata
