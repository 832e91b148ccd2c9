import Mathlib.Data.List.Nodup
import Mathlib.Data.List.Perm.Basic
import Schemata.Schema.Consistency
import Schemata.Schema.Edit

/-!
# Edges of a schema

Every reference of a field is an edge. A schema is consistent exactly when its relationships are
its edges in some order, and no two of its fields stand for the same edge. With different names of
tables and fields the second half holds by itself, so the operations on schemas are followed through
their edges alone.
-/
namespace Schemata

namespace Table

theorem mem_relationships {t : Table} {r : Relationship} :
    r ∈ t.relationships ↔
      ∃ f ∈ t.fields, ∃ ref, f.foreignKey = some ref ∧ ref.relationship t.name f.name = r := by
  simp [relationships]

theorem fromTable_of_mem {t : Table} {r : Relationship} (h : r ∈ t.relationships) :
    r.fromTable = t.name := by
  obtain ⟨f, -, ref, -, rfl⟩ := mem_relationships.mp h
  rfl

@[simp] theorem relationships_nil (name : String) : (⟨name, []⟩ : Table).relationships = [] := rfl

theorem relationships_cons (name : String) (f : Field) (fs : List Field) :
    (⟨name, f :: fs⟩ : Table).relationships =
      (f.foreignKey.map (·.relationship name f.name)).toList ++
        (⟨name, fs⟩ : Table).relationships := by
  simp only [relationships, List.filterMap_cons]
  cases f.foreignKey <;> rfl

/-- The edges of a table leave its fields in order, so different names make different edges. -/
theorem nodup_relationships {t : Table} (h : (t.fields.map (·.name)).Nodup) :
    t.relationships.Nodup := by
  obtain ⟨name, fs⟩ := t
  induction fs with
  | nil => exact List.nodup_nil
  | cons f fs ih =>
    simp only [List.map_cons, List.nodup_cons] at h
    rw [relationships_cons]
    cases hf : f.foreignKey with
    | none => exact ih h.2
    | some ref =>
      refine List.nodup_cons.mpr ⟨?_, ih h.2⟩
      intro hmem
      obtain ⟨g, hg, ref', -, he⟩ := mem_relationships.mp hmem
      have hname : g.name = f.name := congrArg Relationship.fromField he
      exact h.1 (List.mem_map.mpr ⟨g, hg, hname⟩)

end Table

namespace Schema

/-- Tables have different names, and so have the fields of each table. -/
structure DistinctNames (s : Schema) : Prop where
  tables : (s.tables.map (·.name)).Nodup
  fields : ∀ t ∈ s.tables, (t.fields.map (·.name)).Nodup

theorem edges_eq_flatMap (s : Schema) : s.edges = s.tables.flatMap Table.relationships := by
  simp only [edges, fields, List.filterMap_flatMap]
  congr 1
  funext t
  simp [Table.relationships, List.filterMap_map, Function.comp_def, edge?]

theorem mem_edges {s : Schema} {r : Relationship} :
    r ∈ s.edges ↔ ∃ t ∈ s.tables, r ∈ t.relationships := by
  rw [edges_eq_flatMap, List.mem_flatMap]

theorem DistinctNames.nodup_edges {s : Schema} (h : s.DistinctNames) : s.edges.Nodup := by
  rw [edges_eq_flatMap, List.nodup_flatMap]
  refine ⟨fun t ht => Table.nodup_relationships (h.fields t ht), ?_⟩
  have hne : s.tables.Pairwise (fun t u => t.name ≠ u.name) := List.pairwise_map.mp h.tables
  refine hne.imp ?_
  intro t u htu r hr hr'
  exact htu ((Table.fromTable_of_mem hr).symm.trans (Table.fromTable_of_mem hr'))

/-- In a consistent schema the relationships are the edges in some order, each of them once. -/
theorem consistent_iff_perm {s : Schema} :
    s.Consistent ↔ s.relationships.Perm s.edges ∧ s.edges.Nodup := by
  constructor
  · rintro ⟨hr, he⟩
    have hrmem : ∀ r ∈ s.relationships, r ∈ s.edges := fun r h =>
      List.count_pos_iff.mp (by rw [hr r h]; exact Nat.one_pos)
    have hemem : ∀ e ∈ s.edges, e ∈ s.relationships := fun e h =>
      List.count_pos_iff.mp (by rw [he e h]; exact Nat.one_pos)
    have hrn : s.relationships.Nodup :=
      List.nodup_iff_count_eq_one.mpr fun r h => he r (hrmem r h)
    have hen : s.edges.Nodup := List.nodup_iff_count_eq_one.mpr fun e h => hr e (hemem e h)
    exact ⟨(List.perm_ext_iff_of_nodup hrn hen).mpr fun a => ⟨hrmem a, hemem a⟩, hen⟩
  · rintro ⟨hp, hn⟩
    have hone : ∀ e ∈ s.edges, s.edges.count e = 1 := List.nodup_iff_count_eq_one.mp hn
    exact ⟨fun r h => hone r (hp.mem_iff.mp h), fun e h => by rw [hp.count_eq, hone e h]⟩

theorem inconsistencies_eq_nil_iff_perm {s : Schema} :
    s.inconsistencies = [] ↔ s.relationships.Perm s.edges ∧ s.edges.Nodup := by
  rw [inconsistencies_eq_nil_iff, consistent_iff_perm]

theorem DistinctNames.inconsistencies_eq_nil_iff {s : Schema} (h : s.DistinctNames) :
    s.inconsistencies = [] ↔ s.relationships.Perm s.edges := by
  rw [inconsistencies_eq_nil_iff_perm, and_iff_left h.nodup_edges]

/-- The relationship that is looked up for a field is its own edge. -/
theorem DistinctNames.target_relationship? {s : Schema} (h : s.DistinctNames)
    (hs : s.inconsistencies = []) {t : Table} (ht : t ∈ s.tables) {f : Field} (hf : f ∈ t.fields) :
    (s.relationship? t.name f.name).map (·.target) = f.foreignKey := by
  have hperm := h.inconsistencies_eq_nil_iff.mp hs
  have hown : ∀ r ∈ s.relationships, r.fromTable = t.name → r.fromField = f.name →
      f.foreignKey = some r.target := by
    intro r hr htable hfield
    obtain ⟨u, hu, hru⟩ := mem_edges.mp (hperm.mem_iff.mp hr)
    obtain ⟨g, hg, ref, href, rfl⟩ := Table.mem_relationships.mp hru
    obtain rfl := List.inj_on_of_nodup_map h.tables hu ht htable
    obtain rfl := List.inj_on_of_nodup_map (h.fields u hu) hg hf hfield
    exact href
  cases hfound : s.relationship? t.name f.name with
  | some r =>
    have hr := List.find?_some hfound
    simp only [Bool.and_eq_true, decide_eq_true_eq] at hr
    exact (hown r (List.mem_of_find?_eq_some hfound) hr.1 hr.2).symm
  | none =>
    cases hkey : f.foreignKey with
    | none => rfl
    | some ref =>
      have hedge : ref.relationship t.name f.name ∈ s.relationships :=
        hperm.mem_iff.mpr
          (mem_edges.mpr ⟨t, ht, Table.mem_relationships.mpr ⟨f, hf, ref, hkey, rfl⟩⟩)
      have hmiss := List.find?_eq_none.mp hfound _ hedge
      simp [Reference.relationship] at hmiss

end Schema

end Schemata
