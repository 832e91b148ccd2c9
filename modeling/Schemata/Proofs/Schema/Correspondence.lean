import Mathlib.Data.List.NodupEquivFin
import Mathlib.Tactic
import Schemata.Definition
import Schemata.Proofs.Schema.Edges

/-!
# References and relationships, place by place

A schema without inconsistencies pairs the places of its references with the places of its
relationships, whatever names are repeated: each reference has its own relationship, and nothing
else stands for the same edge on either side. With different names this is what makes the two ways
of keeping a foreign key agree, the one that is written and the one that is edited.
-/
namespace Schemata

namespace Schema

/-- A place of a field with a reference, among all fields in declaration order. -/
abbrev ReferencePlace (s : Schema) : Type :=
  { i : Fin s.fields.length // (s.fields.get i).2.foreignKey.isSome = true }

/-- The edge of the field at a place. -/
def ReferencePlace.edge {s : Schema} (p : s.ReferencePlace) : Relationship :=
  ((s.fields.get p.1).2.foreignKey.get p.2).relationship
    (s.fields.get p.1).1.name (s.fields.get p.1).2.name

variable {s : Schema}

theorem ReferencePlace.edge?_eq_some (p : s.ReferencePlace) :
    edge? (s.fields.get p.1) = some p.edge := by
  rw [edge?, Option.map_eq_some_iff]
  exact ⟨_, Option.eq_some_of_isSome p.2, rfl⟩

theorem exists_place {i : Fin s.fields.length} {r : Relationship}
    (h : edge? (s.fields.get i) = some r) : ∃ p : s.ReferencePlace, p.1 = i ∧ p.edge = r := by
  have hsome : (s.fields.get i).2.foreignKey.isSome = true := by
    rw [← Option.isSome_map, ← edge?, h]
    rfl
  refine ⟨⟨i, hsome⟩, rfl, ?_⟩
  exact Option.some.inj ((ReferencePlace.edge?_eq_some ⟨i, hsome⟩).symm.trans h)

theorem mem_edges_iff_exists_place {r : Relationship} :
    r ∈ s.edges ↔ ∃ p : s.ReferencePlace, p.edge = r := by
  rw [edges, List.mem_filterMap]
  constructor
  · rintro ⟨entry, hentry, hr⟩
    obtain ⟨i, rfl⟩ := List.mem_iff_get.mp hentry
    obtain ⟨p, -, hp⟩ := exists_place hr
    exact ⟨p, hp⟩
  · rintro ⟨p, rfl⟩
    exact ⟨_, List.get_mem _ _, p.edge?_eq_some⟩

/-- No edge is repeated exactly if no two places have the same one. -/
theorem nodup_edges_iff_injective :
    s.edges.Nodup ↔ Function.Injective (ReferencePlace.edge (s := s)) := by
  rw [edges, List.Nodup, List.pairwise_filterMap, List.pairwise_iff_get]
  constructor
  · intro h p q hpq
    by_contra hne
    rcases lt_or_gt_of_ne (fun he => hne (Subtype.ext he)) with hlt | hlt
    · exact h p.1 q.1 hlt _ p.edge?_eq_some _ q.edge?_eq_some hpq
    · exact h q.1 p.1 hlt _ q.edge?_eq_some _ p.edge?_eq_some hpq.symm
  · rintro h i j hlt r hr r' hr' rfl
    obtain ⟨p, rfl, hp⟩ := exists_place hr
    obtain ⟨q, rfl, hq⟩ := exists_place hr'
    exact hlt.ne (congrArg Subtype.val (h (hp.trans hq.symm)))

/-! ## Pairings -/

/-- Edges that are listed once each are found at one place of the list. -/
theorem exists_equiv_of_perm (hperm : s.relationships.Perm s.edges) (hnodup : s.edges.Nodup) :
    ∃ e : s.ReferencePlace ≃ Fin s.relationships.length,
      ∀ p, s.relationships.get (e p) = p.edge := by
  have hlisted : s.relationships.Nodup := hperm.nodup_iff.mpr hnodup
  have hmem (r : Relationship) :
      r ∈ Set.range (ReferencePlace.edge (s := s)) ↔ r ∈ s.relationships := by
    rw [hperm.mem_iff, mem_edges_iff_exists_place, Set.mem_range]
  let found : { r // r ∈ s.relationships } ≃ Fin s.relationships.length :=
    (hlisted.getEquiv s.relationships).symm
  refine ⟨((Equiv.ofInjective _ (nodup_edges_iff_injective.mp hnodup)).trans
    (Equiv.subtypeEquivRight hmem)).trans found, fun p => ?_⟩
  exact congrArg Subtype.val (found.symm_apply_apply ⟨p.edge, (hmem p.edge).mp ⟨p, rfl⟩⟩)

/-- The pairing alone would allow for equal edges on both sides: that there is no second place for
an edge is what makes each count one. -/
theorem consistent_of_equiv (e : s.ReferencePlace ≃ Fin s.relationships.length)
    (hedge : ∀ p, s.relationships.get (e p) = p.edge)
    (hfield : ∀ p q : s.ReferencePlace, q.edge = p.edge → q = p)
    (hlisted : ∀ p i, s.relationships.get i = p.edge → i = e p) : s.Consistent := by
  have hedges : s.edges.Nodup := nodup_edges_iff_injective.mpr fun p q h => hfield q p h
  have hrelationships : s.relationships.Nodup := by
    rw [List.nodup_iff_injective_get]
    intro i j hij
    obtain ⟨p, rfl⟩ := e.surjective i
    exact (hlisted p j (hij.symm.trans (hedge p))).symm
  have hmem (r : Relationship) : r ∈ s.relationships ↔ r ∈ s.edges := by
    rw [List.mem_iff_get, mem_edges_iff_exists_place, e.symm.exists_congr_left]
    simp only [Equiv.symm_symm, hedge]
  exact consistent_iff_perm.mpr
    ⟨(List.perm_ext_iff_of_nodup hrelationships hedges).mpr hmem, hedges⟩

theorem length_edges (s : Schema) :
    s.edges.length = s.fields.countP (·.2.foreignKey.isSome) := by
  rw [edges, List.length_filterMap_eq_countP]
  exact List.countP_congr fun entry _ => by rw [edge?, Option.isSome_map]

/-! ## Different names -/

/-- The relationship that is looked up for a field is the edge of its own reference. -/
theorem DistinctNames.relationship?_eq (h : s.DistinctNames) (hs : s.inconsistencies = [])
    {t : Table} (ht : t ∈ s.tables) {f : Field} (hf : f ∈ t.fields) :
    s.relationship? t.name f.name = f.foreignKey.map (·.relationship t.name f.name) := by
  rw [← h.target_relationship? hs ht hf]
  cases hfound : s.relationship? t.name f.name with
  | none => rfl
  | some r =>
    have hr := List.find?_some hfound
    simp only [Bool.and_eq_true, decide_eq_true_eq] at hr
    simp [Reference.relationship, Relationship.target, ← hr.1, ← hr.2]

/-- A column is written with the reference that the field has. -/
theorem DistinctNames.columnLine_eq (h : s.DistinctNames) (hs : s.inconsistencies = [])
    {t : Table} (ht : t ∈ s.tables) {f : Field} (hf : f ∈ t.fields) (d : Dialect) :
    s.columnLine d t.name f = "    " ++ " ".intercalate (f.definitionParts d.spelling none ++
      (f.foreignKey.map fun r => d.spelling.foreignKey r.table r.column).toList) := by
  rw [columnLine, columnDefinition, h.relationship?_eq hs ht hf, Field.definition,
    Field.definitionParts, Field.definitionParts, Option.map_map, Option.map_none,
    Option.toList_none, List.append_nil]
  rfl

/-- A schema has no inconsistencies exactly if the places of its references and the places of its
relationships belong together one to one, and there is no second place for an edge on either side.
Then there are as many references as relationships, none of them listed twice. With different names
the relationship that is looked up for a field is there exactly if the field has a reference, it is
the edge of this reference, and this reference is written with the column. -/
theorem inconsistencies_eq_nil_iff_exists_equiv (s : Schema) :
    (s.inconsistencies = [] ↔
        ∃ e : s.ReferencePlace ≃ Fin s.relationships.length, ∀ p : s.ReferencePlace,
          s.relationships.get (e p) = p.edge ∧
            (∀ q : s.ReferencePlace, q.edge = p.edge → q = p) ∧
            ∀ i, s.relationships.get i = p.edge → i = e p) ∧
      (s.inconsistencies = [] →
        s.fields.countP (·.2.foreignKey.isSome) = s.relationships.length ∧
          s.relationships.Nodup ∧
          (s.DistinctNames → ∀ t ∈ s.tables, ∀ f ∈ t.fields,
            s.relationship? t.name f.name = f.foreignKey.map (·.relationship t.name f.name) ∧
              ∀ d, s.columnLine d t.name f = "    " ++ " ".intercalate
                (f.definitionParts d.spelling none ++
                  (f.foreignKey.map fun r => d.spelling.foreignKey r.table r.column).toList))) := by
  constructor
  · constructor
    · intro hs
      obtain ⟨hperm, hnodup⟩ := inconsistencies_eq_nil_iff_perm.mp hs
      obtain ⟨e, he⟩ := exists_equiv_of_perm hperm hnodup
      have hinjective := nodup_edges_iff_injective.mp hnodup
      have hlisted := List.nodup_iff_injective_get.mp (hperm.nodup_iff.mpr hnodup)
      refine ⟨e, fun p => ⟨he p, fun q hq => hinjective hq, fun i hi => ?_⟩⟩
      exact hlisted (hi.trans (he p).symm)
    · rintro ⟨e, he⟩
      exact (inconsistencies_eq_nil_iff s).mpr (consistent_of_equiv e (fun p => (he p).1)
        (fun p => (he p).2.1) (fun p => (he p).2.2))
  · intro hs
    obtain ⟨hperm, hnodup⟩ := inconsistencies_eq_nil_iff_perm.mp hs
    refine ⟨?_, hperm.nodup_iff.mpr hnodup, fun h t ht f hf => ?_⟩
    · rw [← length_edges, hperm.length_eq]
    · exact ⟨h.relationship?_eq hs ht hf, h.columnLine_eq hs ht hf⟩

/-- One table is referred to by itself and, from two fields, by another one. -/
theorem inconsistencies_eq_nil_iff_exists_equiv_blog :
    let users : Table :=
      ⟨"users", [{ name := "id", type := "int8", nullable := false, primaryKey := true },
        { name := "parent_id", type := "int8", foreignKey := some ⟨"users", "id"⟩ }]⟩
    let posts : Table :=
      ⟨"posts", [{ name := "author_id", type := "int8", foreignKey := some ⟨"users", "id"⟩ },
        { name := "editor_id", type := "int8", foreignKey := some ⟨"users", "id"⟩ }]⟩
    let blog : Schema :=
      ⟨[users, posts],
        [⟨"posts", "editor_id", "users", "id"⟩, ⟨"users", "parent_id", "users", "id"⟩,
          ⟨"posts", "author_id", "users", "id"⟩]⟩
    blog.inconsistencies = [] ∧ blog.DistinctNames ∧
      (∃ e : blog.ReferencePlace ≃ Fin blog.relationships.length, ∀ p : blog.ReferencePlace,
        blog.relationships.get (e p) = p.edge ∧
          (∀ q : blog.ReferencePlace, q.edge = p.edge → q = p) ∧
          ∀ i, blog.relationships.get i = p.edge → i = e p) ∧
      blog.fields.countP (·.2.foreignKey.isSome) = blog.relationships.length ∧
      ∀ t ∈ blog.tables, ∀ f ∈ t.fields,
        blog.relationship? t.name f.name = f.foreignKey.map (·.relationship t.name f.name) := by
  intro users posts blog
  have hs : blog.inconsistencies = [] := by decide
  have hnames : blog.DistinctNames := ⟨by decide, by decide⟩
  obtain ⟨hiff, hafter⟩ := inconsistencies_eq_nil_iff_exists_equiv blog
  obtain ⟨hcount, -, hfields⟩ := hafter hs
  exact ⟨hs, hnames, hiff.mp hs, hcount, fun t ht f hf => (hfields hnames t ht f hf).1⟩

end Schema

end Schemata
