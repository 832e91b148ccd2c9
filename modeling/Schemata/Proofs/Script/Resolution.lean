import Schemata.Proofs.Script.Draft
import Schemata.Script.Reading

/-!
# Resolved references

Attaching the pending references of a draft gives as many relationships as references, so the
declared schema of a script is well formed. From there the well-formedness of every reading follows,
for any tokenizer.
-/
namespace Schemata.Script

/-! ## One reference -/

theorem setReference_unlinked (t : Table) (field : String) (r : Reference) :
    (setReference t field r).unlinked = t.unlinked := by
  simp only [setReference, Table.unlinked, List.map_map]
  congr 1
  refine List.map_congr_left fun f _ => ?_
  simp only [Function.comp_apply]
  split <;> rfl

/-- The reference of a field that had none is one more edge. -/
theorem relationships_setReference {t : Table} {field : String} (r : Reference)
    (hnames : (t.fields.map (·.name)).Nodup) (hmem : field ∈ t.fields.map (·.name))
    (hopen : ∀ f ∈ t.fields, f.name = field → f.foreignKey = none) :
    (setReference t field r).relationships.Perm
      (t.relationships ++ [r.relationship t.name field]) := by
  obtain ⟨name, fs⟩ := t
  dsimp only [setReference] at *
  induction fs with
  | nil => cases hmem
  | cons f fs ih =>
    simp only [List.map_cons, List.nodup_cons] at hnames
    rw [List.map_cons, Table.relationships_cons, Table.relationships_cons name f fs]
    by_cases hf : f.name = field
    · have hrest : fs.map (fun g => if g.name = field then { g with foreignKey := some r } else g) =
          fs := by
        refine (List.map_congr_left fun g hg => ?_).trans (List.map_id fs)
        have hne : g.name ≠ field := fun he =>
          hnames.1 (List.mem_map.mpr ⟨g, hg, he.trans hf.symm⟩)
        exact if_neg hne
      rw [hrest, if_pos hf, hopen f List.mem_cons_self hf, ← hf]
      exact List.perm_append_comm
    · have hmem' : field ∈ fs.map (·.name) :=
        (List.mem_cons.mp hmem).resolve_left fun he => hf he.symm
      rw [if_neg hf, List.append_assoc]
      exact (ih hnames.2 hmem' fun g hg => hopen g (List.mem_cons_of_mem f hg)).append_left _

/-- Only the named field is touched. -/
theorem foreignKey_setReference {t : Table} {field : String} {r : Reference} {f : Field}
    (hf : f ∈ (setReference t field r).fields) (hne : f.name ≠ field) : f ∈ t.fields := by
  obtain ⟨g, hg, rfl⟩ := List.mem_map.mp hf
  by_cases he : g.name = field
  · rw [if_pos he] at hne
    exact absurd he hne
  · rw [if_neg he]
    exact hg

/-! ## All references of a draft -/

namespace Resolved

/-- The references attached so far are the edges of the table, and the fields of the pending ones
are still open. -/
structure Sound (resolved : Resolved) (pending : List Pending) : Prop where
  names : (resolved.table.fields.map (·.name)).Nodup
  edges : resolved.relationships.Perm resolved.table.relationships
  once : (pending.map (·.field)).Nodup
  known : ∀ p ∈ pending, p.field ∈ resolved.table.fields.map (·.name)
  opened : ∀ p ∈ pending, ∀ f ∈ resolved.table.fields, f.name = p.field → f.foreignKey = none

variable {resolved : Resolved} {pending : List Pending} {p : Pending}

theorem add_unlinked (tables : List Table) (resolved : Resolved) (p : Pending) :
    (resolved.add tables p).table.unlinked = resolved.table.unlinked := by
  simp only [add]
  split
  · exact setReference_unlinked ..
  · rfl

theorem Sound.add (h : resolved.Sound (p :: pending)) (tables : List Table) :
    (resolved.add tables p).Sound pending := by
  have honce := List.nodup_cons.mp h.once
  have hknown := fun q hq => h.known q (List.mem_cons_of_mem p hq)
  have hopened := fun q hq => h.opened q (List.mem_cons_of_mem p hq)
  simp only [Resolved.add]
  split
  · next r _ =>
    have hu := setReference_unlinked resolved.table p.field r
    have hnames : (setReference resolved.table p.field r).fields.map (·.name) =
        resolved.table.fields.map (·.name) := by
      simpa [Function.comp_def] using congrArg (fun t => t.fields.map (·.name)) hu
    refine ⟨hnames ▸ h.names, ?_, honce.2, fun q hq => hnames ▸ hknown q hq, ?_⟩
    · exact (h.edges.append_right _).trans (relationships_setReference r h.names
        (h.known p List.mem_cons_self) (h.opened p List.mem_cons_self)).symm
    · intro q hq f hf hname
      have hne : f.name ≠ p.field := fun he =>
        honce.1 (List.mem_map.mpr ⟨q, hq, hname.symm.trans he⟩)
      exact hopened q hq f (foreignKey_setReference hf hne) hname
  · exact ⟨h.names, h.edges, honce.2, hknown, hopened⟩

theorem Sound.foldl (h : resolved.Sound pending) (tables : List Table) :
    (pending.foldl (·.add tables) resolved).Sound [] := by
  induction pending generalizing resolved with
  | nil => exact h
  | cons p pending ih => exact ih (h.add tables)

theorem foldl_unlinked (tables : List Table) (resolved : Resolved) (pending : List Pending) :
    (pending.foldl (·.add tables) resolved).table.unlinked = resolved.table.unlinked := by
  induction pending generalizing resolved with
  | nil => rfl
  | cons p pending ih => exact (ih _).trans (add_unlinked tables resolved p)

end Resolved

namespace Draft

theorem resolved_unlinked (tables : List Table) (d : Draft) :
    (d.resolved tables).table.unlinked = d.table.unlinked := Resolved.foldl_unlinked ..

theorem Sound.relationships_resolved {d : Draft} (h : d.Sound) (tables : List Table) :
    (d.resolved tables).relationships.Perm (d.resolved tables).table.relationships := by
  have hnone : d.table.relationships = [] := by
    refine List.filterMap_eq_nil_iff.mpr fun f hf => ?_
    rw [h.unlinked f hf]
    rfl
  refine (Resolved.Sound.foldl ⟨h.wellFormed.names, ?_, h.pendingOnce, h.pendingKnown, ?_⟩ _).edges
  · rw [hnone]
  · exact fun p _ f hf _ => h.unlinked f hf

end Draft

/-! ## Scripts -/

/-- The invariant of reading statements. -/
structure Progress.Sound (p : Progress) : Prop where
  names : (p.drafts.map (·.name)).Nodup
  drafts : ∀ d ∈ p.drafts, d.Sound

theorem Progress.Sound.add {p : Progress} (h : p.Sound) (s : Statement) : (p.add s).Sound := by
  simp only [Progress.add]
  split
  · split
    · exact ⟨h.names, h.drafts⟩
    · next name body _ =>
      split
      · exact ⟨h.names, h.drafts⟩
      · next hnew =>
        refine ⟨?_, ?_⟩
        · simp only [List.map_append, List.map_cons, List.map_nil, Draft.ofClauses_name]
          rw [List.nodup_append_comm]
          refine List.nodup_cons.mpr ⟨fun hmem => hnew ?_, h.names⟩
          obtain ⟨d, hd, he⟩ := List.mem_map.mp hmem
          exact List.any_eq_true.mpr ⟨d, hd, decide_eq_true he⟩
        · intro d hd
          rcases List.mem_append.mp hd with hd | hd
          · exact h.drafts d hd
          · exact List.mem_singleton.mp hd ▸ Draft.sound_ofClauses ..
  · exact h

/-- References attached to well-formed tables make a well-formed schema. -/
theorem Progress.Sound.declared {p : Progress} (h : p.Sound) :
    (declared p).schema.WellFormed := by
  have hu : (Script.declared p).schema.tables.map Table.unlinked =
      (p.drafts.map Draft.table).map Table.unlinked := by
    simp only [Script.declared, List.map_map]
    exact List.map_congr_left fun d _ => d.resolved_unlinked _
  have hnames : ((Script.declared p).schema.tables.map (·.name)).Nodup := by
    rw [Schema.names_eq_of_unlinked hu, List.map_map]
    exact h.names
  have htables : ∀ t ∈ (Script.declared p).schema.tables, t.WellFormed := by
    refine Schema.tables_wellFormed_of_unlinked hu fun t ht => ?_
    obtain ⟨d, hd, rfl⟩ := List.mem_map.mp ht
    exact (h.drafts d hd).wellFormed
  refine ⟨hnames, htables, ?_⟩
  have hdistinct : (Script.declared p).schema.DistinctNames :=
    ⟨hnames, fun t ht => (htables t ht).names⟩
  rw [hdistinct.inconsistencies_eq_nil_iff, Schema.edges_eq_flatMap]
  simp only [Script.declared, List.flatMap_map, List.map_map]
  exact List.Perm.flatMap_left _ fun d hd => (h.drafts d hd).relationships_resolved _

theorem sound_progress (found : List Statement) (issues : List Issue) :
    (found.foldl Progress.add { issues := issues }).Sound :=
  List.foldlRecOn _ _ ⟨List.nodup_nil, by simp⟩ fun _ hp s _ => hp.add s

theorem readScript_wellFormed (tokenize : Tokenizer) (script : List Char) :
    (readScript tokenize script).schema.WellFormed :=
  (sound_progress _ _).declared.infer

/-- Whatever the text and the tokenizer, a lenient reading answers with a well-formed schema. -/
theorem accept_lenient_wellFormed (tokenize : Tokenizer) (text : List Char) :
    ∃ report, (read tokenize text).accept .lenient = .ok report ∧ report.schema.WellFormed :=
  ⟨read tokenize text, rfl, readScript_wellFormed tokenize _⟩

end Schemata.Script
