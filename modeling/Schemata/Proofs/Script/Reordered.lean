import Mathlib.Data.List.Forall2
import Mathlib.Data.List.Perm.Basic
import Mathlib.Tactic
import Schemata.Proofs.Script.Drafts

/-!
# The order of references

Pending references belong to different fields, so they may be attached in any order. Drafts that
differ only in the order of what is pending lead to the same tables, and to the same relationships
up to their order; inference never looks at that order.
-/
namespace Schemata

/-! ## Inference -/

namespace Schema

variable {candidates : List Candidate} {known known' : List Relationship}

theorem newLink?_perm (h : known.Perm known') (table : String) (f : Field) :
    newLink? candidates table known f = newLink? candidates table known' f := by
  simp only [newLink?, h.any_eq]

theorem linkFields_perm (h : known.Perm known') (table : String) (fs : List Field) :
    linkFields candidates table known fs = linkFields candidates table known' fs := by
  induction fs generalizing known known' with
  | nil => rfl
  | cons f fs ih =>
    rw [linkFields, linkFields, newLink?_perm h]
    cases newLink? candidates table known' f with
    | none => simp only [ih h]
    | some r => simp only [ih (h.append_right [r])]

theorem linkTables_perm (h : known.Perm known') (ts : List Table) :
    linkTables candidates known ts = linkTables candidates known' ts := by
  induction ts generalizing known known' with
  | nil => rfl
  | cons t ts ih =>
    simp only [linkTables, linkFields_perm h, ih (h.append_right _)]

/-- Inference adds the same links, in the same order, behind relationships in any order. -/
theorem infer_perm {s s' : Schema} (ht : s.tables = s'.tables)
    (hr : s.relationships.Perm s'.relationships) :
    s.infer.tables = s'.infer.tables ∧ s.infer.relationships.Perm s'.infer.relationships := by
  have hlinks : linkTables (candidatesOf s.tables) s.relationships s.tables =
      linkTables (candidatesOf s'.tables) s'.relationships s'.tables := by
    rw [linkTables_perm hr, ht]
  exact ⟨congrArg Prod.fst hlinks, hr.append (List.Perm.of_eq (congrArg Prod.snd hlinks))⟩

end Schema

namespace Script

/-! ## Attaching references -/

/-- References of different fields do not get into each other's way. -/
theorem setReference_comm (t : Table) {field field' : String} (hne : field ≠ field')
    (r r' : Reference) :
    setReference (setReference t field r) field' r' =
      setReference (setReference t field' r') field r := by
  simp only [setReference, List.map_map]
  congr 1
  refine List.map_congr_left fun f _ => ?_
  simp only [Function.comp_apply]
  by_cases hf : f.name = field
  · simp [hf, hne]
  · by_cases hf' : f.name = field' <;> simp [hf, hf', hne.symm]

theorem attach_comm (tables : List Table) (t : Table) {p q : Pending} (hne : p.field ≠ q.field) :
    attach tables (attach tables t p) q = attach tables (attach tables t q) p := by
  simp only [attach]
  cases resolve? tables p.target with
  | none => rfl
  | some r =>
    cases resolve? tables q.target with
    | none => rfl
    | some r' => exact setReference_comm t hne r r'

theorem foldl_attach_perm (tables : List Table) {pending pending' : List Pending}
    (h : pending.Perm pending') (honce : (pending.map (·.field)).Nodup) (t : Table) :
    pending.foldl (attach tables) t = pending'.foldl (attach tables) t := by
  refine List.Perm.foldl_eq' h (fun p hp q hq t => ?_) t
  by_cases hsame : p = q
  · rw [hsame]
  · exact attach_comm tables t fun he => hsame (List.inj_on_of_nodup_map honce hp hq he)

/-! ## Drafts -/

/-- Drafts that differ in the order of their pending references only. -/
structure Draft.Reordered (d e : Draft) : Prop where
  name : d.name = e.name
  fields : d.fields = e.fields
  pending : d.pending.Perm e.pending

theorem Draft.Reordered.refl (d : Draft) : d.Reordered d := ⟨rfl, rfl, List.Perm.refl _⟩

theorem Draft.Reordered.table {d e : Draft} (h : d.Reordered e) : d.table = e.table := by
  rw [Draft.table, Draft.table, h.name, h.fields]

variable {ds es : List Draft}

theorem names_reordered (h : List.Forall₂ Draft.Reordered ds es) :
    ds.map (·.name) = es.map (·.name) := by
  induction h with
  | nil => rfl
  | cons hd _ ih => rw [List.map_cons, List.map_cons, hd.name, ih]

theorem tables_reordered (h : List.Forall₂ Draft.Reordered ds es) :
    ds.map Draft.table = es.map Draft.table := by
  induction h with
  | nil => rfl
  | cons hd _ ih => rw [List.map_cons, List.map_cons, hd.table, ih]

theorem foldl_addNew_reordered {new new' : List Draft} (h : List.Forall₂ Draft.Reordered ds es)
    (hnew : List.Forall₂ Draft.Reordered new new') :
    List.Forall₂ Draft.Reordered (new.foldl addNew ds) (new'.foldl addNew es) := by
  induction hnew generalizing ds es with
  | nil => exact h
  | @cons d e new new' hd _ ih =>
    refine ih ?_
    rw [addNew, addNew, names_reordered h, hd.name]
    split
    · exact h
    · exact List.rel_append h (List.Forall₂.cons hd List.Forall₂.nil)

/-- Reordered drafts have the same tables, and the same relationships up to their order. -/
theorem linked_reordered (h : List.Forall₂ Draft.Reordered ds es)
    (honce : ∀ d ∈ ds, (d.pending.map (·.field)).Nodup) :
    (linked ds).tables = (linked es).tables ∧
      (linked ds).relationships.Perm (linked es).relationships := by
  simp only [linked, tables_reordered h]
  generalize es.map Draft.table = tables
  induction h with
  | nil => exact ⟨rfl, List.Perm.refl _⟩
  | @cons d e ds es hd _ ih =>
    obtain ⟨htables, hrelationships⟩ := ih fun d' hd' => honce d' (List.mem_cons_of_mem d hd')
    have hattach := foldl_attach_perm tables hd.pending (honce d List.mem_cons_self) d.table
    refine ⟨?_, ?_⟩
    · rw [List.map_cons, List.map_cons, hattach, hd.table, htables]
    · rw [List.flatMap_cons, List.flatMap_cons, hd.name]
      exact (hd.pending.filterMap _).append hrelationships

/-! ## Scripts -/

theorem Draft.Sound.quiet {d : Draft} (h : d.Sound) : d.quiet.Sound :=
  ⟨h.wellFormed, h.unlinked, h.pendingOnce, h.pendingKnown⟩

theorem sound_of_draft? {s : Statement} {d : Draft} (h : s.draft? = some d) : d.Sound := by
  rw [Statement.draft?] at h
  split at h
  · obtain ⟨⟨name, body⟩, -, rfl⟩ := Option.map_eq_some_iff.mp h
    exact (Draft.sound_ofClauses s.source name (Lexeme.clauses body)).quiet
  · cases h

theorem subset_foldl_addNew (ds new : List Draft) : new.foldl addNew ds ⊆ ds ++ new := by
  induction new generalizing ds with
  | nil => simp
  | cons d new ih =>
    have hstep : addNew ds d ⊆ ds ++ [d] := by
      rw [addNew]
      split
      · exact List.subset_append_left ds [d]
      · exact List.Subset.refl _
    intro e he
    rcases List.mem_append.mp (ih (addNew ds d) he) with he | he
    · have hmem := hstep he
      rw [List.mem_append, List.mem_singleton] at hmem
      rw [List.mem_append, List.mem_cons]
      exact hmem.imp id Or.inl
    · exact List.mem_append_right ds (List.mem_cons_of_mem d he)

theorem sound_of_mem_draftsOf {found : List Statement} {d : Draft} (h : d ∈ draftsOf found) :
    d.Sound := by
  have hmem := subset_foldl_addNew [] _ h
  rw [List.nil_append, List.mem_filterMap] at hmem
  obtain ⟨s, -, hs⟩ := hmem
  exact sound_of_draft? hs

/-- Scripts whose drafts are reordered one by one declare the same tables, and the same
relationships up to their order. -/
theorem schema_reordered {found found' : List Statement}
    (h : List.Forall₂ Draft.Reordered (found.filterMap Statement.draft?)
      (found'.filterMap Statement.draft?)) :
    (linked (draftsOf found)).infer.tables = (linked (draftsOf found')).infer.tables ∧
      (linked (draftsOf found)).infer.relationships.Perm
        (linked (draftsOf found')).infer.relationships := by
  have hdrafts : List.Forall₂ Draft.Reordered (draftsOf found) (draftsOf found') :=
    foldl_addNew_reordered List.Forall₂.nil h
  obtain ⟨htables, hrelationships⟩ := linked_reordered hdrafts fun d hd =>
    (sound_of_mem_draftsOf hd).pendingOnce
  exact Schema.infer_perm htables hrelationships

end Script

end Schemata
