import Mathlib.Data.List.Find
import Mathlib.Tactic
import Schemata.Proofs.Schema.WellFormed

/-!
# Links field by field

In a consistent schema with distinct names no relationship leaves a field without a reference. What
is known while linking then never stands in the way of a link, and every field is treated by itself.
Only references are added, and where a name fits one table at most, the order of the tables does not
matter.
-/
namespace Schemata

open Schema

/-! ## One field -/

def Candidate.reference (c : Candidate) : Reference := ⟨c.table, c.key⟩

namespace Field

/-- The field with the reference that its name stands for, if it has none. -/
def linked (candidates : List Candidate) (f : Field) : Field :=
  match candidate? candidates f with
  | none => f
  | some c => { f with foreignKey := some c.reference }

/-- The relationship that the name of an unreferenced field stands for. -/
def link? (candidates : List Candidate) (table : String) (f : Field) : Option Relationship :=
  (candidate? candidates f).map (·.reference.relationship table f.name)

/-- A field and the same field with a reference, perhaps a new one. -/
structure ExtendedBy (f g : Field) : Prop where
  unlinked : g.unlinked = f.unlinked
  kept : ∀ r, f.foreignKey = some r → g.foreignKey = some r

theorem ExtendedBy.refl (f : Field) : f.ExtendedBy f := ⟨rfl, fun _ hr => hr⟩

theorem extendedBy_linked (candidates : List Candidate) (f : Field) :
    f.ExtendedBy (f.linked candidates) := by
  rw [linked]
  split
  · exact ExtendedBy.refl f
  · next c hc =>
    refine ⟨rfl, fun r hr => ?_⟩
    rw [(candidate?_eq_some hc).1] at hr
    cases hr

theorem link?_eq_some {candidates : List Candidate} {table : String} {f : Field} {r : Relationship}
    (h : f.link? candidates table = some r) :
    f.foreignKey = none ∧ r.fromTable = table ∧ r.fromField = f.name := by
  obtain ⟨c, hc, rfl⟩ := Option.map_eq_some_iff.mp h
  exact ⟨(candidate?_eq_some hc).1, rfl, rfl⟩

end Field

namespace Table

def linked (candidates : List Candidate) (t : Table) : Table :=
  { t with fields := t.fields.map (·.linked candidates) }

/-- The relationships that the names of the unreferenced fields stand for, in field order. -/
def links (candidates : List Candidate) (t : Table) : List Relationship :=
  t.fields.filterMap (·.link? candidates t.name)

/-- A table and the same table with more references. -/
structure ExtendedBy (t u : Table) : Prop where
  name : u.name = t.name
  fields : List.Forall₂ Field.ExtendedBy t.fields u.fields

theorem extendedBy_linked (candidates : List Candidate) (t : Table) :
    t.ExtendedBy (t.linked candidates) := by
  refine ⟨rfl, ?_⟩
  rw [linked, List.forall₂_map_right_iff, List.forall₂_same]
  exact fun f _ => f.extendedBy_linked candidates

end Table

namespace Schema

variable {candidates : List Candidate} {known : List Relationship}

/-! ## Nothing in the way -/

/-- No known relationship leaves an unreferenced field. -/
def Unblocked (known : List Relationship) (table : String) (fs : List Field) : Prop :=
  ∀ f ∈ fs, f.foreignKey = none → ∀ r ∈ known, ¬(r.fromTable = table ∧ r.fromField = f.name)

theorem Unblocked.tail {table : String} {f : Field} {fs : List Field}
    (h : Unblocked known table (f :: fs)) : Unblocked known table fs :=
  fun g hg => h g (List.mem_cons_of_mem f hg)

theorem Unblocked.append {table : String} {fs : List Field} {new : List Relationship}
    (h : Unblocked known table fs)
    (hnew : ∀ r ∈ new, r.fromTable = table → ∀ f ∈ fs, r.fromField ≠ f.name) :
    Unblocked (known ++ new) table fs := by
  intro f hf hopen r hr
  rcases List.mem_append.mp hr with hr | hr
  · exact h f hf hopen r hr
  · exact fun hsame => hnew r hr hsame.1 f hf hsame.2

theorem newLink?_of_unblocked {table : String} {f : Field} {fs : List Field}
    (h : Unblocked known table (f :: fs)) :
    newLink? candidates table known f = f.link? candidates table := by
  rw [newLink?, Field.link?]
  cases hc : candidate? candidates f with
  | none => rfl
  | some c =>
    have hfree : ∀ r ∈ known, ¬(r.fromTable = table ∧ r.fromField = f.name) :=
      h f List.mem_cons_self (candidate?_eq_some hc).1
    have hnone : (known.any fun r =>
        r.fromTable = table && r.fromField = f.name && r.toTable = c.table) = false := by
      rw [List.any_eq_false]
      intro r hr
      simp only [Bool.and_eq_true, decide_eq_true_eq]
      exact fun hsame => hfree r hr hsame.1
    simp only [hnone, Bool.false_eq_true, if_false]
    rfl

theorem linkFields_of_unblocked {table : String} {fs : List Field}
    (hnames : (fs.map (·.name)).Nodup) (h : Unblocked known table fs) :
    linkFields candidates table known fs =
      (fs.map (·.linked candidates), fs.filterMap (·.link? candidates table)) := by
  induction fs generalizing known with
  | nil => rfl
  | cons f fs ih =>
    obtain ⟨hfresh, hnames⟩ := List.nodup_cons.mp hnames
    rw [linkFields, newLink?_of_unblocked h, List.map_cons, List.filterMap_cons]
    cases hc : candidate? candidates f with
    | none =>
      have hlink : f.link? candidates table = none := by rw [Field.link?, hc, Option.map_none]
      have hsame : f.linked candidates = f := by rw [Field.linked, hc]
      simp only [hlink, hsame, ih hnames h.tail]
    | some c =>
      have hlink : f.link? candidates table = some (c.reference.relationship table f.name) := by
        rw [Field.link?, hc, Option.map_some]
      have hnew : f.linked candidates = { f with foreignKey := some c.reference } := by
        rw [Field.linked, hc]
      -- the new relationship leaves this field, and the others have other names
      have hnext : Unblocked (known ++ [c.reference.relationship table f.name]) table fs := by
        refine h.tail.append fun r hr _ g hg hsame => hfresh ?_
        rw [List.mem_singleton.mp hr] at hsame
        exact List.mem_map.mpr ⟨g, hg, hsame.symm⟩
      simp only [hlink, hnew, ih hnames hnext, Reference.target_relationship]

theorem linkTables_of_unblocked {ts : List Table} (hnames : (ts.map (·.name)).Nodup)
    (hfields : ∀ t ∈ ts, (t.fields.map (·.name)).Nodup)
    (h : ∀ t ∈ ts, Unblocked known t.name t.fields) :
    linkTables candidates known ts =
      (ts.map (·.linked candidates), ts.flatMap (·.links candidates)) := by
  induction ts generalizing known with
  | nil => rfl
  | cons t ts ih =>
    obtain ⟨hfresh, hnames⟩ := List.nodup_cons.mp hnames
    have hfirst : linkFields candidates t.name known t.fields =
        (t.fields.map (·.linked candidates), t.fields.filterMap (·.link? candidates t.name)) :=
      linkFields_of_unblocked (hfields t List.mem_cons_self) (h t List.mem_cons_self)
    have hnext : ∀ u ∈ ts, Unblocked (known ++ t.links candidates) u.name u.fields := by
      intro u hu
      refine (h u (List.mem_cons_of_mem t hu)).append fun r hr htable => ?_
      obtain ⟨f, -, hf⟩ := List.mem_filterMap.mp hr
      have hname : t.name = u.name := (Field.link?_eq_some hf).2.1.symm.trans htable
      exact absurd (List.mem_map.mpr ⟨u, hu, hname.symm⟩) hfresh
    have hrest := ih hnames (fun u hu => hfields u (List.mem_cons_of_mem t hu)) hnext
    rw [linkTables]
    simp only [hfirst]
    change (t.linked candidates :: (linkTables candidates (known ++ t.links candidates) ts).1,
      t.links candidates ++ (linkTables candidates (known ++ t.links candidates) ts).2) = _
    rw [hrest]
    rfl

/-! ## Schemas -/

variable {s s' : Schema}

theorem DistinctNames.unblocked (h : s.DistinctNames) (hs : s.inconsistencies = []) {t : Table}
    (ht : t ∈ s.tables) : Unblocked s.relationships t.name t.fields := by
  intro f hf hopen r hr hsame
  have hfound := h.target_relationship? hs ht hf
  rw [hopen, Option.map_eq_none_iff] at hfound
  have hmiss := List.find?_eq_none.mp hfound r hr
  simp [hsame] at hmiss

/-- Inference gives every field its own link. -/
theorem DistinctNames.linkTables_eq (h : s.DistinctNames) (hs : s.inconsistencies = []) :
    linkTables (candidatesOf s.tables) s.relationships s.tables =
      (s.tables.map (·.linked (candidatesOf s.tables)),
        s.tables.flatMap (·.links (candidatesOf s.tables))) :=
  linkTables_of_unblocked h.tables h.fields fun _ ht => h.unblocked hs ht

theorem DistinctNames.tables_infer (h : s.DistinctNames) (hs : s.inconsistencies = []) :
    s.infer.tables = s.tables.map (·.linked (candidatesOf s.tables)) :=
  congrArg Prod.fst (h.linkTables_eq hs)

theorem DistinctNames.inferred_eq (h : s.DistinctNames) (hs : s.inconsistencies = []) :
    s.inferred = s.tables.flatMap (·.links (candidatesOf s.tables)) :=
  congrArg Prod.snd (h.linkTables_eq hs)

/-- Inference only extends tables. -/
theorem DistinctNames.extendedBy_infer (h : s.DistinctNames) (hs : s.inconsistencies = []) :
    List.Forall₂ Table.ExtendedBy s.tables s.infer.tables := by
  rw [h.tables_infer hs, List.forall₂_map_right_iff, List.forall₂_same]
  exact fun t _ => t.extendedBy_linked _

/-! ## The order of tables -/

/-- With distinct names every table with a primary key is a candidate. -/
theorem candidatesOf_eq_filterMap {ts : List Table} (h : (ts.map (·.name)).Nodup) :
    candidatesOf ts = ts.filterMap fun t => t.primaryKey?.map fun key => ⟨t.name, key.name⟩ := by
  induction ts with
  | nil => rfl
  | cons t ts ih =>
    obtain ⟨hfresh, hnames⟩ := List.nodup_cons.mp h
    rw [candidatesOf, List.filterMap_cons, ih hnames]
    cases t.primaryKey? with
    | none => rfl
    | some key =>
      simp only [Option.map_some]
      congr 1
      refine List.filter_eq_self.mpr fun c hc => decide_eq_true fun hsame => hfresh ?_
      obtain ⟨u, hu, hcandidate⟩ := List.mem_filterMap.mp hc
      obtain ⟨key', -, rfl⟩ := Option.map_eq_some_iff.mp hcandidate
      exact List.mem_map.mpr ⟨u, hu, hsame⟩

theorem candidatesOf_perm {ts us : List Table} (h : ts.Perm us) (hnames : (ts.map (·.name)).Nodup) :
    (candidatesOf ts).Perm (candidatesOf us) := by
  rw [candidatesOf_eq_filterMap hnames, candidatesOf_eq_filterMap ((h.map _).nodup_iff.mp hnames)]
  exact h.filterMap _

/-- The stem of a field name fits one candidate at most. -/
def FitsOnce (candidates : List Candidate) (f : Field) : Prop :=
  ∀ stem, referenceStem? f.name = some stem → ∀ c ∈ candidates, c.fits stem = true →
    ∀ c' ∈ candidates, c'.fits stem = true → c = c'

/-- Every field whose name ends in `_id` fits one table with a primary key at most. -/
def Unambiguous (s : Schema) : Prop :=
  ∀ t ∈ s.tables, ∀ f ∈ t.fields, FitsOnce (candidatesOf s.tables) f

theorem candidate?_perm {candidates candidates' : List Candidate} {f : Field}
    (h : candidates.Perm candidates') (hf : FitsOnce candidates f) :
    candidate? candidates f = candidate? candidates' f := by
  rw [candidate?, candidate?]
  split_ifs
  · rfl
  · cases hstem : referenceStem? f.name with
    | none => rfl
    | some stem =>
      refine List.find?_eq_find?_of_perm h ?_
      rintro c ⟨hc, hfits⟩ c' ⟨hc', hfits'⟩
      exact hf stem hstem c hc hfits c' hc' hfits'

theorem linked_perm {candidates candidates' : List Candidate} {t : Table}
    (h : candidates.Perm candidates') (hf : ∀ f ∈ t.fields, FitsOnce candidates f) :
    t.linked candidates = t.linked candidates' := by
  have hfields : t.fields.map (·.linked candidates) = t.fields.map (·.linked candidates') :=
    List.map_congr_left fun f hmem => by
      rw [Field.linked, Field.linked, candidate?_perm h (hf f hmem)]
  rw [Table.linked, Table.linked, hfields]

theorem links_perm {candidates candidates' : List Candidate} {t : Table}
    (h : candidates.Perm candidates') (hf : ∀ f ∈ t.fields, FitsOnce candidates f) :
    t.links candidates = t.links candidates' :=
  List.filterMap_congr fun f hmem => by
    rw [Field.link?, Field.link?, candidate?_perm h (hf f hmem)]

/-- References have no part in what names fit. -/
theorem Unambiguous.of_infer (h : s.infer.Unambiguous) : s.Unambiguous := by
  intro t ht f hf
  have hmem : t.unlinked ∈ s.infer.tables.map Table.unlinked :=
    s.unlinked_infer ▸ List.mem_map_of_mem ht
  obtain ⟨u, hu, hsame⟩ := List.mem_map.mp hmem
  have hfield : f.unlinked ∈ u.unlinked.fields := hsame ▸ List.mem_map_of_mem hf
  obtain ⟨g, hg, hname⟩ := List.mem_map.mp hfield
  have hfits := h u hu g hg
  rw [candidatesOf_infer] at hfits
  have hsame : g.unlinked.name = f.unlinked.name := congrArg Field.name hname
  rw [Field.unlinked_name, Field.unlinked_name] at hsame
  rwa [FitsOnce, hsame] at hfits

theorem DistinctNames.perm (h : s.DistinctNames) (ht : s.tables.Perm s'.tables) :
    s'.DistinctNames :=
  ⟨(ht.map _).nodup_iff.mp h.tables, fun t hmem => h.fields t (ht.mem_iff.mpr hmem)⟩

/-- Where names fit one table at most, tables in another order get the same links. -/
theorem DistinctNames.infer_of_perm (h : s.DistinctNames) (hs : s.inconsistencies = [])
    (hs' : s'.inconsistencies = []) (ht : s.tables.Perm s'.tables)
    (hr : s.relationships.Perm s'.relationships) (hu : s.Unambiguous) :
    s'.infer.tables = s'.tables.map (·.linked (candidatesOf s.tables)) ∧
      s.infer.relationships.Perm s'.infer.relationships := by
  have hcandidates := candidatesOf_perm ht h.tables
  have hfits : ∀ t ∈ s'.tables, ∀ f ∈ t.fields, FitsOnce (candidatesOf s.tables) f :=
    fun t hmem => hu t (ht.mem_iff.mpr hmem)
  have h' := h.perm ht
  constructor
  · rw [h'.tables_infer hs']
    exact List.map_congr_left fun t hmem => (linked_perm hcandidates (hfits t hmem)).symm
  · rw [Schema.infer, Schema.infer, h.inferred_eq hs, h'.inferred_eq hs']
    have hlinks : s'.tables.flatMap (·.links (candidatesOf s'.tables)) =
        s'.tables.flatMap (·.links (candidatesOf s.tables)) :=
      List.flatMap_congr fun t hmem => (links_perm hcandidates (hfits t hmem)).symm
    rw [hlinks]
    exact hr.append (ht.flatMap_right _)

end Schema

end Schemata
