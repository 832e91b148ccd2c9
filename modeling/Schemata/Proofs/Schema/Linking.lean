import Schemata.Proofs.Schema.Edges
import Schemata.Schema.Inference

/-!
# Inferred links

Linking goes through the fields once and adds a relationship together with the reference that it
belongs to. It therefore keeps a schema consistent, changes nothing but references, and finds
nothing more when it is repeated: a field that was passed over stays blocked for the same reason.
-/
namespace Schemata

/-- The field as it is declared, without its reference. -/
def Field.unlinked (f : Field) : Field := { f with foreignKey := none }

@[simp] theorem Field.unlinked_name (f : Field) : f.unlinked.name = f.name := rfl

@[simp] theorem Field.unlinked_primaryKey (f : Field) : f.unlinked.primaryKey = f.primaryKey := rfl

namespace Table

/-- The table as it is declared, without references. -/
def unlinked (t : Table) : Table := { t with fields := t.fields.map Field.unlinked }

@[simp] theorem unlinked_name (t : Table) : t.unlinked.name = t.name := rfl

@[simp] theorem unlinked_fields (t : Table) : t.unlinked.fields = t.fields.map Field.unlinked := rfl

theorem primaryKey?_unlinked (t : Table) :
    t.unlinked.primaryKey? = t.primaryKey?.map Field.unlinked := by
  simp only [primaryKey?, unlinked_fields, List.find?_map, Function.comp_def,
    Field.unlinked_primaryKey]

end Table

namespace Schema

variable {candidates : List Candidate}

/-! ## One field -/

theorem candidate?_eq_some {f : Field} {c : Candidate} (h : candidate? candidates f = some c) :
    f.foreignKey = none ∧ f.primaryKey = false ∧ c ∈ candidates := by
  simp only [candidate?] at h
  split at h
  · cases h
  · next hopen =>
    simp only [Bool.or_eq_true, not_or, Bool.not_eq_true, Option.isSome_eq_false_iff,
      Option.isNone_iff_eq_none] at hopen
    obtain ⟨stem, -, hc⟩ := Option.bind_eq_some_iff.mp h
    exact ⟨hopen.1, hopen.2, List.mem_of_find?_eq_some hc⟩

theorem newLink?_eq_some {table : String} {known : List Relationship} {f : Field}
    {r : Relationship} (h : newLink? candidates table known f = some r) :
    f.foreignKey = none ∧ r.target.relationship table f.name = r ∧ r ∉ known := by
  simp only [newLink?] at h
  split at h
  · cases h
  · next c hc =>
    split at h
    · cases h
    · next hfree =>
      obtain rfl := Option.some.inj h
      refine ⟨(candidate?_eq_some hc).1, rfl, fun hmem => hfree ?_⟩
      exact List.any_eq_true.mpr ⟨_, hmem, by simp⟩

/-- A field that gets no link gets none either when more relationships are known. -/
theorem newLink?_eq_none_of_subset {table : String} {known known' : List Relationship} {f : Field}
    (h : newLink? candidates table known f = none) (hsub : known ⊆ known') :
    newLink? candidates table known' f = none := by
  simp only [newLink?] at h ⊢
  split at h
  · rfl
  · split at h
    · next hblocked =>
      obtain ⟨r, hr, hmatch⟩ := List.any_eq_true.mp hblocked
      exact if_pos (List.any_eq_true.mpr ⟨r, hsub hr, hmatch⟩)
    · cases h

/-- A field with a reference is left alone. -/
theorem newLink?_of_isSome {table : String} {known : List Relationship} {f : Field}
    (h : f.foreignKey.isSome = true) : newLink? candidates table known f = none := by
  simp [newLink?, candidate?, h]

/-! ## All fields of a table -/

theorem linkFields_unlinked (table : String) (known : List Relationship) (fs : List Field) :
    (linkFields candidates table known fs).1.map Field.unlinked = fs.map Field.unlinked := by
  fun_induction linkFields candidates table known fs with
  | case1 => rfl
  | case2 known f fs _ rest ih => simp [rest, ih]
  | case3 known f fs r _ rest ih => simp [rest, ih, Field.unlinked]

/-- Each new relationship comes with its edge. -/
theorem relationships_linkFields (table : String) (known : List Relationship) (fs : List Field) :
    (⟨table, (linkFields candidates table known fs).1⟩ : Table).relationships.Perm
      ((⟨table, fs⟩ : Table).relationships ++ (linkFields candidates table known fs).2) := by
  fun_induction linkFields candidates table known fs with
  | case1 => rfl
  | case2 known f fs _ rest ih =>
    rw [Table.relationships_cons, Table.relationships_cons table f fs, List.append_assoc]
    exact ih.append_left _
  | case3 known f fs r hr rest ih =>
    obtain ⟨hnone, hedge, -⟩ := newLink?_eq_some hr
    simp only [Table.relationships_cons, hnone, Option.map_some, Option.map_none, hedge]
    exact (ih.cons r).trans List.perm_middle.symm

theorem nodup_linkFields (table : String) {known : List Relationship} (fs : List Field)
    (h : known.Nodup) : (known ++ (linkFields candidates table known fs).2).Nodup := by
  fun_induction linkFields candidates table known fs with
  | case1 => simpa using h
  | case2 known f fs _ rest ih => exact ih h
  | case3 known f fs r hr rest ih =>
    obtain ⟨-, -, hnew⟩ := newLink?_eq_some hr
    have hnext : (known ++ [r]).Nodup := by
      rw [List.nodup_append_comm]
      exact List.nodup_cons.mpr ⟨hnew, h⟩
    simpa using ih hnext

/-- Linked fields have no more links, as long as everything that was known is still known. -/
theorem linkFields_linkFields (candidates : List Candidate) (table : String)
    (known known' : List Relationship) (fs : List Field)
    (h : known ++ (linkFields candidates table known fs).2 ⊆ known') :
    linkFields candidates table known' (linkFields candidates table known fs).1 =
      ((linkFields candidates table known fs).1, []) := by
  fun_induction linkFields candidates table known fs with
  | case1 => rfl
  | case2 known f fs hnone rest ih =>
    have hsub : known ⊆ known' := fun r hr => h (List.mem_append_left _ hr)
    simp only [linkFields, newLink?_eq_none_of_subset hnone hsub]
    rw [ih h]
  | case3 known f fs r hr rest ih =>
    have hlinked : newLink? candidates table known' { f with foreignKey := some r.target } = none :=
      newLink?_of_isSome rfl
    simp only [linkFields, hlinked]
    rw [ih (by simpa using h)]

theorem linkFields_eq_self {table : String} {known : List Relationship} {fs : List Field}
    (h : (linkFields candidates table known fs).2 = []) :
    (linkFields candidates table known fs).1 = fs := by
  fun_induction linkFields candidates table known fs with
  | case1 => rfl
  | case2 known f fs _ rest ih => rw [ih h]
  | case3 => cases h

theorem linkFields_eq_nil_iff {table : String} {known : List Relationship} {fs : List Field} :
    (linkFields candidates table known fs).2 = [] ↔
      ∀ f ∈ fs, newLink? candidates table known f = none := by
  induction fs with
  | nil => simp [linkFields]
  | cons f fs ih =>
    rw [linkFields, List.forall_mem_cons]
    cases hf : newLink? candidates table known f with
    | none => simpa using ih
    | some r => simp

/-! ## All tables -/

theorem linkTables_unlinked (known : List Relationship) (ts : List Table) :
    (linkTables candidates known ts).1.map Table.unlinked = ts.map Table.unlinked := by
  induction ts generalizing known with
  | nil => rfl
  | cons t ts ih => simp [linkTables, ih, Table.unlinked, linkFields_unlinked]

theorem relationships_linkTables (known : List Relationship) (ts : List Table) :
    ((linkTables candidates known ts).1.flatMap Table.relationships).Perm
      (ts.flatMap Table.relationships ++ (linkTables candidates known ts).2) := by
  induction ts generalizing known with
  | nil => rfl
  | cons t ts ih =>
    simp only [linkTables, List.flatMap_cons]
    refine ((relationships_linkFields t.name known t.fields).append (ih _)).trans ?_
    simp only [List.append_assoc]
    refine List.Perm.append_left _ ?_
    rw [← List.append_assoc, ← List.append_assoc]
    exact List.perm_append_comm.append_right _

theorem nodup_linkTables {known : List Relationship} (ts : List Table) (h : known.Nodup) :
    (known ++ (linkTables candidates known ts).2).Nodup := by
  induction ts generalizing known with
  | nil => simpa [linkTables] using h
  | cons t ts ih => simpa [linkTables] using ih (nodup_linkFields t.name t.fields h)

theorem linkTables_linkTables (candidates : List Candidate) (known known' : List Relationship)
    (ts : List Table) (h : known ++ (linkTables candidates known ts).2 ⊆ known') :
    linkTables candidates known' (linkTables candidates known ts).1 =
      ((linkTables candidates known ts).1, []) := by
  induction ts generalizing known with
  | nil => rfl
  | cons t ts ih =>
    simp only [linkTables] at h ⊢
    have hfields := linkFields_linkFields candidates t.name known known' t.fields
      (fun r hr => h (by simp only [List.mem_append] at hr ⊢; tauto))
    have htables := ih (known ++ (linkFields candidates t.name known t.fields).2)
      (fun r hr => h (by simp only [List.mem_append] at hr ⊢; tauto))
    simp only [hfields, List.append_nil, htables]

theorem linkTables_eq_self {known : List Relationship} {ts : List Table}
    (h : (linkTables candidates known ts).2 = []) : (linkTables candidates known ts).1 = ts := by
  induction ts generalizing known with
  | nil => rfl
  | cons t ts ih =>
    obtain ⟨hfields, htables⟩ := List.append_eq_nil_iff.mp h
    simp only [linkTables, linkFields_eq_self hfields, ih htables]

theorem linkTables_eq_nil_iff {known : List Relationship} {ts : List Table} :
    (linkTables candidates known ts).2 = [] ↔
      ∀ t ∈ ts, ∀ f ∈ t.fields, newLink? candidates t.name known f = none := by
  induction ts with
  | nil => simp [linkTables]
  | cons t ts ih =>
    simp only [linkTables, List.append_eq_nil_iff, List.forall_mem_cons]
    rw [linkFields_eq_nil_iff]
    -- later tables see the new relationships too, but here there are none
    refine and_congr_right fun hfirst => ?_
    rw [linkFields_eq_nil_iff.mpr hfirst, List.append_nil]
    exact ih

/-! ## Schemas -/

theorem names_eq_of_unlinked {ts us : List Table}
    (h : ts.map Table.unlinked = us.map Table.unlinked) : ts.map (·.name) = us.map (·.name) := by
  simpa [Function.comp_def] using congrArg (List.map (·.name)) h

/-- References have no part in what tables and fields are called. -/
theorem DistinctNames.of_unlinked {s s' : Schema} (hs : s.DistinctNames)
    (h : s'.tables.map Table.unlinked = s.tables.map Table.unlinked) : s'.DistinctNames := by
  refine ⟨names_eq_of_unlinked h ▸ hs.tables, fun t ht => ?_⟩
  have hmem : t.unlinked ∈ s.tables.map Table.unlinked := h ▸ List.mem_map_of_mem ht
  obtain ⟨u, hu, he⟩ := List.mem_map.mp hmem
  have hnames : t.fields.map (·.name) = u.fields.map (·.name) := by
    simpa [Function.comp_def] using congrArg (fun t => t.fields.map (·.name)) he.symm
  exact hnames ▸ hs.fields u hu

/-- Candidates depend on the names of tables and keys alone. -/
theorem candidatesOf_map {g : Table → Table} (hname : ∀ t, (g t).name = t.name)
    (hkey : ∀ t, (g t).primaryKey?.map (·.name) = t.primaryKey?.map (·.name)) (ts : List Table) :
    candidatesOf (ts.map g) = candidatesOf ts := by
  induction ts with
  | nil => rfl
  | cons t ts ih =>
    have ht := hkey t
    simp only [List.map_cons, candidatesOf, ih, hname]
    cases hold : t.primaryKey? with
    | none =>
      rw [hold, Option.map_none, Option.map_eq_none_iff] at ht
      rw [ht]
    | some key =>
      rw [hold, Option.map_some, Option.map_eq_some_iff] at ht
      obtain ⟨key', hnew, hsame⟩ := ht
      simp only [hnew, hsame]

theorem candidatesOf_unlinked (ts : List Table) :
    candidatesOf (ts.map Table.unlinked) = candidatesOf ts := by
  refine candidatesOf_map Table.unlinked_name (fun t => ?_) ts
  rw [Table.primaryKey?_unlinked, Option.map_map]
  rfl

/-- Tables without a key are no candidates. -/
theorem candidatesOf_filter {p : Table → Bool} {ts : List Table}
    (h : ∀ t ∈ ts, p t = false → t.primaryKey? = none) :
    candidatesOf (ts.filter p) = candidatesOf ts := by
  induction ts with
  | nil => rfl
  | cons t ts ih =>
    have hrest := ih fun u hu => h u (List.mem_cons_of_mem t hu)
    by_cases ht : p t = true
    · simp only [List.filter_cons, ht, if_true, candidatesOf, hrest]
    · have hnone := h t List.mem_cons_self (Bool.not_eq_true _ ▸ ht)
      rw [List.filter_cons_of_neg ht, hrest, candidatesOf, hnone]

theorem unlinked_infer (s : Schema) :
    s.infer.tables.map Table.unlinked = s.tables.map Table.unlinked :=
  linkTables_unlinked _ _

theorem DistinctNames.infer {s : Schema} (h : s.DistinctNames) : s.infer.DistinctNames :=
  h.of_unlinked s.unlinked_infer

theorem candidatesOf_infer (s : Schema) : candidatesOf s.infer.tables = candidatesOf s.tables := by
  rw [← candidatesOf_unlinked, unlinked_infer, candidatesOf_unlinked]

theorem edges_infer (s : Schema) : s.infer.edges.Perm (s.edges ++ s.inferred) := by
  rw [edges_eq_flatMap, edges_eq_flatMap]
  exact relationships_linkTables _ _

/-- No names need to be different for this. -/
theorem inconsistencies_infer {s : Schema} (h : s.inconsistencies = []) :
    s.infer.inconsistencies = [] := by
  obtain ⟨hperm, hnodup⟩ := inconsistencies_eq_nil_iff_perm.mp h
  have hp : s.infer.relationships.Perm s.infer.edges :=
    (hperm.append_right s.inferred).trans (edges_infer s).symm
  have hn : s.infer.relationships.Nodup := nodup_linkTables s.tables (hperm.nodup_iff.mpr hnodup)
  exact inconsistencies_eq_nil_iff_perm.mpr ⟨hp, hp.nodup_iff.mp hn⟩

/-- Linking neither breaks a schema nor repairs one, whatever names are repeated. -/
theorem inconsistencies_infer_eq_nil_iff (s : Schema) :
    s.infer.inconsistencies = [] ↔ s.inconsistencies = [] := by
  refine ⟨fun h => ?_, inconsistencies_infer⟩
  obtain ⟨hperm, hnodup⟩ := inconsistencies_eq_nil_iff_perm.mp h
  -- the links stand on both sides, so that what was there before is left
  have hlinked : (s.relationships ++ s.inferred).Perm (s.edges ++ s.inferred) :=
    hperm.trans (edges_infer s)
  have hedges : (s.edges ++ s.inferred).Nodup := (edges_infer s).nodup_iff.mp hnodup
  exact inconsistencies_eq_nil_iff_perm.mpr
    ⟨(List.perm_append_right_iff _).mp hlinked, (List.nodup_append.mp hedges).1⟩

/-- Nothing can be inferred exactly if no field gets a link. -/
theorem inferred_eq_nil_iff {s : Schema} :
    s.inferred = [] ↔ ∀ t ∈ s.tables, ∀ f ∈ t.fields,
      newLink? (candidatesOf s.tables) t.name s.relationships f = none :=
  linkTables_eq_nil_iff

theorem inferred_infer (s : Schema) : s.infer.inferred = [] := by
  have h := linkTables_linkTables (candidatesOf s.tables) s.relationships s.infer.relationships
    s.tables (List.Subset.refl _)
  simp only [inferred, candidatesOf_infer]
  exact congrArg Prod.snd h

/-- A schema to which nothing can be added stays as it is. -/
theorem infer_eq_self {s : Schema} (h : s.inferred = []) : s.infer = s := by
  have ht : s.infer.tables = s.tables := linkTables_eq_self h
  have hr : s.infer.relationships = s.relationships := by
    rw [infer, h, List.append_nil]
  rw [← show (⟨s.infer.tables, s.infer.relationships⟩ : Schema) = s.infer from rfl, ht, hr]

end Schema

end Schemata
