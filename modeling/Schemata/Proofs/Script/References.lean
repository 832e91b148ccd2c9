import Mathlib.Data.List.Perm.Basic
import Mathlib.Tactic
import Schemata.Proofs.Script.Declarations
import Schemata.Proofs.Script.Declared
import Schemata.Proofs.Script.Reordered

/-!
# References and relationships

The relationships of a script are those of its declared references, in the order of the
declarations, and then those that the names of the remaining fields stand for. Which column a
reference without one means is read off the finished schema, wherever its table is declared.
-/
namespace Schemata

/-! ## The relationship of a field -/

/-- Whether a relationship leaves a given field. -/
def Relationship.leaves (table field : String) (r : Relationship) : Bool :=
  r.fromTable = table && r.fromField = field

namespace Schema

variable {s : Schema}

/-- A relationship is the edge of the field that it leaves. -/
theorem WellFormed.exists_field (h : s.WellFormed) {table field : String} {r : Reference}
    (hr : r.relationship table field ∈ s.relationships) :
    ∃ t ∈ s.tables, t.name = table ∧ ∃ f ∈ t.fields, f.name = field ∧ f.foreignKey = some r := by
  have hperm := h.distinctNames.inconsistencies_eq_nil_iff.mp h.consistent
  obtain ⟨t, ht, hedge⟩ := mem_edges.mp (hperm.mem_iff.mp hr)
  obtain ⟨f, hf, ref, href, hsame⟩ := Table.mem_relationships.mp hedge
  simp only [Reference.relationship, Relationship.mk.injEq] at hsame
  obtain ⟨htable, hfield, hto, hcolumn⟩ := hsame
  have hr : ref = r := by
    cases ref
    cases r
    simp_all
  exact ⟨t, ht, htable, f, hf, hfield, hr ▸ href⟩

/-- No other relationship leaves the field. -/
theorem WellFormed.filter_leaves (h : s.WellFormed) {table field : String} {r : Reference}
    (hr : r.relationship table field ∈ s.relationships) :
    s.relationships.filter (·.leaves table field) = [r.relationship table field] := by
  have hperm := h.distinctNames.inconsistencies_eq_nil_iff.mp h.consistent
  have hnodup := hperm.nodup_iff.mpr h.distinctNames.nodup_edges
  obtain ⟨t, ht, htable, f, hf, hfield, hkey⟩ := h.exists_field hr
  refine List.perm_singleton.mp ?_
  refine (List.perm_ext_iff_of_nodup (hnodup.filter _) (List.nodup_singleton _)).mpr fun e => ?_
  rw [List.mem_filter, List.mem_singleton]
  constructor
  · rintro ⟨he, hleaves⟩
    simp only [Relationship.leaves, Bool.and_eq_true, decide_eq_true_eq] at hleaves
    have hedge : e.target.relationship table field = e := by
      rw [← hleaves.1, ← hleaves.2]
      rfl
    obtain ⟨u, hu, hutable, g, hg, hgfield, hgkey⟩ := h.exists_field (hedge.symm ▸ he)
    obtain rfl := List.inj_on_of_nodup_map h.tableNames hu ht (hutable.trans htable.symm)
    obtain rfl := List.inj_on_of_nodup_map (h.tables u hu).names hg hf (hgfield.trans hfield.symm)
    rw [← hedge, Option.some.inj (hgkey.symm.trans hkey)]
  · rintro rfl
    exact ⟨hr, by simp [Relationship.leaves, Reference.relationship]⟩

end Schema

namespace Script

/-! ## What a reference means -/

/-- The column that a target stands for in a schema: the one that is named, or else the first
primary key of the first table of the name. -/
inductive Resolves (s : Schema) : Phrase.Target → Reference → Prop
  | column (table column : String) : Resolves s ⟨table, some column⟩ ⟨table, column⟩
  | key {table : String} {t : Table} {key : Field} (ht : s.table? table = some t)
      (hkey : t.primaryKey? = some key) : Resolves s ⟨table, none⟩ ⟨table, key.name⟩

theorem resolve?_eq_some_iff {s : Schema} {target : Phrase.Target} {r : Reference} :
    resolve? s.tables target = some r ↔ Resolves s target r := by
  obtain ⟨table, _ | column⟩ := target
  · constructor
    · intro h
      obtain ⟨key, hkey, rfl⟩ := Option.map_eq_some_iff.mp h
      obtain ⟨t, ht, hkey⟩ := Option.bind_eq_some_iff.mp hkey
      exact .key ht hkey
    · rintro (_ | ⟨ht, hkey⟩)
      rw [Schema.table?] at ht
      simp only [resolve?, ht, Option.bind_some, hkey, Option.map_some]
  · constructor
    · intro h
      obtain rfl := Option.some.inj h
      exact .column table column
    · rintro (_ | _)
      rfl

theorem resolve?_eq_none_iff {s : Schema} {target : Phrase.Target} :
    resolve? s.tables target = none ↔ ∀ r, ¬Resolves s target r := by
  simp only [← resolve?_eq_some_iff, Option.eq_none_iff_forall_ne_some, ne_eq]

/-- Declared references have no part in what a target stands for. -/
theorem resolve?_unlinked (ts : List Table) : resolve? (ts.map Table.unlinked) = resolve? ts := by
  funext target
  have hfind : (ts.map Table.unlinked).find? (·.name = target.table) =
      (ts.find? (·.name = target.table)).map Table.unlinked := by
    rw [List.find?_map]
    rfl
  rw [resolve?, resolve?, hfind]
  cases target.column with
  | some column => rfl
  | none =>
    cases ts.find? (·.name = target.table) with
    | none => rfl
    | some t =>
      simp only [Option.map_some, Option.bind_some, Table.primaryKey?_unlinked, Option.map_map]
      rfl

/-! ## Reports -/

theorem Resolved.add_issues (tables : List Table) (resolved : Resolved) (p : Pending) :
    (resolved.add tables p).issues = resolved.issues ++
      if resolve? tables p.target = none then
        [.unresolvedReference resolved.table.name p.field p.target.table] else [] := by
  rw [Resolved.add]
  cases resolve? tables p.target <;> simp

/-- Every reference that is left open is reported. -/
theorem Draft.mem_issues_resolved {tables : List Table} {d : Draft} {p : Pending}
    (hp : p ∈ d.pending) (hopen : resolve? tables p.target = none) :
    .unresolvedReference d.name p.field p.target.table ∈ (d.resolved tables).issues := by
  have hgen : ∀ (pending : List Pending) (resolved : Resolved),
      (pending.foldl (·.add tables) resolved).table.name = resolved.table.name ∧
        resolved.issues ⊆ (pending.foldl (·.add tables) resolved).issues ∧
        (p ∈ pending → .unresolvedReference resolved.table.name p.field p.target.table ∈
          (pending.foldl (·.add tables) resolved).issues) := by
    intro pending
    induction pending with
    | nil => exact fun resolved => ⟨rfl, List.Subset.refl _, fun h => absurd h List.not_mem_nil⟩
    | cons q pending ih =>
      intro resolved
      obtain ⟨hname, hkept, hall⟩ := ih (resolved.add tables q)
      have hsame : (resolved.add tables q).table.name = resolved.table.name := by
        rw [Resolved.add_table, attach_name]
      have hissues := Resolved.add_issues tables resolved q
      rw [List.foldl_cons]
      refine ⟨hname.trans hsame, fun issue hi => hkept ?_, fun hmem => ?_⟩
      · rw [hissues]
        exact List.mem_append_left _ hi
      · rcases List.mem_cons.mp hmem with rfl | hmem
        · refine hkept ?_
          rw [hissues, if_pos hopen]
          exact List.mem_append_right _ (List.mem_singleton.mpr rfl)
        · exact hsame ▸ hall hmem
  exact (hgen d.pending ⟨d.table, [], []⟩).2.2 hp

/-! ## Scripts -/

/-- The declarations of a text. -/
def declarationsIn (tokenize : Tokenizer) (text : List Char) : List Declaration :=
  declarations (statements tokenize (Response.script text)).1

/-- The relationships of the references of a declaration, those of its columns first. -/
def Declaration.relationships (s : Schema) (d : Declaration) : List Relationship :=
  d.references.filterMap (edge? s.tables d.name)

variable (tokenize : Tokenizer) (text : List Char)

theorem draftsOf_statements :
    draftsOf (statements tokenize (Response.script text)).1 =
      (declarationsIn tokenize text).map Declaration.draft :=
  draftsOf_eq_declarations _

/-- References are resolved among the tables that come out in the end. -/
theorem resolve?_drafts :
    resolve? (((declarationsIn tokenize text).map Declaration.draft).map Draft.table) =
      resolve? (read tokenize text).schema.tables := by
  have hunlinked : (((declarationsIn tokenize text).map Declaration.draft).map Draft.table).map
      Table.unlinked = (read tokenize text).schema.tables.map Table.unlinked := by
    rw [schema_read, unlinked_linked, draftsOf_statements, List.map_map (g := Table.unlinked)]
    rfl
  rw [← resolve?_unlinked, hunlinked, resolve?_unlinked]

theorem relationships_readDeclared :
    (readDeclared tokenize text).schema.relationships =
      (declarationsIn tokenize text).flatMap (·.relationships (read tokenize text).schema) := by
  rw [schema_readDeclared, draftsOf_statements, linked, List.flatMap_map]
  refine List.flatMap_congr fun d _ => ?_
  rw [Declaration.relationships, Declaration.pending_draft, Declaration.draft_name]
  refine List.filterMap_congr fun p _ => ?_
  rw [edge?, edge?, resolve?_drafts]

theorem names_read : (read tokenize text).schema.tables.map (·.name) =
    (declarationsIn tokenize text).map Declaration.name := by
  rw [schema_read, names_linked, draftsOf_statements, List.map_map]
  exact List.map_congr_left fun d _ => d.draft_name

/-- A text has an issue for each reference that is left open. -/
theorem mem_issues_read {d : Declaration} (hd : d ∈ declarationsIn tokenize text) {p : Pending}
    (hp : p ∈ d.references) (hopen : resolve? (read tokenize text).schema.tables p.target = none) :
    .unresolvedReference d.name p.field p.target.table ∈ (read tokenize text).issues := by
  obtain ⟨progress, hprogress⟩ : ∃ progress : Progress,
      (read tokenize text).issues = (declared progress).issues ∧
        progress.drafts.map Draft.quiet = (declarationsIn tokenize text).map Declaration.draft := by
    refine ⟨_, rfl, ?_⟩
    rw [quiet_drafts_foldl, ← draftsOf_statements]
    rfl
  obtain ⟨hissues, hdrafts⟩ := hprogress
  have htables : progress.drafts.map Draft.table =
      ((declarationsIn tokenize text).map Declaration.draft).map Draft.table := by
    rw [← hdrafts, List.map_map]
    rfl
  obtain ⟨e, he, hquiet⟩ := List.mem_map.mp (hdrafts ▸ List.mem_map_of_mem hd)
  have hname : e.name = d.name := (congrArg Draft.name hquiet).trans d.draft_name
  have hpending : p ∈ e.pending := by
    rw [← e.quiet_pending, hquiet, d.pending_draft]
    exact hp
  rw [← resolve?_drafts, ← htables] at hopen
  have hissue := Draft.mem_issues_resolved hpending hopen
  rw [hname] at hissue
  rw [hissues, declared]
  refine List.mem_append_right _ (List.mem_flatMap.mpr ⟨_, ?_, hissue⟩)
  exact List.mem_map_of_mem he

/-- A reference that is left open leaves no declared relationship behind. -/
theorem not_leaves_of_open {d : Declaration} (hd : d ∈ declarationsIn tokenize text) {p : Pending}
    (hp : p ∈ d.references) (hopen : resolve? (read tokenize text).schema.tables p.target = none) :
    ∀ e ∈ (readDeclared tokenize text).schema.relationships, e.leaves d.name p.field = false := by
  intro e he
  rw [relationships_readDeclared, List.mem_flatMap] at he
  obtain ⟨d', hd', he⟩ := he
  obtain ⟨q, hq, hedge⟩ := List.mem_filterMap.mp he
  obtain ⟨r, hr, rfl⟩ := Option.map_eq_some_iff.mp hedge
  by_contra hleaves
  rw [Bool.not_eq_false, Relationship.leaves, Bool.and_eq_true, decide_eq_true_eq,
    decide_eq_true_eq] at hleaves
  obtain ⟨htable, hfield⟩ := hleaves
  obtain rfl := List.inj_on_of_nodup_map (nodup_names_firsts _) hd' hd htable
  -- one field waits for one reference at most
  have hdraft : d'.draft ∈ draftsOf (statements tokenize (Response.script text)).1 := by
    rw [draftsOf_statements]
    exact List.mem_map_of_mem hd'
  have honce := (sound_of_mem_draftsOf hdraft).pendingOnce
  rw [d'.pending_draft] at honce
  obtain rfl := List.inj_on_of_nodup_map honce hq hp hfield
  rw [hopen] at hr
  cases hr

/-- The relationships of any text. The declared ones come first, by the order of the tables and in
each table by that of the columns and then of the clauses; behind them stand the inferred ones, in
the order of tables and fields. A reference that finds its column is the only relationship of its
field, and one that finds none is reported and declares nothing. -/
theorem read_references :
    (read tokenize text).schema.tables.map (·.name) =
        (declarationsIn tokenize text).map Declaration.name ∧
      (readDeclared tokenize text).schema.relationships =
        (declarationsIn tokenize text).flatMap (·.relationships (read tokenize text).schema) ∧
      (read tokenize text).schema.relationships =
        (readDeclared tokenize text).schema.relationships ++
          (readDeclared tokenize text).schema.tables.flatMap
            (·.links (Schema.candidatesOf (read tokenize text).schema.tables)) ∧
      ∀ d ∈ declarationsIn tokenize text, ∀ p ∈ d.references,
        (∀ r, Resolves (read tokenize text).schema p.target r →
          (read tokenize text).schema.relationships.filter (·.leaves d.name p.field) =
              [r.relationship d.name p.field] ∧
            ∃ t ∈ (read tokenize text).schema.tables, t.name = d.name ∧
              ∃ f ∈ t.fields, f.name = p.field ∧ f.foreignKey = some r) ∧
        ((∀ r, ¬Resolves (read tokenize text).schema p.target r) →
          (∀ e ∈ (readDeclared tokenize text).schema.relationships,
              e.leaves d.name p.field = false) ∧
            .unresolvedReference d.name p.field p.target.table ∈ (read tokenize text).issues) := by
  have hdeclared := readDeclared_wellFormed tokenize text
  have hwell : (read tokenize text).schema.WellFormed := readScript_wellFormed tokenize _
  have hall : (read tokenize text).schema.relationships =
      (readDeclared tokenize text).schema.relationships ++
        (readDeclared tokenize text).schema.tables.flatMap
          (·.links (Schema.candidatesOf (read tokenize text).schema.tables)) := by
    rw [read_eq_infer, Schema.candidatesOf_infer,
      ← hdeclared.distinctNames.inferred_eq hdeclared.consistent]
    rfl
  refine ⟨names_read tokenize text, relationships_readDeclared tokenize text, hall,
    fun d hd p hp => ⟨fun r hr => ?_, fun hopen => ?_⟩⟩
  · have hedge : r.relationship d.name p.field ∈ (read tokenize text).schema.relationships := by
      rw [hall, relationships_readDeclared]
      refine List.mem_append_left _ (List.mem_flatMap.mpr ⟨d, hd, ?_⟩)
      refine List.mem_filterMap.mpr ⟨p, hp, ?_⟩
      rw [edge?, resolve?_eq_some_iff.mpr hr, Option.map_some]
    exact ⟨hwell.filter_leaves hedge, hwell.exists_field hedge⟩
  · have hnone := resolve?_eq_none_iff.mpr hopen
    exact ⟨not_leaves_of_open tokenize text hd hp hnone, mem_issues_read tokenize text hd hp hnone⟩

end Script

end Schemata
