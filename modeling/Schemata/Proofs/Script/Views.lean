import Mathlib.Data.List.Basic
import Mathlib.Tactic
import Schemata.Proofs.Script.Drafts

/-!
# Views of default values

Default values are carried along and never looked at: seeing all of them through a view, or not
seeing them at all, can be done before a table is put together or after its links are inferred.
-/
namespace Schemata

/-- What counts of a default value. -/
abbrev View := Option String → Option String

variable (view : View)

/-- The field with what counts of its default value. -/
def Field.through (f : Field) : Field := { f with defaultValue := view f.defaultValue }

@[simp] theorem Field.through_name (f : Field) : (f.through view).name = f.name := rfl

@[simp] theorem Field.through_primaryKey (f : Field) :
    (f.through view).primaryKey = f.primaryKey := rfl

@[simp] theorem Field.through_foreignKey (f : Field) :
    (f.through view).foreignKey = f.foreignKey := rfl

@[simp] theorem Field.through_id (f : Field) : f.through id = f := rfl

/-- The table with what counts of its default values. -/
def Table.through (t : Table) : Table := { t with fields := t.fields.map (Field.through view) }

@[simp] theorem Table.through_name (t : Table) : (t.through view).name = t.name := rfl

@[simp] theorem Table.through_fields (t : Table) :
    (t.through view).fields = t.fields.map (Field.through view) := rfl

@[simp] theorem Table.through_id (t : Table) : t.through id = t := by
  obtain ⟨name, fields⟩ := t
  exact congrArg (Table.mk name) (List.map_id'' Field.through_id fields)

theorem Table.primaryKey?_through (t : Table) :
    (t.through view).primaryKey? = t.primaryKey?.map (Field.through view) := by
  simp only [Table.primaryKey?, Table.through_fields, List.find?_map, Function.comp_def,
    Field.through_primaryKey]

/-- The schema with what counts of its default values. -/
def Schema.through (s : Schema) : Schema := { s with tables := s.tables.map (Table.through view) }

@[simp] theorem Schema.through_id (s : Schema) : s.through id = s := by
  obtain ⟨tables, relationships⟩ := s
  exact congrArg (Schema.mk · relationships) (List.map_id'' Table.through_id tables)

variable {view}

/-! ## Inference -/

namespace Schema

variable {candidates : List Candidate}

theorem linkFields_through (table : String) (known : List Relationship) (fs : List Field) :
    linkFields candidates table known (fs.map (Field.through view)) =
      ((linkFields candidates table known fs).1.map (Field.through view),
        (linkFields candidates table known fs).2) := by
  induction fs generalizing known with
  | nil => rfl
  | cons f fs ih =>
    have hsame : newLink? candidates table known (f.through view) =
        newLink? candidates table known f := rfl
    rw [List.map_cons, linkFields, linkFields, hsame]
    cases newLink? candidates table known f with
    | none => simp only [ih, List.map_cons]
    | some r => simp only [ih, List.map_cons, Field.through]

theorem linkTables_through (known : List Relationship) (ts : List Table) :
    linkTables candidates known (ts.map (Table.through view)) =
      ((linkTables candidates known ts).1.map (Table.through view),
        (linkTables candidates known ts).2) := by
  induction ts generalizing known with
  | nil => rfl
  | cons t ts ih =>
    simp only [List.map_cons, linkTables, linkFields_through, ih, Table.through]

theorem candidatesOf_through (ts : List Table) :
    candidatesOf (ts.map (Table.through view)) = candidatesOf ts := by
  refine candidatesOf_map (Table.through_name view) (fun t => ?_) ts
  rw [Table.primaryKey?_through, Option.map_map]
  rfl

theorem infer_through (s : Schema) : (s.through view).infer = s.infer.through view := by
  simp only [infer, inferred, through, candidatesOf_through, linkTables_through]

end Schema

/-! ## Drafts -/

namespace Script

variable (view) in
/-- The column with what counts of its default value. -/
def Column.through (c : Column) : Column := { c with field := c.field.through view }

@[simp] theorem Column.through_id (c : Column) : c.through id = c := rfl

variable (view) in
/-- The draft with what counts of its default values. -/
def Draft.through (d : Draft) : Draft := { d with fields := d.fields.map (Field.through view) }

namespace Draft

@[simp] theorem through_name (d : Draft) : (d.through view).name = d.name := rfl

@[simp] theorem through_pending (d : Draft) : (d.through view).pending = d.pending := rfl

@[simp] theorem through_table (d : Draft) : (d.through view).table = d.table.through view := rfl

@[simp] theorem through_id (d : Draft) : d.through id = d := by
  obtain ⟨name, fields, pending, issues⟩ := d
  exact congrArg (Draft.mk name · pending issues) (List.map_id'' Field.through_id fields)

theorem through_names (d : Draft) :
    (d.through view).fields.map (·.name) = d.fields.map (·.name) := by
  simp [through, Function.comp_def]

theorem keep_through (d : Draft) (c : Column) :
    (d.through view).keep (c.through view) = (d.keep c).through view := by
  by_cases hmem : c.name ∈ d.fields.map (·.name)
  · rw [keep_of_mem hmem, keep_of_mem (through_names d ▸ hmem)]
  · rw [keep_of_not_mem hmem, keep_of_not_mem (through_names d ▸ hmem)]
    simp [through, Column.through, Column.name]

theorem setPrimaryKey_through (d : Draft) (name : String) :
    (d.through view).setPrimaryKey name = (d.setPrimaryKey name).through view := by
  simp only [setPrimaryKey, through, List.map_map]
  congr 1
  refine List.map_congr_left fun f _ => ?_
  simp only [Function.comp_apply, Field.through_name]
  by_cases hf : f.name = name
  · simp only [hf, if_true, Field.through]
  · simp only [hf, if_false]

theorem refer_through (d : Draft) (name : String) (target : Phrase.Target) :
    (d.through view).refer name target = (d.refer name target).through view := by
  simp only [refer, through_names, through_pending]
  split <;> rfl

theorem meet_through (d : Draft) (demand : Demand) :
    (d.through view).meet demand = (d.meet demand).through view := by
  cases demand with
  | key name => exact setPrimaryKey_through d name
  | reference name target => exact refer_through d name target
  | nothing => rfl

theorem foldl_keep_through (d : Draft) (cs : List Column) :
    (cs.map (Column.through view)).foldl keep (d.through view) =
      (cs.foldl keep d).through view := by
  rw [List.foldl_map]
  exact List.foldl_hom (Draft.through view) keep_through

theorem foldl_meet_through (d : Draft) (ks : List Demand) :
    ks.foldl meet (d.through view) = (ks.foldl meet d).through view :=
  List.foldl_hom (Draft.through view) meet_through

theorem assemble_through (name : String) (columns : List Column) (demands : List Demand) :
    assemble name (columns.map (Column.through view)) demands =
      (assemble name columns demands).through view := by
  rw [assemble, assemble, ← foldl_meet_through, ← foldl_keep_through]
  rfl

end Draft

theorem map_through_addNew (ds : List Draft) (d : Draft) :
    (addNew ds d).map (Draft.through view) =
      addNew (ds.map (Draft.through view)) (d.through view) := by
  have hnames : (ds.map (Draft.through view)).map (·.name) = ds.map (·.name) := by
    simp [Function.comp_def]
  by_cases hmem : d.name ∈ ds.map (·.name)
  · rw [addNew_of_mem hmem, addNew_of_mem (hnames ▸ hmem)]
  · rw [addNew_of_not_mem hmem, addNew_of_not_mem (hnames ▸ hmem), List.map_append,
      List.map_singleton]

theorem map_through_foldl_addNew (ds new : List Draft) :
    (new.foldl addNew ds).map (Draft.through view) =
      (new.map (Draft.through view)).foldl addNew (ds.map (Draft.through view)) := by
  rw [List.foldl_map]
  exact (List.foldl_hom (List.map (Draft.through view)) fun ds d =>
    (map_through_addNew ds d).symm).symm

/-! ## References -/

theorem resolve?_through (tables : List Table) (t : Phrase.Target) :
    resolve? (tables.map (Table.through view)) t = resolve? tables t := by
  obtain ⟨table, column⟩ := t
  cases column with
  | some column => rfl
  | none =>
    have hfind : (tables.map (Table.through view)).find? (·.name = table) =
        (tables.find? (·.name = table)).map (Table.through view) := by
      rw [List.find?_map]
      rfl
    simp only [resolve?, hfind]
    cases tables.find? (·.name = table) with
    | none => rfl
    | some found =>
      simp only [Option.map_some, Option.bind_some, Table.primaryKey?_through, Option.map_map]
      rfl

theorem setReference_through (t : Table) (field : String) (r : Reference) :
    setReference (t.through view) field r = (setReference t field r).through view := by
  simp only [setReference, Table.through, List.map_map]
  congr 1
  refine List.map_congr_left fun f _ => ?_
  simp only [Function.comp_apply, Field.through_name]
  by_cases hf : f.name = field
  · simp only [hf, if_true, Field.through]
  · simp only [hf, if_false]

theorem foldl_attach_through (tables : List Table) (pending : List Pending) (t : Table) :
    pending.foldl (attach (tables.map (Table.through view))) (t.through view) =
      (pending.foldl (attach tables) t).through view := by
  refine List.foldl_hom (Table.through view) fun t p => ?_
  rw [attach, attach, resolve?_through]
  cases resolve? tables p.target with
  | none => rfl
  | some r => exact setReference_through t p.field r

theorem linked_through (ds : List Draft) :
    linked (ds.map (Draft.through view)) = (linked ds).through view := by
  have htables : (ds.map (Draft.through view)).map Draft.table =
      (ds.map Draft.table).map (Table.through view) := by
    simp [Function.comp_def]
  have hedge : edge? ((ds.map Draft.table).map (Table.through view)) =
      edge? (ds.map Draft.table) := by
    funext table p
    rw [edge?, edge?, resolve?_through]
  simp only [linked, htables, hedge, Schema.through]
  generalize ds.map Draft.table = tables
  congr 1
  · rw [List.map_map, List.map_map]
    exact List.map_congr_left fun d _ => foldl_attach_through tables d.pending d.table
  · rw [List.flatMap_map]
    rfl

end Script

end Schemata
