import Mathlib.Tactic
import Schemata.Proofs.Migration.References

/-!
# Tables without columns

The script of a schema leaves out the tables without fields, but the changes between two schemas
look for tables by their names only. They fit the tables that are created as long as no table of
both schemas has fields in one of them only.
-/
namespace Schemata

namespace Schema

/-- A table of both schemas has fields in both or in neither. -/
def KeepsFields (previous current : Schema) : Prop :=
  ∀ old ∈ previous.tables, ∀ t ∈ current.tables, old.name = t.name →
    (old.fields = [] ↔ t.fields = [])

/-- A schema without its tables that have no fields. -/
def withFields (s : Schema) : Schema := { s with tables := s.creatable }

theorem DistinctNames.withFields {s : Schema} (h : s.DistinctNames) : s.withFields.DistinctNames :=
  ⟨h.tables.sublist (List.filter_sublist.map _), fun t ht => h.fields t (List.mem_of_mem_filter ht)⟩

theorem fields_ne_nil_of_creatable {s : Schema} {t : Table} (ht : t ∈ s.creatable) :
    t.fields ≠ [] := by
  simpa using (List.mem_filter.mp ht).2

end Schema

namespace Alteration

variable {db after : Database} {alteration : Alteration}

/-- The database after an alteration that can be run. Unlike the others, that which drops a table
asks for nothing: it drops the table if it exists. -/
def executed? (db : Database) : Alteration → Option Database
  | .dropTable table => some (Function.update db table none)
  | alteration => alteration.made? db

theorem exists_update_of_executed? (h : alteration.executed? db = some after) :
    ∃ columns, after = Function.update db alteration.table columns := by
  have hmade : ∀ a : Alteration, a.made? db = some after →
      ∃ columns, after = Function.update db a.table columns := fun a ha =>
    (exists_update_of_made? ha).imp fun _ hcolumns => hcolumns.1
  cases alteration with
  | dropTable table => exact ⟨none, (Option.some.inj h).symm⟩
  | _ => exact hmade _ h

theorem executed?_of_made? (h : alteration.made? db = some after) :
    alteration.executed? db = some after := by
  cases alteration with
  | dropTable table =>
    simp only [made?] at h
    split_ifs at h
    exact h
  | _ => exact h

end Alteration

namespace Change

open Database

variable {db after : Database} {previous current : Schema} {old t : Table} {change : Change}
  {d : Dialect}

/-! ## Running statements -/

/-- The database after the statement of a change, if the statement can be run. -/
def executed? (db : Database) (change : Change) : Option Database :=
  change.alteration.executed? db

/-- The database after some statements, run one after the other. -/
def execute? (db : Database) (changes : List Change) : Option Database :=
  changes.foldlM executed? db

theorem execute?_append (db : Database) (changes later : List Change) :
    execute? db (changes ++ later) = (execute? db changes).bind (execute? · later) :=
  List.foldlM_append

theorem execute?_cons (db : Database) (change : Change) (changes : List Change) :
    execute? db (change :: changes) = (executed? db change).bind (execute? · changes) :=
  List.foldlM_cons

theorem execute?_of_run? {changes : List Change} (h : run? db changes = some after) :
    execute? db changes = some after := by
  induction changes generalizing db with
  | nil => exact h
  | cons change changes ih =>
    obtain ⟨next, hnext, hlater⟩ := Option.bind_eq_some_iff.mp h
    rw [execute?_cons, executed?, Alteration.executed?_of_made? hnext]
    exact ih hlater

theorem execute?_dropTables (db : Database) (ts : List Table) :
    execute? db (ts.map (.dropTable ·.name)) =
      some fun name => if name ∈ ts.map (·.name) then none else db name := by
  induction ts generalizing db with
  | nil => rfl
  | cons t ts ih =>
    have hstep : executed? db (.dropTable t.name) = some (Function.update db t.name none) := rfl
    rw [List.map_cons, execute?_cons, hstep, Option.bind_some, ih]
    congr 1
    funext name
    by_cases hname : name = t.name
    · simp [hname]
    · simp [hname]

/-! ## Creating tables -/

theorem between_empty (s : Schema) : between {} s = s.creatable.map .createTable := by
  have htable : ∀ t : Table, toTable {} t = if t.fields = [] then [] else [.createTable t] :=
    fun _ => rfl
  have hnone : between {} s = s.tables.flatMap fun t =>
      if t.fields = [] then [] else [.createTable t] := List.append_nil _
  rw [hnone, Schema.creatable]
  induction s.tables with
  | nil => rfl
  | cons t ts ih =>
    rw [List.flatMap_cons, ih]
    by_cases hempty : t.fields = [] <;> simp [hempty]

/-- The script of a schema, run on an empty database, leaves the tables with fields. -/
theorem execute?_creatable (h : current.DistinctNames) :
    execute? (fun _ => none) (current.creatable.map .createTable) =
      some (ofTables current.creatable) := by
  apply execute?_of_run?
  have hempty : Schema.DistinctNames {} := ⟨List.nodup_nil, by simp⟩
  have hrun := run?_ofTables hempty h.withFields fun t => Schema.fields_ne_nil_of_creatable
  have hall : current.withFields.creatable = current.creatable := by
    simp [Schema.withFields, Schema.creatable]
  rw [between_empty, hall] at hrun
  exact hrun

/-! ## Where fields are kept -/

/-- Only tables with fields ask for changes, and only tables with fields are looked at for it. -/
theorem toTable_withFields (hp : previous.DistinctNames) (h : previous.KeepsFields current)
    (ht : t ∈ current.tables) :
    toTable previous t = if t.fields = [] then [] else toTable previous.withFields t := by
  cases hold : previous.table? t.name with
  | none =>
    have hnone : previous.withFields.table? t.name = none := by
      rw [Schema.table?, List.find?_eq_none] at hold ⊢
      exact fun u hu => hold u (List.mem_of_mem_filter hu)
    simp only [toTable, hold, hnone]
    split_ifs <;> rfl
  | some old =>
    obtain ⟨hmem, hname⟩ := hp.table?_eq_some_iff.mp hold
    have hkeeps := h old hmem t ht hname
    by_cases hempty : t.fields = []
    · simp [toTable, hold, ofTable, hempty, hkeeps.mpr hempty]
    · have hcreatable : old ∈ previous.creatable :=
        List.mem_filter.mpr ⟨hmem, by simpa using mt hkeeps.mp hempty⟩
      have hsome : previous.withFields.table? t.name = some old :=
        hp.withFields.table?_eq_some_iff.mpr ⟨hcreatable, hname⟩
      simp only [toTable, hold, hsome, if_neg hempty]

theorem flatMap_toTable_withFields (hp : previous.DistinctNames)
    (h : previous.KeepsFields current) :
    current.tables.flatMap (toTable previous) =
      current.creatable.flatMap (toTable previous.withFields) := by
  have hall : ∀ ts : List Table, (∀ t ∈ ts, t ∈ current.tables) →
      ts.flatMap (toTable previous) =
        (ts.filter (·.fields ≠ [])).flatMap (toTable previous.withFields) := by
    intro ts
    induction ts with
    | nil => exact fun _ => rfl
    | cons t ts ih =>
      intro hts
      rw [List.flatMap_cons, ih fun u hu => hts u (List.mem_cons_of_mem t hu),
        toTable_withFields hp h (hts t List.mem_cons_self)]
      by_cases hempty : t.fields = [] <;> simp [hempty]
  exact hall current.tables fun _ ht => ht

/-- The changes lead from the created tables of the one schema to those of the other. -/
theorem execute?_of_keepsFields (hp : previous.DistinctNames) (hc : current.DistinctNames)
    (h : previous.KeepsFields current) :
    execute? (ofTables previous.creatable) (between previous current) =
      some (ofTables current.creatable) := by
  have hturns : execute? (ofTables previous.creatable)
      (current.creatable.flatMap (toTable previous.withFields)) = some fun name =>
        if name ∈ current.creatable.map (·.name) then ofTables current.creatable name
        else ofTables previous.creatable name :=
    execute?_of_run? (run?_toTables hp.withFields hc.withFields.tables hc.withFields.fields
      (fun _ => Schema.fields_ne_nil_of_creatable) fun _ _ => rfl)
  rw [between, execute?_append, flatMap_toTable_withFields hp h, hturns, Option.bind_some,
    execute?_dropTables]
  congr 1
  funext name
  simp only [mem_left_iff]
  by_cases hcreated : name ∈ current.creatable.map (·.name)
  · obtain ⟨t, ht, rfl⟩ := List.mem_map.mp hcreated
    have hcurrent : t.name ∈ current.tables.map (·.name) :=
      List.mem_map_of_mem (List.mem_of_mem_filter ht)
    rw [if_neg fun hleft => hleft.2 hcurrent, if_pos hcreated]
  · rw [ofTables_eq_none_iff.mpr hcreated, if_neg hcreated]
    split_ifs with hleft
    · rfl
    · rw [ofTables_eq_none_iff]
      intro hprevious
      obtain ⟨old, hold, rfl⟩ := List.mem_map.mp hprevious
      have hmem := List.mem_of_mem_filter hold
      -- a table with fields that is not dropped is a table of the current schema, with fields
      have hstays : old.name ∈ current.tables.map (·.name) := by
        by_contra hgone
        exact hleft ⟨List.mem_map_of_mem hmem, hgone⟩
      obtain ⟨t, ht, hname⟩ := List.mem_map.mp hstays
      have hfields : t.fields ≠ [] :=
        mt (h old hmem t ht hname.symm).mpr (Schema.fields_ne_nil_of_creatable hold)
      have hfilled : t ∈ current.creatable := List.mem_filter.mpr ⟨ht, by simpa using hfields⟩
      exact hcreated (hname ▸ List.mem_map_of_mem hfilled)

/-! ## Where they are not -/

theorem alteration_table (change : Change) : change.alteration.table = change.table := by
  cases change <;> rfl

theorem executed?_other {name : String} (h : executed? db change = some after)
    (hne : change.table ≠ name) : after name = db name := by
  obtain ⟨columns, rfl⟩ := Alteration.exists_update_of_executed? h
  rw [alteration_table, Function.update_of_ne hne.symm]

/-- Statements about other tables leave a table as it is. -/
theorem execute?_other {name : String} {changes : List Change}
    (h : execute? db changes = some after) (hne : ∀ change ∈ changes, change.table ≠ name) :
    after name = db name := by
  induction changes generalizing db with
  | nil =>
    obtain rfl := Option.some.inj h
    rfl
  | cons change changes ih =>
    rw [execute?_cons] at h
    obtain ⟨next, hnext, hlater⟩ := Option.bind_eq_some_iff.mp h
    rw [ih hlater fun c hc => hne c (List.mem_cons_of_mem change hc),
      executed?_other hnext (hne change List.mem_cons_self)]

/-- A table that was not created gets no columns. -/
theorem execute?_ofTable_absent (hold : old.fields = []) (hne : t.fields ≠ [])
    (hdb : db t.name = none) : execute? db (ofTable old t) = none := by
  obtain ⟨f, fs, hfields⟩ := List.exists_cons_of_ne_nil hne
  have hfirst : executed? db (.addColumn t.name f) = none := by
    simp [executed?, alteration, Alteration.executed?, Alteration.made?, hdb]
  simp [ofTable, Table.field?, hold, hfields, execute?_cons, hfirst]

/-- The last of all columns of a table is not dropped. -/
theorem execute?_dropColumns_all {table : String} {fs : List Field} {columns : Finset String}
    (hdb : db table = some columns) (hn : (fs.map (·.name)).Nodup) (hne : fs ≠ [])
    (hall : (fs.map (·.name)).toFinset = columns) :
    execute? db (fs.map (.dropColumn table ·.name)) = none := by
  induction fs generalizing db columns with
  | nil => exact absurd rfl hne
  | cons f fs ih =>
    obtain ⟨hf, hn⟩ := List.nodup_cons.mp hn
    have hrest : columns.erase f.name = (fs.map (·.name)).toFinset := by
      rw [← hall, List.map_cons, List.toFinset_cons, Finset.erase_insert (by simpa using hf)]
    have hstep : executed? db (.dropColumn table f.name) =
        if f.name ∈ columns ∧ columns ≠ {f.name} then
          some (Function.update db table (some (columns.erase f.name)))
        else none := by
      simp [executed?, alteration, Alteration.executed?, Alteration.made?, hdb]
    rw [List.map_cons, execute?_cons, hstep]
    split_ifs with hdrop
    · refine ih (Function.update_self ..) hn ?_ hrest.symm
      rintro rfl
      exact hdrop.2 (by simpa using hall.symm)
    · rfl

/-- A table that gets its first columns or loses its last ones stops the run. -/
theorem execute?_toTable_of_not_iff (hp : previous.DistinctNames) (hold : old ∈ previous.tables)
    (hname : old.name = t.name) (hdiffer : ¬(old.fields = [] ↔ t.fields = []))
    (hdb : db t.name = ofTables previous.creatable t.name) :
    execute? db (toTable previous t) = none := by
  have hfound : previous.table? t.name = some old := hp.table?_eq_some_iff.mpr ⟨hold, hname⟩
  simp only [toTable, hfound]
  by_cases hempty : old.fields = []
  · have hne : t.fields ≠ [] := fun ht => hdiffer (iff_of_true hempty ht)
    refine execute?_ofTable_absent hempty hne ?_
    rw [hdb, ofTables_eq_none_iff]
    intro hcreated
    obtain ⟨u, hu, huname⟩ := List.mem_map.mp hcreated
    obtain rfl := List.inj_on_of_nodup_map hp.tables (List.mem_of_mem_filter hu) hold
      (huname.trans hname.symm)
    exact Schema.fields_ne_nil_of_creatable hu hempty
  · have ht : t.fields = [] := by
      by_contra hne
      exact hdiffer (iff_of_false hempty hne)
    have hcreated : old ∈ previous.creatable := List.mem_filter.mpr ⟨hold, by simpa using hempty⟩
    have hcolumns : db t.name = some old.columns := by
      rw [hdb, ← hname]
      exact ofTables_of_mem hp.withFields.tables hcreated
    have hdrops : ofTable old t = old.fields.map (.dropColumn t.name ·.name) := by
      simp [ofTable, Table.field?, ht]
    rw [hdrops]
    exact execute?_dropColumns_all hcolumns (hp.fields old hold) hempty rfl

theorem execute?_of_not_keepsFields (hp : previous.DistinctNames) (hc : current.DistinctNames)
    (h : ¬previous.KeepsFields current) :
    execute? (ofTables previous.creatable) (between previous current) = none := by
  simp only [Schema.KeepsFields, not_forall] at h
  obtain ⟨old, hold, t, ht, hname, hdiffer⟩ := h
  obtain ⟨before, later, htables⟩ := List.append_of_mem ht
  have hother : ∀ u ∈ before, u.name ≠ t.name := by
    intro u hu he
    have hn := hc.tables
    rw [htables, List.map_append, List.map_cons] at hn
    exact (List.nodup_append.mp hn).2.2 _ (List.mem_map_of_mem hu) _ List.mem_cons_self he
  have hsplit : between previous current = before.flatMap (toTable previous) ++
      (toTable previous t ++ (later.flatMap (toTable previous) ++
        (previous.tables.reverse.filter fun t => (current.table? t.name).isNone).map
          (.dropTable ·.name))) := by
    simp [between, htables]
  rw [hsplit, execute?_append]
  cases hbefore : execute? (ofTables previous.creatable) (before.flatMap (toTable previous)) with
  | none => rfl
  | some db =>
    have hdb : db t.name = ofTables previous.creatable t.name := by
      refine execute?_other hbefore fun change hchange => ?_
      obtain ⟨u, hu, hchange⟩ := List.mem_flatMap.mp hchange
      rw [(table_of_mem_toTable hchange).1]
      exact hother u hu
    rw [Option.bind_some, execute?_append, execute?_toTable_of_not_iff hp hold hname hdiffer hdb]
    rfl

/-! ## Both -/

theorem script_eq_statements (s : Schema) (d : Dialect) :
    s.script d = "\n\n".intercalate ((s.creatable.map .createTable).map (statement s d)) := by
  rw [Schema.script, List.map_map]
  rfl

/-- The statements between legible schemas are executed as the changes are. -/
theorem runWith_executed?_between (hp : previous.Legible d) (hc : current.Legible d)
    (hn : current.DistinctNames) (db : Database) :
    Alteration.runWith Alteration.executed? db
      ((between previous current).map (statement current d)) =
      execute? db (between previous current) :=
  runWith_statements (fun _ => read?_of_mem_between hp hc hn) db

theorem runWith_executed?_creatable (h : current.Legible d) (hn : current.DistinctNames) :
    Alteration.runWith Alteration.executed? (fun _ => none)
      ((current.creatable.map .createTable).map (statement current d)) =
      some (ofTables current.creatable) := by
  rw [← execute?_creatable hn]
  refine runWith_statements (fun change hchange => ?_) _
  obtain ⟨t, ht, rfl⟩ := List.mem_map.mp hchange
  have hmem := List.mem_of_mem_filter ht
  exact read?_createTable (h.tables t hmem) (Schema.fields_ne_nil_of_creatable ht)
    (hn.fields t hmem) fun f hf => h.isColumn hmem hf

/-- The changes between two schemas, run on the database that the script of the one leaves, lead to
the database that the script of the other leaves if every table of both has fields in both or in
neither. Otherwise a statement among them cannot be run: it alters a table that is not there or
drops the last column of one. Of legible schemas the same is true of the statements themselves. -/
theorem execute?_between (d : Dialect) (hp : previous.DistinctNames) (hc : current.DistinctNames) :
    (∀ s ∈ [previous, current],
      s.script d = "\n\n".intercalate ((s.creatable.map .createTable).map (statement s d)) ∧
      execute? (fun _ => none) (s.creatable.map .createTable) = some (ofTables s.creatable)) ∧
    (current.longLength? = none → previous.checkedStatementsFrom current d =
      .ok ((between previous current).map (statement current d))) ∧
    (previous.KeepsFields current →
      execute? (ofTables previous.creatable) (between previous current) =
        some (ofTables current.creatable)) ∧
    (¬previous.KeepsFields current →
      execute? (ofTables previous.creatable) (between previous current) = none) ∧
    (previous.Legible d → current.Legible d →
      (∀ s ∈ [previous, current], Alteration.runWith Alteration.executed? (fun _ => none)
        ((s.creatable.map .createTable).map (statement s d)) = some (ofTables s.creatable)) ∧
      ∀ statements, previous.checkedStatementsFrom current d = .ok statements →
        (previous.KeepsFields current →
          Alteration.runWith Alteration.executed? (ofTables previous.creatable) statements =
            some (ofTables current.creatable)) ∧
        (¬previous.KeepsFields current →
          Alteration.runWith Alteration.executed? (ofTables previous.creatable) statements =
            none)) := by
  have hkept := execute?_of_keepsFields hp hc
  have hnot := execute?_of_not_keepsFields hp hc
  refine ⟨?_, fun h => checkedStatementsFrom_eq_ok h d, hkept, hnot, fun hlp hlc => ⟨?_, ?_⟩⟩
  · intro s hs
    refine ⟨script_eq_statements s d, ?_⟩
    rcases List.mem_pair.mp hs with rfl | rfl
    · exact execute?_creatable hp
    · exact execute?_creatable hc
  · intro s hs
    rcases List.mem_pair.mp hs with rfl | rfl
    · exact runWith_executed?_creatable hlp hp
    · exact runWith_executed?_creatable hlc hc
  · intro statements h
    obtain rfl := eq_statementsFrom_of_checked h
    rw [runWith_executed?_between hlp hlc hc]
    exact ⟨hkept, hnot⟩

/-- Tables without columns come, stay and go while others are created, altered and dropped. -/
theorem execute?_between_notes :
    let previous : Schema :=
      { tables := [⟨"users", [{ name := "id", type := "int8" }]⟩, ⟨"notes", []⟩, ⟨"drafts", []⟩,
          ⟨"carts", [{ name := "count" }]⟩] }
    let current : Schema :=
      { tables := [⟨"tags", []⟩, ⟨"notes", []⟩, ⟨"orders", [{ name := "code" }]⟩,
          ⟨"users", [{ name := "mail" }]⟩] }
    previous.DistinctNames ∧ current.DistinctNames ∧ previous.KeepsFields current ∧
      execute? (ofTables previous.creatable) (between previous current) =
        some (ofTables current.creatable) ∧
      ∃ statements, previous.checkedStatementsFrom current .mysql = .ok statements ∧
        Alteration.runWith Alteration.executed? (ofTables previous.creatable) statements =
          some (ofTables current.creatable) := by
  intro previous current
  have hnames : previous.DistinctNames ∧ current.DistinctNames :=
    ⟨⟨by decide, by decide⟩, ⟨by decide, by decide⟩⟩
  have hkeeps : previous.KeepsFields current := by
    unfold Schema.KeepsFields
    decide
  have hlegible : previous.Legible .mysql ∧ current.Legible .mysql := by decide +kernel
  obtain ⟨-, hreturned, hchanges, -, htexts⟩ := execute?_between .mysql hnames.1 hnames.2
  have hstatements := hreturned (by decide +kernel)
  exact ⟨hnames.1, hnames.2, hkeeps, hchanges hkeeps, _, hstatements,
    ((htexts hlegible.1 hlegible.2).2 _ hstatements).1 hkeeps⟩

/-- A table that was without columns is altered though it was never created, and one that is left
without columns loses its last one. -/
theorem statementsFrom_first_column :
    let empty : Schema := { tables := [⟨"t", []⟩] }
    let filled : Schema := { tables := [⟨"t", [{ name := "a", type := "int8" }]⟩] }
    empty.DistinctNames ∧ filled.DistinctNames ∧
      empty.script .postgresql = "" ∧
      empty.statementsFrom filled .postgresql = ["ALTER TABLE t ADD COLUMN a INTEGER;"] ∧
      execute? (ofTables empty.creatable) (between empty filled) = none ∧
      Alteration.runWith Alteration.executed? (ofTables empty.creatable)
        ["ALTER TABLE t ADD COLUMN a INTEGER;"] = none ∧
      filled.statementsFrom empty .postgresql = ["ALTER TABLE t DROP COLUMN a;"] ∧
      execute? (ofTables filled.creatable) (between filled empty) = none ∧
      Alteration.runWith Alteration.executed? (ofTables filled.creatable)
        ["ALTER TABLE t DROP COLUMN a;"] = none := by
  intro empty filled
  have hadd : Alteration.read? "ALTER TABLE t ADD COLUMN a INTEGER;" =
      some (.addColumn "t" "a") := by
    decide +kernel
  have hdrop : Alteration.read? "ALTER TABLE t DROP COLUMN a;" = some (.dropColumn "t" "a") := by
    decide +kernel
  refine ⟨⟨by decide, by decide⟩, ⟨by decide, by decide⟩, rfl, ?_, rfl, ?_, rfl, rfl, ?_⟩
  · decide +kernel
  · rw [Alteration.runWith_cons, hadd]
    rfl
  · rw [Alteration.runWith_cons, hdrop]
    rfl

end Change

end Schemata
