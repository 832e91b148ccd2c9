import Mathlib.Tactic
import Schemata.Proofs.Migration.Database
import Schemata.Proofs.Migration.Statements

/-!
# Changes between two schemas

The changes from one schema to another turn a database that holds the one into a database that holds
the other. Table by table the database goes over from the previous version to the current one; what
is left over is dropped in the end. The same goes for the statements of these changes, read from
their texts.
-/
namespace Schemata.Change

open Database

variable {db : Database} {previous current : Schema} {old t : Table}

/-! ## One table -/

/-- With the columns that it lacks, a table has all those of its current version. -/
theorem columns_union_added (old t : Table) :
    old.columns ∪
        ((t.fields.filter fun f => (old.field? f.name).isNone).map (·.name)).toFinset =
      old.columns ∪ t.columns := by
  ext name
  simp only [Finset.mem_union, List.mem_toFinset, List.mem_map, List.mem_filter,
    Table.field?_isNone_iff, Table.mem_columns]
  constructor
  · rintro (h | ⟨f, ⟨hf, -⟩, rfl⟩)
    · exact .inl h
    · exact .inr ⟨f, hf, rfl⟩
  · rintro (h | ⟨f, hf, rfl⟩)
    · exact .inl h
    · by_cases hin : ∃ g ∈ old.fields, g.name = f.name
      · exact .inl hin
      · exact .inr ⟨f, ⟨hf, hin⟩, rfl⟩

/-- Without those that are gone, they are the columns of the current version. -/
theorem columns_sdiff_dropped (old t : Table) :
    (old.columns ∪ t.columns) \
        ((old.fields.filter fun f => (t.field? f.name).isNone).map (·.name)).toFinset =
      t.columns := by
  ext name
  simp only [Finset.mem_sdiff, Finset.mem_union, List.mem_toFinset, List.mem_map,
    List.mem_filter, Table.field?_isNone_iff]
  constructor
  · rintro ⟨h, hkept⟩
    by_contra hout
    obtain ⟨f, hf, rfl⟩ := Table.mem_columns.mp (h.resolve_right hout)
    exact hkept ⟨f, ⟨hf, hout⟩, rfl⟩
  · intro h
    refine ⟨.inr h, ?_⟩
    rintro ⟨f, ⟨-, hout⟩, rfl⟩
    exact hout h

/-- Columns are added before others are dropped, so the table never runs out of columns. -/
theorem run?_ofTable (hold : (old.fields.map (·.name)).Nodup) (ht : (t.fields.map (·.name)).Nodup)
    (hne : t.fields ≠ []) (hdb : db t.name = some old.columns) :
    run? db (ofTable old t) = some (Function.update db t.name (some t.columns)) := by
  have hnew : ∀ f ∈ t.fields.filter fun f => (old.field? f.name).isNone, f.name ∉ old.columns := by
    intro f hf
    exact Table.field?_isNone_iff.mp (List.mem_filter.mp hf).2
  have hgone : ∀ f ∈ old.fields.filter fun f => (t.field? f.name).isNone,
      f ∈ old.fields ∧ f.name ∉ t.columns := by
    intro f hf
    obtain ⟨hmem, hnone⟩ := List.mem_filter.mp hf
    exact ⟨hmem, Table.field?_isNone_iff.mp hnone⟩
  obtain ⟨stays, hstays⟩ := Table.columns_nonempty hne
  rw [ofTable, run?_append, run?_addColumns hdb (ht.sublist (List.filter_sublist.map _)) hnew,
    Option.bind_some, columns_union_added,
    run?_dropColumns (Function.update_self ..) (hold.sublist (List.filter_sublist.map _))
      (fun f hf => Finset.mem_union_left _ (Table.mem_columns.mpr ⟨f, (hgone f hf).1, rfl⟩))
      (Finset.mem_union_right _ hstays) (fun f hf he => (hgone f hf).2 (he ▸ hstays)),
    columns_sdiff_dropped, Function.update_idem]

theorem ofTable_eq_nil_iff : ofTable old t = [] ↔ old.columns = t.columns := by
  have hsub : ∀ a b : Table, (a.fields.filter fun f => (b.field? f.name).isNone) = [] ↔
      a.columns ⊆ b.columns := by
    intro a b
    rw [List.filter_eq_nil_iff]
    constructor
    · intro h name hname
      obtain ⟨f, hf, rfl⟩ := Table.mem_columns.mp hname
      by_contra hout
      exact h f hf (Table.field?_isNone_iff.mpr hout)
    · intro h f hf hnone
      exact Table.field?_isNone_iff.mp hnone (h (Table.mem_columns.mpr ⟨f, hf, rfl⟩))
  simp only [ofTable, List.append_eq_nil_iff, List.map_eq_nil_iff, hsub]
  exact ⟨fun h => h.2.antisymm h.1, fun h => ⟨h.ge, h.le⟩⟩

/-- A table of the new schema is brought to its current version, whether it was there or not. -/
theorem run?_toTable (hp : previous.DistinctNames) (ht : (t.fields.map (·.name)).Nodup)
    (hne : t.fields ≠ []) (hdb : db t.name = ofTables previous.tables t.name) :
    run? db (toTable previous t) = some (Function.update db t.name (some t.columns)) := by
  cases hfound : previous.table? t.name with
  | none =>
    have habsent : db t.name = none := by
      rw [hdb, ofTables]
      exact congrArg _ hfound
    simp [toTable, hfound, hne, run?, applied?, alteration, Alteration.made?, habsent,
      Table.columns]
  | some old =>
    have hpresent : db t.name = some old.columns := by
      rw [hdb, ofTables]
      exact congrArg _ hfound
    simp only [toTable, hfound]
    exact run?_ofTable (hp.fields old (List.mem_of_find?_eq_some hfound)) ht hne hpresent

theorem toTable_eq_nil_iff (hne : t.fields ≠ []) :
    toTable previous t = [] ↔ ofTables previous.tables t.name = some t.columns := by
  have hdb : ofTables previous.tables t.name = (previous.table? t.name).map Table.columns := rfl
  rw [hdb]
  cases hfound : previous.table? t.name with
  | none => simp [toTable, hfound, hne]
  | some old => simp [toTable, hfound, ofTable_eq_nil_iff]

/-! ## All tables -/

/-- One table after the other goes over to its current version; the other tables stay. -/
theorem run?_toTables (hp : previous.DistinctNames) {ts : List Table}
    (hn : (ts.map (·.name)).Nodup) (hts : ∀ t ∈ ts, (t.fields.map (·.name)).Nodup)
    (hne : ∀ t ∈ ts, t.fields ≠ []) (hdb : ∀ t ∈ ts, db t.name = ofTables previous.tables t.name) :
    run? db (ts.flatMap (toTable previous)) =
      some fun name => if name ∈ ts.map (·.name) then ofTables ts name else db name := by
  induction ts generalizing db with
  | nil => simp [run?]
  | cons t ts ih =>
    have hnames := hn
    simp only [List.map_cons, List.nodup_cons] at hnames
    have hother : ∀ u ∈ ts, u.name ≠ t.name := fun u hu he =>
      hnames.1 (List.mem_map.mpr ⟨u, hu, he⟩)
    have hlater : ∀ u ∈ ts, Function.update db t.name (some t.columns) u.name =
        ofTables previous.tables u.name := by
      intro u hu
      rw [Function.update_of_ne (hother u hu)]
      exact hdb u (List.mem_cons_of_mem t hu)
    rw [List.flatMap_cons, run?_append,
      run?_toTable hp (hts t List.mem_cons_self) (hne t List.mem_cons_self)
        (hdb t List.mem_cons_self),
      Option.bind_some, ih hnames.2 (fun u hu => hts u (List.mem_cons_of_mem t hu))
        (fun u hu => hne u (List.mem_cons_of_mem t hu)) hlater]
    congr 1
    funext name
    by_cases hname : name = t.name
    · subst hname
      have hmiss : t.name ∉ ts.map (·.name) := hnames.1
      rw [if_neg hmiss, Function.update_self, List.map_cons, if_pos List.mem_cons_self,
        ofTables_of_mem hn List.mem_cons_self]
    · by_cases hmem : name ∈ ts.map (·.name)
      · have hskip : ofTables (t :: ts) name = ofTables ts name := by
          simp [ofTables, Ne.symm hname]
        rw [if_pos hmem, List.map_cons, if_pos (List.mem_cons_of_mem _ hmem), hskip]
      · have hmiss : name ∉ (t :: ts).map (·.name) := by
          rw [List.map_cons, List.mem_cons]
          exact fun h => h.elim hname hmem
        rw [if_neg hmem, if_neg hmiss, Function.update_of_ne hname]

/-- The tables that are dropped are those of the previous schema alone. -/
theorem mem_left_iff {name : String} :
    name ∈ (previous.tables.reverse.filter fun t => (current.table? t.name).isNone).map (·.name) ↔
      name ∈ previous.tables.map (·.name) ∧ name ∉ current.tables.map (·.name) := by
  constructor
  · intro h
    obtain ⟨t, ht, rfl⟩ := List.mem_map.mp h
    obtain ⟨hmem, hnone⟩ := List.mem_filter.mp ht
    exact ⟨List.mem_map_of_mem (List.mem_reverse.mp hmem), Schema.table?_isNone_iff.mp hnone⟩
  · rintro ⟨h, hcurrent⟩
    obtain ⟨t, ht, rfl⟩ := List.mem_map.mp h
    exact List.mem_map_of_mem
      (List.mem_filter.mpr ⟨List.mem_reverse.mpr ht, Schema.table?_isNone_iff.mpr hcurrent⟩)

/-- The changes lead from the one database to the other, each of them applicable in its turn. -/
theorem run?_ofTables (hp : previous.DistinctNames) (hc : current.DistinctNames)
    (hne : ∀ t ∈ current.tables, t.fields ≠ []) :
    run? (ofTables previous.tables) (between previous current) =
      some (ofTables current.tables) := by
  have hnames : ((previous.tables.reverse.filter fun t =>
      (current.table? t.name).isNone).map (·.name)).Nodup := by
    have hrev : (previous.tables.reverse.map (·.name)).Nodup := by
      rw [List.map_reverse]
      exact List.nodup_reverse.mpr hp.tables
    exact hrev.sublist (List.filter_sublist.map _)
  rw [between, run?_append, run?_toTables hp hc.tables hc.fields hne fun _ _ => rfl,
    Option.bind_some, run?_dropTables hnames]
  · congr 1
    funext name
    simp only [mem_left_iff]
    by_cases hcurrent : name ∈ current.tables.map (·.name)
    · rw [if_neg fun h => h.2 hcurrent, if_pos hcurrent]
    · rw [ofTables_eq_none_iff.mpr hcurrent, if_neg hcurrent]
      split_ifs with hleft
      · rfl
      · -- a table that is in neither list was not there before
        exact ofTables_eq_none_iff.mpr fun hprevious => hleft ⟨hprevious, hcurrent⟩
  · intro t ht
    obtain ⟨hmem, hnone⟩ := List.mem_filter.mp ht
    rw [if_neg (Schema.table?_isNone_iff.mp hnone),
      ofTables_of_mem hp.tables (List.mem_reverse.mp hmem)]
    rfl

theorem between_eq_nil_iff (hc : current.DistinctNames)
    (hne : ∀ t ∈ current.tables, t.fields ≠ []) :
    between previous current = [] ↔ ofTables previous.tables = ofTables current.tables := by
  simp only [between, List.append_eq_nil_iff, List.map_eq_nil_iff, List.flatMap_eq_nil_iff,
    List.filter_eq_nil_iff, List.mem_reverse]
  constructor
  · rintro ⟨htables, hleft⟩
    funext name
    by_cases hcurrent : name ∈ current.tables.map (·.name)
    · obtain ⟨t, ht, rfl⟩ := List.mem_map.mp hcurrent
      rw [(toTable_eq_nil_iff (hne t ht)).mp (htables t ht), ofTables_of_mem hc.tables ht]
    · rw [ofTables_eq_none_iff.mpr hcurrent, ofTables_eq_none_iff]
      intro hprevious
      obtain ⟨t, ht, rfl⟩ := List.mem_map.mp hprevious
      exact hleft t ht (Schema.table?_isNone_iff.mpr hcurrent)
  · intro h
    refine ⟨fun t ht => ?_, fun t ht hnone => ?_⟩
    · rw [toTable_eq_nil_iff (hne t ht), h, ofTables_of_mem hc.tables ht]
    · have habsent := ofTables_eq_none_iff.mpr (Schema.table?_isNone_iff.mp hnone)
      rw [← h, ofTables_eq_none_iff] at habsent
      exact habsent (List.mem_map_of_mem ht)

/-- Schemas with the same tables and columns, in the same order, ask for no changes. -/
theorem between_eq_nil_of_columns (hp : previous.DistinctNames)
    (h : (previous.tables.map fun t => (t.name, t.columns)) =
      current.tables.map fun t => (t.name, t.columns)) : between previous current = [] := by
  simp only [between, List.append_eq_nil_iff, List.map_eq_nil_iff, List.flatMap_eq_nil_iff,
    List.filter_eq_nil_iff, List.mem_reverse]
  constructor
  · intro t ht
    have hmem := List.mem_map_of_mem (f := fun t : Table => (t.name, t.columns)) ht
    rw [← h] at hmem
    obtain ⟨old, hold, heq⟩ := List.mem_map.mp hmem
    obtain ⟨hname, hcolumns⟩ := Prod.mk.inj heq
    simp only [toTable, hp.table?_eq_some_iff.mpr ⟨hold, hname⟩]
    exact ofTable_eq_nil_iff.mpr hcolumns
  · intro old hold hnone
    have hmem := List.mem_map_of_mem (f := fun t : Table => (t.name, t.columns)) hold
    rw [h] at hmem
    obtain ⟨t, ht, heq⟩ := List.mem_map.mp hmem
    exact Schema.table?_isNone_iff.mp hnone ((Prod.mk.inj heq).1 ▸ List.mem_map_of_mem ht)

/-! ## Statements -/

/-- What a table of the new schema asks for. -/
theorem cases_of_mem_toTable {change : Change} (h : change ∈ toTable previous t) :
    (t.fields ≠ [] ∧ change = .createTable t) ∨ (∃ f ∈ t.fields, change = .addColumn t.name f) ∨
      ∃ old ∈ previous.tables, ∃ f ∈ old.fields, change = .dropColumn t.name f.name := by
  simp only [toTable, ofTable] at h
  split at h
  · rename_i old hfound
    rcases List.mem_append.mp h with h | h
    · obtain ⟨f, hf, rfl⟩ := List.mem_map.mp h
      exact .inr (.inl ⟨f, List.mem_of_mem_filter hf, rfl⟩)
    · obtain ⟨f, hf, rfl⟩ := List.mem_map.mp h
      exact .inr (.inr ⟨old, List.mem_of_find?_eq_some hfound, f, List.mem_of_mem_filter hf, rfl⟩)
  · split at h
    · cases h
    · rename_i hne
      exact .inl ⟨hne, List.mem_singleton.mp h⟩

theorem cases_of_mem_between {change : Change} (h : change ∈ between previous current) :
    (∃ t ∈ current.tables, change ∈ toTable previous t) ∨
      ∃ old ∈ previous.tables, change = .dropTable old.name := by
  rcases List.mem_append.mp h with h | h
  · exact .inl (List.mem_flatMap.mp h)
  · obtain ⟨old, hold, rfl⟩ := List.mem_map.mp h
    exact .inr ⟨old, List.mem_reverse.mp (List.mem_of_mem_filter hold), rfl⟩

/-- Only types of the current schema are written. -/
theorem longLength?_of_mem_between (h : current.longLength? = none) {change : Change}
    (hc : change ∈ between previous current) : change.longLength? = none := by
  have htable : ∀ t ∈ current.tables, t.longLength? = none := List.findSome?_eq_none_iff.mp h
  rcases cases_of_mem_between hc with ⟨t, ht, hc⟩ | ⟨old, -, rfl⟩
  · rcases cases_of_mem_toTable hc with ⟨-, rfl⟩ | ⟨f, hf, rfl⟩ | ⟨old, -, f, -, rfl⟩
    · exact htable t ht
    · exact List.findSome?_eq_none_iff.mp (htable t ht) f hf
    · rfl
  · rfl

theorem checkedStatementsFrom_eq_ok (h : current.longLength? = none) (d : Dialect) :
    previous.checkedStatementsFrom current d =
      .ok ((between previous current).map (statement current d)) := by
  have hnone : (between previous current).findSome? (·.longLength?) = none :=
    List.findSome?_eq_none_iff.mpr fun _ hc => longLength?_of_mem_between h hc
  rw [Schema.checkedStatementsFrom, hnone]
  rfl

theorem checkedStatementsFrom_eq_nil_iff {d : Dialect} :
    previous.checkedStatementsFrom current d = .ok [] ↔ between previous current = [] := by
  constructor
  · intro h
    simp only [Schema.checkedStatementsFrom, Text.LongNumber.refuse] at h
    split at h
    · cases h
    · exact List.map_eq_nil_iff.mp (Except.ok.inj h)
  · intro h
    simp [Schema.checkedStatementsFrom, Schema.statementsFrom, h]

/-- Between legible schemas each statement asks for what its change does. -/
theorem read?_of_mem_between {d : Dialect} (hp : previous.Legible d) (hc : current.Legible d)
    (hn : current.DistinctNames) {change : Change} (h : change ∈ between previous current) :
    Alteration.read? (statement current d change) = some change.alteration := by
  rcases cases_of_mem_between h with ⟨t, ht, h⟩ | ⟨old, hold, rfl⟩
  · rcases cases_of_mem_toTable h with ⟨hne, rfl⟩ | ⟨f, hf, rfl⟩ | ⟨old, hold, f, hf, rfl⟩
    · exact read?_createTable (hc.tables t ht) hne (hn.fields t ht) fun f hf => hc.isColumn ht hf
    · exact read?_addColumn (hc.tables t ht) (hc.isColumn ht hf)
    · exact read?_dropColumn (hc.tables t ht) (hp.fields old hold f hf)
  · exact read?_dropTable (hp.tables old hold)

theorem eq_statementsFrom_of_checked {d : Dialect} {statements : List String}
    (h : previous.checkedStatementsFrom current d = .ok statements) :
    statements = (between previous current).map (statement current d) := by
  simp only [Schema.checkedStatementsFrom, Text.LongNumber.refuse] at h
  split at h
  · cases h
  · exact (Except.ok.inj h).symm

/-- The statements between legible schemas are run as the changes are. -/
theorem runWith_made?_between {d : Dialect} (hp : previous.Legible d) (hc : current.Legible d)
    (hn : current.DistinctNames) (db : Database) :
    Alteration.runWith Alteration.made? db ((between previous current).map (statement current d)) =
      run? db (between previous current) := by
  rw [runWith_statements (fun _ => read?_of_mem_between hp hc hn), run?_eq_foldlM]
  rfl

/-- Between schemas whose tables all have columns, the changes can be made one after the other, each
of them applicable and with effect, and lead to the current schema; the changes back restore the
previous one. There are no statements exactly if tables and columns are the same. The statements
that are returned, read from their texts, are run to the same ends if the schemas are legible: names
and types are written as they are, so a name with blanks or a type with a comma says something
else. -/
theorem run?_between (d : Dialect) (hp : previous.DistinctNames) (hc : current.DistinctNames)
    (hpne : ∀ t ∈ previous.tables, t.fields ≠ []) (hcne : ∀ t ∈ current.tables, t.fields ≠ []) :
    run? (ofTables previous.tables) (between previous current) = some (ofTables current.tables) ∧
    run? (ofTables previous.tables) (between previous current ++ between current previous) =
      some (ofTables previous.tables) ∧
    (current.longLength? = none → previous.checkedStatementsFrom current d =
      .ok ((between previous current).map (statement current d))) ∧
    (previous.checkedStatementsFrom current d = .ok [] ↔
      ofTables previous.tables = ofTables current.tables) ∧
    (previous.Legible d → current.Legible d → ∀ forward,
      previous.checkedStatementsFrom current d = .ok forward →
      Alteration.runWith Alteration.made? (ofTables previous.tables) forward =
        some (ofTables current.tables) ∧
      (∀ done text later, forward = done ++ text :: later → ∃ db alteration next,
        Alteration.runWith Alteration.made? (ofTables previous.tables) done = some db ∧
        Alteration.read? text = some alteration ∧ alteration.made? db = some next ∧ next ≠ db) ∧
      ∀ back, current.checkedStatementsFrom previous d = .ok back →
        Alteration.runWith Alteration.made? (ofTables previous.tables) (forward ++ back) =
          some (ofTables previous.tables)) := by
  have hforward := run?_ofTables hp hc hcne
  have hback := run?_ofTables hc hp hpne
  refine ⟨hforward, ?_, fun h => checkedStatementsFrom_eq_ok h d, ?_, ?_⟩
  · rw [run?_append, hforward, Option.bind_some, hback]
  · rw [checkedStatementsFrom_eq_nil_iff, between_eq_nil_iff hc hcne]
  · intro hlp hlc forward h
    obtain rfl := eq_statementsFrom_of_checked h
    have hthere := (runWith_made?_between hlp hlc hc (ofTables previous.tables)).trans hforward
    refine ⟨hthere, fun done text later hsplit => ?_, fun back h' => ?_⟩
    · rw [hsplit] at hthere
      obtain ⟨db, alteration, next, hdone, hread, hmade⟩ :=
        Alteration.exists_step_of_runWith hthere
      exact ⟨db, alteration, next, hdone, hread, hmade, Alteration.ne_of_made? hmade⟩
    · obtain rfl := eq_statementsFrom_of_checked h'
      rw [Alteration.runWith_append, hthere, Option.bind_some, runWith_made?_between hlc hlp hp,
        hback]

/-- Tables are kept, changed in both ways, dropped and created in one migration. -/
theorem run?_between_shop :
    let previous : Schema :=
      { tables :=
          [⟨"users", [{ name := "id", type := "int8", nullable := false, primaryKey := true },
            { name := "mail" }]⟩,
           ⟨"carts", [{ name := "user_id", type := "int8" }]⟩,
           ⟨"notes", [{ name := "body" }]⟩]
        relationships := [⟨"carts", "user_id", "users", "id"⟩] }
    let current : Schema :=
      { tables :=
          [⟨"orders", [{ name := "code", type := "uuid", nullable := false, primaryKey := true }]⟩,
           ⟨"carts", [{ name := "order_code", type := "uuid" }, { name := "count" }]⟩,
           ⟨"users", [{ name := "id", type := "int8", nullable := false, primaryKey := true },
            { name := "mail" }]⟩]
        relationships := [⟨"carts", "order_code", "orders", "code"⟩] }
    run? (ofTables previous.tables) (between previous current) = some (ofTables current.tables) ∧
      run? (ofTables previous.tables) (between previous current ++ between current previous) =
        some (ofTables previous.tables) ∧
      previous.checkedStatementsFrom current .mysql ≠ .ok [] ∧
      ∃ forward back, previous.checkedStatementsFrom current .mysql = .ok forward ∧
        current.checkedStatementsFrom previous .mysql = .ok back ∧
        Alteration.runWith Alteration.made? (ofTables previous.tables) forward =
          some (ofTables current.tables) ∧
        Alteration.runWith Alteration.made? (ofTables previous.tables) (forward ++ back) =
          some (ofTables previous.tables) := by
  intro previous current
  have hnames : previous.DistinctNames ∧ current.DistinctNames :=
    ⟨⟨by decide, by decide⟩, ⟨by decide, by decide⟩⟩
  have hlegible : previous.Legible .mysql ∧ current.Legible .mysql := by decide +kernel
  have hthere := run?_between .mysql hnames.1 hnames.2 (by decide) (by decide)
  have hback := run?_between .mysql hnames.2 hnames.1 (by decide) (by decide)
  have hforwardTexts := hthere.2.2.1 (by decide +kernel)
  have hbackTexts := hback.2.2.1 (by decide +kernel)
  have hruns := hthere.2.2.2.2 hlegible.1 hlegible.2 _ hforwardTexts
  refine ⟨hthere.1, hthere.2.1, fun hnil => ?_, _, _, hforwardTexts, hbackTexts, hruns.1,
    hruns.2.2 _ hbackTexts⟩
  have hsame := congrFun (hthere.2.2.2.1.mp hnil) "notes"
  revert hsame
  decide

end Schemata.Change
