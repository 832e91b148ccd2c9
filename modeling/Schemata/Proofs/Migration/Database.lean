import Mathlib.Data.Finset.Basic
import Mathlib.Logic.Function.Basic
import Mathlib.Tactic
import Schemata.Migration
import Schemata.Proofs.Schema.Edges

/-!
# Changes of a database

A database is abstracted to its tables and the columns of each. A change can be made only where it
is applicable and makes a difference: only an absent table is created, only an absent column is
added, only a present one is dropped, and the last column of a table is never dropped.
-/
namespace Schemata

/-- The names of the columns of a table. -/
def Table.columns (t : Table) : Finset String := (t.fields.map (·.name)).toFinset

@[simp] theorem Table.mem_columns {t : Table} {name : String} :
    name ∈ t.columns ↔ ∃ f ∈ t.fields, f.name = name := by
  simp [columns]

theorem Table.field?_isNone_iff {t : Table} {name : String} :
    (t.field? name).isNone = true ↔ name ∉ t.columns := by
  simp [field?]

theorem Table.columns_nonempty {t : Table} (h : t.fields ≠ []) : t.columns.Nonempty := by
  obtain ⟨f, hf⟩ := List.exists_mem_of_ne_nil _ h
  exact ⟨f.name, mem_columns.mpr ⟨f, hf, rfl⟩⟩

theorem Schema.table?_isNone_iff {s : Schema} {name : String} :
    (s.table? name).isNone = true ↔ name ∉ s.tables.map (·.name) := by
  simp [table?]

theorem Schema.DistinctNames.table?_eq_some_iff {s : Schema} (h : s.DistinctNames) {name : String}
    {t : Table} : s.table? name = some t ↔ t ∈ s.tables ∧ t.name = name := by
  have hfound : ∀ u, s.table? name = some u → u ∈ s.tables ∧ u.name = name := fun u hu =>
    ⟨List.mem_of_find?_eq_some hu, by simpa using List.find?_some hu⟩
  refine ⟨hfound t, ?_⟩
  rintro ⟨ht, rfl⟩
  obtain ⟨u, hu⟩ := Option.isSome_iff_exists.mp (show (s.table? t.name).isSome = true by
    rw [Schema.table?, List.find?_isSome]
    exact ⟨t, ht, by simp⟩)
  obtain ⟨hmem, hname⟩ := hfound u hu
  rw [hu, List.inj_on_of_nodup_map h.tables hmem ht hname]

/-- The tables that are there, each with its set of columns. -/
abbrev Database := String → Option (Finset String)

namespace Database

/-- The database that holds the given tables. -/
def ofTables (ts : List Table) : Database := fun name =>
  (ts.find? (·.name = name)).map Table.columns

theorem ofTables_eq_none_iff {ts : List Table} {name : String} :
    ofTables ts name = none ↔ name ∉ ts.map (·.name) := by
  simp [ofTables]

theorem ofTables_of_mem {ts : List Table} (h : (ts.map (·.name)).Nodup) {t : Table} (ht : t ∈ ts) :
    ofTables ts t.name = some t.columns := by
  cases hfound : ts.find? (·.name = t.name) with
  | none =>
    have hmiss := List.find?_eq_none.mp hfound t ht
    simp at hmiss
  | some u =>
    have hname : u.name = t.name := by simpa using List.find?_some hfound
    have hu := List.mem_of_find?_eq_some hfound
    obtain rfl := List.inj_on_of_nodup_map h hu ht hname
    simp [ofTables, hfound]

end Database

/-- What a statement asks of a database, as far as tables and columns go. -/
inductive Alteration where
  | createTable (table : String) (columns : List String)
  | addColumn (table column : String)
  | dropColumn (table column : String)
  | dropTable (table : String)
deriving DecidableEq

namespace Alteration

variable {db after : Database} {alteration : Alteration}

/-- The table that an alteration is about. -/
def table : Alteration → String
  | .createTable table _ => table
  | .addColumn table _ => table
  | .dropColumn table _ => table
  | .dropTable table => table

/-- The database after an alteration, if it can be made and makes a difference. -/
def made? (db : Database) : Alteration → Option Database
  | .createTable table columns =>
    if db table = none ∧ columns ≠ [] then
      some (Function.update db table (some columns.toFinset))
    else none
  | .addColumn table column =>
    (db table).bind fun columns =>
      if column ∈ columns then none
      else some (Function.update db table (some (insert column columns)))
  | .dropColumn table column =>
    (db table).bind fun columns =>
      if column ∈ columns ∧ columns ≠ {column} then
        some (Function.update db table (some (columns.erase column)))
      else none
  | .dropTable table =>
    if (db table).isSome then some (Function.update db table none) else none

/-- Only the table that an alteration is about is updated, and only dropping it leaves none. -/
theorem exists_update_of_made? (h : alteration.made? db = some after) :
    ∃ columns, after = Function.update db alteration.table columns ∧
      (columns = none → alteration = .dropTable alteration.table) := by
  cases alteration with
  | createTable table columns =>
    simp only [made?] at h
    split_ifs at h
    exact ⟨_, (Option.some.inj h).symm, nofun⟩
  | addColumn table column =>
    obtain ⟨columns, -, h⟩ := Option.bind_eq_some_iff.mp h
    split_ifs at h
    exact ⟨_, (Option.some.inj h).symm, nofun⟩
  | dropColumn table column =>
    obtain ⟨columns, -, h⟩ := Option.bind_eq_some_iff.mp h
    split_ifs at h
    exact ⟨_, (Option.some.inj h).symm, nofun⟩
  | dropTable table =>
    simp only [made?] at h
    split_ifs at h
    exact ⟨_, (Option.some.inj h).symm, fun _ => rfl⟩

/-- An alteration that can be made is never without effect. -/
theorem ne_of_made? (h : alteration.made? db = some after) : after ≠ db := by
  -- it is enough to look at the table that the alteration is about
  suffices hne : ∃ table, after table ≠ db table by
    obtain ⟨table, hne⟩ := hne
    exact fun he => hne (congrFun he table)
  cases alteration with
  | createTable table columns =>
    simp only [made?] at h
    split_ifs at h with hfree
    obtain rfl := Option.some.inj h
    exact ⟨table, by simp [hfree.1]⟩
  | addColumn table column =>
    obtain ⟨columns, hcolumns, h⟩ := Option.bind_eq_some_iff.mp h
    split_ifs at h with hnew
    obtain rfl := Option.some.inj h
    refine ⟨table, ?_⟩
    rw [Function.update_self, hcolumns]
    exact fun he => hnew (Finset.insert_eq_self.mp (Option.some.inj he))
  | dropColumn table column =>
    obtain ⟨columns, hcolumns, h⟩ := Option.bind_eq_some_iff.mp h
    split_ifs at h with hold
    obtain rfl := Option.some.inj h
    refine ⟨table, ?_⟩
    rw [Function.update_self, hcolumns]
    exact fun he => Finset.erase_eq_self.mp (Option.some.inj he) hold.1
  | dropTable table =>
    simp only [made?] at h
    split_ifs at h with hold
    obtain rfl := Option.some.inj h
    refine ⟨table, ?_⟩
    rw [Function.update_self]
    intro hnone
    simp [← hnone] at hold

end Alteration

namespace Change

/-- What a change does to the tables and columns of a database. -/
def alteration : Change → Alteration
  | .createTable t => .createTable t.name (t.fields.map (·.name))
  | .addColumn table f => .addColumn table f.name
  | .dropColumn table column => .dropColumn table column
  | .dropTable table => .dropTable table

/-- The database after a change, if the change can be made and makes a difference. -/
def applied? (db : Database) (change : Change) : Option Database := change.alteration.made? db

/-- The database after some changes, each of which can be made when its turn comes. -/
def run? (db : Database) : List Change → Option Database
  | [] => some db
  | change :: changes => (change.applied? db).bind (run? · changes)

theorem run?_append (db : Database) (changes later : List Change) :
    run? db (changes ++ later) = (run? db changes).bind (run? · later) := by
  induction changes generalizing db with
  | nil => rfl
  | cons change changes ih =>
    cases h : change.applied? db with
    | none => simp [run?, h]
    | some next => simpa [run?, h] using ih next

theorem run?_eq_foldlM (db : Database) (changes : List Change) :
    run? db changes = changes.foldlM applied? db := by
  induction changes generalizing db with
  | nil => rfl
  | cons change changes ih =>
    rw [run?, List.foldlM_cons]
    exact congrArg _ (funext ih)

/-! ## Changes of one table -/

variable {db : Database} {table : String} {columns : Finset String}

/-- Columns that are not there yet can be added one after the other. -/
theorem run?_addColumns {fs : List Field} (h : db table = some columns)
    (hn : (fs.map (·.name)).Nodup) (hnew : ∀ f ∈ fs, f.name ∉ columns) :
    run? db (fs.map (.addColumn table)) =
      some (Function.update db table (some (columns ∪ (fs.map (·.name)).toFinset))) := by
  induction fs generalizing db columns with
  | nil => simp [run?, ← h]
  | cons f fs ih =>
    simp only [List.map_cons, List.nodup_cons] at hn
    have hstep : applied? db (.addColumn table f) =
        some (Function.update db table (some (insert f.name columns))) := by
      simp [applied?, alteration, Alteration.made?, h, hnew f List.mem_cons_self]
    have hlater : ∀ g ∈ fs, g.name ∉ insert f.name columns := by
      intro g hg hmem
      rcases Finset.mem_insert.mp hmem with he | hmem
      · exact hn.1 (List.mem_map.mpr ⟨g, hg, he⟩)
      · exact hnew g (List.mem_cons_of_mem f hg) hmem
    rw [List.map_cons, run?, hstep, Option.bind_some,
      ih (Function.update_self ..) hn.2 hlater, Function.update_idem, List.map_cons,
      List.toFinset_cons, Finset.insert_union, Finset.union_insert]

/-- Columns can be dropped one after the other as long as another column is there to stay. -/
theorem run?_dropColumns {fs : List Field} (h : db table = some columns)
    (hn : (fs.map (·.name)).Nodup) (hold : ∀ f ∈ fs, f.name ∈ columns) {stays : String}
    (hs : stays ∈ columns) (hstays : ∀ f ∈ fs, f.name ≠ stays) :
    run? db (fs.map (.dropColumn table ·.name)) =
      some (Function.update db table (some (columns \ (fs.map (·.name)).toFinset))) := by
  induction fs generalizing db columns with
  | nil => simp [run?, ← h]
  | cons f fs ih =>
    simp only [List.map_cons, List.nodup_cons] at hn
    have hf := hstays f List.mem_cons_self
    have hmore : columns ≠ {f.name} := by
      rintro rfl
      exact hf (Finset.mem_singleton.mp hs).symm
    have hstep : applied? db (.dropColumn table f.name) =
        some (Function.update db table (some (columns.erase f.name))) := by
      simp [applied?, alteration, Alteration.made?, h, hold f List.mem_cons_self, hmore]
    have hlater : ∀ g ∈ fs, g.name ∈ columns.erase f.name := by
      intro g hg
      have hne : g.name ≠ f.name := fun he => hn.1 (List.mem_map.mpr ⟨g, hg, he⟩)
      exact Finset.mem_erase.mpr ⟨hne, hold g (List.mem_cons_of_mem f hg)⟩
    rw [List.map_cons, run?, hstep, Option.bind_some,
      ih (Function.update_self ..) hn.2 hlater (Finset.mem_erase.mpr ⟨hf.symm, hs⟩)
        (fun g hg => hstays g (List.mem_cons_of_mem f hg)),
      Function.update_idem, List.map_cons, List.toFinset_cons, Finset.erase_sdiff_comm,
      ← Finset.sdiff_insert]

/-- Tables that are there can be dropped one after the other. -/
theorem run?_dropTables {ts : List Table} (hn : (ts.map (·.name)).Nodup)
    (h : ∀ t ∈ ts, (db t.name).isSome = true) :
    run? db (ts.map (.dropTable ·.name)) =
      some fun name => if name ∈ ts.map (·.name) then none else db name := by
  induction ts generalizing db with
  | nil => simp [run?]
  | cons t ts ih =>
    simp only [List.map_cons, List.nodup_cons] at hn
    have hstep : applied? db (.dropTable t.name) = some (Function.update db t.name none) := by
      simp [applied?, alteration, Alteration.made?, h t List.mem_cons_self]
    have hlater : ∀ u ∈ ts, (Function.update db t.name none u.name).isSome = true := by
      intro u hu
      have hne : u.name ≠ t.name := fun he => hn.1 (List.mem_map.mpr ⟨u, hu, he⟩)
      rw [Function.update_of_ne hne]
      exact h u (List.mem_cons_of_mem t hu)
    rw [List.map_cons, run?, hstep, Option.bind_some, ih hn.2 hlater]
    congr 1
    funext name
    by_cases hname : name = t.name
    · subst hname
      simp
    · simp [hname]

end Change

end Schemata
