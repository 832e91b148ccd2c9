import Mathlib.Tactic
import Schemata.Proofs.Migration.Between

/-!
# References along a migration

The changes between two schemas stand in an order that foreign keys allow, as long as the tables of
each schema only refer to themselves and to tables before them. A change that writes a reference
finds the table it refers to, and no table is dropped before one that refers to it and is dropped,
too.
-/
namespace Schemata

namespace Schema

/-- The names of the tables that are declared before a table. -/
def namesBefore (s : Schema) (name : String) : List String :=
  (s.tables.map (·.name)).takeWhile (· ≠ name)

/-- Every relationship goes from a table to itself or to a table that is declared earlier. -/
def Backward (s : Schema) : Prop :=
  ∀ r ∈ s.relationships, r.toTable = r.fromTable ∨ r.toTable ∈ s.namesBefore r.fromTable

instance (s : Schema) : Decidable s.Backward := inferInstanceAs (Decidable (∀ r ∈ _, _))

/-- The relationship that the definition of a column writes as a reference, if there is one. -/
def columnReferences (s : Schema) (table : String) (f : Field) : List Relationship :=
  (s.relationship? table f.name).toList

theorem columnLine_eq (s : Schema) (d : Dialect) (table : String) (f : Field) :
    s.columnLine d table f = "    " ++ " ".intercalate (f.definitionParts d.spelling none ++
      (s.columnReferences table f).map fun r => d.spelling.foreignKey r.toTable r.toField) := by
  rw [columnLine, columnDefinition, Field.definition, columnReferences]
  cases s.relationship? table f.name <;> simp [Field.definitionParts]

theorem mem_columnReferences {s : Schema} {table : String} {f : Field} {r : Relationship}
    (h : r ∈ s.columnReferences table f) : r ∈ s.relationships ∧ r.fromTable = table := by
  have hfound := Option.mem_toList.mp h
  have hends := List.find?_some hfound
  simp only [Bool.and_eq_true, decide_eq_true_eq] at hends
  exact ⟨List.mem_of_find?_eq_some hfound, hends.1⟩

theorem namesBefore_eq {s : Schema} (hs : s.DistinctNames) {before after : List Table} {t : Table}
    (h : s.tables = before ++ t :: after) : s.namesBefore t.name = before.map (·.name) := by
  have hn := hs.tables
  rw [h, List.map_append, List.map_cons, List.nodup_append] at hn
  have hbefore : ∀ name ∈ before.map (·.name), decide (name ≠ t.name) = true := by
    intro name hname
    exact decide_eq_true (hn.2.2 name hname t.name List.mem_cons_self)
  rw [namesBefore, h, List.map_append, List.map_cons, List.takeWhile_append_of_pos hbefore,
    List.takeWhile_cons_of_neg (by simp), List.append_nil]

/-- Of two tables the later one is not among those before the earlier one. -/
theorem pairwise_namesBefore {s : Schema} (hs : s.DistinctNames) :
    s.tables.Pairwise fun t u => u.name ≠ t.name ∧ u.name ∉ s.namesBefore t.name := by
  have hpairs : ∀ names : List String, names.Nodup →
      names.Pairwise fun a b => b ≠ a ∧ b ∉ names.takeWhile (· ≠ a) := by
    intro names hn
    induction names with
    | nil => exact .nil
    | cons name names ih =>
      obtain ⟨hname, hn⟩ := List.nodup_cons.mp hn
      refine List.pairwise_cons.mpr ⟨fun b hb => ?_, ?_⟩
      · rw [List.takeWhile_cons_of_neg (by simp)]
        exact ⟨fun he => hname (he ▸ hb), List.not_mem_nil⟩
      · refine (ih hn).imp_of_mem fun {a b} ha hb hab => ⟨hab.1, ?_⟩
        have hne : name ≠ a := fun he => hname (he ▸ ha)
        rw [List.takeWhile_cons_of_pos (by simpa using hne), List.mem_cons, not_or]
        exact ⟨fun he => hname (he ▸ hb), hab.2⟩
  exact List.pairwise_map.mp (hpairs _ hs.tables)

end Schema

namespace Change

open Database

/-- The table that a change is about. -/
def table : Change → String
  | createTable t => t.name
  | addColumn t _ => t
  | dropColumn t _ => t
  | dropTable t => t

/-- The references that the statement of a change writes. -/
def references (target : Schema) : Change → List Relationship
  | createTable t => t.fields.flatMap (target.columnReferences t.name)
  | addColumn t f => target.columnReferences t f
  | dropColumn .. => []
  | dropTable _ => []

theorem mem_references {target : Schema} {change : Change} {r : Relationship}
    (h : r ∈ change.references target) :
    r ∈ target.relationships ∧ r.fromTable = change.table := by
  cases change with
  | createTable t =>
    obtain ⟨f, -, hr⟩ := List.mem_flatMap.mp h
    exact Schema.mem_columnReferences hr
  | addColumn t f => exact Schema.mem_columnReferences h
  | dropColumn => cases h
  | dropTable => cases h

/-! ## What stays -/

variable {db next : Database} {previous current : Schema}

/-- A table that is there is still there after a change that does not drop it. -/
theorem isSome_of_applied? {change : Change} (h : change.applied? db = some next) {name : String}
    (hname : (db name).isSome = true) (hkeep : change ≠ .dropTable name) :
    (next name).isSome = true := by
  obtain ⟨columns, rfl, hdrop⟩ := Alteration.exists_update_of_made? h
  by_cases he : name = change.alteration.table
  · rw [he, Function.update_self, Option.isSome_iff_ne_none]
    intro hnone
    have halteration := hdrop hnone
    rw [← he] at halteration
    cases change <;> cases halteration
    exact hkeep rfl
  · rwa [Function.update_of_ne he]

theorem isSome_of_run? {changes : List Change} (h : run? db changes = some next) {name : String}
    (hname : (db name).isSome = true) (hkeep : .dropTable name ∉ changes) :
    (next name).isSome = true := by
  induction changes generalizing db with
  | nil =>
    obtain rfl := Option.some.inj h
    exact hname
  | cons change changes ih =>
    rw [List.mem_cons, not_or] at hkeep
    obtain ⟨mid, hmid, hlater⟩ := Option.bind_eq_some_iff.mp h
    exact ih hlater (isSome_of_applied? hmid hname (Ne.symm hkeep.1)) hkeep.2

/-- Every change of a run is made in its turn. -/
theorem run?_eq_some_of_split {changes done later : List Change} {change : Change}
    (h : run? db changes = some next) (hsplit : changes = done ++ change :: later) :
    ∃ mid after, run? db done = some mid ∧ change.applied? mid = some after := by
  rw [hsplit, run?_append] at h
  obtain ⟨mid, hmid, h⟩ := Option.bind_eq_some_iff.mp h
  obtain ⟨after, hafter, -⟩ := Option.bind_eq_some_iff.mp h
  exact ⟨mid, after, hmid, hafter⟩

/-! ## Where a change stands -/

/-- An element of two joined lists stands in the one or in the other. -/
theorem split_append {α : Type*} {as bs done later : List α} {x : α}
    (h : as ++ bs = done ++ x :: later) :
    (∃ rest, as = done ++ x :: rest ∧ later = rest ++ bs) ∨
      ∃ rest, done = as ++ rest ∧ bs = rest ++ x :: later := by
  rcases List.append_eq_append_iff.mp h with ⟨rest, hdone, hbs⟩ | ⟨rest, has, hrest⟩
  · exact .inr ⟨rest, hdone, hbs⟩
  · rcases List.cons_eq_append_iff.mp hrest with ⟨rfl, hbs⟩ | ⟨rest', rfl, hlater⟩
    · exact .inr ⟨[], by simpa using has.symm, hbs⟩
    · exact .inl ⟨rest', has, hlater⟩

/-- An element of lists that are joined stands in one of them. -/
theorem split_flatMap {α β : Type*} {g : α → List β} {as : List α} {done later : List β} {x : β}
    (h : as.flatMap g = done ++ x :: later) :
    ∃ before a after done' rest, as = before ++ a :: after ∧ done = before.flatMap g ++ done' ∧
      g a = done' ++ x :: rest := by
  induction as generalizing done with
  | nil => simp at h
  | cons a as ih =>
    rw [List.flatMap_cons] at h
    rcases split_append h with ⟨rest, ha, -⟩ | ⟨rest, rfl, has⟩
    · exact ⟨[], a, as, done, rest, rfl, rfl, ha⟩
    · obtain ⟨before, b, after, done', rest', rfl, rfl, hb⟩ := ih has
      exact ⟨a :: before, b, after, done', rest', rfl, by simp, hb⟩

/-- What a table of the new schema asks for is about that table and does not drop it. -/
theorem table_of_mem_toTable {t : Table} {change : Change} (h : change ∈ toTable previous t) :
    change.table = t.name ∧ ∀ name, change ≠ .dropTable name := by
  simp only [toTable, ofTable] at h
  split at h
  · rcases List.mem_append.mp h with h | h
    · obtain ⟨f, -, rfl⟩ := List.mem_map.mp h
      exact ⟨rfl, fun name hname => by cases hname⟩
    · obtain ⟨f, -, rfl⟩ := List.mem_map.mp h
      exact ⟨rfl, fun name hname => by cases hname⟩
  · split at h
    · cases h
    · obtain rfl := List.mem_singleton.mp h
      exact ⟨rfl, fun name hname => by cases hname⟩

/-! ## References -/

/-- When the turn of a table comes, it finds the tables that are declared before it. -/
theorem isSome_of_namesBefore (hp : previous.DistinctNames) (hc : current.DistinctNames)
    (hne : ∀ t ∈ current.tables, t.fields ≠ []) {before after : List Table} {t : Table}
    (htables : current.tables = before ++ t :: after) {changes : List Change}
    (hchanges : ∀ change ∈ changes, change ∈ toTable previous t)
    (h : run? (ofTables previous.tables) (before.flatMap (toTable previous) ++ changes) = some db)
    {name : String} (hname : name ∈ current.namesBefore t.name) : (db name).isSome = true := by
  have hsub : ∀ u ∈ before, u ∈ current.tables := by
    intro u hu
    rw [htables]
    exact List.mem_append_left _ hu
  have hn : (before.map (·.name)).Nodup := by
    have hall := hc.tables
    rw [htables, List.map_append] at hall
    exact hall.of_append_left
  rw [Schema.namesBefore_eq hc htables] at hname
  obtain ⟨u, hu, rfl⟩ := List.mem_map.mp hname
  rw [run?_append, run?_toTables hp hn (fun u hu => hc.fields u (hsub u hu))
    (fun u hu => hne u (hsub u hu)) fun _ _ => rfl, Option.bind_some] at h
  refine isSome_of_run? h ?_ fun hmem => (table_of_mem_toTable (hchanges _ hmem)).2 _ rfl
  rw [if_pos (List.mem_map_of_mem hu), ofTables_of_mem hn hu]
  rfl

/-- Tables are dropped in reverse order, so that none of those that are still to be dropped refers
to one that is dropped. -/
theorem toTable_ne_of_dropped (hp : previous.DistinctNames) (hb : previous.Backward)
    {done later : List Change} {name : String}
    (h : (previous.tables.reverse.filter fun t => (current.table? t.name).isNone).map
      (.dropTable ·.name) = done ++ .dropTable name :: later)
    {r : Relationship} (hr : r ∈ previous.relationships) (hlater : .dropTable r.fromTable ∈ later) :
    r.toTable ≠ name := by
  have hpairs := List.pairwise_reverse.mpr (Schema.pairwise_namesBefore hp)
  have hdrops : (done ++ Change.dropTable name :: later).Pairwise fun c c' =>
      c.table ≠ c'.table ∧ c.table ∉ previous.namesBefore c'.table := by
    rw [← h, List.pairwise_map]
    exact hpairs.filter _
  have hname := List.rel_of_pairwise_cons (List.pairwise_append.mp hdrops).2.1 hlater
  rintro rfl
  rcases hb r hr with hself | hbefore
  · exact hname.1 hself
  · exact hname.2 hbefore

/-- A change is made for a table of the new schema in its turn, or it drops a table in the end. -/
theorem split_between {done later : List Change} {change : Change}
    (h : between previous current = done ++ change :: later) :
    (∃ before t after changes rest, current.tables = before ++ t :: after ∧
      done = before.flatMap (toTable previous) ++ changes ∧
      toTable previous t = changes ++ change :: rest) ∨
    ∃ before, (previous.tables.reverse.filter fun t => (current.table? t.name).isNone).map
      (.dropTable ·.name) = before ++ change :: later := by
  rcases split_append h with ⟨rest, hturn, -⟩ | ⟨before, -, hdrop⟩
  · obtain ⟨before, t, after, changes, rest', htables, hdone, ht⟩ := split_flatMap hturn
    exact .inl ⟨before, t, after, changes, rest', htables, hdone, ht⟩
  · exact .inr ⟨before, hdrop⟩

/-- The key of a field is a relationship, so the two references of a consistent schema agree. -/
theorem toTable_ne_of_foreignKey (hconsistent : previous.inconsistencies = []) {name : String}
    {later : List Change}
    (h : ∀ r ∈ previous.relationships, .dropTable r.fromTable ∈ later → r.toTable ≠ name)
    {t : Table} (ht : t ∈ previous.tables) (hlater : .dropTable t.name ∈ later) {f : Field}
    (hf : f ∈ t.fields) {ref : Reference} (href : f.foreignKey = some ref) : ref.table ≠ name := by
  have hedge : ref.relationship t.name f.name ∈ previous.edges :=
    Schema.mem_edges.mpr ⟨t, ht, Table.mem_relationships.mpr ⟨f, hf, ref, href, rfl⟩⟩
  have hperm := (Schema.inconsistencies_eq_nil_iff_perm.mp hconsistent).1
  exact h _ (hperm.mem_iff.mpr hedge) hlater

/-- Between schemas whose tables refer to themselves and to earlier tables only, the statements come
in an order that foreign keys allow. The references that a change writes are to its own table or to
one that is there at that moment, and no table that is still to be dropped refers to one that is
dropped. -/
theorem between_references (d : Dialect) (hp : previous.DistinctNames)
    (hc : current.DistinctNames) (hne : ∀ t ∈ current.tables, t.fields ≠ [])
    (hconsistent : previous.inconsistencies = []) (hpb : previous.Backward)
    (hcb : current.Backward) :
    (current.longLength? = none → previous.checkedStatementsFrom current d =
      .ok ((between previous current).map (statement current d))) ∧
    (∀ table f, current.columnLine d table f =
      "    " ++ " ".intercalate (f.definitionParts d.spelling none ++
        (current.columnReferences table f).map fun r =>
          d.spelling.foreignKey r.toTable r.toField)) ∧
    ∀ done change later, between previous current = done ++ change :: later →
      ∃ db next, run? (ofTables previous.tables) done = some db ∧ change.applied? db = some next ∧
        (∀ r ∈ change.references current,
          r.toTable = change.table ∨ (db r.toTable).isSome = true) ∧
        ∀ name, change = .dropTable name →
          (∀ r ∈ previous.relationships, .dropTable r.fromTable ∈ later → r.toTable ≠ name) ∧
          ∀ t ∈ previous.tables, .dropTable t.name ∈ later →
            ∀ f ∈ t.fields, ∀ ref, f.foreignKey = some ref → ref.table ≠ name := by
  refine ⟨fun h => checkedStatementsFrom_eq_ok h d, current.columnLine_eq d, ?_⟩
  intro done change later h
  obtain ⟨db, next, hdone, hchange⟩ := run?_eq_some_of_split (run?_ofTables hp hc hne) h
  refine ⟨db, next, hdone, hchange, ?_⟩
  rcases split_between h with ⟨before, t, after, changes, rest, htables, rfl, ht⟩ | ⟨before, hdrop⟩
  · have hmine : ∀ c ∈ changes ++ change :: rest, c ∈ toTable previous t := by rw [ht]; simp
    obtain ⟨htable, hkeep⟩ := table_of_mem_toTable (hmine change (by simp))
    refine ⟨fun r hr => ?_, fun name hname => absurd hname (hkeep name)⟩
    obtain ⟨hmem, hfrom⟩ := mem_references hr
    rcases hcb r hmem with hself | hearlier
    · exact .inl (hself.trans hfrom)
    · rw [hfrom, htable] at hearlier
      have hchanges := fun c hc => hmine c (List.mem_append_left _ hc)
      exact .inr (isSome_of_namesBefore hp hc hne htables hchanges hdone hearlier)
  · have hmem : change ∈ before ++ change :: later := by simp
    rw [← hdrop] at hmem
    obtain ⟨t, -, rfl⟩ := List.mem_map.mp hmem
    refine ⟨fun r hr => (List.not_mem_nil hr).elim, fun name hname => ?_⟩
    obtain rfl : t.name = name := dropTable.inj hname
    have hlater := fun r hr => toTable_ne_of_dropped (r := r) hp hpb hdrop hr
    exact ⟨hlater, fun u hu hmem f hf ref href =>
      toTable_ne_of_foreignKey hconsistent hlater hu hmem hf href⟩

/-- A table is created behind one that it refers to, and of two tables that are dropped the one that
refers to the other goes first. -/
theorem between_references_reviews :
    let key : Field := { name := "id", type := "int8", nullable := false, primaryKey := true }
    let users : Table := ⟨"users", [key]⟩
    let orders : Table :=
      ⟨"orders", [key, { name := "user_id", type := "int8", foreignKey := some ⟨"users", "id"⟩ }]⟩
    let reviews : Table :=
      ⟨"reviews", [{ name := "order_id", type := "int8", foreignKey := some ⟨"orders", "id"⟩ }]⟩
    let teams : Table :=
      ⟨"teams", [key, { name := "parent", type := "int8", foreignKey := some ⟨"teams", "id"⟩ }]⟩
    let team : Field := { name := "team_id", type := "int8", foreignKey := some ⟨"teams", "id"⟩ }
    let previous : Schema :=
      { tables := [users, orders, reviews]
        relationships :=
          [⟨"orders", "user_id", "users", "id"⟩, ⟨"reviews", "order_id", "orders", "id"⟩] }
    let current : Schema :=
      { tables := [teams, ⟨"users", [key, team]⟩]
        relationships := [⟨"teams", "parent", "teams", "id"⟩, ⟨"users", "team_id", "teams", "id"⟩] }
    between previous current =
        [.createTable teams, .addColumn "users" team, .dropTable "reviews", .dropTable "orders"] ∧
      (∃ db next, run? (ofTables previous.tables) [.createTable teams] = some db ∧
        (addColumn "users" team).applied? db = some next ∧ (db "teams").isSome = true) ∧
      ∀ r ∈ previous.relationships,
        .dropTable r.fromTable ∈ [dropTable "orders"] → r.toTable ≠ "reviews" := by
  intro key users orders reviews teams team previous current
  have hnames : previous.DistinctNames ∧ current.DistinctNames :=
    ⟨⟨by decide, by decide⟩, ⟨by decide, by decide⟩⟩
  have h := (between_references .postgresql hnames.1 hnames.2 (by decide) (by decide) (by decide)
    (by decide)).2.2
  have hbetween : between previous current =
      [.createTable teams, .addColumn "users" team, .dropTable "reviews", .dropTable "orders"] := by
    decide
  refine ⟨hbetween, ?_, ?_⟩
  · obtain ⟨db, next, hdb, hnext, hreferences, -⟩ := h [_] _ _ hbetween
    have hteams := hreferences ⟨"users", "team_id", "teams", "id"⟩ (by decide)
    exact ⟨db, next, hdb, hnext, hteams.resolve_left (by decide)⟩
  · obtain ⟨db, next, -, -, -, hdrop⟩ := h [_, _] _ _ hbetween
    exact (hdrop "reviews" rfl).1

end Change

end Schemata
