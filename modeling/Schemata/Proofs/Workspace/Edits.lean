import Mathlib.Data.List.Forall2
import Mathlib.Tactic
import Schemata.Proofs.Schema.Editing
import Schemata.Workspace.Basic

/-!
# Edits of a workspace

Removing a table takes away what touches the table and nothing else. Adding a table forgets what
another table of its name has left behind, and a table that nothing refers to is gone without a
trace when it is removed again.
-/
namespace Schemata

/-! ## References that go with a table -/

/-- No reference of the field points at a table of a given name. -/
def Field.Avoids (name : String) (f : Field) : Prop := ∀ r ∈ f.foreignKey, r.table ≠ name

/-- A field loses a reference to a table of a given name, and keeps everything else. -/
structure Field.Released (name : String) (f g : Field) : Prop where
  unlinked_eq : g.unlinked = f.unlinked
  foreignKey_eq : f.Avoids name → g.foreignKey = f.foreignKey
  foreignKey_eq_none : ¬f.Avoids name → g.foreignKey = none

theorem Field.Released.avoids {name : String} {f g : Field} (h : f.Released name g) :
    g.Avoids name := by
  intro r hr
  by_cases hf : f.Avoids name
  · exact hf r (h.foreignKey_eq hf ▸ hr)
  · rw [h.foreignKey_eq_none hf] at hr
    cases hr

theorem Field.avoids_iff {name : String} {f : Field} :
    f.Avoids name ↔ f.foreignKey.map (·.table) ≠ some name := by
  simp [Avoids, Option.map_eq_some_iff]

theorem Field.withoutReferenceTo_of_avoids {name : String} {f : Field} (h : f.Avoids name) :
    f.withoutReferenceTo name = f := by
  rw [withoutReferenceTo, if_neg (avoids_iff.mp h)]

theorem Field.released_withoutReferenceTo (name : String) (f : Field) :
    f.Released name (f.withoutReferenceTo name) where
  unlinked_eq := by
    rw [withoutReferenceTo]
    split <;> rfl
  foreignKey_eq h := by rw [withoutReferenceTo_of_avoids h]
  foreignKey_eq_none h := by rw [withoutReferenceTo, if_pos (not_not.mp (mt avoids_iff.mpr h))]

structure Table.Released (name : String) (t u : Table) : Prop where
  name_eq : u.name = t.name
  fields : List.Forall₂ (Field.Released name) t.fields u.fields

namespace Schema

/-! ## Removing -/

/-- With different names one table at most has a given name. -/
theorem eraseP_name_eq_filter {ts : List Table} (h : (ts.map (·.name)).Nodup) (name : String) :
    ts.eraseP (·.name = name) = ts.filter (·.name ≠ name) := by
  induction ts with
  | nil => rfl
  | cons t ts ih =>
    simp only [List.map_cons, List.nodup_cons] at h
    by_cases ht : t.name = name
    · have hrest : ts.filter (·.name ≠ name) = ts := by
        rw [List.filter_eq_self]
        intro u hu
        exact decide_eq_true fun he => h.1 (List.mem_map.mpr ⟨u, hu, he.trans ht.symm⟩)
      rw [List.eraseP_cons_of_pos (by simpa using ht), List.filter_cons_of_neg (by simpa using ht),
        hrest]
    · rw [List.eraseP_cons_of_neg (by simpa using ht), List.filter_cons_of_pos (by simpa using ht),
        ih h.2]

theorem removeTable?_eq_none_iff {s : Schema} {name : String} :
    s.removeTable? name = none ↔ ∀ t ∈ s.tables, t.name ≠ name := by
  simp [removeTable?, table?]

/-- What is left of a schema without a table: the other tables and relationships in their order, and
of the fields everything but their references to the table. -/
structure Without (name : String) (s rest : Schema) : Prop where
  tables : List.Forall₂ (Table.Released name) (s.tables.filter (·.name ≠ name)) rest.tables
  relationships :
    rest.relationships = s.relationships.filter fun r => r.fromTable ≠ name ∧ r.toTable ≠ name
  avoids : ∀ t ∈ rest.tables, ∀ f ∈ t.fields, f.Avoids name

theorem without_of_removeTable? {s rest : Schema} {name : String}
    (h : (s.tables.map (·.name)).Nodup) (hrest : s.removeTable? name = some rest) :
    s.Without name rest := by
  obtain ⟨htables, hrelationships⟩ := removeTable?_eq_some hrest
  refine ⟨?_, ?_, fun u hu g hg => ?_⟩
  · rw [htables, eraseP_name_eq_filter h, List.forall₂_map_right_iff, List.forall₂_same]
    refine fun t _ => ⟨rfl, ?_⟩
    rw [List.forall₂_map_right_iff, List.forall₂_same]
    exact fun f _ => f.released_withoutReferenceTo name
  · rw [hrelationships]
    exact List.filter_congr fun r _ => by simp
  · rw [htables] at hu
    obtain ⟨t, -, rfl⟩ := List.mem_map.mp hu
    obtain ⟨f, -, rfl⟩ := List.mem_map.mp hg
    exact (f.released_withoutReferenceTo name).avoids

/-! ## Adding -/

theorem putTable_putTable {t u : Table} (h : t.name = u.name) (ts : List Table) :
    putTable u (putTable t ts) = putTable u ts := by
  induction ts with
  | nil => simp [putTable, h]
  | cons old rest ih =>
    by_cases hold : old.name = u.name
    · simp [putTable, h, hold]
    · simp [putTable, h, hold, ih]

/-- Of two tables of one name only the second one counts. -/
theorem addTable_addTable (s : Schema) {t u : Table} (h : t.name = u.name) :
    (s.addTable t).addTable u = s.addTable u := by
  simp only [addTable, putTable_putTable h, List.filter_append, Table.filter_fromTable_of_eq h,
    List.append_nil, List.filter_filter, h, Bool.and_self]

theorem putTable_of_new {t : Table} {ts : List Table} (h : ∀ u ∈ ts, u.name ≠ t.name) :
    putTable t ts = ts ++ [t] := by
  induction ts with
  | nil => rfl
  | cons old rest ih =>
    rw [List.forall_mem_cons] at h
    rw [putTable, if_neg h.1, ih h.2, List.cons_append]

/-- Where every reference has its relationship, no field refers to a table that no relationship
leads to. -/
theorem avoids_of_consistent {s : Schema} (hs : s.inconsistencies = []) {name : String}
    (hfree : ∀ r ∈ s.relationships, r.toTable ≠ name) {t : Table} (ht : t ∈ s.tables) {f : Field}
    (hf : f ∈ t.fields) : f.Avoids name := by
  intro r hr
  have hperm := (inconsistencies_eq_nil_iff_perm.mp hs).1
  have hedge : r.relationship t.name f.name ∈ s.relationships :=
    hperm.mem_iff.mpr (mem_edges.mpr ⟨t, ht, Table.mem_relationships.mpr ⟨f, hf, r, hr, rfl⟩⟩)
  exact hfree _ hedge

theorem map_withoutReferenceTo_of_consistent {s : Schema} (hs : s.inconsistencies = [])
    {name : String} (hfree : ∀ r ∈ s.relationships, r.toTable ≠ name) :
    s.tables.map (fun t =>
      ({ t with fields := t.fields.map (Field.withoutReferenceTo name) } : Table)) = s.tables := by
  refine (List.map_congr_left fun t ht => ?_).trans (List.map_id _)
  have hfields : t.fields.map (Field.withoutReferenceTo name) = t.fields :=
    (List.map_congr_left fun f hf => Field.withoutReferenceTo_of_avoids
      (avoids_of_consistent hs hfree ht hf)).trans (List.map_id _)
  rw [hfields, id]

/-- Where every relationship has its field, none leaves a table that is not there. -/
theorem fromTable_ne_of_consistent {s : Schema} (hs : s.inconsistencies = []) {name : String}
    (hnew : ∀ t ∈ s.tables, t.name ≠ name) {r : Relationship} (hr : r ∈ s.relationships) :
    r.fromTable ≠ name := by
  have hperm := (inconsistencies_eq_nil_iff_perm.mp hs).1
  obtain ⟨t, ht, hrt⟩ := mem_edges.mp (hperm.mem_iff.mp hr)
  rw [Table.fromTable_of_mem hrt]
  exact hnew t ht

theorem addTable_of_new {s : Schema} {t : Table} (hs : s.inconsistencies = [])
    (hnew : ∀ u ∈ s.tables, u.name ≠ t.name) :
    s.addTable t = ⟨s.tables ++ [t], s.relationships ++ t.relationships⟩ := by
  have hkept : s.relationships.filter (·.fromTable ≠ t.name) = s.relationships := by
    rw [List.filter_eq_self]
    exact fun r hr => decide_eq_true (fromTable_ne_of_consistent hs hnew hr)
  rw [addTable, putTable_of_new hnew, hkept]

/-- Nothing of a table is left when it is removed right after it was added, if there was no table of
its name and no relationship that leads to one. -/
theorem removeTable?_addTable {s : Schema} {t : Table} (hs : s.inconsistencies = [])
    (hnew : ∀ u ∈ s.tables, u.name ≠ t.name) (hfree : ∀ r ∈ s.relationships, r.toTable ≠ t.name) :
    (s.addTable t).removeTable? t.name = some s := by
  have htables : ((s.tables ++ [t]).eraseP (·.name = t.name)).map (fun u =>
      ({ u with fields := u.fields.map (Field.withoutReferenceTo t.name) } : Table)) =
        s.tables := by
    rw [List.eraseP_append_right _ (by simpa using hnew), List.eraseP_cons_of_pos (by simp),
      List.append_nil]
    exact map_withoutReferenceTo_of_consistent hs hfree
  have hrelationships : (s.relationships ++ t.relationships).filter
      (fun r => r.fromTable ≠ t.name && r.toTable ≠ t.name) = s.relationships := by
    have hkept : s.relationships.filter (fun r => r.fromTable ≠ t.name && r.toTable ≠ t.name) =
        s.relationships := by
      rw [List.filter_eq_self]
      intro r hr
      simp [fromTable_ne_of_consistent hs hnew hr, hfree r hr]
    -- those of the table go because they leave it, wherever they lead to
    have hgone : t.relationships.filter (fun r => r.fromTable ≠ t.name && r.toTable ≠ t.name) =
        [] := by
      rw [List.filter_eq_nil_iff]
      intro r hr
      simp [Table.fromTable_of_mem hr]
    rw [List.filter_append, hkept, hgone, List.append_nil]
  have hfound : ¬(((⟨s.tables ++ [t], s.relationships ++ t.relationships⟩ : Schema).table?
      t.name).isNone = true) := by
    simp [table?]
  rw [addTable_of_new hs hnew, removeTable?, if_neg hfound, htables, hrelationships]

end Schema

/-! ## Workspaces -/

namespace Workspace

section

variable {Memory Listener : Type} [DecidableEq Listener] (lexing : Dialect → Tokenizer)
  (settings : Settings) (behaviour : Behaviour Memory Listener) (w : Workspace Memory Listener)

/-- Removing a table that is not there changes nothing and is heard by nobody. Otherwise the table
is gone together with the relationships that touch it and the references to it, everything else
stays in place, and one event is delivered with the schema that is left. -/
theorem performWith_removeTable (h : (w.schema.tables.map (·.name)).Nodup) (name : String) :
    ((∀ t ∈ w.schema.tables, t.name ≠ name) →
        performWith lexing settings behaviour w (.removeTable name) = (w, .removed false, [])) ∧
      ((∃ t ∈ w.schema.tables, t.name = name) →
        ∃ rest : Schema, w.schema.Without name rest ∧
          performWith lexing settings behaviour w (.removeTable name) =
            (⟨rest, (w.registry.notify behaviour .changed rest).1⟩, .removed true,
              (w.registry.notify behaviour .changed rest).2)) := by
  constructor
  · intro hmissing
    have hnone := Schema.removeTable?_eq_none_iff.mpr hmissing
    simp only [performWith, Operation.effect, hnone, Registry.notifyAll]
  · rintro ⟨t, ht, rfl⟩
    cases hrest : w.schema.removeTable? t.name with
    | none => exact absurd rfl (Schema.removeTable?_eq_none_iff.mp hrest t ht)
    | some rest =>
      refine ⟨rest, Schema.without_of_removeTable? h hrest, ?_⟩
      simp only [performWith, Operation.effect, hrest, Registry.notifyAll, List.append_nil]

/-- The table refers to itself, others refer to it and to each other, and a view listens. -/
theorem performWith_removeTable_users :
    let users : Table :=
      ⟨"users", [{ name := "id", type := "int8", nullable := false, primaryKey := true },
        { name := "parent_id", foreignKey := some ⟨"users", "id"⟩ }]⟩
    let posts : Table :=
      ⟨"posts", [{ name := "user_id", foreignKey := some ⟨"users", "id"⟩ },
        { name := "tag_id", nullable := false, foreignKey := some ⟨"tags", "id"⟩ }]⟩
    let w : Workspace Unit String :=
      ⟨⟨[users, posts, ⟨"tags", [{ name := "id" }]⟩],
        [⟨"users", "parent_id", "users", "id"⟩, ⟨"posts", "user_id", "users", "id"⟩,
          ⟨"posts", "tag_id", "tags", "id"⟩]⟩, ⟨(), ["view"]⟩⟩
    let remove (name : String) :=
      performWith Dialect.lexemes {} (fun (_ : Unit) (_ : String) _ _ => ⟨(), []⟩) w
        (.removeTable name)
    (w.schema.tables.map (·.name)).Nodup ∧ (∀ t ∈ w.schema.tables, t.name ≠ "ghost") ∧
      remove "ghost" = (w, .removed false, []) ∧ (∃ t ∈ w.schema.tables, t.name = "users") ∧
        ∃ rest, w.schema.Without "users" rest ∧
          remove "users" = (⟨rest, ⟨(), ["view"]⟩⟩, .removed true, [⟨"view", .changed, rest⟩]) := by
  intro users posts w remove
  have hnames : (w.schema.tables.map (·.name)).Nodup := by decide
  have hghost : ∀ t ∈ w.schema.tables, t.name ≠ "ghost" := by decide
  have husers : ∃ t ∈ w.schema.tables, t.name = "users" := ⟨users, List.mem_cons_self, rfl⟩
  exact ⟨hnames, hghost, (performWith_removeTable _ _ _ w hnames "ghost").1 hghost, husers,
    (performWith_removeTable _ _ _ w hnames "users").2 husers⟩

/-- Of two tables of one name that are added one after the other only the second one counts. A table
that is new and that no relationship leads to can be added and removed again, and the schema is what
it was. -/
theorem schema_addTable_then :
    (∀ t t' : Table, t.name = t'.name →
        (performWith lexing settings behaviour
            (performWith lexing settings behaviour w (.addTable t)).1 (.addTable t')).1.schema =
          (performWith lexing settings behaviour w (.addTable t')).1.schema) ∧
      (w.schema.inconsistencies = [] → ∀ t : Table,
        (∀ u ∈ w.schema.tables, u.name ≠ t.name) →
        (∀ r ∈ w.schema.relationships, r.toTable ≠ t.name) →
          let removed := performWith lexing settings behaviour
            (performWith lexing settings behaviour w (.addTable t)).1 (.removeTable t.name)
          removed.1.schema = w.schema ∧ removed.2.1 = .removed true) := by
  constructor
  · intro t t' hname
    exact Schema.addTable_addTable w.schema hname
  · intro hs t hnew hfree
    have hback : (w.schema.addTable t).removeTable? t.name = some w.schema :=
      Schema.removeTable?_addTable hs hnew hfree
    simp only [performWith, Operation.effect, hback, and_self]

/-- A table is replaced by one with other references, and a table that refers to itself and repeats
a field name comes and goes. -/
theorem schema_addTable_then_tags :
    let users : Table := ⟨"users", [{ name := "id", primaryKey := true, nullable := false }]⟩
    let posts : Table := ⟨"posts", [{ name := "user_id", foreignKey := some ⟨"users", "id"⟩ }]⟩
    let tags : Table :=
      ⟨"tags", [{ name := "tag_id", foreignKey := some ⟨"tags", "tag_id"⟩ },
        { name := "tag_id", foreignKey := some ⟨"posts", "user_id"⟩ }]⟩
    let w : Workspace Unit String :=
      ⟨⟨[posts, users], [⟨"posts", "user_id", "users", "id"⟩]⟩, ⟨(), ["view"]⟩⟩
    let perform (w : Workspace Unit String) (op : Operation) :=
      (performWith Dialect.lexemes {} (fun (_ : Unit) (_ : String) _ _ => ⟨(), []⟩) w op).1
    posts.name = ({ tags with name := "posts" } : Table).name ∧
      (perform (perform w (.addTable posts)) (.addTable { tags with name := "posts" })).schema =
        (perform w (.addTable { tags with name := "posts" })).schema ∧
      w.schema.inconsistencies = [] ∧ (∀ u ∈ w.schema.tables, u.name ≠ tags.name) ∧
      (∀ r ∈ w.schema.relationships, r.toTable ≠ tags.name) ∧
      (perform (perform w (.addTable tags)) (.removeTable tags.name)).schema = w.schema := by
  intro users posts tags w perform
  have hs : w.schema.inconsistencies = [] := by decide
  have hnew : ∀ u ∈ w.schema.tables, u.name ≠ tags.name := by decide
  have hfree : ∀ r ∈ w.schema.relationships, r.toTable ≠ tags.name := by decide
  obtain ⟨hreplaced, hremoved⟩ := schema_addTable_then Dialect.lexemes {}
    (fun (_ : Unit) (_ : String) _ _ => ⟨(), []⟩) w
  exact ⟨rfl, hreplaced posts { tags with name := "posts" } rfl, hs, hnew, hfree,
    (hremoved hs tags hnew hfree).1⟩

end

end Workspace

end Schemata
