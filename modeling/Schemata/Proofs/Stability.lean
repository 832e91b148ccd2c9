import Mathlib.Algebra.Order.BigOperators.Group.List
import Mathlib.Tactic
import Schemata.Proofs.Conversion

/-!
# Scripts that are written again

A script that is read and written again comes out as it was, with one exception. The family without
booleans spells a boolean key like any integer; it is read back as an integer key, and that is
spelled with a word more. The length of the script shows that this word is never made up for.
-/
namespace Schemata

/-! ## Lengths -/

theorem length_intercalate (sep : String) (parts : List String) :
    (sep.intercalate parts).length =
      (parts.map String.length).sum + sep.length * (parts.length - 1) := by
  have hlist : ∀ lists : List (List Char), (sep.toList.intercalate lists).length =
      (lists.map List.length).sum + sep.toList.length * (lists.length - 1) := by
    intro lists
    induction lists with
    | nil => simp
    | cons l ls ih =>
      cases ls with
      | nil => simp
      | cons m ms =>
        rw [List.intercalate_cons_cons, List.length_append, List.length_append, ih]
        simp only [List.map_cons, List.sum_cons, List.length_cons, Nat.add_sub_cancel, Nat.mul_succ]
        omega
  have hparts := hlist (parts.map String.toList)
  rw [← String.length_toList, String.toList_intercalate, hparts]
  simp [Function.comp_def, String.length_toList]

section Joined

variable {α : Type} {as : List α} {g g' : α → String}

theorem length_intercalate_le (sep : String) (h : ∀ a ∈ as, (g a).length ≤ (g' a).length) :
    (sep.intercalate (as.map g)).length ≤ (sep.intercalate (as.map g')).length := by
  have hsum := List.sum_le_sum h
  rw [length_intercalate, length_intercalate, List.map_map, List.map_map, List.length_map,
    List.length_map]
  exact Nat.add_le_add_right hsum _

/-- One longer part makes the whole longer. -/
theorem length_intercalate_lt (sep : String) (h : ∀ a ∈ as, (g a).length ≤ (g' a).length)
    (hlt : ∃ a ∈ as, (g a).length < (g' a).length) :
    (sep.intercalate (as.map g)).length < (sep.intercalate (as.map g')).length := by
  have hsum := List.sum_lt_sum _ _ h hlt
  rw [length_intercalate, length_intercalate, List.map_map, List.map_map, List.length_map,
    List.length_map]
  exact Nat.add_lt_add_right hsum _

end Joined

/-! ## Columns -/

namespace Field

/-- A column that keeps its spelling when it is read back. Where there are no booleans, a boolean
key does not. -/
def Settled (f : Field) (d : Dialect) : Prop :=
  d = .sqlite → f.primaryKey = true → f.type ≠ "boolean"

variable {f : Field} {d : Dialect}

theorem typeDefinition_stored (hl : ∃ l : LogicalType, f.type = l.name) (hf : f.Settled d) :
    (f.stored d).typeDefinition d.spelling = f.typeDefinition d.spelling := by
  obtain ⟨l, hl⟩ := hl
  have hstored : (f.stored d).type = (l.stored d).name :=
    (congrArg d.storedType hl).trans (l.storedType_name d)
  have hboolean : d = .sqlite → f.primaryKey = true → l ≠ .boolean := by
    rintro rfl hkey rfl
    exact hf rfl hkey hl
  rw [typeDefinition_eq hstored, typeDefinition_eq hl]
  change " ".intercalate ((l.stored d).columnWord d f.primaryKey ::
    (l.stored d).keyWords d f.primaryKey) = _
  cases hkey : f.primaryKey with
  | false => cases l <;> cases d <;> rfl
  | true =>
    cases d with
    | sqlite =>
      cases l with
      | boolean => exact absurd rfl (hboolean rfl hkey)
      | _ => rfl
    | _ => cases l <;> rfl

theorem length_typeDefinition_lt (hf : ¬f.Settled d) :
    (f.typeDefinition d.spelling).length < ((f.stored d).typeDefinition d.spelling).length := by
  rw [Settled] at hf
  push Not at hf
  obtain ⟨rfl, hkey, htype⟩ := hf
  have hold : f.typeDefinition Spelling.sqlite = "INTEGER PRIMARY KEY" := by
    rw [typeDefinition, hkey, htype]
    decide
  have hnew : (f.stored .sqlite).typeDefinition Spelling.sqlite =
      "INTEGER PRIMARY KEY AUTOINCREMENT" := by
    have hstored : (f.stored .sqlite).type = "int8" := by rw [stored, htype]; rfl
    rw [typeDefinition, hstored]
    change (if f.primaryKey = true then _ else _) = _
    rw [hkey]
    decide
  change (f.typeDefinition Spelling.sqlite).length <
    ((f.stored .sqlite).typeDefinition Spelling.sqlite).length
  rw [hold, hnew]
  decide

end Field

/-! ## Scripts -/

namespace Schema

variable {s : Schema} {t : Table} {f : Field} {d : Dialect}

/-- Two column lines differ in length by as much as their types do. -/
theorem length_columnLine_stored (s : Schema) (d : Dialect) (name : String) (f : Field) :
    (s.columnLine d name (f.stored d)).length + (f.typeDefinition d.spelling).length =
      (s.columnLine d name f).length + ((f.stored d).typeDefinition d.spelling).length := by
  obtain ⟨tail, hold, hnew⟩ : ∃ tail,
      f.definitionParts d.spelling (s.relationship? name f.name) =
        f.name :: f.typeDefinition d.spelling :: tail ∧
      (f.stored d).definitionParts d.spelling (s.relationship? name (f.stored d).name) =
        f.name :: (f.stored d).typeDefinition d.spelling :: tail := ⟨_, rfl, rfl⟩
  simp only [columnLine, columnDefinition, Field.definition, hold, hnew, String.length_append,
    length_intercalate, List.map_cons, List.sum_cons, List.length_cons]
  omega

theorem length_columnLine_lt (hf : ¬f.Settled d) (name : String) :
    (s.columnLine d name f).length < (s.columnLine d name (f.stored d)).length := by
  have htype := Field.length_typeDefinition_lt hf
  have hline := length_columnLine_stored s d name f
  omega

theorem length_columnLine_le (hl : ∃ l : LogicalType, f.type = l.name) (name : String) :
    (s.columnLine d name f).length ≤ (s.columnLine d name (f.stored d)).length := by
  by_cases hf : f.Settled d
  · have hline := length_columnLine_stored s d name f
    rw [Field.typeDefinition_stored hl hf] at hline
    omega
  · exact (length_columnLine_lt hf name).le

theorem length_tableDefinition_le (hl : ∀ f ∈ t.fields, ∃ l : LogicalType, f.type = l.name) :
    (s.tableDefinition d t).length ≤ (s.tableDefinition d (t.stored d)).length := by
  have hlines := length_intercalate_le ",\n"
    fun f hf => length_columnLine_le (s := s) (d := d) (hl f hf) t.name
  rw [tableDefinition_eq, tableDefinition_eq, Table.stored, List.map_map]
  simp only [String.length_append]
  exact Nat.add_le_add_right (Nat.add_le_add_left hlines _) _

theorem length_tableDefinition_lt (hl : ∀ f ∈ t.fields, ∃ l : LogicalType, f.type = l.name)
    (hf : ∃ f ∈ t.fields, ¬f.Settled d) :
    (s.tableDefinition d t).length < (s.tableDefinition d (t.stored d)).length := by
  obtain ⟨f, hmem, hf⟩ := hf
  have hlines := length_intercalate_lt ",\n"
    (fun f hf => length_columnLine_le (s := s) (d := d) (hl f hf) t.name)
    ⟨f, hmem, length_columnLine_lt hf t.name⟩
  rw [tableDefinition_eq, tableDefinition_eq, Table.stored, List.map_map]
  simp only [String.length_append]
  exact Nat.add_lt_add_right (Nat.add_lt_add_left hlines _) _

theorem tableDefinition_stored (hl : ∀ f ∈ t.fields, ∃ l : LogicalType, f.type = l.name)
    (hf : ∀ f ∈ t.fields, f.Settled d) :
    s.tableDefinition d (t.stored d) = s.tableDefinition d t := by
  have hlines : (t.fields.map (·.stored d)).map (s.columnLine d t.name) =
      t.fields.map (s.columnLine d t.name) := by
    rw [List.map_map]
    refine List.map_congr_left fun f hmem => ?_
    have htype := Field.typeDefinition_stored (hl f hmem) (hf f hmem)
    simp only [Function.comp, columnLine, columnDefinition, Field.definition,
      Field.definitionParts, htype]
    rfl
  rw [tableDefinition_eq, tableDefinition_eq]
  change _ ++ ",\n".intercalate ((t.fields.map (·.stored d)).map (s.columnLine d t.name)) ++ _ = _
  rw [hlines]
  rfl

/-- In its own dialect a well-formed schema is written as it was read exactly if all of its columns
are settled there. -/
theorem script_kept_eq_iff (h : s.WellFormed) (d : Dialect) :
    (s.kept d).script d = s.script d ↔ ∀ t ∈ s.tables, ∀ f ∈ t.fields, f.Settled d := by
  have hl : ∀ t ∈ s.creatable, ∀ f ∈ t.fields, ∃ l : LogicalType, f.type = l.name :=
    fun t ht => (h.tables t (List.mem_of_mem_filter ht)).types
  rw [script_kept_eq h, script]
  constructor
  · intro hsame
    by_contra hnot
    push Not at hnot
    obtain ⟨t, ht, f, hf, hopen⟩ := hnot
    have hcreatable : t ∈ s.creatable :=
      List.mem_filter.mpr ⟨ht, decide_eq_true (List.ne_nil_of_mem hf)⟩
    have hlonger := length_intercalate_lt "\n\n"
      (fun t ht => length_tableDefinition_le (s := s) (d := d) (hl t ht))
      ⟨t, hcreatable, length_tableDefinition_lt (hl t hcreatable) ⟨f, hf, hopen⟩⟩
    rw [hsame] at hlonger
    exact lt_irrefl _ hlonger
  · intro hall
    refine congrArg _ (List.map_congr_left fun t ht => ?_)
    exact tableDefinition_stored (hl t ht) (hall t (List.mem_of_mem_filter ht))

end Schema

/-! ## Keys that may be null

A key is written in the same way whether or not it may be null, so a schema is first brought into
the form in which it is read back. -/

/-- The column with a key that is never null. -/
def Field.strict (f : Field) : Field := { f with nullable := f.nullable && !f.primaryKey }

def Table.strict (t : Table) : Table := { t with fields := t.fields.map Field.strict }

def Schema.strict (s : Schema) : Schema := { s with tables := s.tables.map Table.strict }

theorem Table.relationships_strict (t : Table) : t.strict.relationships = t.relationships := by
  simp only [relationships, strict, List.filterMap_map]
  rfl

namespace Schema

variable {s : Schema} {d : Dialect}

theorem strict_edges (s : Schema) : s.strict.edges = s.edges := by
  rw [edges_eq_flatMap, edges_eq_flatMap, strict, List.flatMap_map]
  simp only [Table.relationships_strict]

theorem DistinctNames.wellFormed_strict (h : s.DistinctNames)
    (hl : ∀ t ∈ s.tables, ∀ f ∈ t.fields, ∃ l : LogicalType, f.type = l.name)
    (hs : s.inconsistencies = []) : s.strict.WellFormed := by
  have hnames : (s.strict.tables.map (·.name)).Nodup := by
    rw [strict, List.map_map]
    exact h.tables
  have htables : ∀ t ∈ s.strict.tables, t.WellFormed := by
    intro t ht
    obtain ⟨u, hu, rfl⟩ := List.mem_map.mp ht
    refine ⟨?_, fun f hf => ?_, fun f hf hkey => ?_⟩
    · rw [Table.strict, List.map_map]
      exact h.fields u hu
    · obtain ⟨g, hg, rfl⟩ := List.mem_map.mp hf
      exact hl u hu g hg
    · obtain ⟨g, -, rfl⟩ := List.mem_map.mp hf
      have hg : g.primaryKey = true := hkey
      simp [Field.strict, hg]
  have hdistinct : s.strict.DistinctNames := ⟨hnames, fun t ht => (htables t ht).names⟩
  refine ⟨hnames, htables, hdistinct.inconsistencies_eq_nil_iff.mpr ?_⟩
  rw [strict_edges]
  exact h.inconsistencies_eq_nil_iff.mp hs

theorem PlainlyNamed.strict (h : s.PlainlyNamed) : s.strict.PlainlyNamed := by
  intro t ht
  obtain ⟨u, hu, rfl⟩ := List.mem_map.mp ht
  refine ⟨(h u hu).name, fun f hf => ?_, fun f hf => ?_⟩
  · obtain ⟨g, hg, rfl⟩ := List.mem_map.mp hf
    exact (h u hu).fields g hg
  · obtain ⟨g, hg, rfl⟩ := List.mem_map.mp hf
    exact (h u hu).references g hg

theorem inferred_strict (hs : s.inferred = []) : s.strict.inferred = [] := by
  have hcandidates : candidatesOf s.strict.tables = candidatesOf s.tables := by
    refine candidatesOf_map (g := Table.strict) (fun _ => rfl) (fun t => ?_) _
    rw [Table.primaryKey?, Table.strict, List.find?_map, Option.map_map]
    rfl
  rw [inferred_eq_nil_iff] at hs ⊢
  rw [hcandidates]
  intro t ht f hf
  obtain ⟨u, hu, rfl⟩ := List.mem_map.mp ht
  obtain ⟨g, hg, rfl⟩ := List.mem_map.mp hf
  exact hs u hu g hg

theorem columnLine_strict (s : Schema) (d : Dialect) (name : String) (f : Field) :
    s.strict.columnLine d name f.strict = s.columnLine d name f := by
  have hnull : (!f.strict.nullable && !f.primaryKey) = (!f.nullable && !f.primaryKey) := by
    rw [Field.strict]
    cases f.nullable <;> cases f.primaryKey <;> rfl
  simp only [columnLine, columnDefinition, Field.definition, Field.definitionParts]
  change "    " ++ " ".intercalate (_ ++ (if (!f.strict.nullable && !f.primaryKey) = true then
    [d.spelling.notNull] else []) ++ _) = _
  rw [hnull]
  rfl

theorem script_strict (s : Schema) (d : Dialect) : s.strict.script d = s.script d := by
  have hcreatable : s.strict.creatable = s.creatable.map Table.strict := by
    rw [creatable, strict, List.filter_map, creatable]
    congr 2
    funext t
    simp [Table.strict]
  have htable : ∀ t : Table, s.strict.tableDefinition d t.strict = s.tableDefinition d t := by
    intro t
    have hlines : t.strict.fields.map (s.strict.columnLine d t.name) =
        t.fields.map (s.columnLine d t.name) := by
      rw [Table.strict, List.map_map]
      exact List.map_congr_left fun f _ => columnLine_strict s d t.name f
    rw [tableDefinition_eq, tableDefinition_eq]
    change _ ++ ",\n".intercalate (t.strict.fields.map (s.strict.columnLine d t.name)) ++ _ = _
    rw [hlines]
    rfl
  rw [script, script, hcreatable, List.map_map]
  exact congrArg _ (List.map_congr_left fun t _ => htable t)

end Schema

/-! ## Round trips -/

namespace Script

/-- A consistent schema of plain names, to which nothing can be added, is written in the same way
after it has been read back, exactly if it has no boolean key or its dialect has booleans. -/
theorem script_readSchema_script {tokenize : Tokenizer} {s : Schema} {d : Dialect}
    (h : s.DistinctNames) (hl : ∀ t ∈ s.tables, ∀ f ∈ t.fields, ∃ l : LogicalType, f.type = l.name)
    (hs : s.inconsistencies = []) (hn : s.PlainlyNamed) (hdone : s.inferred = [])
    (ht : tokenize.ReadsPlainly (s.script d).toList) :
    (readSchema tokenize (s.script d)).script d = s.script d ↔
      ∀ t ∈ s.tables, ∀ f ∈ t.fields, f.Settled d := by
  have hstrict := h.wellFormed_strict hl hs
  have hsettled : (∀ t ∈ s.strict.tables, ∀ f ∈ t.fields, f.Settled d) ↔
      ∀ t ∈ s.tables, ∀ f ∈ t.fields, f.Settled d := by
    simp only [Schema.strict, Table.strict, List.forall_mem_map]
    rfl
  rw [← s.script_strict d] at ht ⊢
  rw [readSchema_script hstrict hn.strict (Schema.inferred_strict hdone) ht,
    Schema.script_kept_eq_iff hstrict, hsettled]

/-- Boolean columns and integer keys do not stand in the way of one another. -/
theorem script_readSchema_script_sample :
    (Dialect.sqlite.readSchema (sampleSchema.script .sqlite)).script .sqlite =
      sampleSchema.script .sqlite := by
  have hwell := sampleSchema_wellFormed
  have hn := sampleSchema_plainlyNamed
  refine (script_readSchema_script hwell.distinctNames (fun t ht => (hwell.tables t ht).types)
    hwell.consistent hn (by decide) (Lexer.readsPlainly_script hwell hn .sqlite)).mpr ?_
  have hkeys : ∀ t ∈ sampleSchema.tables, ∀ f ∈ t.fields,
      f.primaryKey = true → f.type ≠ "boolean" := by
    decide
  exact fun t ht f hf _ => hkeys t ht f hf

/-- A table whose key is a boolean. -/
def flagSchema : Schema where
  tables := [⟨"t", [{ name := "a", type := "boolean", nullable := false, primaryKey := true }]⟩]

theorem flagSchema_wellFormed : flagSchema.WellFormed := by
  have hlogical : ∀ t ∈ flagSchema.tables, ∀ f ∈ t.fields, f.type = LogicalType.boolean.name := by
    decide
  have hrest : ∀ t ∈ flagSchema.tables, (t.fields.map (·.name)).Nodup ∧
      ∀ f ∈ t.fields, f.primaryKey = true → f.nullable = false := by
    decide
  exact ⟨by decide, fun t ht => ⟨(hrest t ht).1, fun f hf => ⟨_, hlogical t ht f hf⟩,
    (hrest t ht).2⟩, by decide⟩

theorem flagSchema_plainlyNamed : flagSchema.PlainlyNamed := by
  have hnames : ∀ t ∈ flagSchema.tables, (Text.isIdentifier t.name = true ∧ t.name ≠ "create") ∧
      ∀ f ∈ t.fields, (Text.isIdentifier f.name = true ∧
        f.name ∉ ["constraint", "exclude", "fulltext", "spatial"]) ∧ f.foreignKey = none := by
    decide
  intro t ht
  obtain ⟨hname, hfields⟩ := hnames t ht
  refine ⟨hname, fun f hf => (hfields f hf).1, fun f hf r hr => ?_⟩
  rw [(hfields f hf).2] at hr
  cases hr

/-- The key is read back as an integer, and it is numbered from then on. -/
theorem script_readSchema_script_flag :
    (flagSchema.WellFormed ∧ flagSchema.PlainlyNamed ∧ flagSchema.inferred = []) ∧
    flagSchema.script .sqlite = "CREATE TABLE IF NOT EXISTS t (\n    a INTEGER PRIMARY KEY\n);" ∧
    (Dialect.sqlite.readSchema (flagSchema.script .sqlite)).script .sqlite =
      "CREATE TABLE IF NOT EXISTS t (\n    a INTEGER PRIMARY KEY AUTOINCREMENT\n);" := by
  have hdone : flagSchema.inferred = [] := by decide
  refine ⟨⟨flagSchema_wellFormed, flagSchema_plainlyNamed, hdone⟩, by decide, ?_⟩
  rw [Dialect.readSchema_script flagSchema_wellFormed flagSchema_plainlyNamed hdone]
  decide

end Script

end Schemata
