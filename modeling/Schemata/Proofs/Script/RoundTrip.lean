import Mathlib.Data.List.Forall2
import Mathlib.Tactic
import Schemata.Proofs.Lexer.Script
import Schemata.Proofs.Response
import Schemata.Proofs.Script.Statements

/-!
# Reading a written script

For any tokenizer that reads it plainly, the script of a well-formed schema is read back as what it
keeps of the schema, without any issue. The references that were written with the columns are
attached to the same fields again, and nothing more is inferred.
-/
namespace Schemata

open Content Text

/-! ## Marks of a script -/

/-- A word, or one of the marks that a definition is written with. -/
def Content.Allowed (x : Content) : Prop := x.1 = .word ∨ x.2 ∈ ["(", ")", ",", ";"]

theorem Content.allowed_word (w : String) : (word w).Allowed := Or.inl rfl

theorem Reference.allowed_contents {r : Reference} : ∀ x ∈ r.contents, x.Allowed := by
  intro x hx
  simp only [contents, List.mem_cons, List.not_mem_nil, or_false] at hx
  rcases hx with rfl | rfl | rfl | rfl | rfl <;> simp [Content.Allowed]

theorem Field.allowed_contents {f : Field} {d : Dialect} : ∀ x ∈ f.contents d, x.Allowed := by
  intro x hx
  simp only [contents, constraintContents, List.mem_cons, List.mem_append, List.mem_map] at hx
  rcases hx with rfl | rfl | ⟨w, -, rfl⟩ | hnull | href
  · exact Content.allowed_word _
  · exact Content.allowed_word _
  · exact Content.allowed_word _
  · split at hnull
    · simp only [List.mem_cons, List.not_mem_nil, or_false] at hnull
      rcases hnull with rfl | rfl <;> exact Content.allowed_word _
    · cases hnull
  · cases hf : f.foreignKey with
    | none => simp [hf] at href
    | some r => exact Reference.allowed_contents x (by simpa [hf] using href)

theorem allowed_columns {d : Dialect} (fs : List Field) :
    ∀ x ∈ [mark ","].intercalate (fs.map (·.contents d)), x.Allowed := by
  induction fs with
  | nil => simp
  | cons f fs ih =>
    cases fs with
    | nil => simpa using Field.allowed_contents
    | cons g fs =>
      rw [List.map_cons, List.map_cons, List.intercalate_cons_cons, List.append_assoc]
      intro x hx
      simp only [List.mem_append, List.mem_singleton] at hx
      rcases hx with hx | rfl | hx
      · exact Field.allowed_contents x hx
      · simp [Content.Allowed]
      · exact ih x hx

theorem Table.allowed_contents {t : Table} {d : Dialect} : ∀ x ∈ t.contents d, x.Allowed := by
  intro x hx
  simp only [contents, statementContents, bodyContents, List.mem_append, List.mem_cons,
    List.not_mem_nil, or_false] at hx
  rcases hx with ((((rfl | rfl | rfl | rfl | rfl | rfl | rfl) | hbody) | rfl) | rfl)
  case inl.inl.inr => exact allowed_columns t.fields x hbody
  all_goals simp [Content.Allowed]

/-- A script of plain names has no fences. -/
theorem Schema.script_not_fenced {s : Schema} (h : s.WellFormed) (hn : s.PlainlyNamed)
    (d : Dialect) : Response.script (s.script d).toList = (s.script d).toList := by
  refine Response.script_eq_self fun hmem => ?_
  have hmark := Plain.mark_mem_contents hmem (by decide) (by decide)
  rw [contents_script h hn, List.mem_flatMap] at hmark
  obtain ⟨t, -, hx⟩ := hmark
  rcases Table.allowed_contents _ hx with hword | hin
  · cases hword
  · revert hin
    decide

namespace Script

open Lexeme Phrase

/-! ## References -/

/-- Attaching a reference gives the field back that it was taken from. -/
theorem setReference_bare (name : String) {ds fs : List Field} {f : Field} {r : Reference}
    (d : Dialect) (hf : f.foreignKey = some r)
    (hds : ∀ g ∈ ds, g.name ≠ f.name) (hfs : ∀ g ∈ fs, g.name ≠ f.name) :
    setReference ⟨name, ds ++ f.bare d :: fs.map (·.bare d)⟩ f.name r =
      ⟨name, ds ++ f.kept d :: fs.map (·.bare d)⟩ := by
  have hleft : ds.map (fun g => if g.name = f.name then { g with foreignKey := some r } else g) =
      ds := by
    refine (List.map_congr_left fun g hg => ?_).trans (List.map_id ds)
    exact if_neg (hds g hg)
  have hright : (fs.map (·.bare d)).map
      (fun g => if g.name = f.name then { g with foreignKey := some r } else g) =
        fs.map (·.bare d) := by
    rw [List.map_map]
    refine List.map_congr_left fun g hg => ?_
    exact if_neg (hfs g hg)
  have hone : { f.bare d with foreignKey := some r } = f.kept d := by
    rw [← hf]
    rfl
  rw [setReference]
  simp only [List.map_append, List.map_cons, hleft, hright, Field.bare_name, if_true]
  rw [← hone]
  rfl

/-- The pending references of the remaining fields complete a table. -/
theorem foldl_pending (tables : List Table) (d : Dialect) (name : String) (ds fs : List Field)
    (known : List Relationship) (hnames : ((ds ++ fs).map (·.name)).Nodup) :
    (fs.flatMap Field.pending).foldl (Resolved.add tables)
        ⟨⟨name, ds ++ fs.map (·.bare d)⟩, known, []⟩ =
      ⟨⟨name, ds ++ fs.map (·.kept d)⟩, known ++ (⟨name, fs⟩ : Table).relationships, []⟩ := by
  induction fs generalizing ds known with
  | nil => simp
  | cons f fs ih =>
    have hnext : ((ds ++ [f.kept d] ++ fs).map (·.name)).Nodup := by
      simpa using hnames
    have hrest := ih (ds ++ [f.kept d])
    simp only [List.append_assoc, List.singleton_append] at hrest hnext
    rw [List.flatMap_cons, List.foldl_append, Table.relationships_cons]
    cases hf : f.foreignKey with
    | none =>
      have hbare : f.bare d = f.kept d := by
        rw [Field.bare, ← hf]
        rfl
      have hpending : f.pending = [] := by rw [Field.pending, hf]; rfl
      rw [hpending, List.foldl_nil, List.map_cons, hbare, hrest _ hnext]
      rfl
    | some r =>
      have hpending : f.pending = [⟨f.name, r.written⟩] := by rw [Field.pending, hf]; rfl
      have hresolve : resolve? tables r.written = some r := rfl
      rw [List.map_append, List.map_cons] at hnames
      have hsplit := List.nodup_append.mp hnames
      have hds : ∀ g ∈ ds, g.name ≠ f.name := fun g hg =>
        hsplit.2.2 g.name (List.mem_map_of_mem hg) f.name List.mem_cons_self
      have hfs : ∀ g ∈ fs, g.name ≠ f.name := by
        intro g hg he
        exact (List.nodup_cons.mp hsplit.2.1).1 (List.mem_map.mpr ⟨g, hg, he⟩)
      rw [hpending, List.foldl_cons, List.foldl_nil, Resolved.add, hresolve, List.map_cons]
      simp only [setReference_bare name d hf hds hfs]
      rw [hrest _ hnext]
      simp

theorem resolved_written (tables : List Table) (d : Dialect) {t : Table}
    (h : (t.fields.map (·.name)).Nodup) :
    (Draft.written d t).resolved tables = ⟨t.kept d, t.relationships, []⟩ :=
  foldl_pending tables d t.name [] t.fields [] h

/-- The drafts of the written tables declare what is kept of the schema. -/
theorem declared_written {s : Schema} (h : s.WellFormed) (d : Dialect) :
    declared ⟨s.creatable.map (Draft.written d), []⟩ = ⟨s.kept d, []⟩ := by
  have hresolved : ∀ tables, (s.creatable.map (Draft.written d)).map (·.resolved tables) =
      s.creatable.map fun t => ⟨t.kept d, t.relationships, []⟩ := by
    intro tables
    rw [List.map_map]
    exact List.map_congr_left fun t ht =>
      resolved_written tables d (h.tables t (List.mem_of_mem_filter ht)).names
  have hissues : (s.creatable.flatMap fun _ => ([] : List Issue)) = [] := by simp
  simp only [declared, hresolved, List.map_map, List.flatMap_map, hissues]
  rw [Schema.edges_creatable]
  rfl

/-! ## Scripts -/

variable {tokenize : Tokenizer} {s : Schema} {d : Dialect}

/-- A plainly read script falls into the statements of its tables. -/
theorem statements_script (h : s.WellFormed) (hn : s.PlainlyNamed)
    (ht : tokenize.ReadsPlainly (s.script d).toList) :
    ∃ found, statements tokenize (s.script d).toList =
        (found.map (⟨·, (s.script d).toList⟩ : _ → Statement), []) ∧
      List.Forall₂ (SpellTable d) found s.creatable := by
  obtain ⟨us, hus, hcontents⟩ := ht
  have hstrings : hidesCreateTable (s.script d).toList us = false := by
    rw [hidesCreateTable, List.any_eq_false]
    intro u hu
    have hkind := Plain.kind_of_mem_contents (hcontents ▸ List.mem_map_of_mem hu)
    have hnot : u.kind ≠ .string := by
      rcases hkind with hk | hk <;> rw [show u.kind = _ from hk] <;> decide
    simp [hnot]
  rw [Schema.contents_script h hn] at hcontents
  refine ⟨Lexeme.statements us, ?_, statements_contents
    (fun t ht => hn t (List.mem_of_mem_filter ht)) hcontents⟩
  rw [statements, hus]
  simp only [hstrings, Bool.false_eq_true, if_false]

/-- The script of a well-formed schema is read back as what it keeps of the schema. -/
theorem read_script (h : s.WellFormed) (hn : s.PlainlyNamed) (hs : s.inferred = [])
    (ht : tokenize.ReadsPlainly (s.script d).toList) :
    read tokenize (s.script d).toList = ⟨s.kept d, []⟩ := by
  obtain ⟨found, hfound, hspell⟩ := statements_script h hn ht
  have hnames : (s.creatable.map (·.name)).Nodup :=
    (List.filter_sublist.map _).nodup h.tableNames
  have hrun : (found.map (⟨·, (s.script d).toList⟩ : _ → Statement)).foldl Progress.add ⟨[], []⟩ =
      ⟨s.creatable.map (Draft.written d), []⟩ :=
    foldl_add_contents (fun t ht => h.tables t (List.mem_of_mem_filter ht))
      (fun t ht => hn t (List.mem_of_mem_filter ht)) hnames hspell _ (by simp)
  rw [read, Schema.script_not_fenced h hn, readScript, hfound]
  simp only [hrun, declared_written h]
  rw [Schema.infer_eq_self (Schema.inferred_kept h hs d)]

/-- A schema without defaults, to which nothing can be added, survives being written and read: all
but its tables without fields comes back, with no issue in any mode, and only one family changes
types. -/
theorem accept_read_script (mode : Mode) (h : s.WellFormed) (hn : s.PlainlyNamed)
    (hdefault : ∀ t ∈ s.tables, ∀ f ∈ t.fields, f.defaultValue = none) (hs : s.inferred = [])
    (ht : tokenize.ReadsPlainly (s.script d).toList) :
    s.checkedScript d = .ok (s.script d) ∧
    (read tokenize (s.script d).toList).accept mode =
      .ok ⟨{ tables := s.creatable.map (·.stored d), relationships := s.edges }, []⟩ ∧
    (d ≠ .sqlite → s.creatable.map (·.stored d) = s.creatable) := by
  have hkept : s.creatable.map (·.kept d) = s.creatable.map (·.stored d) :=
    List.map_congr_left fun t ht =>
      Table.kept_eq_stored (hdefault t (List.mem_of_mem_filter ht)) d
  refine ⟨?_, ?_, fun hd => ?_⟩
  · rw [Schema.checkedScript, h.longLength?_eq_none]
    rfl
  · rw [read_script h hn hs ht, Schema.kept, hkept, Report.accept]
    simp [Report.warnings]
  · refine (List.map_congr_left fun t _ => ?_).trans (List.map_id _)
    exact Table.stored_eq_self hd t

/-- Two tables that refer to one another or to themselves, and one without fields. -/
def sampleSchema : Schema where
  tables :=
    [⟨"users",
      [{ name := "id", type := "int8", nullable := false, primaryKey := true },
       { name := "key", type := "boolean", nullable := false },
       { name := "begin", type := "timestamp" },
       { name := "parent", type := "int8", foreignKey := some ⟨"users", "id"⟩ }]⟩,
     ⟨"drafts", []⟩,
     ⟨"orders",
      [{ name := "code", type := "uuid", nullable := false, primaryKey := true },
       { name := "buyer", type := "int8", nullable := false, foreignKey := some ⟨"users", "id"⟩ }]⟩]
  relationships := [⟨"orders", "buyer", "users", "id"⟩, ⟨"users", "parent", "users", "id"⟩]

theorem sampleSchema_wellFormed : sampleSchema.WellFormed where
  tableNames := by decide
  tables := by
    have htypes : ∀ t ∈ sampleSchema.tables, ∀ f ∈ t.fields,
        ∃ l ∈ LogicalType.all, f.type = l.name := by
      decide
    have hrest : ∀ t ∈ sampleSchema.tables, (t.fields.map (·.name)).Nodup ∧
        ∀ f ∈ t.fields, f.primaryKey = true → f.nullable = false := by
      decide
    intro t ht
    refine ⟨(hrest t ht).1, fun f hf => ?_, (hrest t ht).2⟩
    obtain ⟨l, -, hl⟩ := htypes t ht f hf
    exact ⟨l, hl⟩
  consistent := by decide

theorem sampleSchema_plainlyNamed : sampleSchema.PlainlyNamed := by
  have hnames : ∀ t ∈ sampleSchema.tables, (isIdentifier t.name = true ∧ t.name ≠ "create") ∧
      ∀ f ∈ t.fields, (isIdentifier f.name = true ∧
        f.name ∉ ["constraint", "exclude", "fulltext", "spatial"]) ∧
        ∀ r ∈ f.foreignKey, isIdentifier r.table = true ∧ isIdentifier r.column = true := by
    decide
  intro t ht
  obtain ⟨hname, hfields⟩ := hnames t ht
  exact ⟨hname, fun f hf => (hfields f hf).1, fun f hf r hr => (hfields f hf).2 r hr⟩

/-- What one family reads back from its own script of the sample. -/
def sampleRead : Schema where
  tables :=
    [⟨"users",
      [{ name := "id", type := "int8", nullable := false, primaryKey := true },
       { name := "key", type := "int8", nullable := false },
       { name := "begin", type := "text" },
       { name := "parent", type := "int8", foreignKey := some ⟨"users", "id"⟩ }]⟩,
     ⟨"orders",
      [{ name := "code", type := "uuid", nullable := false, primaryKey := true },
       { name := "buyer", type := "int8", nullable := false, foreignKey := some ⟨"users", "id"⟩ }]⟩]
  relationships := [⟨"users", "parent", "users", "id"⟩, ⟨"orders", "buyer", "users", "id"⟩]

theorem accept_read_script_sample :
    (read (Dialect.lexemes .sqlite) (sampleSchema.script .sqlite).toList).accept .strict =
      .ok ⟨sampleRead, []⟩ := by
  have hwell := sampleSchema_wellFormed
  have hn := sampleSchema_plainlyNamed
  have ht := Lexer.readsPlainly_script hwell hn .sqlite
  exact (accept_read_script .strict hwell hn (by decide) (by decide) ht).2.1

end Script

end Schemata
