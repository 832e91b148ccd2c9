import Mathlib.Data.List.Basic
import Mathlib.Tactic
import Schemata.Proofs.Script.Appended
import Schemata.Proofs.Script.ClauseKinds
import Schemata.Proofs.Script.Settled
import Schemata.Proofs.Script.Skipped

/-!
# Columns with a known type

A clause that begins with a name and a known type is a column, whatever follows the type. Four words
are excepted, which always begin a table constraint. The table has a field of that name, and if the
clause is the first one to declare it, the field is made from the clause: it is the column as it
stands there, as a primary key if a clause of the table says so, with the reference of the column.
-/
namespace Schemata.Script

open Phrase

/-! ## Clauses -/

/-- What a clause of a name and a known type declares. -/
def typedColumn (source : List Char) (word type : Lexeme) (rest : List Lexeme) : Column :=
  let traits := columnTraits source 0 {} rest
  ⟨columnField word.identifier type.text traits, traits.target⟩

theorem columnsOf_typed (source : List Char) {word type : Lexeme} (hname : word.isName = true)
    (hword : word.isWord constraintWords = false) (htype : isKnownType type = true)
    (rest : List Lexeme) (left right : List (List Lexeme)) :
    columnsOf source (left ++ (word :: type :: rest) :: right) =
      columnsOf source left ++ typedColumn source word type rest :: columnsOf source right := by
  have hcolumn : column? source (word :: type :: rest) =
      some (typedColumn source word type rest) := by
    simp only [column?, hname, if_true, typeText, isName_of_isKnownType htype, typedColumn]
  rw [← List.singleton_append, columnsOf_append, columnsOf_append, columnsOf_singleton,
    isTableConstraint_of_isKnownType htype, hword, if_neg Bool.false_ne_true, hcolumn]
  rfl

/-! ## Fields of a draft -/

/-- The column that a demand makes the primary key. -/
def Demand.key? : Demand → Option String
  | .key field => some field
  | _ => none

/-- The columns that the clauses of a table make primary keys. -/
def keysOf (clauses : List (List Lexeme)) : List String := (demandsOf clauses).filterMap Demand.key?

/-- An entry whose name is new is the first of its name. -/
theorem mem_firsts_of_new {α : Type} {name : α → String} {before after : List α} {a : α}
    (h : name a ∉ before.map name) : a ∈ firsts name (before ++ a :: after) := by
  induction before with
  | nil => exact List.mem_cons_self
  | cons b before ih =>
    rw [List.map_cons, List.mem_cons, not_or] at h
    rw [List.cons_append, firsts]
    exact List.mem_cons_of_mem b (List.mem_filter.mpr ⟨ih h.2, decide_eq_true h.1⟩)

namespace Draft

theorem fields_foldl_keep (name : String) (cs : List Column) :
    (cs.foldl keep ⟨name, [], [], []⟩).fields = (firsts Column.name cs).map Column.field := by
  induction cs using List.reverseRecOn with
  | nil => rfl
  | append_singleton cs c ih =>
    rw [List.foldl_append, List.foldl_cons, List.foldl_nil, firsts_append_singleton,
      List.map_append,
      ← ih]
    by_cases hmem : c.name ∈ cs.map Column.name
    · have hknown := (mem_names_foldl_keep (d := ⟨name, [], [], []⟩) cs).mpr (Or.inr hmem)
      rw [keep_of_mem hknown, if_pos hmem, List.map_nil, List.append_nil]
    · rw [keep_of_not_mem (not_mem_names_foldl_keep name hmem), if_neg hmem, List.map_singleton]

/-- Demands make keys of fields and change nothing else about them. -/
theorem fields_foldl_meet (d : Draft) (ks : List Demand) :
    (ks.foldl meet d).fields = d.fields.map (keyed (ks.filterMap Demand.key?)) := by
  induction ks using List.reverseRecOn with
  | nil => exact (List.map_id _).symm.trans (List.map_congr_left fun f _ => rfl)
  | append_singleton ks k ih =>
    rw [List.foldl_append, List.foldl_cons, List.foldl_nil, List.filterMap_append]
    cases k with
    | key name =>
      have hkeys : [Demand.key name].filterMap Demand.key? = [name] := rfl
      rw [hkeys, meet, setPrimaryKey, ih, List.map_map]
      exact List.map_congr_left fun f _ => (keyed_snoc _ name f).symm
    | reference name target =>
      have hkeys : [Demand.reference name target].filterMap Demand.key? = [] := rfl
      rw [hkeys, List.append_nil, meet, fields_refer, ih]
    | nothing =>
      have hkeys : [Demand.nothing].filterMap Demand.key? = [] := rfl
      rw [hkeys, List.append_nil, meet, ih]

/-- The fields of a draft are the first columns of each name. -/
theorem fields_ofClauses (source : List Char) (table : String) (clauses : List (List Lexeme)) :
    (ofClauses source table clauses).fields =
      (firsts Column.name (columnsOf source clauses)).map fun c =>
        keyed (keysOf clauses) c.field := by
  rw [← quiet_fields, quiet_ofClauses, assemble, fields_foldl_meet, fields_foldl_keep, List.map_map]
  rfl

/-- A draft waits for the references of its columns. -/
theorem mem_pending_ofClauses {source : List Char} {clauses : List (List Lexeme)} {c : Column}
    (h : c ∈ firsts Column.name (columnsOf source clauses)) {target : Target}
    (htarget : c.target = some target) (table : String) :
    ⟨c.name, target⟩ ∈ (ofClauses source table clauses).pending := by
  rw [← quiet_pending, quiet_ofClauses, assemble]
  refine pending_subset_foldl_meet _ _ ?_
  rw [pending_foldl_keep]
  exact List.mem_filterMap.mpr ⟨c, h, by rw [htarget]; rfl⟩

end Draft

/-! ## Scripts -/

/-- A field is a column of a script as it stands there. -/
structure MadeFrom (s : Schema) (keys : List String) (c : Column) (f : Field) : Prop where
  declared : f.unlinked = keyed keys c.field
  linked : ∀ target r, c.target = some target → Resolves s target r → f.foreignKey = some r

section Report

variable {tokenize : Tokenizer} {text : List Char} {before after : List Statement} {s : Statement}
  {table : String} {clauses : List (List Lexeme)}
  (hfound : (statements tokenize (Response.script text)).1 = before ++ s :: after)
  (hs : s.Creates table clauses) (hnew : table ∉ (draftsOf before).map (·.name))
include hfound hs hnew

/-- The table that a statement creates has the fields of its columns. -/
theorem exists_table_of_creates :
    ∃ t ∈ (read tokenize text).schema.tables, t.name = table ∧
      t.fields.map Field.unlinked =
        (firsts Column.name (columnsOf s.source clauses)).map fun c =>
          keyed (keysOf clauses) c.field := by
  have hdraft := mem_draftsOf_of_creates hfound hs hnew
  obtain ⟨t, ht, hsame⟩ := exists_table_of_mem_drafts hdraft
  rw [(sound_of_mem_draftsOf hdraft).unlinked_table] at hsame
  refine ⟨t, schema_read tokenize text ▸ ht, ?_, ?_⟩
  · exact (congrArg Table.name hsame).trans (Draft.ofClauses_name s.source table clauses)
  · exact (congrArg Table.fields hsame).trans (Draft.fields_ofClauses s.source table clauses)

/-- A reference of a table is the reference of its field. -/
theorem foreignKey_of_mem_pending {p : Pending}
    (hp : p ∈ (Draft.ofClauses s.source table clauses).pending) {r : Reference}
    (hr : Resolves (read tokenize text).schema p.target r) {t : Table}
    (ht : t ∈ (read tokenize text).schema.tables) (htable : t.name = table) {f : Field}
    (hf : f ∈ t.fields) (hfield : f.name = p.field) : f.foreignKey = some r := by
  have hwell : (read tokenize text).schema.WellFormed := readScript_wellFormed tokenize _
  have hdraft := mem_draftsOf_of_creates hfound hs hnew
  have hresolved := resolve?_eq_some_iff.mpr hr
  rw [← resolve?_drafts, ← draftsOf_statements] at hresolved
  have hedge : r.relationship table p.field ∈ (read tokenize text).schema.relationships := by
    rw [schema_read]
    refine List.mem_append_left _ (List.mem_flatMap.mpr ⟨_, hdraft, List.mem_filterMap.mpr ?_⟩)
    refine ⟨p, hp, ?_⟩
    rw [edge?, hresolved, Draft.quiet_name, Draft.ofClauses_name, Option.map_some]
  obtain ⟨u, hu, hutable, g, hg, hgfield, hkey⟩ := hwell.exists_field hedge
  obtain rfl := List.inj_on_of_nodup_map hwell.tableNames hu ht (hutable.trans htable.symm)
  obtain rfl := List.inj_on_of_nodup_map (hwell.tables u hu).names hg hf (hgfield.trans hfield.symm)
  exact hkey

end Report

/-- Marks that quote a name. -/
def quoteMarks : List Char := ['\x60', '"', '[', ']']

theorem identifier_of_unquoted {u : Lexeme} (h : ∀ c ∈ u.text.toList, c ∉ quoteMarks) :
    u.identifier = Text.lowerCase u.text := by
  have hplain : Text.trimWhile (· ∈ quoteMarks) u.text.toList = u.text.toList :=
    Text.trimWhile_eq_self fun c hc => decide_eq_false (h c hc)
  rw [Lexeme.identifier, Text.lowerCase]
  exact congrArg (fun cs => String.ofList (Text.lower cs)) hplain

/-- A field that a table has is found by its name. -/
theorem field?_eq_some_of_mem {t : Table} (h : t.WellFormed) {f : Field} (hf : f ∈ t.fields) :
    t.field? f.name = some f := by
  obtain ⟨g, hg⟩ := Option.isSome_iff_exists.mp
    (List.find?_isSome.mpr ⟨f, hf, by simp⟩ : (t.fields.find? (·.name = f.name)).isSome)
  have hname : g.name = f.name := by simpa using List.find?_some hg
  obtain rfl := List.inj_on_of_nodup_map h.names (List.mem_of_find?_eq_some hg) hf hname
  exact hg

/-- A column with a known type is never taken for a table constraint, unless its name is one of the
words that always begin one: whatever the clause goes on with and whatever clauses stand around it,
the table has a field of its name. The field is made from the clause, unless an earlier column has
that name. -/
theorem read_typed_column {tokenize : Tokenizer} {text : List Char}
    {before after : List Statement} {s : Statement} {table : String} {word type : Lexeme}
    {rest : List Lexeme} {left right : List (List Lexeme)}
    (hfound : (statements tokenize (Response.script text)).1 = before ++ s :: after)
    (hs : s.Creates table (left ++ (word :: type :: rest) :: right))
    (hnew : table ∉ (draftsOf before).map (·.name)) (hname : word.isName = true)
    (hword : word.isWord constraintWords = false) (htype : isKnownType type = true) :
    ∃ t ∈ (read tokenize text).schema.tables, t.name = table ∧
      ∃ f, t.field? word.identifier = some f ∧
        (word.identifier ∉ (columnsOf s.source left).map Column.name →
          MadeFrom (read tokenize text).schema (keysOf (left ++ (word :: type :: rest) :: right))
            (typedColumn s.source word type rest) f) ∧
        ((∀ c ∈ word.text.toList, c ∉ quoteMarks) →
          word.identifier = Text.lowerCase word.text) := by
  have hwell : (read tokenize text).schema.WellFormed := readScript_wellFormed tokenize _
  obtain ⟨t, ht, htable, hfields⟩ := exists_table_of_creates hfound hs hnew
  have hcolumns := columnsOf_typed s.source hname hword htype rest left right
  have hnames : t.fields.map (·.name) = (firsts Column.name
      (columnsOf s.source (left ++ (word :: type :: rest) :: right))).map Column.name := by
    have hsame := congrArg (List.map Field.name) hfields
    simp only [List.map_map, Function.comp_def, keyed_name, Field.unlinked_name] at hsame
    exact hsame
  have hmem : word.identifier ∈ t.fields.map (·.name) := by
    rw [hnames, mem_names_firsts, hcolumns, List.map_append, List.map_cons]
    exact List.mem_append_right _ List.mem_cons_self
  obtain ⟨f, hf, hfield⟩ := List.mem_map.mp hmem
  have hfind := field?_eq_some_of_mem (hwell.tables t ht) hf
  rw [hfield] at hfind
  refine ⟨t, ht, htable, f, hfind, fun hfirst => ?_, identifier_of_unquoted⟩
  have hcolumn : typedColumn s.source word type rest ∈ firsts Column.name
      (columnsOf s.source (left ++ (word :: type :: rest) :: right)) :=
    hcolumns ▸ mem_firsts_of_new hfirst
  refine ⟨?_, fun target r htarget hr => ?_⟩
  · obtain ⟨g, hg, hmade⟩ := List.mem_map.mp (hfields ▸ List.mem_map_of_mem hcolumn)
    have hsame : g.name = f.name :=
      (congrArg Field.name hmade).trans ((keyed_name _ _).trans hfield.symm)
    obtain rfl := List.inj_on_of_nodup_map (hwell.tables t ht).names hg hf hsame
    exact hmade
  · exact foreignKey_of_mem_pending hfound hs hnew
      (Draft.mem_pending_ofClauses hcolumn htarget table) hr ht htable hf hfield

/-! ### Names that are keywords -/

/-- A column whose name and type, with the parenthesis behind them, might begin a key. -/
def keyText : List Char := "CREATE TABLE t(KEY DECIMAL(3),PRIMARY KEY(key))".toList

def keyWord : Lexeme := ⟨"KEY", .word, 15, 17⟩

def keyType : Lexeme := ⟨"DECIMAL", .word, 19, 25⟩

def keyLength : List Lexeme :=
  [⟨"(", .punct, 26, 26⟩, ⟨"3", .number, 27, 27⟩, ⟨")", .punct, 28, 28⟩]

def keyClause : List Lexeme :=
  [⟨"PRIMARY", .word, 30, 40⟩, ⟨"KEY", .word, 30, 40⟩, ⟨"(", .punct, 41, 41⟩,
    ⟨"key", .word, 42, 44⟩, ⟨")", .punct, 45, 45⟩]

def keyLexemes : List Lexeme :=
  headLexemes ++ (keyWord :: keyType :: keyLength) ++ [⟨",", .punct, 29, 29⟩] ++ keyClause ++
    [⟨")", .punct, 46, 46⟩]

theorem lexemes_keyText : Dialect.lexemes .postgresql keyText = .ok keyLexemes := by
  decide +kernel

theorem read_typed_column_key :
    ∃ t ∈ (read (Dialect.lexemes .postgresql) keyText).schema.tables, t.name = "t" ∧
      ∃ f, t.field? "key" = some f ∧
        f.unlinked =
          { name := "key", type := "numeric", nullable := false, primaryKey := true } := by
  have hfound := statements_of_one lexemes_keyText (by decide) (by decide) (by decide)
  have hcreates : Statement.Creates ⟨keyLexemes, keyText⟩ "t"
      ([] ++ (keyWord :: keyType :: keyLength) :: [keyClause]) :=
    ⟨by decide, (keyLexemes.drop 4).take 11, rfl, by decide⟩
  have hkeys : keysOf ([] ++ (keyWord :: keyType :: keyLength) :: [keyClause]) = ["key"] := by
    decide
  have hcolumn : (typedColumn keyText keyWord keyType keyLength).field =
      { name := "key", type := "numeric" } := by
    simp only [typedColumn, keyLength, columnTraits]
    decide
  obtain ⟨t, ht, htable, f, hf, hmade, -⟩ := read_typed_column hfound hcreates List.not_mem_nil
    (by decide) (by decide) (by decide)
  have hdeclared := (hmade List.not_mem_nil).declared
  rw [hkeys, hcolumn] at hdeclared
  exact ⟨t, ht, htable, f, hf, hdeclared⟩

/-- A column that is called like one of the excepted words. -/
def fulltextText : List Char := "CREATE TABLE t(fulltext TEXT)".toList

def fulltextWord : Lexeme := ⟨"fulltext", .word, 15, 22⟩

def textType : Lexeme := ⟨"TEXT", .word, 24, 27⟩

def fulltextLexemes : List Lexeme :=
  headLexemes ++ [fulltextWord, textType] ++ [⟨")", .punct, 28, 28⟩]

theorem lexemes_fulltextText :
    Dialect.lexemes .postgresql fulltextText = .ok fulltextLexemes := by
  decide +kernel

/-- Its table has no such field, though `CONSTRAINT` is not the word that the clause begins with. -/
theorem tables_read_fulltext :
    (statements (Dialect.lexemes .postgresql) (Response.script fulltextText)).1 =
        [] ++ ⟨fulltextLexemes, fulltextText⟩ :: [] ∧
      Statement.Creates ⟨fulltextLexemes, fulltextText⟩ "t" ([] ++ [fulltextWord, textType] :: []) ∧
      fulltextWord.kind = .word ∧ fulltextWord.isWord ["CONSTRAINT"] = false ∧
      isKnownType textType = true ∧
      (read (Dialect.lexemes .postgresql) fulltextText).schema.tables = [⟨"t", []⟩] := by
  have hcreates : Statement.Creates ⟨fulltextLexemes, fulltextText⟩ "t"
      ([] ++ [fulltextWord, textType] :: []) :=
    ⟨by decide, [fulltextWord, textType], rfl, by decide⟩
  have hfound := statements_of_one lexemes_fulltextText (by decide) (by decide) (by decide)
  have hcolumns : columnsOf fulltextText [[fulltextWord, textType]] = [] := by
    rw [columnsOf_singleton]
    exact if_pos (by decide)
  have hdemands : demandsOf [[fulltextWord, textType]] = [.nothing] := by decide
  have hdraft : (Draft.ofClauses fulltextText "t" ([] ++ [fulltextWord, textType] :: [])).quiet =
      ⟨"t", [], [], []⟩ := by
    rw [List.nil_append, Draft.quiet_ofClauses, hcolumns, hdemands]
    rfl
  refine ⟨hfound, hcreates, rfl, by decide, by decide, ?_⟩
  rw [schema_read, hfound, List.nil_append, draftsOf_singleton hcreates.draft?, hdraft]
  decide

end Schemata.Script
