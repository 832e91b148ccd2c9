import Mathlib.Tactic
import Schemata.Proofs.Response.Surrounded
import Schemata.Proofs.Script.Surrounded

/-!
# Scripts that are planned without being read

Two scripts that differ in surrounding blanks only are taken for the same without being read. They
do have the same tables and columns, and so the plan is right, where the blanks neither complete a
fence nor end a string: then a migration is missing exactly if there is no change.
-/
namespace Schemata

namespace Script

open Text

/-- The schema of an answer is that of its trimmed script, up to the texts of default values. -/
theorem withoutDefaultTexts_read_trim {d : Dialect} {text : List Char}
    (hsettled : d = .postgresql → Lexer.EndsSettled (trim (Response.script text)))
    (hlast : ∀ us u, d.lexemes (trim (Response.script text)) = .ok us → us.getLast? = some u →
      hidesCreateTable (trim (Response.script text)) [u] = false) :
    (read d.lexemes text).schema.withoutDefaultTexts =
      (linked (draftsOf
        (statements d.lexemes (trim (Response.script text))).1)).infer.withoutDefaultTexts := by
  obtain ⟨before, after, hbefore, hafter, hscript⟩ := exists_blanks_trim (Response.script text)
  have hsame := statements_around (isBlankText_iff.mp hbefore) (isBlankText_iff.mp hafter) hsettled
    (fun _ => isBlank_head?_trim) hlast
  rw [← hscript] at hsame
  rw [schema_read]
  exact (linked_restated (hsame.imp fun _ _ => Statement.SaysSame.restated)).symm

end Script

namespace Migration

open Text

/-- What scripts that differ in surrounding blanks only need so that they are read alike. -/
structure ReadAlike (d : Dialect) (previous current : String) : Prop where
  /-- A line break behind the text may end the line of a fence: both texts open a script or none. -/
  fence : Response.opening? previous.toList = none ↔ Response.opening? current.toList = none
  /-- A blank may also end the tag of a string between dollar signs. -/
  settled : d = .postgresql → Lexer.EndsSettled (trim (Response.script previous.toList))
  /-- A command that is kept as a string to the end of the text holds no `CREATE TABLE`. -/
  last : ∀ us u, d.lexemes (trim (Response.script previous.toList)) = .ok us →
    us.getLast? = some u →
      Script.hidesCreateTable (trim (Response.script previous.toList)) [u] = false

theorem trim_eq_of_trimmed {s s' : String} (h : trimmed s = trimmed s') :
    trim s.toList = trim s'.toList :=
  String.ofList_injective h

/-- Scripts that are read alike have the same schema, up to the texts of default values. -/
theorem ReadAlike.withoutDefaultTexts_eq {d : Dialect} {previous current : String}
    (h : ReadAlike d previous current) (hsame : trimmed previous = trimmed current) :
    (d.readSchema previous).withoutDefaultTexts = (d.readSchema current).withoutDefaultTexts := by
  have hscript := Response.trim_script_congr (trim_eq_of_trimmed hsame) h.fence
  have hsettled := h.settled
  have hlast := h.last
  have hprevious : (d.readSchema previous).withoutDefaultTexts = _ :=
    Script.withoutDefaultTexts_read_trim hsettled hlast
  rw [hscript] at hprevious hsettled hlast
  exact hprevious.trans (Script.withoutDefaultTexts_read_trim hsettled hlast).symm

/-- There is no migration between two scripts exactly if there are no changes between their schemas,
provided that they are read alike if they differ in surrounding blanks only. -/
theorem plan?_eq_none_iff {d : Dialect} {previous current : String}
    (h : trimmed previous = trimmed current → ReadAlike d previous current)
    (name : Option String) :
    plan? name d previous current = none ↔
      Change.between (d.readSchema previous) (d.readSchema current) = [] := by
  rw [plan?]
  split_ifs with hsame
  · have hschema := (h hsame).withoutDefaultTexts_eq hsame
    have hwell : (d.readSchema previous).WellFormed :=
      Script.readSchema_wellFormed d.lexemes previous
    refine iff_of_true rfl (Change.between_eq_nil_of_columns hwell.distinctNames ?_)
    rw [← Schema.columns_withoutDefaultTexts, hschema, Schema.columns_withoutDefaultTexts]
  · exact ofSchemas?_eq_none_iff

/-- The texts differ in the blanks around them. -/
theorem plan?_eq_none_iff_blanks :
    let previous := "CREATE TABLE a(x INT);\n"
    let current := " CREATE TABLE a(x INT);"
    (trimmed previous = trimmed current → ReadAlike .postgresql previous current) ∧
      (plan? none .postgresql previous current = none ↔
        Change.between (Dialect.readSchema .postgresql previous)
          (Dialect.readSchema .postgresql current) = []) := by
  intro previous current
  have hscript : trim (Response.script previous.toList) = "CREATE TABLE a(x INT);".toList := by
    rw [Response.script_eq_self (by decide)]
    decide +kernel
  have hread : ReadAlike .postgresql previous current := by
    constructor
    · decide
    · rw [hscript]
      decide
    · rw [hscript]
      intro us u hus hlast
      have hstring : ∀ v ∈ us, v.kind ≠ .string := by
        have hlexemes : (Dialect.lexemes .postgresql "CREATE TABLE a(x INT);".toList).map
            (·.all fun v => v.kind ≠ .string) = .ok true := by decide +kernel
        rw [hus] at hlexemes
        simpa using Except.ok.inj hlexemes
      exact Script.hidesCreateTable_of_no_string _ fun v hv =>
        List.mem_singleton.mp hv ▸ hstring u (List.mem_of_getLast? hlast)
  exact ⟨fun _ => hread, plan?_eq_none_iff (fun _ => hread) none⟩

/-! ### A fence that a line break completes -/

/-- A statement and three marks, which are no fence without a line break behind them. -/
def markedText : String := "CREATE TABLE a (x INT);\n\x60\x60\x60"

def markedTable : Table := ⟨"a", [{ name := "x", type := "int8" }]⟩

def markedBody : List Lexeme := [⟨"x", .word, 16, 16⟩, ⟨"INT", .word, 18, 20⟩]

def markedStatement : List Lexeme :=
  [⟨"CREATE", .word, 0, 5⟩, ⟨"TABLE", .word, 7, 11⟩, ⟨"a", .word, 13, 13⟩, ⟨"(", .punct, 15, 15⟩] ++
    markedBody ++ [⟨")", .punct, 21, 21⟩]

def strayMarks : List Lexeme :=
  [⟨"\x60", .word, 24, 24⟩, ⟨"\x60", .word, 25, 25⟩, ⟨"\x60", .word, 26, 26⟩]

theorem draft?_markedStatement : Script.Statement.draft? ⟨markedStatement, markedText.toList⟩ =
    some ⟨"a", markedTable.fields, [], []⟩ := by
  have hcolumn : Script.column? markedText.toList markedBody =
      some ⟨{ name := "x", type := "int8" }, none⟩ := by
    simp only [markedBody, Script.column?, Script.columnTraits]
    decide
  have hbody : Lexeme.clauses markedBody = [markedBody] := by decide
  have htable : Script.tableBody ⟨markedStatement, markedText.toList⟩ = .ok ("a", markedBody) := rfl
  rw [Script.draft?_of_tableBody (by decide) htable, Script.Draft.quiet_ofClauses, hbody,
    Script.columnsOf_singleton, hcolumn, Script.demandsOf_singleton]
  decide

theorem tables_readSchema_markedText :
    (Dialect.readSchema .postgresql markedText).tables = [markedTable] := by
  have hlexemes : Dialect.lexemes .postgresql markedText.toList =
      .ok (markedStatement ++ [⟨";", .punct, 22, 22⟩] ++ strayMarks) := by decide +kernel
  have hstatements : Lexeme.statements (markedStatement ++ [⟨";", .punct, 22, 22⟩] ++ strayMarks) =
      [markedStatement, strayMarks] := by decide
  have hmarks : Script.Statement.draft? ⟨strayMarks, markedText.toList⟩ = none := rfl
  rw [Dialect.readSchema, Script.readSchema, Script.schema_read_of_lexemes hlexemes (by decide)
    (by decide), hstatements, List.map_cons, List.map_singleton, Script.draftsOf,
    List.filterMap_cons_some draft?_markedStatement, List.filterMap_cons_none hmarks]
  decide

/-- With a line break the marks are a fence, and there is no script behind it. -/
theorem tables_readSchema_fence :
    (Dialect.readSchema .postgresql (markedText ++ "\n")).tables = [] := by
  have hopen : Response.opening? (markedText ++ "\n").toList =
      some ("CREATE TABLE a (x INT);\n".toList, []) := by decide
  have hscript : Response.script (markedText ++ "\n").toList = [] := by
    rw [Response.script_eq_intercalate (hopen ▸ Option.some_ne_none _),
      Response.blocks_of_open hopen (by decide)]
    rfl
  have hlexemes : Dialect.lexemes .postgresql [] = .ok [] := by decide
  rw [Dialect.readSchema, Script.readSchema, Script.schema_read, hscript,
    Script.statements_of_lexemes hlexemes rfl]
  rfl

/-- The texts are taken for the same, but only one of them has a table. -/
theorem plan?_opened_fence :
    ¬(plan? none .postgresql (markedText ++ "\n") markedText = none ↔
      Change.between (Dialect.readSchema .postgresql (markedText ++ "\n"))
        (Dialect.readSchema .postgresql markedText) = []) := by
  intro h
  have hnone : plan? none .postgresql (markedText ++ "\n") markedText = none := by
    rw [plan?, if_pos (by decide +kernel)]
  have hbetween : Change.between (Dialect.readSchema .postgresql (markedText ++ "\n"))
      (Dialect.readSchema .postgresql markedText) = [.createTable markedTable] := by
    rw [Change.between, tables_readSchema_markedText, tables_readSchema_fence]
    simp [Change.toTable, Schema.table?, tables_readSchema_fence, markedTable]
  rw [h.mp hnone] at hbetween
  cases hbetween

end Migration

end Schemata
