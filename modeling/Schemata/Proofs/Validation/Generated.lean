import Mathlib.Tactic
import Schemata.Proofs.Conversion
import Schemata.Proofs.Definition.Wording
import Schemata.Proofs.Separation.Separated
import Schemata.Validation

/-!
# Findings on written scripts

The script of a schema is separated into the definitions of its tables again, and these break no
rule of the dialect that they are written in.
-/
namespace Schemata

open Text

variable {s : Schema} {t : Table} {d : Dialect}

/-! ## Rules that a wording cannot break -/

namespace Rule

/-- A table whose name and parenthesis follow is created with columns. -/
theorem lacksColumns_eq_false {after : List Char} (h : '(' ∈ after) :
    lacksColumns ("CREATE TABLE ".toList ++ after) = false := by
  have hcreate : afterKeyword? "create".toList ("CREATE TABLE ".toList ++ after) =
      some (" TABLE ".toList ++ after) :=
    afterKeyword?_eq_some_iff.mpr ⟨"CREATE".toList, rfl, by decide⟩
  have htable : afterKeyword? "table".toList ("TABLE ".toList ++ after) = some (' ' :: after) :=
    afterKeyword?_eq_some_iff.mpr ⟨"TABLE".toList, rfl, by decide⟩
  have hfront : ("CREATE TABLE ".toList ++ after).dropWhile isBlank =
      "CREATE TABLE ".toList ++ after := List.dropWhile_cons_of_neg (by decide)
  have hblank : (" TABLE ".toList ++ after).dropWhile isBlank = "TABLE ".toList ++ after :=
    List.dropWhile_cons_of_pos (by decide)
  rw [lacksColumns, hfront, hcreate]
  simp only [hblank, htable]
  simp [h]

/-- A storage engine is set with an equals sign. -/
theorem mem_of_setsEngine {cs : List Char} {before : Option Char}
    (h : setsEngine before cs = true) : '=' ∈ cs := by
  induction cs generalizing before with
  | nil => exact absurd h Bool.false_ne_true
  | cons c cs ih =>
    rw [setsEngine, Bool.or_eq_true, Bool.and_eq_true] at h
    rcases h with ⟨-, hset⟩ | hrest
    · split at hset
      · rename_i rest hafter
        obtain ⟨opening, hcs, -⟩ := afterKeyword?_eq_some_iff.mp hafter
        have hhead : '=' ∈ rest.dropWhile isBlank := List.mem_of_head? (of_decide_eq_true hset)
        rw [hcs]
        exact List.mem_append_right opening (List.dropWhile_subset isBlank hhead)
      · exact absurd hset Bool.false_ne_true
    · exact List.mem_cons_of_mem c (ih hrest)

end Rule

/-! ## Statements of tables -/

/-- No quotes and comments begin in the wording of a definition, and no statement ends there. -/
theorem plain_of_worded {c : Char} (h : Plain.isWordChar c = true ∨ isDefinitionMark c = true) :
    Script.isQuote c = false ∧ c ≠ '-' ∧ c ≠ '/' ∧ c ≠ ';' := by
  have hquotes : ∀ q ∈ ['\'', '"', '\x60', '-', '/', ';'],
      ¬(Plain.isWordChar q = true ∨ isDefinitionMark q = true) := by
    intro q hq
    simp only [List.mem_cons, List.not_mem_nil, or_false] at hq
    rcases hq with rfl | rfl | rfl | rfl | rfl | rfl <;> decide
  have hne : ∀ q ∈ ['\'', '"', '\x60', '-', '/', ';'], c ≠ q := by
    rintro q hq rfl
    exact hquotes c hq h
  simp only [List.mem_cons, List.not_mem_nil, or_false, forall_eq_or_imp, forall_eq] at hne
  simpa [Script.isQuote, and_assoc] using hne

namespace Schema

/-- The columns of a table stand in parentheses behind its name. -/
theorem exists_tableStatement_eq (s : Schema) (d : Dialect) (t : Table) :
    ∃ name columns, s.tableStatement d t =
      "CREATE TABLE ".toList ++ (name ++ '(' :: (columns ++ [')'])) := by
  have hopening : "CREATE TABLE IF NOT EXISTS".toList =
      "CREATE TABLE ".toList ++ "IF NOT EXISTS".toList := by decide
  refine ⟨"IF NOT EXISTS".toList ++ ' ' :: (t.name.toList ++ [' ']), '\n' ::
    ([',', '\n'].intercalate ((t.fields.map (s.columnLine d t.name)).map String.toList) ++
      ['\n']), ?_⟩
  unfold tableStatement
  simp only [hopening, List.append_assoc, List.cons_append, List.nil_append]

variable (h : s.SafelyNamed) (ht : t ∈ s.tables)
  (htypes : ∀ f ∈ t.fields, ∃ l : LogicalType, f.type = l.name)

include h ht htypes

theorem isBare_tableStatement (d : Dialect) : Script.IsBare (s.tableStatement d t) := by
  obtain ⟨name, columns, hshape⟩ := exists_tableStatement_eq s d t
  have hhead : (s.tableStatement d t).head? = some 'C' := by
    rw [hshape]
    rfl
  have hlast : (s.tableStatement d t).getLast? = some ')' := by
    rw [hshape, ← List.cons_append, ← List.append_assoc, ← List.append_assoc,
      List.getLast?_concat]
  have htrim : trim ([] ++ s.tableStatement d t ++ []) = s.tableStatement d t := by
    refine trim_eq_of_ends rfl rfl (fun c hc => ?_) fun c hc => ?_
    · rw [← Option.some.inj (hhead.symm.trans hc)]
      decide
    · rw [← Option.some.inj (hlast.symm.trans hc)]
      decide
  refine ⟨fun c hc => plain_of_worded ((avoids_tableStatement h ht htypes d).1 c hc), ?_, ?_⟩
  · simpa using htrim
  · rw [hshape]
    exact List.cons_ne_nil _ _

/-- The statement of a table breaks no rule whose message is an error. -/
theorem isBrokenBy_tableStatement {rule : Rule} (hrule : rule ∈ Rule.ofDialect d)
    (herror : rule.isError = true) : Rule.isBrokenBy (s.tableStatement d t) rule = false := by
  have hworded := avoids_tableStatement h ht htypes d
  have hword := hworded.hasWholeWord d.isKeyword_foreignWords
  have hcolumns : Rule.lacksColumns (s.tableStatement d t) = false := by
    obtain ⟨name, columns, hshape⟩ := exists_tableStatement_eq s d t
    rw [hshape]
    exact Rule.lacksColumns_eq_false (List.mem_append_right name List.mem_cons_self)
  have hengine : Rule.setsEngine none (s.tableStatement d t) = false := by
    rw [Bool.eq_false_iff]
    intro hset
    have hmark := hworded.1 '=' (Rule.mem_of_setsEngine hset)
    revert hmark
    decide
  generalize s.tableStatement d t = statement at hword hcolumns hengine
  cases d <;> simp only [Rule.ofDialect, List.mem_cons, List.not_mem_nil, or_false] at hrule
  case postgresql =>
    rcases hrule with rfl | rfl | rfl
    exacts [hcolumns, hword, hengine]
  case mysql =>
    rcases hrule with rfl | rfl | rfl
    exacts [hcolumns, hword, absurd herror Bool.false_ne_true]
  case sqlite =>
    rcases hrule with rfl | rfl
    exacts [hcolumns, hword]

omit h ht htypes

/-- A script with safe names is separated into the definitions of its tables. -/
theorem separate_script (h : s.SafelyNamed)
    (htypes : ∀ t ∈ s.tables, ∀ f ∈ t.fields, ∃ l : LogicalType, f.type = l.name) (d : Dialect)
    (keepSemicolons : Bool) : Script.separate keepSemicolons (s.script d).toList =
      s.creatable.map fun t => s.tableStatement d t ++ if keepSemicolons then [';'] else [] := by
  have hscript : (s.script d).toList =
      ['\n', '\n'].intercalate ((s.creatable.map (s.tableStatement d)).map (· ++ [';'])) := by
    rw [toList_script, List.map_map, List.map_map]
    exact congrArg _ (List.map_congr_left fun t _ => toList_tableDefinition_eq s d t)
  have hbare : ∀ statement ∈ s.creatable.map (s.tableStatement d), Script.IsBare statement := by
    intro statement hstatement
    obtain ⟨t, ht, rfl⟩ := List.mem_map.mp hstatement
    have hmem : t ∈ s.tables := List.mem_of_mem_filter ht
    exact isBare_tableStatement h hmem (htypes t hmem) d
  rw [hscript, Script.separate_intercalate hbare, List.map_map]
  rfl

/-- A script with safe names has no errors. -/
theorem errors_validate_script (h : s.SafelyNamed)
    (htypes : ∀ t ∈ s.tables, ∀ f ∈ t.fields, ∃ l : LogicalType, f.type = l.name) (d : Dialect) :
    (validate d (s.script d).toList).errors = [] := by
  have hnone : (brokenRules d (Script.separate false (s.script d).toList)).filter Rule.isError =
      [] := by
    refine List.filter_eq_nil_iff.mpr fun rule hbroken herror => ?_
    rw [separate_script h htypes] at hbroken
    obtain ⟨statement, hstatement, hrule⟩ := List.mem_flatMap.mp hbroken
    obtain ⟨t, ht, rfl⟩ := List.mem_map.mp hstatement
    have hmem : t ∈ s.tables := List.mem_of_mem_filter ht
    obtain ⟨hrule, hbreaks⟩ := List.mem_filter.mp hrule
    have hkept := isBrokenBy_tableStatement h hmem (htypes t hmem) hrule herror
    rw [if_neg Bool.false_ne_true, List.append_nil, hkept] at hbreaks
    exact Bool.false_ne_true hbreaks
  rw [validate, hnone]
  rfl

end Schema

/-! ## Written scripts -/

/-- With safe names, the script of a schema is separated into the definitions of its tables, in
order, and it is valid in the dialect that it is written in. A converted script is such a script,
whichever way the source was tokenized. -/
theorem validate_written (lexing : Dialect → Tokenizer) (d : Dialect) :
    (∀ s : Schema, (∀ t ∈ s.tables, ∀ f ∈ t.fields, ∃ l : LogicalType, f.type = l.name) →
      s.SafelyNamed →
      Script.separate true (s.script d).toList =
          s.creatable.map (fun t => (s.tableDefinition d t).toList) ∧
        (validate d (s.script d).toList).valid = true ∧
        (validate d (s.script d).toList).errors = []) ∧
    ∀ source text, source ≠ d → (Script.readSchema (lexing source) text).SafelyNamed →
      Script.separate true (convertWith lexing source d text).toList =
          (Script.readSchema (lexing source) text).creatable.map
            (fun t => ((Script.readSchema (lexing source) text).tableDefinition d t).toList) ∧
        (validate d (convertWith lexing source d text).toList).valid = true ∧
        (validate d (convertWith lexing source d text).toList).errors = [] := by
  have hwritten : ∀ s : Schema,
      (∀ t ∈ s.tables, ∀ f ∈ t.fields, ∃ l : LogicalType, f.type = l.name) → s.SafelyNamed →
      Script.separate true (s.script d).toList =
          s.creatable.map (fun t => (s.tableDefinition d t).toList) ∧
        (validate d (s.script d).toList).valid = true ∧
        (validate d (s.script d).toList).errors = [] := by
    intro s htypes h
    have herrors := Schema.errors_validate_script h htypes d
    refine ⟨?_, by rw [Findings.valid, herrors]; rfl, herrors⟩
    rw [Schema.separate_script h htypes]
    exact List.map_congr_left fun t _ => (Schema.toList_tableDefinition_eq s d t).symm
  refine ⟨hwritten, fun source text hne h => ?_⟩
  have hread := Script.readSchema_wellFormed (lexing source) text
  rw [convertWith_of_ne lexing text hne]
  exact hwritten _ (fun t ht => (hread.tables t ht).types) h

/-- Two tables are created, the one without fields is not; this holds after a conversion, too. -/
theorem validate_written_sample :
    (Script.sampleSchema.SafelyNamed ∧
      Script.separate true (Script.sampleSchema.script .mysql).toList =
        Script.sampleSchema.creatable.map
          (fun t => (Script.sampleSchema.tableDefinition .mysql t).toList)) ∧
    (Dialect.readSchema .sqlite (Script.sampleSchema.script .sqlite)).SafelyNamed ∧
      (validate .mysql (convert .sqlite .mysql (Script.sampleSchema.script .sqlite)).toList).valid =
        true := by
  have hwell := Script.sampleSchema_wellFormed
  have hn := Script.sampleSchema_plainlyNamed
  have hsample : Script.sampleSchema.SafelyNamed := by decide +kernel
  have hread : Dialect.readSchema .sqlite (Script.sampleSchema.script .sqlite) =
      Script.sampleSchema.kept .sqlite := Dialect.readSchema_script hwell hn (by decide) .sqlite
  have hkept : (Dialect.readSchema .sqlite (Script.sampleSchema.script .sqlite)).SafelyNamed :=
    hread ▸ (by decide +kernel : (Script.sampleSchema.kept .sqlite).SafelyNamed)
  have hwritten := validate_written Dialect.lexemes .mysql
  exact ⟨⟨hsample, (hwritten.1 _ (fun t ht => (hwell.tables t ht).types) hsample).1⟩, hkept,
    (hwritten.2 .sqlite _ (by decide) hkept).2.1⟩

end Schemata
