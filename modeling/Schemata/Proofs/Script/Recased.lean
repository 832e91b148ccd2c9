import Mathlib.Tactic
import Schemata.Proofs.Conversion
import Schemata.Proofs.Migration.Between
import Schemata.Proofs.Response
import Schemata.Proofs.Script.Restated
import Schemata.Proofs.Text.Recased

/-!
# Layout and letter case

Scripts with the same lexemes, up to the case of ASCII letters in words and quoted names, declare
the same schema wherever their lexemes stand: only default values are copied out of the source.
There is no migration between them.
-/
namespace Schemata

/-- Lexemes of one kind with the same text, up to the case of words and quoted names. -/
def Lexeme.SameButCase (u v : Lexeme) : Prop :=
  u.kind = v.kind ∧ if u.isName then Text.SameButCase u.text v.text else u.text = v.text

instance : DecidableRel Lexeme.SameButCase := fun u v =>
  inferInstanceAs (Decidable (u.kind = v.kind ∧
    if u.isName then Text.SameButCase u.text v.text else u.text = v.text))

namespace Lexeme

variable {u v : Lexeme}

theorem SameButCase.name (h : u.SameButCase v) (hname : u.isName = true) :
    Text.SameButCase u.text v.text := by
  have htext := h.2
  rwa [if_pos hname] at htext

theorem SameButCase.text_eq (h : u.SameButCase v) (hname : u.isName = false) : u.text = v.text := by
  have htext := h.2
  rwa [hname] at htext

theorem identifier_eq_of_sameButCase (h : Text.SameButCase u.text v.text) :
    u.identifier = v.identifier := by
  have hblind : ∀ w : Lexeme, w.identifier = String.ofList (Text.lower
      (Text.trimWhile (· ∈ ['\x60', '"', '[', ']']) (Text.asciiLowerText w.text.toList))) := by
    intro w
    have hmark : ∀ c, decide (Text.asciiLower c ∈ ['\x60', '"', '[', ']']) =
        decide (c ∈ ['\x60', '"', '[', ']']) :=
      Text.apply_asciiLower (f := fun c => decide (c ∈ ['\x60', '"', '[', ']'])) (by decide)
    rw [Text.trimWhile_asciiLowerText hmark, Text.lower_asciiLowerText]
    rfl
  rw [hblind, hblind, h]

/-- Text without letters is told apart in all kinds of lexemes. -/
theorem SameButCase.text_eq_iff (h : u.SameButCase v) {marks : String}
    (hmarks : marks.toList.any Char.isAlpha = false) : u.text = marks ↔ v.text = marks := by
  by_cases hname : u.isName = true
  · exact (h.name hname).eq_iff hmarks
  · rw [h.text_eq (Bool.eq_false_iff.mpr hname)]

theorem SameButCase.alike (h : u.SameButCase v) : u.Alike v where
  kind := h.1
  upper hword := (h.name (by simp [isName, hword])).upperCase
  mark hpunct := h.text_eq (by simp [isName, hpunct])
  identifier hname := identifier_eq_of_sameButCase (h.name hname)
  type hname := (h.name hname).base
  sign := or_congr (h.text_eq_iff (by decide)) (h.text_eq_iff (by decide))
  cast := h.text_eq_iff (by decide)

end Lexeme

theorem Schema.columns_withoutDefaultTexts (s : Schema) :
    (s.withoutDefaultTexts.tables.map fun t => (t.name, t.columns)) =
      s.tables.map fun t => (t.name, t.columns) := by
  rw [withoutDefaultTexts, through, List.map_map]
  refine List.map_congr_left fun t _ => ?_
  simp [Table.columns, Function.comp_def]

namespace Migration

theorem ofSchemas?_eq_none_iff {name : Option String} {d : Dialect} {previous current : Schema} :
    ofSchemas? name d previous current = none ↔ Change.between previous current = [] := by
  rw [← List.map_eq_nil_iff (f := Change.statement current d)]
  change _ ↔ previous.statementsFrom current d = []
  rw [ofSchemas?]
  cases previous.statementsFrom current d with
  | nil => simp
  | cons s ss => simp

/-- Without changes there is no migration. -/
theorem plan?_eq_none_of_between {name : Option String} {d : Dialect} {previous current : String}
    (h : Change.between (d.readSchema previous) (d.readSchema current) = []) :
    plan? name d previous current = none := by
  rw [plan?]
  split_ifs with hsame
  · rfl
  · exact ofSchemas?_eq_none_iff.mpr h

/-- Two scripts without a `CREATE TABLE` in a string whose lexemes are the same up to the case of
words and quoted names declare the same schema up to the texts of default values, and there is no
migration from the one to the other. Their layout and their comments may differ. -/
theorem plan?_of_case {d : Dialect} {previous current : String} {us vs : List Lexeme}
    (hus : d.lexemes (Response.script previous.toList) = .ok us)
    (hvs : d.lexemes (Response.script current.toList) = .ok vs)
    (h : List.Forall₂ Lexeme.SameButCase us vs)
    (hhide : Script.hidesCreateTable (Response.script previous.toList) us = false)
    (hhide' : Script.hidesCreateTable (Response.script current.toList) vs = false)
    (name : Option String) :
    (d.readSchema previous).withoutDefaultTexts = (d.readSchema current).withoutDefaultTexts ∧
      plan? name d previous current = none := by
  have hschema : (d.readSchema previous).withoutDefaultTexts =
      (d.readSchema current).withoutDefaultTexts :=
    Script.withoutDefaultTexts_read_of_alike (fun _ _ => Lexeme.SameButCase.alike) hus hvs h hhide
      hhide'
  have hwell : (d.readSchema previous).WellFormed := Script.readSchema_wellFormed d.lexemes previous
  refine ⟨hschema, plan?_eq_none_of_between ?_⟩
  refine Change.between_eq_nil_of_columns hwell.distinctNames ?_
  rw [← Schema.columns_withoutDefaultTexts, hschema, Schema.columns_withoutDefaultTexts]

/-- The layout, a comment and the case of all names change; the default value is spaced out. -/
theorem plan?_of_case_default :
    let previous := "CREATE TABLE t(\"Id\" INT DEFAULT -1)"
    let current := "create /* same */ table T(\n\"ID\" int default - 1\n)"
    (Dialect.readSchema .postgresql previous).withoutDefaultTexts =
        (Dialect.readSchema .postgresql current).withoutDefaultTexts ∧
      plan? none .postgresql previous current = none := by
  intro previous current
  let us : List Lexeme := [⟨"CREATE", .word, 0, 5⟩, ⟨"TABLE", .word, 7, 11⟩, ⟨"t", .word, 13, 13⟩,
    ⟨"(", .punct, 14, 14⟩, ⟨"Id", .quoted, 15, 18⟩, ⟨"INT", .word, 20, 22⟩,
    ⟨"DEFAULT", .word, 24, 30⟩, ⟨"-", .word, 32, 32⟩, ⟨"1", .number, 33, 33⟩, ⟨")", .punct, 34, 34⟩]
  let vs : List Lexeme := [⟨"create", .word, 0, 5⟩, ⟨"table", .word, 18, 22⟩, ⟨"T", .word, 24, 24⟩,
    ⟨"(", .punct, 25, 25⟩, ⟨"ID", .quoted, 27, 30⟩, ⟨"int", .word, 32, 34⟩,
    ⟨"default", .word, 36, 42⟩, ⟨"-", .word, 44, 44⟩, ⟨"1", .number, 46, 46⟩, ⟨")", .punct, 48, 48⟩]
  have hscript : Response.script previous.toList = previous.toList :=
    Response.script_eq_self (by decide)
  have hscript' : Response.script current.toList = current.toList :=
    Response.script_eq_self (by decide)
  have hus : Dialect.lexemes .postgresql previous.toList = .ok us := by decide +kernel
  have hvs : Dialect.lexemes .postgresql current.toList = .ok vs := by decide +kernel
  have hsame : List.Forall₂ Lexeme.SameButCase us vs := by
    simp only [us, vs, List.forall₂_cons, List.Forall₂.nil, and_true]
    decide
  rw [← hscript] at hus
  rw [← hscript'] at hvs
  refine plan?_of_case hus hvs hsame ?_ ?_ none
  · rw [hscript]
    decide
  · rw [hscript']
    decide

end Migration

end Schemata
