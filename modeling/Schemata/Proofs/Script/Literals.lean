import Mathlib.Data.List.Forall2
import Mathlib.Tactic
import Schemata.Proofs.Response
import Schemata.Proofs.Script.Restated

/-!
# Texts of strings

What stands between the quotes of a string has no influence on tables, columns and links: it can
only show in a default value. This holds as long as the script is cut by its lexemes, and for all
texts that do not spell an operator.
-/
namespace Schemata

/-- Lexemes that say the same, or two strings of which neither spells an operator. -/
def Lexeme.SameButString (u v : Lexeme) : Prop :=
  u.content = v.content ∨
    u.kind = .string ∧ v.kind = .string ∧ u.text ∉ operators ∧ v.text ∉ operators

instance : DecidableRel Lexeme.SameButString := fun u v =>
  inferInstanceAs (Decidable (u.content = v.content ∨
    u.kind = .string ∧ v.kind = .string ∧ u.text ∉ Lexeme.operators ∧ v.text ∉ Lexeme.operators))

theorem Lexeme.SameButString.alike {u v : Lexeme} (h : u.SameButString v) : u.Alike v := by
  rcases h with hcontent | ⟨hu, hv, hu', hv'⟩
  · exact alike_of_content hcontent
  · exact alike_of_strings hu hv hu' hv'

/-- The schema without default values, as if no field had one. -/
def Schema.withoutDefaults (s : Schema) : Schema := s.through fun _ => none

namespace Script

/-- Two scripts whose lexemes differ in the texts of strings only declare the same schema up to the
texts of default values: no string may hold a `CREATE TABLE`, and no text that changes may spell an
operator. -/
theorem withoutDefaultTexts_read_of_strings {tokenize : Tokenizer} {text text' : List Char}
    {us vs : List Lexeme} (hus : tokenize (Response.script text) = .ok us)
    (hvs : tokenize (Response.script text') = .ok vs)
    (h : List.Forall₂ Lexeme.SameButString us vs)
    (hhide : hidesCreateTable (Response.script text) us = false)
    (hhide' : hidesCreateTable (Response.script text') vs = false) :
    (read tokenize text).schema.withoutDefaultTexts =
      (read tokenize text').schema.withoutDefaultTexts :=
  withoutDefaultTexts_read_of_alike (fun _ _ => Lexeme.SameButString.alike) hus hvs h hhide hhide'

/-! ### One string -/

/-- A table with a string as its default value. -/
def stringScript (text : String) : List Char :=
  ("CREATE TABLE t(a TEXT DEFAULT '" ++ text ++ "')").toList

/-- Its lexemes, where `stop` is the place of the closing quote. -/
def stringLexemes (text : String) (stop : ℕ) : List Lexeme :=
  [⟨"CREATE", .word, 0, 5⟩, ⟨"TABLE", .word, 7, 11⟩, ⟨"t", .word, 13, 13⟩, ⟨"(", .punct, 14, 14⟩,
    ⟨"a", .word, 15, 15⟩, ⟨"TEXT", .word, 17, 20⟩, ⟨"DEFAULT", .word, 22, 28⟩,
    ⟨text, .string, 30, stop⟩, ⟨")", .punct, stop + 1, stop + 1⟩]

theorem lexemes_stringScript :
    Dialect.lexemes .postgresql (stringScript "x") = .ok (stringLexemes "x" 32) := by
  decide +kernel

/-- Marks and keywords in a string do nothing. -/
theorem withoutDefaultTexts_read_of_strings_marks :
    (read (Dialect.lexemes .postgresql) (stringScript "x")).schema.withoutDefaultTexts =
      (read (Dialect.lexemes .postgresql)
        (stringScript "),b INT PRIMARY KEY(;")).schema.withoutDefaultTexts := by
  have hscript : Response.script (stringScript "x") = stringScript "x" :=
    Response.script_eq_self (by decide)
  have hscript' : Response.script (stringScript "),b INT PRIMARY KEY(;") =
      stringScript "),b INT PRIMARY KEY(;" := Response.script_eq_self (by decide)
  have hlexemes' : Dialect.lexemes .postgresql (stringScript "),b INT PRIMARY KEY(;") =
      .ok (stringLexemes "),b INT PRIMARY KEY(;" 52) := by decide +kernel
  have hsame : List.Forall₂ Lexeme.SameButString (stringLexemes "x" 32)
      (stringLexemes "),b INT PRIMARY KEY(;" 52) := by
    simp only [stringLexemes, List.forall₂_cons, List.Forall₂.nil, and_true]
    decide
  refine withoutDefaultTexts_read_of_strings (hscript.symm ▸ lexemes_stringScript)
    (hscript'.symm ▸ hlexemes') hsame ?_ ?_
  · rw [hscript]
    decide
  · rw [hscript']
    decide

/-- The exception: a string that holds a `CREATE TABLE` hides the table that it belongs to. -/
theorem read_string_holding_table :
    (∃ us, Dialect.lexemes .postgresql (stringScript "CREATE TABLE u(b INT)") = .ok us) ∧
      (read (Dialect.lexemes .postgresql) (stringScript "x")).schema.withoutDefaults ≠
        (read (Dialect.lexemes .postgresql)
          (stringScript "CREATE TABLE u(b INT)")).schema.withoutDefaults := by
  have hscript' : Response.script (stringScript "CREATE TABLE u(b INT)") =
      stringScript "CREATE TABLE u(b INT)" := Response.script_eq_self (by decide)
  have hlexemes' : Dialect.lexemes .postgresql (stringScript "CREATE TABLE u(b INT)") =
      .ok (stringLexemes "CREATE TABLE u(b INT)" 52) := by decide +kernel
  -- the table is read as long as the string holds none
  have hstatements : Lexeme.statements (stringLexemes "x" 32) = [stringLexemes "x" 32] := by decide
  have hdraft := draft?_of_tableBody (s := ⟨stringLexemes "x" 32, stringScript "x"⟩) (by decide) rfl
  have hone : (read (Dialect.lexemes .postgresql) (stringScript "x")).schema.tables ≠ [] := by
    intro hempty
    have hnames := names_linked
      (draftsOf ((Lexeme.statements (stringLexemes "x" 32)).map (⟨·, stringScript "x"⟩)))
    rw [← schema_read_of_lexemes lexemes_stringScript (by decide) (by decide), hempty, hstatements,
      List.map_singleton, draftsOf_singleton hdraft] at hnames
    cases hnames
  -- otherwise its text is cut inside the string, and neither chunk has tokens
  have hchunks : chunks (stringScript "CREATE TABLE u(b INT)") =
      ["CREATE TABLE t(a TEXT DEFAULT '".toList, "CREATE TABLE u(b INT)')".toList] := by decide
  have hfirst : chunkLexemes? (Dialect.lexemes .postgresql)
      "CREATE TABLE t(a TEXT DEFAULT '".toList = none := by decide +kernel
  have hsecond : chunkLexemes? (Dialect.lexemes .postgresql)
      "CREATE TABLE u(b INT)')".toList = none := by decide +kernel
  have hhide : hidesCreateTable (stringScript "CREATE TABLE u(b INT)")
      (stringLexemes "CREATE TABLE u(b INT)" 52) = true := by decide
  have hfound : (statements (Dialect.lexemes .postgresql)
      (stringScript "CREATE TABLE u(b INT)")).1 = [] := by
    simp only [statements, hlexemes', hhide, if_true, chunkStatements, hchunks, List.map_cons,
      List.map_nil, chunkStatement, hfirst, hsecond]
    rfl
  have hnone : (read (Dialect.lexemes .postgresql)
      (stringScript "CREATE TABLE u(b INT)")).schema.tables = [] := by
    rw [schema_read, hscript', hfound]
    rfl
  refine ⟨⟨_, hlexemes'⟩, fun heq => hone ?_⟩
  have htables := congrArg Schema.tables heq
  rw [Schema.withoutDefaults, Schema.withoutDefaults, Schema.through, Schema.through,
    hnone] at htables
  exact List.map_eq_nil_iff.mp htables

end Script

end Schemata
