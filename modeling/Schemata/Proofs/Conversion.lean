import Mathlib.Tactic
import Schemata.Conversion
import Schemata.Proofs.Script.Resolution
import Schemata.Proofs.Script.RoundTrip

/-!
# Conversions on a detour

Whatever a script declares is saturated under inference, so what a conversion keeps of it determines
every further conversion: a detour over a family that collapses no types makes no difference.
-/
namespace Schemata

variable {s : Schema} {a b c d : Dialect}

/-! ## Schemas that were read -/

namespace Script

theorem readSchema_wellFormed (tokenize : Tokenizer) (text : String) :
    (readSchema tokenize text).WellFormed :=
  readScript_wellFormed tokenize (Response.script text.toList)

/-- Nothing more can be inferred from a script that has been read. -/
theorem inferred_readSchema (tokenize : Tokenizer) (text : String) :
    (readSchema tokenize text).inferred = [] :=
  Schema.inferred_infer _

theorem readSchema_script {tokenize : Tokenizer} (h : s.WellFormed) (hn : s.PlainlyNamed)
    (hs : s.inferred = []) (ht : tokenize.ReadsPlainly (s.script d).toList) :
    readSchema tokenize (s.script d) = s.kept d := by
  rw [readSchema, read_script h hn hs ht]

end Script

/-- With its own tokenizer a dialect reads back what it keeps of a schema. -/
theorem Dialect.readSchema_script (h : s.WellFormed) (hn : s.PlainlyNamed) (hs : s.inferred = [])
    (d : Dialect) : d.readSchema (s.script d) = s.kept d :=
  Script.readSchema_script h hn hs (Lexer.readsPlainly_script h hn d)

/-! ## Conversions -/

theorem convertWith_of_ne (lexing : Dialect → Tokenizer) (text : String) (h : a ≠ b) :
    convertWith lexing a b text = (Script.readSchema (lexing a) text).script b := by
  rw [convertWith, if_neg h]

/-- A script of a saturated schema is converted to the script that the schema has there. -/
theorem convertWith_script {lexing : Dialect → Tokenizer} (h : s.WellFormed) (hn : s.PlainlyNamed)
    (hs : s.inferred = []) (hb : b ≠ .sqlite) (hbc : b ≠ c)
    (ht : (lexing b).ReadsPlainly (s.script b).toList) :
    convertWith lexing b c (s.script b) = s.script c := by
  rw [convertWith_of_ne lexing _ hbc, Script.readSchema_script h hn hs ht]
  exact Schema.script_kept h hb c

/-- For any text, a conversion over a second family equals the direct one, provided that the names
read from the text are plain and the script in between is read plainly. -/
theorem convertWith_convertWith (lexing : Dialect → Tokenizer) (text : String)
    (hab : a ≠ b) (hbc : b ≠ c) (hac : a ≠ c) (hb : b ≠ .sqlite)
    (hn : (Script.readSchema (lexing a) text).PlainlyNamed)
    (ht : (lexing b).ReadsPlainly ((Script.readSchema (lexing a) text).script b).toList) :
    convertWith lexing b c (convertWith lexing a b text) = convertWith lexing a c text := by
  have hwell := Script.readSchema_wellFormed (lexing a) text
  have hdone := Script.inferred_readSchema (lexing a) text
  rw [convertWith_of_ne lexing text hab, convertWith_of_ne lexing text hac]
  exact convertWith_script hwell hn hdone hb hbc ht

theorem convertWith_convertWith_sample :
    convertWith Dialect.lexemes .postgresql .mysql
        (convertWith Dialect.lexemes .sqlite .postgresql (Script.sampleSchema.script .sqlite)) =
      convertWith Dialect.lexemes .sqlite .mysql (Script.sampleSchema.script .sqlite) := by
  have hwell := Script.sampleSchema_wellFormed
  have hn := Script.sampleSchema_plainlyNamed
  have hread : Script.readSchema (Dialect.lexemes .sqlite) (Script.sampleSchema.script .sqlite) =
      Script.sampleSchema.kept .sqlite :=
    Script.readSchema_script hwell hn (by decide) (Lexer.readsPlainly_script hwell hn .sqlite)
  have hkept := hn.kept .sqlite
  have hplain := Lexer.readsPlainly_script (hwell.kept .sqlite) hkept .postgresql
  exact convertWith_convertWith Dialect.lexemes _ (by decide) (by decide) (by decide) (by decide)
    (hread ▸ hkept) (hread ▸ hplain)

end Schemata
