import Mathlib.Tactic
import Schemata.Proofs.Schema.FieldLinks
import Schemata.Proofs.Script.Drafts

/-!
# Declared schemas

The schema of a script before anything is inferred: its tables with the references that it declares.
What is read in the end extends these tables.
-/
namespace Schemata.Script

/-- The report of a script with the declared references only. -/
def readDeclared (tokenize : Tokenizer) (text : List Char) : Report :=
  let (found, unreadable) := statements tokenize (Response.script text)
  declared (found.foldl Progress.add { issues := unreadable })

variable {tokenize : Tokenizer} {text : List Char}

theorem read_eq_infer (tokenize : Tokenizer) (text : List Char) :
    read tokenize text =
      { readDeclared tokenize text with schema := (readDeclared tokenize text).schema.infer } :=
  rfl

theorem schema_readDeclared (tokenize : Tokenizer) (text : List Char) :
    (readDeclared tokenize text).schema =
      linked (draftsOf (statements tokenize (Response.script text)).1) := by
  simp only [readDeclared, declared_schema, quiet_drafts_foldl]
  rfl

theorem readDeclared_wellFormed (tokenize : Tokenizer) (text : List Char) :
    (readDeclared tokenize text).schema.WellFormed :=
  (sound_progress _ _).declared

/-- What is inferred is added to what is declared. -/
theorem extendedBy_read (tokenize : Tokenizer) (text : List Char) :
    List.Forall₂ Table.ExtendedBy (readDeclared tokenize text).schema.tables
      (read tokenize text).schema.tables :=
  have h := readDeclared_wellFormed tokenize text
  h.distinctNames.extendedBy_infer h.consistent

end Schemata.Script
