import Schemata.Definition
import Schemata.Script.Reading

/-!
# Converting scripts

A script is read in one dialect and its schema is written in another. A script that is in the target
dialect already stays as it is.
-/
namespace Schemata

/-- Converts a script that is read with a given tokenizer for each dialect. -/
def convertWith (lexing : Dialect → Tokenizer) (source target : Dialect) (script : String) :
    String :=
  if source = target then script
  else (Script.readSchema (lexing source) script).script target

def convert (source target : Dialect) (script : String) : String :=
  convertWith Dialect.lexemes source target script

/-- Converts a script that may be missing; where it has to be read, a missing one is empty. -/
def convert? (source target : Dialect) (script : Option String) : Option String :=
  if source = target then script else some (convert source target (script.getD ""))

end Schemata
