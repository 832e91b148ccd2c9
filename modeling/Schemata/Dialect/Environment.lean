import Schemata.Dialect.Basic

/-!
# Settings from the environment

Two variables set the default dialect and strict reading. A truth value is one of eight words,
without regard to case and surrounding blanks; an empty one is false.
-/
namespace Schemata

/-- Environment variables with their values. -/
abbrev Environment := List (String × String)

inductive EnvironmentError where
  | required (name : String)
  | notBool (name value : String)
deriving DecidableEq

def EnvironmentError.message : EnvironmentError → String
  | .required name => "Environment variable '" ++ name ++ "' is required but not set."
  | .notBool name value =>
    "Environment variable '" ++ name ++ "' must be a boolean, got '" ++ value ++ "'."

namespace Environment

/-- The value of a variable, which may be absent unless it is required. -/
def text (env : Environment) (name : String) (required : Bool) :
    Except EnvironmentError (Option String) :=
  match env.lookup name with
  | some value => .ok (some value)
  | none => if required then .error (.required name) else .ok none

def flagWords : List (String × Bool) :=
  [("true", true), ("1", true), ("yes", true), ("on", true),
   ("false", false), ("0", false), ("no", false), ("off", false), ("", false)]

/-- The truth value of a variable. -/
def flag (env : Environment) (name : String) (required : Bool) :
    Except EnvironmentError (Option Bool) := do
  match ← env.text name required with
  | none => pure none
  | some value =>
    match flagWords.lookup (Text.lowerCase (Text.trimmed value)) with
    | some b => pure (some b)
    | none => throw (.notBool name value)

end Environment

def Settings.dialectVariable : String := "SCHEMA_DESIGNER_DEFAULT_DIALECT"

def Settings.strictVariable : String := "SCHEMA_DESIGNER_STRICT_PARSE"

/-- The settings of an environment. A blank dialect and an unreadable truth value are ignored. -/
def Settings.ofEnvironment (env : Environment) : Settings where
  defaultDialect :=
    let named := Text.trimmed ((env.lookup dialectVariable).getD "postgresql")
    if named = "" then "postgresql" else named
  strict :=
    match env.flag strictVariable false with
    | .ok (some b) => b
    | _ => false

end Schemata
