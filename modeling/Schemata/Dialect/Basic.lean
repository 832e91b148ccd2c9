import Schemata.Text.Blank
import Schemata.Text.Case

/-!
# Dialect families

Scripts are read and written for three families of databases. A family has several aliases; the
settings name the family to use where a caller names none.
-/
namespace Schemata

inductive Dialect where
  | postgresql | mysql | sqlite
deriving DecidableEq, Inhabited

namespace Dialect

def name : Dialect → String
  | .postgresql => "postgresql"
  | .mysql => "mysql"
  | .sqlite => "sqlite"

/-- The name of the family for a reader of scripts. -/
def readerName : Dialect → String
  | .postgresql => "postgres"
  | .mysql => "mysql"
  | .sqlite => "sqlite"

def aliases : List (String × Dialect) :=
  [("postgresql", .postgresql), ("postgres", .postgresql), ("pg", .postgresql),
   ("postgres-local", .postgresql), ("postgres-like", .postgresql), ("supabase", .postgresql),
   ("mysql", .mysql), ("mysql-local", .mysql), ("mysql-like", .mysql), ("planetscale", .mysql),
   ("mariadb", .mysql), ("sqlite", .sqlite), ("sqlite3", .sqlite), ("sqlite-like", .sqlite)]

/-- The family of an alias, without regard to case and surrounding blanks. -/
def ofAlias? (label : String) : Option Dialect :=
  aliases.lookup (Text.lowerCase (Text.trimmed label))

/-- The reader name of an alias; a name that is no alias stays as it is, in small letters. No name
stands for the first family. -/
def readerNameOf (name : Option String) : String :=
  match name with
  | none => Dialect.postgresql.readerName
  | some "" => Dialect.postgresql.readerName
  | some name =>
    let small := Text.trimmed (Text.lowerCase name)
    match aliases.lookup small with
    | some d => d.readerName
    | none => small

/-- The family that a reader name names. -/
def ofReaderName? (name : String) : Option Dialect :=
  [Dialect.postgresql, .mysql, .sqlite].find? (·.readerName = name)

end Dialect

/-- What applies where a caller leaves it open. -/
structure Settings where
  defaultDialect : String := "postgresql"
  strict : Bool := false
deriving DecidableEq, Inhabited

namespace Dialect

/-- The family of a name: a missing or blank name stands for the default, an unknown one for
PostgreSQL. -/
def resolve (settings : Settings) (name : Option String) : Dialect :=
  let named := match name with
    | none => settings.defaultDialect
    | some n => if Text.isBlankText n.toList then settings.defaultDialect else n
  (ofAlias? named).getD .postgresql

/-- The family whose rules scripts are read with: a missing or empty name stands for the default,
and what names no family is read as PostgreSQL. -/
def forReading (settings : Settings) (name : Option String) : Dialect :=
  let named := match name with
    | none => settings.defaultDialect
    | some n => if n = "" then settings.defaultDialect else n
  (ofReaderName? (readerNameOf (some named))).getD .postgresql

end Dialect

end Schemata
