import Schemata.Dialect.Basic
import Schemata.Text.Affix
import Schemata.Text.Decimal

/-!
# Spellings of a dialect

How each family spells the parts of a table definition, and the type that a general type name
stands for.
-/
namespace Schemata

/-- The kinds of types that every family has a spelling for. -/
inductive TypeKind where
  | serial | text | integer | boolean | timestamp | decimal
deriving DecidableEq

namespace TypeKind

def all : List TypeKind := [.serial, .text, .integer, .boolean, .timestamp, .decimal]

def name : TypeKind → String
  | .serial => "serial"
  | .text => "text"
  | .integer => "integer"
  | .boolean => "boolean"
  | .timestamp => "timestamp"
  | .decimal => "decimal"

/-- The kind that a general type name stands for. -/
def ofName? (name : String) : Option TypeKind :=
  [("text", text), ("string", text), ("int", integer), ("int8", integer), ("integer", integer),
   ("bool", boolean), ("boolean", boolean), ("timestamp", timestamp), ("datetime", timestamp),
   ("decimal", decimal), ("numeric", decimal)].lookup name

end TypeKind

/-- A part of a spelling: fixed text, or a named place to fill in. -/
inductive TemplatePart where
  | fixed (text : String)
  | place (name : String)
deriving DecidableEq

abbrev Template := List TemplatePart

namespace Template

/-- The template itself as text, with its places in braces. -/
def text (t : Template) : String :=
  String.join (t.map fun
    | .fixed s => s
    | .place name => "\x7b" ++ name ++ "\x7d")

/-- The text with every place filled in. -/
def fill (t : Template) (values : String → String) : String :=
  String.join (t.map fun
    | .fixed s => s
    | .place name => values name)

end Template

/-- The spellings of one family. -/
structure Spelling where
  displayName : String
  /-- Type and key of a primary key that numbers its rows. -/
  autoIncrement : String
  typeName : TypeKind → String
  varcharTemplate : Template
  primaryKey : String := "PRIMARY KEY"
  notNull : String := "NOT NULL"
  unique : String := "UNIQUE"
  foreignKeyTemplate : Template :=
    [.fixed "REFERENCES ", .place "table", .fixed "(", .place "column", .fixed ")"]
  now : String
  uuid : String
  /-- Advice for writers of scripts. -/
  notes : List String

namespace Spelling

def postgresql : Spelling where
  displayName := "POSTGRESQL"
  autoIncrement := "SERIAL PRIMARY KEY"
  typeName
    | .serial => "SERIAL"
    | .text => "TEXT"
    | .integer => "INTEGER"
    | .boolean => "BOOLEAN"
    | .timestamp => "TIMESTAMP"
    | .decimal => "DECIMAL"
  varcharTemplate := [.fixed "VARCHAR(", .place "length", .fixed ")"]
  now := "NOW()"
  uuid := "gen_random_uuid()"
  notes :=
    ["Use SERIAL for auto-incrementing primary keys",
     "Advanced types such as JSON and UUID are available"]

def mysql : Spelling where
  displayName := "MYSQL"
  autoIncrement := "INT AUTO_INCREMENT PRIMARY KEY"
  typeName
    | .serial => "INT AUTO_INCREMENT"
    | .text => "TEXT"
    | .integer => "INT"
    | .boolean => "BOOLEAN"
    | .timestamp => "TIMESTAMP"
    | .decimal => "DECIMAL"
  varcharTemplate := [.fixed "VARCHAR(", .place "length", .fixed ")"]
  now := "NOW()"
  uuid := "UUID()"
  notes :=
    ["Use AUTO_INCREMENT for auto-incrementing primary keys (NOT SERIAL)",
     "Use backticks for table/column names that conflict with keywords"]

def sqlite : Spelling where
  displayName := "SQLITE"
  autoIncrement := "INTEGER PRIMARY KEY AUTOINCREMENT"
  typeName
    | .serial => "INTEGER PRIMARY KEY AUTOINCREMENT"
    | .text => "TEXT"
    | .integer => "INTEGER"
    | .boolean => "INTEGER"
    | .timestamp => "TEXT"
    | .decimal => "REAL"
  varcharTemplate := [.fixed "TEXT"]
  now := "datetime('now')"
  uuid := "lower(hex(randomblob(16)))"
  notes :=
    ["Use TEXT instead of VARCHAR",
     "Use INTEGER for boolean values (0/1)",
     "Store timestamps as TEXT",
     "Foreign keys require PRAGMA foreign_keys=ON"]

/-- The type of texts up to a length; no length and zero stand for 255. -/
def varchar (s : Spelling) (length : Option Int) : String :=
  let length := match length with
    | none => 255
    | some n => if n = 0 then 255 else n
  s.varcharTemplate.fill fun _ => toString length

/-- The clause for a reference to a column. -/
def foreignKey (s : Spelling) (table column : String) : String :=
  s.foreignKeyTemplate.fill fun place => if place = "table" then table else column

/-- The digits of the length in `varchar ( length )` at the front of a text in small letters. -/
def varcharDigits? (cs : List Char) : Option (List Char) := do
  let rest ← Text.after? "varchar".toList cs
  let rest ← Text.after? ['('] (rest.dropWhile Text.isBlank)
  let rest := rest.dropWhile Text.isBlank
  let digits := rest.takeWhile fun c => (Text.decimalDigit? c).isSome
  guard (!digits.isEmpty)
  guard (Text.startsWith [')'] ((rest.drop digits.length).dropWhile Text.isBlank))
  some digits

/-- The length of a general type name that has too many digits. -/
def longLength? (type : String) : Option Text.LongNumber :=
  (varcharDigits? (Text.lowerCase (Text.trimmed type)).toList).bind Text.LongNumber.ofDigits?

/-- The spelling of a general type name. A name of no known kind stays as written, in capitals. -/
def typeWord (s : Spelling) (type : String) (length : Option Int) : String :=
  let trimmed := Text.trimmed type
  let small := Text.lowerCase trimmed
  if small = "serial" then s.typeName .serial
  else if Text.startsWith "varchar".toList small.toList then
    match varcharDigits? small.toList with
    | some digits => s.varchar (some (Text.decimalValue digits))
    | none => s.varchar length
  else match TypeKind.ofName? small with
    | some kind => s.typeName kind
    | none => Text.upperCase trimmed

/-- The spelling of a general type name, unless its length has too many digits. -/
def checkedTypeWord (s : Spelling) (type : String) (length : Option Int) :
    Except Text.LongNumber String :=
  Text.LongNumber.refuse (longLength? type) (s.typeWord type length)

end Spelling

def Dialect.spelling : Dialect → Spelling
  | .postgresql => .postgresql
  | .mysql => .mysql
  | .sqlite => .sqlite

end Schemata
