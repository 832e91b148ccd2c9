import Schemata.Text.Blank
import Schemata.Text.Case

/-!
# Logical column types

Every column type of a script is read as one of seven logical types. Type words are looked up
without regard to case and to a length in parentheses; unknown words are read as text.
-/
namespace Schemata

inductive LogicalType where
  | int8 | text | boolean | timestamp | numeric | uuid | json
deriving DecidableEq

def LogicalType.name : LogicalType → String
  | .int8 => "int8"
  | .text => "text"
  | .boolean => "boolean"
  | .timestamp => "timestamp"
  | .numeric => "numeric"
  | .uuid => "uuid"
  | .json => "json"

def LogicalType.all : List LogicalType :=
  [.int8, .text, .boolean, .timestamp, .numeric, .uuid, .json]

theorem LogicalType.mem_all (t : LogicalType) : t ∈ all := by cases t <;> simp [all]

namespace TypeWord

/-- The known spellings of each logical type. -/
def spellings : LogicalType → List String
  | .int8 =>
    ["SERIAL", "BIGSERIAL", "SMALLSERIAL", "INTEGER", "INT", "INT2", "INT4", "INT8", "BIGINT",
     "SMALLINT", "MEDIUMINT", "TINYINT"]
  | .text =>
    ["VARCHAR", "CHAR", "CHARACTER", "NVARCHAR", "NCHAR", "TEXT", "TINYTEXT", "MEDIUMTEXT",
     "LONGTEXT"]
  | .boolean => ["BOOLEAN", "BOOL"]
  | .timestamp => ["TIMESTAMP", "TIMESTAMPTZ", "DATETIME", "DATE", "TIME", "TIMETZ"]
  | .numeric => ["DECIMAL", "NUMERIC", "REAL", "DOUBLE", "FLOAT", "FLOAT4", "FLOAT8", "MONEY"]
  | .uuid => ["UUID"]
  | .json => ["JSON", "JSONB"]

/-- A type word in capitals, up to its first parenthesis. -/
def base (word : String) : String :=
  String.ofList (Text.upper (Text.trim (word.toList.takeWhile (· ≠ '('))))

def logical? (word : String) : Option LogicalType :=
  LogicalType.all.find? fun t => base word ∈ spellings t

def isKnown (word : String) : Bool := (logical? word).isSome

/-- The logical type of a type word; unknown words are text. -/
def logical (word : String) : LogicalType := (logical? word).getD .text

/-- Whether a column of this type numbers its rows itself, which makes it the primary key. -/
def isAutoIncrement (word : String) : Bool := base word ∈ ["SERIAL", "BIGSERIAL"]

end TypeWord

end Schemata
