import Schemata.Json.Basic
import Schemata.Schema.Basic
import Schemata.Text.Case

/-!
# Schema documents

A schema is saved as a JSON document with camel-case names and loaded from one. Loading also takes
the snake-case names, fills in what may be left out, and lists every fault of a document with the
path to it.
-/
namespace Schemata

inductive DocumentStep where
  | name (name : String)
  | index (position : Nat)
deriving DecidableEq

inductive FaultKind where
  | notObject
  | notString
  | notList
  | missing
  /-- A value that could be read as true or false but is neither. -/
  | unclearBool
  | notBool
deriving DecidableEq

def FaultKind.code : FaultKind → String
  | .notObject => "model_type"
  | .notString => "string_type"
  | .notList => "list_type"
  | .missing => "missing"
  | .unclearBool => "bool_parsing"
  | .notBool => "bool_type"

structure DocumentFault where
  path : List DocumentStep
  kind : FaultKind
deriving DecidableEq

/-- A value read from a document, or all faults found on the way. -/
inductive Decoded (α : Type) where
  | ok (value : α)
  | faults (faults : List DocumentFault)

namespace Decoded

def fault {α : Type} (kind : FaultKind) : Decoded α := .faults [⟨[], kind⟩]

/-- Places the faults of a part under the step that leads to it. -/
def under {α : Type} (step : DocumentStep) : Decoded α → Decoded α
  | .ok value => .ok value
  | .faults fs => .faults (fs.map fun f => { f with path := step :: f.path })

def map {α β : Type} (g : α → β) : Decoded α → Decoded β
  | .ok a => .ok (g a)
  | .faults fs => .faults fs

/-- Joins two parts; the faults of both are kept, in order. -/
def zip {α β : Type} : Decoded α → Decoded β → Decoded (α × β)
  | .ok a, .ok b => .ok (a, b)
  | .ok _, .faults fs => .faults fs
  | .faults fs, .ok _ => .faults fs
  | .faults fs, .faults gs => .faults (fs ++ gs)

end Decoded

namespace Document

/-! ## Reading values -/

def string : Json → Decoded String
  | .string s => .ok s
  | _ => .fault .notString

/-- The words that stand for a truth value, in small letters. -/
def boolWords : List (String × Bool) :=
  [("0", false), ("off", false), ("f", false), ("false", false), ("n", false), ("no", false),
   ("1", true), ("on", true), ("t", true), ("true", true), ("y", true), ("yes", true)]

/-- An integer in the signed 64-bit range is at least a possible truth value. -/
def boolOfInt (n : Int) : Decoded Bool :=
  if n = 0 then .ok false
  else if n = 1 then .ok true
  else if -0x8000000000000000 ≤ n ∧ n ≤ 0x7FFFFFFFFFFFFFFF then .fault .unclearBool
  else .fault .notBool

/-- A decimal is compared after rounding to double precision. Decimals of a size beyond `10 ^ 400`
or below `10 ^ -400` round to infinity and to zero. -/
def boolOfDecimal (negative : Bool) (digits : Nat) (exponent : Int) : Decoded Bool :=
  let size := (Nat.toDigits 10 digits).length + exponent
  if digits = 0 ∨ size < -400 then .ok false
  else if 400 < size then .fault .notBool
  else
    let magnitude := Float.ofScientific digits (exponent < 0) exponent.natAbs
    if magnitude == 0.0 then .ok false
    else if magnitude == 1.0 && !negative then .ok true
    else if magnitude.floor == magnitude &&
        (magnitude < 9223372036854775808.0 || (negative && magnitude == 9223372036854775808.0)) then
      .fault .unclearBool
    else .fault .notBool

def bool : Json → Decoded Bool
  | .bool b => .ok b
  | .integer n => boolOfInt n
  | .decimal negative digits exponent => boolOfDecimal negative digits exponent
  | .string s =>
    match boolWords.lookup (String.ofList (s.toList.map Text.asciiLower)) with
    | some b => .ok b
    | none => .fault .unclearBool
  | _ => .fault .notBool

/-- A value that may be null. -/
def optional {α : Type} (decode : Json → Decoded α) : Json → Decoded (Option α)
  | .null => .ok none
  | json => (decode json).map some

/-- The items of a list from a position on. -/
def itemsFrom {α : Type} (decode : Json → Decoded α) (position : Nat) :
    List Json → Decoded (List α)
  | [] => .ok []
  | json :: rest =>
    (((decode json).under (.index position)).zip (itemsFrom decode (position + 1) rest)).map
      fun (a, as) => a :: as

def list {α : Type} (decode : Json → Decoded α) : Json → Decoded (List α)
  | .array items => itemsFrom decode 0 items
  | _ => .fault .notList

/-! ## Reading members -/

/-- The names of a member: the one that documents are saved with, and one more that is read. -/
structure MemberName where
  saved : String
  other : String

def plainName (name : String) : MemberName := ⟨name, name⟩

/-- The value of a member with the name that it was found under; the saved name wins. -/
def find? (members : List (String × Json)) (name : MemberName) : Option (String × Json) :=
  match Json.lookup members name.saved with
  | some value => some (name.saved, value)
  | none => (Json.lookup members name.other).map (name.other, ·)

def required {α : Type} (members : List (String × Json)) (name : MemberName)
    (decode : Json → Decoded α) : Decoded α :=
  match find? members name with
  | some (found, value) => (decode value).under (.name found)
  | none => (Decoded.fault .missing).under (.name name.saved)

def withDefault {α : Type} (members : List (String × Json)) (name : MemberName) (default : α)
    (decode : Json → Decoded α) : Decoded α :=
  match find? members name with
  | some (found, value) => (decode value).under (.name found)
  | none => .ok default

/-- Reads an object through its members. -/
def object {α : Type} (decode : List (String × Json) → Decoded α) : Json → Decoded α
  | .object members => decode members
  | _ => .fault .notObject

def primaryKey : MemberName := ⟨"primaryKey", "primary_key"⟩
def foreignKey : MemberName := ⟨"foreignKey", "foreign_key"⟩
def defaultValue : MemberName := ⟨"defaultValue", "default_value"⟩
def fromTable : MemberName := ⟨"fromTable", "from_table"⟩
def fromField : MemberName := ⟨"fromField", "from_field"⟩
def toTable : MemberName := ⟨"toTable", "to_table"⟩
def toField : MemberName := ⟨"toField", "to_field"⟩

def reference : Json → Decoded Reference :=
  object fun members =>
    ((required members (plainName "table") string).zip
      (required members (plainName "column") string)).map fun (table, column) => ⟨table, column⟩

def field : Json → Decoded Field :=
  object fun members =>
    ((required members (plainName "name") string).zip
      ((withDefault members (plainName "type") "text" string).zip
        ((withDefault members (plainName "nullable") true bool).zip
          ((withDefault members primaryKey false bool).zip
            ((withDefault members foreignKey none (optional reference)).zip
              (withDefault members defaultValue none (optional string))))))).map
      fun (name, type, nullable, key, foreign, default) =>
        ⟨name, type, nullable, key, foreign, default⟩

def table : Json → Decoded Table :=
  object fun members =>
    ((required members (plainName "name") string).zip
      (withDefault members (plainName "fields") [] (list field))).map
      fun (name, fields) => ⟨name, fields⟩

def relationship : Json → Decoded Relationship :=
  object fun members =>
    ((required members fromTable string).zip
      ((required members fromField string).zip
        ((required members toTable string).zip (required members toField string)))).map
      fun (fromTable, fromField, toTable, toField) => ⟨fromTable, fromField, toTable, toField⟩

def schema : Json → Decoded Schema :=
  object fun members =>
    ((withDefault members (plainName "tables") [] (list table)).zip
      (withDefault members (plainName "relationships") [] (list relationship))).map
      fun (tables, relationships) => ⟨tables, relationships⟩

end Document

/-! ## Writing -/

def Reference.toJson (r : Reference) : Json :=
  .object [("table", .string r.table), ("column", .string r.column)]

/-- A missing reference or default is left out. -/
def Field.toJson (f : Field) : Json :=
  .object <|
    [("name", .string f.name), ("type", .string f.type), ("nullable", .bool f.nullable),
     ("primaryKey", .bool f.primaryKey)] ++
    (f.foreignKey.map fun r => ("foreignKey", r.toJson)).toList ++
    (f.defaultValue.map fun v => ("defaultValue", Json.string v)).toList

def Table.toJson (t : Table) : Json :=
  .object [("name", .string t.name), ("fields", .array (t.fields.map Field.toJson))]

def Relationship.toJson (r : Relationship) : Json :=
  .object
    [("fromTable", .string r.fromTable), ("fromField", .string r.fromField),
     ("toTable", .string r.toTable), ("toField", .string r.toField)]

def Schema.toJson (s : Schema) : Json :=
  .object
    [("tables", .array (s.tables.map Table.toJson)),
     ("relationships", .array (s.relationships.map Relationship.toJson))]

end Schemata
