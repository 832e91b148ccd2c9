/-!
# JSON values

Numbers keep the difference between integers and decimals. Objects keep their members in order, a
name may occur several times, and the last occurrence counts.
-/
namespace Schemata

inductive Json where
  | null
  | bool (value : Bool)
  | integer (value : Int)
  /-- The number `± digits · 10 ^ exponent`, written with a point or an exponent. -/
  | decimal (negative : Bool) (digits : Nat) (exponent : Int)
  /-- An infinity or the value that is no number. -/
  | nonFinite
  | string (value : String)
  /-- A string with half of a surrogate pair, which stands for no text. -/
  | brokenString
  | array (items : List Json)
  | object (members : List (String × Json))
deriving Inhabited

namespace Json

/-- The member of a given name, the last one if there are several. -/
def lookup (members : List (String × Json)) (name : String) : Option Json :=
  (members.reverse.find? (·.1 = name)).map (·.2)

def member? (name : String) : Json → Option Json
  | .object members => lookup members name
  | _ => none

/-- The member of a given name, with an absent one read as null. -/
def member (json : Json) (name : String) : Json := (json.member? name).getD .null

def items : Json → List Json
  | .array items => items
  | _ => []

def string? : Json → Option String
  | .string s => some s
  | _ => none

def ofStrings (strings : List String) : Json := .array (strings.map .string)

def ofNat (n : Nat) : Json := .integer n

/-- A missing value is written as null. -/
def ofOption {α : Type} (write : α → Json) (value : Option α) : Json :=
  (value.map write).getD .null

end Json

end Schemata
