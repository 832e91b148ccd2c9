import Schemata.Json.Basic
import Schemata.Text.Hexadecimal

/-!
# Writing JSON

A style says how characters are escaped and whether every value stands on a line of its own, two
blanks deeper than the array or object that holds it. Empty arrays and objects stay on one line.
-/
namespace Schemata.Json

structure Style where
  /-- Whether characters outside the printable ASCII range are written as escapes. -/
  asciiOnly : Bool
  /-- Whether values stand on lines of their own. -/
  indented : Bool

/-- Documents in printable ASCII. -/
def Style.ascii : Style := ⟨true, true⟩

/-- Documents that keep all characters but the control characters. -/
def Style.unicode : Style := ⟨false, true⟩

/-- Everything on one line. -/
def Style.line : Style := ⟨false, false⟩

/-- The escape of one sixteen-bit unit. -/
def unitEscape (n : Nat) : List Char := '\\' :: 'u' :: Text.hexDigits 4 n

/-- The escape of a character, as a surrogate pair beyond the sixteen-bit range. -/
def charEscape (c : Char) : List Char :=
  let n := c.toNat
  if n < 0x10000 then unitEscape n
  else unitEscape (0xD800 + (n - 0x10000) / 0x400) ++ unitEscape (0xDC00 + (n - 0x10000) % 0x400)

def writeChar (style : Style) (c : Char) : List Char :=
  if c = '"' then ['\\', '"']
  else if c = '\\' then ['\\', '\\']
  else if c = '\n' then ['\\', 'n']
  else if c = '\r' then ['\\', 'r']
  else if c = '\t' then ['\\', 't']
  else if c = '\x08' then ['\\', 'b']
  else if c = '\x0c' then ['\\', 'f']
  else if c.toNat < 0x20 || (style.asciiOnly && 0x7F ≤ c.toNat) then charEscape c
  else [c]

def writeString (style : Style) (s : String) : List Char :=
  '"' :: s.toList.flatMap (writeChar style) ++ ['"']

/-- The break before a value at a depth of nesting. -/
def lineBreak (style : Style) (depth : Nat) : List Char :=
  if style.indented then '\n' :: List.replicate (2 * depth) ' ' else []

/-- The mark between the name and the value of a member. -/
def memberMark (style : Style) : List Char := if style.indented then [':', ' '] else [':']

mutual

def writeAt (style : Style) (depth : Nat) : Json → List Char
  | .null => "null".toList
  | .bool true => "true".toList
  | .bool false => "false".toList
  | .integer n => (toString n).toList
  | .decimal negative digits exponent =>
    (if negative then ['-'] else []) ++ (toString digits).toList ++
      'e' :: (toString exponent).toList
  | .nonFinite => "NaN".toList
  | .string s => writeString style s
  | .brokenString => "\"\\ud800\"".toList
  | .array [] => ['[', ']']
  | .array (item :: items) =>
    '[' :: lineBreak style (depth + 1) ++ writeAt style (depth + 1) item ++
      writeItems style (depth + 1) items ++ lineBreak style depth ++ [']']
  | .object [] => ['{', '}']
  | .object ((name, value) :: members) =>
    '{' :: lineBreak style (depth + 1) ++ writeString style name ++ memberMark style ++
      writeAt style (depth + 1) value ++ writeMembers style (depth + 1) members ++
      lineBreak style depth ++ ['}']

/-- Further items of an array, each after a comma. -/
def writeItems (style : Style) (depth : Nat) : List Json → List Char
  | [] => []
  | item :: items =>
    ',' :: lineBreak style depth ++ writeAt style depth item ++ writeItems style depth items

/-- Further members of an object, each after a comma. -/
def writeMembers (style : Style) (depth : Nat) : List (String × Json) → List Char
  | [] => []
  | (name, value) :: members =>
    ',' :: lineBreak style depth ++ writeString style name ++ memberMark style ++
      writeAt style depth value ++ writeMembers style depth members

end

def write (style : Style) (json : Json) : String := String.ofList (writeAt style 0 json)

end Schemata.Json
