import Schemata.Text.Alphabet
import Schemata.Text.Hexadecimal
import Schemata.Text.Literal.Ranges

/-!
# Text in quotes

The form in which a text is quoted in messages: in single quotes, or in double quotes if it holds a
single quote and no double quote. Characters without a visible form are written as escapes.
-/
namespace Schemata.Text

/-- Whether a character is shown as it is; of the separators only the space is. -/
def isGraphic (c : Char) : Bool :=
  if isAscii c then 0x20 ≤ c.toNat && c.toNat ≠ 0x7F else inRanges graphicRanges c.toNat

/-- The escape of a character, with as few digits as its form allows. -/
def codeEscape (c : Char) : List Char :=
  let n := c.toNat
  if n < 0x100 then '\\' :: 'x' :: hexDigits 2 n
  else if n < 0x10000 then '\\' :: 'u' :: hexDigits 4 n
  else '\\' :: 'U' :: hexDigits 8 n

def literalQuote (cs : List Char) : Char := if '\'' ∈ cs && '"' ∉ cs then '"' else '\''

def literalChar (quote c : Char) : List Char :=
  if c = quote || c = '\\' then ['\\', c]
  else if c = '\n' then ['\\', 'n']
  else if c = '\r' then ['\\', 'r']
  else if c = '\t' then ['\\', 't']
  else if isGraphic c then [c]
  else codeEscape c

def literal (s : String) : String :=
  let quote := literalQuote s.toList
  String.ofList (quote :: s.toList.flatMap (literalChar quote) ++ [quote])

end Schemata.Text
