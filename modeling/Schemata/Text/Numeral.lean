import Schemata.Text.Blank
import Schemata.Text.Alphabet

/-!
# Numerals in a base

The form of an integer in base two or sixteen: blanks around it, a sign, a base mark and single
underscores between digits are allowed, and decimal digits of every script count as digits.
-/
namespace Schemata.Text

/-- A digit or blank of any script as its ASCII counterpart; other characters beyond ASCII are no
part of a numeral. -/
def plainNumeralChar (c : Char) : Char :=
  if isAscii c then c
  else if isBlank c then ' '
  else match decimalDigit? c with
    | some d => Char.ofNat (0x30 + d)
    | none => '?'

/-- The blanks allowed around a numeral. -/
def isNumeralBlank (c : Char) : Bool := c == ' ' || (0x09 ≤ c.toNat && c.toNat ≤ 0x0D)

/-- Digits of a base with single underscores between them. -/
def isDigitRun (base : Nat) : List Char → Bool
  | [] => false
  | [c] => (digitBelow? base c).isSome
  | c :: '_' :: cs => (digitBelow? base c).isSome && isDigitRun base cs
  | c :: d :: cs => (digitBelow? base c).isSome && isDigitRun base (d :: cs)

def dropSign : List Char → List Char
  | '+' :: cs => cs
  | '-' :: cs => cs
  | cs => cs

/-- A base mark with the underscore that may follow it, given by its two letters. -/
def dropBaseMark (small capital : Char) : List Char → List Char
  | '0' :: c :: '_' :: cs => if c = small || c = capital then cs else '0' :: c :: '_' :: cs
  | '0' :: c :: cs => if c = small || c = capital then cs else '0' :: c :: cs
  | cs => cs

inductive NumeralBase where
  | binary
  | hexadecimal
deriving DecidableEq

/-- Whether a text is an integer in a base. -/
def isNumeral (base : NumeralBase) (cs : List Char) : Bool :=
  let body := dropSign (trimWhile isNumeralBlank (cs.map plainNumeralChar))
  match base with
  | .binary => isDigitRun 2 (dropBaseMark 'b' 'B' body)
  | .hexadecimal => isDigitRun 16 (dropBaseMark 'x' 'X' body)

end Schemata.Text
