import Schemata.Lexer.Lexicon

/-!
# Numbers

A number is digits with at most one point and one exponent. A word that begins right after it either
follows it as a word of its own or turns the whole into a name.
-/
namespace Schemata.Lexer

/-- How far an exponent has been read: not at all, up to its mark, or past its sign. -/
inductive ExponentState where
  | none | marked | signed
deriving DecidableEq

/-- The text after a number whose first digit has been read. After a parameter mark no point is part
of the number. -/
def afterNumber (parameter point : Bool) (exponent : ExponentState) : List Char → List Char
  | [] => []
  | c :: cs =>
    if c.isDigit then afterNumber parameter point exponent cs
    else if c = '.' && !point then
      if parameter then c :: cs else afterNumber parameter true exponent cs
    else if (c = '-' || c = '+') && exponent = .marked then
      if (cs.head?.map Char.isDigit).getD false then afterNumber parameter point .signed cs
      else c :: cs
    else if (c = 'e' || c = 'E') && exponent = .none then afterNumber parameter point .marked cs
    else c :: cs

/-- A number, or a name that opens with digits. -/
inductive NumberForm where
  | number | name

/-- Reads on from a number into the word right after it where names may open with digits. -/
def numberOrName (l : Lexicon) (parameter : Bool) (cs : List Char) : NumberForm × List Char :=
  let rest := afterNumber parameter false .none cs
  if l.digitsOpenNames && (rest.head?.map Text.opensIdentifier).getD false then
    (.name, rest.dropWhile fun c => !Text.isBlank c && !l.isSingle c)
  else (.number, rest)

/-- The base of a literal that opens with a zero and the given character. -/
def literalBase? (l : Lexicon) (c : Char) : Option Text.NumeralBase :=
  if c = 'x' || c = 'X' then some .hexadecimal
  else if (c = 'b' || c = 'B') && l.binaryLiterals then some .binary
  else none

/-- The text after a literal whose base mark has been read. -/
def afterLiteral (l : Lexicon) (cs : List Char) : List Char :=
  cs.dropWhile fun c => !Text.isBlank c && !l.isSingle c

end Schemata.Lexer
