import Schemata.Lexer.Lexicon

/-!
# Keyword search

Keywords with blanks or symbols, and the openings of strings and comments, are searched together:
all candidates are followed one character at a time, a run of blanks counting as one blank, and the
longest one that is completed wins.
-/
namespace Schemata.Lexer

/-- The candidates that go on with a character, without it. -/
def advance (c : Char) (candidates : List (List Char)) : List (List Char) :=
  candidates.filterMap fun
    | d :: rest => if d = c then some rest else none
    | [] => none

/-- The outcome of a search. -/
structure KeywordMatch where
  /-- How many characters the search has followed. -/
  length : Nat
  /-- The longest completed candidate as it stands in the text, with single blanks. -/
  word : Option (List Char)
  /-- Whether a keyword may end here: after a blank, after a symbol, or at the end of the text. -/
  closed : Bool

/-- Follows the candidates through a text. `seen` holds the characters so far, last first. -/
def follow (l : Lexicon) (candidates : List (List Char)) (seen : List Char) (length : Nat)
    (word : Option (List Char)) (afterBlank symbol : Bool) : List Char → KeywordMatch
  | [] => ⟨length, word, true⟩
  | c :: cs =>
    let symbol := symbol || l.isSingle c
    if Text.isBlank c && afterBlank then
      follow l candidates seen (length + 1) word true symbol cs
    else
      let c := if Text.isBlank c then ' ' else c
      match advance (Text.asciiUpper c) candidates with
      | [] => ⟨length, word, Text.isBlank c || symbol⟩
      | next =>
        let seen := c :: seen
        let word := if [] ∈ next then some seen.reverse else word
        follow l next seen (length + 1) word (Text.isBlank c) symbol cs

/-- Searches the front of a text. -/
def findKeyword (l : Lexicon) (cs : List Char) : KeywordMatch :=
  follow l l.openings [] 0 none false false cs

end Schemata.Lexer
