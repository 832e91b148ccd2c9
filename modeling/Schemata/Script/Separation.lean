import Schemata.Text.Blank

/-!
# Cutting a script at semicolons

A script is cut at the semicolons outside quotes. Comments are dropped on the way: a line comment
leaves its line break, a block comment a blank. Empty statements are left out.
-/
namespace Schemata.Script

/-- Where in a script a character stands. -/
inductive Region where
  | plain
  /-- Inside quotes of the given character; two of them in a row do not close the quotes. -/
  | quoted (quote : Char)
  | lineComment
  | blockComment
deriving DecidableEq

def isQuote (c : Char) : Bool := c = '\'' || c = '"' || c = '\x60'

/-- Puts a character in front of the first piece. -/
def consChar (c : Char) : List (List Char) → List (List Char)
  | [] => [[c]]
  | piece :: pieces => (c :: piece) :: pieces

/-- The pieces between the semicolons, without comments, from a place in a region on. -/
def piecesFrom : Region → List Char → List (List Char)
  | _, [] => [[]]
  | .plain, '-' :: '-' :: cs => piecesFrom .lineComment cs
  | .plain, '/' :: '*' :: cs => consChar ' ' (piecesFrom .blockComment cs)
  | .plain, c :: cs =>
    if c = ';' then [] :: piecesFrom .plain cs
    else if isQuote c then consChar c (piecesFrom (.quoted c) cs)
    else consChar c (piecesFrom .plain cs)
  | .quoted _, [c] => [[c]]
  | .quoted q, c :: d :: cs =>
    if c = q then
      if d = q then consChar c (consChar d (piecesFrom (.quoted q) cs))
      else consChar c (piecesFrom .plain (d :: cs))
    else consChar c (piecesFrom (.quoted q) (d :: cs))
  | .lineComment, c :: cs =>
    if c = '\n' then consChar c (piecesFrom .plain cs) else piecesFrom .lineComment cs
  | .blockComment, '*' :: '/' :: cs => piecesFrom .plain cs
  | .blockComment, _ :: cs => piecesFrom .blockComment cs

theorem consChar_ne_nil (c : Char) (pieces : List (List Char)) : consChar c pieces ≠ [] := by
  cases pieces <;> simp [consChar]

/-- The statements that pieces stand for. All pieces but the last one end in a semicolon, which may
be kept. -/
def statementsOf (keepSemicolons : Bool) : List (List Char) → List (List Char)
  | [] => []
  | [piece] => if Text.isBlankText piece then [] else [Text.trim piece]
  | piece :: pieces =>
    let rest := statementsOf keepSemicolons pieces
    if Text.isBlankText piece then rest
    else (Text.trim piece ++ if keepSemicolons then [';'] else []) :: rest

/-- The statements of a script. -/
def separate (keepSemicolons : Bool) (script : List Char) : List (List Char) :=
  statementsOf keepSemicolons (piecesFrom .plain script)

end Schemata.Script
