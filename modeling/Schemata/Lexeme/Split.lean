import Schemata.Lexeme.Basic

/-!
# Statements, clauses and parentheses

A script is cut into statements at semicolons, and before every `CREATE`, outside parentheses; a
table body is cut into clauses at commas outside parentheses.
-/
namespace Schemata.Lexeme

/-- Adds a piece unless it is empty. -/
def consPiece (piece : List Lexeme) (pieces : List (List Lexeme)) : List (List Lexeme) :=
  if piece.isEmpty then pieces else piece :: pieces

/-- Cuts at top-level semicolons and before top-level `CREATE`s; `current` is the statement so far.
A closing parenthesis without an opening one leaves the depth at zero. -/
def statementsFrom (depth : Nat) (current : List Lexeme) : List Lexeme → List (List Lexeme)
  | [] => consPiece current []
  | u :: us =>
    if u.isOpening then statementsFrom (depth + 1) (current ++ [u]) us
    else if u.isClosing then statementsFrom (depth - 1) (current ++ [u]) us
    else if u.isPunct ";" && depth = 0 then consPiece current (statementsFrom 0 [] us)
    else if u.isWord ["CREATE"] && depth = 0 then
      consPiece current (statementsFrom 0 [u] us)
    else statementsFrom depth (current ++ [u]) us

def statements (us : List Lexeme) : List (List Lexeme) := statementsFrom 0 [] us

/-- Splits at the closing parenthesis that belongs to an opening one just before, where `depth` more
parentheses are open: the lexemes before it, the parenthesis, and those after it. -/
def closingFrom? (depth : Nat) : List Lexeme → Option (List Lexeme × Lexeme × List Lexeme)
  | [] => none
  | u :: us =>
    if u.isClosing && depth = 0 then some ([], u, us)
    else
      let depth := if u.isOpening then depth + 1 else if u.isClosing then depth - 1 else depth
      (closingFrom? depth us).map fun (inside, close, rest) => (u :: inside, close, rest)

/-- Splits what follows an opening parenthesis at the closing one that belongs to it. -/
def closing? (us : List Lexeme) : Option (List Lexeme × Lexeme × List Lexeme) := closingFrom? 0 us

/-- Cuts at commas outside parentheses; `current` is the clause so far. -/
def clausesFrom (depth : Int) (current : List Lexeme) : List Lexeme → List (List Lexeme)
  | [] => consPiece current []
  | u :: us =>
    if u.isOpening then clausesFrom (depth + 1) (current ++ [u]) us
    else if u.isClosing then clausesFrom (depth - 1) (current ++ [u]) us
    else if u.isPunct "," && depth = 0 then consPiece current (clausesFrom 0 [] us)
    else clausesFrom depth (current ++ [u]) us

def clauses (us : List Lexeme) : List (List Lexeme) := clausesFrom 0 [] us

/-! ## Small facts -/

theorem consPiece_nil (pieces : List (List Lexeme)) : consPiece [] pieces = pieces := rfl

theorem consPiece_of_ne_nil {piece : List Lexeme} (h : piece ≠ []) (pieces : List (List Lexeme)) :
    consPiece piece pieces = piece :: pieces := by
  cases piece <;> simp_all [consPiece]

theorem flatten_consPiece (piece : List Lexeme) (pieces : List (List Lexeme)) :
    (consPiece piece pieces).flatten = piece ++ pieces.flatten := by
  cases piece <;> simp [consPiece]

end Schemata.Lexeme
