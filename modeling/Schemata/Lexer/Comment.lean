import Schemata.Lexer.Lexicon

/-!
# Comments

A line comment runs to the end of its line, a block comment to its closing mark; where comments
nest, each opening mark inside needs a closing mark of its own.
-/
namespace Schemata.Lexer

/-- The text from the line break on that ends a line comment. -/
def afterLineComment (l : Lexicon) (cs : List Char) : List Char :=
  cs.dropWhile fun c => c ≠ '\n' && !(l.returnEndsComment && c = '\r')

/-- The two-character marks of a block comment. -/
structure BlockMarks where
  opening : Char × Char
  closing : Char × Char

/-- The text after a block comment whose opening mark has been read; `depth` more comments are open
around it. A mark that follows the first character of a closing mark may still open a comment. -/
def afterBlockComment? (nested : Bool) (m : BlockMarks) : (depth : Nat) → List Char →
    Option (List Char)
  | depth, c :: d :: e :: cs =>
    if (c, d) = m.closing && depth = 0 then some (e :: cs)
    else
      let depth := if (c, d) = m.closing then depth - 1 else depth
      if nested && (d, e) = m.opening then afterBlockComment? nested m (depth + 1) cs
      else afterBlockComment? nested m depth (d :: e :: cs)
  | depth, [c, d] => if (c, d) = m.closing && depth = 0 then some [] else none
  | _, _ => none

/-- Whether two hyphens open a comment before a text. -/
def dashesOpenComment (l : Lexicon) (after : List Char) : Bool :=
  !l.dashNeedsBlank ||
    match after with
    | [] => true
    | c :: _ => Text.isBlank c || c.toNat < 32 || c.toNat = 127

end Schemata.Lexer
