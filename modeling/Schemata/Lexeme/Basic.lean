import Schemata.Lexer.Scan

/-!
# Lexemes

The units that statements are read from. A keyword of several words is one lexeme for each word, all
with the offsets of the keyword; every other token is one lexeme.
-/
namespace Schemata

structure Lexeme where
  text : String
  kind : LexemeKind
  /-- The offset of the first character. -/
  start : Nat
  /-- The offset of the last character. -/
  stop : Nat
deriving DecidableEq, Inhabited

namespace Lexeme

def upper (u : Lexeme) : String := Text.upperCase u.text

/-- An unquoted word that is one of the given keywords, without regard to case. -/
def isWord (u : Lexeme) (keywords : List String) : Bool := u.kind = .word && u.upper ∈ keywords

def isPunct (u : Lexeme) (mark : String) : Bool := u.kind = .punct && u.text = mark

def isOpening (u : Lexeme) : Bool := u.isPunct "("

def isClosing (u : Lexeme) : Bool := u.isPunct ")"

/-- Whether the lexeme can be a name: a word or a quoted name. -/
def isName (u : Lexeme) : Bool := u.kind = .word || u.kind = .quoted

/-- The name that the lexeme stands for, in small letters and without quotes. -/
def identifier (u : Lexeme) : String :=
  String.ofList (Text.lower (Text.trimWhile (· ∈ ['`', '"', '[', ']']) u.text.toList))

def ofToken (t : Token) : List Lexeme :=
  match t.kind with
  | .word => (Text.words t.text).map fun w => ⟨String.ofList w, .word, t.start, t.stop⟩
  | kind => [⟨String.ofList t.text, kind, t.start, t.stop⟩]

/-- The source text from the first to the last of some lexemes. -/
def sourceText (source : List Char) (us : List Lexeme) : String :=
  match us.head?, us.getLast? with
  | some first, some last =>
    String.ofList ((source.drop first.start).take (last.stop + 1 - first.start))
  | _, _ => ""

end Lexeme

/-- The lexemes of a text, or the error that makes it unreadable. -/
abbrev Tokenizer := List Char → Except LexicalError (List Lexeme)

/-- The lexemes of a text in a dialect. -/
def Dialect.lexemes (d : Dialect) : Tokenizer := fun text =>
  (Lexer.tokens d.lexicon text).map (·.flatMap Lexeme.ofToken)

end Schemata
