import Schemata.Lexer.Comment
import Schemata.Lexer.Keyword
import Schemata.Lexer.Number
import Schemata.Lexer.Quoted

/-!
# Tokens

A token is a word, a quoted name, a string, a number or a mark. Keywords of several words are one
token, comments are none. What a token is depends on the text from its first character on, and on
the token before it.
-/
namespace Schemata

inductive LexemeKind where
  | word | quoted | string | number | punct
deriving DecidableEq, Inhabited

def LexemeKind.name : LexemeKind → String
  | .word => "word"
  | .quoted => "quoted"
  | .string => "string"
  | .number => "number"
  | .punct => "punct"

/-- What a token means for the tokens after it. -/
inductive TokenRole where
  | plain
  /-- The mark of a parameter: the word after it is no keyword. -/
  | parameter
  /-- A word that may open a command. -/
  | command
  /-- A token that a command may follow. -/
  | commandOpener
  | hintHost
deriving DecidableEq

structure Token where
  kind : LexemeKind
  role : TokenRole := .plain
  text : List Char
  /-- The offset of the first character. -/
  start : Nat
  /-- The offset of the last character. -/
  stop : Nat

namespace Lexer

/-- A token without its offsets. -/
abbrev BareToken := LexemeKind × TokenRole × List Char

/-- What is read at one place: a token, or something to skip. -/
structure Reading where
  token : Option BareToken
  /-- The text that follows. -/
  rest : List Char

/-- The text that `rest` ends, without it. -/
def textBefore (cs rest : List Char) : List Char := cs.take (cs.length - rest.length)

def roleOf (l : Lexicon) (word : List Char) : TokenRole :=
  let name := String.ofList (Text.upper word)
  if name ∈ l.commands then .command
  else if name ∈ l.commandOpeners then .commandOpener
  else if name ∈ l.hintHosts then .hintHost
  else .plain

/-- A character that stands alone. -/
def single (c : Char) (rest : List Char) : Reading :=
  if c = ';' then ⟨some (.punct, .commandOpener, [c]), rest⟩
  else if c = '@' then ⟨some (.word, .parameter, [c]), rest⟩
  else if c ∈ ['(', ')', ',', '.'] then ⟨some (.punct, .plain, [c]), rest⟩
  else ⟨some (.word, .plain, [c]), rest⟩

/-- A word, which is never empty. -/
def word (l : Lexicon) (previous : Option TokenRole) (c : Char) (cs : List Char) : Reading :=
  let rest := cs.dropWhile (!l.endsWord ·)
  let text := c :: textBefore cs rest
  let role := if previous = some .parameter then .plain else roleOf l text
  ⟨some (.word, role, text), rest⟩

/-- A number, a literal in another base, or a name that opens with a digit. -/
def number (l : Lexicon) (previous : Option TokenRole) (c : Char) (cs : List Char) : Reading :=
  match (if c = '0' then cs.head?.bind (literalBase? l) else none) with
  | some base =>
    let rest := afterLiteral l (cs.drop 1)
    let text := c :: textBefore cs rest
    if Text.isNumeral base text then ⟨some (.string, .plain, text.drop 2), rest⟩
    else ⟨some (.quoted, .plain, text), rest⟩
  | none =>
    let (form, rest) := numberOrName l (previous = some .parameter) cs
    let text := c :: textBefore cs rest
    match form with
    | .number => ⟨some (.number, .plain, text), rest⟩
    | .name => ⟨some (.word, .plain, text), rest⟩

def quotedName (l : Lexicon) (closing : Char) (cs : List Char) : Except (List Char) Reading := do
  let (text, rest) ← quotedText l ⟨[closing], [closing], false, false⟩ [] cs
  pure ⟨some (.quoted, .plain, text), rest⟩

def plainString (l : Lexicon) (quote : Char) (cs : List Char) : Except (List Char) Reading := do
  let (text, rest) ← quotedText l ⟨[quote], l.stringEscapes, false, false⟩ [] cs
  pure ⟨some (.string, .plain, text), rest⟩

/-- Whether a tag cannot open a string, so that its dollar sign marks a parameter. -/
def isParameterTag (tag rest : List Char) : Bool :=
  tag ≠ [] && (rest.isEmpty || tag.all Text.isDigitSymbol || tag.any Text.isBlank)

/-- A string between two copies of a tag in dollar signs; `cs` follows the first dollar sign. -/
def taggedString (l : Lexicon) (cs : List Char) : Except (List Char) Reading :=
  match cs with
  | [] => .error []
  | _ => do
    let (tag, rest) ← quotedText l ⟨['$'], l.stringEscapes, true, true⟩ [] cs
    if isParameterTag tag rest then
      let after := if rest.isEmpty && cs.getLast? = some '$' then cs.drop 1 else cs
      pure ⟨some (.word, .parameter, '$' :: textBefore cs after), after⟩
    else
      let (text, rest) ← quotedText l ⟨'$' :: tag ++ ['$'], l.stringEscapes, true, false⟩ [] rest
      pure ⟨some (.string, .plain, text), rest⟩

/-- A string whose opening is a mark; `cs` follows the opening. -/
def markedString (l : Lexicon) (opening : List Char) (form : StringForm) (cs : List Char) :
    Except (List Char) Reading :=
  let delimiter := [opening.getLastD '\'']
  match form with
  | .tagged => taggedString l cs
  | .plain => do
    let (text, rest) ← quotedText l ⟨delimiter, l.stringEscapes, false, false⟩ [] cs
    pure ⟨some (.string, .plain, text), rest⟩
  | .escaped => do
    let (text, rest) ← quotedText l ⟨delimiter, l.escapedStringEscapes, false, false⟩ [] cs
    pure ⟨some (.string, .plain, text), rest⟩
  | .numeral base => do
    let (text, rest) ← quotedText l ⟨delimiter, l.stringEscapes, false, false⟩ [] cs
    if text = [] || Text.isNumeral base text then pure ⟨some (.string, .plain, text), rest⟩
    else .error (cs.drop (cs.length - rest.length - 1))

end Lexer

end Schemata
