import Schemata.Script.Draft
import Schemata.Text.Caseless

/-!
# Finding statements

A script is cut into statements by its lexemes. Where that fails, because the text around the
statements has no tokens or a string runs across a statement, every `CREATE TABLE` in the text
starts a statement of its own.
-/
namespace Schemata.Script

/-- A statement with the text that its lexemes refer to. -/
structure Statement where
  lexemes : List Lexeme
  source : List Char

/-- The words that may stand between `CREATE` and `TABLE`. -/
def tableModifiers : List String := ["GLOBAL", "LOCAL", "TEMP", "TEMPORARY", "UNLOGGED"]

def dropModifiers (us : List Lexeme) : List Lexeme := us.dropWhile (·.isWord tableModifiers)

def isCreateTable : List Lexeme → Bool
  | u :: us => u.isWord ["CREATE"] && Phrase.nextIs "TABLE" (dropModifiers us)
  | [] => false

/-! ## Searching text -/

/-- The text after a keyword and at least one blank. -/
def afterWordAndBlank? (keyword : String) (cs : List Char) : Option (List Char) := do
  let rest ← Text.afterKeyword? keyword.toList cs
  let later := rest.dropWhile Text.isBlank
  if later.length < rest.length then some later else none

/-- The text after the first of some keywords that fits with a blank, or the text itself. -/
def skipModifier (keywords : List String) (cs : List Char) : List Char :=
  (keywords.findSome? (afterWordAndBlank? · cs)).getD cs

/-- Whether a `CREATE TABLE` begins at a place, given the character before it. -/
def createTableAt (before : Option Char) (cs : List Char) : Bool :=
  !(before.map Text.isWordChar).getD false &&
    match afterWordAndBlank? "create" cs with
    | none => false
    | some cs =>
      let cs := skipModifier ["temp", "temporary", "unlogged"] (skipModifier ["global", "local"] cs)
      match Text.afterKeyword? "table".toList cs with
      | none => false
      | some cs => !(cs.head?.map Text.isWordChar).getD false

/-- Cuts a text at the places where a `CREATE TABLE` begins: the text before the first one, and the
chunk from each one on. -/
def cutAtCreateTable (before : Option Char) : List Char → List Char × List (List Char)
  | [] => ([], [])
  | c :: cs =>
    let (head, chunks) := cutAtCreateTable (some c) cs
    if createTableAt before (c :: cs) then ([], (c :: head) :: chunks) else (c :: head, chunks)

/-- The chunks of a text, each from one `CREATE TABLE` up to the next. -/
def chunks (text : List Char) : List (List Char) := (cutAtCreateTable none text).2

/-- Whether a text that follows a given character holds a `CREATE TABLE`. -/
def holdsCreateTable (before : Option Char) : List Char → Bool
  | [] => false
  | c :: cs => createTableAt before (c :: cs) || holdsCreateTable (some c) cs

/-- Whether a string of a script holds a `CREATE TABLE`. -/
def hidesCreateTable (source : List Char) (us : List Lexeme) : Bool :=
  us.any fun u =>
    u.kind = .string &&
      holdsCreateTable (if u.start = 0 then none else source[u.start - 1]?)
        ((source.drop u.start).take (u.stop + 1 - u.start))

/-! ## Statements -/

/-- The text up to its first semicolon, with it. -/
def throughSemicolon? : List Char → Option (List Char)
  | [] => none
  | c :: cs => if c = ';' then some [c] else (throughSemicolon? cs).map (c :: ·)

/-- The lexemes of a chunk. If the text behind a statement has no tokens, the chunk is read up to
its first semicolon. -/
def chunkLexemes? (tokenize : Tokenizer) (chunk : List Char) : Option (List Lexeme) :=
  match tokenize chunk with
  | .ok us => some us
  | .error _ => (throughSemicolon? chunk).bind fun cut => (tokenize cut).toOption

/-- The beginning of a text, as it is shown in issues. -/
def excerpt (cs : List Char) : String := String.ofList (cs.take 120)

/-- The first statement of a chunk, or the issue that it cannot be read. -/
def chunkStatement (tokenize : Tokenizer) (chunk : List Char) :
    Except Issue (Option Statement) :=
  match chunkLexemes? tokenize chunk with
  | none => .error (.unreadable (excerpt (Text.trim chunk)))
  | some us => .ok ((Lexeme.statements us).head?.map (⟨·, chunk⟩))

/-- The statements of a text chunk by chunk, with the issues of the chunks that cannot be read. -/
def chunkStatements (tokenize : Tokenizer) (text : List Char) : List Statement × List Issue :=
  let outcomes := (chunks text).map (chunkStatement tokenize)
  (outcomes.filterMap fun
    | .ok statement => statement
    | .error _ => none,
   outcomes.filterMap fun
    | .ok _ => none
    | .error issue => some issue)

/-- The statements of a script. -/
def statements (tokenize : Tokenizer) (text : List Char) : List Statement × List Issue :=
  match tokenize text with
  | .error _ => chunkStatements tokenize text
  | .ok us =>
    if hidesCreateTable text us then chunkStatements tokenize text
    else ((Lexeme.statements us).map (⟨·, text⟩), [])

end Schemata.Script
