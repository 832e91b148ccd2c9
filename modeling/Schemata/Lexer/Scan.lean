import Schemata.Lexer.Token

/-!
# Scanning a text

A text is scanned token by token. After a command the rest of its statement is scanned as well, but
kept as one string; a failure anywhere makes the whole text unreadable.
-/
namespace Schemata

/-- The reason why a text has no tokens, with the text around the place. -/
structure LexicalError where
  context : List Char
deriving DecidableEq

def LexicalError.message (e : LexicalError) : String :=
  "Error tokenizing '" ++ String.ofList e.context ++ "'"

namespace Lexer

/-- The names of comments, strings and keywords lead to a reading; `none` leaves the text to be read
as a character that stands alone or as a word. -/
def readKeyword (l : Lexicon) (previous : Option TokenRole) (cs : List Char) :
    Except (List Char) (Option Reading) := do
  let found := findKeyword l cs
  match found.word with
  | none => pure none
  | some w =>
    let name := String.ofList w
    let after := cs.drop w.length
    match w with
    | [c] =>
      if c ∈ l.quotes then return some (← plainString l c after)
    | _ => pure ()
    if let some form := l.markedStrings.lookup name then
      return some (← markedString l w form after)
    if name ∈ l.lineComments && (name ≠ "--" || dashesOpenComment l after) then
      return some ⟨none, afterLineComment l after⟩
    if let some (closing : Char × Char) := l.blockComments.lookup name then
      let marks : BlockMarks := ⟨(w.headD ' ', (w.drop 1).headD ' '), closing⟩
      match afterBlockComment? l.nestedComments marks 0 after with
      | none => throw []
      | some rest =>
        if name = "/*+" && previous = some .hintHost then
          return some ⟨some (.word, .plain, textBefore cs rest), rest⟩
        return some ⟨none, rest⟩
    let keyword := Text.upper w
    if found.closed && String.ofList keyword ∈ l.keywords then
      return some ⟨some (.word, roleOf l keyword, keyword), cs.drop found.length⟩
    pure none

/-- Reads what begins with a character that is no blank. -/
def readToken (l : Lexicon) (previous : Option TokenRole) (c : Char) (cs : List Char) :
    Except (List Char) Reading := do
  if c.isDigit then pure (number l previous c cs)
  else if let some closing := l.nameQuotes.lookup c then quotedName l closing cs
  else match ← readKeyword l previous (c :: cs) with
    | some reading => pure reading
    | none => if l.isSingle c then pure (single c cs) else pure (word l previous c cs)

/-- How far a text has been scanned. -/
structure Progress where
  /-- The offset where the last step began, or where the blanks that it skipped end. -/
  start : Nat
  position : Nat
  rest : List Char
  /-- The tokens so far, last first. -/
  tokens : List Token

namespace Progress

def previousRole (p : Progress) : Option TokenRole := p.tokens.head?.map (·.role)

/-- Goes on to a later part of the text. -/
def moveTo (p : Progress) (rest : List Char) : Progress :=
  { p with position := p.position + (p.rest.length - rest.length), rest := rest }

def push (p : Progress) (kind : LexemeKind) (role : TokenRole) (text : List Char) : Progress :=
  { p with tokens := ⟨kind, role, text, p.start, p.position - 1⟩ :: p.tokens }

/-- Whether the last token opens a command: a command word at the start of the text or after an
opener, unless the statement ends right after it. -/
def opensCommand (p : Progress) : Bool :=
  p.rest.head? ≠ some ';' &&
    match p.tokens with
    | [t] => t.role = .command
    | t :: before :: _ => t.role = .command && before.role = .commandOpener
    | [] => false

/-- Replaces what has been scanned since a command by one string. -/
def closeCommand (command inner : Progress) : Progress :=
  let body := Text.trim (textBefore command.rest inner.rest)
  let closed := { inner with tokens := command.tokens }
  if body = [] then closed else closed.push .string .plain body

end Progress

/-- Reads one token, or skips blanks or a comment. -/
def step (l : Lexicon) (p : Progress) : Except (List Char) (Option BareToken × Progress) :=
  let later := p.rest.dropWhile fun c => c = ' ' || c = '\t'
  if later.length < p.rest.length then
    let moved := p.moveTo later
    pure (none, { moved with start := moved.position })
  else match p.rest with
    | [] => pure (none, p)
    | c :: cs =>
      let p := { p with start := p.position }
      if Text.isBlank c then pure (none, p.moveTo cs)
      else do
        let reading ← readToken l p.previousRole c cs
        pure (reading.token, p.moveTo reading.rest)

/-- Scans on to the end of the text, or to the next semicolon. -/
def scan (l : Lexicon) : (fuel : Nat) → (toSemicolon : Bool) → Progress →
    Except (List Char) Progress
  | 0, _, p => pure p
  | fuel + 1, toSemicolon, p =>
    if p.rest.isEmpty then pure p
    else do
      let (token, p) ← step l p
      let p ← match token with
        | none => pure p
        | some (kind, role, text) => do
          let p := p.push kind role text
          if p.opensCommand then
            let inner ← scan l fuel true p
            pure (p.closeCommand inner)
          else pure p
      if toSemicolon && p.rest.head? = some ';' then pure p else scan l fuel toSemicolon p

/-- The text around the place where scanning stopped with `left` characters left. -/
def errorContext (text left : List Char) : List Char :=
  let position := text.length - left.length + 1
  let first := position - 50
  let last := min (position + 50) (text.length - 1)
  (text.drop first).take (last - first)

/-- The tokens of a text, or the error that makes it unreadable. -/
def tokens (l : Lexicon) (text : List Char) : Except LexicalError (List Token) :=
  match scan l (text.length + 1) false ⟨0, 0, text, []⟩ with
  | .ok p => .ok p.tokens.reverse
  | .error left => .error ⟨errorContext text left⟩

end Lexer

end Schemata
