import Schemata.Lexer.Escape
import Schemata.Lexer.Lexicon

/-!
# Quoted text

Reading up to a closing delimiter. An escape character before the delimiter, or before another
escape character, keeps both from having their own meaning.
-/
namespace Schemata.Lexer

/-- How one quoted text is read. -/
structure Quoting where
  delimiter : List Char
  escapes : List Char
  /-- Raw text keeps its escapes as they are. -/
  raw : Bool := false
  /-- Whether the end of the text closes it as well. -/
  openEnded : Bool := false

namespace Quoting

/-- Whether a character after an escape is the delimiter or begins it. -/
def escapesDelimiter (q : Quoting) (l : Lexicon) (next : Char) : Bool :=
  match q.delimiter with
  | [d] => next = d
  | d :: _ :: _ => next = d && next ∈ l.quotes
  | [] => false

/-- Whether a character with the one after it is read as an escape. -/
def isEscape (q : Quoting) (l : Lexicon) (c next : Char) : Bool :=
  c ∈ q.escapes && (q.escapesDelimiter l next || next ∈ q.escapes) &&
    (c ∉ l.quotes || c = next)

/-- The text of an escape. -/
def escapeText (q : Quoting) (l : Lexicon) (c next : Char) : List Char :=
  if q.escapesDelimiter l next && !q.raw then [next] else [c, next]

/-- The text that a backslash and what follows it stand for, with the rest. The last character of
the whole text is never part of it. -/
def backslashEscape? (q : Quoting) (l : Lexicon) : List Char → Option (List Char × List Char)
  | [] => none
  | c :: cs =>
    if q.raw || '\\' ∉ q.escapes then none
    else
      let numeric := if l.numericEscapes then numericEscape? (c :: cs) else none
      match numeric with
      | some (decoded, rest) => some ([decoded], rest)
      | none =>
        if cs.isEmpty then none
        else match l.fixedEscapes.lookup c with
          | some text => some (text, cs)
          | none => if l.dropsUnknownEscapes then some ([c], cs) else none

theorem backslashEscape?_suffix {q : Quoting} {l : Lexicon} {cs piece after : List Char}
    (h : q.backslashEscape? l cs = some (piece, after)) : after <:+ cs := by
  unfold backslashEscape? at h
  split at h
  · cases h
  · split at h
    · cases h
    · dsimp only at h
      split at h
      · next hn =>
        obtain ⟨-, rfl⟩ := Prod.mk.inj (Option.some.inj h)
        split at hn
        · exact numericEscape?_suffix hn
        · cases hn
      · split at h
        · cases h
        · split at h
          · obtain ⟨-, rfl⟩ := Prod.mk.inj (Option.some.inj h)
            exact List.suffix_cons ..
          · split at h
            · obtain ⟨-, rfl⟩ := Prod.mk.inj (Option.some.inj h)
              exact List.suffix_cons ..
            · cases h

/-- The backslash escape at the front of a text that has a backslash as its first character. -/
def escapeAt? (q : Quoting) (l : Lexicon) (c : Char) (rest : List Char) :
    Option (List Char × List Char) :=
  if c = '\\' then q.backslashEscape? l rest else none

theorem escapeAt?_length {q : Quoting} {l : Lexicon} {c : Char} {rest piece after : List Char}
    (h : q.escapeAt? l c rest = some (piece, after)) : after.length < rest.length + 1 := by
  unfold escapeAt? at h
  split at h
  · exact Nat.lt_succ_of_le (backslashEscape?_suffix h).length_le
  · cases h

end Quoting

/-- A quoted text with what follows its closing delimiter. -/
abbrev QuotedText := List Char × List Char

/-- Reads quoted text from its first character on. A failure carries the text that is left where
reading stopped. -/
def quotedText (l : Lexicon) (q : Quoting) (text : List Char) (cs : List Char) :
    Except (List Char) QuotedText :=
  match cs with
  | [] => .error []
  | c :: rest =>
    match _h : q.escapeAt? l c rest with
    | some (piece, after) => quotedText l q (text ++ piece) after
    | none =>
      match rest with
      | [] =>
        if q.delimiter = [c] then .ok (text, [])
        else if q.openEnded then .ok (text ++ [c], []) else .error [c]
      | next :: after =>
        if q.isEscape l c next then
          if after.isEmpty then .error (c :: next :: after)
          else quotedText l q (text ++ q.escapeText l c next) after
        else match Text.after? q.delimiter (c :: next :: after) with
          | some after => .ok (text, after)
          | none => quotedText l q (text ++ [c]) (next :: after)
termination_by cs.length
decreasing_by
  · exact Quoting.escapeAt?_length _h
  · simp only [List.length_cons]; omega
  · simp only [List.length_cons]; omega

end Schemata.Lexer
