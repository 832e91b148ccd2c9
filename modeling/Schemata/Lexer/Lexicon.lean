import Schemata.Dialect.Basic
import Schemata.Text.Affix
import Schemata.Text.Numeral

/-!
# Lexical rules of the dialects

A lexicon says which characters stand alone, how strings, names and comments are delimited, and
which words take part in the reading of tokens.
-/
namespace Schemata

/-- How the text of a marked string is read. -/
inductive StringForm where
  | plain
  /-- Backslash escapes are allowed. -/
  | escaped
  /-- The text is an integer in a base. -/
  | numeral (base : Text.NumeralBase)
  /-- The string ends at a repetition of its opening tag. -/
  | tagged
deriving DecidableEq

structure Lexicon where
  /-- Keywords with blanks or symbols in them, in capitals. -/
  keywords : List String
  /-- Words at the head of a statement whose rest is kept as one string. -/
  commands : List String
  /-- Words that a command may follow, beside the semicolon. -/
  commandOpeners : List String
  /-- Words after which a comment that opens with a plus sign is a hint. -/
  hintHosts : List String
  /-- Quotes of plain strings. -/
  quotes : List Char
  /-- Openings of other strings; the last character of an opening closes the string. -/
  markedStrings : List (String × StringForm)
  /-- Opening and closing quotes of names. -/
  nameQuotes : List (Char × Char)
  lineComments : List String
  /-- Openings of block comments, each with the two characters that close it. -/
  blockComments : List (String × Char × Char)
  nestedComments : Bool
  /-- Whether two hyphens need a blank after them to open a comment. -/
  dashNeedsBlank : Bool
  /-- Whether a carriage return ends a line comment. -/
  returnEndsComment : Bool
  stringEscapes : List Char
  escapedStringEscapes : List Char
  /-- The texts of backslash escapes by the character after the backslash. -/
  fixedEscapes : List (Char × List Char)
  numericEscapes : Bool
  /-- Whether the backslash of an unknown escape is dropped. -/
  dropsUnknownEscapes : Bool
  /-- Whether `0b` opens a binary literal. -/
  binaryLiterals : Bool
  /-- Whether a name may open with a digit. -/
  digitsOpenNames : Bool
  /-- Characters that stand alone. -/
  singles : List Char
  /-- Characters that stand alone, except inside a word. -/
  wordSingles : List Char

namespace Lexicon

def isSingle (l : Lexicon) (c : Char) : Bool := c ∈ l.singles

/-- Characters that end a word. -/
def endsWord (l : Lexicon) (c : Char) : Bool :=
  Text.isBlank c || (l.isSingle c && c ∉ l.wordSingles)

/-- The openings that are searched before a word is read, in capitals. -/
def openings (l : Lexicon) : List (List Char) :=
  (l.keywords.map (·.toList)) ++
  ((l.lineComments ++ l.blockComments.map (·.1) ++ l.quotes.map String.singleton ++
      l.markedStrings.map (·.1)).map fun s => s.toList.map Text.asciiUpper)

def commonSingles : List Char := "()[]\x7b\x7d&^:,.-=><%!|+;/\\*~?@#'`\"".toList

/-- Keywords of all dialects. -/
def commonKeywords : List String :=
  ["!=", "#>", "#>>", "%\x7d", "&&", "&<", "&>", "+%\x7d", "+\x7d\x7d", "-%\x7d", "->", "->>",
   "-|-", "-\x7d\x7d", "::", ":=", "<->", "<<->>", "<=", "<=>", "<>", "==", "=>", ">=", "?::",
   "??", "CHAR VARYING", "CHARACTER VARYING", "CLUSTER BY", "CONNECT BY", "DISTRIBUTE BY",
   "DOUBLE PRECISION", "FOREIGN KEY", "GROUP BY", "GROUPING SETS", "ORDER BY", "PARTITION BY",
   "PARTITIONED BY", "PRIMARY KEY", "SIMILAR TO", "SORT BY", "SQL SECURITY", "USER-DEFINED",
   "\x7b%", "\x7b%+", "\x7b%-", "\x7b\x7b+", "\x7b\x7b-", "|>", "||", "~*", "~~", "~~*", "~~~"]

def postgresql : Lexicon where
  keywords := commonKeywords ++ ["#-", "<@", "?&", "?|", "@>", "@?", "@@", "^@", "|/", "||/", "~"]
  commands :=
    ["CALL", "DECLARE", "DO", "EXEC", "EXECUTE", "EXPLAIN", "FETCH", "LOCK", "OPTIMIZE", "PREPARE",
     "REFRESH", "REINDEX", "RENAME", "RESET", "SHOW", "VACUUM"]
  commandOpeners := ["BEGIN"]
  hintHosts := []
  quotes := ['\'']
  markedStrings :=
    [("n'", .plain), ("N'", .plain), ("b'", .numeral .binary), ("B'", .numeral .binary),
     ("e'", .escaped), ("E'", .escaped), ("x'", .numeral .hexadecimal),
     ("X'", .numeral .hexadecimal), ("$", .tagged), ("U&'", .plain), ("u&'", .plain)]
  nameQuotes := [('"', '"')]
  lineComments := ["--"]
  blockComments := [("/*", '*', '/'), ("\x7b#", '#', '\x7d')]
  nestedComments := true
  dashNeedsBlank := false
  returnEndsComment := true
  stringEscapes := ['\'']
  escapedStringEscapes := ['\'', '\\']
  fixedEscapes :=
    [('a', ['a']), ('b', ['\x08']), ('f', ['\x0c']), ('n', ['\n']), ('r', ['\r']), ('t', ['\t']),
     ('v', ['\x0b']), ('\\', ['\\'])]
  numericEscapes := true
  dropsUnknownEscapes := true
  binaryLiterals := true
  digitsOpenNames := false
  singles := commonSingles ++ ['$']
  wordSingles := ['$']

def mysql : Lexicon where
  keywords :=
    commonKeywords ++ ["/*+", "@@", "LOCK TABLES", "MEMBER OF", "SIGNED INTEGER", "UNLOCK TABLES",
      "UNSIGNED INTEGER"]
  commands :=
    ["CALL", "EXECUTE", "FETCH", "LOCK TABLES", "OPTIMIZE", "PREPARE", "RENAME", "REPLACE",
     "UNLOCK TABLES", "VACUUM"]
  commandOpeners := ["BEGIN", "START"]
  hintHosts := ["SELECT", "INSERT", "UPDATE", "DELETE"]
  quotes := ['\'', '"']
  markedStrings :=
    [("n'", .plain), ("N'", .plain), ("n\"", .plain), ("N\"", .plain), ("b'", .numeral .binary),
     ("B'", .numeral .binary), ("x'", .numeral .hexadecimal), ("X'", .numeral .hexadecimal)]
  nameQuotes := [('`', '`')]
  lineComments := ["--", "#"]
  blockComments := [("/*", '*', '/'), ("\x7b#", '#', '\x7d'), ("/*+", '*', '/')]
  nestedComments := false
  dashNeedsBlank := true
  returnEndsComment := false
  stringEscapes := ['\'', '"', '\\']
  escapedStringEscapes := ['\'', '"', '\\']
  fixedEscapes :=
    [('a', ['a']), ('b', ['\x08']), ('f', ['f']), ('n', ['\n']), ('r', ['\r']), ('t', ['\t']),
     ('v', ['v']), ('\\', ['\\']), ('0', ['\x00']), ('Z', ['\x1a']), ('%', ['\\', '%']),
     ('_', ['\\', '_'])]
  numericEscapes := false
  dropsUnknownEscapes := true
  binaryLiterals := true
  digitsOpenNames := true
  singles := commonSingles
  wordSingles := []

def sqlite : Lexicon where
  keywords := commonKeywords ++ ["INDEXED BY"]
  commands :=
    ["CALL", "EXECUTE", "EXPLAIN", "FETCH", "OPTIMIZE", "PREPARE", "RENAME", "REPLACE", "SHOW",
     "VACUUM"]
  commandOpeners := ["BEGIN"]
  hintHosts := []
  quotes := ['\'']
  markedStrings :=
    [("n'", .plain), ("N'", .plain), ("x'", .numeral .hexadecimal), ("X'", .numeral .hexadecimal)]
  nameQuotes := [('"', '"'), ('[', ']'), ('`', '`')]
  lineComments := ["--"]
  blockComments := [("/*", '*', '/'), ("\x7b#", '#', '\x7d')]
  nestedComments := false
  dashNeedsBlank := false
  returnEndsComment := false
  stringEscapes := ['\'']
  escapedStringEscapes := ['\'']
  fixedEscapes := []
  numericEscapes := false
  dropsUnknownEscapes := false
  binaryLiterals := false
  digitsOpenNames := false
  singles := commonSingles
  wordSingles := []

end Lexicon

def Dialect.lexicon : Dialect → Lexicon
  | .postgresql => .postgresql
  | .mysql => .mysql
  | .sqlite => .sqlite

end Schemata
