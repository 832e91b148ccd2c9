import Schemata.Json.Basic
import Schemata.Text.Affix
import Schemata.Text.Decimal

/-!
# Reading JSON

A reader takes a value off the front of a text and returns it with the text that follows, or
nothing where the text is no JSON. Beside the standard numbers, `NaN` and the two infinities are
read.
-/
namespace Schemata.Json

def isSpace (c : Char) : Bool := c == ' ' || c == '\t' || c == '\n' || c == '\r'

def skipSpace (cs : List Char) : List Char := cs.dropWhile isSpace

/-! ## Strings -/

def hexValue? (digits : List Char) : Option Nat :=
  digits.foldlM (fun n c => (Text.hexDigit? c).map (16 * n + ·)) 0

def escapedChar? : Char → Option Char
  | '"' => some '"'
  | '\\' => some '\\'
  | '/' => some '/'
  | 'b' => some '\x08'
  | 'f' => some '\x0c'
  | 'n' => some '\n'
  | 'r' => some '\r'
  | 't' => some '\t'
  | _ => none

/-- The code points of a string whose opening quote has been read, surrogates left single. -/
def codePoints? : List Char → Option (List Nat × List Char)
  | [] => none
  | '"' :: cs => some ([], cs)
  | '\\' :: 'u' :: a :: b :: c :: d :: cs => do
    let n ← hexValue? [a, b, c, d]
    let (ns, rest) ← codePoints? cs
    pure (n :: ns, rest)
  | '\\' :: e :: cs => do
    let c ← escapedChar? e
    let (ns, rest) ← codePoints? cs
    pure (c.toNat :: ns, rest)
  | c :: cs =>
    if c.toNat < 0x20 || c = '\\' then none
    else do
      let (ns, rest) ← codePoints? cs
      pure (c.toNat :: ns, rest)

def isHighSurrogate (n : Nat) : Bool := 0xD800 ≤ n && n ≤ 0xDBFF

def isLowSurrogate (n : Nat) : Bool := 0xDC00 ≤ n && n ≤ 0xDFFF

/-- Joins surrogate pairs; a surrogate without its partner stands for no text. -/
def joinSurrogates? : List Nat → Option (List Char)
  | [] => some []
  | [n] => if isHighSurrogate n || isLowSurrogate n then none else some [Char.ofNat n]
  | n :: m :: ns =>
    if isHighSurrogate n then
      if isLowSurrogate m then
        (joinSurrogates? ns).map
          (Char.ofNat (0x10000 + (n - 0xD800) * 0x400 + (m - 0xDC00)) :: ·)
      else none
    else if isLowSurrogate n then none
    else (joinSurrogates? (m :: ns)).map (Char.ofNat n :: ·)

/-- A string whose opening quote has been read; `none` inside stands for broken text. -/
def readString? (cs : List Char) : Option (Option String × List Char) := do
  let (ns, rest) ← codePoints? cs
  pure ((joinSurrogates? ns).map String.ofList, rest)

/-! ## Numbers -/

def digitValue (c : Char) : Nat := c.toNat - 0x30

def digitsValue (digits : List Char) : Nat := digits.foldl (10 * · + digitValue ·) 0

/-- The digits of the whole part: a zero alone, or digits that do not begin with zero. -/
def wholeDigits : List Char → List Char
  | '0' :: _ => ['0']
  | cs => cs.takeWhile Char.isDigit

/-- The digits after a point, if a point and a digit follow. -/
def fractionDigits : List Char → List Char
  | '.' :: cs => cs.takeWhile Char.isDigit
  | _ => []

/-- An exponent with its text, if a mark, an optional sign and a digit follow. -/
def exponent? (cs : List Char) : Option (Int × List Char) :=
  match cs with
  | mark :: cs =>
    if mark = 'e' || mark = 'E' then
      let (negative, cs) := match cs with
        | '-' :: cs => (true, cs)
        | '+' :: cs => (false, cs)
        | cs => (false, cs)
      let digits := cs.takeWhile Char.isDigit
      if digits.isEmpty then none
      else
        let n : Int := digitsValue digits
        some (if negative then -n else n, cs.drop digits.length)
    else none
  | [] => none

/-- A number whose sign has been read. A whole number may not have too many digits. -/
def readNumber? (negative : Bool) (cs : List Char) : Option (Json × List Char) :=
  let whole := wholeDigits cs
  if whole.isEmpty then none
  else
    let rest := cs.drop whole.length
    let fraction := fractionDigits rest
    let rest := if fraction.isEmpty then rest else rest.drop (fraction.length + 1)
    match exponent? rest with
    | some (e, rest) =>
      some (.decimal negative (digitsValue (whole ++ fraction)) (e - fraction.length), rest)
    | none =>
      if fraction.isEmpty then
        if whole.length ≤ Text.maxDigits then
          let n : Int := digitsValue whole
          some (.integer (if negative then -n else n), rest)
        else none
      else some (.decimal negative (digitsValue (whole ++ fraction)) (-fraction.length), rest)

/-! ## Values -/

def words : List (List Char × Json) :=
  [("null".toList, .null), ("true".toList, .bool true), ("false".toList, .bool false),
   ("NaN".toList, .nonFinite), ("Infinity".toList, .nonFinite), ("-Infinity".toList, .nonFinite)]

def readWord? (cs : List Char) : Option (Json × List Char) :=
  words.findSome? fun (word, value) => (Text.after? word cs).map (value, ·)

/-- Adds a member, unless its name is broken text. -/
def consMember (name : Option String) (value : Json) (members : List (String × Json)) :
    List (String × Json) :=
  match name with
  | some name => (name, value) :: members
  | none => members

mutual

/-- A value at the front of a text; nesting is followed as deep as the text is long. -/
def readValue? : Nat → List Char → Option (Json × List Char)
  | 0, _ => none
  | _ + 1, [] => none
  | _ + 1, '"' :: cs => do
    let (s, rest) ← readString? cs
    pure ((s.map .string).getD .brokenString, rest)
  | fuel + 1, '[' :: cs =>
    match skipSpace cs with
    | ']' :: rest => some (.array [], rest)
    | cs => do
      let (items, rest) ← readItems? fuel cs
      pure (.array items, rest)
  | fuel + 1, '{' :: cs =>
    match skipSpace cs with
    | '}' :: rest => some (.object [], rest)
    | cs => do
      let (members, rest) ← readMembers? fuel cs
      pure (.object members, rest)
  | _ + 1, cs =>
    match readWord? cs, cs with
    | some found, _ => some found
    | none, '-' :: cs => readNumber? true cs
    | none, cs => readNumber? false cs

/-- The items of an array from the first one on, with the closing bracket. -/
def readItems? : Nat → List Char → Option (List Json × List Char)
  | 0, _ => none
  | fuel + 1, cs => do
    let (item, rest) ← readValue? fuel cs
    match skipSpace rest with
    | ']' :: rest => pure ([item], rest)
    | ',' :: rest => do
      let (items, rest) ← readItems? fuel (skipSpace rest)
      pure (item :: items, rest)
    | _ => none

/-- The members of an object from the first one on, with the closing brace. -/
def readMembers? : Nat → List Char → Option (List (String × Json) × List Char)
  | 0, _ => none
  | fuel + 1, cs =>
    match cs with
    | '"' :: cs => do
      let (name, rest) ← readString? cs
      match skipSpace rest with
      | ':' :: rest => do
        let (value, rest) ← readValue? fuel (skipSpace rest)
        match skipSpace rest with
        | '}' :: rest => pure (consMember name value [], rest)
        | ',' :: rest => do
          let (members, rest) ← readMembers? fuel (skipSpace rest)
          pure (consMember name value members, rest)
        | _ => none
      | _ => none
    | _ => none

end

/-- The value that a whole text stands for. -/
def read? (text : String) : Option Json := do
  let cs := skipSpace text.toList
  let (value, rest) ← readValue? (cs.length + 1) cs
  if (skipSpace rest).isEmpty then pure value else none

end Schemata.Json
