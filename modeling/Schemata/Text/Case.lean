import Schemata.Text.Alphabet
import Schemata.Text.Case.Ranges

/-!
# Upper and lower case

Full case conversion: one character may become several, and a capital sigma becomes a final sigma
at the end of a word.
-/
namespace Schemata.Text

/-- The image under the first shift that holds the character, or the character itself. -/
def shiftCase (shifts : List CaseShift) (c : Char) : Char :=
  match shifts.findSome? (·.mapped? c.toNat) with
  | some n => Char.ofNat n
  | none => c

def asciiUpper (c : Char) : Char :=
  if 'a' ≤ c && c ≤ 'z' then Char.ofNat (c.toNat - 0x20) else c

def asciiLower (c : Char) : Char :=
  if 'A' ≤ c && c ≤ 'Z' then Char.ofNat (c.toNat + 0x20) else c

def upperChar (c : Char) : List Char :=
  if isAscii c then [asciiUpper c]
  else match upperExpansions.lookup c.toNat with
    | some ns => ns.map Char.ofNat
    | none => [shiftCase upperShifts c]

def upper (cs : List Char) : List Char := cs.flatMap upperChar

def isCased (c : Char) : Bool :=
  if isAscii c then c.isAlpha else inRanges casedRanges c.toNat

def isCaseIgnorable (c : Char) : Bool := inRanges caseIgnorableRanges c.toNat

/-- Whether the nearest character that is not passed over is cased. -/
def nextIsCased (cs : List Char) : Bool :=
  ((cs.dropWhile isCaseIgnorable).head?.map isCased).getD false

/-- The lower case of a character between the characters before it, nearest first, and those
after it. -/
def lowerCharBetween (before : List Char) (c : Char) (after : List Char) : List Char :=
  if isAscii c then [asciiLower c]
  else if c = 'Σ' then
    if nextIsCased before && !nextIsCased after then ['ς'] else ['σ']
  else if c = 'İ' then ['i', '\u0307']
  else [shiftCase lowerShifts c]

def lowerAfter (before : List Char) : List Char → List Char
  | [] => []
  | c :: cs => lowerCharBetween before c cs ++ lowerAfter (c :: before) cs

def lower (cs : List Char) : List Char := lowerAfter [] cs

def upperCase (s : String) : String := String.ofList (upper s.toList)

def lowerCase (s : String) : String := String.ofList (lower s.toList)

@[simp] theorem upper_nil : upper [] = [] := rfl

@[simp] theorem upper_append (as bs : List Char) : upper (as ++ bs) = upper as ++ upper bs := by
  simp [upper]

end Schemata.Text
