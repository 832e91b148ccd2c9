import Schemata.Text.Alphabet.Ranges

/-!
# Letters and digits

Membership in the alphanumeric classes of Unicode. ASCII characters are decided by comparison, all
others by the tables.
-/
namespace Schemata.Text

/-- Whether a code point lies in one of the closed ranges. -/
def inRanges (ranges : List (Nat × Nat)) (n : Nat) : Bool :=
  ranges.any fun (first, last) => first ≤ n && n ≤ last

def isAscii (c : Char) : Bool := c.toNat < 0x80

def isAlphanumeric (c : Char) : Bool :=
  if isAscii c then c.isAlphanum else inRanges alphanumericRanges c.toNat

/-- Characters of a word in the sense of a word boundary: alphanumeric or an underscore. -/
def isWordChar (c : Char) : Bool := c == '_' || isAlphanumeric c

/-- Characters that can open an identifier. -/
def opensIdentifier (c : Char) : Bool :=
  if isAscii c then c == '_' || c.isAlpha
  else
    let n := c.toNat
    (isAlphanumeric c && !inRanges nonInitialRanges n) ||
      n == 0x1885 || n == 0x1886 || n == 0x2118 || n == 0x212E

/-- The value of a decimal digit of any script. -/
def decimalDigit? (c : Char) : Option Nat :=
  if isAscii c then if c.isDigit then some (c.toNat - 0x30) else none
  else
    (decimalZeros.find? fun z => z ≤ c.toNat && c.toNat ≤ z + 9).map (c.toNat - ·)

/-- Decimal digits and the other digit symbols. -/
def isDigitSymbol (c : Char) : Bool :=
  (decimalDigit? c).isSome || (!isAscii c && inRanges digitSymbolRanges c.toNat)

/-- The value of a hexadecimal digit of either case. -/
def hexDigit? (c : Char) : Option Nat :=
  let n := c.toNat
  if c.isDigit then some (n - 0x30)
  else if 'a' ≤ c && c ≤ 'f' then some (n - 0x61 + 10)
  else if 'A' ≤ c && c ≤ 'F' then some (n - 0x41 + 10)
  else none

/-- The value of a digit below a base of at most sixteen. -/
def digitBelow? (base : Nat) (c : Char) : Option Nat := (hexDigit? c).filter (· < base)

theorem isAscii_of_isAlphanum {c : Char} (h : c.isAlphanum = true) : isAscii c = true := by
  have hn : c.toNat = c.val.toNat := rfl
  have hz : 'Z'.val.toNat = 90 ∧ 'z'.val.toNat = 122 ∧ '9'.val.toNat = 57 := by decide
  have h : (decide ('A'.val ≤ c.val ∧ c.val ≤ 'Z'.val) ||
      (decide ('a'.val ≤ c.val) && decide (c.val ≤ 'z'.val)) ||
      (decide ('0'.val ≤ c.val) && decide (c.val ≤ '9'.val))) = true := h
  simp only [Bool.or_eq_true, Bool.and_eq_true, decide_eq_true_eq, UInt32.le_iff_toNat_le] at h
  simp only [isAscii, hn, decide_eq_true_eq]
  omega

theorem isAlphanumeric_of_isAlphanum {c : Char} (h : c.isAlphanum = true) :
    isAlphanumeric c = true := by
  simp [isAlphanumeric, isAscii_of_isAlphanum h, h]

end Schemata.Text
