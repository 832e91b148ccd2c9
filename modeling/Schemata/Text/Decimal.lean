import Schemata.Text.Alphabet

/-!
# Whole numbers in decimal digits

A whole number is written with decimal digits of any script. There is a limit to how many digits it
may have.
-/
namespace Schemata.Text

/-- The most digits that a whole number may have, zeros in front included. -/
def maxDigits : Nat := 4300

/-- A whole number with more digits than it may have. -/
structure LongNumber where
  digits : Nat
deriving DecidableEq

namespace LongNumber

def message (n : LongNumber) : String :=
  "Exceeds the limit (" ++ toString maxDigits ++ " digits) for integer string conversion: " ++
    "value has " ++ toString n.digits ++ " digits; " ++
    "use sys.set_int_max_str_digits() to increase the limit"

/-- What a number with these digits is refused for. -/
def ofDigits? (digits : List Char) : Option LongNumber :=
  if digits.length ≤ maxDigits then none else some ⟨digits.length⟩

theorem ofDigits?_eq_some_iff {digits : List Char} {n : LongNumber} :
    ofDigits? digits = some n ↔ maxDigits < digits.length ∧ n.digits = digits.length := by
  unfold ofDigits?
  by_cases h : digits.length ≤ maxDigits
  · simp [h, Nat.not_lt.2 h]
  · cases n
    simp [h, Nat.not_le.1 h, eq_comm]

/-- A value, unless a number that it needs is too long. -/
def refuse {α : Type} (found : Option LongNumber) (value : α) : Except LongNumber α :=
  match found with
  | some n => .error n
  | none => .ok value

@[simp] theorem refuse_none {α : Type} (value : α) : refuse none value = .ok value := rfl

end LongNumber

/-- The value of decimal digits. -/
def decimalValue (digits : List Char) : Nat :=
  digits.foldl (fun n c => 10 * n + (decimalDigit? c).getD 0) 0

end Schemata.Text
