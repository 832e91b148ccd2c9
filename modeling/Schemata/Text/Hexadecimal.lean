/-!
# Hexadecimal digits

Numbers written with a fixed count of digits in base sixteen.
-/
namespace Schemata.Text

def hexDigit (n : Nat) : Char := Nat.digitChar (n % 16)

/-- The last digits of a number, in small letters. -/
def hexDigits (count n : Nat) : List Char :=
  (List.range count).reverse.map fun i => hexDigit (n >>> (4 * i))

@[simp] theorem length_hexDigits (count n : Nat) : (hexDigits count n).length = count := by
  simp [hexDigits]

end Schemata.Text
