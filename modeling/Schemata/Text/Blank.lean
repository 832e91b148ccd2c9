/-!
# Blanks, words and lines

Text is a list of characters here. A blank is a white-space character of Unicode or one of the
four information separators U+001C to U+001F; a word is a longest run free of blanks.
-/
namespace Schemata.Text

def isBlank (c : Char) : Bool :=
  let n := c.toNat
  (0x09 ≤ n && n ≤ 0x0D) || (0x1C ≤ n && n ≤ 0x20) || n == 0x85 || n == 0xA0 || n == 0x1680 ||
  (0x2000 ≤ n && n ≤ 0x200A) || n == 0x2028 || n == 0x2029 || n == 0x202F || n == 0x205F ||
  n == 0x3000

/-- The characters that end a line. -/
def isLineBreak (c : Char) : Bool :=
  let n := c.toNat
  (0x0A ≤ n && n ≤ 0x0D) || (0x1C ≤ n && n ≤ 0x1E) || n == 0x85 || n == 0x2028 || n == 0x2029

theorem isBlank_of_isWhitespace {c : Char} (h : c.isWhitespace = true) : isBlank c = true := by
  simp only [Char.isWhitespace, Bool.or_eq_true, decide_eq_true_eq] at h
  rcases h with ((rfl | rfl) | rfl) | rfl <;> rfl

/-- Text without its final characters that satisfy `p`. -/
def dropEndWhile (p : Char → Bool) (cs : List Char) : List Char :=
  (cs.reverse.dropWhile p).reverse

/-- Text without the characters at both ends that satisfy `p`. -/
def trimWhile (p : Char → Bool) (cs : List Char) : List Char :=
  dropEndWhile p (cs.dropWhile p)

/-- Text without the blanks at both ends. -/
def trim (cs : List Char) : List Char := trimWhile isBlank cs

/-- The pieces between the characters that satisfy `p`, empty ones included. -/
def pieces (p : Char → Bool) : List Char → List (List Char)
  | [] => [[]]
  | c :: cs =>
    if p c then [] :: pieces p cs
    else match pieces p cs with
      | [] => [[c]]
      | w :: ws => (c :: w) :: ws

theorem pieces_ne_nil (p : Char → Bool) (cs : List Char) : pieces p cs ≠ [] := by
  induction cs with
  | nil => simp [pieces]
  | cons c cs ih =>
    simp only [pieces]
    split
    · simp
    · split <;> simp

def words (cs : List Char) : List (List Char) :=
  (pieces isBlank cs).filter (· ≠ [])

theorem ne_nil_of_mem_words {w cs : List Char} (h : w ∈ words cs) : w ≠ [] := by
  simpa using (List.mem_filter.1 h).2

/-- The text up to its first line break. -/
def firstLine (cs : List Char) : List Char := cs.takeWhile (!isLineBreak ·)

/-- Whether text holds nothing but blanks. -/
def isBlankText (cs : List Char) : Bool := cs.all isBlank

/-- A string without the blanks at both ends. -/
def trimmed (s : String) : String := String.ofList (trim s.toList)

end Schemata.Text
