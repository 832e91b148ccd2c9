/-!
# Inputs

Inputs are bytes that hold text in UTF-8. All line breaks are read as line feeds, and what the
standard input holds can be read once.
-/
namespace Schemata.CommandLine

/-- The name of the standard input. -/
def standardInput : String := "-"

/-- What there is to read: the standard input, and files by name. -/
structure Inputs where
  standard : ByteArray
  file : String → Option ByteArray

/-- Text with a line feed for every carriage return, and for every pair of the two. -/
def unifyLineBreaks : List Char → List Char
  | [] => []
  | '\r' :: '\n' :: cs => '\n' :: unifyLineBreaks cs
  | '\r' :: cs => '\n' :: unifyLineBreaks cs
  | c :: cs => c :: unifyLineBreaks cs

/-- The text that bytes hold. -/
def decode? (bytes : ByteArray) : Option String :=
  (String.fromUTF8? bytes).map fun text => String.ofList (unifyLineBreaks text.toList)

theorem unifyLineBreaks_eq_self {cs : List Char} (h : '\r' ∉ cs) : unifyLineBreaks cs = cs := by
  fun_induction unifyLineBreaks cs <;> simp_all

/-- Reads an input; what is left has no standard input if that was read. -/
def Inputs.read? (i : Inputs) (name : String) : Option (String × Inputs) :=
  if name = standardInput then (decode? i.standard).map (·, { i with standard := .empty })
  else ((i.file name).bind decode?).map (·, i)

end Schemata.CommandLine
