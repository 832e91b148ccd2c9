/-!
# Openings and endings

Taking a given opening off the front of a text, or a given ending off its back.
-/
namespace Schemata.Text

/-- The rest of a text after a given opening, if it begins with it. -/
def after? : List Char → List Char → Option (List Char)
  | [], cs => some cs
  | _ :: _, [] => none
  | o :: os, c :: cs => if o = c then after? os cs else none

theorem after?_eq_some_iff {opening cs rest : List Char} :
    after? opening cs = some rest ↔ cs = opening ++ rest := by
  induction opening generalizing cs with
  | nil => simp [after?, eq_comm]
  | cons o os ih =>
    cases cs with
    | nil => simp [after?]
    | cons c cs =>
      by_cases h : o = c
      · simp [after?, h, ih]
      · simp [after?, h, Ne.symm h]

theorem after?_suffix {opening cs rest : List Char} (h : after? opening cs = some rest) :
    rest <:+ cs := ⟨opening, (after?_eq_some_iff.1 h).symm⟩

/-- The part of a text before a given ending, if it ends so. -/
def before? (ending cs : List Char) : Option (List Char) :=
  (after? ending.reverse cs.reverse).map List.reverse

theorem before?_eq_some_iff {ending cs opening : List Char} :
    before? ending cs = some opening ↔ cs = opening ++ ending := by
  simp only [before?, Option.map_eq_some_iff, after?_eq_some_iff]
  constructor
  · rintro ⟨a, h, rfl⟩
    simpa using congrArg List.reverse h
  · rintro rfl
    exact ⟨opening.reverse, by simp, by simp⟩

def startsWith (opening cs : List Char) : Bool := (after? opening cs).isSome

end Schemata.Text
