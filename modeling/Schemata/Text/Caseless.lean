import Schemata.Text.Blank
import Schemata.Text.Case

/-!
# Keywords without regard to case

Searching for a keyword compares folded characters: beside the two ASCII cases, the long s, the
Kelvin sign and the two Turkish i match the letters that they are variants of.
-/
namespace Schemata.Text

/-- The small letter that a character stands for when case is ignored. -/
def foldLetter (c : Char) : Char :=
  if isAscii c then asciiLower c
  else if c = 'ſ' then 's'
  else if c = '\u212A' then 'k'
  else if c = 'İ' || c = 'ı' then 'i'
  else c

/-- The rest of a text after a keyword, which is given in small letters. -/
def afterKeyword? (keyword cs : List Char) : Option (List Char) :=
  match keyword, cs with
  | [], cs => some cs
  | _ :: _, [] => none
  | k :: ks, c :: cs => if foldLetter c = k then afterKeyword? ks cs else none

theorem afterKeyword?_eq_some_iff {keyword cs rest : List Char} :
    afterKeyword? keyword cs = some rest ↔
      ∃ opening, cs = opening ++ rest ∧ opening.map foldLetter = keyword := by
  induction keyword generalizing cs with
  | nil =>
    simp [afterKeyword?]
  | cons k ks ih =>
    cases cs with
    | nil => simp [afterKeyword?]
    | cons c cs =>
      by_cases h : foldLetter c = k
      · simp only [afterKeyword?, h, if_true, ih]
        constructor
        · rintro ⟨o, rfl, rfl⟩
          exact ⟨c :: o, rfl, by simp [h]⟩
        · rintro ⟨o, ho, hk⟩
          cases o with
          | nil => simp at hk
          | cons d o =>
            simp only [List.cons_append, List.cons.injEq] at ho
            exact ⟨o, ho.2, by simp_all⟩
      · simp only [afterKeyword?, h, if_false]
        constructor
        · simp
        · rintro ⟨o, ho, hk⟩
          cases o with
          | nil => simp at hk
          | cons d o =>
            simp only [List.cons_append, List.cons.injEq] at ho
            simp_all

/-- Whether no word runs on across a position, given the characters on its two sides. -/
def isWordEdge (before : Option Char) (after : List Char) : Bool :=
  (before.map isWordChar).getD false != (after.head?.map isWordChar).getD false

/-- Whether any of the keywords stands as a whole word in a text that follows `before`. -/
def hasWholeWord (keywords : List (List Char)) (before : Option Char) : List Char → Bool
  | [] => false
  | c :: cs =>
    (isWordEdge before (c :: cs) && keywords.any fun k =>
      match afterKeyword? k (c :: cs) with
      | some rest => isWordEdge k.getLast? rest
      | none => false) ||
    hasWholeWord keywords (some c) cs

end Schemata.Text
