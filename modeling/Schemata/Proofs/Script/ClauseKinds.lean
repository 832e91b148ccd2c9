import Mathlib.Data.List.TakeWhile
import Mathlib.Tactic
import Schemata.Proofs.Text.Identifier
import Schemata.Proofs.Text.Trim
import Schemata.Script.Draft

/-!
# Columns and table constraints

Whether a clause is a column or a table constraint is told by its first words and, for some of them,
by the parenthesis behind these. In front of a known type only four words make a table constraint.
-/
namespace Schemata

/-! ## Type words -/

namespace Text

theorem upperChar_of_isBlank {c : Char} (hc : isBlank c = true) : upperChar c = [c] :=
  forall_blank (P := fun c => upperChar c = [c]) (by decide +kernel) hc

/-- A text has the blanks and parentheses that its capitals have. -/
theorem mem_upper_of_mem {c : Char} {cs : List Char} (hc : upperChar c = [c]) (hmem : c ∈ cs) :
    c ∈ upper cs :=
  List.mem_flatMap.mpr ⟨c, hmem, by rw [hc]; exact List.mem_singleton.mpr rfl⟩

end Text

open Text in
/-- A type word without blanks and parentheses is looked up as it stands. -/
theorem TypeWord.base_eq_upperCase {word : String}
    (h : ∀ c ∈ upper word.toList, isBlank c = false ∧ c ≠ '(') : base word = upperCase word := by
  have hblank : ∀ c ∈ word.toList, isBlank c = false := fun c hc => by
    by_contra hb
    rw [Bool.not_eq_false] at hb
    have hfree := (h c (mem_upper_of_mem (upperChar_of_isBlank hb) hc)).1
    rw [hb] at hfree
    cases hfree
  have hopen : '(' ∉ word.toList := fun hc => (h '(' (mem_upper_of_mem (by decide) hc)).2 rfl
  have htake : word.toList.takeWhile (· ≠ '(') = word.toList := by
    refine List.takeWhile_eq_self_iff.mpr fun c hc => decide_eq_true ?_
    rintro rfl
    exact hopen hc
  rw [base, htake, trim, trimWhile_eq_self hblank, upperCase]

namespace Script

open Phrase

/-! ## Words -/

theorem kind_of_isWord {u : Lexeme} {keywords : List String} (h : u.isWord keywords = true) :
    u.kind = .word := by
  simp only [Lexeme.isWord, Bool.and_eq_true, decide_eq_true_eq] at h
  exact h.1

theorem isPunct_of_word_kind {u : Lexeme} (h : u.kind = .word) (mark : String) :
    u.isPunct mark = false := by
  simp [Lexeme.isPunct, h]

theorem isPunct_of_isName {u : Lexeme} (h : u.isName = true) (mark : String) :
    u.isPunct mark = false := by
  simp only [Lexeme.isName, Bool.or_eq_true, decide_eq_true_eq] at h
  rcases h with h | h <;> simp [Lexeme.isPunct, h]

/-- A keyword is no other keyword. -/
theorem isWord_eq_false {u : Lexeme} {keyword : String} {keywords : List String}
    (h : u.isWord [keyword] = true) (hne : keyword ∉ keywords) : u.isWord keywords = false := by
  simp only [Lexeme.isWord, Bool.and_eq_true, decide_eq_true_eq, List.mem_singleton] at h
  simp [Lexeme.isWord, h.2, hne]

theorem isName_of_isKnownType {u : Lexeme} (h : isKnownType u = true) : u.isName = true := by
  rw [isKnownType, Bool.and_eq_true] at h
  exact h.1

/-- `KEY` is no type. -/
theorem isKnownType_eq_false_of_key {u : Lexeme} (h : u.isWord ["KEY"] = true) :
    isKnownType u = false := by
  have hupper : u.upper = "KEY" := by
    simp only [Lexeme.isWord, Bool.and_eq_true, decide_eq_true_eq, List.mem_singleton] at h
    exact h.2
  have hletters : Text.upper u.text.toList = ['K', 'E', 'Y'] := by
    rw [← String.toList_ofList (l := Text.upper _)]
    exact congrArg String.toList hupper
  have hbase : TypeWord.base u.text = "KEY" := by
    refine (TypeWord.base_eq_upperCase ?_).trans hupper
    rw [hletters, List.forall_mem_cons, List.forall_mem_cons, List.forall_mem_singleton]
    decide
  have hnone : TypeWord.isKnown u.text = false := by
    rw [TypeWord.isKnown, TypeWord.logical?, hbase]
    rfl
  rw [isKnownType, hnone, Bool.and_false]

/-! ## Clauses -/

/-- The words that always begin a table constraint. -/
def constraintWords : List String := ["CONSTRAINT", "EXCLUDE", "FULLTEXT", "SPATIAL"]

/-- In front of a known type no other word tells a table constraint from a column. -/
theorem isTableConstraint_of_isKnownType {first second : Lexeme} (h : isKnownType second = true)
    (rest : List Lexeme) :
    isTableConstraint (first :: second :: rest) = first.isWord constraintWords := by
  have hkey : second.isWord ["KEY"] = false := by
    by_contra hkey
    rw [Bool.not_eq_false] at hkey
    rw [isKnownType_eq_false_of_key hkey] at h
    cases h
  have hopen : second.isOpening = false := isPunct_of_isName (isName_of_isKnownType h) "("
  cases hword : first.isWord constraintWords with
  | true => exact if_pos hword
  | false =>
    rw [constraintWords] at hword
    simp [isTableConstraint, hword, pairIs, nextIs, hkey, h, hopen]

end Script

end Schemata
