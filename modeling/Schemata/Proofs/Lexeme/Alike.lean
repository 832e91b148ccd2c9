import Mathlib.Data.List.Forall2
import Mathlib.Data.Option.Basic
import Mathlib.Tactic
import Schemata.Lexeme.Split
import Schemata.LogicalType
import Schemata.Proofs.Lexeme.Nesting
import Schemata.Proofs.Lexeme.Plain

/-!
# Lexemes that are read alike

A reader looks at the kind of a lexeme and at a few features of its text. Lexemes that agree in
these are cut into statements, clauses and groups at the same places, wherever they stand.
-/
namespace Schemata.Lexeme

/-- Two lexemes that no reader tells apart, but for their places and for text that is copied out of
the source. -/
structure Alike (u v : Lexeme) : Prop where
  kind : u.kind = v.kind
  upper : u.kind = .word → u.upper = v.upper
  mark : u.kind = .punct → u.text = v.text
  identifier : u.isName = true → u.identifier = v.identifier
  type : u.isName = true → TypeWord.base u.text = TypeWord.base v.text
  /-- Signs and casts are known by their text alone, whatever the kind. -/
  sign : (u.text = "-" ∨ u.text = "+") ↔ (v.text = "-" ∨ v.text = "+")
  cast : u.text = "::" ↔ v.text = "::"

theorem alike_of_content {u v : Lexeme} (h : u.content = v.content) : u.Alike v := by
  obtain ⟨hkind, htext⟩ := Prod.mk.inj h
  refine ⟨hkind, fun _ => ?_, fun _ => htext, fun _ => ?_, fun _ => ?_, ?_, ?_⟩
  · rw [upper, upper, htext]
  · rw [identifier, identifier, htext]
  all_goals rw [htext]

theorem forall₂_content {us vs : List Lexeme} (h : us.map content = vs.map content) :
    List.Forall₂ (fun u v => u.content = v.content) us vs := by
  rwa [← List.forall₂_eq_eq_eq, List.forall₂_map_left_iff, List.forall₂_map_right_iff] at h

/-- The texts that are taken for operators. -/
def operators : List String := ["-", "+", "::"]

/-- Strings are alike as long as none of them spells an operator. -/
theorem alike_of_strings {u v : Lexeme} (hu : u.kind = .string) (hv : v.kind = .string)
    (hu' : u.text ∉ operators) (hv' : v.text ∉ operators) : u.Alike v := by
  simp only [operators, List.mem_cons, List.not_mem_nil, or_false, not_or] at hu' hv'
  refine ⟨hu.trans hv.symm, ?_, ?_, ?_, ?_, ?_, ?_⟩
  · simp [hu]
  · simp [hu]
  · simp [isName, hu]
  · simp [isName, hu]
  · exact iff_of_false (by tauto) (by tauto)
  · exact iff_of_false hu'.2.2 hv'.2.2

namespace Alike

variable {u v : Lexeme}

theorem isName (h : u.Alike v) : u.isName = v.isName := by
  rw [Lexeme.isName, Lexeme.isName, h.kind]

theorem isWord (h : u.Alike v) (keywords : List String) :
    u.isWord keywords = v.isWord keywords := by
  by_cases hu : u.kind = .word
  · simp [Lexeme.isWord, ← h.kind, hu, h.upper hu]
  · simp [Lexeme.isWord, ← h.kind, hu]

theorem isPunct (h : u.Alike v) (mark : String) : u.isPunct mark = v.isPunct mark := by
  by_cases hu : u.kind = .punct
  · simp [Lexeme.isPunct, ← h.kind, hu, h.mark hu]
  · simp [Lexeme.isPunct, ← h.kind, hu]

theorem isOpening (h : u.Alike v) : u.isOpening = v.isOpening := h.isPunct "("

theorem isClosing (h : u.Alike v) : u.isClosing = v.isClosing := h.isPunct ")"

end Alike

/-! ## Cutting -/

section Cutting

variable {R : Lexeme → Lexeme → Prop} (hR : ∀ u v, R u v → u.Alike v)
  {us vs : List Lexeme}

theorem forall₂_consPiece {piece piece' : List Lexeme} {pieces pieces' : List (List Lexeme)}
    (h : List.Forall₂ R piece piece') (hs : List.Forall₂ (List.Forall₂ R) pieces pieces') :
    List.Forall₂ (List.Forall₂ R) (consPiece piece pieces) (consPiece piece' pieces') := by
  cases h with
  | nil => exact hs
  | cons hu hrest => exact List.Forall₂.cons (List.Forall₂.cons hu hrest) hs

theorem forall₂_snoc {current current' : List Lexeme} {u v : Lexeme}
    (h : List.Forall₂ R current current') (hu : R u v) :
    List.Forall₂ R (current ++ [u]) (current' ++ [v]) :=
  List.rel_append h (List.Forall₂.cons hu List.Forall₂.nil)

include hR

theorem forall₂_statementsFrom {current current' : List Lexeme} (depth : ℕ)
    (hcurrent : List.Forall₂ R current current') (h : List.Forall₂ R us vs) :
    List.Forall₂ (List.Forall₂ R) (statementsFrom depth current us)
      (statementsFrom depth current' vs) := by
  induction h generalizing depth current current' with
  | nil => exact forall₂_consPiece hcurrent List.Forall₂.nil
  | @cons u v us vs hu _ ih =>
    have halike := hR u v hu
    have hnext := forall₂_snoc hcurrent hu
    simp only [statementsFrom, halike.isOpening, halike.isClosing, halike.isPunct, halike.isWord]
    split_ifs
    · exact ih _ hnext
    · exact ih _ hnext
    · exact forall₂_consPiece hcurrent (ih _ List.Forall₂.nil)
    · exact forall₂_consPiece hcurrent (ih _ (List.Forall₂.cons hu List.Forall₂.nil))
    · exact ih _ hnext

theorem forall₂_statements (h : List.Forall₂ R us vs) :
    List.Forall₂ (List.Forall₂ R) (statements us) (statements vs) :=
  forall₂_statementsFrom hR 0 List.Forall₂.nil h

theorem forall₂_clausesFrom {current current' : List Lexeme} (depth : ℤ)
    (hcurrent : List.Forall₂ R current current') (h : List.Forall₂ R us vs) :
    List.Forall₂ (List.Forall₂ R) (clausesFrom depth current us)
      (clausesFrom depth current' vs) := by
  induction h generalizing depth current current' with
  | nil => exact forall₂_consPiece hcurrent List.Forall₂.nil
  | @cons u v us vs hu _ ih =>
    have halike := hR u v hu
    have hnext := forall₂_snoc hcurrent hu
    simp only [clausesFrom, halike.isOpening, halike.isClosing, halike.isPunct]
    split_ifs
    · exact ih _ hnext
    · exact ih _ hnext
    · exact forall₂_consPiece hcurrent (ih _ List.Forall₂.nil)
    · exact ih _ hnext

theorem forall₂_clauses (h : List.Forall₂ R us vs) :
    List.Forall₂ (List.Forall₂ R) (clauses us) (clauses vs) :=
  forall₂_clausesFrom hR 0 List.Forall₂.nil h

/-- A group that is closed ends at the same place, and one that is not closed ends nowhere. -/
theorem rel_closingFrom? (depth : ℕ) (h : List.Forall₂ R us vs) :
    Option.Rel (fun found found' => List.Forall₂ R found.1 found'.1 ∧
        R found.2.1 found'.2.1 ∧ List.Forall₂ R found.2.2 found'.2.2)
      (closingFrom? depth us) (closingFrom? depth vs) := by
  induction h generalizing depth with
  | nil => exact Option.Rel.none
  | @cons u v us vs hu hrest ih =>
    have halike := hR u v hu
    simp only [closingFrom?, halike.isOpening, halike.isClosing]
    split
    · exact Option.Rel.some ⟨List.Forall₂.nil, hu, hrest⟩
    · have hlater :=
        ih (if v.isOpening then depth + 1 else if v.isClosing then depth - 1 else depth)
      revert hlater
      generalize closingFrom? _ us = found
      generalize closingFrom? _ vs = found'
      rintro (⟨hinside, hclose, hafter⟩ | _)
      · exact Option.Rel.some ⟨List.Forall₂.cons hu hinside, hclose, hafter⟩
      · exact Option.Rel.none

theorem rel_closing? (h : List.Forall₂ R us vs) :
    Option.Rel (fun found found' => List.Forall₂ R found.1 found'.1 ∧
        R found.2.1 found'.2.1 ∧ List.Forall₂ R found.2.2 found'.2.2)
      (closing? us) (closing? vs) :=
  rel_closingFrom? hR 0 h

/-- Depths are the same if the lexemes to cut at are. -/
theorem depthAfter?_alike {cut : Lexeme → Bool} (hcut : ∀ u v, R u v → cut u = cut v) (depth : ℕ)
    (h : List.Forall₂ R us vs) : depthAfter? cut depth us = depthAfter? cut depth vs := by
  induction h generalizing depth with
  | nil => rfl
  | @cons u v us vs hu _ ih =>
    simp only [depthAfter?, (hR u v hu).isOpening, (hR u v hu).isClosing, hcut u v hu, ih]

end Cutting

end Schemata.Lexeme
