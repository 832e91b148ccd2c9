import Mathlib.Data.List.Infix
import Mathlib.Tactic
import Schemata.Proofs.Script.Seams

/-!
# Where references are found

The scan of a column clause comes to every `REFERENCES` outside parentheses, unless the lexeme
before it takes the keyword for a part of its own phrase. On its way a phrase may take an opening
parenthesis for such a part, so the scan can be less deep than the parentheses are, but it is never
deeper.
-/
namespace Schemata.Script

open Lexeme Phrase

/-- Lexemes that take the next one for a part of their phrase: a default value or a table name
begins with it, a qualified name goes on with it, or a sign or a cast has it for its operand. A sign
is known by its text alone, so a string may be taken for one. -/
def takesNext (u : Lexeme) : Bool :=
  u.isWord ["DEFAULT", "REFERENCES"] || u.isPunct "." || u.text ∈ operators

section Keyword

variable {keyword : Lexeme} (hkeyword : keyword.isWord ["REFERENCES"] = true)
  {us : List Lexeme} (after : List Lexeme)
include hkeyword

theorem isOpening_keyword : keyword.isOpening = false :=
  isPunct_of_word_kind (kind_of_isWord hkeyword) "("

/-- The keyword stands behind a seam if nothing takes it. -/
theorem seam_keyword (hclosed : ∃ depth, depthAfter? (fun _ => false) depth us = some 0)
    (hfree : ∀ u ∈ us.getLast?, takesNext u = false) : Seam us (keyword :: after) := by
  have hlast : ∀ u ∈ us.getLast?, u.isWord ["DEFAULT", "REFERENCES"] = false ∧
      u.isPunct "." = false ∧ u.text ∉ operators := by
    intro u hu
    have hu := hfree u hu
    simp only [takesNext, Bool.or_eq_false_iff, decide_eq_false_iff_not] at hu
    exact ⟨hu.1.1, hu.1.2, hu.2⟩
  have hother : ∀ word ∈ ["NULL", "KEY"], nextIs word (keyword :: after) = false := by
    intro word hword
    refine isWord_eq_false hkeyword ?_
    rintro hmem
    obtain rfl := List.mem_singleton.mp hmem
    exact absurd hword (by decide)
  have hcast : keyword.text ≠ "::" := fun htext =>
    text_not_mem_operators hkeyword (by decide) (htext ▸ by decide)
  refine ⟨hclosed, fun u hu => ⟨(hlast u hu).1, (hlast u hu).2.1⟩, ?_, fun u _ => ?_, .inr ⟨?_, ?_⟩⟩
  · rintro _ ⟨⟩
    exact ⟨isOpening_keyword hkeyword, isPunct_of_word_kind (kind_of_isWord hkeyword) "."⟩
  · exact ⟨fun _ => hother "NULL" (by decide), fun _ => hother "KEY" (by decide)⟩
  · exact fun u hu => (hlast u hu).2.2
  · rintro _ ⟨⟩
    exact hcast

theorem traitsFrom_keyword (source : List Char) {depth : ℤ} (hdepth : depth ≤ 0) :
    traitsFrom source depth (keyword :: after) =
      .reference (reference after).1 :: traitsFrom source depth (reference after).2 := by
  rw [traitsFrom_word source (kind_of_isWord hkeyword) hdepth, traitAt,
    if_neg (by simp [isWord_eq_false hkeyword]), if_neg (by simp [isWord_eq_false hkeyword]),
    if_pos hkeyword]
  rfl

/-- The scan of a column comes to the keyword if it is no deeper than the parentheses. -/
theorem traitsFrom_reaches (source : List Char) {depth : ℤ} {us : List Lexeme}
    (hclosed : ∃ nesting : ℕ, depth ≤ nesting ∧
      depthAfter? (fun _ => false) nesting us = some 0)
    (hfree : ∀ u ∈ us.getLast?, takesNext u = false) :
    ∃ ts depth', traitsFrom source depth (us ++ keyword :: after) =
      ts ++ .reference (reference after).1 :: traitsFrom source depth' (reference after).2 := by
  obtain ⟨depth', hdepth', hread⟩ := traitsFrom_seam source depth us hclosed
  refine ⟨traitsFrom source depth us, depth', ?_⟩
  rw [hread (seam_keyword hkeyword after (hclosed.imp fun _ h => h.2) hfree),
    traitsFrom_keyword hkeyword after source hdepth']

end Keyword

/-- A reference that is read stands behind a `REFERENCES`. -/
theorem exists_keyword_of_mem (source : List Char) (depth : ℤ) (us : List Lexeme)
    {outcome : Except ReferenceFault Target} (h : .reference outcome ∈ traitsFrom source depth us) :
    ∃ before keyword after, us = before ++ keyword :: after ∧
      keyword.isWord ["REFERENCES"] = true ∧ (reference after).1 = outcome := by
  have hlater : ∀ {u : Lexeme} {rest vs : List Lexeme}, vs <:+ rest →
      (∃ before keyword after, vs = before ++ keyword :: after ∧
        keyword.isWord ["REFERENCES"] = true ∧ (reference after).1 = outcome) →
      ∃ before keyword after, u :: rest = before ++ keyword :: after ∧
        keyword.isWord ["REFERENCES"] = true ∧ (reference after).1 = outcome := by
    rintro u _ _ ⟨front, rfl⟩ ⟨before, keyword, after, rfl, hkeyword, hout⟩
    exact ⟨u :: (front ++ before), keyword, after, by simp, hkeyword, hout⟩
  induction depth, us using traitsFrom_induction source with
  | nil depth =>
    rw [traitsFrom] at h
    cases h
  | opening depth u rest ho ih =>
    rw [traitsFrom_opening source ho] at h
    exact hlater List.suffix_rfl (ih h)
  | closing depth u rest ho hc ih =>
    rw [traitsFrom_closing source ho hc] at h
    exact hlater List.suffix_rfl (ih h)
  | inside depth u rest ho hc hd ih =>
    rw [traitsFrom_inside source ho hc hd] at h
    exact hlater List.suffix_rfl (ih h)
  | outside depth u rest ho hc hd ih =>
    rw [traitsFrom_outside source ho hc hd, List.mem_append, Option.mem_toList] at h
    rcases h with hread | h
    · obtain ⟨href, rfl⟩ := traitAt_eq_reference hread
      exact ⟨[], u, rest, rfl, href, rfl⟩
    · exact hlater (traitAt_suffix source u rest) (ih h)

end Schemata.Script
