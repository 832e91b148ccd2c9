import Mathlib.Data.List.Infix
import Mathlib.Tactic
import Schemata.Proofs.Lexeme.Alike
import Schemata.Proofs.Lexeme.Groups
import Schemata.Proofs.Script.KeyClauses

/-!
# Seams of a column clause

Between most lexemes of a column clause no phrase runs on. There the clause can be cut: its
constraints are those in front of the seam and those behind it, and what is read in front does not
depend on what follows.
-/
namespace Schemata.Script

open Lexeme Phrase

/-! ## Phrases in front of a seam -/

theorem mem_getLast?_of_suffix {us vs : List Lexeme} (h : vs <:+ us) {u : Lexeme}
    (hu : u ∈ vs.getLast?) : u ∈ us.getLast? := by
  obtain ⟨before, rfl⟩ := h
  rw [List.getLast?_append, Option.mem_def.mp hu]
  rfl

/-- Operators are no keywords. -/
theorem text_not_mem_operators {u : Lexeme} {keywords : List String}
    (h : u.isWord keywords = true) (hkeywords : ∀ mark ∈ operators, mark ∉ keywords) :
    u.text ∉ operators := by
  have hupper : ∀ mark ∈ operators, Text.upperCase mark = mark := by decide
  intro hmem
  simp only [isWord, upper, hupper u.text hmem, Bool.and_eq_true, decide_eq_true_eq] at h
  exact hkeywords u.text hmem h.2

theorem drop_one_append {word : String} {us : List Lexeme} (h : nextIs word us = true)
    (rest : List Lexeme) : (us ++ rest).drop 1 = us.drop 1 ++ rest := by
  cases us with
  | nil => cases h
  | cons v us => rfl

/-- A place where no sign waits for its operand and no cast follows. -/
structure OperatorSeam (us rest : List Lexeme) : Prop where
  last : ∀ u ∈ us.getLast?, u.text ∉ operators
  next : ∀ v ∈ rest.head?, v.text ≠ "::"

theorem OperatorSeam.suffix {us vs rest : List Lexeme} (h : OperatorSeam us rest)
    (hsuffix : vs <:+ us) : OperatorSeam vs rest :=
  ⟨fun u hu => h.last u (mem_getLast?_of_suffix hsuffix hu), h.next⟩

/-- A place where no phrase runs on. -/
structure Seam (us rest : List Lexeme) : Prop where
  /-- What is opened in front is closed in front. -/
  closed : ∃ depth, depthAfter? (fun _ => false) depth us = some 0
  /-- A phrase that begins in front has its first lexeme there, a name its part after a dot. -/
  last : ∀ u ∈ us.getLast?, u.isWord ["DEFAULT", "REFERENCES"] = false ∧ u.isPunct "." = false
  next : ∀ v ∈ rest.head?, v.isOpening = false ∧ v.isPunct "." = false
  pair : ∀ u ∈ us.getLast?, (u.isWord ["NOT"] = true → nextIs "NULL" rest = false) ∧
    (u.isWord ["PRIMARY"] = true → nextIs "KEY" rest = false)
  /-- Signs and casts only count in a default value. -/
  operator : (∀ u ∈ us, u.isWord ["DEFAULT"] = false) ∨ OperatorSeam us rest

namespace Seam

variable {u : Lexeme} {us vs rest : List Lexeme}

theorem suffix (h : Seam us rest) (hsuffix : vs <:+ us) : Seam vs rest := by
  refine ⟨?_, fun u hu => h.last u (mem_getLast?_of_suffix hsuffix hu), h.next,
    fun u hu => h.pair u (mem_getLast?_of_suffix hsuffix hu), ?_⟩
  · obtain ⟨depth, hdepth⟩ := h.closed
    exact closed_of_suffix hsuffix hdepth
  · exact h.operator.imp (fun hno u hu => hno u (hsuffix.subset hu)) fun hop => hop.suffix hsuffix

theorem tail (h : Seam (u :: us) rest) : Seam us rest := h.suffix (List.suffix_cons u us)

/-- A group that is opened in front of the seam is closed there. -/
theorem exists_closing? (h : Seam (u :: us) rest) (hu : u.isOpening = true) :
    ∃ inside close after, closing? us = some (inside, close, after) := by
  obtain ⟨depth, hdepth⟩ := h.closed
  exact exists_closing?_of_closed hdepth hu

/-- A lexeme that a phrase begins with is not the last one. -/
theorem ne_nil (h : Seam (u :: us) rest) {keyword : String} (hu : u.isWord [keyword] = true)
    (hkeyword : [keyword] ⊆ ["DEFAULT", "REFERENCES"]) : us ≠ [] := by
  rintro rfl
  have hlast := (h.last u rfl).1
  rw [isWord_of_subset hu hkeyword] at hlast
  cases hlast

/-- No pair of keywords is made by the seam. -/
theorem pairs (h : Seam (u :: us) rest) :
    (u.isWord ["NOT"] && nextIs "NULL" (us ++ rest)) = (u.isWord ["NOT"] && nextIs "NULL" us) ∧
      (u.isWord ["PRIMARY"] && nextIs "KEY" (us ++ rest)) =
        (u.isWord ["PRIMARY"] && nextIs "KEY" us) := by
  cases us with
  | cons v us => exact ⟨rfl, rfl⟩
  | nil =>
    obtain ⟨hnull, hkey⟩ := h.pair u rfl
    constructor
    · cases hu : u.isWord ["NOT"] with
      | false => rfl
      | true => exact hnull hu
    · cases hu : u.isWord ["PRIMARY"] with
      | false => rfl
      | true => exact hkey hu

theorem qualifiedRest (name : String) : ∀ {us : List Lexeme}, Seam us rest →
    qualifiedRest name (us ++ rest) =
      ((Phrase.qualifiedRest name us).1, (Phrase.qualifiedRest name us).2 ++ rest)
  | [], h => by
    rcases rest with _ | ⟨v, _ | ⟨w, rest⟩⟩
    · rfl
    · rfl
    · have hdot := (h.next v rfl).2
      simp [Phrase.qualifiedRest, hdot]
  | [dot], h => by
    have hdot := (h.last dot rfl).2
    cases rest <;> simp [Phrase.qualifiedRest, hdot]
  | dot :: part :: us, h => by
    rw [List.cons_append, List.cons_append, Phrase.qualifiedRest, Phrase.qualifiedRest]
    split
    · exact qualifiedRest part.identifier h.tail.tail
    · rfl

theorem nameList (h : Seam us rest) :
    nameList (us ++ rest) = ((Phrase.nameList us).1, (Phrase.nameList us).2 ++ rest) := by
  cases us with
  | nil =>
    cases rest with
    | nil => rfl
    | cons v rest =>
      have hopen := (h.next v rfl).1
      simp [Phrase.nameList, hopen]
  | cons u us =>
    rw [List.cons_append, Phrase.nameList, Phrase.nameList]
    split
    · next hu =>
      obtain ⟨inside, close, after, hclose⟩ := h.exists_closing? hu
      rw [closing?_more hclose, hclose]
    · rfl

theorem reference (h : Seam us rest) (hne : us ≠ []) :
    reference (us ++ rest) = ((Phrase.reference us).1, (Phrase.reference us).2 ++ rest) := by
  obtain ⟨u, us, rfl⟩ := List.exists_cons_of_ne_nil hne
  rw [List.cons_append, Phrase.reference, Phrase.reference, qualifiedName?, qualifiedName?]
  split_ifs with hu
  · have hname := h.tail.qualifiedRest u.identifier
    have hlater := (qualifiedRest_suffix u.identifier us).trans (List.suffix_cons u us)
    generalize Phrase.qualifiedRest u.identifier us = found at hname hlater
    obtain ⟨table, vs⟩ := found
    rw [hname]
    cases vs with
    | nil =>
      cases rest with
      | nil => rfl
      | cons v rest =>
        have hopen := (h.next v rfl).1
        simp [hopen]
    | cons v vs =>
      have hlist := (h.suffix hlater).nameList
      simp only [List.cons_append] at hlist ⊢
      rw [hlist]
      split_ifs
      · generalize Phrase.nameList (v :: vs) = found
        obtain ⟨columns, after⟩ := found
        rcases columns with _ | ⟨column, _ | ⟨second, columns⟩⟩ <;> rfl
      · rfl
  · rfl

theorem groupEnd (h : Seam (u :: us) rest) (hu : u.isOpening = true) :
    groupEnd u (us ++ rest) = ((Phrase.groupEnd u us).1, (Phrase.groupEnd u us).2 ++ rest) := by
  obtain ⟨inside, close, after, hclose⟩ := h.exists_closing? hu
  rw [Phrase.groupEnd, Phrase.groupEnd, closing?_more hclose, hclose]

theorem expressionEnd {first : Lexeme} (h : Seam (first :: us) rest)
    (hop : OperatorSeam (first :: us) rest) :
    expressionEnd first (us ++ rest) =
      ((Phrase.expressionEnd first us).1, (Phrase.expressionEnd first us).2 ++ rest) := by
  simp only [Phrase.expressionEnd]
  split
  · next hfirst => exact h.groupEnd hfirst
  cases us with
  | nil =>
    cases rest with
    | nil => rfl
    | cons v rest =>
      have hsign : ¬(decide (first.text = "-") || decide (first.text = "+")) = true := by
        have htext := hop.last first rfl
        simp only [operators, List.mem_cons, List.not_mem_nil, or_false, not_or] at htext
        simp [htext.1, htext.2.1]
      have hopen : ¬v.isOpening = true := by simp [(h.next v rfl).1]
      simp only [List.nil_append]
      rw [if_neg hsign, if_neg hopen]
  | cons next us =>
    simp only [List.cons_append]
    split
    · rfl
    · split
      · next hnext => exact h.tail.groupEnd hnext
      · rfl

theorem castEnd (last : Lexeme) : ∀ {us : List Lexeme}, OperatorSeam us rest →
    castEnd last (us ++ rest) = ((Phrase.castEnd last us).1, (Phrase.castEnd last us).2 ++ rest)
  | [], h => by
    rcases rest with _ | ⟨v, _ | ⟨w, rest⟩⟩
    · rfl
    · rfl
    · have hmark := h.next v rfl
      simp [Phrase.castEnd, hmark]
  | [mark], h => by
    have hmark : mark.text ≠ "::" := by
      have htext := h.last mark rfl
      simp only [operators, List.mem_cons, List.not_mem_nil, or_false, not_or] at htext
      exact htext.2.2
    cases rest <;> simp [Phrase.castEnd, hmark]
  | mark :: type :: us, h => by
    rw [List.cons_append, List.cons_append, Phrase.castEnd, Phrase.castEnd]
    split
    · exact castEnd type (h.suffix ((List.suffix_cons type us).trans (List.suffix_cons mark _)))
    · rfl

theorem default? (source : List Char) (h : Seam us rest) (hop : OperatorSeam us rest)
    (hne : us ≠ []) :
    default? source (us ++ rest) =
      ((Phrase.default? source us).1, (Phrase.default? source us).2 ++ rest) := by
  obtain ⟨first, us, rfl⟩ := List.exists_cons_of_ne_nil hne
  rw [List.cons_append, Phrase.default?, Phrase.default?]
  split
  · rfl
  · have hsuffix := (expressionEnd_suffix first us).trans (List.suffix_cons first us)
    simp only [h.expressionEnd hop, castEnd _ (hop.suffix hsuffix)]

/-- The constraint in front of a seam is the same whatever follows the seam. -/
theorem traitAt (source : List Char) (h : Seam (u :: us) rest) :
    traitAt source u (us ++ rest) =
      ((Script.traitAt source u us).1, (Script.traitAt source u us).2 ++ rest) := by
  simp only [Script.traitAt]
  rw [h.pairs.1, h.pairs.2]
  split_ifs with hnull hkey href hdefault
  · rw [drop_one_append ((Bool.and_eq_true ..).mp hnull).2]
  · rw [drop_one_append ((Bool.and_eq_true ..).mp hkey).2]
  · rw [h.tail.reference (h.ne_nil href (by simp))]
  · have hop : OperatorSeam us rest := by
      rcases h.operator with hno | hop
      · rw [hno u List.mem_cons_self] at hdefault
        cases hdefault
      · exact hop.suffix (List.suffix_cons u us)
    rw [h.tail.default? source hop (h.ne_nil hdefault (by simp))]
  · rfl

end Seam

/-! ## Constraints on both sides of a seam -/

/-- A scan that is no deeper than the parentheses around it comes out of them by the seam. -/
theorem traitsFrom_seam (source : List Char) (depth : ℤ) (us : List Lexeme)
    (hclosed : ∃ nesting : ℕ, depth ≤ nesting ∧
      depthAfter? (fun _ => false) nesting us = some 0) :
    ∃ depth' ≤ 0, ∀ {rest}, Seam us rest →
      traitsFrom source depth (us ++ rest) =
        traitsFrom source depth us ++ traitsFrom source depth' rest := by
  induction depth, us using traitsFrom_induction source with
  | nil depth =>
    obtain ⟨nesting, hdepth, hnesting⟩ := hclosed
    obtain rfl : nesting = 0 := Option.some.inj hnesting
    exact ⟨depth, hdepth, fun _ => by rw [List.nil_append, traitsFrom, List.nil_append]⟩
  | opening depth u us ho ih =>
    obtain ⟨nesting, hdepth, hnesting⟩ := hclosed
    rw [depthAfter?, if_pos ho] at hnesting
    obtain ⟨depth', hneg, hread⟩ := ih ⟨nesting + 1, by push_cast; omega, hnesting⟩
    refine ⟨depth', hneg, fun h => ?_⟩
    rw [List.cons_append, traitsFrom_opening source ho, traitsFrom_opening source ho, hread h.tail]
  | closing depth u us ho hc ih =>
    obtain ⟨nesting, hdepth, hnesting⟩ := hclosed
    rw [depthAfter?, if_neg ho, if_pos hc] at hnesting
    split_ifs at hnesting with hzero
    obtain ⟨depth', hneg, hread⟩ := ih ⟨nesting - 1, by omega, hnesting⟩
    refine ⟨depth', hneg, fun h => ?_⟩
    rw [List.cons_append, traitsFrom_closing source ho hc, traitsFrom_closing source ho hc,
      hread h.tail]
  | inside depth u us ho hc hd ih =>
    obtain ⟨nesting, hdepth, hnesting⟩ := hclosed
    rw [depthAfter?, if_neg ho, if_neg hc, Bool.false_and, if_neg Bool.false_ne_true] at hnesting
    obtain ⟨depth', hneg, hread⟩ := ih ⟨nesting, hdepth, hnesting⟩
    refine ⟨depth', hneg, fun h => ?_⟩
    rw [List.cons_append, traitsFrom_inside source ho hc hd, traitsFrom_inside source ho hc hd,
      hread h.tail]
  | outside depth u us ho hc hd ih =>
    -- the depth is not negative behind the constraint, whatever it takes
    obtain ⟨nesting, -, hnesting⟩ := hclosed
    have hsuffix := traitAt_suffix source u us
    obtain ⟨behind, hbehind⟩ := closed_of_suffix (hsuffix.trans (List.suffix_cons u us)) hnesting
    obtain ⟨depth', hneg, hread⟩ := ih ⟨behind, by omega, hbehind⟩
    refine ⟨depth', hneg, fun h => ?_⟩
    rw [List.cons_append, traitsFrom_outside source ho hc hd, traitsFrom_outside source ho hc hd,
      h.traitAt source, hread (h.tail.suffix hsuffix), List.append_assoc]

end Schemata.Script
