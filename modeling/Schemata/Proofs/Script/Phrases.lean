import Mathlib.Data.List.Forall2
import Mathlib.Data.Option.Basic
import Mathlib.Tactic
import Schemata.Proofs.Lexeme.Alike
import Schemata.Proofs.Script.Views

/-!
# Phrases that are read alike

Lexemes of two sources that correspond one by one, alike and with the same text between them, are
read as the same phrases, and what follows the phrases corresponds again. How much of a default
value counts is left to a view, so that defaults may also be disregarded.
-/
namespace Schemata

/-- A correspondence between the lexemes of two sources: what corresponds is alike, and the text
from one lexeme to another looks the same in both. -/
structure Restating (view : View) (source source' : List Char) (R : Lexeme → Lexeme → Prop) :
    Prop where
  alike : ∀ u v, R u v → u.Alike v
  span : ∀ u v u' v', R u v → R u' v' →
    view (some (Lexeme.sourceText source [u, u'])) =
      view (some (Lexeme.sourceText source' [v, v']))

/-! ## Phrases -/

namespace Phrase

variable {R : Lexeme → Lexeme → Prop} {us vs : List Lexeme}

/-- A phrase that says the same, with corresponding lexemes after it. -/
def SameThen {α : Type} (R : Lexeme → Lexeme → Prop) (p q : α × List Lexeme) : Prop :=
  p.1 = q.1 ∧ List.Forall₂ R p.2 q.2

theorem rel_getLastD {u v : Lexeme} (hu : R u v) (h : List.Forall₂ R us vs) :
    R (us.getLast?.getD u) (vs.getLast?.getD v) := by
  rw [← List.head?_reverse, ← List.head?_reverse]
  have hreverse := List.rel_reverse h
  generalize us.reverse = backwards, vs.reverse = backwards' at hreverse
  cases hreverse with
  | nil => exact hu
  | cons hlast _ => exact hlast

section Alike

variable (hR : ∀ u v, R u v → u.Alike v)
include hR

theorem nextIs_eq (keyword : String) (h : List.Forall₂ R us vs) :
    nextIs keyword us = nextIs keyword vs := by
  cases h with
  | nil => rfl
  | cons hu _ => exact (hR _ _ hu).isWord [keyword]

theorem pairIs_eq (first second : String) (h : List.Forall₂ R us vs) :
    pairIs first second us = pairIs first second vs := by
  cases h with
  | nil => rfl
  | cons hu hrest => simp only [pairIs, (hR _ _ hu).isWord, nextIs_eq hR second hrest]

theorem sameThen_qualifiedRest {name : String} (h : List.Forall₂ R us vs) :
    SameThen R (qualifiedRest name us) (qualifiedRest name vs) := by
  fun_induction qualifiedRest name us generalizing vs with
  | case1 name dot part us hdot ih =>
    obtain _ | ⟨hd, _ | ⟨hp, h⟩⟩ := h
    rw [(hR _ _ hd).isPunct, (hR _ _ hp).isName] at hdot
    have hname : part.isName = true := by
      rw [(hR _ _ hp).isName]
      exact ((Bool.and_eq_true _ _).mp hdot).2
    rw [qualifiedRest, if_pos hdot, ← (hR _ _ hp).identifier hname]
    exact ih h
  | case2 name dot part us hdot =>
    obtain _ | ⟨hd, _ | ⟨hp, h⟩⟩ := h
    rw [(hR _ _ hd).isPunct, (hR _ _ hp).isName] at hdot
    rw [qualifiedRest, if_neg hdot]
    exact ⟨rfl, List.Forall₂.cons hd (List.Forall₂.cons hp h)⟩
  | case3 name us hshort =>
    have hvs : qualifiedRest name vs = (name, vs) := by
      obtain _ | ⟨_, _ | ⟨_, _⟩⟩ := h
      · rfl
      · rfl
      · exact absurd rfl (hshort _ _ _)
    rw [hvs]
    exact ⟨rfl, h⟩

theorem rel_qualifiedName? (h : List.Forall₂ R us vs) :
    Option.Rel (SameThen R) (qualifiedName? us) (qualifiedName? vs) := by
  cases h with
  | nil => exact Option.Rel.none
  | @cons u v us vs hu hrest =>
    simp only [qualifiedName?, ← (hR _ _ hu).isName]
    split
    · next hname =>
      rw [← (hR _ _ hu).identifier hname]
      exact Option.Rel.some (sameThen_qualifiedRest hR hrest)
    · exact Option.Rel.none

theorem leadingName?_eq (h : List.Forall₂ R us vs) : leadingName? us = leadingName? vs := by
  cases h with
  | nil => rfl
  | cons hu _ =>
    simp only [leadingName?, ← (hR _ _ hu).isName]
    split
    · next hname => rw [(hR _ _ hu).identifier hname]
    · rfl

theorem leadingNames_eq (h : List.Forall₂ R us vs) :
    (Lexeme.clauses us).filterMap leadingName? = (Lexeme.clauses vs).filterMap leadingName? := by
  have hclauses := Lexeme.forall₂_clauses hR h
  generalize Lexeme.clauses us = pieces, Lexeme.clauses vs = pieces' at hclauses
  induction hclauses with
  | nil => rfl
  | cons hclause _ ih => simp only [List.filterMap_cons, leadingName?_eq hR hclause, ih]

theorem sameThen_nameList (h : List.Forall₂ R us vs) :
    SameThen R (nameList us) (nameList vs) := by
  cases h with
  | nil => exact ⟨rfl, List.Forall₂.nil⟩
  | @cons u v us vs hu hrest =>
    simp only [nameList, (hR _ _ hu).isOpening]
    split
    · have hnames := leadingNames_eq hR hrest
      have hclosing := Lexeme.rel_closing? hR hrest
      revert hclosing
      generalize Lexeme.closing? us = found
      generalize Lexeme.closing? vs = found'
      rintro (⟨hinside, -, hafter⟩ | _)
      · exact ⟨leadingNames_eq hR hinside, hafter⟩
      · exact ⟨hnames, List.Forall₂.nil⟩
    · exact ⟨rfl, List.Forall₂.cons hu hrest⟩

theorem sameThen_reference (h : List.Forall₂ R us vs) :
    SameThen R (reference us) (reference vs) := by
  have hname := rel_qualifiedName? hR h
  simp only [reference]
  revert hname
  generalize qualifiedName? us = found
  generalize qualifiedName? vs = found'
  rintro (@⟨⟨table, rest⟩, ⟨table', rest'⟩, hsame, hrest⟩ | _)
  · obtain rfl : table = table' := hsame
    simp only
    cases hrest with
    | nil => exact ⟨rfl, List.Forall₂.nil⟩
    | @cons u v rest rest' hu hrest =>
      simp only [← (hR _ _ hu).isOpening]
      split
      · have hlist := sameThen_nameList hR (List.Forall₂.cons hu hrest)
        revert hlist
        generalize nameList (u :: rest) = list
        generalize nameList (v :: rest') = list'
        obtain ⟨columns, after⟩ := list
        obtain ⟨columns', after'⟩ := list'
        rintro ⟨hcolumns, hafter⟩
        obtain rfl : columns = columns' := hcolumns
        rcases columns with _ | ⟨column, _ | ⟨second, columns⟩⟩
        all_goals exact ⟨rfl, hafter⟩
      · exact ⟨rfl, List.Forall₂.cons hu hrest⟩
  · exact ⟨rfl, h⟩

/-! ## Default values -/

/-- Two phrases that end at corresponding lexemes, with corresponding lexemes after them. -/
def EndsAlike (R : Lexeme → Lexeme → Prop) (p q : Lexeme × List Lexeme) : Prop :=
  R p.1 q.1 ∧ List.Forall₂ R p.2 q.2

theorem endsAlike_groupEnd {u v : Lexeme} (hu : R u v) (h : List.Forall₂ R us vs) :
    EndsAlike R (groupEnd u us) (groupEnd v vs) := by
  have hclosing := Lexeme.rel_closing? hR h
  simp only [groupEnd]
  revert hclosing
  generalize Lexeme.closing? us = found
  generalize Lexeme.closing? vs = found'
  rintro (⟨-, hclose, hafter⟩ | _)
  · exact ⟨hclose, hafter⟩
  · exact ⟨rel_getLastD hu h, List.Forall₂.nil⟩

theorem endsAlike_expressionEnd {u v : Lexeme} (hu : R u v) (h : List.Forall₂ R us vs) :
    EndsAlike R (expressionEnd u us) (expressionEnd v vs) := by
  simp only [expressionEnd, (hR _ _ hu).isOpening]
  split
  · exact endsAlike_groupEnd hR hu h
  · cases h with
    | nil => exact ⟨hu, List.Forall₂.nil⟩
    | cons hnext hrest =>
      have hsign := (hR _ _ hu).sign
      simp only [Bool.or_eq_true, decide_eq_true_eq, hsign, (hR _ _ hnext).isOpening]
      split_ifs
      · exact ⟨hnext, hrest⟩
      · exact endsAlike_groupEnd hR hnext hrest
      · exact ⟨hu, List.Forall₂.cons hnext hrest⟩

theorem endsAlike_castEnd {u v : Lexeme} (hu : R u v) (h : List.Forall₂ R us vs) :
    EndsAlike R (castEnd u us) (castEnd v vs) := by
  fun_induction castEnd u us generalizing v vs with
  | case1 last mark type us hmark ih =>
    obtain _ | ⟨hm, _ | ⟨ht, h⟩⟩ := h
    rw [castEnd, if_pos ((hR _ _ hm).cast.mp hmark)]
    exact ih ht h
  | case2 last mark type us hmark =>
    obtain _ | ⟨hm, _ | ⟨ht, h⟩⟩ := h
    rw [castEnd, if_neg (mt (hR _ _ hm).cast.mpr hmark)]
    exact ⟨hu, List.Forall₂.cons hm (List.Forall₂.cons ht h)⟩
  | case3 last us hshort =>
    have hvs : castEnd v vs = (v, vs) := by
      obtain _ | ⟨_, _ | ⟨_, _⟩⟩ := h
      · rfl
      · rfl
      · exact absurd rfl (hshort _ _ _)
    rw [hvs]
    exact ⟨hu, h⟩

end Alike

/-- A default value ends at corresponding lexemes, and what counts of it is the same. -/
theorem default?_restated {view : View} {source source' : List Char}
    (hR : Restating view source source' R) (h : List.Forall₂ R us vs) :
    view (default? source us).1 = view (default? source' vs).1 ∧
      List.Forall₂ R (default? source us).2 (default? source' vs).2 := by
  cases h with
  | nil => exact ⟨rfl, List.Forall₂.nil⟩
  | @cons u v us vs hu hrest =>
    have halike := hR.alike _ _ hu
    simp only [default?, halike.isPunct, halike.isClosing]
    split
    · exact ⟨rfl, List.Forall₂.cons hu hrest⟩
    · obtain ⟨hlast, hafter⟩ := endsAlike_expressionEnd hR.alike hu hrest
      obtain ⟨hend, hrest⟩ := endsAlike_castEnd hR.alike hlast hafter
      exact ⟨hR.span _ _ _ _ hu hend, hrest⟩

end Phrase

end Schemata
