import Mathlib.Data.List.Basic
import Mathlib.Tactic
import Schemata.Proofs.Script.Reported

/-!
# Default values as they are written

A default value is a literal, a word, a call, a group or a signed number, with any number of type
casts behind it. It is read to its end and not beyond, whatever follows it, as long as that does not
go on with the expression.
-/
namespace Schemata.Script

open Lexeme Phrase

/-! ## Spellings -/

/-- Parentheses with complete groups between them. -/
inductive Group : List Lexeme → Prop where
  | mk {o c : Lexeme} {inside : List Lexeme} (ho : o.isOpening = true) (hin : Balanced inside)
    (hc : c.isClosing = true) : Group (o :: inside ++ [c])

theorem Group.solid {us : List Lexeme} (h : Group us) (cut : Lexeme → Bool) : Solid cut us := by
  cases h with
  | mk ho hin hc => exact hin.group ho hc cut

/-- The text of a sign. Any lexeme that has it is read as a sign, even a string. -/
def isSign (u : Lexeme) : Bool := u.text = "-" || u.text = "+"

/-- A value that needs no parentheses: a number, a word, a name in quotes or a string. -/
structure IsAtom (u : Lexeme) : Prop where
  kind : u.kind ≠ .punct
  sign : isSign u = false

/-- An expression as it is read behind `DEFAULT`, without casts. -/
inductive Expression : List Lexeme → Prop where
  | atom {u : Lexeme} (hu : IsAtom u) : Expression [u]
  | signed {sign u : Lexeme} (hsign : isSign sign = true) (hu : u.kind = .number) :
    Expression [sign, u]
  | call {f : Lexeme} {us : List Lexeme} (hf : f.kind = .word) (hsign : isSign f = false)
    (hus : Group us) : Expression (f :: us)
  | group {us : List Lexeme} (hus : Group us) : Expression us

/-- Type casts, one behind the other. -/
inductive Casts : List Lexeme → Prop where
  | nil : Casts []
  | cons {mark type : Lexeme} {us : List Lexeme} (hmark : mark.text = "::")
    (htype : type.kind = .word) (hus : Casts us) : Casts (mark :: type :: us)

/-- A default value: an expression with its casts. -/
inductive Value : List Lexeme → Prop where
  | mk {e casts : List Lexeme} (he : Expression e) (hcasts : Casts casts) : Value (e ++ casts)

/-- What follows a value without going on with it. -/
structure EndsValue (rest : List Lexeme) : Prop where
  opening : ∀ u ∈ rest.head?, u.isOpening = false
  cast : ∀ u ∈ rest.head?, u.text ≠ "::"

/-! ## Reading -/

theorem isPunct_of_kind {u : Lexeme} (h : u.kind ≠ .punct) (mark : String) :
    u.isPunct mark = false := by
  simp [isPunct, h]

theorem isPunct_of_isSign {u : Lexeme} (h : isSign u = true) {mark : String}
    (hmark : mark ∉ ["-", "+"]) : u.isPunct mark = false := by
  have hne : u.text ≠ mark := by
    rintro rfl
    simp only [isSign, Bool.or_eq_true, decide_eq_true_eq] at h
    simp only [List.mem_cons, List.not_mem_nil, or_false, not_or] at hmark
    tauto
  simp [isPunct, hne]

theorem castEnd_append {us : List Lexeme} (h : Casts us) (last : Lexeme) {rest : List Lexeme}
    (hrest : ∀ u ∈ rest.head?, u.text ≠ "::") :
    castEnd last (us ++ rest) = (us.getLastD last, rest) := by
  induction h generalizing last with
  | nil =>
    rcases rest with _ | ⟨u, _ | ⟨v, rest⟩⟩
    · rfl
    · rfl
    · have hmark := hrest u rfl
      simp [castEnd, hmark]
  | @cons mark type us hmark _ _ ih =>
    rw [List.cons_append, List.cons_append, castEnd, if_pos hmark, ih]
    simp only [List.getLastD_cons]

theorem groupEnd_append {o c : Lexeme} {inside : List Lexeme} (hin : Balanced inside)
    (hc : c.isClosing = true) (rest : List Lexeme) :
    groupEnd o (inside ++ c :: rest) = (c, rest) := by
  rw [groupEnd, closing?_append hin hc]

section First

variable {first : Lexeme} (hopen : first.isOpening = false)
include hopen

theorem expressionEnd_sign (hsign : isSign first = true) (next : Lexeme) (rest : List Lexeme) :
    expressionEnd first (next :: rest) = (next, rest) := by
  rw [isSign] at hsign
  simp only [expressionEnd, hopen, hsign, Bool.false_eq_true, if_false, if_true]

theorem expressionEnd_call (hsign : isSign first = false) {next : Lexeme}
    (hnext : next.isOpening = true) (rest : List Lexeme) :
    expressionEnd first (next :: rest) = groupEnd next rest := by
  rw [isSign] at hsign
  simp only [expressionEnd, hopen, hsign, hnext, Bool.false_eq_true, if_false, if_true]

theorem expressionEnd_alone (hsign : isSign first = false) {rest : List Lexeme}
    (hrest : ∀ u ∈ rest.head?, u.isOpening = false) :
    expressionEnd first rest = (first, rest) := by
  rw [isSign] at hsign
  cases rest with
  | nil => simp only [expressionEnd, hopen, Bool.false_eq_true, if_false]
  | cons next rest =>
    simp only [expressionEnd, hopen, hsign, hrest next rfl, Bool.false_eq_true, if_false]

end First

/-- An expression is read from its first lexeme to its last one. -/
theorem Expression.read {e : List Lexeme} (h : Expression e) {rest : List Lexeme}
    (hrest : ∀ u ∈ rest.head?, u.isOpening = false) :
    ∃ first us, e = first :: us ∧ (first.isPunct "," || first.isClosing) = false ∧
      expressionEnd first (us ++ rest) = (us.getLastD first, rest) := by
  cases h with
  | @atom u hu =>
    refine ⟨u, [], rfl, ?_, expressionEnd_alone (isPunct_of_kind hu.kind "(") hu.sign hrest⟩
    rw [isClosing, isPunct_of_kind hu.kind, isPunct_of_kind hu.kind]
    rfl
  | @signed sign u hsign hu =>
    have hpunct : ∀ mark ∉ ["-", "+"], sign.isPunct mark = false := fun _ hmark =>
      isPunct_of_isSign hsign hmark
    refine ⟨sign, [u], rfl, ?_, expressionEnd_sign (hpunct "(" (by decide)) hsign u rest⟩
    rw [isClosing, hpunct "," (by decide), hpunct ")" (by decide)]
    rfl
  | @call f us hf hsign hus =>
    have hpunct : ∀ mark, f.isPunct mark = false := isPunct_of_kind (by simp [hf])
    cases hus with
    | @mk o c inside ho hin hc =>
      refine ⟨f, o :: inside ++ [c], rfl, by rw [isClosing, hpunct, hpunct]; rfl, ?_⟩
      rw [List.append_assoc, List.cons_append, expressionEnd_call (hpunct "(") hsign ho,
        List.singleton_append, groupEnd_append hin hc, List.getLastD_concat]
  | group hus =>
    cases hus with
    | @mk o c inside ho hin hc =>
      refine ⟨o, inside ++ [c], rfl, ?_, ?_⟩
      · have hcomma : o.isPunct "," = false := by
          have htext : o.text = "(" := of_decide_eq_true ((Bool.and_eq_true ..).mp ho).2
          simp [isPunct, htext]
        rw [hcomma, isClosing_of_isOpening ho]
        rfl
      · rw [expressionEnd.eq_def, if_pos ho, List.append_assoc, List.singleton_append,
          groupEnd_append hin hc, List.getLastD_concat]

/-- A default value is the source text of all its lexemes, and what follows is left. -/
theorem default?_append (source : List Char) {value rest : List Lexeme} (h : Value value)
    (hrest : EndsValue rest) :
    default? source (value ++ rest) = (some (sourceText source value), rest) := by
  obtain @⟨e, casts, he, hcasts⟩ := h
  have hopen : ∀ u ∈ (casts ++ rest).head?, u.isOpening = false := by
    cases hcasts with
    | nil => exact hrest.opening
    | @cons mark type us hmark =>
      rintro _ ⟨⟩
      simp [isOpening, isPunct, hmark]
  obtain ⟨first, us, rfl, hfirst, hend⟩ := he.read hopen
  have hcast := castEnd_append hcasts (us.getLastD first) hrest.cast
  rw [List.append_assoc, List.cons_append, default?, if_neg (by simp [hfirst]), hend]
  have hlast : casts.getLastD (us.getLastD first) = (us ++ casts).getLast?.getD first := by
    simp only [List.getLastD_eq_getLast?, List.getLast?_append, Option.getD_or]
  simp only [hcast, List.cons_append, sourceText_cons source first (us ++ casts), hlast]

/-- At the end of a clause a single lexeme is a value even if it spells a sign. -/
theorem default?_singleton (source : List Char) {u : Lexeme} (hu : u.kind ≠ .punct) :
    default? source [u] = (some (sourceText source [u]), []) := by
  have hpunct := isPunct_of_kind hu
  rw [default?, if_neg (by simp [isClosing, hpunct])]
  simp only [expressionEnd, isOpening, hpunct, castEnd, Bool.false_eq_true, if_false,
    sourceText_cons source u []]
  rfl

end Schemata.Script
