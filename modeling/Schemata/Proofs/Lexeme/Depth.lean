import Mathlib.Data.List.Basic
import Mathlib.Tactic
import Schemata.Proofs.Lexeme.Nesting

/-!
# Where statements end

Whether a statement can end depends on the number of open parentheses. Lexemes that leave none open
are cut as if nothing followed, provided that the next lexeme is one to cut at.
-/
namespace Schemata.Lexeme

/-- The number of open parentheses after some lexemes. A closing parenthesis without an opening one
does not count. -/
def openAfter (depth : ℕ) : List Lexeme → ℕ
  | [] => depth
  | u :: us =>
    if u.isOpening then openAfter (depth + 1) us
    else if u.isClosing then openAfter (depth - 1) us
    else openAfter depth us

theorem consPiece_append (piece : List Lexeme) (pieces more : List (List Lexeme)) :
    consPiece piece (pieces ++ more) = consPiece piece pieces ++ more := by
  cases piece <;> rfl

theorem cuts_not_parenthesis {u : Lexeme} (h : cutsStatement u = true) :
    u.isOpening = false ∧ u.isClosing = false := by
  simp only [cutsStatement, Bool.or_eq_true, isPunct, isWord, Bool.and_eq_true,
    decide_eq_true_eq] at h
  rcases h with ⟨hkind, htext⟩ | ⟨hkind, -⟩
  · simp [isOpening, isClosing, isPunct, htext]
  · simp [isOpening, isClosing, isPunct, hkind]

/-- A lexeme to cut at outside parentheses ends the statement so far. -/
theorem statementsFrom_cut (current : List Lexeme) {u : Lexeme} (hu : cutsStatement u = true)
    (us : List Lexeme) :
    statementsFrom 0 current (u :: us) = consPiece current (statements (u :: us)) := by
  obtain ⟨ho, hc⟩ := cuts_not_parenthesis hu
  simp only [statements, statementsFrom, ho, hc, Bool.false_eq_true, if_false, decide_true,
    Bool.and_true, consPiece_nil]
  split_ifs with hsemi hcreate
  · rfl
  · rfl
  · exact absurd hu (by simp [cutsStatement, hsemi, hcreate])

/-- Statements that leave no parenthesis open are found whatever follows them. -/
theorem statementsFrom_append_of_closed {us : List Lexeme} {depth : ℕ} (current : List Lexeme)
    (hclosed : openAfter depth us = 0) {v : Lexeme} (hv : cutsStatement v = true)
    (vs : List Lexeme) :
    statementsFrom depth current (us ++ v :: vs) =
      statementsFrom depth current us ++ statements (v :: vs) := by
  induction us generalizing depth current with
  | nil =>
    obtain rfl : depth = 0 := hclosed
    rw [List.nil_append, statementsFrom_cut current hv, statementsFrom, ← consPiece_append]
    rfl
  | cons u us ih =>
    rw [openAfter] at hclosed
    rw [List.cons_append, statementsFrom, statementsFrom]
    split_ifs at hclosed ⊢ with ho hc hsemi hcreate
    · exact ih _ hclosed
    · exact ih _ hclosed
    · simp only [Bool.and_eq_true, decide_eq_true_eq] at hsemi
      rw [ih [] (hsemi.2 ▸ hclosed), consPiece_append]
    · simp only [Bool.and_eq_true, decide_eq_true_eq] at hcreate
      rw [ih [u] (hcreate.2 ▸ hclosed), consPiece_append]
    · exact ih _ hclosed

theorem statements_append_of_closed {us : List Lexeme} (hclosed : openAfter 0 us = 0) {v : Lexeme}
    (hv : cutsStatement v = true) (vs : List Lexeme) :
    statements (us ++ v :: vs) = statements us ++ statements (v :: vs) :=
  statementsFrom_append_of_closed [] hclosed hv vs

/-- Semicolons in front of statements do nothing. -/
theorem statements_semicolons {marks : List Lexeme} (h : ∀ u ∈ marks, u.isPunct ";" = true)
    (us : List Lexeme) : statements (marks ++ us) = statements us := by
  induction marks with
  | nil => rfl
  | cons u marks ih =>
    have hu := h u List.mem_cons_self
    obtain ⟨ho, hc⟩ := cuts_not_parenthesis (u := u) (by rw [cutsStatement, hu]; rfl)
    rw [List.cons_append, statements, statementsFrom, ho, hc, hu]
    exact ih fun v hv => h v (List.mem_cons_of_mem u hv)

end Schemata.Lexeme
