import Mathlib.Data.List.Basic
import Mathlib.Tactic
import Schemata.Lexeme.Split

/-!
# Nesting

The depth of parentheses along some lexemes decides where they are cut. Lexemes whose groups are
complete are passed over as a whole by the search for a closing parenthesis, and by the cutting into
clauses and statements as long as no mark to cut at stands outside the groups.
-/
namespace Schemata.Lexeme

/-- The depth of parentheses after some lexemes. There is none if a closing parenthesis has no
opening one, or if a lexeme to cut at stands outside parentheses. -/
def depthAfter? (cut : Lexeme → Bool) (depth : ℕ) : List Lexeme → Option ℕ
  | [] => some depth
  | u :: us =>
    if u.isOpening then depthAfter? cut (depth + 1) us
    else if u.isClosing then if depth = 0 then none else depthAfter? cut (depth - 1) us
    else if cut u && depth = 0 then none
    else depthAfter? cut depth us

/-- Complete groups with no lexeme to cut at between them. -/
def Solid (cut : Lexeme → Bool) (us : List Lexeme) : Prop := depthAfter? cut 0 us = some 0

/-- Complete groups. -/
abbrev Balanced (us : List Lexeme) : Prop := Solid (fun _ => false) us

def cutsClause (u : Lexeme) : Bool := u.isPunct ","

def cutsStatement (u : Lexeme) : Bool := u.isPunct ";" || u.isWord ["CREATE"]

theorem isClosing_of_isOpening {u : Lexeme} (h : u.isOpening = true) : u.isClosing = false := by
  simp only [isOpening, isClosing, isPunct, Bool.and_eq_true, decide_eq_true_eq] at h ⊢
  rw [h.2]
  simp

/-! ## Depths -/

theorem depthAfter?_append (cut : Lexeme → Bool) (depth : ℕ) (us vs : List Lexeme) :
    depthAfter? cut depth (us ++ vs) =
      (depthAfter? cut depth us).bind (depthAfter? cut · vs) := by
  induction us generalizing depth with
  | nil => rfl
  | cons u us ih =>
    simp only [List.cons_append, depthAfter?]
    split_ifs <;> first | rfl | exact ih _

/-- Lexemes that are neither parentheses nor marks to cut at leave the depth as it is. -/
theorem depthAfter?_plain {cut : Lexeme → Bool} {us : List Lexeme}
    (h : ∀ u ∈ us, u.isOpening = false ∧ u.isClosing = false ∧ cut u = false) (depth : ℕ) :
    depthAfter? cut depth us = some depth := by
  induction us with
  | nil => rfl
  | cons u us ih =>
    obtain ⟨ho, hc, hu⟩ := h u List.mem_cons_self
    simp only [depthAfter?, ho, hc, hu, Bool.false_eq_true, if_false, Bool.false_and]
    exact ih fun v hv => h v (List.mem_cons_of_mem u hv)

/-- Inside parentheses nothing is cut. -/
theorem depthAfter?_deeper {us : List Lexeme} {depth depth' : ℕ} (cut : Lexeme → Bool) (k : ℕ)
    (h : depthAfter? (fun _ => false) depth us = some depth') :
    depthAfter? cut (depth + k + 1) us = some (depth' + k + 1) := by
  induction us generalizing depth with
  | nil =>
    obtain rfl := Option.some.inj h
    rfl
  | cons u us ih =>
    simp only [depthAfter?, Bool.false_and, Bool.false_eq_true, if_false] at h ⊢
    have hpos : ¬depth + k + 1 = 0 := by omega
    simp only [hpos, decide_false, Bool.and_false, Bool.false_eq_true, if_false]
    split_ifs at h ⊢ with ho hc hz
    · have := ih h
      rwa [show depth + 1 + k + 1 = depth + k + 1 + 1 by omega] at this
    · have := ih h
      rwa [show depth - 1 + k + 1 = depth + k + 1 - 1 by omega] at this
    · exact ih h

theorem Solid.append {cut : Lexeme → Bool} {us vs : List Lexeme} (hu : Solid cut us)
    (hv : Solid cut vs) : Solid cut (us ++ vs) := by
  rw [Solid, depthAfter?_append, hu]
  exact hv

/-- What counts as nested with marks to cut at counts as nested without them. -/
theorem depthAfter?_uncut {cut : Lexeme → Bool} {us : List Lexeme} {depth depth' : ℕ}
    (h : depthAfter? cut depth us = some depth') :
    depthAfter? (fun _ => false) depth us = some depth' := by
  induction us generalizing depth with
  | nil => exact h
  | cons u us ih =>
    simp only [depthAfter?, Bool.false_and, Bool.false_eq_true, if_false] at h ⊢
    split_ifs at h ⊢ <;> exact ih h

theorem Solid.balanced {cut : Lexeme → Bool} {us : List Lexeme} (h : Solid cut us) :
    Balanced us := depthAfter?_uncut h

/-- A group is solid, whatever stands in it. -/
theorem Balanced.group {us : List Lexeme} {o c : Lexeme} (h : Balanced us)
    (ho : o.isOpening = true) (hc : c.isClosing = true) (cut : Lexeme → Bool) :
    Solid cut (o :: us ++ [c]) := by
  have hco : c.isOpening = false := by
    by_contra hopen
    simp [isClosing_of_isOpening (Bool.not_eq_false _ ▸ hopen)] at hc
  have hin : depthAfter? cut 1 us = some 1 := depthAfter?_deeper cut 0 h
  rw [Solid, List.cons_append, depthAfter?, if_pos ho, depthAfter?_append, hin]
  simp [depthAfter?, hco, hc]

/-! ## Closing parentheses -/

theorem closingFrom?_append {us : List Lexeme} {depth depth' : ℕ} (rest : List Lexeme)
    (h : depthAfter? (fun _ => false) depth us = some depth') :
    closingFrom? depth (us ++ rest) =
      (closingFrom? depth' rest).map
        fun (inside, close, after) => (us ++ inside, close, after) := by
  induction us generalizing depth with
  | nil =>
    obtain rfl := Option.some.inj h
    simp
  | cons u us ih =>
    simp only [depthAfter?, Bool.false_and, Bool.false_eq_true, if_false] at h
    simp only [List.cons_append, closingFrom?]
    split_ifs at h with ho hc hz
    · have hcl := isClosing_of_isOpening ho
      simp only [hcl, ho, Bool.false_and, Bool.false_eq_true, if_false, if_true, ih h,
        Option.map_map]
      rfl
    · simp only [ho, hc, hz, decide_false, Bool.and_false, Bool.false_eq_true, if_false, if_true,
        ih h, Option.map_map]
      rfl
    · simp only [ho, hc, Bool.false_and, Bool.false_eq_true, if_false, ih h, Option.map_map]
      rfl

theorem closing?_append {us : List Lexeme} {close : Lexeme} (h : Balanced us)
    (hc : close.isClosing = true) (rest : List Lexeme) :
    closing? (us ++ close :: rest) = some (us, close, rest) := by
  rw [closing?, closingFrom?_append _ h]
  simp [closingFrom?, hc]

/-! ## Clauses -/

theorem clausesFrom_append {us : List Lexeme} {depth depth' : ℕ} (current rest : List Lexeme)
    (h : depthAfter? cutsClause depth us = some depth') :
    clausesFrom depth current (us ++ rest) = clausesFrom depth' (current ++ us) rest := by
  induction us generalizing depth current with
  | nil =>
    obtain rfl := Option.some.inj h
    simp
  | cons u us ih =>
    simp only [depthAfter?] at h
    simp only [List.cons_append, clausesFrom]
    split_ifs at h with ho hc hz hcut
    · rw [if_pos ho]
      simpa using ih (current ++ [u]) h
    · rw [if_neg ho, if_pos hc]
      have hcast : ((depth : ℤ) - 1) = ((depth - 1 : ℕ) : ℤ) := by omega
      rw [hcast]
      simpa using ih (current ++ [u]) h
    · have hnot : (u.isPunct "," && decide ((depth : ℤ) = 0)) = false := by
        simpa [cutsClause] using hcut
      rw [if_neg ho, if_neg hc, hnot]
      simpa using ih (current ++ [u]) h

theorem clauses_singleton {us : List Lexeme} (h : Solid cutsClause us) (hne : us ≠ []) :
    clauses us = [us] := by
  have := clausesFrom_append [] [] h
  rw [List.append_nil, List.nil_append] at this
  exact this.trans (consPiece_of_ne_nil hne [])

theorem clauses_cons {us : List Lexeme} {comma : Lexeme} (h : Solid cutsClause us) (hne : us ≠ [])
    (hcomma : comma.isPunct "," = true) (rest : List Lexeme) :
    clauses (us ++ comma :: rest) = us :: clauses rest := by
  have ho : comma.isOpening = false := by
    simp only [isPunct, Bool.and_eq_true, decide_eq_true_eq] at hcomma
    simp [isOpening, isPunct, hcomma.2]
  have hc : comma.isClosing = false := by
    simp only [isPunct, Bool.and_eq_true, decide_eq_true_eq] at hcomma
    simp [isClosing, isPunct, hcomma.2]
  have happ := clausesFrom_append [] (comma :: rest) h
  rw [List.nil_append] at happ
  refine happ.trans ?_
  simp [clausesFrom, ho, hc, hcomma, consPiece_of_ne_nil hne, clauses]

/-! ## Statements -/

theorem statementsFrom_append {us : List Lexeme} {depth depth' : ℕ} (current rest : List Lexeme)
    (h : depthAfter? cutsStatement depth us = some depth') :
    statementsFrom depth current (us ++ rest) = statementsFrom depth' (current ++ us) rest := by
  induction us generalizing depth current with
  | nil =>
    obtain rfl := Option.some.inj h
    simp
  | cons u us ih =>
    simp only [depthAfter?] at h
    simp only [List.cons_append, statementsFrom]
    split_ifs at h with ho hc hz hcut
    · rw [if_pos ho]
      simpa using ih (current ++ [u]) h
    · rw [if_neg ho, if_pos hc]
      simpa using ih (current ++ [u]) h
    · simp only [cutsStatement, Bool.and_eq_true, Bool.or_eq_true, decide_eq_true_eq, not_and_or,
        not_or] at hcut
      have hsemi : ¬(u.isPunct ";" && decide (depth = 0)) = true := by
        simp only [Bool.and_eq_true, decide_eq_true_eq]
        tauto
      have hcreate : ¬(u.isWord ["CREATE"] && decide (depth = 0)) = true := by
        simp only [Bool.and_eq_true, decide_eq_true_eq]
        tauto
      rw [if_neg ho, if_neg hc, if_neg hsemi, if_neg hcreate]
      simpa using ih (current ++ [u]) h

/-- A statement from its `CREATE` to its semicolon. -/
theorem statements_cons {create semicolon : Lexeme} {us : List Lexeme}
    (hcreate : create.isWord ["CREATE"] = true) (h : Solid cutsStatement us)
    (hsemi : semicolon.isPunct ";" = true) (rest : List Lexeme) :
    statements (create :: us ++ semicolon :: rest) = (create :: us) :: statements rest := by
  have hword : create.kind = .word := by
    simp only [isWord, Bool.and_eq_true, decide_eq_true_eq] at hcreate
    exact hcreate.1
  have hpunct : semicolon.kind = .punct ∧ semicolon.text = ";" := by
    simpa [isPunct] using hsemi
  have happ := statementsFrom_append [create] (semicolon :: rest) h
  rw [statements, List.cons_append, statementsFrom]
  simp only [isOpening, isClosing, isPunct, hword, hcreate, reduceCtorEq, decide_false,
    Bool.false_and, Bool.false_eq_true, if_false, decide_true, Bool.and_true, if_true,
    consPiece_nil]
  rw [happ]
  simp [statementsFrom, isOpening, isClosing, isPunct, hpunct.1, hpunct.2, consPiece, statements]

end Schemata.Lexeme
