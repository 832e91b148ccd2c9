import Mathlib.Data.List.ReduceOption
import Mathlib.Tactic
import Schemata.Proofs.Indexed.Basic

/-!
# Phrases by index

The readers of names, lists of names, references and default values, each from one index to the
next. An index that is handed on may lie behind the end; every reader stops there before it looks.
Where a parenthesis is never closed, a tolerant reader goes on behind the end.
-/
namespace Schemata.Indexed

open Lexeme

/-! ## Readers -/

/-- The index that the search for a closing parenthesis leads to. If there is no such parenthesis,
the reader goes on elsewhere; unless it is tolerant, that is a fault. -/
def closingOr (tolerant : Bool) (opening elsewhere : ℕ) : Option ℕ → Checked ℕ
  | some close => return close
  | none => if tolerant then return elsewhere else .error (.unclosed opening)

/-- One more part of a qualified name: its last part and the index behind it. -/
def namePart (us : List Lexeme) (s : String × ℕ) : Checked (Option (String × ℕ)) := do
  if s.2 + 1 < us.length then
    if (← item us s.2).isPunct "." then
      let part ← item us (s.2 + 1)
      if part.isName then return some (part.identifier, s.2 + 2) else return none
    else return none
  else return none

/-- A name, possibly qualified, and the index behind it. -/
def qualifiedName? (us : List Lexeme) (i : ℕ) : Checked (Option String × ℕ) := do
  if ← holds us i isName then
    let first ← item us i
    let (name, j) ← loop (namePart us) us.length (first.identifier, i + 1)
    return (some name, j)
  else return (none, i)

/-- The name that a clause opens with. -/
def leadingName? (clause : List Lexeme) : Checked (Option String) := do
  if ← holds clause 0 isName then return some (← item clause 0).identifier else return none

section Tolerant

variable (tolerant : Bool)

/-- The names in a list in parentheses, and the index behind it. -/
def nameList (us : List Lexeme) (i : ℕ) : Checked (List String × ℕ) := do
  if ← holds us i isOpening then
    let close ← closingOr tolerant i us.length (← closing us i)
    let names ← (clauses (between us i close)).mapM leadingName?
    return (names.reduceOption, close + 1)
  else return ([], i)

/-- What stands after `REFERENCES`, and the index behind it. -/
def reference (us : List Lexeme) (i : ℕ) :
    Checked (Except Phrase.ReferenceFault Phrase.Target × ℕ) := do
  match ← qualifiedName? us i with
  | (none, j) => return (.error .noTable, j)
  | (some table, j) =>
    if ← holds us j isOpening then
      let (columns, k) ← nameList tolerant us j
      if columns.length = 1 then return (.ok ⟨table, some (← item columns 0)⟩, k)
      else return (.error (.notSingle table columns), k)
    else return (.ok ⟨table, none⟩, j)

/-- The index of the last lexeme of an expression that begins at an index. -/
def expressionEnd (us : List Lexeme) (i : ℕ) : Checked ℕ := do
  let first ← item us i
  if first.isOpening then closingOr tolerant i (us.length - 1) (← closing us i)
  else if i + 1 < us.length then
    if first.text = "-" || first.text = "+" then return i + 1
    else if (← item us (i + 1)).isOpening then
      closingOr tolerant (i + 1) (us.length - 1) (← closing us (i + 1))
    else return i
  else return i

end Tolerant

/-- One more type cast: the index of its last lexeme. -/
def castPart (us : List Lexeme) (i : ℕ) : Checked (Option ℕ) := do
  if i + 2 < us.length then
    if (← item us (i + 1)).text = "::" then return some (i + 2) else return none
  else return none

/-- The source text of the expression after `DEFAULT`, and the index behind it. -/
def default? (tolerant : Bool) (source : List Char) (us : List Lexeme) (i : ℕ) :
    Checked (Option String × ℕ) := do
  if i < us.length then
    let first ← item us i
    if first.isPunct "," || first.isClosing then return (none, i)
    else
      let stop ← loop (castPart us) us.length (← expressionEnd tolerant us i)
      let last ← item us stop
      return (some (sourceText source [first, last]), stop + 1)
  else return (none, i)

/-! ## What they read -/

/-- A reader by index finds what a reader of the rest finds, and stands in front of what follows. -/
def Reads {α : Type} (us : List Lexeme) (found : Checked (α × ℕ)) (expected : α × List Lexeme) :
    Prop :=
  ∃ j, found = .ok (expected.1, j) ∧ us.drop j = expected.2

/-- Every parenthesis that opens is closed. -/
def GroupsClose (us : List Lexeme) : Prop :=
  ∀ i u, us[i]? = some u → u.isOpening = true → ∃ j, closingPlace? us i = some j

section Names

variable (us : List Lexeme)

/-- One turn of the loop over the parts of a name, by what the reader of the rest does there. -/
theorem namePart_cases (s : String × ℕ) :
    namePart us s = .ok none ∧ Phrase.qualifiedRest s.1 (us.drop s.2) = (s.1, us.drop s.2) ∨
      ∃ next, namePart us s = .ok (some next) ∧
        (us.drop next.2).length < (us.drop s.2).length ∧
          Phrase.qualifiedRest s.1 (us.drop s.2) =
            Phrase.qualifiedRest next.1 (us.drop next.2) := by
  obtain ⟨name, i⟩ := s
  simp only [namePart]
  rcases h : us.drop i with _ | ⟨u, _ | ⟨v, rest⟩⟩
  · have hle := List.drop_eq_nil_iff.mp h
    rw [if_neg (by omega)]
    exact Or.inl ⟨rfl, rfl⟩
  · have hle := List.drop_eq_nil_iff.mp (drop_succ_of_drop h)
    rw [if_neg (by omega)]
    exact Or.inl ⟨rfl, rfl⟩
  · have hnext := drop_succ_of_drop h
    rw [if_pos (lt_length_of_drop hnext), item_of_drop h, item_of_drop hnext, ok_bind, ok_bind,
      Phrase.qualifiedRest]
    cases hdot : u.isPunct "." with
    | false => exact Or.inl ⟨rfl, rfl⟩
    | true =>
      cases hpart : v.isName with
      | false => exact Or.inl ⟨rfl, rfl⟩
      | true =>
        refine Or.inr ⟨_, rfl, ?_, ?_⟩
        · rw [show i + 2 = i + 1 + 1 from rfl, drop_succ_of_drop hnext]
          simp only [List.length_cons]
          omega
        · rw [show i + 2 = i + 1 + 1 from rfl, drop_succ_of_drop hnext]
          rfl

theorem reads_namePart (name : String) (i : ℕ) :
    Reads us (loop (namePart us) us.length (name, i)) (Phrase.qualifiedRest name (us.drop i)) := by
  have hsize : (us.drop i).length ≤ us.length := by simp
  obtain ⟨⟨_, j⟩, hloop, hfound⟩ := exists_loop_eq (namePart us) (fun s => (us.drop s.2).length)
    (fun s => Phrase.qualifiedRest s.1 (us.drop s.2)) (fun s => (s.1, us.drop s.2))
    (namePart_cases us) (s := (name, i)) hsize
  exact ⟨j, by rw [hloop, ← hfound], congrArg Prod.snd hfound⟩

theorem qualifiedName?_eq (i : ℕ) :
    (Phrase.qualifiedName? (us.drop i) = none ∧ qualifiedName? us i = .ok (none, i)) ∨
      ∃ name rest j, Phrase.qualifiedName? (us.drop i) = some (name, rest) ∧
        qualifiedName? us i = .ok (some name, j) ∧ us.drop j = rest := by
  cases h : us.drop i with
  | nil =>
    refine Or.inl ⟨rfl, ?_⟩
    rw [qualifiedName?, holds_of_drop_nil h]
    rfl
  | cons u rest =>
    simp only [qualifiedName?, holds_of_drop h, ok_bind, Phrase.qualifiedName?]
    cases hu : u.isName with
    | false => exact Or.inl ⟨rfl, rfl⟩
    | true =>
      obtain ⟨j, hloop, hj⟩ := reads_namePart us u.identifier (i + 1)
      rw [drop_succ_of_drop h] at hloop hj
      refine Or.inr ⟨_, _, j, rfl, ?_, hj⟩
      simp only [if_true, item_of_drop h, ok_bind, hloop, pure_eq_ok]

theorem leadingName?_eq (clause : List Lexeme) :
    leadingName? clause = .ok (Phrase.leadingName? clause) := by
  cases clause with
  | nil => rfl
  | cons u us =>
    have h : (u :: us).drop 0 = u :: us := rfl
    simp only [leadingName?, holds_of_drop h, item_of_drop h, ok_bind, Phrase.leadingName?]
    split <;> rfl

theorem mapM_leadingName? (clauses : List (List Lexeme)) :
    clauses.mapM leadingName? = .ok (clauses.map Phrase.leadingName?) :=
  mapM_eq_map clauses fun clause _ => leadingName?_eq clause

end Names

/-! ## Groups -/

section Groups

variable {tolerant : Bool} {us : List Lexeme}

/-- The search for a closing parenthesis, by what the reader of the rest finds. -/
theorem closing_cases {i : ℕ} {u : Lexeme} {rest : List Lexeme} (h : us.drop i = u :: rest)
    (hu : u.isOpening = true) :
    (∃ inside close after j, closing? rest = some (inside, close, after) ∧
        closing us i = .ok (some j) ∧ between us i j = inside ∧ us.drop j = close :: after) ∨
      closing? rest = none ∧ closing us i = .ok none := by
  rw [closing_eq h hu, closingPlace?, drop_succ_of_drop h]
  cases hfound : closing? rest with
  | none => exact Or.inr ⟨rfl, rfl⟩
  | some found =>
    obtain ⟨inside, close, after⟩ := found
    have hdrop : us.drop (i + 1) = inside ++ close :: after :=
      (drop_succ_of_drop h).trans (closing?_eq_some_iff.mp hfound).1
    refine Or.inl ⟨inside, close, after, i + 1 + inside.length, rfl, rfl, ?_, ?_⟩
    · rw [between, List.drop_take, hdrop, Nat.add_sub_cancel_left, List.take_left' rfl]
    · rw [← List.drop_drop, hdrop, List.drop_left' rfl]

/-- Where the search leads a reader. Tolerance is not needed if every parenthesis is closed. -/
theorem closingOr_cases (hclose : tolerant = true ∨ GroupsClose us) {i : ℕ} {u : Lexeme}
    {rest : List Lexeme} (h : us.drop i = u :: rest) (hu : u.isOpening = true) (elsewhere : ℕ) :
    (∃ inside close after j, closing? rest = some (inside, close, after) ∧
        (closing us i >>= closingOr tolerant i elsewhere) = .ok j ∧
          between us i j = inside ∧ us.drop j = close :: after) ∨
      closing? rest = none ∧ (closing us i >>= closingOr tolerant i elsewhere) = .ok elsewhere := by
  obtain ⟨inside, close, after, j, hfound, hj, hinside, hdrop⟩ | ⟨hfound, hnone⟩ :=
    closing_cases h hu
  · exact Or.inl ⟨inside, close, after, j, hfound, by rw [hj]; rfl, hinside, hdrop⟩
  · refine Or.inr ⟨hfound, ?_⟩
    rw [hnone]
    obtain rfl | hclose := hclose
    · rfl
    · have hi : us[i]? = some u := by rw [← List.head?_drop, h]; rfl
      obtain ⟨j, hj⟩ := hclose i u hi hu
      rw [closing_eq h hu, hj] at hnone
      cases hnone

theorem between_end {i : ℕ} {u : Lexeme} {rest : List Lexeme} (h : us.drop i = u :: rest) :
    between us i us.length = rest := by
  rw [between, List.take_length, drop_succ_of_drop h]

theorem reads_nameList (hclose : tolerant = true ∨ GroupsClose us) (i : ℕ) :
    Reads us (nameList tolerant us i) (Phrase.nameList (us.drop i)) := by
  cases h : us.drop i with
  | nil => exact ⟨i, by rw [nameList, holds_of_drop_nil h]; rfl, h⟩
  | cons u rest =>
    simp only [nameList, holds_of_drop h, ok_bind, Phrase.nameList]
    cases hu : u.isOpening with
    | false => exact ⟨i, rfl, h⟩
    | true =>
      simp only [if_true]
      obtain ⟨inside, close, after, j, hfound, hj, hinside, hdrop⟩ | ⟨hfound, hj⟩ :=
        closingOr_cases hclose h hu us.length
      · rw [hfound, ← bind_assoc, hj]
        refine ⟨j + 1, ?_, drop_succ_of_drop hdrop⟩
        simp only [ok_bind, hinside, mapM_leadingName?, pure_eq_ok, List.reduceOption,
          List.filterMap_map]
        rfl
      · rw [hfound, ← bind_assoc, hj]
        refine ⟨us.length + 1, ?_, List.drop_eq_nil_of_le (Nat.le_succ _)⟩
        simp only [ok_bind, between_end h, mapM_leadingName?, pure_eq_ok, List.reduceOption,
          List.filterMap_map]
        rfl

end Groups

/-! ## References -/

section References

variable {tolerant : Bool} {us : List Lexeme}

theorem reads_reference (hclose : tolerant = true ∨ GroupsClose us) (i : ℕ) :
    Reads us (reference tolerant us i) (Phrase.reference (us.drop i)) := by
  obtain ⟨hnone, hfound⟩ | ⟨table, rest, j, hsome, hfound, hrest⟩ := qualifiedName?_eq us i
  · refine ⟨i, ?_, ?_⟩
    · simp only [reference, hfound, ok_bind, Phrase.reference, hnone, pure_eq_ok]
    · rw [Phrase.reference, hnone]
  · simp only [reference, hfound, ok_bind, Phrase.reference, hsome]
    cases rest with
    | nil => exact ⟨j, by rw [holds_of_drop_nil hrest]; rfl, hrest⟩
    | cons u rest =>
      simp only [holds_of_drop hrest, ok_bind]
      cases hu : u.isOpening with
      | false => exact ⟨j, rfl, hrest⟩
      | true =>
        obtain ⟨k, hlist, hk⟩ := reads_nameList hclose j
        rw [hrest] at hlist hk
        simp only [if_true, hlist, ok_bind]
        generalize Phrase.nameList (u :: rest) = found at hk
        obtain ⟨columns, after⟩ := found
        rcases columns with _ | ⟨column, _ | ⟨more, columns⟩⟩
        · exact ⟨k, rfl, hk⟩
        · exact ⟨k, rfl, hk⟩
        · refine ⟨k, ?_, hk⟩
          rw [if_neg (by simp)]
          rfl

end References

/-! ## Default values -/

section Defaults

variable {tolerant : Bool} {us : List Lexeme}

/-- The last lexeme of what is left at an index stands at the end. -/
theorem drop_pred_length {i : ℕ} {u : Lexeme} {rest : List Lexeme} (h : us.drop i = u :: rest) :
    us.drop (us.length - 1) = [rest.getLast?.getD u] := by
  have hlast : (us.drop i).getLast? = us.getLast? := by
    rw [List.getLast?_drop, if_neg (Nat.not_le.mpr (lt_length_of_drop h))]
  have hne : us ≠ [] := by
    rintro rfl
    simp at h
  rw [List.drop_length_sub_one hne]
  rw [h, List.getLast?_cons, List.getLast?_eq_some_getLast hne] at hlast
  rw [← Option.some.inj hlast]

theorem reads_groupEnd (hclose : tolerant = true ∨ GroupsClose us) {i : ℕ} {u : Lexeme}
    {rest : List Lexeme} (h : us.drop i = u :: rest) (hu : u.isOpening = true) :
    ∃ j, (closing us i >>= closingOr tolerant i (us.length - 1)) = .ok j ∧
      us.drop j = (Phrase.groupEnd u rest).1 :: (Phrase.groupEnd u rest).2 := by
  obtain ⟨inside, close, after, j, hfound, hj, -, hdrop⟩ | ⟨hfound, hj⟩ :=
    closingOr_cases hclose h hu (us.length - 1)
  · exact ⟨j, hj, by rw [Phrase.groupEnd, hfound]; exact hdrop⟩
  · exact ⟨_, hj, by rw [Phrase.groupEnd, hfound]; exact drop_pred_length h⟩

theorem exists_expressionEnd_eq (hclose : tolerant = true ∨ GroupsClose us) {i : ℕ} {u : Lexeme}
    {rest : List Lexeme} (h : us.drop i = u :: rest) :
    ∃ j, expressionEnd tolerant us i = .ok j ∧
      us.drop j = (Phrase.expressionEnd u rest).1 :: (Phrase.expressionEnd u rest).2 := by
  have hnext := drop_succ_of_drop h
  simp only [expressionEnd, item_of_drop h, ok_bind, Phrase.expressionEnd]
  cases hu : u.isOpening with
  | true => exact reads_groupEnd hclose h hu
  | false =>
    simp only [Bool.false_eq_true, if_false]
    cases rest with
    | nil =>
      rw [if_neg (Nat.not_lt.mpr (List.drop_eq_nil_iff.mp hnext))]
      exact ⟨i, rfl, h⟩
    | cons v rest =>
      rw [if_pos (lt_length_of_drop hnext), item_of_drop hnext]
      simp only [ok_bind, Bool.or_eq_true, decide_eq_true_eq]
      split
      · exact ⟨i + 1, rfl, hnext⟩
      · cases hv : v.isOpening with
        | true => exact reads_groupEnd hclose hnext hv
        | false => exact ⟨i, rfl, h⟩

/-- The end of the expression that has been read up to an index, with what follows. -/
def castEnd? (us : List Lexeme) (i : ℕ) : Option (Lexeme × List Lexeme) :=
  (us.drop i).next?.map fun (last, rest) => Phrase.castEnd last rest

/-- One turn of the loop over type casts, by what the reader of the rest does there. -/
theorem castPart_cases (us : List Lexeme) (i : ℕ) :
    castPart us i = .ok none ∧ castEnd? us i = (us.drop i).next? ∨
      ∃ next, castPart us i = .ok (some next) ∧ (us.drop next).length < (us.drop i).length ∧
        castEnd? us i = castEnd? us next := by
  simp only [castPart, castEnd?]
  rcases h : us.drop i with _ | ⟨u, _ | ⟨mark, _ | ⟨type, after⟩⟩⟩
  · have hle := List.drop_eq_nil_iff.mp h
    rw [if_neg (by omega)]
    exact Or.inl ⟨rfl, rfl⟩
  · have hle := List.drop_eq_nil_iff.mp (drop_succ_of_drop h)
    rw [if_neg (by omega)]
    exact Or.inl ⟨rfl, rfl⟩
  · have hle := List.drop_eq_nil_iff.mp (drop_succ_of_drop (drop_succ_of_drop h))
    rw [if_neg (by omega)]
    exact Or.inl ⟨rfl, rfl⟩
  · have hmark := drop_succ_of_drop h
    have htype : us.drop (i + 2) = type :: after := drop_succ_of_drop hmark
    rw [if_pos (lt_length_of_drop htype), item_of_drop hmark, ok_bind, List.next?, Option.map_some,
      Phrase.castEnd]
    split
    · exact Or.inr ⟨i + 2, rfl, by rw [htype]; simp, by rw [htype]; rfl⟩
    · exact Or.inl ⟨rfl, rfl⟩

theorem exists_castEnd_eq {i : ℕ} {last : Lexeme} {rest : List Lexeme}
    (h : us.drop i = last :: rest) :
    ∃ j, loop (castPart us) us.length i = .ok j ∧
      us.drop j = (Phrase.castEnd last rest).1 :: (Phrase.castEnd last rest).2 := by
  have hsize : (us.drop i).length ≤ us.length := by simp
  obtain ⟨j, hloop, hfound⟩ := exists_loop_eq (castPart us) (fun i => (us.drop i).length)
    (castEnd? us) (fun i => (us.drop i).next?) (castPart_cases us) hsize
  refine ⟨j, hloop, ?_⟩
  rw [castEnd?, h] at hfound
  cases hj : us.drop j with
  | nil =>
    rw [hj] at hfound
    cases hfound
  | cons u after =>
    rw [hj] at hfound
    have hsame : (u, after) = Phrase.castEnd last rest := Option.some.inj hfound
    rw [← hsame]

theorem reads_default? (hclose : tolerant = true ∨ GroupsClose us) (source : List Char) (i : ℕ) :
    Reads us (default? tolerant source us i) (Phrase.default? source (us.drop i)) := by
  cases h : us.drop i with
  | nil =>
    refine ⟨i, ?_, h⟩
    rw [default?, if_neg (Nat.not_lt.mpr (List.drop_eq_nil_iff.mp h))]
    rfl
  | cons u rest =>
    simp only [default?, if_pos (lt_length_of_drop h), item_of_drop h, ok_bind, Phrase.default?]
    split
    · exact ⟨i, rfl, h⟩
    · obtain ⟨j, hend, hj⟩ := exists_expressionEnd_eq hclose h
      obtain ⟨k, hcast, hk⟩ := exists_castEnd_eq hj
      refine ⟨k + 1, ?_, drop_succ_of_drop hk⟩
      simp only [hend, ok_bind, hcast, item_of_drop hk, pure_eq_ok]

end Defaults

end Schemata.Indexed
