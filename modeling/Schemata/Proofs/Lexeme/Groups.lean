import Mathlib.Data.List.Infix
import Mathlib.Tactic
import Schemata.Proofs.Lexeme.Statements

/-!
# Groups and the clauses in them

A group is what stands between a parenthesis and the first closing one behind it that leaves no
parenthesis open. Both ways of counting depth agree on it: the parenthesis that closes is the only
one with matched lexemes before it, and cutting a matched body at its commas gives matched clauses.
-/
namespace Schemata.Lexeme

/-! ## Counting parentheses -/

/-- The number of opening parentheses less that of closing ones. -/
def nesting (us : List Lexeme) : ℤ := us.countP isOpening - us.countP isClosing

/-- As many parentheses close as open, and at no place more of them. -/
structure Matched (us : List Lexeme) : Prop where
  closed : us.countP isClosing = us.countP isOpening
  opened : ∀ front, front <+: us → front.countP isClosing ≤ front.countP isOpening

theorem nesting_append (us vs : List Lexeme) : nesting (us ++ vs) = nesting us + nesting vs := by
  simp only [nesting, List.countP_append, Nat.cast_add]
  omega

theorem forall_prefix_cons {u : Lexeme} {us : List Lexeme} {P : List Lexeme → Prop} :
    (∀ front, front <+: u :: us → P front) ↔ P [] ∧ ∀ front, front <+: us → P (u :: front) := by
  simp only [List.prefix_cons_iff, or_imp, forall_and, forall_eq, forall_exists_index, and_imp]
  exact and_congr_right fun _ => ⟨fun h front => h _ front rfl, fun h _ front he => he ▸ h front⟩

/-- The depth behind some lexemes, by the numbers of their parentheses. -/
theorem depthAfter?_eq_some_iff {us : List Lexeme} {depth depth' : ℕ} :
    depthAfter? (fun _ => false) depth us = some depth' ↔
      (∀ front, front <+: us → front.countP isClosing ≤ depth + front.countP isOpening) ∧
        depth + us.countP isOpening = depth' + us.countP isClosing := by
  induction us generalizing depth with
  | nil => simp [depthAfter?]
  | cons u us ih =>
    rw [forall_prefix_cons]
    simp only [depthAfter?, Bool.false_and, Bool.false_eq_true, if_false, List.countP_cons,
      List.countP_nil, Nat.zero_le, true_and]
    cases ho : u.isOpening with
    | true =>
      simp only [isClosing_of_isOpening ho, if_true, Bool.false_eq_true, if_false, Nat.add_zero]
      rw [ih]
      refine and_congr (forall₂_congr fun front _ => ?_) ?_ <;> omega
    | false =>
      simp only [Bool.false_eq_true, if_false, Nat.add_zero]
      cases hc : u.isClosing with
      | false => simpa using ih
      | true =>
        simp only [if_true]
        split_ifs with hz
        · refine iff_of_false (by simp) fun h => ?_
          have := h.1 [] List.nil_prefix
          simp only [List.countP_nil] at this
          omega
        · rw [ih]
          refine and_congr (forall₂_congr fun front _ => ?_) ?_ <;> omega

theorem balanced_iff_matched {us : List Lexeme} : Balanced us ↔ Matched us := by
  rw [Balanced, Solid, depthAfter?_eq_some_iff]
  simp only [Nat.zero_add]
  exact ⟨fun h => ⟨h.2.symm, h.1⟩, fun h => ⟨h.opened, h.closed.symm⟩⟩

/-! ## The parenthesis that closes -/

theorem closingFrom?_eq_some {depth : ℕ} {us inside rest : List Lexeme} {close : Lexeme}
    (h : closingFrom? depth us = some (inside, close, rest)) :
    us = inside ++ close :: rest ∧ close.isClosing = true ∧
      depthAfter? (fun _ => false) depth inside = some 0 := by
  induction us generalizing depth inside with
  | nil => cases h
  | cons u us ih =>
    simp only [closingFrom?] at h
    split at h
    · next hstop =>
      cases h
      simp only [Bool.and_eq_true, decide_eq_true_eq] at hstop
      exact ⟨rfl, hstop.1, congrArg some hstop.2⟩
    · next hgo =>
      obtain ⟨⟨i, c, r⟩, hfound, hsame⟩ := Option.map_eq_some_iff.mp h
      cases hsame
      obtain ⟨rfl, hclose, hdepth⟩ := ih hfound
      refine ⟨rfl, hclose, ?_⟩
      simp only [Bool.and_eq_true, decide_eq_true_eq, not_and] at hgo
      simp only [depthAfter?, Bool.false_and, Bool.false_eq_true, if_false]
      split_ifs at hdepth ⊢ with ho hc hz
      · exact hdepth
      · exact absurd hz (hgo hc)
      · exact hdepth
      · exact hdepth

theorem closing?_eq_some_iff {us inside rest : List Lexeme} {close : Lexeme} :
    closing? us = some (inside, close, rest) ↔
      us = inside ++ close :: rest ∧ close.isClosing = true ∧ Balanced inside := by
  constructor
  · exact closingFrom?_eq_some
  · rintro ⟨rfl, hclose, hinside⟩
    exact closing?_append hinside hclose rest

/-- What is closed in the end was opened at some depth in front. -/
theorem closed_of_suffix {us vs : List Lexeme} (h : vs <:+ us) {depth : ℕ}
    (hclosed : depthAfter? (fun _ => false) depth us = some 0) :
    ∃ depth', depthAfter? (fun _ => false) depth' vs = some 0 := by
  obtain ⟨before, rfl⟩ := h
  rw [depthAfter?_append] at hclosed
  obtain ⟨depth', -, hrest⟩ := Option.bind_eq_some_iff.mp hclosed
  exact ⟨depth', hrest⟩

/-! ## Groups with more behind them -/

section Groups

variable {us inside rest : List Lexeme} {close : Lexeme}

/-- A group that is closed ends at the same place if more follows. -/
theorem closingFrom?_more {depth : ℕ} (h : closingFrom? depth us = some (inside, close, rest))
    (more : List Lexeme) :
    closingFrom? depth (us ++ more) = some (inside, close, rest ++ more) := by
  induction us generalizing depth inside with
  | nil => cases h
  | cons u us ih =>
    simp only [closingFrom?] at h
    simp only [List.cons_append, closingFrom?]
    split at h
    · next hc =>
      cases h
      exact if_pos hc
    · next hc =>
      obtain ⟨⟨i, c, r⟩, hfound, hsame⟩ := Option.map_eq_some_iff.mp h
      cases hsame
      rw [if_neg hc, ih hfound]
      rfl

theorem closing?_more (h : closing? us = some (inside, close, rest)) (more : List Lexeme) :
    closing? (us ++ more) = some (inside, close, rest ++ more) := closingFrom?_more h more

/-- If no parenthesis is open in the end, then a group is closed by then. -/
theorem exists_closingFrom? {d extra : ℕ}
    (h : depthAfter? (fun _ => false) (extra + 1 + d) us = some 0) :
    ∃ inside close rest, closingFrom? d us = some (inside, close, rest) := by
  induction us generalizing d with
  | nil => simp [depthAfter?] at h
  | cons u us ih =>
    simp only [depthAfter?, Bool.false_and, Bool.false_eq_true, if_false] at h
    by_cases ho : u.isOpening = true
    · have hc := isClosing_of_isOpening ho
      rw [if_pos ho] at h
      rw [show extra + 1 + d + 1 = extra + 1 + (d + 1) by omega] at h
      obtain ⟨i, c, r, hfound⟩ := ih h
      simp [closingFrom?, ho, hc, hfound]
    · rw [if_neg ho] at h
      by_cases hc : u.isClosing = true
      · rw [if_pos hc, if_neg (by omega)] at h
        by_cases hd : d = 0
        · simp [closingFrom?, hc, hd]
        · rw [show extra + 1 + d - 1 = extra + 1 + (d - 1) by omega] at h
          obtain ⟨i, c, r, hfound⟩ := ih h
          simp [closingFrom?, ho, hc, hd, hfound]
      · rw [if_neg hc] at h
        obtain ⟨i, c, r, hfound⟩ := ih h
        simp [closingFrom?, ho, hc, hfound]

theorem exists_closing?_of_closed {u : Lexeme} {depth : ℕ}
    (h : depthAfter? (fun _ => false) depth (u :: us) = some 0) (hu : u.isOpening = true) :
    ∃ inside close rest, closing? us = some (inside, close, rest) := by
  rw [depthAfter?, if_pos hu] at h
  exact exists_closingFrom? (d := 0) h

/-- Behind a group the depth is what it was before, whatever stands in the group. -/
theorem depthAfter?_of_closingFrom? {depth : ℕ}
    (h : closingFrom? depth us = some (inside, close, rest)) (cut : Lexeme → Bool) (extra : ℕ) :
    depthAfter? cut (extra + 1 + depth) us = depthAfter? cut extra rest := by
  induction us generalizing depth inside with
  | nil => cases h
  | cons u us ih =>
    simp only [closingFrom?] at h
    rw [depthAfter?, if_neg (by simp : ¬(cut u && decide (extra + 1 + depth = 0)) = true)]
    by_cases hstop : (u.isClosing && decide (depth = 0)) = true
    · rw [if_pos hstop] at h
      cases h
      simp only [Bool.and_eq_true, decide_eq_true_eq] at hstop
      have ho : ¬close.isOpening = true := fun ho => by simp [isClosing_of_isOpening ho] at hstop
      rw [if_neg ho, if_pos hstop.1, if_neg (by omega), hstop.2, Nat.add_zero, Nat.add_sub_cancel]
    · rw [if_neg hstop] at h
      obtain ⟨⟨i, c, r⟩, hfound, hsame⟩ := Option.map_eq_some_iff.mp h
      cases hsame
      simp only [Bool.and_eq_true, decide_eq_true_eq, not_and] at hstop
      split_ifs at hfound ⊢ with ho hc hz
      · exact ih hfound
      · omega
      · have hpos : depth ≠ 0 := hstop hc
        rw [show extra + 1 + depth - 1 = extra + 1 + (depth - 1) by omega]
        exact ih hfound
      · exact ih hfound

end Groups

/-! ## Places -/

/-- The place of the parenthesis that closes the one at a place. -/
def closingPlace? (us : List Lexeme) (i : ℕ) : Option ℕ :=
  (closing? (us.drop (i + 1))).map fun (inside, _, _) => i + 1 + inside.length

/-- Between two places, the first and the last one left out. -/
def between (us : List Lexeme) (i j : ℕ) : List Lexeme := (us.take j).drop (i + 1)

/-- The lexeme at one place closes a parenthesis at another: what stands between is matched. -/
structure Closes (us : List Lexeme) (i j : ℕ) : Prop where
  behind : i < j
  closing : ∃ close ∈ us[j]?, close.isClosing = true
  matched : Matched (between us i j)

/-- A list cut at a place and behind an earlier one. -/
theorem drop_eq_between {us : List Lexeme} {i j : ℕ} (hij : i < j) {u : Lexeme}
    (hu : us[j]? = some u) : us.drop (i + 1) = between us i j ++ u :: us.drop (j + 1) := by
  obtain ⟨hj, rfl⟩ := List.getElem?_eq_some_iff.mp hu
  have hcut := List.take_append_drop (j - (i + 1)) (us.drop (i + 1))
  rw [List.drop_drop, show i + 1 + (j - (i + 1)) = j by omega] at hcut
  rw [between, List.drop_take, ← List.drop_eq_getElem_cons hj, hcut]

theorem length_between {us : List Lexeme} {i j : ℕ} (hij : i < j) {u : Lexeme}
    (hu : us[j]? = some u) : i + 1 + (between us i j).length = j := by
  obtain ⟨hj, -⟩ := List.getElem?_eq_some_iff.mp hu
  rw [between, List.length_drop, List.length_take]
  omega

theorem closingPlace?_eq_some_iff {us : List Lexeme} {i j : ℕ} :
    closingPlace? us i = some j ↔ Closes us i j := by
  rw [closingPlace?, Option.map_eq_some_iff]
  constructor
  · rintro ⟨⟨inside, close, rest⟩, hfound, rfl⟩
    obtain ⟨hdrop, hclose, hinside⟩ := closing?_eq_some_iff.mp hfound
    refine ⟨Nat.lt_of_lt_of_le (Nat.lt_succ_self i) (Nat.le_add_right ..), ⟨close, ?_, hclose⟩, ?_⟩
    · rw [Option.mem_def, ← List.getElem?_drop, hdrop]
      simp
    · rw [between, List.drop_take, hdrop, Nat.add_sub_cancel_left, List.take_left' rfl]
      exact balanced_iff_matched.mp hinside
  · rintro ⟨hij, ⟨close, hj, hclose⟩, hmatched⟩
    refine ⟨(between us i j, close, us.drop (j + 1)), ?_, length_between hij hj⟩
    exact closing?_eq_some_iff.mpr
      ⟨drop_eq_between hij hj, hclose, balanced_iff_matched.mpr hmatched⟩

theorem closingPlace?_eq_none_iff {us : List Lexeme} {i : ℕ} :
    closingPlace? us i = none ↔ ∀ j, ¬Closes us i j := by
  simp only [Option.eq_none_iff_forall_ne_some, ne_eq, closingPlace?_eq_some_iff]

/-! ## Clauses between commas -/

/-- Whether a lexeme is a comma outside parentheses, by what stands before it. -/
def endsClause (place : Lexeme × List Lexeme) : Bool :=
  place.1.isPunct "," && nesting place.2 = 0

/-- The pieces between the commas outside parentheses. -/
def pieces (us : List Lexeme) : List (List Lexeme) :=
  ((places us).splitOnP endsClause).map (·.map Prod.fst)

/-- There is no comma outside parentheses. -/
def Uncut (us : List Lexeme) : Prop :=
  ∀ front comma back, us = front ++ comma :: back → comma.isPunct "," = true → nesting front ≠ 0

theorem nesting_snoc (front : List Lexeme) (u : Lexeme) :
    nesting (front ++ [u]) =
      if u.isOpening then nesting front + 1 else if u.isClosing then nesting front - 1
      else nesting front := by
  rw [nesting_append, nesting, nesting]
  cases ho : u.isOpening with
  | true => simp [ho, isClosing_of_isOpening ho]
  | false => cases hc : u.isClosing <;> simp [ho, hc, sub_eq_add_neg]

theorem comma_not_parenthesis {u : Lexeme} (h : u.isPunct "," = true) :
    u.isOpening = false ∧ u.isClosing = false := by
  simp only [isPunct, Bool.and_eq_true, decide_eq_true_eq] at h
  simp [isOpening, isClosing, isPunct, h.2]

/-- A comma outside parentheses ends the clause so far. -/
theorem clausesFrom_cut {front : List Lexeme} {u : Lexeme} (h : endsClause (u, front) = true)
    (current us : List Lexeme) :
    clausesFrom (nesting front) current (u :: us) =
      consPiece current (clausesFrom (nesting (front ++ [u])) [] us) := by
  simp only [endsClause, Bool.and_eq_true, decide_eq_true_eq] at h
  obtain ⟨ho, hc⟩ := comma_not_parenthesis h.1
  simp [clausesFrom, nesting_snoc, ho, hc, h.1, h.2]

/-- Any other lexeme goes on with the clause so far. -/
theorem clausesFrom_go {front : List Lexeme} {u : Lexeme} (h : endsClause (u, front) = false)
    (current us : List Lexeme) :
    clausesFrom (nesting front) current (u :: us) =
      clausesFrom (nesting (front ++ [u])) (current ++ [u]) us := by
  rw [endsClause] at h
  simp only [clausesFrom, h, Bool.false_eq_true, if_false, nesting_snoc]
  split_ifs <;> rfl

theorem filter_cons_piece (piece : List Lexeme) (pieces : List (List Lexeme)) :
    (piece :: pieces).filter (· ≠ []) = consPiece piece (pieces.filter (· ≠ [])) := by
  cases piece <;> simp [consPiece]

theorem clausesFrom_nesting (front current us : List Lexeme) :
    clausesFrom (nesting front) current us =
      ((((placesFrom front us).splitOnP endsClause).map (·.map Prod.fst)).modifyHead
        (current ++ ·)).filter (· ≠ []) := by
  induction us generalizing front current with
  | nil =>
    rw [placesFrom, List.splitOnP_nil, List.map_singleton, List.map_nil, List.modifyHead_cons,
      List.append_nil, filter_cons_piece]
    rfl
  | cons u us ih =>
    rw [placesFrom, List.splitOnP_cons_eq_if_modifyHead]
    obtain ⟨piece, later, hrest⟩ :=
      List.exists_cons_of_ne_nil (List.splitOnP_ne_nil endsClause (placesFrom (front ++ [u]) us))
    have hnext := ih (front ++ [u])
    simp only [hrest, List.map_cons, List.modifyHead_cons, filter_cons_piece] at hnext ⊢
    cases hends : endsClause (u, front) with
    | true =>
      rw [clausesFrom_cut hends, hnext]
      simp only [if_true, List.map_cons, List.map_nil, List.modifyHead_cons, List.append_nil,
        List.nil_append, filter_cons_piece]
    | false =>
      rw [clausesFrom_go hends, hnext]
      simp only [Bool.false_eq_true, if_false, List.map_cons, List.modifyHead_cons,
        List.append_assoc, List.singleton_append, filter_cons_piece]

/-- Cutting at commas gives the pieces between them, but for the empty ones. -/
theorem clauses_eq_filter_pieces (us : List Lexeme) : clauses us = (pieces us).filter (· ≠ []) := by
  refine (clausesFrom_nesting [] [] us).trans (congrArg _ ?_)
  rw [pieces, places]
  cases ((placesFrom [] us).splitOnP endsClause).map (·.map Prod.fst) <;> rfl

/-! ## Clauses of a group -/

theorem depthAfter?_snoc {cut : Lexeme → Bool} {us : List Lexeme} {u : Lexeme}
    {depth depth' depth'' : ℕ} (hus : depthAfter? cut depth us = some depth')
    (hu : depthAfter? cut depth' [u] = some depth'') :
    depthAfter? cut depth (us ++ [u]) = some depth'' := by
  rw [depthAfter?_append, hus]
  exact hu

/-- A clause so far, with what follows it closed in the end, leads to solid clauses only. -/
theorem solid_of_mem_clausesFrom {depth : ℕ} {current us c : List Lexeme}
    (hcurrent : depthAfter? cutsClause 0 current = some depth)
    (hus : depthAfter? (fun _ => false) depth us = some 0)
    (hmem : c ∈ clausesFrom depth current us) : Solid cutsClause c := by
  induction us generalizing depth current with
  | nil =>
    obtain rfl : depth = 0 := Option.some.inj hus
    obtain ⟨-, rfl⟩ | hmem := mem_consPiece.mp hmem
    · exact hcurrent
    · cases hmem
  | cons u us ih =>
    simp only [depthAfter?, Bool.false_and, Bool.false_eq_true, if_false] at hus
    simp only [clausesFrom] at hmem
    by_cases ho : u.isOpening = true
    · rw [if_pos ho] at hus hmem
      exact ih (depthAfter?_snoc hcurrent (by simp [depthAfter?, ho])) hus hmem
    rw [if_neg ho] at hus hmem
    by_cases hc : u.isClosing = true
    · rw [if_pos hc] at hus hmem
      obtain ⟨hpos, hus⟩ : depth ≠ 0 ∧ depthAfter? (fun _ => false) (depth - 1) us = some 0 := by
        split_ifs at hus with hzero
        exact ⟨hzero, hus⟩
      have hu : depthAfter? cutsClause depth [u] = some (depth - 1) := by
        simp [depthAfter?, ho, hc, hpos]
      refine ih (depthAfter?_snoc hcurrent hu) hus ?_
      rwa [Nat.cast_sub (Nat.one_le_iff_ne_zero.mpr hpos)]
    rw [if_neg hc] at hus hmem
    by_cases hcomma : (u.isPunct "," && decide ((depth : ℤ) = 0)) = true
    · rw [if_pos hcomma] at hmem
      simp only [Bool.and_eq_true, decide_eq_true_eq, Nat.cast_eq_zero] at hcomma
      obtain ⟨-, rfl⟩ := hcomma
      obtain ⟨-, rfl⟩ | hmem := mem_consPiece.mp hmem
      · exact hcurrent
      · exact ih rfl hus hmem
    · rw [if_neg hcomma] at hmem
      have hgo : (cutsClause u && decide (depth = 0)) = false := by
        simpa [cutsClause] using hcomma
      exact ih (depthAfter?_snoc hcurrent (by simp [depthAfter?, ho, hc, hgo])) hus hmem

theorem solid_of_mem_clauses {us c : List Lexeme} (hus : Balanced us) (hc : c ∈ clauses us) :
    Solid cutsClause c := by
  have hnone : depthAfter? cutsClause 0 [] = some 0 := rfl
  exact solid_of_mem_clausesFrom hnone hus hc

theorem Solid.uncut {us : List Lexeme} (h : Solid cutsClause us) : Uncut us := by
  rintro front u back rfl hu
  obtain ⟨ho, hc⟩ := comma_not_parenthesis hu
  rw [Solid, depthAfter?_append, Option.bind_eq_some_iff] at h
  obtain ⟨depth, hfront, hback⟩ := h
  have hcount := (depthAfter?_eq_some_iff.mp (depthAfter?_uncut hfront)).2
  simp only [depthAfter?, cutsClause, ho, hc, hu, Bool.false_eq_true, if_false, Bool.true_and,
    decide_eq_true_eq] at hback
  split_ifs at hback with hzero
  rw [nesting]
  omega

theorem ne_nil_of_mem_clauses {us c : List Lexeme} (h : c ∈ clauses us) : c ≠ [] := by
  rw [clauses_eq_filter_pieces] at h
  simpa using (List.mem_filter.mp h).2

/-- A parenthesis that opens in balanced lexemes is closed there. -/
theorem Balanced.exists_closes {us : List Lexeme} (h : Balanced us) {i : ℕ} {u : Lexeme}
    (hi : us[i]? = some u) (hu : u.isOpening = true) : ∃ j, Closes us i j := by
  obtain ⟨hlt, rfl⟩ := List.getElem?_eq_some_iff.mp hi
  obtain ⟨depth, hrest⟩ := closed_of_suffix (List.drop_suffix i us) h
  rw [List.drop_eq_getElem_cons hlt] at hrest
  obtain ⟨inside, close, rest, hfound⟩ := exists_closing?_of_closed hrest hu
  exact ⟨_, closingPlace?_eq_some_iff.mp (by rw [closingPlace?, hfound]; rfl)⟩

end Schemata.Lexeme
