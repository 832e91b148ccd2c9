import Mathlib.Data.List.Basic
import Mathlib.Tactic
import Schemata.Proofs.Lexeme.Depth

/-!
# The statements of a script

Cutting a script into statements drops the semicolons outside parentheses and nothing else. No
statement is empty or runs on over a place to cut at, so that a statement by itself is not cut
again, and where no parenthesis is open a semicolon separates what can be cut on its own.
Parentheses need not be balanced for any of this.
-/
namespace Schemata.Lexeme

/-! ## Lexemes in their places -/

/-- Some lexemes, each with all that stands before it, where `front` comes first. -/
def placesFrom (front : List Lexeme) : List Lexeme → List (Lexeme × List Lexeme)
  | [] => []
  | u :: us => (u, front) :: placesFrom (front ++ [u]) us

/-- Some lexemes, each with all that stands before it. -/
def places (us : List Lexeme) : List (Lexeme × List Lexeme) := placesFrom [] us

/-- Whether a lexeme is a semicolon outside parentheses, by what stands before it. -/
def endsStatement (place : Lexeme × List Lexeme) : Bool :=
  place.1.isPunct ";" && openAfter 0 place.2 = 0

theorem openAfter_append (depth : ℕ) (us vs : List Lexeme) :
    openAfter depth (us ++ vs) = openAfter (openAfter depth us) vs := by
  induction us generalizing depth with
  | nil => rfl
  | cons u us ih =>
    simp only [List.cons_append, openAfter]
    split_ifs <;> exact ih _

theorem openAfter_of_cuts {u : Lexeme} (h : cutsStatement u = true) (depth : ℕ) :
    openAfter depth [u] = depth := by
  obtain ⟨ho, hc⟩ := cuts_not_parenthesis h
  simp [openAfter, ho, hc]

/-! ## One lexeme at a time -/

/-- A lexeme that is not cut at goes on with the statement so far. -/
theorem statementsFrom_go {depth : ℕ} {u : Lexeme}
    (h : ¬(cutsStatement u = true ∧ depth = 0)) (current us : List Lexeme) :
    statementsFrom depth current (u :: us) =
      statementsFrom (openAfter depth [u]) (current ++ [u]) us := by
  simp only [statementsFrom, openAfter]
  split_ifs with ho hc hsemi hcreate
  · rfl
  · rfl
  · refine absurd ?_ h
    simpa [cutsStatement] using And.imp_left Or.inl ((Bool.and_eq_true _ _).mp hsemi)
  · refine absurd ?_ h
    simpa [cutsStatement] using And.imp_left Or.inr ((Bool.and_eq_true _ _).mp hcreate)
  · rfl

theorem statements_semicolon {u : Lexeme} (h : u.isPunct ";" = true) (us : List Lexeme) :
    statements (u :: us) = statements us := by
  have hmarks : ∀ v ∈ [u], v.isPunct ";" = true := by simpa using h
  exact statements_semicolons hmarks us

/-- Whatever is no semicolon opens a statement. -/
theorem statements_open {u : Lexeme} (h : u.isPunct ";" = false) (us : List Lexeme) :
    statements (u :: us) = statementsFrom (openAfter 0 [u]) [u] us := by
  by_cases hcut : cutsStatement u = true
  · obtain ⟨ho, hc⟩ := cuts_not_parenthesis hcut
    have hcreate : u.isWord ["CREATE"] = true := by simpa [cutsStatement, h] using hcut
    simp [statements, statementsFrom, openAfter, ho, hc, h, hcreate, consPiece_nil]
  · exact statementsFrom_go (fun hu => hcut hu.1) [] us

theorem mem_consPiece {piece s : List Lexeme} {pieces : List (List Lexeme)} :
    s ∈ consPiece piece pieces ↔ piece ≠ [] ∧ s = piece ∨ s ∈ pieces := by
  cases piece <;> simp [consPiece]

/-! ## Nothing is lost -/

theorem flatten_statementsFrom (front current us : List Lexeme) :
    (statementsFrom (openAfter 0 front) current us).flatten =
      current ++ ((placesFrom front us).filter (!endsStatement ·)).map Prod.fst := by
  induction us generalizing front current with
  | nil => simp [statementsFrom, flatten_consPiece, placesFrom]
  | cons u us ih =>
    have hnext := openAfter_append 0 front [u]
    by_cases hcut : cutsStatement u = true ∧ openAfter 0 front = 0
    · obtain ⟨hu, hzero⟩ := hcut
      rw [openAfter_of_cuts hu, hzero] at hnext
      rw [hzero, statementsFrom_cut current hu, flatten_consPiece, placesFrom]
      cases hsemi : u.isPunct ";" with
      | true =>
        rw [statements_semicolon hsemi, statements, ← hnext, ih,
          List.filter_cons_of_neg (by simp [endsStatement, hsemi, hzero]), List.nil_append]
      | false =>
        rw [statements_open hsemi, openAfter_of_cuts hu, ← hnext, ih,
          List.filter_cons_of_pos (by simp [endsStatement, hsemi])]
        rfl
    · have hkept : endsStatement (u, front) = false := by
        refine Bool.eq_false_iff.mpr fun hends => hcut ?_
        simp only [endsStatement, Bool.and_eq_true, decide_eq_true_eq] at hends
        exact ⟨by rw [cutsStatement, hends.1, Bool.true_or], hends.2⟩
      rw [statementsFrom_go hcut, ← hnext, ih, placesFrom,
        List.filter_cons_of_pos (by simp [hkept]), List.append_assoc]
      rfl

/-! ## Nothing is merged -/

/-- A statement in one piece: outside parentheses there is nothing to cut at, but for a `CREATE` at
the front. -/
structure Whole (s : List Lexeme) : Prop where
  ne_nil : s ≠ []
  uncut : ∀ front u back, s = front ++ u :: back → openAfter 0 front = 0 →
    cutsStatement u = true → front = [] ∧ u.isPunct ";" = false

theorem whole_singleton {u : Lexeme} (h : u.isPunct ";" = false) : Whole [u] where
  ne_nil := List.cons_ne_nil u []
  uncut := by
    intro front v back hs _ _
    obtain ⟨rfl, hv⟩ | ⟨_, _, hback⟩ := List.singleton_eq_append_iff.mp hs
    · exact ⟨rfl, (List.cons.inj hv).1 ▸ h⟩

/-- A statement in one piece stays one if a lexeme is added that is not cut at. -/
theorem whole_snoc {current : List Lexeme} {u : Lexeme} (h : current = [] ∨ Whole current)
    (hu : ¬(cutsStatement u = true ∧ openAfter 0 current = 0)) : Whole (current ++ [u]) where
  ne_nil := by simp
  uncut := by
    intro front v back hs hfront hv
    -- a place to cut at is the new lexeme or one that stands in the statement so far
    obtain rfl | ⟨back, last, rfl⟩ := List.eq_nil_or_concat back
    · obtain ⟨rfl, hlast⟩ := List.append_inj' hs rfl
      obtain rfl := (List.cons.inj hlast).1
      exact absurd ⟨hv, hfront⟩ hu
    · rw [List.concat_eq_append, ← List.cons_append, ← List.append_assoc] at hs
      obtain ⟨rfl, -⟩ := List.append_inj' hs rfl
      obtain h | h := h
      · simp at h
      · exact h.uncut front v back rfl hfront hv

theorem whole_of_mem_statementsFrom {current us s : List Lexeme}
    (hcurrent : current = [] ∨ Whole current)
    (hs : s ∈ statementsFrom (openAfter 0 current) current us) : Whole s := by
  induction us generalizing current with
  | nil =>
    obtain ⟨hne, rfl⟩ | hs := mem_consPiece.mp hs
    · exact hcurrent.resolve_left hne
    · cases hs
  | cons u us ih =>
    by_cases hcut : cutsStatement u = true ∧ openAfter 0 current = 0
    · obtain ⟨hu, hzero⟩ := hcut
      rw [hzero, statementsFrom_cut current hu] at hs
      obtain ⟨hne, rfl⟩ | hs := mem_consPiece.mp hs
      · exact hcurrent.resolve_left hne
      · cases hsemi : u.isPunct ";" with
        | true =>
          rw [statements_semicolon hsemi] at hs
          exact ih (Or.inl rfl) hs
        | false =>
          rw [statements_open hsemi] at hs
          exact ih (Or.inr (whole_singleton hsemi)) hs
    · rw [statementsFrom_go hcut, ← openAfter_append] at hs
      exact ih (Or.inr (whole_snoc hcurrent hcut)) hs

theorem whole_of_mem_statements {us s : List Lexeme} (hs : s ∈ statements us) : Whole s := by
  have hnone : ([] : List Lexeme) = [] ∨ Whole [] := Or.inl rfl
  exact whole_of_mem_statementsFrom hnone hs

theorem statementsFrom_of_whole (current : List Lexeme) {us : List Lexeme}
    (h : Whole (current ++ us)) :
    statementsFrom (openAfter 0 current) current us = [current ++ us] := by
  induction us generalizing current with
  | nil =>
    rw [List.append_nil] at h ⊢
    exact consPiece_of_ne_nil h.ne_nil []
  | cons u us ih =>
    have hmore : current ++ u :: us = current ++ [u] ++ us := by simp
    have hgo := ih (current ++ [u]) (hmore ▸ h)
    rw [← hmore] at hgo
    by_cases hcut : cutsStatement u = true ∧ openAfter 0 current = 0
    · obtain ⟨rfl, hsemi⟩ := h.uncut current u us rfl hcut.2 hcut.1
      exact (statements_open hsemi us).trans hgo
    · rw [statementsFrom_go hcut, ← openAfter_append]
      exact hgo

/-- A statement in one piece is not cut. -/
theorem Whole.statements_eq {s : List Lexeme} (h : Whole s) : statements s = [s] :=
  statementsFrom_of_whole [] h

/-! ## Where statements begin -/

/-- The first statement begins with what has been read of it. -/
theorem exists_statementsFrom_eq {current : List Lexeme} (hne : current ≠ []) (depth : ℕ)
    (us : List Lexeme) :
    ∃ more rest, statementsFrom depth current us = (current ++ more) :: rest := by
  induction us generalizing depth current with
  | nil => exact ⟨[], [], by rw [statementsFrom, consPiece_of_ne_nil hne, List.append_nil]⟩
  | cons u us ih =>
    by_cases hcut : cutsStatement u = true ∧ depth = 0
    · obtain ⟨hu, rfl⟩ := hcut
      refine ⟨[], statements (u :: us), ?_⟩
      rw [statementsFrom_cut current hu, consPiece_of_ne_nil hne, List.append_nil]
    · have hlonger : current ++ [u] ≠ [] := by simp
      obtain ⟨more, rest, h⟩ := ih hlonger (openAfter depth [u])
      exact ⟨u :: more, rest, by rw [statementsFrom_go hcut, h, List.append_assoc]; rfl⟩

/-- A `CREATE` outside parentheses begins a statement, and what stands before it is cut on its
own. -/
theorem exists_statements_eq {front : List Lexeme} {create : Lexeme}
    (hcreate : create.isWord ["CREATE"] = true) (hfront : openAfter 0 front = 0)
    (back : List Lexeme) :
    ∃ more rest, statements (front ++ create :: back) =
      statements front ++ (create :: more) :: rest := by
  have hcut : cutsStatement create = true := by rw [cutsStatement, hcreate, Bool.or_true]
  have hsemi : create.isPunct ";" = false := by
    simp only [isWord, Bool.and_eq_true, decide_eq_true_eq] at hcreate
    simp [isPunct, hcreate.1]
  obtain ⟨more, rest, h⟩ := exists_statementsFrom_eq (List.cons_ne_nil create [])
    (openAfter 0 [create]) back
  refine ⟨more, rest, ?_⟩
  rw [statements_append_of_closed hfront hcut, statements_open hsemi, h]
  rfl

/-! ## Statements as a partition -/

/-- Statements hold every lexeme but the semicolons outside parentheses. None is empty, none is cut
again, and none holds a `CREATE` outside parentheses but at its front, where every such `CREATE` of
the script stands. Behind lexemes that leave no parenthesis open, a semicolon separates. -/
theorem statements_partition (us : List Lexeme) :
    (statements us).flatten = ((places us).filter (!endsStatement ·)).map Prod.fst ∧
      (∀ s ∈ statements us, s ≠ [] ∧ statements s = [s] ∧
        ∀ front create back, s = front ++ create :: back → create.isWord ["CREATE"] = true →
          openAfter 0 front = 0 → front = []) ∧
      (∀ front create back, us = front ++ create :: back → create.isWord ["CREATE"] = true →
        openAfter 0 front = 0 →
          ∃ more rest, statements us = statements front ++ (create :: more) :: rest) ∧
      ∀ semicolon vs, openAfter 0 us = 0 → semicolon.isPunct ";" = true →
        statements (us ++ semicolon :: vs) = statements us ++ statements vs := by
  refine ⟨flatten_statementsFrom [] [] us, fun s hs => ?_, ?_, fun semicolon vs hus hsemi => ?_⟩
  · have hwhole := whole_of_mem_statements hs
    refine ⟨hwhole.ne_nil, hwhole.statements_eq, fun front create back hcut hcreate hfront => ?_⟩
    exact (hwhole.uncut front create back hcut hfront
      (by rw [cutsStatement, hcreate, Bool.or_true])).1
  · rintro front create back rfl hcreate hfront
    exact exists_statements_eq hcreate hfront back
  · have hcut : cutsStatement semicolon = true := by rw [cutsStatement, hsemi, Bool.true_or]
    rw [statements_append_of_closed hus hcut, statements_semicolon hsemi]

/-- A parenthesis is closed that none has opened, and a `CREATE` and a semicolon stand in a
group. -/
theorem statements_partition_unbalanced :
    let mark (text : String) : Lexeme := ⟨text, .punct, 0, 0⟩
    let word (text : String) : Lexeme := ⟨text, .word, 0, 0⟩
    let first := [word "a", mark ")"]
    let second := [word "create", mark "(", mark ";", word "CREATE", mark ")"]
    let us := mark ";" :: first ++ second
    statements us = [first, second] ∧
      (statements us).flatten = ((places us).filter (!endsStatement ·)).map Prod.fst ∧
      (second ∈ statements us ∧ second ≠ [] ∧ statements second = [second] ∧
        second = [] ++ word "create" :: second.tail ∧
          (word "create").isWord ["CREATE"] = true ∧ openAfter 0 [] = 0 ∧
          ([] : List Lexeme) = []) ∧
      (us = (mark ";" :: first) ++ word "create" :: second.tail ∧
        openAfter 0 (mark ";" :: first) = 0 ∧
        ∃ more rest,
          statements us = statements (mark ";" :: first) ++ (word "create" :: more) :: rest) ∧
      openAfter 0 us = 0 ∧ (mark ";").isPunct ";" = true ∧
        statements (us ++ mark ";" :: first) = statements us ++ statements first := by
  intro mark word first second us
  have hus : statements us = [first, second] := by decide
  have hmem : second ∈ statements us := by decide
  have hcreate : (word "create").isWord ["CREATE"] = true := by decide
  have hsemi : (mark ";").isPunct ";" = true := by decide
  have hfront : openAfter 0 (mark ";" :: first) = 0 := by decide
  have hclosed : openAfter 0 us = 0 := by decide
  obtain ⟨hflat, hwhole, hbegin, hjoin⟩ := statements_partition us
  obtain ⟨hne, hagain, hfirst⟩ := hwhole second hmem
  exact ⟨hus, hflat,
    ⟨hmem, hne, hagain, rfl, hcreate, rfl, hfirst [] (word "create") second.tail rfl hcreate rfl⟩,
    ⟨rfl, hfront, hbegin _ _ _ rfl hcreate hfront⟩, hclosed, hsemi, hjoin _ first hclosed hsemi⟩

end Schemata.Lexeme
