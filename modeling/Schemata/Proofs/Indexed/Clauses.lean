import Mathlib.Data.List.Basic
import Mathlib.Tactic
import Schemata.Proofs.Indexed.Phrases
import Schemata.Script.Draft

/-!
# Clauses by index

Columns and table constraints, read by an index. The loop over the constraints of a column moves on
only by what the phrase readers hand back, and still every turn leaves fewer lexemes.
-/
namespace Schemata.Indexed

open Lexeme Script

/-- The source text from the first to the last of some lexemes. -/
def sourceText (source : List Char) (us : List Lexeme) : Checked String := do
  if us.isEmpty then return ""
  else return Lexeme.sourceText source [← item us 0, ← item us (us.length - 1)]

theorem sourceText_eq (source : List Char) (us : List Lexeme) :
    sourceText source us = .ok (Lexeme.sourceText source us) := by
  cases us with
  | nil => rfl
  | cons u us =>
    have h : (u :: us).drop 0 = u :: us := rfl
    rw [sourceText, if_neg (by simp), item_of_drop h, ok_bind, item_of_drop (drop_pred_length h)]
    simp [Lexeme.sourceText, List.getLast?_cons]

/-! ## Columns -/

/-- Where the loop over the constraints of a column is. -/
structure ColumnState where
  index : ℕ
  depth : ℤ := 0
  traits : ColumnTraits := {}

/-- Whether a lexeme is a keyword and another one stands behind its index. -/
def thenIs (us : List Lexeme) (i : ℕ) (u : Lexeme) (first second : String) : Checked Bool := do
  if u.isWord [first] then holds us (i + 1) (·.isWord [second]) else return false

section Tolerant

variable (tolerant : Bool)

/-- One turn of the loop over the constraints of a column. -/
def columnPart (source : List Char) (us : List Lexeme) (s : ColumnState) :
    Checked (Option ColumnState) := do
  if s.index < us.length then
    let u ← item us s.index
    if u.isOpening then return some { s with index := s.index + 1, depth := s.depth + 1 }
    else if u.isClosing then return some { s with index := s.index + 1, depth := s.depth - 1 }
    else if 0 < s.depth then return some { s with index := s.index + 1 }
    else if ← thenIs us s.index u "NOT" "NULL" then
      return some ⟨s.index + 2, s.depth, { s.traits with notNull := true }⟩
    else if ← thenIs us s.index u "PRIMARY" "KEY" then
      return some ⟨s.index + 2, s.depth, { s.traits with primaryKey := true }⟩
    else if u.isWord ["REFERENCES"] then
      let (target, j) ← reference tolerant us (s.index + 1)
      return some ⟨j, s.depth, s.traits.addReference target⟩
    else if u.isWord ["DEFAULT"] then
      let (value, j) ← default? tolerant source us (s.index + 1)
      return some ⟨j, s.depth, { s.traits with defaultValue := value }⟩
    else return some { s with index := s.index + 1 }
  else return none

/-- Reads a column definition. -/
def addColumn (source : List Char) (d : Draft) (clause : List Lexeme) : Checked Draft := do
  let text ← sourceText source clause
  if clause.length < 2 then return d.report (.unreadableColumn d.name text)
  else if !(← item clause 0).isName then return d.report (.unreadableColumn d.name text)
  else
    let name := (← item clause 0).identifier
    if (d.field? name).isSome then return d.report (.duplicateColumn d.name text name)
    else
      let type := typeText (← item clause 1)
      let traits := (← loop (columnPart tolerant source clause) clause.length { index := 2 }).traits
      return { d with
        fields := d.fields ++ [columnField name type traits]
        pending := d.pending ++ (traits.target.map (Pending.mk name)).toList
        issues := d.issues ++ traits.faults.map (Draft.referenceIssue d.name text) }

/-! ## Constraints -/

/-- Reads what follows `FOREIGN KEY`. -/
def addForeignKey (d : Draft) (text : String) (clause : List Lexeme) (i : ℕ) : Checked Draft := do
  let (columns, j) ← nameList tolerant clause i
  if ← holds clause j (·.isWord ["REFERENCES"]) then
    match (← reference tolerant clause (j + 1)).1 with
    | .error fault => return d.report (Draft.referenceIssue d.name text fault)
    | .ok target =>
      if columns.length = 1 then return d.addTarget text [← item columns 0] target
      else return d.report (.compositeForeignKey d.name text columns)
  else return d.report (.foreignKeyToNothing d.name text)

/-- Reads a table constraint. -/
def addConstraint (source : List Char) (d : Draft) (clause : List Lexeme) : Checked Draft := do
  let text ← sourceText source clause
  let i := if (← item clause 0).isWord ["CONSTRAINT"] then 2 else 0
  if ← pairIs clause i "PRIMARY" "KEY" then
    let (columns, _) ← nameList tolerant clause (i + 2)
    if columns.length = 1 then
      let name ← item columns 0
      if (d.field? name).isSome then return d.setPrimaryKey name
      else return d.report (.unknownKeyColumn d.name text name)
    else return d.report (.compositePrimaryKey d.name text columns)
  else if ← pairIs clause i "FOREIGN" "KEY" then addForeignKey tolerant d text clause (i + 2)
  else return d.report (.unmodeledConstraint d.name text)

end Tolerant

/-- Whether a clause is a table constraint. -/
def isTableConstraint (clause : List Lexeme) : Checked Bool := do
  let first ← item clause 0
  if first.isWord ["CONSTRAINT", "EXCLUDE", "FULLTEXT", "SPATIAL"] then return true
  else if ← pairIs clause 0 "PRIMARY" "KEY" then return true
  else if ← pairIs clause 0 "FOREIGN" "KEY" then return true
  else if first.isWord ["UNIQUE", "CHECK"] then return !(← holds clause 1 isKnownType)
  else if first.isWord ["INDEX", "KEY"] then
    if 1 < clause.length then
      let second ← item clause 1
      if second.isOpening then return true
      else if ← holds clause 2 isOpening then return !isKnownType second
      else return false
    else return false
  else return false

/-- Reads the clauses of a table body: columns at once, constraints when all columns are known. -/
def ofClauses (tolerant : Bool) (source : List Char) (name : String)
    (clauses : List (List Lexeme)) : Checked Draft := do
  let (d, constraints) ← clauses.foldlM (fun s clause => do
    if ← isTableConstraint clause then return (s.1, s.2 ++ [clause])
    else return (← addColumn tolerant source s.1 clause, s.2)) (⟨name, [], [], []⟩, [])
  constraints.foldlM (addConstraint tolerant source) d

/-! ## What they read -/

section Columns

variable {tolerant : Bool} {us : List Lexeme}

theorem thenIs_eq {i : ℕ} {u : Lexeme} {rest : List Lexeme} (h : us.drop i = u :: rest)
    (first second : String) :
    thenIs us i u first second = .ok (u.isWord [first] && Phrase.nextIs second rest) := by
  rw [thenIs]
  cases u.isWord [first] with
  | false => rfl
  | true =>
    rw [if_pos rfl, holds_isWord, drop_succ_of_drop h]
    rfl

/-- One turn of the loop over the constraints of a column: there is nothing left, or less is left
and what is still to be read stays the same. -/
theorem columnPart_cases (hclose : tolerant = true ∨ GroupsClose us) (source : List Char)
    (s : ColumnState) :
    columnPart tolerant source us s = .ok none ∧
        columnTraits source s.depth s.traits (us.drop s.index) = s.traits ∨
      ∃ next, columnPart tolerant source us s = .ok (some next) ∧
        (us.drop next.index).length < (us.drop s.index).length ∧
          columnTraits source s.depth s.traits (us.drop s.index) =
            columnTraits source next.depth next.traits (us.drop next.index) := by
  obtain ⟨i, depth, traits⟩ := s
  simp only [columnPart]
  cases h : us.drop i with
  | nil =>
    refine Or.inl ⟨?_, by rw [columnTraits]⟩
    rw [if_neg (Nat.not_lt.mpr (List.drop_eq_nil_iff.mp h))]
    rfl
  | cons u rest =>
    have hnext := drop_succ_of_drop h
    have hpair : us.drop (i + 2) = rest.drop 1 := by rw [← hnext, List.drop_drop]
    have hless : ∀ {j after}, us.drop j = after → after <:+ rest →
        (us.drop j).length < (u :: rest).length := fun hj hsuffix =>
      hj ▸ Nat.lt_succ_of_le hsuffix.length_le
    refine Or.inr ?_
    simp only [if_pos (lt_length_of_drop h), item_of_drop h, ok_bind, thenIs_eq h]
    rw [columnTraits]
    split
    · exact ⟨_, rfl, hless hnext List.suffix_rfl, by rw [hnext]⟩
    split
    · exact ⟨_, rfl, hless hnext List.suffix_rfl, by rw [hnext]⟩
    split
    · exact ⟨_, rfl, hless hnext List.suffix_rfl, by rw [hnext]⟩
    split
    · exact ⟨_, rfl, hless hpair (List.drop_suffix 1 rest), by rw [hpair]⟩
    split
    · exact ⟨_, rfl, hless hpair (List.drop_suffix 1 rest), by rw [hpair]⟩
    split
    -- the index that a reader hands back may lie behind the end; what is left there is a suffix
    · obtain ⟨j, hread, hj⟩ := reads_reference hclose (i + 1)
      rw [hnext] at hread hj
      exact ⟨_, by rw [hread]; rfl, hless hj (Phrase.reference_suffix rest), by rw [hj]⟩
    split
    · obtain ⟨j, hread, hj⟩ := reads_default? hclose source (i + 1)
      rw [hnext] at hread hj
      exact ⟨_, by rw [hread]; rfl, hless hj (Phrase.default?_suffix source rest), by rw [hj]⟩
    · exact ⟨_, rfl, hless hnext List.suffix_rfl, by rw [hnext]⟩

theorem exists_columnPart_eq (hclose : tolerant = true ∨ GroupsClose us) (source : List Char)
    (s : ColumnState) :
    ∃ t, loop (columnPart tolerant source us) us.length s = .ok t ∧
      t.traits = columnTraits source s.depth s.traits (us.drop s.index) :=
  exists_loop_eq (columnPart tolerant source us) (fun s => (us.drop s.index).length)
    (fun s => columnTraits source s.depth s.traits (us.drop s.index)) ColumnState.traits
    (columnPart_cases hclose source) (by simp)

theorem addColumn_eq (hclose : tolerant = true ∨ GroupsClose us) (source : List Char) (d : Draft) :
    addColumn tolerant source d us = .ok (d.addColumn source us) := by
  simp only [addColumn, sourceText_eq, ok_bind, Draft.addColumn]
  rcases us with _ | ⟨first, _ | ⟨second, rest⟩⟩
  · rfl
  · rfl
  · have hfirst : (first :: second :: rest).drop 0 = first :: second :: rest := rfl
    have hsecond : (first :: second :: rest).drop 1 = second :: rest := rfl
    obtain ⟨t, hloop, ht⟩ := exists_columnPart_eq hclose source { index := 2 }
    rw [if_neg (by simp), item_of_drop hfirst, item_of_drop hsecond, hloop]
    simp only [ok_bind, ht, List.drop_succ_cons, List.drop_zero]
    split
    · rfl
    · split <;> rfl

end Columns

section Constraints

variable {tolerant : Bool} {us : List Lexeme}

theorem addForeignKey_eq (hclose : tolerant = true ∨ GroupsClose us) (d : Draft) (text : String)
    (i : ℕ) : addForeignKey tolerant d text us i = .ok (d.addForeignKey text (us.drop i)) := by
  obtain ⟨j, hlist, hj⟩ := reads_nameList hclose i
  simp only [addForeignKey, hlist, ok_bind, Draft.addForeignKey]
  generalize Phrase.nameList (us.drop i) = found at hj
  obtain ⟨columns, rest⟩ := found
  cases rest with
  | nil =>
    rw [holds_of_drop_nil hj]
    rfl
  | cons u rest =>
    obtain ⟨k, hread, -⟩ := reads_reference hclose (j + 1)
    rw [drop_succ_of_drop hj] at hread
    simp only [holds_of_drop hj, ok_bind, hread]
    split
    · cases (Phrase.reference rest).1 with
      | error fault => rfl
      | ok target => rcases columns with _ | ⟨column, _ | ⟨more, columns⟩⟩ <;> rfl
    · rfl

theorem addConstraint_eq (hclose : tolerant = true ∨ GroupsClose us) (hne : us ≠ [])
    (source : List Char) (d : Draft) :
    addConstraint tolerant source d us = .ok (d.addConstraint source us) := by
  obtain ⟨u, rest, rfl⟩ := List.exists_cons_of_ne_nil hne
  have h : (u :: rest).drop 0 = u :: rest := rfl
  have hbody : Draft.unnamed (u :: rest) =
      (u :: rest).drop (if u.isWord ["CONSTRAINT"] then 2 else 0) := by
    rw [Draft.unnamed]
    split <;> rfl
  obtain ⟨j, hlist, -⟩ := reads_nameList hclose ((if u.isWord ["CONSTRAINT"] then 2 else 0) + 2)
  rw [← List.drop_drop, ← hbody] at hlist
  simp only [addConstraint, sourceText_eq, item_of_drop h, ok_bind, pairIs_eq, ← hbody, hlist,
    addForeignKey_eq hclose, ← List.drop_drop, Draft.addConstraint, Draft.addPrimaryKey]
  split
  · generalize (Phrase.nameList ((Draft.unnamed (u :: rest)).drop 2)).1 = columns
    rcases columns with _ | ⟨column, _ | ⟨more, columns⟩⟩
    · rfl
    · simp only [List.length_singleton, if_true, item, List.getElem?_cons_zero, ok_bind]
      split <;> rfl
    · rfl
  · split <;> rfl

theorem isTableConstraint_eq (hne : us ≠ []) :
    isTableConstraint us = .ok (Script.isTableConstraint us) := by
  obtain ⟨u, rest, rfl⟩ := List.exists_cons_of_ne_nil hne
  have h : (u :: rest).drop 0 = u :: rest := rfl
  have htail : (u :: rest).drop 1 = rest := rfl
  simp only [isTableConstraint, item_of_drop h, ok_bind, pairIs_eq, h, Script.isTableConstraint]
  split
  · rfl
  cases Phrase.pairIs "PRIMARY" "KEY" (u :: rest) with
  | true => rfl
  | false =>
    cases Phrase.pairIs "FOREIGN" "KEY" (u :: rest) with
    | true => rfl
    | false =>
      simp only [Bool.false_eq_true, if_false, Bool.or_self]
      split
      · rw [holds_eq, htail]
        rfl
      split
      · rcases rest with _ | ⟨v, rest⟩
        · rfl
        · have hrest : (u :: v :: rest).drop 2 = rest := rfl
          rw [if_pos (by simp), item_of_drop htail, holds_eq, hrest]
          simp only [ok_bind]
          cases v.isOpening with
          | true => rfl
          | false => cases ((rest.head?.map isOpening).getD false) <;> rfl
      · rfl

end Constraints

/-! ## Table bodies -/

/-- The clauses of a body whose parentheses are balanced are balanced themselves. -/
theorem groupsClose_of_balanced {us : List Lexeme} (h : Balanced us) : GroupsClose us := by
  intro i u hi hu
  obtain ⟨j, hj⟩ := h.exists_closes hi hu
  exact ⟨j, closingPlace?_eq_some_iff.mpr hj⟩

/-- Setting the constraints aside while columns are read is reading the columns only. -/
theorem foldl_setAside {α β : Type} (aside : α → Bool) (f : β → α → β) (xs : List α) (b : β)
    (kept : List α) :
    xs.foldl (fun s x => if aside x then (s.1, s.2 ++ [x]) else (f s.1 x, s.2)) (b, kept) =
      ((xs.filter (!aside ·)).foldl f b, kept ++ xs.filter aside) := by
  induction xs generalizing b kept with
  | nil => simp
  | cons x xs ih =>
    rw [List.foldl_cons]
    cases hx : aside x with
    | true =>
      rw [if_pos rfl, ih, List.filter_cons_of_neg (by simp [hx]), List.filter_cons_of_pos hx,
        List.append_assoc]
      rfl
    | false =>
      rw [if_neg (by simp), ih, List.filter_cons_of_pos (by simp [hx]),
        List.filter_cons_of_neg (by simp [hx])]
      rfl

theorem ofClauses_eq {tolerant : Bool} {clauses : List (List Lexeme)}
    (hclose : ∀ clause ∈ clauses, tolerant = true ∨ GroupsClose clause)
    (hne : ∀ clause ∈ clauses, clause ≠ []) (source : List Char) (name : String) :
    ofClauses tolerant source name clauses = .ok (Draft.ofClauses source name clauses) := by
  have hfirst := foldlM_eq_foldl clauses
    (f := fun (s : Draft × List (List Lexeme)) clause => do
      if ← isTableConstraint clause then return (s.1, s.2 ++ [clause])
      else return (← addColumn tolerant source s.1 clause, s.2))
    (g := fun s clause => if Script.isTableConstraint clause then (s.1, s.2 ++ [clause])
      else (s.1.addColumn source clause, s.2))
    (fun s clause hclause => by
      rw [isTableConstraint_eq (hne clause hclause), addColumn_eq (hclose clause hclause), ok_bind]
      split <;> rfl)
    (⟨name, [], [], []⟩, [])
  have hsecond := foldlM_eq_foldl (clauses.filter Script.isTableConstraint)
    (f := addConstraint tolerant source) (g := (·.addConstraint source))
    (fun d clause hclause => addConstraint_eq (hclose clause (List.mem_of_mem_filter hclause))
      (hne clause (List.mem_of_mem_filter hclause)) source d)
  rw [ofClauses, hfirst, ok_bind, foldl_setAside]
  exact hsecond _

/-! ## Groups and clauses agree -/

/-- The search for a closing parenthesis finds the only one that has matched lexemes before it, and
finds none exactly if there is none. Of what stands between, the clauses are the pieces between the
commas outside parentheses, but for the empty ones; all of them are matched and without such a
comma. So every parenthesis that opens in a clause is closed there, and columns and table
constraints are read without tolerance for any that is not. -/
theorem closing_agrees_with_clauses {us : List Lexeme} {i : ℕ} {u : Lexeme}
    (hi : us[i]? = some u) (hu : u.isOpening = true) :
    closing us i = .ok (closingPlace? us i) ∧
      (∀ j, closingPlace? us i = some j ↔ Closes us i j) ∧
      (∀ j j', Closes us i j → Closes us i j' → j = j') ∧
      (closingPlace? us i = none ↔ ∀ j, ¬Closes us i j) ∧
      ∀ j, Closes us i j →
        clauses (between us i j) = (pieces (between us i j)).filter (· ≠ []) ∧
          ∀ clause ∈ clauses (between us i j),
            Matched clause ∧ Uncut clause ∧ GroupsClose clause ∧
              ∀ source d, addColumn false source d clause = .ok (d.addColumn source clause) ∧
                addConstraint false source d clause = .ok (d.addConstraint source clause) := by
  have hdrop : us.drop i = u :: us.drop (i + 1) := by
    obtain ⟨hlt, rfl⟩ := List.getElem?_eq_some_iff.mp hi
    exact List.drop_eq_getElem_cons hlt
  refine ⟨closing_eq hdrop hu, fun j => closingPlace?_eq_some_iff, fun j j' hj hj' => ?_,
    closingPlace?_eq_none_iff, fun j hj => ⟨clauses_eq_filter_pieces _, fun clause hclause => ?_⟩⟩
  · have hplace := closingPlace?_eq_some_iff.mpr hj
    rw [closingPlace?_eq_some_iff.mpr hj'] at hplace
    exact (Option.some.inj hplace).symm
  · have hsolid := solid_of_mem_clauses (balanced_iff_matched.mpr hj.matched) hclause
    have hclose := groupsClose_of_balanced hsolid.balanced
    exact ⟨balanced_iff_matched.mp hsolid.balanced, hsolid.uncut, hclose, fun source d =>
      ⟨addColumn_eq (Or.inr hclose) source d,
        addConstraint_eq (Or.inr hclose) (ne_nil_of_mem_clauses hclause) source d⟩⟩

/-- A column with arguments of its type, nothing between two commas, and a key. -/
theorem closing_agrees_with_nested_clauses :
    let mark (text : String) : Lexeme := ⟨text, .punct, 0, 0⟩
    let word (text : String) : Lexeme := ⟨text, .word, 0, 0⟩
    let column := [word "price", word "numeric", mark "(", word "10", mark ",", word "2", mark ")"]
    let key := [word "primary", word "key", mark "(", word "price", mark ")"]
    let us :=
      word "goods" :: mark "(" :: column ++ [mark ",", mark ","] ++ key ++ [mark ")", word "x"]
    us[1]? = some (mark "(") ∧ (mark "(").isOpening = true ∧ closing us 1 = .ok (some 16) ∧
      Closes us 1 16 ∧ (∀ j, Closes us 1 j → j = 16) ∧
      clauses (between us 1 16) = [column, key] ∧
      clauses (between us 1 16) = (pieces (between us 1 16)).filter (· ≠ []) ∧
      (Matched column ∧ Uncut column ∧ GroupsClose column ∧
        addColumn false [] ⟨"goods", [], [], []⟩ column =
          .ok (Draft.addColumn [] ⟨"goods", [], [], []⟩ column)) ∧
      Matched key ∧ Uncut key ∧ GroupsClose key ∧
        addConstraint false [] ⟨"goods", [], [], []⟩ key =
          .ok (Draft.addConstraint [] ⟨"goods", [], [], []⟩ key) := by
  intro mark word column key us
  have hi : us[1]? = some (mark "(") := rfl
  have hu : (mark "(").isOpening = true := by decide
  have hplace : closingPlace? us 1 = some 16 := by decide
  have hclauses : clauses (between us 1 16) = [column, key] := by decide
  obtain ⟨hfound, hiff, honly, -, hbody⟩ := closing_agrees_with_clauses hi hu
  have hcloses : Closes us 1 16 := (hiff 16).mp hplace
  obtain ⟨hpieces, hclause⟩ := hbody 16 hcloses
  obtain ⟨hmatched, huncut, hgroups, hread⟩ := hclause column (by rw [hclauses]; simp)
  obtain ⟨hmatched', huncut', hgroups', hread'⟩ := hclause key (by rw [hclauses]; simp)
  exact ⟨hi, hu, hfound.trans (congrArg _ hplace), hcloses, fun j hj => honly j 16 hj hcloses,
    hclauses, hpieces, ⟨hmatched, huncut, hgroups, (hread _ _).1⟩, hmatched', huncut', hgroups',
    (hread' _ _).2⟩

end Schemata.Indexed
