import Mathlib.Data.List.Basic
import Mathlib.Tactic
import Schemata.Proofs.Indexed.Clauses
import Schemata.Proofs.Script.Accounted

/-!
# Scripts by index

The reading of a whole script by index: finding statements, in the text as a whole or chunk by
chunk, and reading each table. It comes without a fault to the same report, whatever lexemes a
tokenizer returns, and no issue of that report says that the reader has failed.
-/
namespace Schemata.Indexed

open Lexeme Script

/-! ## Tables -/

/-- One more word between `CREATE` and `TABLE`. -/
def modifierPart (us : List Lexeme) (i : ℕ) : Checked (Option ℕ) := do
  if ← holds us i (·.isWord tableModifiers) then return some (i + 1) else return none

def isCreateTable (us : List Lexeme) : Checked Bool := do
  if us.isEmpty then return false
  else if (← item us 0).isWord ["CREATE"] then
    let i ← loop (modifierPart us) us.length 1
    holds us i (·.isWord ["TABLE"])
  else return false

/-- The index behind `IF NOT EXISTS`, if that stands at an index. -/
def skipIfNotExists (us : List Lexeme) (i : ℕ) : Checked ℕ := do
  if i + 2 < us.length then
    if (← item us i).isWord ["IF"] then
      if (← item us (i + 1)).isWord ["NOT"] then
        if (← item us (i + 2)).isWord ["EXISTS"] then return i + 3 else return i
      else return i
    else return i
  else return i

/-- The name and the body of the table that a statement creates. -/
def tableBody (s : Statement) : Checked (Except Issue (String × List Lexeme)) := do
  let shown := String.ofList ((← sourceText s.source s.lexemes).toList.take 120)
  let i ← loop (modifierPart s.lexemes) s.lexemes.length 1
  match ← qualifiedName? s.lexemes (← skipIfNotExists s.lexemes (i + 1)) with
  | (none, _) => return .error (.unnamedTable shown)
  | (some name, j) =>
    if ← holds s.lexemes j isOpening then
      match ← closing s.lexemes j with
      | none => return .error (.openColumnList name shown)
      | some k => return .ok (name, between s.lexemes j k)
    else return .error (.noColumnList name shown)

/-- Reads one statement. What creates no table is passed over, with its text looked up all the
same. -/
def add (tolerant : Bool) (p : Progress) (s : Statement) : Checked Progress := do
  if ← isCreateTable s.lexemes then
    match ← tableBody s with
    | .error issue => return { p with issues := p.issues ++ [issue] }
    | .ok (name, body) =>
      if p.drafts.any (·.name = name) then
        return { p with issues := p.issues ++ [.duplicateTable name] }
      else
        let draft ← ofClauses tolerant s.source name (clauses body)
        return { drafts := p.drafts ++ [draft], issues := p.issues ++ draft.issues }
  else
    let _ ← sourceText s.source s.lexemes
    return p

/-! ## Statements -/

/-- The offsets at which a `CREATE TABLE` begins in a text that stands at an offset. -/
def startsFrom (before : Option Char) (offset : ℕ) : List Char → List ℕ
  | [] => []
  | c :: cs =>
    let later := startsFrom (some c) (offset + 1) cs
    if createTableAt before (c :: cs) then offset :: later else later

/-- The text from one of some offsets up to the next one, or to the end. -/
def chunkAt (text : List Char) (starts : List ℕ) (k : ℕ) : Checked (List Char) := do
  let start ← item starts k
  if k + 1 < starts.length then return (text.take (← item starts (k + 1))).drop start
  else return (text.take text.length).drop start

/-- The first statement of a chunk, or the issue that it cannot be read. -/
def chunkStatement (tokenize : Tokenizer) (chunk : List Char) :
    Checked (Except Issue (Option Statement)) := do
  match chunkLexemes? tokenize chunk with
  | none => return .error (.unreadable (excerpt (Text.trim chunk)))
  | some us =>
    if (Lexeme.statements us).isEmpty then return .ok none
    else return .ok (some ⟨← item (Lexeme.statements us) 0, chunk⟩)

/-- The statements of a text chunk by chunk, with the issues of the chunks that cannot be read. -/
def chunkStatements (tokenize : Tokenizer) (text : List Char) :
    Checked (List Statement × List Issue) := do
  let starts := startsFrom none 0 text
  let chunks ← (List.range starts.length).mapM (chunkAt text starts)
  let outcomes ← chunks.mapM (chunkStatement tokenize)
  return (outcomes.filterMap fun
      | .ok statement => statement
      | .error _ => none,
    outcomes.filterMap fun
      | .ok _ => none
      | .error issue => some issue)

/-- The statements of a script. -/
def statements (tokenize : Tokenizer) (text : List Char) :
    Checked (List Statement × List Issue) := do
  match tokenize text with
  | .error _ => chunkStatements tokenize text
  | .ok us =>
    if hidesCreateTable text us then chunkStatements tokenize text
    else return ((Lexeme.statements us).map (⟨·, text⟩), [])

/-- Reads a script, which may be fenced in prose. -/
def read (tolerant : Bool) (tokenize : Tokenizer) (text : List Char) : Checked Report := do
  let (found, unreadable) ← statements tokenize (Response.script text)
  let report := declared (← found.foldlM (add tolerant) { issues := unreadable })
  return { report with schema := report.schema.infer }

/-! ## What they read -/

section Tables

variable (us : List Lexeme)

theorem modifierPart_cases (i : ℕ) :
    modifierPart us i = .ok none ∧ dropModifiers (us.drop i) = us.drop i ∨
      ∃ next, modifierPart us i = .ok (some next) ∧
        (us.drop next).length < (us.drop i).length ∧
          dropModifiers (us.drop i) = dropModifiers (us.drop next) := by
  cases h : us.drop i with
  | nil => exact Or.inl ⟨by rw [modifierPart, holds_of_drop_nil h]; rfl, rfl⟩
  | cons u rest =>
    rw [modifierPart, holds_of_drop h, ok_bind, dropModifiers, List.dropWhile_cons]
    cases hu : u.isWord tableModifiers with
    | false => exact Or.inl ⟨rfl, rfl⟩
    | true =>
      refine Or.inr ⟨i + 1, rfl, ?_, ?_⟩
      · rw [drop_succ_of_drop h]
        exact Nat.lt_succ_self _
      · rw [drop_succ_of_drop h]
        rfl

theorem exists_modifierPart_eq (i : ℕ) :
    ∃ j, loop (modifierPart us) us.length i = .ok j ∧ us.drop j = dropModifiers (us.drop i) :=
  exists_loop_eq (modifierPart us) (fun i => (us.drop i).length)
    (fun i => dropModifiers (us.drop i)) us.drop (modifierPart_cases us) (by simp)

theorem isCreateTable_eq : isCreateTable us = .ok (Script.isCreateTable us) := by
  cases us with
  | nil => rfl
  | cons u us =>
    have h : (u :: us).drop 0 = u :: us := rfl
    obtain ⟨i, hloop, hi⟩ := exists_modifierPart_eq (u :: us) 1
    rw [isCreateTable, if_neg (by simp), item_of_drop h, hloop]
    simp only [ok_bind, holds_isWord, hi, List.drop_succ_cons, List.drop_zero,
      Script.isCreateTable]
    cases u.isWord ["CREATE"] <;> rfl

theorem exists_skipIfNotExists_eq (i : ℕ) :
    ∃ j, skipIfNotExists us i = .ok j ∧ us.drop j = dropIfNotExists (us.drop i) := by
  rw [skipIfNotExists]
  rcases h : us.drop i with _ | ⟨a, _ | ⟨b, _ | ⟨c, rest⟩⟩⟩
  · have hle := List.drop_eq_nil_iff.mp h
    exact ⟨i, by rw [if_neg (by omega)]; rfl, h⟩
  · have hle := List.drop_eq_nil_iff.mp (drop_succ_of_drop h)
    exact ⟨i, by rw [if_neg (by omega)]; rfl, h⟩
  · have hle := List.drop_eq_nil_iff.mp (drop_succ_of_drop (drop_succ_of_drop h))
    exact ⟨i, by rw [if_neg (by omega)]; rfl, h⟩
  · have hb := drop_succ_of_drop h
    have hc : us.drop (i + 2) = c :: rest := drop_succ_of_drop hb
    rw [if_pos (lt_length_of_drop hc), item_of_drop h, item_of_drop hb, item_of_drop hc,
      dropIfNotExists]
    simp only [ok_bind]
    cases a.isWord ["IF"] with
    | false => exact ⟨i, rfl, h⟩
    | true =>
      cases b.isWord ["NOT"] with
      | false => exact ⟨i, rfl, h⟩
      | true =>
        cases c.isWord ["EXISTS"] with
        | false => exact ⟨i, rfl, h⟩
        | true => exact ⟨i + 3, rfl, drop_succ_of_drop hc⟩

end Tables

theorem tableBody_eq (s : Statement) : tableBody s = .ok (Script.tableBody s) := by
  obtain ⟨i, hloop, hi⟩ := exists_modifierPart_eq s.lexemes 1
  obtain ⟨j, hskip, hj⟩ := exists_skipIfNotExists_eq s.lexemes (i + 1)
  rw [← List.drop_drop, hi] at hj
  simp only [tableBody, sourceText_eq, hloop, hskip, ok_bind, Script.tableBody, ← hj]
  obtain ⟨hnone, hfound⟩ | ⟨name, rest, k, hsome, hfound, hrest⟩ := qualifiedName?_eq s.lexemes j
  · rw [hfound, hnone]
    rfl
  · rw [hfound, hsome]
    simp only [ok_bind]
    cases rest with
    | nil =>
      rw [holds_of_drop_nil hrest]
      rfl
    | cons u rest =>
      rw [holds_of_drop hrest, ok_bind]
      cases hu : u.isOpening with
      | false => simp only [hu, Bool.false_eq_true, if_false, pure_eq_ok]
      | true =>
        simp only [hu, if_true]
        obtain ⟨inside, close, after, l, hfound, hl, hinside, -⟩ | ⟨hfound, hl⟩ :=
          closing_cases hrest hu
        · simp only [hl, ok_bind, hfound, hinside, pure_eq_ok]
        · simp only [hl, ok_bind, hfound, pure_eq_ok]

/-- The body of a table is balanced. -/
theorem balanced_of_tableBody {s : Statement} {name : String} {body : List Lexeme}
    (h : Script.tableBody s = .ok (name, body)) : Balanced body := by
  rw [Script.tableBody] at h
  repeat' split at h
  all_goals try cases h
  next hfound => exact (closing?_eq_some_iff.mp hfound).2.2

theorem add_eq (tolerant : Bool) (p : Progress) (s : Statement) :
    add tolerant p s = .ok (p.add s) := by
  simp only [add, isCreateTable_eq, tableBody_eq, sourceText_eq, ok_bind, Progress.add]
  split
  · cases hbody : Script.tableBody s with
    | error issue => rfl
    | ok found =>
      obtain ⟨name, body⟩ := found
      have hclauses : ∀ clause ∈ clauses body, tolerant = true ∨ GroupsClose clause :=
        fun clause hclause => Or.inr (groupsClose_of_balanced
          (solid_of_mem_clauses (balanced_of_tableBody hbody) hclause).balanced)
      simp only [ofClauses_eq hclauses (fun _ => ne_nil_of_mem_clauses), ok_bind]
      split <;> rfl
  · rfl

/-! ## Chunks -/

section Chunks

theorem le_of_mem_startsFrom {before : Option Char} {offset : ℕ} {cs : List Char} {start : ℕ}
    (h : start ∈ startsFrom before offset cs) : offset ≤ start := by
  induction cs generalizing before offset with
  | nil => cases h
  | cons c cs ih =>
    simp only [startsFrom] at h
    split at h
    · obtain rfl | h := List.mem_cons.mp h
      · exact Nat.le_refl _
      · exact Nat.le_of_succ_le (ih h)
    · exact Nat.le_of_succ_le (ih h)

/-- The text from each of some offsets up to the next one, or to the end. -/
def slices (text : List Char) (starts : List ℕ) : List (List Char) :=
  (List.range starts.length).map fun k =>
    (text.take (starts[k + 1]?.getD text.length)).drop (starts[k]?.getD 0)

theorem slices_cons (text : List Char) (start : ℕ) (starts : List ℕ) :
    slices text (start :: starts) =
      (text.take (starts.head?.getD text.length)).drop start :: slices text starts := by
  simp only [slices, List.length_cons, List.range_succ_eq_map, List.map_cons, List.map_map,
    Function.comp_def, List.getElem?_cons_succ, List.getElem?_cons_zero, Option.getD_some,
    List.head?_eq_getElem?]

theorem mapM_chunkAt (text : List Char) (starts : List ℕ) :
    (List.range starts.length).mapM (chunkAt text starts) = .ok (slices text starts) := by
  refine mapM_eq_map _ fun k hk => ?_
  have hk := List.mem_range.mp hk
  have hstart : item starts k = .ok starts[k] := by rw [item, List.getElem?_eq_getElem hk]
  rw [chunkAt, hstart, ok_bind, List.getElem?_eq_getElem hk]
  split
  · next hnext =>
    have hstop : item starts (k + 1) = .ok starts[k + 1] := by
      rw [item, List.getElem?_eq_getElem hnext]
    rw [hstop, List.getElem?_eq_getElem hnext]
    rfl
  · next hlast =>
    rw [List.getElem?_eq_none (Nat.le_of_not_lt hlast)]
    rfl

/-- A text is cut where a `CREATE TABLE` begins. -/
theorem cutAtCreateTable_eq_slices (before : Option Char) {text : List Char}
    (front : List Char) {cs : List Char} (h : text = front ++ cs) :
    cutAtCreateTable before cs =
      ((text.take ((startsFrom before front.length cs).head?.getD text.length)).drop front.length,
        slices text (startsFrom before front.length cs)) := by
  induction cs generalizing before front with
  | nil => simp [cutAtCreateTable, startsFrom, slices, h]
  | cons c cs ih =>
    have hlater := ih (some c) (front ++ [c]) (by rw [h, List.append_assoc]; rfl)
    rw [List.length_append, List.length_singleton] at hlater
    generalize hstarts : startsFrom (some c) (front.length + 1) cs = starts at hlater
    -- the next chunk begins behind this character, so the text in front of it does not end here
    have hstop : front.length < starts.head?.getD text.length := by
      cases starts with
      | nil => simp [h]
      | cons start starts =>
        exact le_of_mem_startsFrom (hstarts ▸ List.mem_cons_self)
    have hcons : (text.take (starts.head?.getD text.length)).drop front.length =
        c :: (text.take (starts.head?.getD text.length)).drop (front.length + 1) := by
      have hlong : front.length < text.length := by simp [h]
      rw [List.drop_eq_getElem_cons (by rw [List.length_take]; exact lt_min hstop hlong)]
      simp only [List.getElem_take, h, List.getElem_append_right (Nat.le_refl _), Nat.sub_self,
        List.getElem_cons_zero]
    simp only [cutAtCreateTable, startsFrom, hlater, hstarts]
    split
    · rw [slices_cons, hcons]
      simp
    · rw [hcons]

theorem chunks_eq_slices (text : List Char) :
    chunks text = slices text (startsFrom none 0 text) := by
  rw [chunks, cutAtCreateTable_eq_slices none [] (List.nil_append text).symm]
  rfl

end Chunks

/-! ## Scripts -/

section Scripts

variable (tokenize : Tokenizer)

theorem chunkStatement_eq (chunk : List Char) :
    chunkStatement tokenize chunk = .ok (Script.chunkStatement tokenize chunk) := by
  rw [chunkStatement, Script.chunkStatement]
  cases chunkLexemes? tokenize chunk with
  | none => rfl
  | some us =>
    simp only
    cases Lexeme.statements us <;> rfl

theorem chunkStatements_eq (text : List Char) :
    chunkStatements tokenize text = .ok (Script.chunkStatements tokenize text) := by
  have houtcomes := mapM_eq_map (chunks text) fun chunk _ => chunkStatement_eq tokenize chunk
  rw [chunkStatements, mapM_chunkAt, ok_bind, ← chunks_eq_slices, houtcomes, ok_bind]
  rfl

theorem statements_eq (text : List Char) :
    statements tokenize text = .ok (Script.statements tokenize text) := by
  rw [statements, Script.statements, chunkStatements_eq]
  cases tokenize text with
  | error _ => rfl
  | ok us =>
    simp only
    split <;> rfl

theorem read_eq (tolerant : Bool) (text : List Char) :
    read tolerant tokenize text = .ok (Script.read tokenize text) := by
  have hadd : ∀ found : List Statement, ∀ p,
      found.foldlM (add tolerant) p = .ok (found.foldl Progress.add p) :=
    fun found p => foldlM_eq_foldl found (fun p s _ => add_eq tolerant p s) p
  simp only [read, statements_eq, ok_bind, hadd, pure_eq_ok, Script.read, readScript]

/-- Whatever lexemes a tokenizer returns, and in whatever dialect it does so, reading by index looks
up nothing behind an end and comes to an end, with the report of the reader that takes lexemes off
the front. No issue says that the reader has failed; a lenient reading always has the report, and a
strict one is refused for warnings or not at all. Nor does it matter whether a reader goes on behind
a parenthesis that is never closed, as there is none. -/
theorem read_faultless (text : List Char) :
    (∀ tolerant, read tolerant tokenize text = .ok (Script.read tokenize text)) ∧
      (∀ issue ∈ (Script.read tokenize text).issues, issue.code ≠ .internalError) ∧
      (Script.read tokenize text).accept .lenient = .ok (Script.read tokenize text) ∧
      ((Script.read tokenize text).accept .strict = .ok (Script.read tokenize text) ∨
        (Script.read tokenize text).warnings ≠ [] ∧
          (Script.read tokenize text).accept .strict =
            .error (Script.read tokenize text).warnings) := by
  refine ⟨fun tolerant => read_eq tokenize tolerant text, fun _ => code_of_mem_issues_read, rfl, ?_⟩
  rw [Report.accept]
  by_cases hwarnings : (Script.read tokenize text).warnings = []
  · exact Or.inl (by simp [hwarnings])
  · exact Or.inr ⟨hwarnings, by simp [hwarnings]⟩

end Scripts

end Schemata.Indexed
