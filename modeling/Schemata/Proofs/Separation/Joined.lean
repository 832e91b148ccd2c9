import Mathlib.Data.List.Forall2
import Mathlib.Tactic
import Schemata.Proofs.Separation.Runs

/-!
# Joined scripts and scripts with other comments

A semicolon behind a script in which everything is closed ends its last statement: what follows is
cut as it is alone. Of a comment nothing but its kind is left, so the pieces of a script do not
depend on what its comments say.
-/
namespace Schemata.Script

namespace Run

/-- Whether the mark that closes a run is there. -/
def IsClosed : Run → Prop
  | quoted _ _ closed => closed
  | lineComment _ closed => closed
  | blockComment _ closed => closed
  | single _ => True

instance : DecidablePred IsClosed
  | quoted _ _ closed => inferInstanceAs (Decidable (closed = true))
  | lineComment _ closed => inferInstanceAs (Decidable (closed = true))
  | blockComment _ closed => inferInstanceAs (Decidable (closed = true))
  | single _ => inferInstanceAs (Decidable True)

/-- The same run, or a comment of the same kind with another body. -/
inductive SameButComment : Run → Run → Prop
  | refl (run : Run) : SameButComment run run
  | line {body body' : List Char} {closed : Bool} : '\n' ∉ body' →
    SameButComment (lineComment body closed) (lineComment body' closed)
  | block {body body' : List Char} {closed : Bool} : ¬['*', '/'] <:+: body' →
    SameButComment (blockComment body closed) (blockComment body' closed)

end Run

/-- Whether the end of a script lies outside its quotes and comments. -/
def EndsOutside (script : List Char) : Prop :=
  ∃ runs, Cut script runs ∧ ∀ run ∈ runs, run.IsClosed

/-- Scripts that differ in the bodies of comments only. -/
def SameButComments (script script' : List Char) : Prop :=
  ∃ runs runs', Cut script runs ∧ List.Forall₂ Run.SameButComment runs runs' ∧
    script' = runs'.flatMap Run.text

variable {a b script script' rest rest' : List Char} {run run' : Run} {runs runs' : List Run}

/-- Characters that begin no quotes and no comment are runs of their own. -/
theorem Cut.singles (h : ∀ c ∈ a, isQuote c = false ∧ c ≠ '-' ∧ c ≠ '/') (hrest : Cut rest runs) :
    Cut (a ++ rest) (a.map .single ++ runs) := by
  induction a with
  | nil => exact hrest
  | cons c a ih =>
    obtain ⟨hquote, hdash, hslash⟩ := h c List.mem_cons_self
    have hends : (Run.single c).Ends (a ++ rest) :=
      ⟨hquote, fun hl => hdash hl.1, fun hb => hslash hb.1⟩
    exact .cons hends (ih fun d hd => h d (List.mem_cons_of_mem c hd))

/-! ## What follows a run -/

/-- What is not closed goes on to the end. -/
theorem Run.Ends.rest_eq_nil (h : run.Ends rest) (hopen : ¬run.IsClosed) : rest = [] := by
  cases run with
  | quoted q body closed =>
    cases closed with
    | false => exact h.2.2
    | true => exact absurd rfl hopen
  | lineComment body closed => exact h.2 (Bool.eq_false_iff.mpr hopen)
  | blockComment body closed => exact h.2 (Bool.eq_false_iff.mpr hopen)
  | single c => exact absurd trivial hopen

/-- Of what follows a run the first character counts, and only if it is a mark. -/
theorem Run.Ends.with_rest (h : run.Ends rest)
    (hmark : ∀ c, isQuote c = true ∨ c = '-' ∨ c = '*' → rest'.head? = some c →
      rest.head? = some c)
    (hopen : ¬run.IsClosed → rest' = []) : run.Ends rest' := by
  cases run with
  | quoted q body closed =>
    obtain ⟨hq, hbody, hrest⟩ := h
    refine ⟨hq, hbody, ?_⟩
    cases closed with
    | false => exact hopen Bool.false_ne_true
    | true => exact fun heq => hrest (hmark q (.inl hq) heq)
  | lineComment body closed => exact ⟨h.1, fun hc => hopen (Bool.eq_false_iff.mp hc)⟩
  | blockComment body closed => exact ⟨h.1, fun hc => hopen (Bool.eq_false_iff.mp hc)⟩
  | single c =>
    obtain ⟨hq, hline, hblock⟩ := h
    exact ⟨hq, fun hl => hline ⟨hl.1, hmark _ (.inr (.inl rfl)) hl.2⟩,
      fun hb => hblock ⟨hb.1, hmark _ (.inr (.inr rfl)) hb.2⟩⟩

/-! ## Joined scripts -/

/-- A closed run ends before a semicolon if it ends before the end of the text. -/
theorem Run.Ends.append (h : run.Ends rest) (hclosed : run.IsClosed) (b : List Char) :
    run.Ends (rest ++ ';' :: b) := by
  refine h.with_rest (fun c hc heq => ?_) fun hopen => absurd hclosed hopen
  cases rest with
  | nil =>
    obtain rfl : ';' = c := Option.some.inj heq
    exact absurd hc (by decide)
  | cons d rest => exact heq

theorem Cut.joined (h : Cut a runs) (hclosed : ∀ run ∈ runs, run.IsClosed) (h' : Cut b runs') :
    Cut (a ++ ';' :: b) (runs ++ .single ';' :: runs') := by
  have hsemicolon : (Run.single ';').Ends b := ⟨by decide, by simp, by simp⟩
  induction h with
  | nil => exact .cons hsemicolon h'
  | @cons run rest runs hends _ ih =>
    rw [List.append_assoc]
    exact .cons (hends.append (hclosed run List.mem_cons_self) b)
      (ih fun r hr => hclosed r (List.mem_cons_of_mem run hr))

theorem piecesFrom_joined (ha : EndsOutside a) (b : List Char) :
    piecesFrom .plain (a ++ ';' :: b) = piecesFrom .plain a ++ piecesFrom .plain b := by
  obtain ⟨runs, hcut, hclosed⟩ := ha
  obtain ⟨runs', hcut'⟩ := exists_cut b
  rw [piecesFrom_of_cut (hcut.joined hclosed hcut'), piecesFrom_of_cut hcut,
    piecesFrom_of_cut hcut', List.splitOn_append_cons_self, List.map_append]

theorem statementsOf_false (pieces : List (List Char)) :
    statementsOf false pieces = (pieces.map Text.trim).filter (· ≠ []) := by
  rw [statementsOf_eq]
  cases hlast : (pieces.map Text.trim).getLast? with
  | none => simp [List.getLast?_eq_none_iff.mp hlast]
  | some last =>
    have hpieces := List.dropLast_append_getLast? last hlast
    rw [← hpieces]
    simp

/-- Behind a script that is closed the statements after a semicolon are added. -/
theorem separate_joined (ha : EndsOutside a) (b : List Char) :
    separate false (a ++ ';' :: b) = separate false a ++ separate false b := by
  simp only [separate, statementsOf_false, piecesFrom_joined ha, List.map_append,
    List.filter_append]

/-! ## Other comments -/

namespace Run.SameButComment

theorem kept (h : SameButComment run run') : run.kept = run'.kept := by
  cases h <;> rfl

theorem eq_single_iff (h : SameButComment run run') (c : Char) :
    run = .single c ↔ run' = .single c := by
  cases h with
  | refl => rfl
  | line => simp
  | block => simp

theorem head?_text_append (h : SameButComment run run') (rest rest' : List Char) :
    (run.text ++ rest).head? = (run'.text ++ rest').head? := by
  cases h with
  | refl => rw [List.head?_append_of_ne_nil _ run.text_ne_nil,
      List.head?_append_of_ne_nil _ run.text_ne_nil]
  | line => rfl
  | block => rfl

/-- Where a run ends can be told from its kind and the first character behind it. -/
theorem ends (h : SameButComment run run') (hends : run.Ends rest)
    (hrest : rest.head? = rest'.head?) : run'.Ends rest' := by
  have hnil : rest = [] ↔ rest' = [] := by
    rw [← List.head?_eq_none_iff, hrest, List.head?_eq_none_iff]
  cases h with
  | line hbody => exact ⟨hbody, fun hopen => hnil.mp (hends.2 hopen)⟩
  | block hbody => exact ⟨hbody, fun hopen => hnil.mp (hends.2 hopen)⟩
  | refl =>
    exact hends.with_rest (fun c _ heq => hrest.trans heq) fun hopen =>
      hnil.mp (hends.rest_eq_nil hopen)

end Run.SameButComment

/-- With other comments a script is cut at the same places, into the same pieces. -/
theorem Cut.restated (h : Cut script runs) (hsame : List.Forall₂ Run.SameButComment runs runs') :
    Cut (runs'.flatMap Run.text) runs' ∧ script.head? = (runs'.flatMap Run.text).head? ∧
      piecesFrom .plain (runs'.flatMap Run.text) = piecesFrom .plain script := by
  induction h generalizing runs' with
  | nil =>
    cases hsame
    exact ⟨.nil, rfl, rfl⟩
  | @cons run rest runs hends _ ih =>
    cases hsame with
    | @cons _ run' _ runs' hrun hruns =>
      obtain ⟨hcut, hhead, hpieces⟩ := ih hruns
      have hends' := hrun.ends hends hhead
      refine ⟨.cons hends' hcut, hrun.head?_text_append _ _, ?_⟩
      rw [List.flatMap_cons, piecesFrom_run hends', piecesFrom_run hends, hpieces, hrun.kept]
      exact if_congr (hrun.eq_single_iff ';').symm rfl rfl

/-- The statements of a script do not depend on the bodies of its comments. -/
theorem separate_sameButComments (h : SameButComments script script') (keepSemicolons : Bool) :
    separate keepSemicolons script' = separate keepSemicolons script := by
  obtain ⟨runs, runs', hcut, hsame, rfl⟩ := h
  rw [separate, separate, (hcut.restated hsame).2.2]

end Schemata.Script
