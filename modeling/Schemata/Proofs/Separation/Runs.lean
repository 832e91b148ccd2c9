import Mathlib.Data.List.Infix
import Mathlib.Tactic
import Schemata.Proofs.Text.Trim
import Schemata.Script.Separation

/-!
# Runs of a script

A script is cut into runs, leftmost first: quoted texts, comments and single characters. There is
exactly one such cut, and the statements are what is left of the runs between two single semicolons
when the comments are replaced.
-/
namespace Schemata.Script

/-- Characters of a script that belong together. What is not closed goes on to the end. -/
inductive Run where
  | quoted (quote : Char) (body : List Char) (closed : Bool)
  | lineComment (body : List Char) (closed : Bool)
  | blockComment (body : List Char) (closed : Bool)
  | single (c : Char)
deriving DecidableEq

/-- A text in which each of the given quotes stands twice. -/
inductive Doubled (quote : Char) : List Char → Prop
  | nil : Doubled quote []
  | other {c : Char} {cs : List Char} : c ≠ quote → Doubled quote cs → Doubled quote (c :: cs)
  | pair {cs : List Char} : Doubled quote cs → Doubled quote (quote :: quote :: cs)

namespace Run

def text : Run → List Char
  | quoted q body closed => q :: body ++ if closed then [q] else []
  | lineComment body closed => '-' :: '-' :: body ++ if closed then ['\n'] else []
  | blockComment body closed => '/' :: '*' :: body ++ if closed then ['*', '/'] else []
  | single c => [c]

/-- What is left of a run. A line comment leaves its line break, a block comment a blank. -/
def kept : Run → List Char
  | quoted q body closed => (quoted q body closed).text
  | lineComment _ closed => if closed then ['\n'] else []
  | blockComment _ _ => [' ']
  | single c => [c]

/-- Whether a run ends where a given rest begins. Quoted text is closed by the next quote that is
not doubled, a line comment by the end of its line, a block comment by the first closing mark. -/
def Ends (rest : List Char) : Run → Prop
  | quoted q body closed =>
    isQuote q = true ∧ Doubled q body ∧ if closed then rest.head? ≠ some q else rest = []
  | lineComment body closed => '\n' ∉ body ∧ (closed = false → rest = [])
  | blockComment body closed => ¬['*', '/'] <:+: body ∧ (closed = false → rest = [])
  | single c =>
    isQuote c = false ∧ ¬(c = '-' ∧ rest.head? = some '-') ∧ ¬(c = '/' ∧ rest.head? = some '*')

end Run

/-- The runs of a script from left to right. -/
inductive Cut : List Char → List Run → Prop
  | nil : Cut [] []
  | cons {run : Run} {rest : List Char} {runs : List Run} : run.Ends rest → Cut rest runs →
    Cut (run.text ++ rest) (run :: runs)

/-- The statements of a script that is cut into runs: the pieces between its single semicolons
without the blanks around them, as far as they are not empty. -/
def statementsOfRuns (keepSemicolons : Bool) (runs : List Run) : List (List Char) :=
  let pieces := (runs.splitOn (.single ';')).map fun piece => Text.trim (piece.flatMap Run.kept)
  (pieces.dropLast.filter (· ≠ [])).map (· ++ if keepSemicolons then [';'] else []) ++
    pieces.getLast?.toList.filter (· ≠ [])

variable {q c : Char} {body rest cs : List Char}

/-! ## One run -/

/-- Puts some characters in front of the first piece. -/
def consChars (cs : List Char) (pieces : List (List Char)) : List (List Char) :=
  cs.foldr consChar pieces

theorem consChars_cons (cs piece : List Char) (pieces : List (List Char)) :
    consChars cs (piece :: pieces) = (cs ++ piece) :: pieces := by
  induction cs with
  | nil => rfl
  | cons c cs ih =>
    change consChar c (consChars cs (piece :: pieces)) = _
    rw [ih]
    rfl

theorem consChars_append (as bs : List Char) (pieces : List (List Char)) :
    consChars (as ++ bs) pieces = consChars as (consChars bs pieces) := List.foldr_append

section Quoted

attribute [local simp] piecesFrom consChar

@[simp] theorem piecesFrom_nil (region : Region) : piecesFrom region [] = [[]] := by simp

theorem piecesFrom_quoted_cons (h : c ≠ q) (cs : List Char) :
    piecesFrom (.quoted q) (c :: cs) = consChar c (piecesFrom (.quoted q) cs) := by
  cases cs with
  | nil => simp
  | cons d cs => rw [piecesFrom, if_neg h]

theorem piecesFrom_quoted_pair (q : Char) (cs : List Char) :
    piecesFrom (.quoted q) (q :: q :: cs) =
      consChar q (consChar q (piecesFrom (.quoted q) cs)) := by
  rw [piecesFrom, if_pos rfl, if_pos rfl]

theorem piecesFrom_quoted_close (h : cs.head? ≠ some q) :
    piecesFrom (.quoted q) (q :: cs) = consChar q (piecesFrom .plain cs) := by
  cases cs with
  | nil => simp
  | cons d cs =>
    have hd : d ≠ q := fun he => h (congrArg some he)
    simp only [piecesFrom.eq_6, if_true, if_neg hd]

end Quoted

/-- Quoted text goes on over doubled quotes. -/
theorem piecesFrom_doubled (h : Doubled q body) (rest : List Char) :
    piecesFrom (.quoted q) (body ++ rest) = consChars body (piecesFrom (.quoted q) rest) := by
  induction h with
  | nil => rfl
  | other hc _ ih =>
    rw [List.cons_append, piecesFrom_quoted_cons hc, ih]
    rfl
  | pair _ ih =>
    rw [List.cons_append, List.cons_append, piecesFrom_quoted_pair, ih]
    rfl

theorem piecesFrom_lineComment (h : '\n' ∉ body) (rest : List Char) :
    piecesFrom .lineComment (body ++ rest) = piecesFrom .lineComment rest := by
  induction body with
  | nil => rfl
  | cons c body ih =>
    rw [List.mem_cons, not_or] at h
    rw [List.cons_append, piecesFrom, if_neg (Ne.symm h.1), ih h.2]

/-- A closing mark is not met before the place where it stands first. -/
theorem piecesFrom_blockComment (h : ¬['*', '/'] <:+: body) (hrest : rest.head? ≠ some '/') :
    piecesFrom .blockComment (body ++ rest) = piecesFrom .blockComment rest := by
  induction body with
  | nil => rfl
  | cons c body ih =>
    have hnext : ∀ ds, c = '*' → body ++ rest = '/' :: ds → False := by
      rintro ds rfl hds
      cases body with
      | nil =>
        rw [List.nil_append] at hds
        exact hrest (by rw [hds]; rfl)
      | cons d body =>
        obtain ⟨rfl, -⟩ := List.cons.inj hds
        exact h ⟨[], body, rfl⟩
    rw [List.cons_append, piecesFrom]
    · exact ih fun hin => h (hin.trans (List.suffix_cons c body).isInfix)
    · exact hnext

theorem piecesFrom_quote (h : isQuote c = true) (cs : List Char) :
    piecesFrom .plain (c :: cs) = consChar c (piecesFrom (.quoted c) cs) := by
  have hc : c ≠ ';' ∧ c ≠ '-' ∧ c ≠ '/' := by
    refine ⟨?_, ?_, ?_⟩ <;>
    · rintro rfl
      revert h
      decide
  rw [piecesFrom, if_neg hc.1, if_pos h]
  · exact fun _ he _ => hc.2.1 he
  · exact fun _ he _ => hc.2.2 he

theorem piecesFrom_single (hq : isQuote c = false) (hline : ¬(c = '-' ∧ rest.head? = some '-'))
    (hblock : ¬(c = '/' ∧ rest.head? = some '*')) :
    piecesFrom .plain (c :: rest) =
      if c = ';' then [] :: piecesFrom .plain rest else consChar c (piecesFrom .plain rest) := by
  rw [piecesFrom, hq]
  · rfl
  · rintro cs rfl rfl
    exact hline ⟨rfl, rfl⟩
  · rintro cs rfl rfl
    exact hblock ⟨rfl, rfl⟩

/-- What a run adds to the pieces of the rest: a single semicolon begins a new piece, and all others
leave what is kept of them. -/
theorem piecesFrom_run {run : Run} (h : run.Ends rest) :
    piecesFrom .plain (run.text ++ rest) =
      if run = .single ';' then [] :: piecesFrom .plain rest
      else consChars run.kept (piecesFrom .plain rest) := by
  cases run with
  | quoted q body closed =>
    obtain ⟨hq, hbody, hrest⟩ := h
    have hopen : piecesFrom .plain ((Run.quoted q body closed).text ++ rest) =
        consChar q
          (consChars body (piecesFrom (.quoted q) ((if closed then [q] else []) ++ rest))) := by
      rw [Run.text, List.append_assoc, List.cons_append, piecesFrom_quote hq,
        piecesFrom_doubled hbody]
    have hne : Run.quoted q body closed ≠ .single ';' := Run.noConfusion
    rw [hopen, if_neg hne, Run.kept, Run.text, consChars_append]
    cases closed with
    | false =>
      obtain rfl : rest = [] := hrest
      simp [consChars]
    | true =>
      have hclose : piecesFrom (.quoted q) (q :: rest) = consChar q (piecesFrom .plain rest) :=
        piecesFrom_quoted_close hrest
      simp [consChars, hclose]
  | lineComment body closed =>
    obtain ⟨hbody, hrest⟩ := h
    have hopen : piecesFrom .plain ((Run.lineComment body closed).text ++ rest) =
        piecesFrom .lineComment ((if closed then ['\n'] else []) ++ rest) := by
      rw [Run.text, List.append_assoc, List.cons_append, List.cons_append]
      exact (piecesFrom.eq_2 _).trans (piecesFrom_lineComment hbody _)
    have hne : Run.lineComment body closed ≠ .single ';' := Run.noConfusion
    rw [hopen, if_neg hne]
    cases closed with
    | false => simp [hrest rfl, Run.kept, consChars]
    | true => simp [piecesFrom, Run.kept, consChars]
  | blockComment body closed =>
    obtain ⟨hbody, hrest⟩ := h
    have hmark : ((if closed then ['*', '/'] else []) ++ rest).head? ≠ some '/' := by
      cases closed with
      | false => simp [hrest rfl]
      | true => simp
    have hopen : piecesFrom .plain ((Run.blockComment body closed).text ++ rest) =
        consChar ' ' (piecesFrom .blockComment ((if closed then ['*', '/'] else []) ++ rest)) := by
      rw [Run.text, List.append_assoc, List.cons_append, List.cons_append]
      exact (piecesFrom.eq_3 _).trans (congrArg _ (piecesFrom_blockComment hbody hmark))
    have hne : Run.blockComment body closed ≠ .single ';' := Run.noConfusion
    rw [hopen, if_neg hne]
    cases closed with
    | false => simp [hrest rfl, Run.kept, consChars]
    | true => simp [piecesFrom, Run.kept, consChars]
  | single c =>
    obtain ⟨hq, hline, hblock⟩ := h
    have hsingle := piecesFrom_single hq hline hblock
    rw [Run.text, List.singleton_append, hsingle]
    simp [Run.kept, consChars]

/-! ## All runs -/

/-- The pieces of a script are what is kept of its runs between two single semicolons. -/
theorem piecesFrom_of_cut {script : List Char} {runs : List Run} (h : Cut script runs) :
    piecesFrom .plain script = (runs.splitOn (.single ';')).map (·.flatMap Run.kept) := by
  induction h with
  | nil => simp [piecesFrom]
  | @cons run rest runs hends _ ih =>
    rw [piecesFrom_run hends, ih, List.splitOn_eq_splitOnP, List.splitOn_eq_splitOnP,
      List.splitOnP_cons_eq_if_modifyHead]
    by_cases hsemi : run = .single ';'
    · simp [hsemi]
    · obtain ⟨piece, pieces, hpieces⟩ :=
        List.exists_cons_of_ne_nil (List.splitOnP_ne_nil (· == Run.single ';') runs)
      simp [hsemi, hpieces, consChars_cons]

/-- All pieces but the last one end in a semicolon. -/
theorem statementsOf_eq (keepSemicolons : Bool) (pieces : List (List Char)) :
    statementsOf keepSemicolons pieces =
      ((pieces.map Text.trim).dropLast.filter (· ≠ [])).map
        (· ++ if keepSemicolons then [';'] else []) ++
      (pieces.map Text.trim).getLast?.toList.filter (· ≠ []) := by
  fun_induction statementsOf keepSemicolons pieces with
  | case1 => rfl
  | case2 piece hblank => simp [Text.trim_eq_nil_iff.mpr hblank]
  | case3 piece hblank =>
    have hne : Text.trim piece ≠ [] := fun h => hblank (Text.trim_eq_nil_iff.mp h)
    simp [hne]
  | case4 piece pieces hne rest hblank ih =>
    obtain ⟨next, pieces, rfl⟩ := List.exists_cons_of_ne_nil hne
    simp only [List.map_cons, List.dropLast_cons_cons, List.getLast?_cons_cons]
    rw [List.filter_cons_of_neg (by simp [Text.trim_eq_nil_iff.mpr hblank])]
    exact ih
  | case5 piece pieces hne rest hblank ih =>
    obtain ⟨next, pieces, rfl⟩ := List.exists_cons_of_ne_nil hne
    have hpiece : Text.trim piece ≠ [] := fun h => hblank (Text.trim_eq_nil_iff.mp h)
    simp only [List.map_cons, List.dropLast_cons_cons, List.getLast?_cons_cons]
    rw [List.filter_cons_of_pos (by simpa using hpiece), List.map_cons, List.cons_append]
    exact congrArg _ ih

theorem separate_of_cut {script : List Char} {runs : List Run} (h : Cut script runs)
    (keepSemicolons : Bool) :
    separate keepSemicolons script = statementsOfRuns keepSemicolons runs := by
  rw [separate, statementsOf_eq, piecesFrom_of_cut h, List.map_map]
  rfl

/-! ## Every script has a cut -/

/-- Quoted text goes on to the first quote that is not doubled, or to the end. -/
theorem exists_doubled (q : Char) (cs : List Char) : ∃ (body rest : List Char) (closed : Bool),
    cs = body ++ (if closed then [q] else []) ++ rest ∧ Doubled q body ∧
      if closed then rest.head? ≠ some q else rest = [] := by
  match cs with
  | [] => exact ⟨[], [], false, rfl, .nil, rfl⟩
  | c :: cs =>
    by_cases hc : c = q
    · subst hc
      match cs with
      | [] => exact ⟨[], [], true, rfl, .nil, by simp⟩
      | d :: cs =>
        by_cases hd : d = c
        · subst hd
          obtain ⟨body, rest, closed, rfl, hbody, hrest⟩ := exists_doubled d cs
          exact ⟨d :: d :: body, rest, closed, rfl, .pair hbody, hrest⟩
        · exact ⟨[], d :: cs, true, rfl, .nil, by simpa using hd⟩
    · obtain ⟨body, rest, closed, rfl, hbody, hrest⟩ := exists_doubled q cs
      exact ⟨c :: body, rest, closed, rfl, .other hc hbody, hrest⟩

theorem exists_lineComment (cs : List Char) : ∃ (body rest : List Char) (closed : Bool),
    cs = body ++ (if closed then ['\n'] else []) ++ rest ∧ '\n' ∉ body ∧
      (closed = false → rest = []) := by
  induction cs with
  | nil => exact ⟨[], [], false, rfl, List.not_mem_nil, fun _ => rfl⟩
  | cons c cs ih =>
    by_cases hc : c = '\n'
    · exact ⟨[], cs, true, by rw [hc]; rfl, List.not_mem_nil, Bool.noConfusion⟩
    · obtain ⟨body, rest, closed, rfl, hbody, hrest⟩ := ih
      refine ⟨c :: body, rest, closed, rfl, ?_, hrest⟩
      rw [List.mem_cons, not_or]
      exact ⟨Ne.symm hc, hbody⟩

theorem exists_blockComment (cs : List Char) : ∃ (body rest : List Char) (closed : Bool),
    cs = body ++ (if closed then ['*', '/'] else []) ++ rest ∧ ¬['*', '/'] <:+: body ∧
      (closed = false → rest = []) := by
  induction cs with
  | nil => exact ⟨[], [], false, rfl, by simp, fun _ => rfl⟩
  | cons c cs ih =>
    by_cases hmark : ['*', '/'] <+: c :: cs
    · obtain ⟨rest, hrest⟩ := hmark
      exact ⟨[], rest, true, hrest.symm, by simp, Bool.noConfusion⟩
    · obtain ⟨body, rest, closed, rfl, hbody, hrest⟩ := ih
      refine ⟨c :: body, rest, closed, rfl, ?_, hrest⟩
      rw [List.infix_cons_iff, not_or]
      refine ⟨fun hpre => hmark ?_, hbody⟩
      rw [List.append_assoc, ← List.cons_append]
      exact hpre.trans (List.prefix_append _ _)

theorem exists_run (h : cs ≠ []) : ∃ (run : Run) (rest : List Char), cs = run.text ++ rest ∧
    run.Ends rest := by
  obtain ⟨c, cs, rfl⟩ := List.exists_cons_of_ne_nil h
  by_cases hq : isQuote c = true
  · obtain ⟨body, rest, closed, rfl, hbody, hrest⟩ := exists_doubled c cs
    exact ⟨.quoted c body closed, rest, rfl, hq, hbody, hrest⟩
  by_cases hline : c = '-' ∧ cs.head? = some '-'
  · obtain ⟨cs, rfl⟩ := List.head?_eq_some_iff.mp hline.2
    obtain ⟨body, rest, closed, rfl, hbody, hrest⟩ := exists_lineComment cs
    exact ⟨.lineComment body closed, rest, by rw [hline.1]; rfl, hbody, hrest⟩
  by_cases hblock : c = '/' ∧ cs.head? = some '*'
  · obtain ⟨cs, rfl⟩ := List.head?_eq_some_iff.mp hblock.2
    obtain ⟨body, rest, closed, rfl, hbody, hrest⟩ := exists_blockComment cs
    exact ⟨.blockComment body closed, rest, by rw [hblock.1]; rfl, hbody, hrest⟩
  · exact ⟨.single c, cs, rfl, Bool.eq_false_iff.mpr hq, hline, hblock⟩

theorem Run.text_ne_nil (run : Run) : run.text ≠ [] := by
  cases run <;> simp [text]

theorem exists_cut (script : List Char) : ∃ runs, Cut script runs := by
  by_cases hnil : script = []
  · exact ⟨[], hnil ▸ .nil⟩
  obtain ⟨run, rest, hrun, hends⟩ := exists_run hnil
  have hlt : rest.length < script.length := by
    rw [hrun, List.length_append]
    exact Nat.lt_add_of_pos_left (List.length_pos_iff.mpr run.text_ne_nil)
  obtain ⟨runs, hruns⟩ := exists_cut rest
  exact ⟨run :: runs, hrun ▸ .cons hends hruns⟩
termination_by script.length

theorem Cut.text {script : List Char} {runs : List Run} (h : Cut script runs) :
    runs.flatMap Run.text = script := by
  induction h with
  | nil => rfl
  | cons _ _ ih => rw [List.flatMap_cons, ih]

/-! ## It is the only one -/

/-- The region that the first characters of a text open. -/
def regionAt : List Char → Region
  | '-' :: '-' :: _ => .lineComment
  | '/' :: '*' :: _ => .blockComment
  | c :: _ => if isQuote c then .quoted c else .plain
  | [] => .plain

def Run.region : Run → Region
  | quoted q _ _ => .quoted q
  | lineComment _ _ => .lineComment
  | blockComment _ _ => .blockComment
  | single _ => .plain

/-- The first two characters tell what kind of run begins there. -/
theorem regionAt_run {run : Run} (h : run.Ends rest) :
    regionAt (run.text ++ rest) = run.region := by
  have hplain : ∀ (c : Char) (cs : List Char), ¬(c = '-' ∧ cs.head? = some '-') →
      ¬(c = '/' ∧ cs.head? = some '*') →
      regionAt (c :: cs) = if isQuote c then .quoted c else .plain := by
    intro c cs hline hblock
    rw [regionAt]
    · rintro _ rfl rfl
      exact hline ⟨rfl, rfl⟩
    · rintro _ rfl rfl
      exact hblock ⟨rfl, rfl⟩
  cases run with
  | quoted q body closed =>
    have hq : isQuote q = true := h.1
    have hne : q ≠ '-' ∧ q ≠ '/' := by
      constructor <;>
      · rintro rfl
        revert hq
        decide
    refine (hplain q _ (fun hl => hne.1 hl.1) fun hb => hne.2 hb.1).trans ?_
    rw [if_pos hq]
    rfl
  | lineComment body closed => rfl
  | blockComment body closed => rfl
  | single c =>
    obtain ⟨hq, hline, hblock⟩ := h
    refine (hplain c rest hline hblock).trans ?_
    rw [hq]
    rfl

theorem append_inj_of {as as' bs bs' : List Char}
    (h : ∀ cs, as' = as ++ cs → bs = cs ++ bs' → cs = [])
    (h' : ∀ cs, as = as' ++ cs → bs' = cs ++ bs → cs = []) (heq : as ++ bs = as' ++ bs') :
    as = as' ∧ bs = bs' := by
  obtain ⟨cs, has, hbs⟩ | ⟨cs, has, hbs⟩ := List.append_eq_append_iff.mp heq
  · obtain rfl := h cs has hbs
    exact ⟨by rw [has, List.append_nil], hbs⟩
  · obtain rfl := h' cs has hbs
    exact ⟨by rw [has, List.append_nil], hbs.symm⟩

/-- A mark that closes is told from the end of the text. -/
theorem closed_unique {mark rest rest' : List Char} {closed closed' : Bool} (hmark : mark ≠ [])
    (h : closed = false → rest = []) (h' : closed' = false → rest' = [])
    (heq : (if closed then mark else []) ++ rest = (if closed' then mark else []) ++ rest') :
    closed = closed' ∧ rest = rest' := by
  cases closed <;> cases closed'
  · exact ⟨rfl, heq⟩
  · simp [h rfl, hmark] at heq
  · simp [h' rfl, hmark] at heq
  · exact ⟨rfl, List.append_cancel_left heq⟩

/-- What follows a body begins with its mark, if anything follows it. -/
theorem prefix_of_mark {mark rest : List Char} {closed : Bool} (h : closed = false → rest = [])
    (hne : (if closed then mark else []) ++ rest ≠ []) :
    mark <+: (if closed then mark else []) ++ rest := by
  cases closed with
  | false => exact absurd (h rfl) hne
  | true => exact List.prefix_append mark rest

theorem doubled_unique {body' t t' : List Char}
    (h : Doubled q body) (ht : ∀ c cs, t = c :: cs → c = q ∧ cs.head? ≠ some q)
    (h' : Doubled q body') (ht' : ∀ c cs, t' = c :: cs → c = q ∧ cs.head? ≠ some q)
    (heq : body ++ t = body' ++ t') : body = body' ∧ t = t' := by
  induction h generalizing body' with
  | nil =>
    cases h' with
    | nil => exact ⟨rfl, heq⟩
    | other hc _ => exact absurd (ht _ _ heq).1 hc
    | pair _ => exact absurd rfl (ht _ _ heq).2
  | other hc _ ih =>
    cases h' with
    | nil => exact absurd (ht' _ _ heq.symm).1 hc
    | other _ h' =>
      have hcons := List.cons.inj heq
      obtain ⟨rfl, ht⟩ := ih h' hcons.2
      exact ⟨congrArg (· :: _) hcons.1, ht⟩
    | pair _ => exact absurd (List.cons.inj heq).1 hc
  | pair _ ih =>
    cases h' with
    | nil => exact absurd rfl (ht' _ _ heq.symm).2
    | other hc _ => exact absurd (List.cons.inj heq).1.symm hc
    | pair h' =>
      obtain ⟨rfl, ht⟩ := ih h' (List.cons.inj (List.cons.inj heq).2).2
      exact ⟨rfl, ht⟩

/-- A body that goes on to the first line break is not longer than another one. -/
theorem eq_nil_of_not_mem {as cs bs bs' : List Char} (h : '\n' ∉ as ++ cs)
    (hbs : bs ≠ [] → ['\n'] <+: bs) (heq : bs = cs ++ bs') : cs = [] := by
  cases cs with
  | nil => rfl
  | cons c cs =>
    subst heq
    obtain ⟨rest, hrest⟩ := hbs (List.cons_ne_nil _ _)
    obtain rfl : '\n' = c := (List.cons.inj hrest).1
    exact absurd (List.mem_append_right as List.mem_cons_self) h

theorem eq_nil_of_not_infix {as cs bs bs' : List Char} (h : ¬['*', '/'] <:+: as ++ cs)
    (hbs : bs ≠ [] → ['*', '/'] <+: bs) (hbs' : bs' ≠ [] → ['*', '/'] <+: bs')
    (heq : bs = cs ++ bs') : cs = [] := by
  match cs with
  | [] => rfl
  | [c] =>
    subst heq
    obtain ⟨rest, hrest⟩ := hbs (List.cons_ne_nil _ _)
    obtain rfl : '/' :: rest = bs' := (List.cons.inj hrest).2
    simpa using hbs' (List.cons_ne_nil _ _)
  | c :: d :: cs =>
    subst heq
    obtain ⟨rest, hrest⟩ := hbs (List.cons_ne_nil _ _)
    obtain ⟨hc, hrest⟩ := List.cons.inj hrest
    obtain ⟨hd, -⟩ := List.cons.inj hrest
    exact absurd ⟨as, cs, by simp [← hc, ← hd]⟩ h

theorem head_of_quoted {rest : List Char} {closed : Bool}
    (h : if closed then rest.head? ≠ some q else rest = []) (c : Char) (cs : List Char)
    (heq : (if closed then [q] else []) ++ rest = c :: cs) : c = q ∧ cs.head? ≠ some q := by
  cases closed with
  | false =>
    obtain rfl : rest = [] := h
    exact absurd heq.symm (List.cons_ne_nil c cs)
  | true =>
    obtain ⟨rfl, rfl⟩ := List.cons.inj heq
    exact ⟨rfl, h⟩

theorem Run.Ends.unique {run run' : Run} {rest rest' : List Char} (h : run.Ends rest)
    (h' : run'.Ends rest') (heq : run.text ++ rest = run'.text ++ rest') :
    run = run' ∧ rest = rest' := by
  have hregion : run.region = run'.region := by rw [← regionAt_run h, ← regionAt_run h', heq]
  cases run <;> cases run' <;> injection hregion
  case quoted.quoted q body closed q' body' closed' hquote =>
    obtain rfl := hquote
    obtain ⟨-, hbody, hrest⟩ := h
    obtain ⟨-, hbody', hrest'⟩ := h'
    have htail : body ++ ((if closed then [q] else []) ++ rest) =
        body' ++ ((if closed' then [q] else []) ++ rest') := by simpa [Run.text] using heq
    obtain ⟨rfl, hstop⟩ :=
      doubled_unique hbody (head_of_quoted hrest) hbody' (head_of_quoted hrest')
      htail
    obtain ⟨rfl, rfl⟩ := closed_unique (List.cons_ne_nil q []) (by rintro rfl; exact hrest)
      (by rintro rfl; exact hrest') hstop
    exact ⟨rfl, rfl⟩
  case lineComment.lineComment body closed body' closed' =>
    obtain ⟨hbody, hrest⟩ := h
    obtain ⟨hbody', hrest'⟩ := h'
    have htail : body ++ ((if closed then ['\n'] else []) ++ rest) =
        body' ++ ((if closed' then ['\n'] else []) ++ rest') := by simpa [Run.text] using heq
    obtain ⟨rfl, hstop⟩ := append_inj_of
      (fun cs hcs => eq_nil_of_not_mem (hcs ▸ hbody') (prefix_of_mark hrest))
      (fun cs hcs => eq_nil_of_not_mem (hcs ▸ hbody) (prefix_of_mark hrest')) htail
    obtain ⟨rfl, rfl⟩ := closed_unique (List.cons_ne_nil '\n' []) hrest hrest' hstop
    exact ⟨rfl, rfl⟩
  case blockComment.blockComment body closed body' closed' =>
    obtain ⟨hbody, hrest⟩ := h
    obtain ⟨hbody', hrest'⟩ := h'
    have htail : body ++ ((if closed then ['*', '/'] else []) ++ rest) =
        body' ++ ((if closed' then ['*', '/'] else []) ++ rest') := by simpa [Run.text] using heq
    obtain ⟨rfl, hstop⟩ := append_inj_of
      (fun cs hcs =>
        eq_nil_of_not_infix (hcs ▸ hbody') (prefix_of_mark hrest) (prefix_of_mark hrest'))
      (fun cs hcs =>
        eq_nil_of_not_infix (hcs ▸ hbody) (prefix_of_mark hrest') (prefix_of_mark hrest))
      htail
    obtain ⟨rfl, rfl⟩ := closed_unique (List.cons_ne_nil '*' ['/']) hrest hrest' hstop
    exact ⟨rfl, rfl⟩
  case single.single c c' =>
    obtain ⟨rfl, rfl⟩ := List.cons.inj heq
    exact ⟨rfl, rfl⟩

theorem Cut.unique {script : List Char} {runs runs' : List Run} (h : Cut script runs)
    (h' : Cut script runs') : runs = runs' := by
  induction h generalizing runs' with
  | nil =>
    generalize hscript : ([] : List Char) = script at h'
    cases h' with
    | nil => rfl
    | @cons run rest runs' _ _ =>
      exact absurd (List.append_eq_nil_iff.mp hscript.symm).1 run.text_ne_nil
  | @cons run rest runs hends _ ih =>
    generalize hscript : run.text ++ rest = script at h'
    cases h' with
    | nil => exact absurd (List.append_eq_nil_iff.mp hscript).1 run.text_ne_nil
    | cons hends' h' =>
      obtain ⟨rfl, rfl⟩ := hends.unique hends' hscript
      rw [ih h']

/-- A script is cut into runs in exactly one way. The runs are the script, one after another, and
the statements of the script are what they say. -/
theorem separate_of_unique_cut (script : List Char) :
    ∃ runs, (∀ runs', Cut script runs' ↔ runs' = runs) ∧
    runs.flatMap Run.text = script ∧
    ∀ keepSemicolons, separate keepSemicolons script = statementsOfRuns keepSemicolons runs := by
  obtain ⟨runs, hruns⟩ := exists_cut script
  exact ⟨runs, fun runs' => ⟨fun h => h.unique hruns, fun h => h ▸ hruns⟩, hruns.text,
    separate_of_cut hruns⟩

end Schemata.Script
