import Mathlib.Data.List.Basic
import Mathlib.Tactic
import Schemata.Proofs.Lexer.Search
import Schemata.Lexeme.Basic

/-!
# Reading a text token by token

A text is read as some words and marks if every scan that reaches it goes through to the end and
adds lexemes with these contents. What is read of a text follows from its first token and what is
read of the rest, as long as no command opens.
-/
namespace Schemata.Lexer

/-- Whether a command may open here: at the start of a text, or after an opener. -/
def Progress.atOpening (p : Progress) : Bool :=
  match p.tokens with
  | [] => true
  | t :: _ => t.role = .commandOpener

/-- What a token says. -/
def tokenContents (kind : LexemeKind) (text : List Char) : List Content :=
  match kind with
  | .word => (Text.words text).map fun w => Content.word (String.ofList w)
  | kind => [(kind, String.ofList text)]

theorem contents_ofToken (t : Token) :
    (Lexeme.ofToken t).map Lexeme.content = tokenContents t.kind t.text := by
  obtain ⟨kind, role, text, start, stop⟩ := t
  cases kind with
  | word => exact List.map_map
  | _ => rfl

/-- Every scan that reaches the text, where a command may open only as said, reads it as the given
words and marks. -/
def Reads (l : Lexicon) (opening : Bool) (text : List Char) (xs : List Content) : Prop :=
  ∀ (p : Progress) (fuel : ℕ), p.rest = text → text.length < fuel →
    p.previousRole ≠ some .parameter → (p.atOpening = true → opening = true) →
    ∃ q ts, scan l fuel false p = .ok q ∧ q.tokens.reverse = p.tokens.reverse ++ ts ∧
      (ts.flatMap Lexeme.ofToken).map Lexeme.content = xs

variable {l : Lexicon} {opening : Bool} {text rest : List Char} {xs : List Content}

theorem Reads.weaken (h : Reads l true text xs) : Reads l opening text xs :=
  fun p fuel hp hfuel hrole _ => h p fuel hp hfuel hrole fun _ => rfl

theorem reads_nil : Reads l opening [] [] := by
  intro p fuel hp hfuel _ _
  cases fuel with
  | zero => cases hfuel
  | succ fuel => exact ⟨p, [], by simp [scan, hp, pure, Except.pure], by simp, rfl⟩

/-! ## Blanks -/

/-- The scan behind the spaces at the front of its text. -/
def Progress.afterSpaces (p : Progress) : Progress :=
  let moved := p.moveTo (p.rest.dropWhile fun c => c = ' ' || c = '\t')
  { moved with start := moved.position }

theorem scan_spaces (fuel : ℕ) {p : Progress}
    (hlt : (p.rest.dropWhile fun c => c = ' ' || c = '\t').length < p.rest.length) :
    scan l (fuel + 1) false p = scan l fuel false p.afterSpaces := by
  have hne : p.rest.isEmpty = false := by
    cases hrest : p.rest with
    | nil => simp [hrest] at hlt
    | cons => rfl
  have hstep : step l p = .ok (none, p.afterSpaces) := by
    simp only [step, if_pos hlt]
    rfl
  rw [scan, hne, hstep]
  rfl

/-- A space in front of a text is passed over, whether or not others follow it. -/
theorem reads_space (h : Reads l opening rest xs) : Reads l opening (' ' :: rest) xs := by
  rintro ⟨start, position, _, tokens⟩ fuel rfl hfuel hrole hopen
  cases fuel with
  | zero => cases hfuel
  | succ fuel =>
    have hle := (List.dropWhile_suffix (l := rest) (fun c => c = ' ' || c = '\t')).length_le
    have hfuel' : rest.length < fuel := by simpa using hfuel
    have hfront : ((' ' :: rest).dropWhile fun c => c = ' ' || c = '\t').length <
        (' ' :: rest).length := Nat.lt_succ_of_le hle
    rw [scan_spaces fuel hfront]
    by_cases hlt : (rest.dropWhile (fun c => c = ' ' || c = '\t')).length < rest.length
    · -- the text itself begins with spaces, and the scan of it goes through the same place
      have hsame : (⟨start, position, ' ' :: rest, tokens⟩ : Progress).afterSpaces =
          (⟨start, position + 1, rest, tokens⟩ : Progress).afterSpaces := by
        have hposition : position + ((rest.length + 1) - (rest.dropWhile
            (fun c => c = ' ' || c = '\t')).length) = position + 1 + (rest.length -
              (rest.dropWhile (fun c => c = ' ' || c = '\t')).length) := by
          omega
        simp [Progress.afterSpaces, Progress.moveTo, hposition]
      have hnext := h ⟨start, position + 1, rest, tokens⟩ (fuel + 1) rfl (by omega) hrole hopen
      rw [scan_spaces fuel hlt, ← hsame] at hnext
      exact hnext
    · have hself := (List.dropWhile_suffix (fun c => c = ' ' || c = '\t')).eq_of_length_le
        (Nat.not_lt.mp hlt)
      exact h _ fuel hself hfuel' hrole hopen

theorem reads_line (h : Reads l opening rest xs) : Reads l opening ('\n' :: rest) xs := by
  intro p fuel hp hfuel hrole hopen
  cases fuel with
  | zero => cases hfuel
  | succ fuel =>
    have hne : p.rest.isEmpty = false := by rw [hp]; rfl
    have hdrop : p.rest.dropWhile (fun c => c = ' ' || c = '\t') = p.rest := by rw [hp]; rfl
    have hstep : step l p =
        .ok (none, ({ p with start := p.position } : Progress).moveTo rest) := by
      rw [step, hdrop, if_neg (Nat.lt_irrefl _)]
      simp only [hp]
      rfl
    have hnext := h (({ p with start := p.position } : Progress).moveTo rest) fuel rfl
      (by simpa using hfuel) hrole hopen
    rw [scan, hne, hstep]
    exact hnext

/-! ## Tokens -/

theorem step_token {start position : ℕ} {tokens : List Token} {c : Char} {cs : List Char}
    {token : Option BareToken} (hblank : Text.isBlank c = false)
    (hread : readToken l (tokens.head?.map (·.role)) c cs = .ok ⟨token, rest⟩) :
    step l ⟨start, position, c :: cs, tokens⟩ =
      .ok (token, (⟨position, position, c :: cs, tokens⟩ : Progress).moveTo rest) := by
  have hspace : (c = ' ' || c = '\t') = false := by
    by_contra hsp
    simp only [Bool.not_eq_false, Bool.or_eq_true, decide_eq_true_eq] at hsp
    rcases hsp with rfl | rfl <;> revert hblank <;> decide
  have hdrop : (c :: cs).dropWhile (fun c => c = ' ' || c = '\t') = c :: cs := by
    rw [List.dropWhile_cons, hspace]
    rfl
  simp only [step, hdrop, if_neg (Nat.lt_irrefl _), hblank, Bool.false_eq_true, if_false,
    Progress.previousRole, hread]
  rfl

/-- Where a command may open, only a command does. -/
theorem opensCommand_push {p : Progress} {r : TokenRole}
    (h : p.atOpening = true → r ≠ .command) (k : LexemeKind) (s : List Char) :
    (p.push k r s).opensCommand = false := by
  obtain ⟨start, position, rest, tokens⟩ := p
  rw [Progress.opensCommand, Bool.and_eq_false_iff]
  right
  cases tokens with
  | nil => exact decide_eq_false (h rfl)
  | cons t ts =>
    by_cases ht : t.role = .commandOpener
    · have hr := h (decide_eq_true ht)
      simp [Progress.push, hr]
    · simp [Progress.push, ht]

/-- A token that opens no command is read before the rest. -/
theorem reads_token {c : Char} {cs s : List Char} {k : LexemeKind} {r : TokenRole}
    (hblank : Text.isBlank c = false)
    (hread : ∀ previous, previous ≠ some .parameter →
      readToken l previous c cs = .ok ⟨some (k, r, s), rest⟩)
    (hlt : rest.length ≤ cs.length) (hr : r ≠ .parameter)
    (hcommand : opening = true → r ≠ .command) (h : Reads l (r = .commandOpener) rest xs) :
    Reads l opening (c :: cs) (tokenContents k s ++ xs) := by
  rintro ⟨start, position, _, tokens⟩ fuel rfl hfuel hrole hopen
  cases fuel with
  | zero => cases hfuel
  | succ fuel =>
    set moved := (⟨position, position, c :: cs, tokens⟩ : Progress).moveTo rest with hmoved
    have hstep : step l ⟨start, position, c :: cs, tokens⟩ = .ok (some (k, r, s), moved) :=
      step_token hblank (hread _ hrole)
    have hno : moved.atOpening = true → r ≠ .command := fun ho => hcommand (hopen ho)
    have hquiet := opensCommand_push hno k s
    obtain ⟨q, ts, hq, htokens, hcontents⟩ := h (moved.push k r s) fuel rfl
      (by simp only [List.length_cons] at hfuel; omega)
      (by simpa [Progress.previousRole, Progress.push] using hr)
      (by simp [Progress.atOpening, Progress.push])
    refine ⟨q, ⟨k, r, s, moved.start, moved.position - 1⟩ :: ts, ?_, ?_, ?_⟩
    · rw [scan, if_neg (by simp), hstep]
      simp only [bind, Except.bind, pure, Except.pure, hquiet, Bool.false_and, Bool.false_eq_true,
        if_false]
      exact hq
    · rw [htokens]
      simp [Progress.push, hmoved, Progress.moveTo]
    · rw [List.flatMap_cons, List.map_append, contents_ofToken, hcontents]

/-- A text that is read from its start on is read plainly. -/
theorem Reads.lexemes {d : Dialect} (h : Reads d.lexicon true text xs) :
    ∃ us, d.lexemes text = .ok us ∧ us.map Lexeme.content = xs := by
  obtain ⟨q, ts, hq, htokens, hcontents⟩ := h ⟨0, 0, text, []⟩ (text.length + 1) rfl
    (Nat.lt_succ_self _) (by simp [Progress.previousRole]) fun _ => rfl
  refine ⟨ts.flatMap Lexeme.ofToken, ?_, hcontents⟩
  rw [Dialect.lexemes, tokens, hq]
  simp only [htokens, List.reverse_nil, List.nil_append]
  rfl

end Schemata.Lexer
