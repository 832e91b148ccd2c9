import Mathlib.Data.List.Basic
import Mathlib.Tactic
import Schemata.Lexer.Quoted
import Schemata.Proofs.Lexer.Escapes
import Schemata.Proofs.Text.Trim

/-!
# Blanks behind quoted text

Quoted text is read in the same way if blanks are put behind the whole text: its closing mark is
found at the same place, and where it is missing it is not found among the blanks.
-/
namespace Schemata.Lexer

section Agree

variable {α β γ δ ε : Type*}

/-- Two outcomes that are failures both, or results that correspond. -/
inductive Agree (R : α → β → Prop) : Except ε α → Except ε β → Prop
  | ok {a : α} {b : β} : R a b → Agree R (.ok a) (.ok b)
  | error {e e' : ε} : Agree R (.error e) (.error e')

variable {R : α → β → Prop} {S : γ → δ → Prop}

theorem Agree.bind {x : Except ε α} {y : Except ε β} {f : α → Except ε γ} {g : β → Except ε δ}
    (h : Agree R x y) (hf : ∀ a b, R a b → Agree S (f a) (g b)) :
    Agree S (x.bind f) (y.bind g) := by
  cases h with
  | ok hab => exact hf _ _ hab
  | error => exact .error

theorem Agree.imp {R R' : α → β → Prop} {x : Except ε α} {y : Except ε β} (h : Agree R x y)
    (himp : ∀ a b, R a b → R' a b) : Agree R' x y := by
  cases h with
  | ok hab => exact .ok (himp _ _ hab)
  | error => exact .error

theorem Agree.and_left {x : Except ε α} {y : Except ε β} (h : Agree R x y) :
    Agree (fun a b => x = .ok a ∧ R a b) x y := by
  cases h with
  | ok hab => exact .ok ⟨rfl, hab⟩
  | error => exact .error

theorem Agree.of_errors {x : Except ε α} {y : Except ε β} (hx : ∃ e, x = .error e)
    (hy : ∃ e, y = .error e) : Agree R x y := by
  obtain ⟨e, rfl⟩ := hx
  obtain ⟨e', rfl⟩ := hy
  exact .error

end Agree

variable {l : Lexicon} {q : Quoting} {mark : Char} {text cs more : List Char}

/-! ## One character -/

theorem quotedText_escape {c : Char} {rest piece after : List Char}
    (h : q.escapeAt? l c rest = some (piece, after)) :
    quotedText l q text (c :: rest) = quotedText l q (text ++ piece) after := by
  rw [quotedText]
  split
  · next heq =>
    rw [h] at heq
    obtain ⟨rfl, rfl⟩ := Prod.mk.inj (Option.some.inj heq)
    rfl
  · next heq => rw [h] at heq; cases heq

theorem quotedText_last {c : Char} (h : q.escapeAt? l c [] = none) :
    quotedText l q text [c] =
      if q.delimiter = [c] then .ok (text, [])
      else if q.openEnded then .ok (text ++ [c], []) else .error [c] := by
  rw [quotedText]
  split
  · next heq => rw [h] at heq; cases heq
  · rfl

theorem quotedText_pair {c next : Char} {after : List Char}
    (h : q.escapeAt? l c (next :: after) = none) (he : q.isEscape l c next = true) :
    quotedText l q text (c :: next :: after) =
      if after.isEmpty then .error (c :: next :: after)
      else quotedText l q (text ++ q.escapeText l c next) after := by
  rw [quotedText]
  split
  · next heq => rw [h] at heq; cases heq
  · simp only [he, if_true]

theorem quotedText_next {c next : Char} {after : List Char}
    (h : q.escapeAt? l c (next :: after) = none) (he : q.isEscape l c next = false) :
    quotedText l q text (c :: next :: after) =
      match Text.after? q.delimiter (c :: next :: after) with
      | some after => .ok (text, after)
      | none => quotedText l q (text ++ [c]) (next :: after) := by
  rw [quotedText]
  split
  · next heq => rw [h] at heq; cases heq
  · cases hafter : Text.after? q.delimiter (c :: next :: after) <;> simp [he, hafter]

theorem escapeAt?_eq_none {c : Char} (h : ¬(c = '\\' ∧ q.raw = false ∧ '\\' ∈ q.escapes))
    (rest : List Char) : q.escapeAt? l c rest = none := by
  rw [Quoting.escapeAt?]
  split_ifs with hslash
  · cases rest with
    | nil => rfl
    | cons d ds =>
      rw [Quoting.backslashEscape?, if_pos]
      by_contra hraw
      exact h ⟨hslash, by simpa using hraw⟩
  · rfl

/-! ## Closing marks -/

/-- A text that ends in a mark is not continued by characters other than the mark. -/
theorem after?_append {opening : List Char} (h : opening.getLast? = some mark) (hmore : mark ∉ more)
    (cs : List Char) :
    Text.after? opening (cs ++ more) = (Text.after? opening cs).map (· ++ more) := by
  obtain ⟨init, rfl⟩ := List.getLast?_eq_some_iff.mp h
  cases hcs : Text.after? (init ++ [mark]) cs with
  | some rest =>
    rw [Text.after?_eq_some_iff] at hcs
    rw [Option.map_some, Text.after?_eq_some_iff, hcs, List.append_assoc]
  | none =>
    rw [Option.map_none, Option.eq_none_iff_forall_ne_some]
    intro rest hrest
    rw [Text.after?_eq_some_iff] at hrest
    rcases List.append_eq_append_iff.mp hrest with ⟨as, has, hbs⟩ | ⟨as, has, hbs⟩
    · -- the mark would stand behind the text
      cases as using List.reverseRecOn with
      | nil =>
        rw [List.append_nil] at has
        have hend : cs = init ++ [mark] ++ [] := by rw [← has, List.append_nil]
        rw [← Text.after?_eq_some_iff, hcs] at hend
        cases hend
      | append_singleton as a _ =>
        rw [← List.append_assoc] at has
        obtain ⟨-, ha⟩ := List.append_inj' has rfl
        obtain rfl := List.cons.inj ha |>.1
        exact hmore (hbs ▸ by simp)
    · have hfound := Text.after?_eq_some_iff.mpr has
      rw [hcs] at hfound
      cases hfound

/-- How quoted text is read that only its own mark can close: blanks belong neither to its delimiter
nor to its escapes, and a backslash does not hide the mark from a numeric escape. -/
structure ClosedBy (l : Lexicon) (q : Quoting) (mark : Char) : Prop where
  delimiter : q.delimiter.getLast? = some mark
  closed : q.openEnded = false
  nonblank : Text.isBlank mark = false
  escape : ∀ c, Text.isBlank c = true → c ∉ q.escapes ∧ q.escapesDelimiter l c = false
  ne_backslash : mark ≠ '\\'
  backslash : q.raw = false → '\\' ∈ q.escapes →
    q.delimiter = [mark] ∧ '\\' ∉ l.quotes ∧ (l.numericEscapes = true → IsInert mark)

variable (hq : ClosedBy l q mark)
include hq

/-- Without its mark quoted text is not closed. -/
theorem quotedText_of_not_mem (h : mark ∉ cs) : ∃ e, quotedText l q text cs = .error e := by
  fun_induction quotedText l q text cs with
  | case1 => exact ⟨_, rfl⟩
  | case2 text c rest piece after hescape ih =>
    refine ih fun hmem => h ?_
    rw [Quoting.escapeAt?] at hescape
    split_ifs at hescape
    exact List.mem_cons_of_mem c ((Quoting.backslashEscape?_suffix hescape).subset hmem)
  | case3 text c hescape hdelimiter =>
    have hlast := hq.delimiter
    rw [hdelimiter] at hlast
    simp_all
  | case4 text c hescape _ hopen =>
    rw [hq.closed] at hopen
    cases hopen
  | case5 => exact ⟨_, rfl⟩
  | case6 => exact ⟨_, rfl⟩
  | case7 text c next after hescape he hne ih =>
    exact ih fun hmem => h (List.mem_cons_of_mem c (List.mem_cons_of_mem next hmem))
  | case8 text c next after hescape he rest hfound =>
    rw [Text.after?_eq_some_iff] at hfound
    rw [hfound] at h
    exact absurd (List.mem_append_left rest (List.mem_of_getLast? hq.delimiter)) h
  | case9 text c next after hescape he hnone ih =>
    exact ih fun hmem => h (List.mem_cons_of_mem c hmem)

/-- An escape that does not take the mark as its last character is read in the same way. -/
theorem escapeAt?_behind {c : Char} {rest : List Char} (hmem : mark ∈ rest) (hne : rest ≠ [mark])
    (more : List Char) :
    q.escapeAt? l c (rest ++ more) = (q.escapeAt? l c rest).map (Prod.map id (· ++ more)) := by
  by_cases hslash : c = '\\'
  · rw [Quoting.escapeAt?, Quoting.escapeAt?, if_pos hslash, if_pos hslash]
    obtain ⟨d, ds, rfl⟩ := List.exists_cons_of_ne_nil (List.ne_nil_of_mem hmem)
    have hds : ds ≠ [] := by
      rintro rfl
      exact hne (by rw [List.mem_singleton.mp hmem])
    rw [List.cons_append, Quoting.backslashEscape?, Quoting.backslashEscape?]
    by_cases hraw : (q.raw || decide ('\\' ∉ q.escapes)) = true
    · rw [if_pos hraw, if_pos hraw]
      rfl
    · rw [if_neg hraw, if_neg hraw]
      simp only [Bool.or_eq_true, decide_eq_true_eq, not_or, not_not, Bool.not_eq_true] at hraw
      obtain ⟨-, -, hinert⟩ := hq.backslash hraw.1 hraw.2
      have hnumeric : (if l.numericEscapes then numericEscape? (d :: (ds ++ more)) else none) =
          (if l.numericEscapes then numericEscape? (d :: ds) else none).map
            (Prod.map id (· ++ more)) := by
        by_cases hescapes : l.numericEscapes = true
        · rw [if_pos hescapes, if_pos hescapes]
          exact (stopsBefore_numericEscape? (hinert hescapes) (d :: ds) more hmem).1
        · rw [if_neg hescapes, if_neg hescapes]
          rfl
      dsimp only
      rw [hnumeric]
      cases (if l.numericEscapes then numericEscape? (d :: ds) else none) with
      | some p => rfl
      | none =>
        simp only [Option.map_none, List.isEmpty_iff, List.append_eq_nil_iff, hds, false_and,
          if_false]
        cases l.fixedEscapes.lookup d with
        | some piece => rfl
        | none =>
          simp only
          split_ifs <;> rfl
  · rw [Quoting.escapeAt?, Quoting.escapeAt?, if_neg hslash, if_neg hslash]
    rfl

/-- An escaped mark with nothing but blanks behind it leaves the text open. -/
theorem quotedText_escaped_mark (hraw : q.raw = false) (hescape : '\\' ∈ q.escapes)
    (hmore : mark ∉ more) : ∃ e, quotedText l q text ('\\' :: mark :: more) = .error e := by
  obtain ⟨hdelimiter, hquotes, hinert⟩ := hq.backslash hraw hescape
  cases hat : q.escapeAt? l '\\' (mark :: more) with
  | none =>
    have he : q.isEscape l '\\' mark = true := by
      simp [Quoting.isEscape, hescape, Quoting.escapesDelimiter, hdelimiter, hquotes]
    rw [quotedText_pair hat he]
    split_ifs
    · exact ⟨_, rfl⟩
    · exact quotedText_of_not_mem hq hmore
  | some p =>
    obtain ⟨piece, after⟩ := p
    have hafter : after = more := by
      have hnumeric :
          (if l.numericEscapes then numericEscape? (mark :: more) else none) = none := by
        split_ifs with hescapes
        · exact numericEscape?_mark (hinert hescapes) more
        · rfl
      rw [Quoting.escapeAt?, if_pos rfl, Quoting.backslashEscape?] at hat
      simp only [hnumeric] at hat
      split_ifs at hat
      · cases hlookup : l.fixedEscapes.lookup mark <;> simp_all
      · cases hlookup : l.fixedEscapes.lookup mark <;> simp_all
    rw [quotedText_escape hat, hafter]
    exact quotedText_of_not_mem hq hmore

theorem after?_mark : Text.after? q.delimiter [mark] =
    if q.delimiter = [mark] then some [] else none := by
  split_ifs with h
  · exact Text.after?_eq_some_iff.mpr (by rw [h, List.append_nil])
  · rw [Option.eq_none_iff_forall_ne_some]
    intro rest hrest
    rw [Text.after?_eq_some_iff] at hrest
    obtain ⟨hnil, -⟩ | ⟨hone, -⟩ := List.append_eq_singleton_iff.mp hrest.symm
    · simpa [hnil] using hq.delimiter
    · exact h hone

/-- An escape is read in the same way, unless it takes a mark at the end of the text. -/
theorem escapeAt?_append {c : Char} {rest : List Char} (hmem : mark ∈ c :: rest)
    (hend : ¬(rest = [mark] ∧ c = '\\' ∧ q.raw = false ∧ '\\' ∈ q.escapes)) (more : List Char) :
    q.escapeAt? l c (rest ++ more) = (q.escapeAt? l c rest).map (Prod.map id (· ++ more)) := by
  by_cases hrest : mark ∈ rest
  · by_cases hone : rest = [mark]
    · have hnone : ∀ ds, q.escapeAt? l c ds = none := escapeAt?_eq_none fun h => hend ⟨hone, h⟩
      rw [hnone, hnone]
      rfl
    · exact escapeAt?_behind hq hrest hone more
  · obtain rfl : mark = c := (List.mem_cons.mp hmem).resolve_right hrest
    rw [Quoting.escapeAt?, Quoting.escapeAt?, if_neg hq.ne_backslash, if_neg hq.ne_backslash]
    rfl

section Blanks

variable (hmore : ∀ c ∈ more, Text.isBlank c = true)
include hmore

/-- A mark at the end of a text closes it, or its delimiter is not complete. -/
theorem quotedText_mark_behind (text : List Char) :
    Agree (fun a b => b.1 = a.1 ∧ b.2 = a.2 ++ more) (quotedText l q text [mark])
      (quotedText l q text (mark :: more)) := by
  have hmark := Text.not_mem_of_blanks hq.nonblank hmore
  have hplain : ∀ rest, q.escapeAt? l mark rest = none := fun rest => if_neg hq.ne_backslash
  have hlast : quotedText l q text [mark] =
      if q.delimiter = [mark] then .ok (text, []) else .error [mark] := by
    rw [quotedText_last (hplain []), hq.closed]
    rfl
  cases more with
  | nil =>
    rw [hlast]
    split_ifs
    · exact .ok ⟨rfl, rfl⟩
    · exact .error
  | cons x more =>
    have he : q.isEscape l mark x = false := by
      obtain ⟨hx, hx'⟩ := hq.escape x (hmore x List.mem_cons_self)
      simp [Quoting.isEscape, hx, hx']
    have hafter := after?_append hq.delimiter hmark [mark]
    rw [after?_mark hq, List.singleton_append] at hafter
    rw [hlast, quotedText_next (hplain _) he, hafter]
    split_ifs
    · exact .ok ⟨rfl, rfl⟩
    · exact .of_errors ⟨_, rfl⟩ (quotedText_of_not_mem hq hmark)

/-- A character that begins no escape is read in the same way, if all shorter texts are. -/
theorem quotedText_next_behind {c next : Char} {after : List Char}
    (hread : q.escapeAt? l c (next :: after) = none)
    (hat : q.escapeAt? l c (next :: (after ++ more)) = none)
    (hshorter : ∀ ds : List Char, ds.length < (c :: next :: after).length → ∀ text,
      Agree (fun a b => b.1 = a.1 ∧ b.2 = a.2 ++ more) (quotedText l q text ds)
        (quotedText l q text (ds ++ more))) (text : List Char) :
    Agree (fun a b => b.1 = a.1 ∧ b.2 = a.2 ++ more) (quotedText l q text (c :: next :: after))
      (quotedText l q text (c :: next :: (after ++ more))) := by
  have hmark := Text.not_mem_of_blanks hq.nonblank hmore
  by_cases he : q.isEscape l c next = true
  · rw [quotedText_pair hread he, quotedText_pair hat he]
    cases after with
    | nil =>
      refine .of_errors ⟨_, rfl⟩ ?_
      split_ifs
      · exact ⟨_, rfl⟩
      · exact quotedText_of_not_mem hq hmark
    | cons d after => exact hshorter (d :: after) (by simp) _
  · rw [Bool.not_eq_true] at he
    rw [quotedText_next hread he, quotedText_next hat he, ← List.cons_append, ← List.cons_append,
      after?_append hq.delimiter hmark]
    cases Text.after? q.delimiter (c :: next :: after) with
    | some rest => exact .ok ⟨rfl, rfl⟩
    | none => exact hshorter (next :: after) (by simp) _

/-- Blanks behind a text change nothing in the quoted text at its front. -/
theorem quotedText_behind (text cs : List Char) :
    Agree (fun a b => b.1 = a.1 ∧ b.2 = a.2 ++ more) (quotedText l q text cs)
      (quotedText l q text (cs ++ more)) := by
  have hmark := Text.not_mem_of_blanks hq.nonblank hmore
  induction hn : cs.length using Nat.strong_induction_on generalizing text cs with
  | _ n ih =>
    have hnext : ∀ ds : List Char, ds.length < cs.length → ∀ text,
        Agree (fun a b => b.1 = a.1 ∧ b.2 = a.2 ++ more) (quotedText l q text ds)
          (quotedText l q text (ds ++ more)) := fun ds hlt text => ih _ (hn ▸ hlt) text ds rfl
    by_cases hmem : mark ∈ cs
    swap
    · have hmem' : mark ∉ cs ++ more := by simp [hmem, hmark]
      exact .of_errors (quotedText_of_not_mem hq hmem) (quotedText_of_not_mem hq hmem')
    obtain _ | ⟨c, _ | ⟨next, after⟩⟩ := cs
    · cases hmem
    · obtain rfl : mark = c := by simpa using hmem
      exact quotedText_mark_behind hq hmore text
    · by_cases hend : next :: after = [mark] ∧ c = '\\' ∧ q.raw = false ∧ '\\' ∈ q.escapes
      · -- the mark is escaped and nothing stands behind it
        obtain ⟨hone, rfl, hraw, hescape⟩ := hend
        rw [hone, List.cons_append, List.singleton_append]
        exact .of_errors (quotedText_escaped_mark hq hraw hescape List.not_mem_nil)
          (quotedText_escaped_mark hq hraw hescape hmark)
      have hat := escapeAt?_append hq hmem hend more
      cases hread : q.escapeAt? l c (next :: after) with
      | some p =>
        obtain ⟨piece, rest⟩ := p
        have hlt := Quoting.escapeAt?_length hread
        rw [hread] at hat
        rw [quotedText_escape hread, List.cons_append, quotedText_escape hat]
        exact hnext rest hlt _
      | none =>
        rw [hread, List.cons_append, Option.map_none] at hat
        rw [List.cons_append, List.cons_append]
        exact quotedText_next_behind hq hmore hread hat hnext text

end Blanks

end Schemata.Lexer
