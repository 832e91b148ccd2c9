import Mathlib.Data.List.Basic
import Mathlib.Tactic
import Schemata.Proofs.Lexer.Scanning

/-!
# The tokens of a text with blanks around it

A scan passes over the blanks before a text, so that the text with blanks around it has the same
tokens, further on. Only the last one may reach into the blanks behind.
-/
namespace Schemata.Lexer

open Text Progress

variable {l : Lexicon} {before rest : List Char}

/-! ## Blanks before a text -/

theorem scan_of_step {p q : Progress} (h : step l p = .ok (none, q)) (hne : p.rest ≠ [])
    (fuel : ℕ) :
    scan l (fuel + 1) false p = scan l fuel false q := by
  rw [scan_succ l fuel false hne, h]
  rfl

theorem dropWhile_spaces (hrest : ∀ c, rest.head? = some c → isBlank c = false)
    (before : List Char) :
    (before ++ rest).dropWhile (fun c => c = ' ' || c = '\t') =
      before.dropWhile (fun c => c = ' ' || c = '\t') ++ rest := by
  have hself : rest.dropWhile (fun c => c = ' ' || c = '\t') = rest := by
    cases rest with
    | nil => rfl
    | cons c cs =>
      refine List.dropWhile_cons_of_neg fun hspace => ?_
      have hblank := hrest c rfl
      simp only [Bool.or_eq_true, decide_eq_true_eq] at hspace
      obtain rfl | rfl := hspace <;> revert hblank <;> decide
  rw [List.dropWhile_append, hself]
  split_ifs with hnil
  · rw [List.isEmpty_iff.mp hnil, List.nil_append]
  · rfl

/-- A step over the first blanks of a text. -/
theorem step_leading (l : Lexicon) {c : Char} (hc : isBlank c = true)
    (hrest : ∀ c, rest.head? = some c → isBlank c = false) (before : List Char)
    (start position : ℕ) (tokens : List Token) :
    ∃ start' later, later <:+ before ∧
      step l ⟨start, position, c :: before ++ rest, tokens⟩ =
        .ok (none,
          ⟨start', position + (before.length + 1 - later.length), later ++ rest, tokens⟩) := by
  have hmoved : ∀ later : List Char,
      position + ((c :: before ++ rest).length - (later ++ rest).length) =
        position + (before.length + 1 - later.length) := by
    intro later
    rw [List.length_append, List.length_append, Nat.add_sub_add_right, List.length_cons]
  have hspaces := dropWhile_spaces hrest (c :: before)
  by_cases hspace : (c = ' ' || c = '\t') = true
  · rw [List.dropWhile_cons_of_pos (p := fun c => c = ' ' || c = '\t') hspace] at hspaces
    have hsuffix := List.dropWhile_suffix (l := before) fun c => c = ' ' || c = '\t'
    generalize (before.dropWhile fun c => c = ' ' || c = '\t') = later at hspaces hsuffix
    have hlt : (later ++ rest).length < (c :: before ++ rest).length := by
      have hle := hsuffix.length_le
      rw [List.length_append, List.length_append, List.length_cons]
      omega
    refine ⟨position + (before.length + 1 - later.length), later, hsuffix, ?_⟩
    rw [step]
    simp only [hspaces, if_pos hlt]
    rw [moveTo, ← hmoved]
    rfl
  · rw [List.dropWhile_cons_of_neg (p := fun c => c = ' ' || c = '\t') hspace] at hspaces
    refine ⟨position, before, List.suffix_rfl, ?_⟩
    rw [step]
    simp only [hspaces, Nat.lt_irrefl, if_false]
    simp only [List.cons_append, hc, if_true]
    rw [moveTo, ← hmoved]
    rfl

/-- Blanks before a text are passed over. -/
theorem scan_leading (l : Lexicon) (hbefore : ∀ c ∈ before, isBlank c = true)
    (hrest : ∀ c, rest.head? = some c → isBlank c = false) {fuel : ℕ} (start position : ℕ)
    (tokens : List Token) (hfuel : before.length + rest.length < fuel) :
    ∃ fuel' start', rest.length < fuel' ∧
      scan l fuel false ⟨start, position, before ++ rest, tokens⟩ =
        scan l fuel' false ⟨start', position + before.length, rest, tokens⟩ := by
  induction fuel generalizing before start position with
  | zero => exact absurd hfuel (Nat.not_lt_zero _)
  | succ fuel ih =>
    cases before with
    | nil => exact ⟨fuel + 1, start, by simpa using hfuel, rfl⟩
    | cons c before =>
      obtain ⟨start', later, hlater, hstep⟩ := step_leading l (hbefore c List.mem_cons_self) hrest
        before start position tokens
      have hle := hlater.length_le
      have hblanks : ∀ d ∈ later, isBlank d = true := fun d hd =>
        hbefore d (List.mem_cons_of_mem c (hlater.subset hd))
      rw [List.length_cons] at hfuel
      obtain ⟨fuel', start'', hlong, hscan⟩ :=
        ih hblanks start' (position + (before.length + 1 - later.length)) (by omega)
      have hposition : position + (before.length + 1 - later.length) + later.length =
          position + (c :: before).length := by
        rw [List.length_cons]
        omega
      rw [hposition] at hscan
      exact ⟨fuel', start'', hlong, (scan_of_step hstep (List.cons_ne_nil _ _) fuel).trans hscan⟩

/-- Where a token is read, the scan does not depend on where the last step began. -/
theorem scan_start (l : Lexicon) {c : Char} (hc : isBlank c = false) {fuel : ℕ} (hfuel : 0 < fuel)
    (start start' position : ℕ) (cs : List Char) (tokens : List Token) :
    scan l fuel false ⟨start, position, c :: cs, tokens⟩ =
      scan l fuel false ⟨start', position, c :: cs, tokens⟩ := by
  obtain ⟨fuel, rfl⟩ := Nat.exists_eq_succ_of_ne_zero hfuel.ne'
  have hstep : step l ⟨start, position, c :: cs, tokens⟩ =
      step l ⟨start', position, c :: cs, tokens⟩ := by
    have hhead : ∀ d, (c :: cs).head? = some d → isBlank d = false := by simpa using hc
    have hspaces := dropWhile_spaces hhead []
    rw [step, step]
    simp only [List.nil_append, List.dropWhile_nil] at hspaces
    simp only [hspaces, Nat.lt_irrefl, if_false]
  rw [scan_succ l fuel false (List.cons_ne_nil _ _), scan_succ l fuel false (List.cons_ne_nil _ _),
    hstep]

/-! ## Blanks on both sides -/

/-- The tokens of a text of length `n`, and those of the text with `k` characters before it and
blanks behind it: the same ones further on, where only the last one may reach into the blanks. -/
def TokensAround (k n : ℕ) (ts ts' : List Token) : Prop :=
  (∀ t ∈ ts, t.stop < n) ∧ (ts' = ts.map (Token.moved k) ∨
    ∃ init t t', ts = init ++ [t] ∧ ts' = init.map (Token.moved k) ++ [t'] ∧ Token.Late k n t t')

theorem Progress.Around.tokensAround {k n : ℕ} {blanks : List Char} {p p' : Progress}
    (h : Around k n blanks p p') : TokensAround k n p.tokens.reverse p'.tokens.reverse := by
  refine ⟨fun t ht => h.stop_lt t (List.mem_reverse.mp ht), ?_⟩
  obtain htokens | ⟨-, t, t', before, htokens, htokens', hlate⟩ := h.tokens
  · exact .inl (by rw [htokens, List.map_reverse])
  · refine .inr ⟨before.reverse, t, t', ?_, ?_, hlate⟩
    · rw [htokens, List.reverse_cons]
    · rw [htokens', List.reverse_cons, List.map_reverse]

/-- The tokens of a text do not depend on blanks around it. -/
theorem tokens_around {d : Dialect} {text after : List Char}
    (hbefore : ∀ c ∈ before, isBlank c = true) (hafter : ∀ c ∈ after, isBlank c = true)
    (hhead : ∀ c, text.head? = some c → isBlank c = false)
    (hsettled : d = .postgresql → EndsSettled text) :
    Agree (TokensAround before.length text.length) (tokens d.lexicon text)
      (tokens d.lexicon (before ++ text ++ after)) := by
  rw [tokens, tokens]
  cases text with
  | nil =>
    have hblank : ∀ c ∈ before ++ [] ++ after, isBlank c = true := by
      simpa using fun c hc => hc.elim (hbefore c) (hafter c)
    obtain ⟨q, hscan, -, htokens, -⟩ := scan_blanks d.lexicon false
      (p := ⟨0, 0, before ++ [] ++ after, []⟩) hblank (Nat.lt_succ_self _)
    rw [hscan]
    refine .ok ⟨by simp, .inl ?_⟩
    rw [htokens]
    rfl
  | cons c text =>
    have hc : isBlank c = false := hhead c rfl
    have hrest : ∀ e, (c :: text ++ after).head? = some e → isBlank e = false := by simpa using hc
    have hlong : before.length + (c :: text ++ after).length <
        (before ++ (c :: text ++ after)).length + 1 := by
      rw [← List.length_append]
      exact Nat.lt_succ_self _
    obtain ⟨fuel, start, hfuel, hscan⟩ := scan_leading d.lexicon hbefore hrest 0 0 [] hlong
    have hstart : scan d.lexicon fuel false ⟨start, 0 + before.length, c :: text ++ after, []⟩ =
        scan d.lexicon fuel false ⟨0 + before.length, 0 + before.length, c :: text ++ after, []⟩ :=
      scan_start d.lexicon hc (Nat.zero_lt_of_lt hfuel) ..
    have haround : Around before.length (c :: text).length after ⟨0, 0, c :: text, []⟩
        ⟨0 + before.length, 0 + before.length, c :: text ++ after, []⟩ :=
      ⟨⟨Nat.zero_add _, .inl ⟨rfl, rfl, rfl⟩⟩, by simp, .inl rfl⟩
    have hagree := scan_around hafter false haround hsettled (Nat.lt_succ_self _)
      (List.length_append ▸ hfuel)
    rw [List.append_assoc, hscan, hstart]
    generalize scan d.lexicon ((c :: text).length + 1) false ⟨0, 0, c :: text, []⟩ = x at hagree ⊢
    generalize scan d.lexicon fuel false _ = y at hagree ⊢
    cases hagree with
    | ok h => exact .ok h.1.tokensAround
    | error => exact .error

end Schemata.Lexer
