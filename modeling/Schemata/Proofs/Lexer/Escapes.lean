import Mathlib.Data.List.Basic
import Mathlib.Tactic
import Schemata.Lexer.Escape

/-!
# Escapes before a mark

A numeric escape never reads over a mark that is no part of its notation, such as a quote. Whatever
stands behind the mark, the escape in front of it stands for the same character.
-/
namespace Schemata.Lexer

variable {α β : Type*} {mark : Char}

/-- A reader that stops before a mark and does not depend on what stands behind it. -/
def StopsBefore (mark : Char) (read : List Char → Option (α × List Char)) : Prop :=
  ∀ cs more, mark ∈ cs →
    read (cs ++ more) = (read cs).map (Prod.map id (· ++ more)) ∧
      ∀ a rest, read cs = some (a, rest) → mark ∈ rest

theorem StopsBefore.bind {f : List Char → Option (α × List Char)}
    {g : α → List Char → Option (β × List Char)} (hf : StopsBefore mark f)
    (hg : ∀ a, StopsBefore mark (g a)) :
    StopsBefore mark fun cs => (f cs).bind fun p => g p.1 p.2 := by
  intro cs more hmem
  obtain ⟨hmore, hstop⟩ := hf cs more hmem
  cases hread : f cs with
  | none => simp [hmore, hread]
  | some p =>
    obtain ⟨hmore', hstop'⟩ := hg p.1 p.2 more (hstop p.1 p.2 hread)
    exact ⟨by simpa [hmore, hread] using hmore', by simpa [hread] using hstop'⟩

theorem stopsBefore_pure (a : α) : StopsBefore mark fun cs => some (a, cs) :=
  fun _ _ hmem => ⟨rfl, fun _ _ h => (Prod.mk.inj (Option.some.inj h)).2 ▸ hmem⟩

theorem stopsBefore_none : StopsBefore mark fun _ => (none : Option (α × List Char)) :=
  fun _ _ _ => ⟨rfl, fun _ _ h => by cases h⟩

theorem StopsBefore.ite {f g : List Char → Option (α × List Char)} {p : Prop} [Decidable p]
    (hf : StopsBefore mark f) (hg : StopsBefore mark g) :
    StopsBefore mark fun cs => if p then f cs else g cs := by
  by_cases h : p
  · simpa [h] using hf
  · simpa [h] using hg

/-- A character that is no part of a numeric escape. -/
structure IsInert (mark : Char) : Prop where
  digit : Text.hexDigit? mark = none
  symbol : mark ∉ ['\\', 'x', 'u', 'U']

theorem IsInert.ne_backslash (h : IsInert mark) : mark ≠ '\\' := by
  rintro rfl
  exact h.symbol (by decide)

theorem IsInert.digitBelow? (h : IsInert mark) (base : ℕ) : Text.digitBelow? base mark = none := by
  rw [Text.digitBelow?, h.digit]
  rfl

/-! ## One number -/

theorem stopsBefore_escapeForm? (h : IsInert mark) : StopsBefore mark escapeForm? := by
  intro cs more hmem
  obtain ⟨c, cs, rfl⟩ := List.exists_cons_of_ne_nil (List.ne_nil_of_mem hmem)
  have hletter : ∀ letter ∈ ['\\', 'x', 'u', 'U'], c = letter → mark ∈ cs := by
    rintro letter hletter rfl
    refine (List.mem_cons.mp hmem).resolve_left ?_
    rintro rfl
    exact h.symbol hletter
  rw [List.cons_append]
  by_cases hx : c = 'x'
  · have hcs := hletter 'x' (by decide) hx
    subst hx
    exact ⟨rfl, fun _ _ heq => (Prod.mk.inj (Option.some.inj heq)).2 ▸ hcs⟩
  by_cases hu : c = 'u'
  · have hcs := hletter 'u' (by decide) hu
    subst hu
    exact ⟨rfl, fun _ _ heq => (Prod.mk.inj (Option.some.inj heq)).2 ▸ hcs⟩
  by_cases hU : c = 'U'
  · have hcs := hletter 'U' (by decide) hU
    subst hU
    exact ⟨rfl, fun _ _ heq => (Prod.mk.inj (Option.some.inj heq)).2 ▸ hcs⟩
  have hplain : ∀ ds, escapeForm? (c :: ds) =
      if (Text.digitBelow? 8 c).isSome then some (.octal, c :: ds) else none := by
    intro ds
    rw [escapeForm?]
    · exact fun he => hx he
    · exact fun he => hu he
    · exact fun he => hU he
  rw [hplain, hplain]
  split_ifs
  · exact ⟨rfl, fun _ _ heq => (Prod.mk.inj (Option.some.inj heq)).2 ▸ hmem⟩
  · exact ⟨rfl, fun _ _ heq => by cases heq⟩

/-- Digits end before the mark at the latest. -/
theorem escapeDigits_append (h : IsInert mark) (f : EscapeForm) {cs : List Char} (hmem : mark ∈ cs)
    (more : List Char) (most value count : ℕ) :
    escapeDigits f most value count (cs ++ more) = escapeDigits f most value count cs ∧
      ∃ k, (escapeDigits f most value count cs).2 = count + k ∧ mark ∈ cs.drop k := by
  induction cs generalizing most value count with
  | nil => cases hmem
  | cons c cs ih =>
    cases most with
    | zero => exact ⟨rfl, 0, rfl, hmem⟩
    | succ most =>
      rw [List.cons_append, escapeDigits, escapeDigits]
      cases hdigit : Text.digitBelow? f.base c with
      | none => exact ⟨rfl, 0, rfl, hmem⟩
      | some d =>
        have hcs : mark ∈ cs := by
          refine (List.mem_cons.mp hmem).resolve_left ?_
          rintro rfl
          rw [h.digitBelow?] at hdigit
          cases hdigit
        simp only
        split_ifs
        · exact ⟨rfl, 0, rfl, hmem⟩
        · obtain ⟨hmore, k, hk, hdrop⟩ := ih hcs most (value * f.base + d) (count + 1)
          exact ⟨hmore, k + 1, by rw [hk]; omega, hdrop⟩

theorem stopsBefore_escapeNumber? (h : IsInert mark) (f : EscapeForm) :
    StopsBefore mark (escapeNumber? f) := by
  intro cs more hmem
  obtain ⟨hmore, k, hk, hdrop⟩ := escapeDigits_append h f hmem more f.most 0 0
  have hle : k ≤ cs.length := by
    by_contra hlt
    rw [List.drop_eq_nil_of_le (by omega)] at hdrop
    cases hdrop
  rw [escapeNumber?, escapeNumber?, hmore]
  generalize escapeDigits f f.most 0 0 cs = digits at hk
  obtain ⟨value, count⟩ := digits
  obtain rfl : count = k := by simpa using hk
  simp only
  split_ifs
  · refine ⟨by simp [List.drop_append_of_le_length hle], fun _ _ heq => ?_⟩
    exact (Prod.mk.inj (Option.some.inj heq)).2 ▸ hdrop
  · refine ⟨by simp [List.drop_append_of_le_length hle], fun _ _ heq => ?_⟩
    exact (Prod.mk.inj (Option.some.inj heq)).2 ▸ hdrop
  · exact ⟨rfl, fun _ _ heq => by cases heq⟩

/-! ## Bytes of one character -/

theorem stopsBefore_continuationByte? (h : IsInert mark) : StopsBefore mark continuationByte? := by
  intro cs more hmem
  obtain ⟨c, cs, rfl⟩ := List.exists_cons_of_ne_nil (List.ne_nil_of_mem hmem)
  by_cases hslash : c = '\\'
  · subst hslash
    have hcs : mark ∈ cs := (List.mem_cons.mp hmem).resolve_left h.ne_backslash
    have hread : ∀ f : EscapeForm, StopsBefore mark fun ds => (escapeNumber? f ds).bind fun p =>
        if f.isByte && 0x80 ≤ p.1 && p.1 ≤ 0xBF then some (p.1, p.2) else none := fun f =>
      (stopsBefore_escapeNumber? h f).bind fun byte =>
        StopsBefore.ite (p := (f.isByte && 0x80 ≤ byte && byte ≤ 0xBF) = true)
          (stopsBefore_pure byte) stopsBefore_none
    exact ((stopsBefore_escapeForm? h).bind hread) cs more hcs
  · have hnone : ∀ ds, continuationByte? (c :: ds) = none := by
      intro ds
      rw [continuationByte?]
      exact fun _ he => hslash (List.cons.inj he).1
    rw [List.cons_append, hnone, hnone]
    exact stopsBefore_none (c :: cs) more hmem

theorem stopsBefore_continuation? (h : IsInert mark) (count bits : ℕ) :
    StopsBefore mark (continuation? count bits) := by
  induction count generalizing bits with
  | zero => exact stopsBefore_pure bits
  | succ count ih =>
    have hstep : continuation? (count + 1) bits = fun cs => (continuationByte? cs).bind fun p =>
        continuation? count (bits * 0x40 + (p.1 - 0x80)) p.2 := by
      funext cs
      rw [continuation?]
      rfl
    rw [hstep]
    exact StopsBefore.bind (g := fun byte => continuation? count (bits * 0x40 + (byte - 0x80)))
      (stopsBefore_continuationByte? h) fun byte => ih _

theorem stopsBefore_encodedChar? (h : IsInert mark) (lead : ℕ) :
    StopsBefore mark (encodedChar? lead) := by
  have hdecode : ∀ least count bits : ℕ, StopsBefore mark fun cs =>
      (continuation? count bits cs).bind fun p =>
        if least ≤ p.1 && p.1.isValidChar then some (Char.ofNat p.1, p.2) else none :=
    fun least count bits => (stopsBefore_continuation? h count bits).bind fun n =>
      StopsBefore.ite (p := (least ≤ n && n.isValidChar) = true)
        (stopsBefore_pure (Char.ofNat n)) stopsBefore_none
  have hread : encodedChar? lead = fun cs =>
      if lead < 0xC2 || 0xF4 < lead then none
      else
        let form := if lead < 0xE0 then (1, lead - 0xC0, 0x80)
          else if lead < 0xF0 then (2, lead - 0xE0, 0x800) else (3, lead - 0xF0, 0x10000)
        (continuation? form.1 form.2.1 cs).bind fun p =>
          if form.2.2 ≤ p.1 && p.1.isValidChar then some (Char.ofNat p.1, p.2) else none := by
    funext cs
    rw [encodedChar?]
    split_ifs <;> simp only <;> split <;> simp_all
  rw [hread]
  exact StopsBefore.ite stopsBefore_none (hdecode _ _ _)

/-! ## The whole escape -/

/-- The character of a pair of surrogates, given the first of them and the text behind it. -/
def surrogatePair? (f : EscapeForm) (letter : Char) (n : ℕ) :
    List Char → Option (Char × List Char)
  | '\\' :: c :: cs => (escapeNumber? f cs).bind fun p =>
    if c = letter ∧ 0xDC00 ≤ p.1 ∧ p.1 ≤ 0xDFFF then
      some (Char.ofNat (0x10000 + (n - 0xD800) * 0x400 + (p.1 - 0xDC00)), p.2)
    else none
  | _ => none

theorem stopsBefore_surrogatePair? (h : IsInert mark) (f : EscapeForm) {letter : Char}
    (hletter : letter ≠ mark) (n : ℕ) : StopsBefore mark (surrogatePair? f letter n) := by
  intro cs more hmem
  match cs with
  | [] => cases hmem
  | [c] =>
    obtain rfl : mark = c := by simpa using hmem
    simp [surrogatePair?, h.ne_backslash]
  | a :: c :: cs =>
    by_cases hslash : a = '\\'
    · subst hslash
      have hrest : mark ∈ c :: cs := (List.mem_cons.mp hmem).resolve_left h.ne_backslash
      by_cases hc : c = letter
      · have hcs : mark ∈ cs := (List.mem_cons.mp hrest).resolve_left fun he =>
          hletter (hc.symm.trans he.symm)
        exact ((stopsBefore_escapeNumber? h f).bind fun low =>
          StopsBefore.ite (p := c = letter ∧ 0xDC00 ≤ low ∧ low ≤ 0xDFFF)
            (stopsBefore_pure (Char.ofNat (0x10000 + (n - 0xD800) * 0x400 + (low - 0xDC00))))
            stopsBefore_none) cs more hcs
      · simp [surrogatePair?, hc]
    · simp [surrogatePair?, hslash]

theorem stopsBefore_wideChar? (h : IsInert mark) (f : EscapeForm) {letter : Char}
    (hletter : letter ≠ mark) (n : ℕ) : StopsBefore mark (wideChar? f letter n) := by
  have hread : wideChar? f letter n = fun cs =>
      if n.isValidChar then some (Char.ofNat n, cs)
      else if 0xD800 ≤ n && n ≤ 0xDBFF then surrogatePair? f letter n cs
      else none := rfl
  rw [hread]
  exact StopsBefore.ite (stopsBefore_pure _)
    (StopsBefore.ite (stopsBefore_surrogatePair? h f hletter n) stopsBefore_none)

theorem stopsBefore_nonempty (a : α) :
    StopsBefore mark fun cs => if cs.isEmpty then none else some (a, cs) := by
  intro cs more hmem
  obtain ⟨c, cs, rfl⟩ := List.exists_cons_of_ne_nil (List.ne_nil_of_mem hmem)
  exact stopsBefore_pure a (c :: cs) more hmem

/-- The mark itself begins no escape. -/
theorem numericEscape?_mark (h : IsInert mark) (cs : List Char) :
    numericEscape? (mark :: cs) = none := by
  have hform : escapeForm? (mark :: cs) = none := by
    rw [escapeForm?, h.digitBelow?]
    · rfl
    all_goals
      rintro rfl
      exact h.symbol (by decide)
  simp [numericEscape?, hform]

/-- The character of an escaped byte: that of an encoding which it begins, or else its own. -/
def byteChar? (n : ℕ) (rest : List Char) : Option (Char × List Char) :=
  match encodedChar? n rest with
  | some (c, after) =>
    if after.isEmpty then (if rest.isEmpty then none else some (Char.ofNat n, rest))
    else some (c, after)
  | none => if rest.isEmpty then none else some (Char.ofNat n, rest)

theorem stopsBefore_byteChar? (h : IsInert mark) (n : ℕ) : StopsBefore mark (byteChar? n) := by
  intro rest more hmem
  obtain ⟨hchar, hafter⟩ := stopsBefore_encodedChar? h n rest more hmem
  simp only [byteChar?, hchar]
  cases hread : encodedChar? n rest with
  | none => exact stopsBefore_nonempty _ rest more hmem
  | some p =>
    have hmark := hafter p.1 p.2 hread
    have hne : p.2 ≠ [] := List.ne_nil_of_mem hmark
    refine ⟨by simp [hne, Prod.map], fun a after heq => ?_⟩
    obtain rfl : p = (a, after) := by simpa [hne] using heq
    exact hmark

/-- An escape before a mark stands for the same character, whatever stands behind the mark. -/
theorem stopsBefore_numericEscape? (h : IsInert mark) : StopsBefore mark numericEscape? := by
  intro cs more hmem
  obtain ⟨c, cs, rfl⟩ := List.exists_cons_of_ne_nil (List.ne_nil_of_mem hmem)
  by_cases hletter : c = mark
  · rw [List.cons_append, hletter, numericEscape?_mark h, numericEscape?_mark h]
    exact stopsBefore_none (mark :: cs) more List.mem_cons_self
  · exact ((stopsBefore_escapeForm? h).bind fun f => (stopsBefore_escapeNumber? h f).bind fun n =>
      StopsBefore.ite (p := f.isByte = true) (stopsBefore_byteChar? h n)
        ((stopsBefore_wideChar? h f hletter n).bind fun c => stopsBefore_nonempty c))
      (c :: cs) more hmem

end Schemata.Lexer
