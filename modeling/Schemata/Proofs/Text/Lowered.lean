import Mathlib.Tactic
import Schemata.Proofs.Text.Recased
import Schemata.Proofs.Text.Trim

/-!
# Small letters and blanks

A blank is its own small letter and no other character has a blank among its small letters. The
blanks around a text are no neighbours of its letters, so the small letters of a trimmed text are
the trimmed small letters of the text.
-/
namespace Schemata.Text

variable {c : Char} {cs before after : List Char}

/-! ## Characters -/

theorem lowerCharBetween_of_isBlank (hc : isBlank c = true) (before after : List Char) :
    lowerCharBetween before c after = [c] := by
  have hsmall : asciiLower c = c ∧ shiftCase lowerShifts c = c ∧ c ≠ 'Σ' ∧ c ≠ 'İ' :=
    forall_blank (P := fun c => asciiLower c = c ∧ shiftCase lowerShifts c = c ∧ c ≠ 'Σ' ∧ c ≠ 'İ')
      (by decide +kernel) hc
  simp [lowerCharBetween, hsmall]

/-- No character is moved to a blank. -/
theorem isBlank_shiftCase (hc : isBlank c = false) : isBlank (shiftCase lowerShifts c) = false := by
  have hapart : ∀ shift ∈ lowerShifts, ∀ n ∈ blankCodes,
      n < shift.image ∨ shift.image + (shift.last - shift.first) < n := by decide +kernel
  rw [shiftCase]
  split
  · rename_i n hn
    obtain ⟨shift, hshift, hmapped⟩ := List.exists_of_findSome?_eq_some hn
    rw [CaseShift.mapped?] at hmapped
    split_ifs at hmapped with hrange
    obtain rfl := Option.some.inj hmapped
    refine Bool.eq_false_iff.mpr fun hblank => ?_
    have hcode : (Char.ofNat (shift.image + (c.toNat - shift.first))).toNat ∈ blankCodes :=
      forall_blank (P := fun c => c.toNat ∈ blankCodes) (by decide) hblank
    by_cases hvalid : (shift.image + (c.toNat - shift.first)).isValidChar
    · rw [Char.ofNat, dif_pos hvalid] at hcode
      have := hapart shift hshift (shift.image + (c.toNat - shift.first)) hcode
      omega
    · rw [Char.ofNat, dif_neg hvalid] at hcode
      exact absurd hcode (by decide)
  · exact hc

theorem isBlank_of_mem_lowerCharBetween (hc : isBlank c = false) {d : Char}
    (hd : d ∈ lowerCharBetween before c after) : isBlank d = false := by
  rw [lowerCharBetween] at hd
  split_ifs at hd
  · rw [List.mem_singleton.mp hd, isBlank_asciiLower, hc]
  · rw [List.mem_singleton.mp hd]
    decide
  · rw [List.mem_singleton.mp hd]
    decide
  · rcases List.mem_pair.mp hd with rfl | rfl <;> decide
  · rw [List.mem_singleton.mp hd, isBlank_shiftCase hc]

theorem lowerCharBetween_ne_nil (before : List Char) (c : Char) (after : List Char) :
    lowerCharBetween before c after ≠ [] := by
  rw [lowerCharBetween]
  split_ifs <;> exact List.cons_ne_nil _ _

/-! ## Neighbours -/

theorem nextIsCased_append_blanks (h : ∀ c ∈ after, isBlank c = true) (cs : List Char) :
    nextIsCased (cs ++ after) = nextIsCased cs := by
  have hplain : ∀ c ∈ after, isCaseIgnorable c = false ∧ isCased c = false := fun c hc =>
    forall_blank (P := fun c => isCaseIgnorable c = false ∧ isCased c = false) (by decide +kernel)
      (h c hc)
  rw [nextIsCased, nextIsCased, dropWhile_append_of_stop fun c hc => (hplain c hc).1]
  cases cs.dropWhile isCaseIgnorable with
  | cons c cs => rfl
  | nil =>
    cases after with
    | nil => rfl
    | cons c after => simp [(hplain c List.mem_cons_self).2]

theorem lowerCharBetween_blanks (hbefore : ∀ c ∈ before, isBlank c = true)
    (hafter : ∀ c ∈ after, isBlank c = true) (left : List Char) (c : Char) (right : List Char) :
    lowerCharBetween (left ++ before) c (right ++ after) = lowerCharBetween left c right := by
  rw [lowerCharBetween, lowerCharBetween, nextIsCased_append_blanks hbefore,
    nextIsCased_append_blanks hafter]

/-! ## Texts -/

theorem lowerAfter_blanks_append (h : ∀ c ∈ before, isBlank c = true) (left cs : List Char) :
    lowerAfter left (before ++ cs) = before ++ lowerAfter (before.reverse ++ left) cs := by
  induction before generalizing left with
  | nil => rfl
  | cons c before ih =>
    rw [List.cons_append, lowerAfter, lowerCharBetween_of_isBlank (h c List.mem_cons_self),
      ih fun d hd => h d (List.mem_cons_of_mem c hd)]
    simp

theorem lowerAfter_blanks (hbefore : ∀ c ∈ before, isBlank c = true)
    (hafter : ∀ c ∈ after, isBlank c = true) (left cs : List Char) :
    lowerAfter (left ++ before) (cs ++ after) = lowerAfter left cs ++ after := by
  induction cs generalizing left with
  | nil =>
    have hblanks := lowerAfter_blanks_append hafter (left ++ before) []
    rw [List.append_nil, lowerAfter, List.append_nil] at hblanks
    rw [List.nil_append, hblanks]
    rfl
  | cons c cs ih =>
    rw [List.cons_append, lowerAfter, lowerAfter, lowerCharBetween_blanks hbefore hafter,
      ← List.cons_append, ih, List.append_assoc]

/-- Blanks around a text stay where they are. -/
theorem lower_between (hbefore : ∀ c ∈ before, isBlank c = true)
    (hafter : ∀ c ∈ after, isBlank c = true) (cs : List Char) :
    lower (before ++ cs ++ after) = before ++ lower cs ++ after := by
  have hreverse : ∀ c ∈ before.reverse, isBlank c = true := fun c hc =>
    hbefore c (List.mem_reverse.mp hc)
  have hinside := lowerAfter_blanks hreverse hafter [] cs
  rw [List.nil_append] at hinside
  rw [lower, List.append_assoc, lowerAfter_blanks_append hbefore, List.append_nil, hinside,
    List.append_assoc, lower]

theorem isBlank_head?_lower (h : ∀ c, cs.head? = some c → isBlank c = false) {d : Char}
    (hd : (lower cs).head? = some d) : isBlank d = false := by
  cases cs with
  | nil => cases hd
  | cons c cs =>
    rw [lower, lowerAfter, List.head?_append_of_ne_nil _ (lowerCharBetween_ne_nil _ _ _)] at hd
    exact isBlank_of_mem_lowerCharBetween (h c rfl) (List.mem_of_mem_head? hd)

theorem exists_lowerAfter_append_singleton (before cs : List Char) (c : Char) :
    ∃ small left, lowerAfter before (cs ++ [c]) = small ++ lowerCharBetween left c [] := by
  induction cs generalizing before with
  | nil => exact ⟨[], before, by simp [lowerAfter]⟩
  | cons d cs ih =>
    obtain ⟨small, left, hsmall⟩ := ih (d :: before)
    exact ⟨lowerCharBetween before d (cs ++ [c]) ++ small, left, by
      rw [List.cons_append, lowerAfter, hsmall, List.append_assoc]⟩

theorem isBlank_getLast?_lower (h : ∀ c, cs.getLast? = some c → isBlank c = false) {d : Char}
    (hd : (lower cs).getLast? = some d) : isBlank d = false := by
  rcases List.eq_nil_or_concat cs with rfl | ⟨cs, c, rfl⟩
  · cases hd
  · rw [List.concat_eq_append] at h hd
    obtain ⟨small, left, hsmall⟩ := exists_lowerAfter_append_singleton [] cs c
    rw [lower, hsmall, List.getLast?_append_of_ne_nil _ (lowerCharBetween_ne_nil _ _ _)] at hd
    exact isBlank_of_mem_lowerCharBetween (h c (by simp)) (List.mem_of_getLast? hd)

/-- The blanks around a text may be taken away before or after its capitals. -/
theorem trim_lower (cs : List Char) : trim (lower cs) = lower (trim cs) := by
  obtain ⟨before, after, hbefore, hafter, hcs⟩ := exists_blanks_trim cs
  have hlower : lower cs = before ++ lower (trim cs) ++ after := by
    rw [← lower_between (isBlankText_iff.mp hbefore) (isBlankText_iff.mp hafter), ← hcs]
  rw [hlower]
  exact trim_eq_of_ends hbefore hafter
    (fun _ => isBlank_head?_lower fun _ => isBlank_head?_trim)
    fun _ => isBlank_getLast?_lower fun _ => isBlank_getLast?_trim

theorem trimmed_lowerCase (s : String) : trimmed (lowerCase s) = lowerCase (trimmed s) := by
  rw [trimmed, lowerCase, lowerCase, trimmed, String.toList_ofList, String.toList_ofList,
    trim_lower]

end Schemata.Text
