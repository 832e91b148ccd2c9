import Mathlib.Tactic
import Schemata.LogicalType
import Schemata.Proofs.Text.Identifier

/-!
# Texts in another case

Letters of the ASCII alphabet in another case change nothing in the capitals of a text, in its small
letters, nor in the characters that are not letters. So a text stands for the same name and the same
type as its small form.
-/
namespace Schemata.Text

/-- The text with small ASCII letters. -/
def asciiLowerText (cs : List Char) : List Char := cs.map asciiLower

theorem asciiLower_of_not_ascii {c : Char} (h : isAscii c = false) : asciiLower c = c := by
  rw [asciiLower, if_neg]
  intro hcapital
  simp only [Bool.and_eq_true, decide_eq_true_eq] at hcapital
  have hle : c.toNat ≤ 90 := hcapital.2
  simp only [isAscii, decide_eq_false_iff_not] at h
  omega

/-- What does not depend on the case of ASCII letters need only be checked for these. -/
theorem apply_asciiLower {α : Type*} {f : Char → α}
    (h : ∀ n < 128, f (asciiLower (Char.ofNat n)) = f (Char.ofNat n)) (c : Char) :
    f (asciiLower c) = f c := by
  by_cases hc : isAscii c = true
  · exact forall_ascii (P := fun c => f (asciiLower c) = f c) h hc
  · rw [asciiLower_of_not_ascii (Bool.eq_false_iff.mpr hc)]

@[simp] theorem isAscii_asciiLower (c : Char) : isAscii (asciiLower c) = isAscii c :=
  apply_asciiLower (by decide) c

@[simp] theorem asciiLower_asciiLower (c : Char) : asciiLower (asciiLower c) = asciiLower c :=
  apply_asciiLower (by decide) c

@[simp] theorem isCased_asciiLower (c : Char) : isCased (asciiLower c) = isCased c :=
  apply_asciiLower (by decide) c

@[simp] theorem isBlank_asciiLower (c : Char) : isBlank (asciiLower c) = isBlank c :=
  apply_asciiLower (by decide) c

theorem upperChar_asciiLower (c : Char) : upperChar (asciiLower c) = upperChar c :=
  apply_asciiLower (by decide) c

theorem asciiLower_eq_or (c : Char) :
    asciiLower c = c ∨ c.isAlpha = true ∧ (asciiLower c).isAlpha = true := by
  by_cases hc : isAscii c = true
  · exact forall_ascii (P := fun c =>
      asciiLower c = c ∨ c.isAlpha = true ∧ (asciiLower c).isAlpha = true) (by decide) hc
  · exact .inl (asciiLower_of_not_ascii (Bool.eq_false_iff.mpr hc))

/-- No letter is passed over in the search for a neighbour that has a case. -/
theorem isCaseIgnorable_of_isAlpha {c : Char} (h : c.isAlpha = true) :
    isCaseIgnorable c = false := by
  have hapart : ∀ range ∈ caseIgnorableRanges,
      range.2 < 65 ∨ 90 < range.1 ∧ range.2 < 97 ∨ 122 < range.1 := by decide +kernel
  have hletter : 65 ≤ c.toNat ∧ c.toNat ≤ 90 ∨ 97 ≤ c.toNat ∧ c.toNat ≤ 122 := by
    have hascii : isAscii c = true := isAscii_of_isAlphanum ((Bool.or_eq_true _ _).mpr (.inl h))
    exact forall_ascii (P := fun c => c.isAlpha = true →
      65 ≤ c.toNat ∧ c.toNat ≤ 90 ∨ 97 ≤ c.toNat ∧ c.toNat ≤ 122) (by decide) hascii h
  rw [isCaseIgnorable, inRanges, List.any_eq_false]
  intro range hrange
  have hrange' := hapart range hrange
  simp only [Bool.and_eq_true, decide_eq_true_eq]
  omega

@[simp] theorem isCaseIgnorable_asciiLower (c : Char) :
    isCaseIgnorable (asciiLower c) = isCaseIgnorable c := by
  rcases asciiLower_eq_or c with hsame | ⟨hc, hlower⟩
  · rw [hsame]
  · rw [isCaseIgnorable_of_isAlpha hc, isCaseIgnorable_of_isAlpha hlower]

theorem asciiLower_eq_iff {c mark : Char} (h : mark.isAlpha = false) :
    asciiLower c = mark ↔ c = mark := by
  rcases asciiLower_eq_or c with hsame | ⟨hc, hlower⟩
  · rw [hsame]
  · constructor <;>
    · rintro rfl
      simp_all

/-! ## Texts -/

/-- Text without letters is the same in all cases. -/
theorem asciiLowerText_eq_iff {cs marks : List Char} (h : ∀ c ∈ marks, c.isAlpha = false) :
    asciiLowerText cs = marks ↔ cs = marks := by
  induction marks generalizing cs with
  | nil => exact List.map_eq_nil_iff
  | cons mark marks ih =>
    cases cs with
    | nil => simp [asciiLowerText]
    | cons c cs =>
      rw [asciiLowerText, List.map_cons, List.cons.injEq, List.cons.injEq,
        asciiLower_eq_iff (h mark List.mem_cons_self)]
      exact and_congr_right fun _ => ih fun c hc => h c (List.mem_cons_of_mem mark hc)

theorem upper_asciiLowerText (cs : List Char) : upper (asciiLowerText cs) = upper cs := by
  rw [upper, upper, asciiLowerText, List.flatMap_map]
  exact congrArg (List.flatMap · cs) (funext upperChar_asciiLower)

theorem dropWhile_asciiLowerText {p : Char → Bool} (hp : ∀ c, p (asciiLower c) = p c)
    (cs : List Char) : (asciiLowerText cs).dropWhile p = asciiLowerText (cs.dropWhile p) := by
  rw [asciiLowerText, List.dropWhile_map]
  exact congrArg (fun q => (cs.dropWhile q).map asciiLower) (funext hp)

theorem takeWhile_asciiLowerText {p : Char → Bool} (hp : ∀ c, p (asciiLower c) = p c)
    (cs : List Char) : (asciiLowerText cs).takeWhile p = asciiLowerText (cs.takeWhile p) := by
  rw [asciiLowerText, List.takeWhile_map]
  exact congrArg (fun q => (cs.takeWhile q).map asciiLower) (funext hp)

theorem trimWhile_asciiLowerText {p : Char → Bool} (hp : ∀ c, p (asciiLower c) = p c)
    (cs : List Char) : trimWhile p (asciiLowerText cs) = asciiLowerText (trimWhile p cs) := by
  have hreverse : ∀ ds, (asciiLowerText ds).reverse = asciiLowerText ds.reverse := fun _ =>
    List.map_reverse.symm
  rw [trimWhile, trimWhile, dropWhile_asciiLowerText hp, dropEndWhile, dropEndWhile, hreverse,
    dropWhile_asciiLowerText hp, hreverse]

theorem nextIsCased_asciiLowerText (cs : List Char) :
    nextIsCased (asciiLowerText cs) = nextIsCased cs := by
  rw [nextIsCased, nextIsCased, dropWhile_asciiLowerText isCaseIgnorable_asciiLower]
  cases cs.dropWhile isCaseIgnorable with
  | nil => rfl
  | cons c cs => exact isCased_asciiLower c

/-- The neighbours of a sigma may change their case: all that counts is that they have one. -/
theorem lowerCharBetween_asciiLower (before : List Char) (c : Char) (after : List Char) :
    lowerCharBetween (asciiLowerText before) (asciiLower c) (asciiLowerText after) =
      lowerCharBetween before c after := by
  by_cases hc : isAscii c = true
  · rw [lowerCharBetween, lowerCharBetween, isAscii_asciiLower, if_pos hc, if_pos hc,
      asciiLower_asciiLower]
  · rw [asciiLower_of_not_ascii (Bool.eq_false_iff.mpr hc), lowerCharBetween, lowerCharBetween,
      nextIsCased_asciiLowerText, nextIsCased_asciiLowerText]

theorem lowerAfter_asciiLowerText (before cs : List Char) :
    lowerAfter (asciiLowerText before) (asciiLowerText cs) = lowerAfter before cs := by
  induction cs generalizing before with
  | nil => rfl
  | cons c cs ih =>
    change lowerCharBetween (asciiLowerText before) (asciiLower c) (asciiLowerText cs) ++
      lowerAfter (asciiLowerText (c :: before)) (asciiLowerText cs) = _
    rw [lowerCharBetween_asciiLower, ih]
    rfl

theorem lower_asciiLowerText (cs : List Char) : lower (asciiLowerText cs) = lower cs :=
  lowerAfter_asciiLowerText [] cs

/-! ## Words -/

/-- Two texts that differ in the case of ASCII letters only. -/
def SameButCase (s s' : String) : Prop := asciiLowerText s.toList = asciiLowerText s'.toList

instance : DecidableRel SameButCase := fun s s' =>
  inferInstanceAs (Decidable (asciiLowerText s.toList = asciiLowerText s'.toList))

variable {s s' : String}

theorem SameButCase.upperCase (h : SameButCase s s') : upperCase s = upperCase s' := by
  rw [Text.upperCase, Text.upperCase, ← upper_asciiLowerText, h, upper_asciiLowerText]

theorem SameButCase.eq_iff (h : SameButCase s s') {marks : String}
    (hmarks : marks.toList.any Char.isAlpha = false) : s = marks ↔ s' = marks := by
  have hlower : ∀ cs, asciiLowerText cs = marks.toList ↔ cs = marks.toList := fun _ =>
    asciiLowerText_eq_iff fun c hc =>
      Bool.eq_false_of_not_eq_true (List.any_eq_false.mp hmarks c hc)
  rw [← String.toList_inj, ← String.toList_inj, ← hlower, h, hlower]

theorem SameButCase.base (h : SameButCase s s') : TypeWord.base s = TypeWord.base s' := by
  have hblind : ∀ w : String, TypeWord.base w =
      String.ofList (upper (trim ((asciiLowerText w.toList).takeWhile (· ≠ '(')))) := by
    intro w
    have hparen : ∀ c, decide (asciiLower c ≠ '(') = decide (c ≠ '(') := fun c =>
      decide_eq_decide.mpr (not_congr (asciiLower_eq_iff (by decide)))
    rw [takeWhile_asciiLowerText hparen, trim, trimWhile_asciiLowerText isBlank_asciiLower,
      upper_asciiLowerText]
    rfl
  rw [hblind, hblind, h]

end Schemata.Text
