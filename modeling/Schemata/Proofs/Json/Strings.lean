import Mathlib.Tactic
import Schemata.Json.Reader
import Schemata.Json.Writer

/-!
# Strings in JSON

A written string is read as it was. Its characters stand one after the other, so what follows a
character does not matter; a character that is escaped as two units is joined from them again.
-/
namespace Schemata.Json

variable {style : Style} {c : Char} {n : Nat}

/-! ## Units -/

theorem hexDigit?_hexDigit (n : Nat) : Text.hexDigit? (Text.hexDigit n) = some (n % 16) := by
  have hdigits : ∀ m < 16, Text.hexDigit? (Nat.digitChar m) = some m := by decide
  exact hdigits (n % 16) (Nat.mod_lt n (by decide))

theorem hexValue?_hexDigits (h : n < 0x10000) : hexValue? (Text.hexDigits 4 n) = some n := by
  have hdigits : Text.hexDigits 4 n = [Text.hexDigit (n >>> 12), Text.hexDigit (n >>> 8),
      Text.hexDigit (n >>> 4), Text.hexDigit n] := rfl
  have hvalue : 16 * (16 * (16 * (n / 4096 % 16) + n / 256 % 16) + n / 16 % 16) + n % 16 = n := by
    omega
  simp [hexValue?, hdigits, hexDigit?_hexDigit, Nat.shiftRight_eq_div_pow, hvalue]

/-- An escape stands for its unit, whatever follows. -/
theorem codePoints?_unitEscape (h : n < 0x10000) (rest : List Char) :
    codePoints? (unitEscape n ++ rest) =
      (codePoints? rest).map fun found => (n :: found.1, found.2) := by
  obtain ⟨a, b, c, d, hdigits⟩ : ∃ a b c d, Text.hexDigits 4 n = [a, b, c, d] := ⟨_, _, _, _, rfl⟩
  have hvalue := hexValue?_hexDigits h
  rw [hdigits] at hvalue
  have hread : codePoints? (unitEscape n ++ rest) =
      codePoints? ('\\' :: 'u' :: a :: b :: c :: d :: rest) := by
    rw [unitEscape, hdigits]
    rfl
  rw [hread, codePoints?, hvalue]
  cases codePoints? rest <;> rfl

/-! ## Characters -/

/-- The units that a character is written as. -/
def charUnits (style : Style) (c : Char) : List Nat :=
  if style.asciiOnly && 0x10000 ≤ c.toNat then
    [0xD800 + (c.toNat - 0x10000) / 0x400, 0xDC00 + (c.toNat - 0x10000) % 0x400]
  else [c.toNat]

theorem charUnits_of_lt (h : c.toNat < 0x10000) : charUnits style c = [c.toNat] := by
  simp [charUnits, h]

/-- A character that stands for itself in a string. -/
theorem codePoints?_cons (hquote : c ≠ '"') (hescape : c ≠ '\\') (hcontrol : 0x20 ≤ c.toNat)
    (rest : List Char) : codePoints? (c :: rest) =
      (codePoints? rest).map fun found => (c.toNat :: found.1, found.2) := by
  have hread := codePoints?.eq_5 c rest hquote (fun _ _ _ _ _ h => absurd h hescape)
    fun _ _ h => absurd h hescape
  have hplain : ¬(c.toNat < 0x20 || c = '\\') = true := by simp [hescape, hcontrol]
  rw [hread, if_neg hplain]
  cases codePoints? rest <;> rfl

/-- An escape of a single mark. -/
theorem codePoints?_escaped {mark : Char} (hmark : escapedChar? mark = some c)
    (rest : List Char) : codePoints? ('\\' :: mark :: rest) =
      (codePoints? rest).map fun found => (c.toNat :: found.1, found.2) := by
  have hunit : mark ≠ 'u' := by
    rintro rfl
    cases hmark
  have hread := codePoints?.eq_4 mark rest fun _ _ _ _ _ h => absurd h hunit
  rw [hread, hmark]
  cases codePoints? rest <;> rfl

theorem codePoints?_charEscape (h : style.asciiOnly = true ∨ c.toNat < 0x10000) (rest : List Char) :
    codePoints? (charEscape c ++ rest) =
      (codePoints? rest).map fun found => (charUnits style c ++ found.1, found.2) := by
  have hrange : c.toNat < 0x110000 := by
    have hvalid := c.valid
    simp only [UInt32.isValidChar, Nat.isValidChar] at hvalid
    have hval : c.toNat = c.val.toNat := rfl
    omega
  rw [charEscape]
  split_ifs with hsmall
  · rw [codePoints?_unitEscape hsmall, charUnits_of_lt hsmall]
    rfl
  · have hascii : style.asciiOnly = true := h.resolve_right hsmall
    rw [List.append_assoc, codePoints?_unitEscape (by omega), codePoints?_unitEscape (by omega),
      charUnits, hascii, Option.map_map]
    simp only [Bool.true_and, decide_eq_true_eq, Nat.le_of_not_lt hsmall, if_true]
    rfl

/-- A written character is read on its own. -/
theorem codePoints?_writeChar (style : Style) (c : Char) (rest : List Char) :
    codePoints? (writeChar style c ++ rest) =
      (codePoints? rest).map fun found => (charUnits style c ++ found.1, found.2) := by
  have hmarked : ∀ {mark d : Char}, c = d → escapedChar? mark = some d → d.toNat < 0x10000 →
      codePoints? (['\\', mark] ++ rest) =
        (codePoints? rest).map fun found => (charUnits style c ++ found.1, found.2) := by
    rintro mark d rfl hmark hsmall
    rw [charUnits_of_lt hsmall]
    exact codePoints?_escaped hmark rest
  rw [writeChar]
  split_ifs with hquote hescape hn hr ht hb hf hcontrol
  · exact hmarked hquote rfl (by decide)
  · exact hmarked hescape rfl (by decide)
  · exact hmarked hn rfl (by decide)
  · exact hmarked hr rfl (by decide)
  · exact hmarked ht rfl (by decide)
  · exact hmarked hb rfl (by decide)
  · exact hmarked hf rfl (by decide)
  · simp only [Bool.or_eq_true, Bool.and_eq_true, decide_eq_true_eq] at hcontrol
    exact codePoints?_charEscape (hcontrol.symm.imp (·.1) fun h => by omega) rest
  · simp only [Bool.or_eq_true, Bool.and_eq_true, decide_eq_true_eq, not_or, not_and, not_lt,
      not_le] at hcontrol
    have hunits : charUnits style c = [c.toNat] := by
      rw [charUnits, if_neg]
      simp only [Bool.and_eq_true, decide_eq_true_eq, not_and, not_le]
      exact fun hascii => (hcontrol.2 hascii).trans (by decide)
    rw [hunits]
    exact codePoints?_cons hquote hescape hcontrol.1 rest

/-! ## Whole strings -/

theorem joinSurrogates?_cons (hhigh : isHighSurrogate n = false) (hlow : isLowSurrogate n = false)
    (ns : List Nat) :
    joinSurrogates? (n :: ns) = (joinSurrogates? ns).map (Char.ofNat n :: ·) := by
  cases ns with
  | nil => simp [joinSurrogates?, hhigh, hlow]
  | cons m ns => simp [joinSurrogates?, hhigh, hlow]

/-- The units of a character are joined to it again. -/
theorem joinSurrogates?_charUnits (style : Style) (c : Char) (ns : List Nat) :
    joinSurrogates? (charUnits style c ++ ns) = (joinSurrogates? ns).map (c :: ·) := by
  have hvalid := c.valid
  simp only [UInt32.isValidChar, Nat.isValidChar] at hvalid
  have hval : c.toNat = c.val.toNat := rfl
  rw [charUnits]
  split_ifs with hpair
  · simp only [Bool.and_eq_true, decide_eq_true_eq] at hpair
    have hhigh : isHighSurrogate (0xD800 + (c.toNat - 0x10000) / 0x400) = true := by
      simp only [isHighSurrogate, Bool.and_eq_true, decide_eq_true_eq]
      omega
    have hlow : isLowSurrogate (0xDC00 + (c.toNat - 0x10000) % 0x400) = true := by
      simp only [isLowSurrogate, Bool.and_eq_true, decide_eq_true_eq]
      omega
    have hjoined : 0x10000 + (0xD800 + (c.toNat - 0x10000) / 0x400 - 0xD800) * 0x400 +
        (0xDC00 + (c.toNat - 0x10000) % 0x400 - 0xDC00) = c.toNat := by omega
    rw [List.cons_append, List.cons_append, List.nil_append, joinSurrogates?, if_pos hhigh,
      if_pos hlow, hjoined, Char.ofNat_toNat]
  · have hhigh : isHighSurrogate c.toNat = false := by
      simp only [isHighSurrogate, Bool.and_eq_false_iff, decide_eq_false_iff_not]
      omega
    have hlow : isLowSurrogate c.toNat = false := by
      simp only [isLowSurrogate, Bool.and_eq_false_iff, decide_eq_false_iff_not]
      omega
    rw [List.cons_append, List.nil_append, joinSurrogates?_cons hhigh hlow, Char.ofNat_toNat]

theorem codePoints?_flatMap (style : Style) (cs rest : List Char) :
    codePoints? (cs.flatMap (writeChar style) ++ '"' :: rest) =
      some (cs.flatMap (charUnits style), rest) := by
  induction cs with
  | nil => rfl
  | cons c cs ih =>
    rw [List.flatMap_cons, List.append_assoc, codePoints?_writeChar, ih]
    rfl

theorem joinSurrogates?_flatMap (style : Style) (cs : List Char) :
    joinSurrogates? (cs.flatMap (charUnits style)) = some cs := by
  induction cs with
  | nil => rfl
  | cons c cs ih => rw [List.flatMap_cons, joinSurrogates?_charUnits, ih, Option.map_some]

/-- A written string is read as it was, whatever follows it. -/
theorem readString?_writeString (style : Style) (s : String) (rest : List Char) :
    ∃ body, writeString style s ++ rest = '"' :: body ∧
      readString? body = some (some s, rest) := by
  refine ⟨s.toList.flatMap (writeChar style) ++ '"' :: rest, ?_, ?_⟩
  · simp [writeString]
  · rw [readString?, codePoints?_flatMap]
    simp [joinSurrogates?_flatMap]

end Schemata.Json
