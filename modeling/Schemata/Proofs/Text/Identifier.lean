import Mathlib.Data.List.Basic
import Mathlib.Tactic
import Schemata.Text.Blank
import Schemata.Text.Case

/-!
# Plain identifiers

Names of small ASCII letters, digits and underscores that do not begin with a digit. Such a name has
no quotes to strip and no capitals, and it can be told from its spelling in capitals.
-/
namespace Schemata.Text

def isIdentifierStart (c : Char) : Bool := ('a' ≤ c && c ≤ 'z') || c = '_'

def isIdentifierChar (c : Char) : Bool := isIdentifierStart c || ('0' ≤ c && c ≤ '9')

/-- Whether a name has the form `[a-z_][a-z0-9_]*`. -/
def isIdentifier (name : String) : Bool :=
  match name.toList with
  | [] => false
  | c :: cs => isIdentifierStart c && cs.all isIdentifierChar

/-! ## Characters -/

/-- What holds of the first 128 code points holds of every ASCII character. -/
theorem forall_ascii {P : Char → Prop} (h : ∀ n < 128, P (Char.ofNat n)) {c : Char}
    (hc : isAscii c = true) : P c := by
  have hn := h c.toNat (of_decide_eq_true hc)
  rwa [Char.ofNat_toNat] at hn

theorem toNat_of_isIdentifierChar {c : Char} (h : isIdentifierChar c = true) :
    (97 ≤ c.toNat ∧ c.toNat ≤ 122) ∨ c.toNat = 95 ∨ (48 ≤ c.toNat ∧ c.toNat ≤ 57) := by
  simp only [isIdentifierChar, isIdentifierStart, Bool.or_eq_true, Bool.and_eq_true,
    decide_eq_true_eq] at h
  rcases h with (⟨hl, hu⟩ | rfl) | ⟨hl, hu⟩
  · exact Or.inl ⟨hl, hu⟩
  · exact Or.inr (Or.inl rfl)
  · exact Or.inr (Or.inr ⟨hl, hu⟩)

theorem isAscii_of_isIdentifierChar {c : Char} (h : isIdentifierChar c = true) :
    isAscii c = true := by
  have hn := toNat_of_isIdentifierChar h
  simp only [isAscii, decide_eq_true_eq]
  omega

theorem lowerCharBetween_identifierChar {c : Char} (h : isIdentifierChar c = true)
    (before after : List Char) : lowerCharBetween before c after = [c] := by
  have hn := toNat_of_isIdentifierChar h
  have hascii := isAscii_of_isIdentifierChar h
  have hsmall : ¬('A' ≤ c ∧ c ≤ 'Z') := by
    intro ⟨hl, hu⟩
    have hl' : 65 ≤ c.toNat := hl
    have hu' : c.toNat ≤ 90 := hu
    omega
  simp [lowerCharBetween, hascii, asciiLower, hsmall]

/-- The capital of such a character is an ASCII character with the same small letter. -/
theorem lower_upperChar {c : Char} (h : isIdentifierChar c = true) :
    ∃ d, upperChar c = [d] ∧ isAscii d = true ∧ asciiLower d = c := by
  have hascii := isAscii_of_isIdentifierChar h
  have hcapital : isIdentifierChar c = true →
      isAscii (asciiUpper c) = true ∧ asciiLower (asciiUpper c) = c :=
    forall_ascii (P := fun c => isIdentifierChar c = true →
      isAscii (asciiUpper c) = true ∧ asciiLower (asciiUpper c) = c) (by decide) hascii
  exact ⟨asciiUpper c, by simp [upperChar, hascii], hcapital h⟩

/-! ## Names -/

theorem isIdentifierChar_of_mem {name : String} (h : isIdentifier name = true) {c : Char}
    (hc : c ∈ name.toList) : isIdentifierChar c = true := by
  simp only [isIdentifier] at h
  cases he : name.toList with
  | nil => simp [he] at hc
  | cons d ds =>
    simp only [he, Bool.and_eq_true, List.all_eq_true] at h
    rcases List.mem_cons.mp (he ▸ hc) with rfl | hc
    · simp [isIdentifierChar, h.1]
    · exact h.2 c hc

theorem toList_ne_nil_of_isIdentifier {name : String} (h : isIdentifier name = true) :
    name.toList ≠ [] := by
  intro he
  simp [isIdentifier, he] at h

theorem lowerAfter_identifierChars {cs : List Char} (h : ∀ c ∈ cs, isIdentifierChar c = true)
    (before : List Char) : lowerAfter before cs = cs := by
  induction cs generalizing before with
  | nil => rfl
  | cons c cs ih =>
    rw [lowerAfter, lowerCharBetween_identifierChar (h c List.mem_cons_self),
      ih fun d hd => h d (List.mem_cons_of_mem c hd)]
    rfl

theorem lower_identifier {name : String} (h : isIdentifier name = true) :
    lower name.toList = name.toList :=
  lowerAfter_identifierChars (fun _ hc => isIdentifierChar_of_mem h hc) []

theorem lowerAfter_upper {cs : List Char} (h : ∀ c ∈ cs, isIdentifierChar c = true)
    (before : List Char) : lowerAfter before (upper cs) = cs := by
  induction cs generalizing before with
  | nil => rfl
  | cons c cs ih =>
    obtain ⟨d, hd, hascii, hlower⟩ := lower_upperChar (h c List.mem_cons_self)
    have hrest := ih fun e he => h e (List.mem_cons_of_mem c he)
    simp only [upper] at hrest
    rw [upper, List.flatMap_cons, hd, List.singleton_append, lowerAfter, hrest]
    simp [lowerCharBetween, hascii, hlower]

/-- Capitals lose nothing of an identifier. -/
theorem lowerCase_upperCase {name : String} (h : isIdentifier name = true) :
    lowerCase (upperCase name) = name := by
  rw [lowerCase, upperCase, String.toList_ofList, lower,
    lowerAfter_upper fun _ hc => isIdentifierChar_of_mem h hc, String.ofList_toList]

theorem trimWhile_eq_self {p : Char → Bool} {cs : List Char} (h : ∀ c ∈ cs, p c = false) :
    trimWhile p cs = cs := by
  have hdrop : ∀ ds : List Char, (∀ c ∈ ds, p c = false) → ds.dropWhile p = ds := by
    intro ds hds
    cases ds with
    | nil => rfl
    | cons d ds => rw [List.dropWhile_cons, hds d List.mem_cons_self]; rfl
  rw [trimWhile, hdrop cs h, dropEndWhile, hdrop _ (fun c hc => h c (List.mem_reverse.mp hc)),
    List.reverse_reverse]

end Schemata.Text
