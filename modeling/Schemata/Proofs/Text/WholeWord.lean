import Mathlib.Data.List.Basic
import Mathlib.Tactic
import Schemata.Proofs.Response
import Schemata.Proofs.Text.Identifier
import Schemata.Text.Caseless

/-!
# Whole words

A keyword stands as a whole word in a text exactly if one of the words of the text is spelled like
it. The words are the pieces between the characters that no word is made of.
-/
namespace Schemata.Text

variable {c : Char} {cs w k : List Char} {keywords : List (List Char)} {before : Option Char}

/-- A keyword in small letters, digits and underscores. -/
structure IsKeyword (k : List Char) : Prop where
  ne_nil : k ≠ []
  chars : ∀ c ∈ k, isIdentifierChar c = true

/-! ## Characters -/

theorem isWordChar_of_isIdentifierChar (h : isIdentifierChar c = true) : isWordChar c = true :=
  forall_ascii (P := fun c => isIdentifierChar c = true → isWordChar c = true) (by decide +kernel)
    (isAscii_of_isIdentifierChar h) h

/-- What matches the letters of a keyword are letters. -/
theorem isWordChar_of_foldLetter (h : isIdentifierChar (foldLetter c) = true) :
    isWordChar c = true := by
  by_cases hc : isAscii c = true
  · exact forall_ascii (P := fun c => isIdentifierChar (foldLetter c) = true → isWordChar c = true)
      (by decide +kernel) hc h
  · rw [foldLetter, if_neg hc] at h
    split_ifs at h with hs hk hi
    · rw [hs]
      decide +kernel
    · rw [hk]
      decide +kernel
    · rcases (Bool.or_eq_true _ _).mp hi with hi | hi <;>
      · rw [of_decide_eq_true hi]
        decide +kernel
    · exact absurd (isAscii_of_isIdentifierChar h) hc

theorem IsKeyword.foldLetter_not_mem (hk : IsKeyword k) (hc : isWordChar c = false) :
    foldLetter c ∉ k :=
  fun hmem => Bool.eq_false_iff.mp hc (isWordChar_of_foldLetter (hk.chars _ hmem))

theorem IsKeyword.getLast?_isWordChar (hk : IsKeyword k) :
    (k.getLast?.map isWordChar).getD false = true := by
  rw [List.getLast?_eq_getLast_of_ne_nil hk.ne_nil]
  exact isWordChar_of_isIdentifierChar (hk.chars _ (List.getLast_mem hk.ne_nil))

/-! ## Places -/

/-- Whether a keyword begins a text and ends there with a word. -/
def spellsOut (k cs : List Char) : Bool :=
  (afterKeyword? k cs).elim false fun rest => isWordEdge k.getLast? rest

theorem hasWholeWord_cons (keywords : List (List Char)) (before : Option Char) (c : Char)
    (cs : List Char) : hasWholeWord keywords before (c :: cs) =
      ((isWordEdge before (c :: cs) && keywords.any (spellsOut · (c :: cs))) ||
        hasWholeWord keywords (some c) cs) := by
  rw [hasWholeWord]
  congr! 4 with k
  rw [spellsOut]
  cases afterKeyword? k (c :: cs) <;> rfl

theorem isWordEdge_append_cons (hc : isWordChar c = false) (before : Option Char)
    (as bs : List Char) : isWordEdge before (as ++ c :: bs) = isWordEdge before as := by
  cases as with
  | nil => simp [isWordEdge, hc]
  | cons a as => rfl

/-- What follows a word is of no account. -/
theorem IsKeyword.spellsOut_append_cons (hk : IsKeyword k) (hc : isWordChar c = false)
    (as bs : List Char) : spellsOut k (as ++ c :: bs) = spellsOut k as := by
  rw [spellsOut, spellsOut, Response.afterKeyword?_append fun d hd => Option.some.inj hd ▸
    hk.foldLetter_not_mem hc]
  cases afterKeyword? k as with
  | none => rfl
  | some rest => exact isWordEdge_append_cons hc _ rest bs

/-- In front of a single word, a keyword is there if it is the whole of the word. -/
theorem IsKeyword.spellsOut_word (hk : IsKeyword k) (hw : ∀ c ∈ w, isWordChar c = true) :
    spellsOut k w = decide (w.map foldLetter = k) := by
  rw [spellsOut]
  cases hrest : afterKeyword? k w with
  | none =>
    refine (decide_eq_false fun heq => ?_).symm
    have hfound := afterKeyword?_eq_some_iff.mpr ⟨w, (List.append_nil w).symm, heq⟩
    rw [hrest] at hfound
    cases hfound
  | some rest =>
    obtain ⟨opening, rfl, rfl⟩ := afterKeyword?_eq_some_iff.mp hrest
    rw [Option.elim_some, isWordEdge, hk.getLast?_isWordChar]
    cases rest with
    | nil => simp
    | cons d rest => simp [hw d (List.mem_append_right opening List.mem_cons_self)]

/-! ## Texts -/

/-- No word begins inside of a word. -/
theorem hasWholeWord_inside (hc : isWordChar c = true) (hcs : ∀ d ∈ cs, isWordChar d = true) :
    hasWholeWord keywords (some c) cs = false := by
  induction cs generalizing c with
  | nil => rfl
  | cons d cs ih =>
    have hd := hcs d List.mem_cons_self
    have hedge : isWordEdge (some c) (d :: cs) = false := by simp [isWordEdge, hc, hd]
    rw [hasWholeWord_cons, hedge, Bool.false_and, Bool.false_or]
    exact ih hd fun e he => hcs e (List.mem_cons_of_mem d he)

theorem hasWholeWord_word (hks : ∀ k ∈ keywords, IsKeyword k) (hw : ∀ c ∈ w, isWordChar c = true) :
    hasWholeWord keywords none w = decide (w.map foldLetter ∈ keywords) := by
  cases w with
  | nil =>
    refine (decide_eq_false fun hmem => ?_).symm
    exact (hks _ hmem).ne_nil rfl
  | cons c cs =>
    have hc := hw c List.mem_cons_self
    have hedge : isWordEdge none (c :: cs) = true := by simp [isWordEdge, hc]
    rw [hasWholeWord_cons, hedge,
      hasWholeWord_inside hc fun d hd => hw d (List.mem_cons_of_mem c hd), Bool.true_and,
      Bool.or_false, Bool.eq_iff_iff, List.any_eq_true, decide_eq_true_eq]
    constructor
    · rintro ⟨k, hk, hspelled⟩
      rw [(hks k hk).spellsOut_word hw, decide_eq_true_eq] at hspelled
      exact hspelled ▸ hk
    · intro hmem
      exact ⟨_, hmem, by rw [(hks _ hmem).spellsOut_word hw, decide_eq_true_eq]⟩

theorem hasWholeWord_some (hc : isWordChar c = false) (cs : List Char) :
    hasWholeWord keywords (some c) cs = hasWholeWord keywords none cs := by
  cases cs with
  | nil => rfl
  | cons d cs =>
    have hedge : isWordEdge (some c) (d :: cs) = isWordEdge none (d :: cs) := by
      simp [isWordEdge, hc]
    rw [hasWholeWord_cons, hasWholeWord_cons, hedge]

/-- No word goes on over a character that words are not made of. -/
theorem hasWholeWord_append_cons (hks : ∀ k ∈ keywords, IsKeyword k) (hc : isWordChar c = false)
    (before : Option Char) (as bs : List Char) :
    hasWholeWord keywords before (as ++ c :: bs) =
      (hasWholeWord keywords before as || hasWholeWord keywords none bs) := by
  have hany : ∀ as, keywords.any (spellsOut · (as ++ c :: bs)) = keywords.any (spellsOut · as) := by
    intro as
    rw [Bool.eq_iff_iff, List.any_eq_true, List.any_eq_true]
    exact exists_congr fun k => and_congr_right fun hk => by
      rw [(hks k hk).spellsOut_append_cons hc]
  induction as generalizing before with
  | nil =>
    have hnone : keywords.any (spellsOut · (c :: bs)) = false := by
      refine (hany []).trans (List.any_eq_false.mpr fun k hk => ?_)
      rw [(hks k hk).spellsOut_word (List.forall_mem_nil _), Bool.not_eq_true]
      exact decide_eq_false (hks k hk).ne_nil.symm
    rw [List.nil_append, hasWholeWord_cons, hnone, Bool.and_false, Bool.false_or,
      hasWholeWord_some hc]
    rfl
  | cons a as ih =>
    have hfirst := hany (a :: as)
    have hedge := isWordEdge_append_cons hc before (a :: as) bs
    rw [List.cons_append] at hfirst hedge
    rw [List.cons_append, hasWholeWord_cons, hasWholeWord_cons, ih, hfirst, hedge, Bool.or_assoc]

/-- A keyword is a whole word of a text exactly if a word of the text is spelled like it. -/
theorem hasWholeWord_iff (hks : ∀ k ∈ keywords, IsKeyword k) (cs : List Char) :
    hasWholeWord keywords none cs = true ↔
      ∃ word ∈ cs.splitOnP (!isWordChar ·), word.map foldLetter ∈ keywords := by
  suffices hgen : ∀ w, (∀ c ∈ w, isWordChar c = true) →
      (hasWholeWord keywords none (w ++ cs) = true ↔
        ∃ word ∈ (w ++ cs).splitOnP (!isWordChar ·), word.map foldLetter ∈ keywords) from
    hgen [] (List.forall_mem_nil _)
  -- `w` is the part of the first word that has been passed
  induction cs with
  | nil =>
    intro w hw
    rw [List.append_nil, hasWholeWord_word hks hw,
      List.splitOnP_eq_singleton fun c hc => by simp [hw c hc]]
    simp
  | cons c cs ih =>
    intro w hw
    by_cases hc : isWordChar c = true
    · have hword : ∀ d ∈ w ++ [c], isWordChar d = true := by
        intro d hd
        rcases List.mem_append.mp hd with hd | hd
        · exact hw d hd
        · rwa [List.mem_singleton.mp hd]
      have happend : w ++ c :: cs = (w ++ [c]) ++ cs := by simp
      rw [happend]
      exact ih (w ++ [c]) hword
    · have hrest := ih [] (List.forall_mem_nil _)
      rw [List.nil_append] at hrest
      rw [hasWholeWord_append_cons hks (Bool.eq_false_iff.mpr hc), Bool.or_eq_true,
        hasWholeWord_word hks hw, decide_eq_true_eq, hrest,
        List.splitOnP_append_cons_of_forall_mem (fun d hd => by simp [hw d hd]) c (by simp [hc])]
      simp

end Schemata.Text
