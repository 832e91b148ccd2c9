import Mathlib.Data.List.Basic
import Mathlib.Tactic
import Schemata.Proofs.Lexer.Quoted
import Schemata.Proofs.Lexer.Remainders
import Schemata.Proofs.Lexer.Search
import Schemata.Proofs.Text.Trim

/-!
# Blanks behind a token

A token at the front of a text is the same with blanks behind the text. The one exception is a
dollar sign whose tag would begin or end with the text.
-/
namespace Schemata.Lexer

open Text

/-- What is read of a text, and of the same text with blanks behind it: the same token. A comment or
a keyword that ends the text may take some of the blanks. -/
structure Reading.Behind (more : List Char) (a b : Reading) : Prop where
  token : b.token = a.token
  rest : b.rest = a.rest ++ more ∨ a.rest = [] ∧ b.rest <:+ more

theorem Reading.Behind.append (more : List Char) (token : Option BareToken) (rest : List Char) :
    Reading.Behind more ⟨token, rest⟩ ⟨token, rest ++ more⟩ := ⟨rfl, .inl rfl⟩

theorem Reading.Behind.ite {more : List Char} {a b a' b' : Reading} (p : Prop) [Decidable p]
    (h : a.Behind more b) (h' : a'.Behind more b') :
    (if p then a else a').Behind more (if p then b else b') := by
  split_ifs
  · exact h
  · exact h'

variable {more cs : List Char}

theorem textBefore_append (cs rest more : List Char) :
    textBefore (cs ++ more) (rest ++ more) = textBefore cs rest := by
  rw [textBefore, textBefore, List.length_append, List.length_append, Nat.add_sub_add_right,
    List.take_append_of_le_length (Nat.sub_le _ _)]

/-- Dropping characters stops at the same place, or it goes on from the end of the text. -/
theorem dropWhile_behind (drops : Char → Bool) (cs more : List Char) :
    (cs ++ more).dropWhile drops = cs.dropWhile drops ++ more ∨
      cs.dropWhile drops = [] ∧ (cs ++ more).dropWhile drops <:+ more := by
  rw [List.dropWhile_append]
  split_ifs with hnil
  · exact .inr ⟨List.isEmpty_iff.mp hnil, List.dropWhile_suffix _⟩
  · exact .inl rfl

/-! ## Words and numbers -/

theorem isDigit_of_isBlank {c : Char} (h : isBlank c = true) : c.isDigit = false :=
  forall_blank (P := fun c => c.isDigit = false) (by decide) h

theorem opensIdentifier_of_isBlank {c : Char} (h : isBlank c = true) : opensIdentifier c = false :=
  forall_blank (P := fun c => opensIdentifier c = false) (by decide +kernel) h

/-- A blank is none of a few given characters. -/
theorem ne_of_isBlank {c mark : Char} (h : isBlank c = true) (hmark : isBlank mark = false) :
    c ≠ mark := by
  rintro rfl
  rw [h] at hmark
  cases hmark

/-- A blank is not one of some marks. -/
theorem not_mem_of_isBlank {c : Char} (h : isBlank c = true) {marks : List Char}
    (hmarks : marks.any isBlank = false) : c ∉ marks :=
  fun hmem => List.any_eq_false.mp hmarks c hmem h

theorem pair_ne_of_isBlank {mark : Char × Char}
    (hmark : isBlank mark.1 = false ∧ isBlank mark.2 = false)
    {c d : Char} (h : isBlank c = true ∨ isBlank d = true) : (c, d) ≠ mark := by
  rintro rfl
  rcases h with h | h <;> simp_all

section Plain

variable (hmore : ∀ c ∈ more, isBlank c = true)
include hmore

theorem word_behind (l : Lexicon) (previous : Option TokenRole) (c : Char) (cs : List Char) :
    (word l previous c cs).Behind more (word l previous c (cs ++ more)) := by
  have hstop : ∀ c ∈ more, (!l.endsWord c) = false := by
    intro c hc
    simp [Lexicon.endsWord, hmore c hc]
  simp only [word, dropWhile_append_of_stop hstop, textBefore_append]
  exact .append more _ _

theorem dropWhile_literal (l : Lexicon) (cs : List Char) :
    (cs ++ more).dropWhile (fun c => !isBlank c && !l.isSingle c) =
      cs.dropWhile (fun c => !isBlank c && !l.isSingle c) ++ more :=
  dropWhile_append_of_stop (fun c hc => by simp [hmore c hc]) cs

/-- What blanks are not does not begin behind the end of a text. -/
theorem head?_behind {test : Char → Bool} (htest : ∀ {c}, isBlank c = true → test c = false)
    (cs : List Char) :
    ((cs ++ more).head?.map test).getD false = (cs.head?.map test).getD false := by
  cases cs with
  | nil =>
    cases hc : more.head? with
    | none => simp [hc]
    | some c => simp [hc, htest (hmore c (List.mem_of_head? hc))]
  | cons c cs => rfl

theorem afterNumber_behind (parameter point : Bool) (exponent : ExponentState) (cs : List Char) :
    afterNumber parameter point exponent (cs ++ more) =
      afterNumber parameter point exponent cs ++ more := by
  induction cs generalizing point exponent with
  | nil =>
    cases more with
    | nil => rfl
    | cons c more =>
      have hc := hmore c List.mem_cons_self
      have hmark : c ∉ ['.', '-', '+', 'e', 'E'] := not_mem_of_isBlank hc (by decide)
      simp only [List.mem_cons, List.not_mem_nil, or_false, not_or] at hmark
      simp [afterNumber, isDigit_of_isBlank hc, hmark]
  | cons c cs ih =>
    rw [List.cons_append, afterNumber, afterNumber, head?_behind hmore isDigit_of_isBlank, ih, ih,
      ih, ih]
    split_ifs <;> rfl

/-- A blank opens no name behind a number. -/
theorem numberOrName_behind (l : Lexicon) (parameter : Bool) (cs : List Char) :
    numberOrName l parameter (cs ++ more) =
      ((numberOrName l parameter cs).1, (numberOrName l parameter cs).2 ++ more) := by
  simp only [numberOrName, afterNumber_behind hmore, dropWhile_literal hmore,
    head?_behind hmore opensIdentifier_of_isBlank]
  split_ifs <;> rfl

theorem number_behind (l : Lexicon) (previous : Option TokenRole) (c : Char) (cs : List Char) :
    (number l previous c cs).Behind more (number l previous c (cs ++ more)) := by
  have hbase : (cs ++ more).head?.bind (literalBase? l) = cs.head?.bind (literalBase? l) := by
    cases cs with
    | nil =>
      cases hc : more.head? with
      | none => simp [hc]
      | some c =>
        have hmark : c ∉ ['x', 'X', 'b', 'B'] :=
          not_mem_of_isBlank (hmore c (List.mem_of_head? hc)) (by decide)
        simp only [List.mem_cons, List.not_mem_nil, or_false, not_or] at hmark
        simp [hc, literalBase?, hmark]
    | cons d cs => rfl
  simp only [number, hbase]
  cases hread : (if c = '0' then cs.head?.bind (literalBase? l) else none) with
  | some base =>
    have hne : cs ≠ [] := by
      rintro rfl
      simp at hread
    have hdrop : (cs ++ more).drop 1 = cs.drop 1 ++ more :=
      List.drop_append_of_le_length (List.length_pos_iff.mpr hne)
    simp only [hdrop, afterLiteral, dropWhile_literal hmore, textBefore_append]
    exact .ite _ (.append more _ _) (.append more _ _)
  | none =>
    simp only [numberOrName_behind hmore, textBefore_append]
    cases (numberOrName l (previous = some .parameter) cs).1 <;> exact .append more _ _

/-! ## Comments -/

theorem dashesOpenComment_behind (l : Lexicon) (cs : List Char) :
    dashesOpenComment l (cs ++ more) = dashesOpenComment l cs := by
  cases cs with
  | nil =>
    cases more with
    | nil => rfl
    | cons c more => simp [dashesOpenComment, hmore c List.mem_cons_self]
  | cons c cs => rfl

end Plain

/-- A line comment that is not ended goes on over the blanks up to a line break among them. -/
theorem afterLineComment_behind (l : Lexicon) (more cs : List Char) :
    afterLineComment l (cs ++ more) = afterLineComment l cs ++ more ∨
      afterLineComment l cs = [] ∧ afterLineComment l (cs ++ more) <:+ more :=
  dropWhile_behind _ cs more

section Block

variable {nested : Bool} {m : BlockMarks}
  (ho : isBlank m.opening.1 = false ∧ isBlank m.opening.2 = false)
  (hc : isBlank m.closing.1 = false ∧ isBlank m.closing.2 = false)
include ho hc

/-- No block comment ends behind its last character. -/
theorem afterBlockComment?_last (c : Char) {ds : List Char} (hds : ∀ d ∈ ds, isBlank d = true)
    (depth : ℕ) : afterBlockComment? nested m depth (c :: ds) = none := by
  induction ds generalizing c depth with
  | nil => rfl
  | cons d ds ih =>
    have hd := hds d List.mem_cons_self
    have hclose : (c, d) ≠ m.closing := pair_ne_of_isBlank hc (.inr hd)
    cases ds with
    | nil => simp [afterBlockComment?, hclose]
    | cons e ds =>
      have hopen : (d, e) ≠ m.opening := pair_ne_of_isBlank ho (.inl hd)
      have hrest := ih d (fun x hx => hds x (List.mem_cons_of_mem d hx)) depth
      rw [afterBlockComment?]
      simpa [hclose, hopen] using hrest

theorem afterBlockComment?_behind (hmore : ∀ c ∈ more, isBlank c = true) (depth : ℕ)
    (cs : List Char) :
    afterBlockComment? nested m depth (cs ++ more) =
      (afterBlockComment? nested m depth cs).map (· ++ more) := by
  fun_induction afterBlockComment? nested m depth cs with
  | case1 depth c d e cs hclosed =>
    rw [List.cons_append, List.cons_append, List.cons_append, afterBlockComment?, if_pos hclosed]
    rfl
  | case2 depth c d e cs hclosed depth' hopen ih =>
    rw [List.cons_append, List.cons_append, List.cons_append, afterBlockComment?, if_neg hclosed,
      if_pos hopen]
    exact ih
  | case3 depth c d e cs hclosed depth' hopen ih =>
    rw [List.cons_append, List.cons_append, List.cons_append, afterBlockComment?, if_neg hclosed,
      if_neg hopen]
    exact ih
  | case4 depth c d hclosed =>
    cases more with
    | nil => simp [afterBlockComment?, hclosed]
    | cons x more =>
      rw [List.cons_append, List.cons_append, List.nil_append, afterBlockComment?, if_pos hclosed]
      rfl
  | case5 depth c d hclosed =>
    cases more with
    | nil => simp [afterBlockComment?, hclosed]
    | cons x more =>
      have hx : (d, x) ≠ m.opening := pair_ne_of_isBlank ho (.inr (hmore x List.mem_cons_self))
      rw [List.cons_append, List.cons_append, List.nil_append, afterBlockComment?, if_neg hclosed]
      simpa [hx] using afterBlockComment?_last ho hc d hmore _
  | case6 cs depth hlong hpair =>
    match cs with
    | [] =>
      cases more with
      | nil => simp [afterBlockComment?]
      | cons x more =>
        exact afterBlockComment?_last ho hc x (fun d hd => hmore d (List.mem_cons_of_mem x hd))
          depth
    | [c] => exact afterBlockComment?_last ho hc c hmore depth
    | [c, d] => exact (hpair c d rfl).elim
    | c :: d :: e :: cs => exact (hlong c d e cs rfl).elim

end Block

/-! ## Keyword search -/

section Search

variable {l : Lexicon} {candidates : List (List Char)} {seen : List Char} {length : ℕ}
  {found : Option (List Char)} {afterBlank symbol : Bool}

/-- A word that a search finds on its way begins with what it has seen before. -/
theorem follow_word {w : List Char}
    (h : (follow l candidates seen length found afterBlank symbol cs).word = some w) :
    found = some w ∨ ∃ later, w = seen.reverse ++ later ∧ later.length ≤ cs.length := by
  induction cs generalizing candidates seen length found afterBlank symbol with
  | nil => exact .inl h
  | cons c cs ih =>
    rw [follow] at h
    by_cases hskip : (isBlank c && afterBlank) = true
    · rw [if_pos hskip] at h
      obtain hfound | ⟨later, hw, hle⟩ := ih h
      · exact .inl hfound
      · exact .inr ⟨later, hw, Nat.le_succ_of_le hle⟩
    · rw [if_neg hskip] at h
      generalize (if isBlank c = true then ' ' else c) = d at h
      simp only at h
      split at h
      · exact .inl h
      · obtain hfound | ⟨later, hw, hle⟩ := ih h
        · split_ifs at hfound
          · refine .inr ⟨[d], ?_, by simp⟩
            rw [← Option.some.inj hfound, List.reverse_cons]
          · exact .inl hfound
        · refine .inr ⟨d :: later, ?_, by simpa using hle⟩
          rw [hw, List.reverse_cons, List.append_assoc, List.singleton_append]

theorem length_le_follow (l : Lexicon) (candidates : List (List Char)) (seen : List Char)
    (length : ℕ) (found : Option (List Char)) (afterBlank symbol : Bool) (cs : List Char) :
    length ≤ (follow l candidates seen length found afterBlank symbol cs).length := by
  induction cs generalizing candidates seen length found afterBlank symbol with
  | nil => exact Nat.le_refl length
  | cons c cs ih =>
    rw [follow]
    split
    · exact Nat.le_of_succ_le (ih ..)
    · simp only
      split
      · exact Nat.le_refl length
      · exact Nat.le_of_succ_le (ih ..)

/-- What is found at the front of a text begins with its first character. -/
theorem findKeyword_word {c : Char} {w : List Char} (hc : isBlank c = false)
    (h : (findKeyword l (c :: cs)).word = some w) :
    0 < (findKeyword l (c :: cs)).length ∧
      ∃ later, w = c :: later ∧ later.length ≤ cs.length := by
  rw [findKeyword, follow, hc] at h ⊢
  simp only [Bool.false_and, Bool.false_eq_true, if_false] at h ⊢
  split at h
  · cases h
  · refine ⟨length_le_follow .., ?_⟩
    obtain hfound | ⟨later, hw, hle⟩ := follow_word h
    · split_ifs at hfound
      exact ⟨[], (Option.some.inj hfound).symm, Nat.zero_le _⟩
    · exact ⟨later, hw, hle⟩

/-- Candidates of which none ends in a blank. -/
def EndInMarks (candidates : List (List Char)) : Prop := ∀ o ∈ candidates, o.getLast? ≠ some ' '

instance : DecidablePred EndInMarks := fun candidates =>
  inferInstanceAs (Decidable (∀ o ∈ candidates, o.getLast? ≠ some ' '))

theorem EndInMarks.advance (h : EndInMarks candidates) (c : Char) :
    EndInMarks (Lexer.advance c candidates) := by
  intro o ho
  have hlast := h _ (mem_advance.mp ho)
  cases o with
  | nil => simp
  | cons d o => rwa [List.getLast?_cons_cons] at hlast

/-- Blanks complete no candidate. -/
theorem follow_blanks (l : Lexicon) (seen : List Char) (length : ℕ) (found : Option (List Char))
    (afterBlank symbol : Bool) (h : EndInMarks candidates)
    (hmore : ∀ c ∈ more, isBlank c = true) :
    (follow l candidates seen length found afterBlank symbol more).word = found ∧
      (follow l candidates seen length found afterBlank symbol more).closed = true := by
  induction more generalizing candidates seen length afterBlank symbol with
  | nil => exact ⟨rfl, rfl⟩
  | cons c more ih =>
    have hc := hmore c List.mem_cons_self
    have hrest : ∀ d ∈ more, isBlank d = true := fun d hd => hmore d (List.mem_cons_of_mem c hd)
    rw [follow, hc]
    by_cases hskip : afterBlank = true
    · simp only [hskip, Bool.true_and, if_true]
      exact ih _ _ _ _ h hrest
    · rw [Bool.not_eq_true] at hskip
      simp only [hskip, Bool.and_false, Bool.false_eq_true, if_false, if_true]
      have hopen : [] ∉ Lexer.advance (asciiUpper ' ') candidates := fun hmem =>
        h _ (mem_advance.mp hmem) rfl
      split
      · exact ⟨rfl, rfl⟩
      · rw [if_neg hopen]
        exact ih _ _ _ _ (h.advance _) hrest

/-- A search finds the same with blanks behind the text. It can go on into the blanks only if it has
come to the end of the text. -/
theorem follow_behind (l : Lexicon) (cs seen : List Char) (length : ℕ)
    (found : Option (List Char)) (afterBlank symbol : Bool) (h : EndInMarks candidates)
    (hmore : ∀ c ∈ more, isBlank c = true) :
    let a := follow l candidates seen length found afterBlank symbol cs
    let b := follow l candidates seen length found afterBlank symbol (cs ++ more)
    b.word = a.word ∧ b.closed = a.closed ∧ a.length ≤ length + cs.length ∧
      (b.length = a.length ∨ a.length = length + cs.length ∧ a.length ≤ b.length) := by
  induction cs generalizing candidates seen length found afterBlank symbol with
  | nil =>
    obtain ⟨hword, hclosed⟩ := follow_blanks l seen length found afterBlank symbol h hmore
    exact ⟨hword, hclosed, Nat.le_refl _, .inr ⟨rfl, length_le_follow ..⟩⟩
  | cons c cs ih =>
    have hcount : length + (c :: cs).length = length + 1 + cs.length := by
      rw [List.length_cons, Nat.add_assoc, Nat.add_comm cs.length]
    rw [List.cons_append, follow, follow, hcount]
    by_cases hskip : (isBlank c && afterBlank) = true
    · rw [if_pos hskip, if_pos hskip]
      exact ih _ _ _ _ _ h
    · rw [if_neg hskip, if_neg hskip]
      simp only
      split
      · exact ⟨rfl, rfl, Nat.le_add_right_of_le (Nat.le_succ length), .inl rfl⟩
      · exact ih _ _ _ _ _ (h.advance _)

end Search

end Schemata.Lexer
