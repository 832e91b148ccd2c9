import Mathlib.Data.List.Basic
import Mathlib.Tactic
import Schemata.Lexer.Keyword
import Schemata.Proofs.Lexeme.Plain

/-!
# Words that open nothing

The keyword search follows many candidates at once, but it finds something only if a single one of
them stands at the front of the text. A plain word is never the whole of a candidate, so it opens
something only together with what follows it.
-/
namespace Schemata.Lexer

open Text

/-- Whether a candidate stands at the front of a text, where a run of blanks counts as one blank. -/
def opens (afterBlank : Bool) : List Char → List Char → Bool
  | _, [] => false
  | candidate, c :: cs =>
    if isBlank c && afterBlank then opens true candidate cs
    else match candidate with
      | [] => false
      | d :: rest =>
        let c := if isBlank c then ' ' else c
        d = asciiUpper c && (rest.isEmpty || opens (isBlank c) rest cs)

@[simp] theorem opens_nil (afterBlank : Bool) (cs : List Char) :
    opens afterBlank [] cs = false := by
  induction cs generalizing afterBlank with
  | nil => rfl
  | cons c cs ih =>
    rw [opens]
    split
    · exact ih true
    · rfl

theorem opens_cons_iff {afterBlank : Bool} {d c : Char} {o cs : List Char}
    (h : (isBlank c && afterBlank) = false) :
    opens afterBlank (d :: o) (c :: cs) = true ↔
      d = asciiUpper (if isBlank c then ' ' else c) ∧
        (o = [] ∨ opens (isBlank c) o cs = true) := by
  have hspace : isBlank (if isBlank c then ' ' else c) = isBlank c := by
    by_cases hb : isBlank c = true
    · rw [if_pos hb, hb]
      decide
    · rw [if_neg hb]
  rw [opens, if_neg (by rw [h]; exact Bool.false_ne_true)]
  simp only [hspace, Bool.and_eq_true, decide_eq_true_eq, Bool.or_eq_true, List.isEmpty_iff]

theorem mem_advance {c : Char} {candidates : List (List Char)} {rest : List Char} :
    rest ∈ advance c candidates ↔ c :: rest ∈ candidates := by
  simp only [advance, List.mem_filterMap]
  constructor
  · rintro ⟨candidate, hmem, h⟩
    cases candidate with
    | nil => cases h
    | cons d ds =>
      by_cases hd : d = c
      · rw [hd] at hmem
        simp only [hd, if_true, Option.some.injEq] at h
        exact h ▸ hmem
      · simp [hd] at h
  · intro hmem
    exact ⟨c :: rest, hmem, by simp⟩

/-- A search finds nothing new if no candidate stands at the front of the text. -/
theorem follow_word_eq (l : Lexicon) {candidates : List (List Char)} {afterBlank : Bool}
    {cs : List Char} (h : ∀ o ∈ candidates, opens afterBlank o cs = false) (seen : List Char)
    (length : ℕ) (word : Option (List Char)) (symbol : Bool) :
    (follow l candidates seen length word afterBlank symbol cs).word = word := by
  induction cs generalizing candidates seen length symbol afterBlank with
  | nil => rfl
  | cons c cs ih =>
    rw [follow]
    by_cases hb : (isBlank c && afterBlank) = true
    · rw [if_pos hb]
      refine ih (fun o ho => ?_) _ _ _
      have hopen := h o ho
      cases o <;> rwa [opens, if_pos hb] at hopen
    · rw [if_neg hb]
      have hnext : ∀ rest ∈ advance (asciiUpper (if isBlank c then ' ' else c)) candidates,
          rest ≠ [] ∧
            opens (isBlank (if isBlank c then ' ' else c)) rest cs = false := by
        intro rest hrest
        have hopen := h _ (mem_advance.mp hrest)
        rw [opens, if_neg hb] at hopen
        simpa using hopen
      simp only
      split
      · rfl
      · next hne =>
        have hempty : [] ∉ advance (asciiUpper (if isBlank c then ' ' else c)) candidates :=
          fun hmem => (hnext [] hmem).1 rfl
        rw [if_neg hempty]
        exact ih (fun rest hrest => (hnext rest hrest).2) _ _ _

/-! ## Candidates and words -/

theorem asciiUpper_word {c : Char} (h : Plain.isWordChar c = true) :
    Plain.isWordChar (asciiUpper c) = true ∧ isBlank c = false := by
  have hascii : isAscii c = true := by
    simp only [Plain.isWordChar, Bool.or_eq_true, decide_eq_true_eq] at h
    rcases h with rfl | h
    · rfl
    · exact isAscii_of_isAlphanum h
  exact forall_ascii (P := fun c => Plain.isWordChar c = true →
    Plain.isWordChar (asciiUpper c) = true ∧ isBlank c = false) (by decide) hascii h

/-- A candidate at the front of a word and what follows it is a part of the word, or it goes on
after the word. -/
theorem opens_word {cs rest o : List Char} (hw : ∀ c ∈ cs, Plain.isWordChar c = true)
    (h : opens false o (cs ++ rest) = true) :
    o <+: cs.map asciiUpper ∨ ∃ o', o = cs.map asciiUpper ++ o' ∧ opens false o' rest = true := by
  induction cs generalizing o with
  | nil => exact Or.inr ⟨o, rfl, h⟩
  | cons c cs ih =>
    have hc := (asciiUpper_word (hw c List.mem_cons_self)).2
    cases o with
    | nil => exact Or.inl List.nil_prefix
    | cons d o =>
      obtain ⟨rfl, hrest⟩ := (opens_cons_iff (by rw [hc]; rfl)).mp h
      rw [hc, if_neg Bool.false_ne_true]
      rcases hrest with rfl | hrest
      · exact Or.inl (by simp)
      · rw [hc] at hrest
        rcases ih (fun e he => hw e (List.mem_cons_of_mem c he)) hrest with hpre | ⟨o', rfl, ho'⟩
        · exact Or.inl (by simpa using hpre)
        · exact Or.inr ⟨o', rfl, ho'⟩

theorem asciiUpper_not_word {c : Char} (h : Plain.isWordChar c = false) :
    Plain.isWordChar (asciiUpper (if isBlank c then ' ' else c)) = false := by
  by_cases hb : isBlank c = true
  · rw [if_pos hb]
    decide
  · rw [if_neg hb, asciiUpper]
    split
    · next hsmall =>
      have hword : Plain.isWordChar c = true := Plain.isWordChar_of_isLower hsmall
      rw [h] at hword
      cases hword
    · exact h

/-- Characters that go on with no word. -/
theorem takeWhile_word {cs rest : List Char} {c : Char} (hw : ∀ c ∈ cs, Plain.isWordChar c = true)
    (hc : Plain.isWordChar c = false) :
    (cs.map asciiUpper ++ c :: rest).takeWhile Plain.isWordChar = cs.map asciiUpper ∧
      (cs.map asciiUpper ++ c :: rest).dropWhile Plain.isWordChar = c :: rest := by
  have hmap : ∀ d ∈ cs.map asciiUpper, Plain.isWordChar d = true := by
    intro d hd
    obtain ⟨e, he, rfl⟩ := List.mem_map.mp hd
    exact (asciiUpper_word (hw e he)).1
  rw [List.takeWhile_append_of_pos hmap, List.dropWhile_append_of_pos hmap]
  simp [hc]

/-- The keywords of two words, cut at the blank. -/
def phrases (d : Dialect) : List (List Char × List Char) :=
  (d.lexicon.openings.filter fun o => (o.dropWhile Plain.isWordChar).head? = some ' ').map
    fun o => (o.takeWhile Plain.isWordChar, (o.dropWhile Plain.isWordChar).drop 1)

variable (d : Dialect)

theorem not_word_of_mem_openings {o : List Char} (ho : o ∈ d.lexicon.openings) :
    ∃ c ∈ o, Plain.isWordChar c = false := by
  have hall : ∀ o ∈ d.lexicon.openings, o.any (!Plain.isWordChar ·) = true := by
    cases d <;> decide
  obtain ⟨c, hc, hnot⟩ := List.any_eq_true.mp (hall o ho)
  exact ⟨c, hc, by simpa using hnot⟩

theorem mark_not_in_openings {o : List Char} (ho : o ∈ d.lexicon.openings) {c : Char}
    (hc : c ∈ ['(', ')', ',', ';']) : (o.dropWhile Plain.isWordChar).head? ≠ some c := by
  have hall : ∀ o ∈ d.lexicon.openings,
      ['(', ')', ',', ';'].all (fun c => (o.dropWhile Plain.isWordChar).head? ≠ some c) := by
    cases d <;> decide
  exact of_decide_eq_true (List.all_eq_true.mp (hall o ho) c hc)

theorem word_of_mem_phrases {p : List Char × List Char} (hp : p ∈ phrases d) :
    p.2 ≠ [] ∧ ∀ c ∈ p.2, Plain.isWordChar c = true := by
  have hall : ∀ p ∈ phrases d, p.2 ≠ [] ∧ p.2.all Plain.isWordChar = true := by
    cases d <;> decide
  exact ⟨(hall p hp).1, fun c hc => List.all_eq_true.mp (hall p hp).2 c hc⟩

variable {d} {cs rest : List Char} {c : Char}

/-- An opening that begins with a whole word goes on with what follows the word. -/
theorem opens_after_word (hw : ∀ c ∈ cs, Plain.isWordChar c = true) {o : List Char}
    (ho : o ∈ d.lexicon.openings) (h : opens false o (cs ++ c :: rest) = true) :
    ∃ o', o = cs.map asciiUpper ++ asciiUpper (if isBlank c then ' ' else c) :: o' ∧
      (o' = [] ∨ opens (isBlank c) o' rest = true) := by
  rcases opens_word hw h with hpre | ⟨o', rfl, hlater⟩
  · obtain ⟨e, he, hnot⟩ := not_word_of_mem_openings d ho
    obtain ⟨f, hf, rfl⟩ := List.mem_map.mp (hpre.subset he)
    rw [(asciiUpper_word (hw f hf)).1] at hnot
    cases hnot
  · cases o' with
    | nil => simp at hlater
    | cons e o' =>
      obtain ⟨rfl, hgoes⟩ := (opens_cons_iff (Bool.and_false _)).mp hlater
      exact ⟨o', rfl, hgoes⟩

/-- A word before a mark opens nothing. -/
theorem opens_before_mark (hw : ∀ c ∈ cs, Plain.isWordChar c = true)
    (hc : c ∈ ['(', ')', ',', ';']) {o : List Char} (ho : o ∈ d.lexicon.openings) :
    opens false o (cs ++ c :: rest) = false := by
  have hmark : Plain.isWordChar c = false ∧ asciiUpper (if isBlank c then ' ' else c) = c := by
    fin_cases hc <;> decide
  by_contra hopen
  obtain ⟨o', ho', -⟩ := opens_after_word hw ho (Bool.not_eq_false _ ▸ hopen)
  rw [hmark.2] at ho'
  refine mark_not_in_openings d ho hc ?_
  rw [ho', (takeWhile_word hw hmark.1).2]
  rfl

/-- A word before a blank opens something only as the first word of a keyword. -/
theorem opens_before_blank (hw : ∀ c ∈ cs, Plain.isWordChar c = true) (hc : c ∈ [' ', '\n'])
    (hnext : ∀ p ∈ phrases d, p.1 = cs.map asciiUpper → opens true p.2 rest = false)
    {o : List Char} (ho : o ∈ d.lexicon.openings) : opens false o (cs ++ c :: rest) = false := by
  have hblank : isBlank c = true := by fin_cases hc <;> decide
  by_contra hopen
  obtain ⟨o', ho', hrest⟩ := opens_after_word hw ho (Bool.not_eq_false _ ▸ hopen)
  rw [if_pos hblank] at ho'
  rw [hblank] at hrest
  have hspace : Plain.isWordChar ' ' = false := by decide
  have hsplit : (cs.map asciiUpper ++ ' ' :: o').takeWhile Plain.isWordChar = cs.map asciiUpper ∧
      (cs.map asciiUpper ++ ' ' :: o').dropWhile Plain.isWordChar = ' ' :: o' :=
    takeWhile_word hw hspace
  have hphrase : (cs.map asciiUpper, o') ∈ phrases d := by
    refine List.mem_map.mpr ⟨o, List.mem_filter.mpr ⟨ho, ?_⟩, ?_⟩
    · rw [ho', show asciiUpper ' ' = ' ' from by decide, hsplit.2]
      rfl
    · rw [ho', show asciiUpper ' ' = ' ' from by decide, hsplit.1, hsplit.2]
      rfl
  have hmiss := hnext _ hphrase rfl
  rcases hrest with rfl | hrest
  · exact (word_of_mem_phrases d hphrase).1 rfl
  · rw [hmiss] at hrest
    cases hrest

/-- The second word of a keyword is found in a word only as its beginning. -/
theorem opens_second_word {second : List Char} (hs : ∀ c ∈ second, Plain.isWordChar c = true)
    (hw : ∀ c ∈ cs, Plain.isWordChar c = true) (hne : cs ≠ []) (hc : Plain.isWordChar c = false)
    (hpre : ¬second <+: cs.map asciiUpper) : opens true second (cs ++ c :: rest) = false := by
  have hstart : opens true second (cs ++ c :: rest) = opens false second (cs ++ c :: rest) := by
    cases cs with
    | nil => exact absurd rfl hne
    | cons d ds =>
      have hd := (asciiUpper_word (hw d List.mem_cons_self)).2
      cases second with
      | nil => rw [opens_nil, opens_nil]
      | cons e second => simp [opens, hd]
  rw [hstart]
  by_contra hopen
  rcases opens_word hw (Bool.not_eq_false _ ▸ hopen) with hfound | ⟨later, rfl, hlater⟩
  · exact hpre hfound
  · cases later with
    | nil => simp at hlater
    | cons e later =>
      obtain ⟨rfl, -⟩ := (opens_cons_iff (Bool.and_false _)).mp hlater
      have hword := hs _ (List.mem_append_right _ List.mem_cons_self)
      rw [asciiUpper_not_word hc] at hword
      cases hword

theorem opens_second_mark {second : List Char} (hs : ∀ c ∈ second, Plain.isWordChar c = true)
    (hc : Plain.isWordChar c = false) (hb : isBlank c = false) :
    opens true second (c :: rest) = false := by
  cases second with
  | nil => exact opens_nil true _
  | cons e second =>
    by_contra hopen
    have hblank : (isBlank c && true) = false := by rw [hb]; rfl
    obtain ⟨rfl, -⟩ := (opens_cons_iff hblank).mp (Bool.not_eq_false _ ▸ hopen)
    have hword := hs _ List.mem_cons_self
    rw [asciiUpper_not_word hc] at hword
    cases hword

end Schemata.Lexer
