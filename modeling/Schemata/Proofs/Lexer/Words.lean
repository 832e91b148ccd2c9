import Mathlib.Data.List.Basic
import Mathlib.Tactic
import Schemata.Proofs.Lexer.Reading

/-!
# Plain words and marks

A word before a blank or a mark is one token, and so is each of the marks of a definition. The only
keyword of two words that a definition is written with is the one for a primary key.
-/
namespace Schemata.Lexer

open Text

/-- Characters that a word of a definition ends before. -/
def separators : List Char := [' ', '\n', '(', ')', ',', ';']

section Keyword

variable {l : Lexicon} {cs : List Char}

theorem readKeyword_eq_none (h : ∀ o ∈ l.openings, opens false o cs = false)
    (previous : Option TokenRole) : readKeyword l previous cs = .ok none := by
  have hfound : (findKeyword l cs).word = none := follow_word_eq l h [] 0 none false
  simp only [readKeyword, hfound]
  rfl

theorem roleOf_ne_parameter (l : Lexicon) (text : List Char) : roleOf l text ≠ .parameter := by
  simp only [roleOf]
  split_ifs <;> decide

end Keyword

/-! ## Words -/

section Word

variable (d : Dialect) {c : Char}

theorem not_single_of_word (h : Plain.isWordChar c = true) :
    d.lexicon.isSingle c = false ∧ d.lexicon.nameQuotes.lookup c = none := by
  have hsingles : d.lexicon.singles.all (!Plain.isWordChar ·) = true := by
    cases d <;> decide
  have hquotes : ∀ q ∈ d.lexicon.nameQuotes, Plain.isWordChar q.1 = false := by
    cases d <;> decide
  constructor
  · refine decide_eq_false fun hmem => ?_
    have hnot := List.all_eq_true.mp hsingles c hmem
    rw [h] at hnot
    cases hnot
  · refine List.lookup_eq_none_iff.mpr fun q hq => ?_
    have hne : c ≠ q.1 := by
      rintro rfl
      rw [hquotes q hq] at h
      cases h
    simpa using hne

theorem endsWord_word (h : Plain.isWordChar c = true) : d.lexicon.endsWord c = false := by
  rw [Lexicon.endsWord, (asciiUpper_word h).2, (not_single_of_word d h).1]
  rfl

theorem endsWord_separator (h : c ∈ separators) : d.lexicon.endsWord c = true := by
  have hall : separators.all d.lexicon.endsWord = true := by
    cases d <;> decide
  exact List.all_eq_true.mp hall c h

theorem words_singleton {w : List Char} (hw : ∀ c ∈ w, Plain.isWordChar c = true) (hne : w ≠ []) :
    Text.words w = [w] := by
  have hpieces : pieces isBlank w = [w] := by
    clear hne
    induction w with
    | nil => rfl
    | cons c cs ih =>
      have hc := (asciiUpper_word (hw c List.mem_cons_self)).2
      rw [pieces, hc, ih fun e he => hw e (List.mem_cons_of_mem c he)]
      rfl
  rw [Text.words, hpieces]
  simp [hne]

/-- A word is one token if it opens nothing. -/
theorem readToken_word {w rest : List Char} (hw : ∀ e ∈ c :: w, Plain.isWordChar e = true)
    (hdigit : c.isDigit = false) (hrest : ∃ e ∈ separators, rest.head? = some e)
    (hopen : ∀ o ∈ d.lexicon.openings, opens false o (c :: w ++ rest) = false)
    {previous : Option TokenRole} (hp : previous ≠ some .parameter) :
    readToken d.lexicon previous c (w ++ rest) =
      .ok ⟨some (.word, roleOf d.lexicon (c :: w), c :: w), rest⟩ := by
  obtain ⟨hsingle, hquote⟩ := not_single_of_word d (hw c List.mem_cons_self)
  have hdrop : (w ++ rest).dropWhile (!d.lexicon.endsWord ·) = rest := by
    obtain ⟨e, he, hhead⟩ := hrest
    have hinside : ∀ f ∈ w, (!d.lexicon.endsWord f) = true := by
      intro f hf
      rw [endsWord_word d (hw f (List.mem_cons_of_mem c hf))]
      rfl
    rw [List.dropWhile_append_of_pos hinside]
    cases rest with
    | nil => rfl
    | cons f rest =>
      obtain rfl := Option.some.inj hhead
      rw [List.dropWhile_cons, endsWord_separator d he]
      rfl
  have hbefore : textBefore (w ++ rest) rest = w := by
    rw [textBefore, List.length_append, Nat.add_sub_cancel]
    exact List.take_left
  have hword : word d.lexicon previous c (w ++ rest) =
      ⟨some (.word, roleOf d.lexicon (c :: w), c :: w), rest⟩ := by
    simp only [word, hdrop, hbefore, if_neg hp]
  simp only [readToken, hdigit, hquote, Bool.false_eq_true, if_false]
  rw [← List.cons_append, readKeyword_eq_none hopen]
  simp only [bind, Except.bind, hsingle, Bool.false_eq_true, if_false, hword]
  rfl

variable {d} {opening : Bool} {w rest : List Char} {xs : List Content}

theorem reads_word (hw : ∀ c ∈ w, Plain.isWordChar c = true)
    (hstart : ∃ c cs, w = c :: cs ∧ c.isDigit = false)
    (hrest : ∃ e ∈ separators, rest.head? = some e)
    (hopen : ∀ o ∈ d.lexicon.openings, opens false o (w ++ rest) = false)
    (hcommand : opening = true → roleOf d.lexicon w ≠ .command)
    (h : Reads d.lexicon (roleOf d.lexicon w = .commandOpener) rest xs) :
    Reads d.lexicon opening (w ++ rest) (Content.word (String.ofList w) :: xs) := by
  obtain ⟨c, cs, rfl, hdigit⟩ := hstart
  have hblank := (asciiUpper_word (hw c List.mem_cons_self)).2
  have hcontents : tokenContents .word (c :: cs) = [Content.word (String.ofList (c :: cs))] := by
    simp only [tokenContents, words_singleton hw (List.cons_ne_nil c cs), List.map_cons,
      List.map_nil]
  have hlt : rest.length ≤ (cs ++ rest).length := by
    rw [List.length_append]
    omega
  have htoken := reads_token hblank (fun _ hp => readToken_word d hw hdigit hrest hopen hp) hlt
    (roleOf_ne_parameter _ _) hcommand h
  rw [hcontents] at htoken
  exact htoken

end Word

/-! ## Marks -/

variable {d : Dialect} {opening : Bool} {c : Char} {rest : List Char} {xs : List Content}

theorem reads_mark (hc : c ∈ ['(', ')', ',', ';']) (h : Reads d.lexicon (c = ';') rest xs) :
    Reads d.lexicon opening (c :: rest) (Content.mark (String.singleton c) :: xs) := by
  have hopen : ∀ o ∈ d.lexicon.openings, opens false o (c :: rest) = false := fun o ho =>
    opens_before_mark (by simp : ∀ c ∈ ([] : List Char), Plain.isWordChar c = true) hc ho
  have hchar : isBlank c = false ∧ c.isDigit = false ∧ d.lexicon.nameQuotes.lookup c = none ∧
      d.lexicon.isSingle c = true := by
    fin_cases hc <;> cases d <;> decide
  obtain ⟨hblank, hdigit, hquote, hsingle⟩ := hchar
  set r : TokenRole := if c = ';' then .commandOpener else .plain with hr
  have hreading : single c rest = ⟨some (.punct, r, [c]), rest⟩ := by
    fin_cases hc <;> rfl
  have hread : ∀ previous, previous ≠ some .parameter →
      readToken d.lexicon previous c rest = .ok ⟨some (.punct, r, [c]), rest⟩ := by
    intro previous _
    simp only [readToken, hdigit, hquote, Bool.false_eq_true, if_false]
    rw [readKeyword_eq_none hopen]
    simp only [bind, Except.bind, hsingle, if_true, hreading]
    rfl
  have hquiet : r ≠ .parameter ∧ r ≠ .command ∧ decide (r = .commandOpener) = decide (c = ';') := by
    rw [hr]
    split_ifs with hsemi <;> simp [hsemi]
  have htext : tokenContents .punct [c] = [Content.mark (String.singleton c)] := by
    fin_cases hc <;> decide
  have htoken : Reads d.lexicon opening (c :: rest) (tokenContents .punct [c] ++ xs) :=
    reads_token hblank hread (Nat.le_refl _) hquiet.1 (fun _ => hquiet.2.1) (hquiet.2.2 ▸ h)
  rw [htext] at htoken
  exact htoken

/-! ## Keys -/

/-- The words for a primary key are one token, which stands for two lexemes. -/
theorem reads_primaryKey {e : Char} (he : e ∈ [' ', '\n', ','])
    (h : Reads d.lexicon false (e :: rest) xs) :
    Reads d.lexicon opening ("PRIMARY KEY".toList ++ e :: rest)
      (Content.word "PRIMARY" :: Content.word "KEY" :: xs) := by
  have hfound : findKeyword d.lexicon ("PRIMARY KEY".toList ++ e :: rest) =
      ⟨11, some "PRIMARY KEY".toList, true⟩ := by
    fin_cases he <;> cases d <;> rfl
  have hkeyword : ∀ previous, readKeyword d.lexicon previous ("PRIMARY KEY".toList ++ e :: rest) =
      .ok (some ⟨some (.word, .plain, "PRIMARY KEY".toList), e :: rest⟩) := by
    intro previous
    simp only [readKeyword, hfound]
    cases d <;> rfl
  have hquote : d.lexicon.nameQuotes.lookup 'P' = none := by
    cases d <;> decide
  have hread : ∀ previous, previous ≠ some .parameter →
      readToken d.lexicon previous 'P' ("RIMARY KEY".toList ++ e :: rest) =
        .ok ⟨some (.word, .plain, "PRIMARY KEY".toList), e :: rest⟩ := by
    intro previous _
    have hdigit : 'P'.isDigit = false := by decide
    simp only [readToken, hdigit, hquote, Bool.false_eq_true, if_false]
    rw [show 'P' :: ("RIMARY KEY".toList ++ e :: rest) = "PRIMARY KEY".toList ++ e :: rest from rfl,
      hkeyword]
    rfl
  have hcontents : tokenContents .word "PRIMARY KEY".toList =
      [Content.word "PRIMARY", Content.word "KEY"] := by decide
  have hlt : (e :: rest).length ≤ ("RIMARY KEY".toList ++ e :: rest).length := by
    rw [List.length_append]
    omega
  have htoken : Reads d.lexicon opening ('P' :: ("RIMARY KEY".toList ++ e :: rest))
      (tokenContents .word "PRIMARY KEY".toList ++ xs) :=
    reads_token (by decide) hread hlt (by decide) (fun _ => by decide) h
  rw [hcontents] at htoken
  exact htoken

end Schemata.Lexer
