import Mathlib.Data.List.Basic
import Mathlib.Tactic
import Schemata.Proofs.Lexer.Strings

/-!
# Blanks behind a text

What is read at the front of a text is a part of it, and it is the same with blanks behind the text.
-/
namespace Schemata.Lexer

open Text

variable {l : Lexicon} {cs : List Char}

/-! ## The keyword search, case by case -/

/-- What is read of a text in which a search has found a word. -/
def readFound (l : Lexicon) (previous : Option TokenRole) (found : KeywordMatch)
    (w cs : List Char) :
    Except (List Char) (Option Reading) :=
  let name := String.ofList w
  let after := cs.drop w.length
  if w.length = 1 ∧ w.headD ' ' ∈ l.quotes then (plainString l (w.headD ' ') after).map some
  else match l.markedStrings.lookup name with
    | some form => (markedString l w form after).map some
    | none =>
      if name ∈ l.lineComments && (name ≠ "--" || dashesOpenComment l after) then
        .ok (some ⟨none, afterLineComment l after⟩)
      else match l.blockComments.lookup name with
        | some closing =>
          match afterBlockComment? l.nestedComments ⟨(w.headD ' ', (w.drop 1).headD ' '), closing⟩ 0
              after with
          | none => .error []
          | some rest =>
            .ok (some (if name = "/*+" && previous = some .hintHost then
              ⟨some (.word, .plain, textBefore cs rest), rest⟩ else ⟨none, rest⟩))
        | none =>
          .ok (if found.closed && String.ofList (upper w) ∈ l.keywords then
            some ⟨some (.word, roleOf l (upper w), upper w), cs.drop found.length⟩ else none)

theorem readKeyword_eq (l : Lexicon) (previous : Option TokenRole) (cs : List Char) :
    readKeyword l previous cs =
      match (findKeyword l cs).word with
      | none => .ok none
      | some w => readFound l previous (findKeyword l cs) w cs := by
  have hsome : ∀ x : Except (List Char) Reading, (x >>= fun a => pure (some a)) = x.map some := by
    rintro (_ | _) <;> rfl
  rw [readKeyword]
  simp only
  cases (findKeyword l cs).word with
  | none => rfl
  | some w =>
    simp only [readFound]
    by_cases hquote : w.length = 1 ∧ w.headD ' ' ∈ l.quotes
    · obtain ⟨c, rfl⟩ := List.length_eq_one_iff.mp hquote.1
      obtain ⟨-, hc⟩ := hquote
      simp only [List.headD_cons] at hc
      simp only [List.length_singleton, List.headD_cons, hc, and_self, if_true]
      exact hsome _
    · rw [if_neg hquote]
      have hplain : ∀ c, w = [c] → c ∉ l.quotes := by
        rintro c rfl hc
        exact hquote ⟨rfl, hc⟩
      split <;> [rw [if_neg (hplain _ rfl)]; skip]
      all_goals
        cases l.markedStrings.lookup (String.ofList _) with
        | some form => exact hsome _
        | none =>
          simp only
          split_ifs
          · rfl
          all_goals
            cases l.blockComments.lookup (String.ofList _) with
            | none => rfl
            | some closing =>
              simp only
              cases afterBlockComment? l.nestedComments _ 0 (cs.drop _) <;> rfl

theorem readFound_suffix {previous : Option TokenRole} {found : KeywordMatch} {w : List Char}
    {r : Reading} {c : Char} (hlength : 0 < found.length) (hw : w ≠ [])
    (h : readFound l previous found w (c :: cs) = .ok (some r)) : r.rest <:+ cs := by
  have hdrop : ∀ n, 0 < n → (c :: cs).drop n <:+ cs := by
    intro n hn
    obtain ⟨n, rfl⟩ := Nat.exists_eq_succ_of_ne_zero hn.ne'
    exact List.drop_suffix n cs
  have hafter := hdrop w.length (List.length_pos_iff.mpr hw)
  have hsome : ∀ {x : Except (List Char) Reading}, x.map some = .ok (some r) → x = .ok r := by
    rintro (_ | _) h
    · cases h
    · exact congrArg Except.ok (Option.some.inj (Except.ok.inj h))
  simp only [readFound] at h
  split at h
  · exact (quoted_suffix (f := fun text => (.string, .plain, text)) (hsome h)).trans hafter
  split at h
  · exact (markedString_suffix (hsome h)).trans hafter
  split at h
  · obtain rfl := Option.some.inj (Except.ok.inj h)
    exact (List.dropWhile_suffix _).trans hafter
  split at h
  · split at h
    · cases h
    · next hclosed =>
      obtain rfl := Option.some.inj (Except.ok.inj h)
      split_ifs <;> exact (afterBlockComment?_suffix hclosed).trans hafter
  · split at h
    · obtain rfl := Option.some.inj (Except.ok.inj h)
      exact hdrop _ hlength
    · cases h

theorem readToken_suffix {previous : Option TokenRole} {c : Char} {r : Reading}
    (hc : isBlank c = false) (h : readToken l previous c cs = .ok r) : r.rest <:+ cs := by
  rw [readToken] at h
  split at h
  · exact Except.ok.inj h ▸ number_suffix previous c
  split at h
  · exact quoted_suffix (f := fun text => (.quoted, .plain, text)) h
  · obtain ⟨found?, hread, hr⟩ := exists_of_bind_eq_ok h
    cases found? with
    | some found =>
      obtain rfl : found = r := Except.ok.inj hr
      rw [readKeyword_eq] at hread
      split at hread
      · cases hread
      · next hfound =>
        obtain ⟨hlength, later, rfl, -⟩ := findKeyword_word hc hfound
        exact readFound_suffix hlength (List.cons_ne_nil _ _) hread
    | none =>
      simp only at hr
      split at hr
      · rw [← Except.ok.inj hr, single]
        split_ifs <;> exact List.suffix_rfl
      · exact Except.ok.inj hr ▸ List.dropWhile_suffix _

/-! ## Blanks behind -/

/-- Only one dialect has strings in tags. -/
theorem eq_dollar_of_tagged {d : Dialect} {w : List Char}
    (h : d.lexicon.markedStrings.lookup (String.ofList w) = some .tagged) :
    d = .postgresql ∧ w = ['$'] := by
  have htagged : ∀ p ∈ d.lexicon.markedStrings, p.2 = .tagged → d = .postgresql ∧ p.1 = "$" := by
    cases d <;> decide +kernel
  obtain ⟨hd, hname⟩ := htagged _ (mem_of_lookup h) rfl
  exact ⟨hd, String.ofList_injective hname⟩

/-- No mark of a block comment is blank. -/
theorem isBlank_blockMarks {d : Dialect} {w : List Char} {closing : Char × Char}
    (h : d.lexicon.blockComments.lookup (String.ofList w) = some closing) :
    (isBlank (w.headD ' ') = false ∧ isBlank ((w.drop 1).headD ' ') = false) ∧
      isBlank closing.1 = false ∧ isBlank closing.2 = false := by
  have hmarks : ∀ p ∈ d.lexicon.blockComments,
      (isBlank (p.1.toList.headD ' ') = false ∧ isBlank ((p.1.toList.drop 1).headD ' ') = false) ∧
        isBlank p.2.1 = false ∧ isBlank p.2.2 = false := by
    cases d <;> decide +kernel
  have hfound := hmarks _ (mem_of_lookup h)
  rwa [String.toList_ofList] at hfound

/-- A token that ends at the same place, or that reaches from the end of the text into what
follows. -/
theorem drop_behind {n n' : ℕ} (hle : n ≤ cs.length)
    (h : n' = n ∨ n = cs.length ∧ n ≤ n') (more : List Char) :
    (cs ++ more).drop n' = cs.drop n ++ more ∨
      cs.drop n = [] ∧ (cs ++ more).drop n' <:+ more := by
  obtain rfl | ⟨rfl, hlonger⟩ := h
  · exact .inl (List.drop_append_of_le_length hle)
  · refine .inr ⟨List.drop_length, ?_⟩
    rw [List.drop_append, List.drop_eq_nil_of_le hlonger, List.nil_append]
    exact List.drop_suffix _ _

section Behind

variable (d : Dialect) {more : List Char} (hmore : ∀ c ∈ more, isBlank c = true)
  {previous : Option TokenRole}
include hmore

theorem readFound_behind {found found' : KeywordMatch} (hclosed : found'.closed = found.closed)
    (hle : found.length ≤ cs.length)
    (hlength : found'.length = found.length ∨
      found.length = cs.length ∧ found.length ≤ found'.length)
    {w : List Char} (hw : w.length ≤ cs.length)
    (hsettled : d = .postgresql → w = ['$'] → EndsSettled ('$' :: cs.drop 1)) :
    Agree (Option.Rel (Reading.Behind more)) (readFound d.lexicon previous found w cs)
      (readFound d.lexicon previous found' w (cs ++ more)) := by
  have hdrop : (cs ++ more).drop w.length = cs.drop w.length ++ more :=
    List.drop_append_of_le_length hw
  have hsome : ∀ {x y : Except (List Char) Reading}, Agree (Reading.Behind more) x y →
      Agree (Option.Rel (Reading.Behind more)) (x.map some) (y.map some) := by
    rintro _ _ (h | _)
    · exact .ok (.some h)
    · exact .error
  simp only [readFound, hdrop, hclosed]
  split
  · next hquote => exact hsome (plainString_behind d hmore hquote.2 _)
  cases hstring : d.lexicon.markedStrings.lookup (String.ofList w) with
  | some form =>
    refine hsome (markedString_behind d hmore hstring ?_)
    rintro rfl
    obtain ⟨hd, rfl⟩ := eq_dollar_of_tagged hstring
    exact hsettled hd rfl
  | none =>
    simp only [dashesOpenComment_behind hmore]
    split
    · refine .ok (.some ⟨rfl, ?_⟩)
      exact afterLineComment_behind d.lexicon more _
    cases hblock : d.lexicon.blockComments.lookup (String.ofList w) with
    | some closing =>
      obtain ⟨hopening, hclosing⟩ := isBlank_blockMarks hblock
      simp only [afterBlockComment?_behind (m := ⟨(w.headD ' ', (w.drop 1).headD ' '), closing⟩)
        hopening hclosing hmore]
      cases afterBlockComment? d.lexicon.nestedComments
          ⟨(w.headD ' ', (w.drop 1).headD ' '), closing⟩ 0 (cs.drop w.length) with
      | none => exact .error
      | some rest =>
        simp only [Option.map_some, textBefore_append]
        exact .ok (.some (.ite _ (.append more _ _) (.append more _ _)))
    | none =>
      refine .ok ?_
      split
      · exact .some ⟨rfl, drop_behind hle hlength more⟩
      · exact .none

variable {c : Char} (hc : isBlank c = false) (hsettled : d = .postgresql → EndsSettled (c :: cs))
include hc hsettled

theorem readKeyword_behind :
    Agree (Option.Rel (Reading.Behind more)) (readKeyword d.lexicon previous (c :: cs))
      (readKeyword d.lexicon previous (c :: cs ++ more)) := by
  have hopenings : EndInMarks d.lexicon.openings := by
    cases d <;> decide +kernel
  obtain ⟨hword, hclosed, hle, hlength⟩ :=
    follow_behind d.lexicon (c :: cs) [] 0 none false false hopenings hmore
  rw [← findKeyword, ← findKeyword, Nat.zero_add] at *
  rw [readKeyword_eq, readKeyword_eq, hword]
  cases hfound : (findKeyword d.lexicon (c :: cs)).word with
  | none => exact .ok .none
  | some w =>
    obtain ⟨-, later, rfl, hlater⟩ := findKeyword_word hc hfound
    refine readFound_behind d hmore hclosed hle hlength (by simpa using hlater) ?_
    intro hd hw
    obtain rfl : c = '$' := (List.cons.inj hw).1
    exact hsettled hd

/-- A token is the same with blanks behind the text. -/
theorem readToken_behind :
    Agree (Reading.Behind more) (readToken d.lexicon previous c cs)
      (readToken d.lexicon previous c (cs ++ more)) := by
  rw [readToken, readToken]
  split
  · exact .ok (number_behind hmore d.lexicon previous c cs)
  cases hname : d.lexicon.nameQuotes.lookup c with
  | some closing => exact quotedName_behind d hmore hname cs
  | none =>
    refine (readKeyword_behind d hmore hc hsettled).bind fun a b hab => ?_
    cases hab with
    | some h => exact .ok h
    | none =>
      simp only
      split
      · refine .ok ?_
        rw [single, single]
        split_ifs <;> exact .append more _ _
      · exact .ok (word_behind hmore d.lexicon previous c cs)

end Behind

end Schemata.Lexer
