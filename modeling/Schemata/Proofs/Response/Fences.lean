import Mathlib.Data.List.TakeWhile
import Mathlib.Tactic
import Schemata.Response

/-!
# Fences

What an opening and a closing fence look like, apart from how they are read: three backticks with a
few blanks, a tag and a line break around them. Behind the backticks of the one and before those of
the other stands no further backtick. Of both the first one in a text is looked for, and both are
found in the same way.
-/
namespace Schemata.Response

/-- Blanks within a line. -/
def Spaces (cs : List Char) : Prop := ∀ c ∈ cs, c = ' ' ∨ c = '\t'

/-- The rest of the line of an opening fence: blanks, a tag or none, blanks and a line break. -/
inductive OpeningLine : List Char → Prop
  | mk {blanks tag blanks' ending : List Char} (hblanks : Spaces blanks)
      (htag : tag = [] ∨ tag.map Text.foldLetter = ['s', 'q', 'l']) (hblanks' : Spaces blanks')
      (hending : ending = ['\n'] ∨ ending = ['\r', '\n']) :
      OpeningLine (blanks ++ (tag ++ (blanks' ++ ending)))

/-- What stands between a script and the backticks of its closing fence: a line break or none, and
blanks. -/
inductive ClosingLine : List Char → Prop
  | mk {cr lf blanks : List Char} (hcr : cr = [] ∨ cr = ['\r']) (hlf : lf = [] ∨ lf = ['\n'])
      (hblanks : Spaces blanks) : ClosingLine (cr ++ (lf ++ blanks))

/-! ## Blanks -/

theorem spaces_takeWhile (cs : List Char) : Spaces (cs.takeWhile fun c => c = ' ' || c = '\t') := by
  intro c hc
  simpa using List.mem_takeWhile_imp hc

theorem skipSpace_append {blanks : List Char} (h : Spaces blanks) (cs : List Char) :
    skipSpace (blanks ++ cs) = skipSpace cs := by
  refine List.dropWhile_append_of_pos fun c hc => ?_
  simpa using h c hc

/-- A text that does not begin with a blank keeps all of it. -/
theorem skipSpace_cons {c : Char} (h : ¬(c = ' ' ∨ c = '\t')) (cs : List Char) :
    skipSpace (c :: cs) = c :: cs := by
  refine List.dropWhile_cons_of_neg ?_
  simpa using h

theorem exists_spaces_append_skipSpace (cs : List Char) :
    ∃ blanks, Spaces blanks ∧ cs = blanks ++ skipSpace cs :=
  ⟨_, spaces_takeWhile cs, List.takeWhile_append_dropWhile.symm⟩

theorem head?_spaces_append {blanks : List Char} (h : Spaces blanks) {c : Char}
    (hc : ¬(c = ' ' ∨ c = '\t')) {cs : List Char} (hcs : cs.head? ≠ some c) :
    (blanks ++ cs).head? ≠ some c := by
  cases blanks with
  | nil => exact hcs
  | cons d blanks =>
    intro hd
    exact hc (Option.some.inj hd ▸ h d List.mem_cons_self)

theorem exists_append_skipChar (c : Char) (cs : List Char) :
    ∃ mark, (mark = [] ∨ mark = [c]) ∧ cs = mark ++ skipChar c cs := by
  cases cs with
  | nil => exact ⟨[], Or.inl rfl, rfl⟩
  | cons d cs =>
    rw [skipChar]
    split
    · next h => exact ⟨[c], Or.inr rfl, by rw [h]; rfl⟩
    · exact ⟨[], Or.inl rfl, rfl⟩

theorem skipChar_append {c : Char} {mark cs : List Char} (hmark : mark = [] ∨ mark = [c])
    (hcs : cs.head? ≠ some c) : skipChar c (mark ++ cs) = cs := by
  rcases hmark with rfl | rfl
  · cases cs with
    | nil => rfl
    | cons d cs => exact if_neg fun hd => hcs (congrArg some hd)
  · exact if_pos rfl

/-! ## Opening fences -/

/-- The line break of an opening fence ends its blanks, and it is no tag. -/
theorem skipSpace_ending {ending : List Char} (h : ending = ['\n'] ∨ ending = ['\r', '\n'])
    (cs : List Char) :
    skipSpace (ending ++ cs) = ending ++ cs ∧
      Text.afterKeyword? ['s', 'q', 'l'] (ending ++ cs) = none ∧
      Text.after? ['\n'] (skipChar '\r' (ending ++ cs)) = some cs := by
  rcases h with rfl | rfl
  · exact ⟨skipSpace_cons (by decide) cs, rfl, rfl⟩
  · exact ⟨skipSpace_cons (by decide) _, rfl, rfl⟩

/-- Blanks before a tag end there. -/
theorem skipSpace_tag {tag : List Char} (h : tag.map Text.foldLetter = ['s', 'q', 'l'])
    (cs : List Char) : skipSpace (tag ++ cs) = tag ++ cs := by
  cases tag with
  | nil => cases h
  | cons c tag =>
    refine skipSpace_cons ?_ _
    have hc : Text.foldLetter c = 's' := (List.cons.inj h).1
    rintro (rfl | rfl)
    · exact absurd hc (by decide)
    · exact absurd hc (by decide)

theorem afterOpening?_eq_some_iff {cs after : List Char} :
    afterOpening? cs = some after ↔ ∃ line, OpeningLine line ∧ cs = fence ++ (line ++ after) := by
  simp only [afterOpening?, Option.bind_eq_bind, Option.bind_eq_some_iff, Text.after?_eq_some_iff]
  constructor
  · rintro ⟨rest, rfl, hend⟩
    obtain ⟨blanks, hblanks, hrest⟩ := exists_spaces_append_skipSpace rest
    obtain ⟨tag, behind, htag, hsplit, hbehind⟩ : ∃ tag behind,
        (tag = [] ∨ tag.map Text.foldLetter = ['s', 'q', 'l']) ∧ skipSpace rest = tag ++ behind ∧
          (Text.afterKeyword? ['s', 'q', 'l'] (skipSpace rest)).getD (skipSpace rest) = behind := by
      cases hkeyword : Text.afterKeyword? ['s', 'q', 'l'] (skipSpace rest) with
      | none => exact ⟨[], _, Or.inl rfl, rfl, rfl⟩
      | some behind =>
        obtain ⟨tag, hsplit, htag⟩ := Text.afterKeyword?_eq_some_iff.mp hkeyword
        exact ⟨tag, behind, Or.inr htag, hsplit, rfl⟩
    rw [hbehind] at hend
    obtain ⟨blanks', hblanks', hspaces⟩ := exists_spaces_append_skipSpace behind
    obtain ⟨cr, hcr, hmark⟩ := exists_append_skipChar '\r' (skipSpace behind)
    have hending : cr ++ ['\n'] = ['\n'] ∨ cr ++ ['\n'] = ['\r', '\n'] := by
      rcases hcr with rfl | rfl
      · exact Or.inl rfl
      · exact Or.inr rfl
    refine ⟨_, ⟨hblanks, htag, hblanks', hending⟩, ?_⟩
    rw [hrest, hsplit, hspaces, hmark, hend]
    simp only [List.append_assoc]
  · rintro ⟨_, ⟨hblanks, htag, hblanks', hending⟩, rfl⟩
    refine ⟨_, rfl, ?_⟩
    simp only [List.append_assoc]
    obtain ⟨hspaces, hplain, hbreak⟩ := skipSpace_ending hending after
    rw [skipSpace_append hblanks, ← Text.after?_eq_some_iff]
    rcases htag with rfl | htag
    · rw [List.nil_append, skipSpace_append hblanks', hspaces, hplain, Option.getD_none, hspaces,
        hbreak]
    · rw [skipSpace_tag htag, Text.afterKeyword?_eq_some_iff.mpr ⟨_, rfl, htag⟩, Option.getD_some,
        skipSpace_append hblanks', hspaces, hbreak]

/-! ## Closing fences -/

theorem afterClosing?_eq_some_iff {cs after : List Char} :
    afterClosing? cs = some after ↔ ∃ line, ClosingLine line ∧ cs = line ++ (fence ++ after) := by
  rw [afterClosing?, Text.after?_eq_some_iff]
  constructor
  · intro hfence
    obtain ⟨cr, hcr, hrest⟩ := exists_append_skipChar '\r' cs
    obtain ⟨lf, hlf, hrest'⟩ := exists_append_skipChar '\n' (skipChar '\r' cs)
    obtain ⟨blanks, hblanks, hspaces⟩ :=
      exists_spaces_append_skipSpace (skipChar '\n' (skipChar '\r' cs))
    refine ⟨_, ⟨hcr, hlf, hblanks⟩, ?_⟩
    rw [hrest, hrest', hspaces, hfence]
    simp only [List.append_assoc]
  · rintro ⟨_, @⟨cr, lf, blanks, hcr, hlf, hblanks⟩, rfl⟩
    have hspaces : ∀ c, c = '\r' ∨ c = '\n' → (blanks ++ (fence ++ after)).head? ≠ some c := by
      rintro c (rfl | rfl)
      · exact head?_spaces_append hblanks (by decide) (by simp [fence])
      · exact head?_spaces_append hblanks (by decide) (by simp [fence])
    have hline : (lf ++ (blanks ++ (fence ++ after))).head? ≠ some '\r' := by
      rcases hlf with rfl | rfl
      · exact hspaces '\r' (Or.inl rfl)
      · simp
    simp only [List.append_assoc]
    rw [skipChar_append hcr hline, skipChar_append hlf (hspaces '\n' (Or.inr rfl)),
      skipSpace_append hblanks]
    exact skipSpace_cons (by decide) _

/-! ## Backticks -/

theorem Spaces.not_mem {blanks : List Char} (h : Spaces blanks) {c : Char}
    (hc : ¬(c = ' ' ∨ c = '\t')) : c ∉ blanks := fun hmem => hc (h c hmem)

theorem not_mem_tag {tag : List Char} (h : tag = [] ∨ tag.map Text.foldLetter = ['s', 'q', 'l'])
    {c : Char} (hc : Text.foldLetter c ∉ ['s', 'q', 'l']) : c ∉ tag := by
  rcases h with rfl | h
  · exact List.not_mem_nil
  · exact fun hmem => hc (h ▸ List.mem_map_of_mem hmem)

theorem OpeningLine.backtick_not_mem {line : List Char} (h : OpeningLine line) : '\x60' ∉ line := by
  obtain ⟨hblanks, htag, hblanks', hending⟩ := h
  simp only [List.mem_append, not_or]
  refine ⟨hblanks.not_mem (by decide), not_mem_tag htag (by decide),
    hblanks'.not_mem (by decide), ?_⟩
  rcases hending with rfl | rfl
  · decide
  · decide

/-- An opening line is one line. -/
theorem OpeningLine.exists_eq_append {line : List Char} (h : OpeningLine line) :
    ∃ front, line = front ++ ['\n'] ∧ '\n' ∉ front := by
  obtain @⟨blanks, tag, blanks', ending, hblanks, htag, hblanks', hending⟩ := h
  have hfront : '\n' ∉ blanks ++ (tag ++ blanks') := by
    simp only [List.mem_append, not_or]
    exact ⟨hblanks.not_mem (by decide), not_mem_tag htag (by decide),
      hblanks'.not_mem (by decide)⟩
  rcases hending with rfl | rfl
  · exact ⟨blanks ++ (tag ++ blanks'), by simp only [List.append_assoc], hfront⟩
  · refine ⟨blanks ++ (tag ++ blanks') ++ ['\r'], ?_, ?_⟩
    · simp only [List.append_assoc, List.singleton_append]
    · simpa using hfront

theorem ClosingLine.backtick_not_mem {line : List Char} (h : ClosingLine line) :
    '\x60' ∉ line := by
  obtain ⟨hcr, hlf, hblanks⟩ := h
  simp only [List.mem_append, not_or]
  refine ⟨?_, ?_, hblanks.not_mem (by decide)⟩
  · rcases hcr with rfl | rfl
    · decide
    · decide
  · rcases hlf with rfl | rfl
    · decide
    · decide

/-! ## The first place of all -/

/-- The text before the first place where something can be read, and the text after that. -/
def firstRead? (read? : List Char → Option (List Char)) :
    List Char → Option (List Char × List Char)
  | [] => none
  | c :: cs =>
    match read? (c :: cs) with
    | some after => some ([], after)
    | none => (firstRead? read? cs).map fun (before, after) => (c :: before, after)

theorem opening?_eq_firstRead? (cs : List Char) : opening? cs = firstRead? afterOpening? cs := by
  induction cs with
  | nil => rfl
  | cons c cs ih =>
    rw [opening?, ih]
    rfl

theorem closing?_eq_firstRead? (cs : List Char) : closing? cs = firstRead? afterClosing? cs := by
  induction cs with
  | nil => rfl
  | cons c cs ih =>
    rw [closing?, ih]
    rfl

section FirstRead

variable {read? : List Char → Option (List Char)} {cs before after : List Char}

/-- Where nothing can be read on the way, it does not matter what stands before a text. -/
theorem firstRead?_append (h : ∀ s, s <:+ before → s ≠ [] → read? (s ++ cs) = none) :
    firstRead? read? (before ++ cs) =
      (firstRead? read? cs).map fun (b, a) => (before ++ b, a) := by
  induction before with
  | nil => simp
  | cons c before ih =>
    have hnone : read? (c :: (before ++ cs)) = none := h _ List.suffix_rfl (List.cons_ne_nil _ _)
    have hlater := ih fun s hs => h s (hs.trans (List.suffix_cons ..))
    rw [List.cons_append, firstRead?, hnone, hlater]
    exact Option.map_map ..

theorem firstRead?_eq_none_iff (hnil : read? [] = none) :
    firstRead? read? cs = none ↔ ∀ s, s <:+ cs → read? s = none := by
  induction cs with
  | nil => simp [firstRead?, hnil]
  | cons c cs ih =>
    simp only [List.suffix_cons_iff, forall_eq_or_imp, ← ih, firstRead?]
    cases read? (c :: cs) <;> simp

/-- What is found is the first place of all where something can be read. -/
theorem firstRead?_eq_some_iff (hnil : read? [] = none) :
    firstRead? read? cs = some (before, after) ↔
      ∃ rest, cs = before ++ rest ∧ read? rest = some after ∧
        ∀ s, s <:+ before → s ≠ [] → read? (s ++ rest) = none := by
  constructor
  · intro h
    induction cs generalizing before with
    | nil => cases h
    | cons c cs ih =>
      rw [firstRead?] at h
      split at h
      · next hread =>
        cases h
        exact ⟨c :: cs, rfl, hread, fun s hs hne => absurd (List.suffix_nil.mp hs) hne⟩
      · next hnone =>
        obtain ⟨⟨before, after⟩, hlater, heq⟩ := Option.map_eq_some_iff.mp h
        cases heq
        obtain ⟨rest, rfl, hread, hfirst⟩ := ih hlater
        refine ⟨rest, rfl, hread, fun s hs hne => ?_⟩
        rcases List.suffix_cons_iff.mp hs with rfl | hs
        · exact hnone
        · exact hfirst s hs hne
  · rintro ⟨rest, rfl, hread, hfirst⟩
    rw [firstRead?_append hfirst]
    cases rest with
    | nil =>
      rw [hnil] at hread
      cases hread
    | cons c rest => simp [firstRead?, hread]

/-- A text that goes on keeps its first place where something can be read, if no earlier one comes
to be there. -/
theorem firstRead?_append_right (hnil : read? [] = none) {more : List Char}
    (hread : ∀ s t, read? s = some t → read? (s ++ more) = some (t ++ more))
    (hnone : ∀ s rest, s ≠ [] → read? rest = some after → read? (s ++ rest) = none →
      read? (s ++ rest ++ more) = none)
    (h : firstRead? read? cs = some (before, after)) :
    firstRead? read? (cs ++ more) = some (before, after ++ more) := by
  obtain ⟨rest, rfl, hrest, hfirst⟩ := (firstRead?_eq_some_iff hnil).mp h
  refine (firstRead?_eq_some_iff hnil).mpr
    ⟨rest ++ more, List.append_assoc .., hread _ _ hrest, fun s hs hne => ?_⟩
  rw [← List.append_assoc]
  exact hnone s rest hne hrest (hfirst s hs hne)

end FirstRead

end Schemata.Response
