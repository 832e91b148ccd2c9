import Mathlib.Data.List.Basic
import Mathlib.Tactic
import Schemata.Proofs.Lexer.Trailing

/-!
# Blanks behind a string

Names in quotes and strings are read in the same way with blanks behind the text. Only a tag in
dollar signs is closed by the end of the text as well as by its mark; there the text must not end in
a dollar sign or in two quotes.
-/
namespace Schemata.Lexer

open Text

theorem mem_of_lookup {α β : Type*} [BEq α] [LawfulBEq α] {pairs : List (α × β)} {a : α} {b : β}
    (h : pairs.lookup a = some b) : (a, b) ∈ pairs := by
  obtain ⟨before, after, rfl, -⟩ := List.lookup_eq_some_iff.mp h
  exact List.mem_append_right before List.mem_cons_self

variable {l : Lexicon} {text cs more : List Char}

/-! ## One closing mark -/

theorem ClosedBy.single {mark : Char} {escapes : List Char} (hmark : isBlank mark = false)
    (hslash : mark ≠ '\\') (hescapes : escapes.any isBlank = false)
    (hbackslash : '\\' ∈ escapes →
      '\\' ∉ l.quotes ∧ (l.numericEscapes = true → IsInert mark)) :
    ClosedBy l ⟨[mark], escapes, false, false⟩ mark where
  delimiter := rfl
  closed := rfl
  nonblank := hmark
  escape _ hc := ⟨not_mem_of_isBlank hc hescapes, decide_eq_false (ne_of_isBlank hc hmark)⟩
  ne_backslash := hslash
  backslash _ hmem := ⟨rfl, hbackslash hmem⟩

theorem isInert_of_quote {mark : Char} (h : mark ∈ ['\'', '"']) : IsInert mark := by
  fin_cases h <;> exact ⟨by decide, by decide⟩

/-- Strings in quotes are closed by their quotes. -/
theorem closedBy_quote (d : Dialect) {mark : Char} (hmark : mark ∈ ['\'', '"'])
    {escapes : List Char}
    (hescapes : escapes ∈ [d.lexicon.stringEscapes, d.lexicon.escapedStringEscapes]) :
    ClosedBy d.lexicon ⟨[mark], escapes, false, false⟩ mark := by
  have hplain : isBlank mark = false ∧ mark ≠ '\\' := by
    fin_cases hmark <;> decide
  have hquotes : '\\' ∉ d.lexicon.quotes := by
    cases d <;> decide
  have hnonblank : escapes.any isBlank = false := by
    revert escapes
    cases d <;> decide
  exact .single hplain.1 hplain.2 hnonblank fun _ => ⟨hquotes, fun _ => isInert_of_quote hmark⟩

/-- A token that is made of quoted text and nothing else. -/
theorem Agree.quoted {x y : Except (List Char) QuotedText} {f : List Char → BareToken}
    (h : Agree (fun a b => b.1 = a.1 ∧ b.2 = a.2 ++ more) x y) :
    Agree (Reading.Behind more) (x.bind fun a => .ok ⟨some (f a.1), a.2⟩)
      (y.bind fun b => .ok ⟨some (f b.1), b.2⟩) := by
  refine h.bind fun a b hab => .ok ?_
  rw [hab.1, hab.2]
  exact .append more _ _

section Quotes

variable (d : Dialect) (hmore : ∀ c ∈ more, isBlank c = true)
include hmore

theorem quotedName_behind {opening closing : Char}
    (h : d.lexicon.nameQuotes.lookup opening = some closing) (cs : List Char) :
    Agree (Reading.Behind more) (quotedName d.lexicon closing cs)
      (quotedName d.lexicon closing (cs ++ more)) := by
  have hclosing : ∀ p ∈ d.lexicon.nameQuotes, isBlank p.2 = false ∧ p.2 ≠ '\\' := by
    cases d <;> decide
  obtain ⟨hblank, hslash⟩ := hclosing _ (mem_of_lookup h)
  have hq : ClosedBy d.lexicon ⟨[closing], [closing], false, false⟩ closing :=
    .single hblank hslash (by simpa using hblank) fun hmem =>
      absurd (List.mem_singleton.mp hmem).symm hslash
  exact (quotedText_behind hq hmore [] cs).quoted (f := fun text => (.quoted, .plain, text))

theorem plainString_behind {quote : Char} (h : quote ∈ d.lexicon.quotes) (cs : List Char) :
    Agree (Reading.Behind more) (plainString d.lexicon quote cs)
      (plainString d.lexicon quote (cs ++ more)) := by
  have hquotes : d.lexicon.quotes ⊆ ['\'', '"'] := by
    cases d <;> decide
  have hq := closedBy_quote d (hquotes h) List.mem_cons_self
  exact (quotedText_behind hq hmore [] cs).quoted (f := fun text => (.string, .plain, text))

end Quotes

/-! ## Tags in dollar signs -/

/-- How the tag of a string in dollar signs is read. -/
def tagQuoting : Quoting := ⟨['$'], ['\''], true, true⟩

theorem escapeAt?_tagQuoting (c : Char) (rest : List Char) :
    tagQuoting.escapeAt? l c rest = none :=
  escapeAt?_eq_none (fun h => by cases h.2.1) rest

/-- In a tag a quote is an escape before another one. -/
theorem isEscape_tagQuoting (hl : '\'' ∈ l.quotes) (c next : Char) :
    tagQuoting.isEscape l c next = decide (c = '\'' ∧ next = '\'') := by
  by_cases hc : c = '\''
  · by_cases hnext : next = '\''
    · subst hc hnext
      simp [Quoting.isEscape, tagQuoting]
    · subst hc
      simp [Quoting.isEscape, tagQuoting, hnext, hl, Ne.symm hnext]
  · simp [Quoting.isEscape, tagQuoting, hc]

theorem quotedText_tag_last (c : Char) :
    quotedText l tagQuoting text [c] = .ok (if c = '$' then text else text ++ [c], []) := by
  rw [quotedText_last (escapeAt?_tagQuoting c [])]
  by_cases hc : c = '$'
  · subst hc
    rfl
  · have hdelimiter : tagQuoting.delimiter ≠ [c] := fun h => hc (List.singleton_inj.mp h).symm
    rw [if_neg hdelimiter, if_neg hc]
    rfl

theorem quotedText_tag_pair (hl : '\'' ∈ l.quotes) {after : List Char} (h : after ≠ []) :
    quotedText l tagQuoting text ('\'' :: '\'' :: after) =
      quotedText l tagQuoting (text ++ ['\'', '\'']) after := by
  have he : tagQuoting.isEscape l '\'' '\'' = true := by
    rw [isEscape_tagQuoting hl]
    rfl
  rw [quotedText_pair (escapeAt?_tagQuoting _ _) he, if_neg (by simpa using h)]
  rfl

theorem quotedText_tag_next (hl : '\'' ∈ l.quotes) {c next : Char} (after : List Char)
    (h : ¬(c = '\'' ∧ next = '\'')) :
    quotedText l tagQuoting text (c :: next :: after) =
      if c = '$' then .ok (text, next :: after)
      else quotedText l tagQuoting (text ++ [c]) (next :: after) := by
  have he : tagQuoting.isEscape l c next = false := by
    rw [isEscape_tagQuoting hl]
    exact decide_eq_false h
  rw [quotedText_next (escapeAt?_tagQuoting _ _) he]
  by_cases hc : c = '$'
  · subst hc
    rfl
  · have hafter : after? tagQuoting.delimiter (c :: next :: after) = none := by
      simp [after?, tagQuoting, Ne.symm hc]
    rw [hafter, if_neg hc]

/-- A tag ends at the first dollar sign. -/
theorem quotedText_tag (hl : '\'' ∈ l.quotes) {before : List Char} (after : List Char)
    (h : '$' ∉ before) :
    quotedText l tagQuoting text (before ++ '$' :: after) = .ok (text ++ before, after) := by
  have hdollar : ∀ text : List Char,
      quotedText l tagQuoting text ('$' :: after) = .ok (text, after) := by
    intro text
    cases after with
    | nil => rw [quotedText_tag_last, if_pos rfl]
    | cons next after => rw [quotedText_tag_next hl after (by simp), if_pos rfl]
  induction before using List.twoStepInduction generalizing text with
  | nil => rw [List.nil_append, List.append_nil, hdollar]
  | singleton c =>
    have hc : c ≠ '$' := fun hc => h (hc ▸ List.mem_cons_self)
    rw [List.singleton_append, quotedText_tag_next hl after (by simp), if_neg hc, hdollar]
  | cons_cons c next before ih ih' =>
    simp only [List.mem_cons, not_or] at h
    by_cases hpair : c = '\'' ∧ next = '\''
    · obtain ⟨rfl, rfl⟩ := hpair
      rw [List.cons_append, List.cons_append, quotedText_tag_pair hl (by simp), ih h.2.2,
        List.append_assoc]
      rfl
    · rw [List.cons_append, List.cons_append, quotedText_tag_next hl _ hpair,
        if_neg (Ne.symm h.1), ← List.cons_append, ih' _ (by simp [h]), List.append_assoc]
      rfl

/-- A tag that is not closed is the whole text, unless its last quote is escaped. -/
theorem quotedText_open_tag (hl : '\'' ∈ l.quotes) (hne : cs ≠ []) (h : '$' ∉ cs)
    (hend : ¬['\'', '\''] <:+ cs) : quotedText l tagQuoting text cs = .ok (text ++ cs, []) := by
  induction cs using List.twoStepInduction generalizing text with
  | nil => exact absurd rfl hne
  | singleton c => rw [quotedText_tag_last, if_neg fun hc : c = '$' => h (hc ▸ List.mem_cons_self)]
  | cons_cons c next after ih ih' =>
    have hrest : ¬['\'', '\''] <:+ next :: after := fun hs => hend (hs.trans (List.suffix_cons _ _))
    simp only [List.mem_cons, not_or] at h
    by_cases hpair : c = '\'' ∧ next = '\''
    · obtain ⟨rfl, rfl⟩ := hpair
      have hafter : after ≠ [] := fun hnil => hend (hnil ▸ List.suffix_rfl)
      rw [quotedText_tag_pair hl hafter,
        ih hafter h.2.2 fun hs => hrest (hs.trans (List.suffix_cons _ _)), List.append_assoc]
      rfl
    · rw [quotedText_tag_next hl _ hpair, if_neg (Ne.symm h.1),
        ih' _ (by simp) (by simp [h]) hrest, List.append_assoc]
      rfl

/-- How the text of a string in dollar signs is read. -/
def taggedQuoting (tag : List Char) : Quoting := ⟨'$' :: tag ++ ['$'], ['\''], true, false⟩

theorem closedBy_taggedQuoting (tag : List Char) :
    ClosedBy l (taggedQuoting tag) '$' where
  delimiter := List.getLast?_concat
  closed := rfl
  nonblank := by decide
  escape c hc := by
    refine ⟨fun hmem => ?_, ?_⟩
    · rw [List.mem_singleton.mp hmem] at hc
      revert hc
      decide
    · have hdelimiter : ∃ d ds, tag ++ ['$'] = d :: ds :=
        List.exists_cons_of_ne_nil (by simp)
      obtain ⟨d, ds, hds⟩ := hdelimiter
      simp only [Quoting.escapesDelimiter, taggedQuoting, List.cons_append, hds,
        Bool.and_eq_false_iff, decide_eq_false_iff_not]
      exact .inl (ne_of_isBlank hc (by decide))
  ne_backslash := by decide
  backslash h := by cases h

theorem taggedString_eq (hl : l.stringEscapes = ['\'']) (hne : cs ≠ []) :
    taggedString l cs = (quotedText l tagQuoting [] cs).bind fun p =>
      if isParameterTag p.1 p.2 then
        let after := if p.2.isEmpty && cs.getLast? = some '$' then cs.drop 1 else cs
        .ok ⟨some (.word, .parameter, '$' :: textBefore cs after), after⟩
      else (quotedText l (taggedQuoting p.1) [] p.2).bind fun a =>
        .ok ⟨some (.string, .plain, a.1), a.2⟩ := by
  obtain ⟨c, cs, rfl⟩ := List.exists_cons_of_ne_nil hne
  rw [taggedString, hl]
  · rfl
  · simp

theorem textBefore_self (cs : List Char) : textBefore cs cs = [] := by
  rw [textBefore, Nat.sub_self, List.take_zero]

/-- A string in dollar signs whose tag is closed before the end of the text. -/
theorem taggedString_of_closed (hquote : '\'' ∈ l.quotes) (hl : l.stringEscapes = ['\''])
    {tag after : List Char} (htag : '$' ∉ tag) (hafter : after ≠ []) :
    taggedString l (tag ++ '$' :: after) =
      if isParameterTag tag after then
        .ok ⟨some (.word, .parameter, ['$']), tag ++ '$' :: after⟩
      else (quotedText l (taggedQuoting tag) [] after).bind fun a =>
        .ok ⟨some (.string, .plain, a.1), a.2⟩ := by
  have hempty : after.isEmpty = false := by simpa using hafter
  rw [taggedString_eq hl (by simp), quotedText_tag hquote after htag]
  simp only [Except.bind, List.nil_append, hempty, Bool.false_and, Bool.false_eq_true, if_false,
    textBefore_self]

/-- A dollar sign without another one marks a parameter. -/
theorem taggedString_of_open (hquote : '\'' ∈ l.quotes) (hl : l.stringEscapes = ['\''])
    (hne : cs ≠ []) (hdollar : '$' ∉ cs) (hend : ¬['\'', '\''] <:+ cs) :
    taggedString l cs = .ok ⟨some (.word, .parameter, ['$']), cs⟩ := by
  have hlast : cs.getLast? ≠ some '$' := fun hlast => hdollar (List.mem_of_getLast? hlast)
  have hparameter : isParameterTag cs [] = true := by simp [isParameterTag, hne]
  rw [taggedString_eq hl hne, quotedText_open_tag hquote hne hdollar hend]
  simp only [Except.bind, List.nil_append, hparameter, if_true, hlast, decide_false, Bool.and_false,
    Bool.false_eq_true, if_false, textBefore_self]

/-- A text that does not end within a dollar sign or an escape of a tag. -/
def EndsSettled (cs : List Char) : Prop :=
  '$' ∈ cs → ¬['$'] <:+ cs ∧ ¬['\'', '\''] <:+ cs

instance (cs : List Char) : Decidable (EndsSettled cs) :=
  inferInstanceAs (Decidable (_ → _))

theorem EndsSettled.suffix {cs rest : List Char} (h : EndsSettled cs) (hs : rest <:+ cs) :
    EndsSettled rest := fun hmem =>
  ⟨fun h' => (h (hs.subset hmem)).1 (h'.trans hs), fun h' => (h (hs.subset hmem)).2 (h'.trans hs)⟩

/-- Blanks behind a text do not make it end in two quotes. -/
theorem not_suffix_append_blanks (hmore : ∀ c ∈ more, isBlank c = true)
    (h : ¬['\'', '\''] <:+ cs) : ¬['\'', '\''] <:+ cs ++ more := by
  cases hlast : more.getLast? with
  | none =>
    rw [List.getLast?_eq_none_iff] at hlast
    rwa [hlast, List.append_nil]
  | some c =>
    rintro ⟨before, hbefore⟩
    have hc : (cs ++ more).getLast? = some c := by
      rw [List.getLast?_append, hlast]
      rfl
    rw [← hbefore, List.getLast?_append] at hc
    obtain rfl : '\'' = c := Option.some.inj hc
    exact not_mem_of_blanks (by decide) hmore (List.mem_of_getLast? hlast)

theorem taggedString_behind (hquote : '\'' ∈ l.quotes)
    (hescapes : l.stringEscapes = ['\'']) (hmore : ∀ c ∈ more, isBlank c = true)
    (h : EndsSettled ('$' :: cs)) :
    Agree (Reading.Behind more) (taggedString l cs) (taggedString l (cs ++ more)) := by
  obtain ⟨hdollar, hescape⟩ := h List.mem_cons_self
  have hne : cs ≠ [] := fun hnil => hdollar (hnil ▸ List.suffix_rfl)
  have hblank : '$' ∉ more := not_mem_of_blanks (by decide) hmore
  by_cases hmem : '$' ∈ cs
  · obtain ⟨tag, after, rfl, htag⟩ := List.eq_append_cons_of_mem hmem
    have hafter : after ≠ [] := by
      rintro rfl
      exact hdollar ((List.suffix_append tag ['$']).trans (List.suffix_cons _ _))
    have hparameter : isParameterTag tag (after ++ more) = isParameterTag tag after := by
      obtain ⟨c, after, rfl⟩ := List.exists_cons_of_ne_nil hafter
      rfl
    rw [List.append_assoc, List.cons_append, taggedString_of_closed hquote hescapes htag hafter,
      taggedString_of_closed hquote hescapes htag (by simp [hafter]), hparameter]
    split_ifs
    · rw [← List.cons_append, ← List.append_assoc]
      exact .ok (.append more _ _)
    · exact (quotedText_behind (closedBy_taggedQuoting tag) hmore [] after).quoted
        (f := fun text => (.string, .plain, text))
  · have hopen : ¬['\'', '\''] <:+ cs := fun hs => hescape (hs.trans (List.suffix_cons _ _))
    rw [taggedString_of_open hquote hescapes hne hmem hopen,
      taggedString_of_open hquote hescapes (by simp [hne]) (by simp [hmem, hblank])
        (not_suffix_append_blanks hmore hopen)]
    exact .ok (.append more _ _)

/-! ## Marked strings -/

theorem markedString_behind (d : Dialect) (hmore : ∀ c ∈ more, isBlank c = true)
    {opening : List Char} {form : StringForm}
    (h : d.lexicon.markedStrings.lookup (String.ofList opening) = some form)
    (hsettled : form = .tagged → EndsSettled ('$' :: cs)) :
    Agree (Reading.Behind more) (markedString d.lexicon opening form cs)
      (markedString d.lexicon opening form (cs ++ more)) := by
  have hmarks : ∀ p ∈ d.lexicon.markedStrings, p.2 ≠ .tagged →
      p.1.toList.getLastD '\'' ∈ ['\'', '"'] := by
    cases d <;> decide +kernel
  have htags : ∀ p ∈ d.lexicon.markedStrings, p.2 = .tagged →
      '\'' ∈ d.lexicon.quotes ∧ d.lexicon.stringEscapes = ['\''] := by
    cases d <;> decide +kernel
  have hmark := hmarks _ (mem_of_lookup h)
  rw [String.toList_ofList] at hmark
  have hplain : d.lexicon.stringEscapes ∈
      [d.lexicon.stringEscapes, d.lexicon.escapedStringEscapes] := List.mem_cons_self
  have hescaped : d.lexicon.escapedStringEscapes ∈
      [d.lexicon.stringEscapes, d.lexicon.escapedStringEscapes] :=
    List.mem_cons_of_mem _ List.mem_cons_self
  cases form with
  | tagged =>
    obtain ⟨hquote, hescapes⟩ := htags _ (mem_of_lookup h) rfl
    exact taggedString_behind hquote hescapes hmore (hsettled rfl)
  | plain =>
    have hq := closedBy_quote d (hmark (by simp)) hplain
    exact (quotedText_behind hq hmore [] cs).quoted (f := fun text => (.string, .plain, text))
  | escaped =>
    have hq := closedBy_quote d (hmark (by simp)) hescaped
    exact (quotedText_behind hq hmore [] cs).quoted (f := fun text => (.string, .plain, text))
  | numeral base =>
    have hq := closedBy_quote d (hmark (by simp)) hplain
    refine (quotedText_behind hq hmore [] cs).bind fun a b hab => ?_
    obtain ⟨text, rest⟩ := b
    obtain ⟨rfl, rfl⟩ := hab
    simp only
    split_ifs
    · exact .ok (.append more _ _)
    · exact .error

end Schemata.Lexer
