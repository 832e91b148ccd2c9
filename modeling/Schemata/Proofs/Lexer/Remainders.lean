import Mathlib.Data.List.Basic
import Mathlib.Tactic
import Schemata.Lexer.Scan

/-!
# What is left of a text

Whatever is read at the front of a text, what is left is an end of it.
-/
namespace Schemata.Lexer

open Text

variable {l : Lexicon} {cs : List Char} {r : Reading}

/-! ## Numbers and comments -/

theorem afterNumber_suffix (parameter point : Bool) (exponent : ExponentState) (cs : List Char) :
    afterNumber parameter point exponent cs <:+ cs := by
  induction cs generalizing point exponent with
  | nil => exact List.suffix_rfl
  | cons c cs ih =>
    have hrest := fun point exponent => (ih point exponent).trans (List.suffix_cons c cs)
    rw [afterNumber]
    split_ifs
    all_goals first | exact hrest _ _ | exact List.suffix_rfl

theorem number_suffix (previous : Option TokenRole) (c : Char) :
    (number l previous c cs).rest <:+ cs := by
  rw [number]
  split
  · have hrest : afterLiteral l (cs.drop 1) <:+ cs :=
      (List.dropWhile_suffix _).trans (List.drop_suffix 1 cs)
    simp only
    split <;> exact hrest
  · have hrest : (numberOrName l (previous = some .parameter) cs).2 <:+ cs := by
      have hnumber := afterNumber_suffix (previous = some .parameter) false .none cs
      simp only [numberOrName]
      split
      · exact (List.dropWhile_suffix _).trans hnumber
      · exact hnumber
    simp only
    split <;> exact hrest

theorem afterBlockComment?_suffix {nested : Bool} {m : BlockMarks} {depth : ℕ} {rest : List Char}
    (h : afterBlockComment? nested m depth cs = some rest) : rest <:+ cs := by
  fun_induction afterBlockComment? nested m depth cs with
  | case1 depth c d e cs =>
    obtain rfl := Option.some.inj h
    exact (List.suffix_cons d _).trans (List.suffix_cons c _)
  | case2 depth c d e cs hclosed depth' hopen ih =>
    exact (ih h).trans ⟨[c, d, e], rfl⟩
  | case3 depth c d e cs hclosed depth' hopen ih =>
    exact (ih h).trans (List.suffix_cons c _)
  | case4 => exact Option.some.inj h ▸ List.nil_suffix
  | case5 => cases h
  | case6 => cases h

/-! ## Strings -/

theorem quotedText_suffix {q : Quoting} {text : List Char} {a : QuotedText}
    (h : quotedText l q text cs = .ok a) : a.2 <:+ cs := by
  fun_induction quotedText l q text cs with
  | case1 => cases h
  | case2 text c rest piece after hescape ih =>
    rw [Quoting.escapeAt?] at hescape
    split_ifs at hescape
    exact (ih h).trans ((Quoting.backslashEscape?_suffix hescape).trans (List.suffix_cons c rest))
  | case3 => exact (Except.ok.inj h) ▸ List.nil_suffix
  | case4 => exact (Except.ok.inj h) ▸ List.nil_suffix
  | case5 => cases h
  | case6 => cases h
  | case7 text c next after hescape he hne ih =>
    exact (ih h).trans ⟨[c, next], rfl⟩
  | case8 text c next after hescape he rest hfound =>
    exact (Except.ok.inj h) ▸ after?_suffix hfound
  | case9 text c next after hescape he hnone ih =>
    exact (ih h).trans (List.suffix_cons c _)

theorem exists_of_bind_eq_ok {ε α β : Type*} {x : Except ε α} {f : α → Except ε β} {b : β}
    (h : x.bind f = .ok b) : ∃ a, x = .ok a ∧ f a = .ok b := by
  cases x with
  | error e => cases h
  | ok a => exact ⟨a, rfl, h⟩

/-- A token that is made of quoted text leaves an end of the text behind it. -/
theorem quoted_suffix {q : Quoting} {f : List Char → BareToken}
    (h : ((quotedText l q [] cs).bind fun a => .ok ⟨some (f a.1), a.2⟩) = .ok r) :
    r.rest <:+ cs := by
  obtain ⟨a, ha, hr⟩ := exists_of_bind_eq_ok h
  exact (Except.ok.inj hr) ▸ quotedText_suffix ha

theorem taggedString_suffix (h : taggedString l cs = .ok r) : r.rest <:+ cs := by
  cases cs with
  | nil => cases h
  | cons c cs =>
    obtain ⟨⟨tag, rest⟩, htag, hr⟩ := exists_of_bind_eq_ok h
    simp only at hr
    split at hr
    · rw [← Except.ok.inj hr]
      simp only
      split_ifs
      · exact List.drop_suffix 1 _
      · exact List.suffix_rfl
    · exact (quoted_suffix (f := fun text => (.string, .plain, text)) hr).trans
        (quotedText_suffix htag)

theorem markedString_suffix {opening : List Char} {form : StringForm}
    (h : markedString l opening form cs = .ok r) : r.rest <:+ cs := by
  cases form with
  | tagged => exact taggedString_suffix h
  | plain => exact quoted_suffix (f := fun text => (.string, .plain, text)) h
  | escaped => exact quoted_suffix (f := fun text => (.string, .plain, text)) h
  | numeral base =>
    obtain ⟨a, ha, hr⟩ := exists_of_bind_eq_ok h
    simp only at hr
    split at hr
    · exact (Except.ok.inj hr) ▸ quotedText_suffix ha
    · cases hr

end Schemata.Lexer
