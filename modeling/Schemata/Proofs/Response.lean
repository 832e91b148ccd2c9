import Mathlib.Data.List.Basic
import Mathlib.Tactic
import Schemata.Response

/-!
# Scripts in answers

An answer without fences is a script as a whole. Otherwise the text before the first fence does not
matter. No fence runs over a semicolon, so prose without fences that ends in one adds no script.
-/
namespace Schemata.Response

theorem filter_prosePart (cs : List Char) : (prosePart cs).filter Part.isScript = [] := by
  rw [prosePart]
  split <;> rfl

theorem parts_of_unopened {cs : List Char} (h : opening? cs = none) : parts cs = prosePart cs := by
  rw [parts]
  split
  · rfl
  · next hopen =>
    rw [h] at hopen
    cases hopen

theorem script_eq_self_of_unfenced {cs : List Char} (h : opening? cs = none) : script cs = cs := by
  rw [script, parts_of_unopened h, filter_prosePart]
  rfl

/-- The scripts of an answer stand behind its first opening fence. -/
theorem filter_parts {cs before inside : List Char} (h : opening? cs = some (before, inside)) :
    (parts cs).filter Part.isScript =
      match closing? inside with
      | none => [.script inside false]
      | some (content, after) => .script content true :: (parts after).filter Part.isScript := by
  rw [parts]
  split
  · next hopen =>
    rw [h] at hopen
    cases hopen
  · next hopen =>
    rw [h] at hopen
    cases hopen
    split <;> next hclose =>
      rw [hclose, List.filter_append, filter_prosePart]
      rfl

theorem script_congr {cs cs' before before' inside : List Char}
    (h : opening? cs = some (before, inside)) (h' : opening? cs' = some (before', inside)) :
    script cs = script cs' := by
  rw [script, script, filter_parts h, filter_parts h']
  cases closing? inside <;> rfl

theorem opening?_eq_none {cs : List Char} (h : '\x60' ∉ cs) : opening? cs = none := by
  cases hopen : opening? cs with
  | none => rfl
  | some found =>
    obtain ⟨before, after⟩ := found
    obtain ⟨mark, rfl⟩ := opening?_eq hopen
    simp [fence] at h

theorem script_eq_self {cs : List Char} (h : '\x60' ∉ cs) : script cs = cs :=
  script_eq_self_of_unfenced (opening?_eq_none h)

/-- A keyword ends before a character that is none of its own. -/
theorem afterKeyword?_append {keyword more : List Char}
    (h : ∀ c, more.head? = some c → Text.foldLetter c ∉ keyword) (cs : List Char) :
    Text.afterKeyword? keyword (cs ++ more) = (Text.afterKeyword? keyword cs).map (· ++ more) := by
  induction keyword generalizing cs with
  | nil => simp [Text.afterKeyword?]
  | cons k ks ih =>
    cases cs with
    | nil =>
      cases more with
      | nil => rfl
      | cons c more =>
        have hc : Text.foldLetter c ≠ k := fun heq => h c rfl (heq ▸ List.mem_cons_self)
        simp [Text.afterKeyword?, hc]
    | cons c cs =>
      simp only [List.cons_append, Text.afterKeyword?]
      split
      · exact ih (fun d hd hmem => h d hd (List.mem_cons_of_mem k hmem)) cs
      · rfl

/-! ## Semicolons -/

section Semicolon

variable (bs : List Char)

theorem after?_before_semicolon {opening : List Char} (h : ';' ∉ opening) (cs : List Char) :
    Text.after? opening (cs ++ ';' :: bs) = (Text.after? opening cs).map (· ++ ';' :: bs) := by
  induction opening generalizing cs with
  | nil => rfl
  | cons o os ih =>
    rw [List.mem_cons, not_or] at h
    cases cs with
    | nil => simp [Text.after?, Ne.symm h.1]
    | cons c cs =>
      simp only [List.cons_append, Text.after?]
      split
      · exact ih h.2 cs
      · rfl

theorem afterKeyword?_before_semicolon {keyword : List Char} (h : ';' ∉ keyword)
    (cs : List Char) :
    Text.afterKeyword? keyword (cs ++ ';' :: bs) =
      (Text.afterKeyword? keyword cs).map (· ++ ';' :: bs) := by
  refine afterKeyword?_append (fun c hc => ?_) cs
  obtain rfl : ';' = c := Option.some.inj hc
  exact h

theorem skipSpace_before_semicolon (cs : List Char) :
    skipSpace (cs ++ ';' :: bs) = skipSpace cs ++ ';' :: bs := by
  induction cs with
  | nil => rfl
  | cons c cs ih =>
    rw [skipSpace, skipSpace, List.cons_append, List.dropWhile_cons, List.dropWhile_cons]
    split
    · exact ih
    · rfl

theorem skipChar_before_semicolon {c : Char} (hc : c ≠ ';') (cs : List Char) :
    skipChar c (cs ++ ';' :: bs) = skipChar c cs ++ ';' :: bs := by
  cases cs with
  | nil => simp [skipChar, Ne.symm hc]
  | cons d cs =>
    simp only [List.cons_append, skipChar]
    split <;> rfl

theorem afterOpening?_before_semicolon (cs : List Char) :
    afterOpening? (cs ++ ';' :: bs) = (afterOpening? cs).map (· ++ ';' :: bs) := by
  have htag : ∀ cs : List Char,
      (Text.afterKeyword? ['s', 'q', 'l'] (cs ++ ';' :: bs)).getD (cs ++ ';' :: bs) =
        (Text.afterKeyword? ['s', 'q', 'l'] cs).getD cs ++ ';' :: bs := by
    intro cs
    rw [afterKeyword?_before_semicolon bs (by decide)]
    cases Text.afterKeyword? ['s', 'q', 'l'] cs <;> rfl
  simp only [afterOpening?, Option.bind_eq_bind]
  rw [after?_before_semicolon bs (by decide)]
  cases Text.after? fence cs with
  | none => rfl
  | some cs =>
    simp only [Option.map_some, Option.bind_some]
    rw [skipSpace_before_semicolon, htag, skipSpace_before_semicolon,
      skipChar_before_semicolon bs (by decide), after?_before_semicolon bs (by decide)]

/-- The first fence behind a semicolon, where none stands before it. -/
theorem opening?_semicolon {as : List Char} (h : opening? as = none) :
    opening? (as ++ ';' :: bs) =
      (opening? bs).map fun (before, inside) => (as ++ ';' :: before, inside) := by
  induction as with
  | nil =>
    have hmark : afterOpening? (';' :: bs) = none := rfl
    rw [List.nil_append, opening?, hmark]
    rfl
  | cons c as ih =>
    have hstep : afterOpening? (c :: as) = none ∧ opening? as = none := by
      rw [opening?] at h
      split at h
      · cases h
      · next hnone => exact ⟨hnone, Option.map_eq_none_iff.mp h⟩
    rw [List.cons_append, opening?, ← List.cons_append, afterOpening?_before_semicolon, hstep.1,
      ih hstep.2]
    exact Option.map_map ..

/-- Two texts with the end of a statement and of its line between them. Without any fence they are
one script, and fences of the second count as they do in it alone. -/
theorem script_joined {as : List Char} (h : opening? as = none) :
    script (as ++ ';' :: '\n' :: bs) =
      if opening? bs = none then as ++ ';' :: '\n' :: bs else script bs := by
  have hopen := opening?_semicolon ('\n' :: bs) h
  have hline : opening? ('\n' :: bs) =
      (opening? bs).map fun (before, inside) => ('\n' :: before, inside) := rfl
  rw [hline, Option.map_map] at hopen
  cases hfence : opening? bs with
  | none =>
    rw [hfence] at hopen
    rw [if_pos rfl, script_eq_self_of_unfenced hopen]
  | some found =>
    rw [hfence] at hopen
    rw [if_neg (Option.some_ne_none found), script_congr hopen hfence]

end Semicolon

end Schemata.Response
