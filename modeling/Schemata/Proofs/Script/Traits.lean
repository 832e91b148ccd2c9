import Mathlib.Data.List.Basic
import Mathlib.Tactic
import Schemata.Proofs.Lexeme.Nesting
import Schemata.Script.Column

/-!
# Traits one by one

Reading the constraints of a column is a walk that meets one constraint after the other. The list of
what it meets depends on the lexemes only, and the traits are what this list adds up to.
-/
namespace Schemata.Script

open Phrase

/-- A constraint outside parentheses. -/
inductive Trait where
  | notNull
  | primaryKey
  | reference (outcome : Except ReferenceFault Target)
  | default (value : Option String)

/-- Counts one more constraint. -/
def ColumnTraits.add (traits : ColumnTraits) : Trait → ColumnTraits
  | .notNull => { traits with notNull := true }
  | .primaryKey => { traits with primaryKey := true }
  | .reference outcome => traits.addReference outcome
  | .default value => { traits with defaultValue := value }

/-- The constraints of a column from left to right, at a depth of parentheses. -/
def traitsFrom (source : List Char) (depth : Int) (us : List Lexeme) : List Trait :=
  match us with
  | [] => []
  | u :: rest =>
    if u.isOpening then traitsFrom source (depth + 1) rest
    else if u.isClosing then traitsFrom source (depth - 1) rest
    else if 0 < depth then traitsFrom source depth rest
    else if u.isWord ["NOT"] && nextIs "NULL" rest then
      .notNull :: traitsFrom source depth (rest.drop 1)
    else if u.isWord ["PRIMARY"] && nextIs "KEY" rest then
      .primaryKey :: traitsFrom source depth (rest.drop 1)
    else if u.isWord ["REFERENCES"] then
      .reference (reference rest).1 :: traitsFrom source depth (reference rest).2
    else if u.isWord ["DEFAULT"] then
      .default (default? source rest).1 :: traitsFrom source depth (default? source rest).2
    else traitsFrom source depth rest
termination_by us.length
decreasing_by
  all_goals simp only [List.length_cons, List.length_drop]
  all_goals first
    | omega
    | exact Nat.lt_succ_of_le (reference_suffix rest).length_le
    | exact Nat.lt_succ_of_le (default?_suffix source rest).length_le

/-! ## From one constraint to the next -/

/-- The constraint that begins with a lexeme outside parentheses, if one does, and the lexemes
behind it. -/
def traitAt (source : List Char) (u : Lexeme) (us : List Lexeme) : Option Trait × List Lexeme :=
  if u.isWord ["NOT"] && nextIs "NULL" us then (some .notNull, us.drop 1)
  else if u.isWord ["PRIMARY"] && nextIs "KEY" us then (some .primaryKey, us.drop 1)
  else if u.isWord ["REFERENCES"] then (some (.reference (reference us).1), (reference us).2)
  else if u.isWord ["DEFAULT"] then
    (some (.default (default? source us).1), (default? source us).2)
  else (none, us)

theorem traitAt_suffix (source : List Char) (u : Lexeme) (us : List Lexeme) :
    (traitAt source u us).2 <:+ us := by
  simp only [traitAt]
  split_ifs
  · exact List.drop_suffix 1 us
  · exact List.drop_suffix 1 us
  · exact reference_suffix us
  · exact default?_suffix source us
  · exact List.suffix_rfl

/-- A reference begins with its keyword. -/
theorem traitAt_eq_reference {source : List Char} {u : Lexeme} {us : List Lexeme}
    {outcome : Except ReferenceFault Target}
    (h : (traitAt source u us).1 = some (.reference outcome)) :
    u.isWord ["REFERENCES"] = true ∧ (reference us).1 = outcome := by
  simp only [traitAt] at h
  split_ifs at h with hnull hkey href hdefault
  · cases h
  · cases h
  · cases h
    exact ⟨href, rfl⟩
  · cases h

/-- So does a default value. -/
theorem traitAt_eq_default {source : List Char} {u : Lexeme} {us : List Lexeme}
    {value : Option String} (h : (traitAt source u us).1 = some (.default value)) :
    u.isWord ["DEFAULT"] = true := by
  simp only [traitAt] at h
  split_ifs at h with hnull hkey href hdefault
  · cases h
  · cases h
  · cases h
  · exact hdefault

section Walk

variable (source : List Char) {u : Lexeme} {depth : ℤ} {us : List Lexeme}

theorem traitsFrom_opening (ho : u.isOpening = true) :
    traitsFrom source depth (u :: us) = traitsFrom source (depth + 1) us := by
  rw [traitsFrom, if_pos ho]

theorem traitsFrom_closing (ho : ¬u.isOpening = true) (hc : u.isClosing = true) :
    traitsFrom source depth (u :: us) = traitsFrom source (depth - 1) us := by
  rw [traitsFrom, if_neg ho, if_pos hc]

theorem traitsFrom_inside (ho : ¬u.isOpening = true) (hc : ¬u.isClosing = true) (hd : 0 < depth) :
    traitsFrom source depth (u :: us) = traitsFrom source depth us := by
  rw [traitsFrom, if_neg ho, if_neg hc, if_pos hd]

theorem traitsFrom_outside (ho : ¬u.isOpening = true) (hc : ¬u.isClosing = true)
    (hd : ¬0 < depth) :
    traitsFrom source depth (u :: us) =
      (traitAt source u us).1.toList ++ traitsFrom source depth (traitAt source u us).2 := by
  rw [traitsFrom, if_neg ho, if_neg hc, if_neg hd, traitAt]
  split_ifs <;> rfl

/-- Induction along the walk: over the parentheses and what they enclose, and outside of them from
one constraint to the next. -/
theorem traitsFrom_induction {motive : ℤ → List Lexeme → Prop} (nil : ∀ depth, motive depth [])
    (opening : ∀ depth u us, u.isOpening = true → motive (depth + 1) us → motive depth (u :: us))
    (closing : ∀ depth u us, ¬u.isOpening = true → u.isClosing = true →
      motive (depth - 1) us → motive depth (u :: us))
    (inside : ∀ depth u us, ¬u.isOpening = true → ¬u.isClosing = true → 0 < depth →
      motive depth us → motive depth (u :: us))
    (outside : ∀ depth u us, ¬u.isOpening = true → ¬u.isClosing = true → ¬0 < depth →
      motive depth (traitAt source u us).2 → motive depth (u :: us))
    (depth : ℤ) (us : List Lexeme) : motive depth us := by
  induction hn : us.length using Nat.strong_induction_on generalizing us depth with
  | _ n ih =>
    cases us with
    | nil => exact nil depth
    | cons u us =>
      have hlater : ∀ {vs : List Lexeme}, vs <:+ us → ∀ depth, motive depth vs := by
        intro vs hsuffix depth
        have hle := hsuffix.length_le
        exact ih vs.length (by rw [← hn, List.length_cons]; omega) depth vs rfl
      by_cases ho : u.isOpening = true
      · exact opening depth u us ho (hlater List.suffix_rfl (depth + 1))
      by_cases hc : u.isClosing = true
      · exact closing depth u us ho hc (hlater List.suffix_rfl (depth - 1))
      by_cases hd : 0 < depth
      · exact inside depth u us ho hc hd (hlater List.suffix_rfl depth)
      · exact outside depth u us ho hc hd (hlater (traitAt_suffix source u us) depth)

end Walk

/-! ## What the constraints add up to -/

/-- The traits of a column are the sum of its constraints. -/
theorem columnTraits_eq_foldl (source : List Char) (depth : ℤ) (traits : ColumnTraits)
    (us : List Lexeme) :
    columnTraits source depth traits us =
      (traitsFrom source depth us).foldl ColumnTraits.add traits := by
  induction depth, us using traitsFrom_induction source generalizing traits with
  | nil depth =>
    rw [columnTraits, traitsFrom]
    rfl
  | opening depth u us ho ih => rw [columnTraits, if_pos ho, traitsFrom_opening source ho, ih]
  | closing depth u us ho hc ih =>
    rw [columnTraits, if_neg ho, if_pos hc, traitsFrom_closing source ho hc, ih]
  | inside depth u us ho hc hd ih =>
    rw [columnTraits, if_neg ho, if_neg hc, if_pos hd, traitsFrom_inside source ho hc hd, ih]
  | outside depth u us ho hc hd ih =>
    rw [columnTraits, if_neg ho, if_neg hc, if_neg hd, traitsFrom_outside source ho hc hd,
      List.foldl_append, ← ih, traitAt]
    split_ifs <;> rfl

/-! ## Where no constraint starts -/

/-- The keywords that constraints start with. -/
def startsTrait (u : Lexeme) : Bool := u.isWord ["NOT", "PRIMARY", "REFERENCES", "DEFAULT"]

theorem isWord_of_subset {u : Lexeme} {keywords keywords' : List String}
    (h : u.isWord keywords = true) (hsub : keywords ⊆ keywords') : u.isWord keywords' = true := by
  simp only [Lexeme.isWord, Bool.and_eq_true, decide_eq_true_eq] at h ⊢
  exact ⟨h.1, hsub h.2⟩

theorem isWord_of_not_startsTrait {u : Lexeme} (h : startsTrait u = false) :
    ∀ word ∈ ["NOT", "PRIMARY", "REFERENCES", "DEFAULT"], u.isWord [word] = false := by
  intro word hword
  by_contra hu
  rw [startsTrait, isWord_of_subset ((Bool.not_eq_false _).mp hu) (by simpa using hword)] at h
  cases h

/-- A lexeme that is neither such a keyword nor a parenthesis is passed over at any depth. -/
theorem traitsFrom_plain (source : List Char) {u : Lexeme} (ho : ¬u.isOpening = true)
    (hc : ¬u.isClosing = true) (h : startsTrait u = false) (depth : ℤ) (us : List Lexeme) :
    traitsFrom source depth (u :: us) = traitsFrom source depth us := by
  have hword := isWord_of_not_startsTrait h
  rw [traitsFrom, if_neg ho, if_neg hc]
  simp only [hword "NOT" (by simp), hword "PRIMARY" (by simp), hword "REFERENCES" (by simp),
    hword "DEFAULT" (by simp), Bool.false_and, Bool.false_eq_true, if_false, ite_self]

/-- Lexemes with no such keyword outside parentheses are passed over. -/
theorem traitsFrom_append (source : List Char) {us : List Lexeme} {depth depth' : ℕ}
    (h : Lexeme.depthAfter? startsTrait depth us = some depth') (rest : List Lexeme) :
    traitsFrom source depth (us ++ rest) = traitsFrom source depth' rest := by
  induction us generalizing depth with
  | nil =>
    obtain rfl := Option.some.inj h
    rfl
  | cons u us ih =>
    simp only [Lexeme.depthAfter?] at h
    rw [List.cons_append]
    split_ifs at h with ho hc hz hcut
    · rw [traitsFrom_opening source ho]
      exact_mod_cast ih h
    · have hcast : (depth : ℤ) - 1 = ((depth - 1 : ℕ) : ℤ) := by omega
      rw [traitsFrom_closing source ho hc, hcast, ih h]
    · by_cases hd : 0 < (depth : ℤ)
      · rw [traitsFrom_inside source ho hc hd, ih h]
      · have hplain : startsTrait u = false := by
          by_contra hstart
          exact hcut (by rw [(Bool.not_eq_false _).mp hstart]; simp; omega)
        rw [traitsFrom_plain source ho hc hplain, ih h]

end Schemata.Script
