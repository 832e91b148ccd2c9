import Mathlib.Data.List.Basic
import Mathlib.Tactic
import Schemata.Proofs.Lexeme.Groups
import Schemata.Script.Phrase

/-!
# Reading by index

A statement can also be read by an index that moves over its lexemes. Such a reader can go wrong
where one that takes lexemes off the front cannot: an index may lie behind the end, and a loop may
never be over. Here both are faults, so that a reader without a fault looks up lexemes that are
there and comes to an end.
-/
namespace Schemata.Indexed

/-- What stops a reader. -/
inductive Fault where
  | outOfRange (index : ℕ)
  /-- A loop that is not over after the turns that it has. -/
  | endless
  /-- A parenthesis that is never closed. -/
  | unclosed (index : ℕ)
deriving DecidableEq

abbrev Checked (α : Type) : Type := Except Fault α

@[simp] theorem ok_bind {α β : Type} (a : α) (f : α → Checked β) : (Except.ok a >>= f) = f a := rfl

@[simp] theorem pure_eq_ok {α : Type} (a : α) : (pure a : Checked α) = .ok a := rfl

/-- Steps without a fault make up a run without a fault. -/
theorem foldlM_eq_foldl {α β : Type} {f : β → α → Checked β} {g : β → α → β} (xs : List α)
    (h : ∀ b, ∀ x ∈ xs, f b x = .ok (g b x)) (b : β) : xs.foldlM f b = .ok (xs.foldl g b) := by
  induction xs generalizing b with
  | nil => rfl
  | cons x xs ih =>
    rw [List.foldlM_cons, h b x List.mem_cons_self, ok_bind, List.foldl_cons]
    exact ih (fun b y hy => h b y (List.mem_cons_of_mem x hy)) (g b x)

theorem mapM_eq_map {α β : Type} {f : α → Checked β} {g : α → β} (xs : List α)
    (h : ∀ x ∈ xs, f x = .ok (g x)) : xs.mapM f = .ok (xs.map g) := by
  induction xs with
  | nil => rfl
  | cons x xs ih =>
    rw [List.mapM_cons, h x List.mem_cons_self, ih fun y hy => h y (List.mem_cons_of_mem x hy)]
    rfl

/-! ## Looking up -/

/-- The item at an index. -/
def item {α : Type} (xs : List α) (i : ℕ) : Checked α :=
  match xs[i]? with
  | some x => .ok x
  | none => .error (.outOfRange i)

/-- Whether there is a lexeme at an index and it passes a test. -/
def holds (us : List Lexeme) (i : ℕ) (test : Lexeme → Bool) : Checked Bool := do
  if i < us.length then return test (← item us i) else return false

/-- Whether two given keywords stand at an index. -/
def pairIs (us : List Lexeme) (i : ℕ) (first second : String) : Checked Bool := do
  if i + 1 < us.length then
    if (← item us i).isWord [first] then return (← item us (i + 1)).isWord [second]
    else return false
  else return false

section Lookup

variable {us rest : List Lexeme} {u : Lexeme} {i : ℕ}

theorem lt_length_of_drop (h : us.drop i = u :: rest) : i < us.length := by
  by_contra hle
  rw [List.drop_eq_nil_of_le (Nat.le_of_not_lt hle)] at h
  cases h

theorem drop_succ_of_drop (h : us.drop i = u :: rest) : us.drop (i + 1) = rest := by
  rw [← List.drop_drop, h]
  rfl

theorem item_of_drop (h : us.drop i = u :: rest) : item us i = .ok u := by
  have hi : us[i]? = some u := by rw [← List.head?_drop, h]; rfl
  rw [item, hi]

theorem holds_of_drop (h : us.drop i = u :: rest) (test : Lexeme → Bool) :
    holds us i test = .ok (test u) := by
  rw [holds, if_pos (lt_length_of_drop h), item_of_drop h]
  rfl

theorem holds_of_drop_nil (h : us.drop i = []) (test : Lexeme → Bool) :
    holds us i test = .ok false := by
  rw [holds, if_neg (Nat.not_lt.mpr (List.drop_eq_nil_iff.mp h))]
  rfl

theorem holds_eq (us : List Lexeme) (i : ℕ) (test : Lexeme → Bool) :
    holds us i test = .ok (((us.drop i).head?.map test).getD false) := by
  cases h : us.drop i with
  | nil => exact holds_of_drop_nil h _
  | cons u rest => exact holds_of_drop h _

theorem holds_isWord (us : List Lexeme) (i : ℕ) (keyword : String) :
    holds us i (·.isWord [keyword]) = .ok (Phrase.nextIs keyword (us.drop i)) := by
  rw [holds_eq]
  cases us.drop i <;> rfl

theorem pairIs_eq (us : List Lexeme) (i : ℕ) (first second : String) :
    pairIs us i first second = .ok (Phrase.pairIs first second (us.drop i)) := by
  cases h : us.drop i with
  | nil =>
    have hle := List.drop_eq_nil_iff.mp h
    rw [pairIs, if_neg (by omega)]
    rfl
  | cons u rest =>
    cases hrest : rest with
    | nil =>
      have hle := List.drop_eq_nil_iff.mp ((drop_succ_of_drop h).trans hrest)
      rw [pairIs, if_neg (by omega), Phrase.pairIs, Phrase.nextIs, Bool.and_false]
      rfl
    | cons v rest' =>
      have hnext := (drop_succ_of_drop h).trans hrest
      rw [pairIs, if_pos (lt_length_of_drop hnext), item_of_drop h, item_of_drop hnext]
      simp only [ok_bind, pure_eq_ok, Phrase.pairIs, Phrase.nextIs]
      split
      · next hu => rw [hu, Bool.true_and]
      · next hu => rw [Bool.eq_false_iff.mpr hu, Bool.false_and]

end Lookup

/-! ## Loops -/

/-- A loop with a number of turns to spend. Every turn leads to the next state or ends the loop; a
loop that needs more turns is at fault. -/
def loop {σ : Type} (turn : σ → Checked (Option σ)) : ℕ → σ → Checked σ
  | turns, s => do
    match ← turn s with
    | none => return s
    | some next =>
      match turns with
      | 0 => .error .endless
      | turns + 1 => loop turn turns next

/-- A loop whose turns make something smaller is over in time. If every turn leaves what is sought
the same, then that has been found in the end. -/
theorem exists_loop_eq {σ ρ : Type} (turn : σ → Checked (Option σ)) (size : σ → ℕ)
    (sought found : σ → ρ)
    (hturn : ∀ s, turn s = .ok none ∧ sought s = found s ∨
      ∃ next, turn s = .ok (some next) ∧ size next < size s ∧ sought s = sought next)
    {turns : ℕ} {s : σ} (hsize : size s ≤ turns) :
    ∃ t, loop turn turns s = .ok t ∧ found t = sought s := by
  induction turns generalizing s with
  | zero =>
    obtain ⟨hover, hfound⟩ | ⟨next, -, hless, -⟩ := hturn s
    · exact ⟨s, by rw [loop, hover]; rfl, hfound.symm⟩
    · omega
  | succ turns ih =>
    obtain ⟨hover, hfound⟩ | ⟨next, hgo, hless, hsame⟩ := hturn s
    · exact ⟨s, by rw [loop, hover]; rfl, hfound.symm⟩
    · obtain ⟨t, ht, hfound⟩ := ih (s := next) (by omega)
      refine ⟨t, ?_, hfound.trans hsame.symm⟩
      rw [loop, hgo]
      exact ht

/-! ## Closing parentheses -/

/-- The first of some indices at which as many parentheses have closed as opened. -/
def closingAmong (us : List Lexeme) (depth : ℤ) : List ℕ → Checked (Option ℕ)
  | [] => return none
  | i :: is => do
    let u ← item us i
    if u.isOpening then closingAmong us (depth + 1) is
    else if u.isClosing then
      if depth - 1 = 0 then return some i else closingAmong us (depth - 1) is
    else closingAmong us depth is

/-- The index of the parenthesis that closes the one at an index. -/
def closing (us : List Lexeme) (i : ℕ) : Checked (Option ℕ) :=
  closingAmong us 0 (List.range' i (us.length - i))

theorem closingAmong_range' (us : List Lexeme) (depth i : ℕ) :
    closingAmong us (depth + 1) (List.range' i (us.length - i)) =
      .ok ((Lexeme.closingFrom? depth (us.drop i)).map fun found => i + found.1.length) := by
  generalize hrest : us.drop i = rest
  induction rest generalizing i depth with
  | nil =>
    rw [Nat.sub_eq_zero_of_le (List.drop_eq_nil_iff.mp hrest)]
    rfl
  | cons u rest ih =>
    have hlt := lt_length_of_drop hrest
    have hnext := drop_succ_of_drop hrest
    rw [show us.length - i = us.length - (i + 1) + 1 by omega, List.range'_succ, closingAmong,
      item_of_drop hrest, ok_bind, Lexeme.closingFrom?]
    -- the search by index is one deeper, as it starts at the parenthesis itself
    have hlater : ∀ depth' : ℕ,
        closingAmong us (depth' + 1) (List.range' (i + 1) (us.length - (i + 1))) =
          .ok (((Lexeme.closingFrom? depth' rest).map fun found =>
            (u :: found.1, found.2)).map fun found => i + found.1.length) := by
      intro depth'
      rw [ih depth' (i + 1) hnext, Option.map_map]
      refine congrArg _ (congrArg (Option.map · _) (funext fun found => ?_))
      simp only [Function.comp_apply, List.length_cons]
      omega
    cases ho : u.isOpening with
    | true =>
      simp only [Lexeme.isClosing_of_isOpening ho, if_true, Bool.false_and, Bool.false_eq_true,
        if_false]
      exact_mod_cast hlater (depth + 1)
    | false =>
      cases hc : u.isClosing with
      | false =>
        simp only [Bool.false_and, Bool.false_eq_true, if_false]
        exact hlater depth
      | true =>
        obtain _ | depth := depth
        · simp
        · simp only [Bool.false_eq_true, if_false, if_true, Bool.true_and, decide_eq_true_eq,
            Nat.succ_ne_zero, Nat.add_sub_cancel, Nat.cast_add, Nat.cast_one, add_sub_cancel_right]
          rw [if_neg (by omega)]
          exact hlater depth

/-- The search from the parenthesis itself finds the place that the search behind it finds. -/
theorem closing_eq {us rest : List Lexeme} {u : Lexeme} {i : ℕ} (h : us.drop i = u :: rest)
    (hu : u.isOpening = true) : closing us i = .ok (Lexeme.closingPlace? us i) := by
  have hlt := lt_length_of_drop h
  rw [closing, show us.length - i = us.length - (i + 1) + 1 by omega, List.range'_succ,
    closingAmong, item_of_drop h, ok_bind, if_pos hu]
  exact_mod_cast closingAmong_range' us 0 (i + 1)

end Schemata.Indexed
