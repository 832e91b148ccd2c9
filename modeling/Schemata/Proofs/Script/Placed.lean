import Mathlib.Data.List.Basic
import Mathlib.Tactic
import Schemata.Proofs.Script.Restated
import Schemata.Script.Statement

/-!
# Places in a longer text

A text that is part of a longer one shows the same between its lexemes there: as it is, if it comes
first, and with all places moved, if other text stands before it.
-/
namespace Schemata

/-- The lexeme further on in a text. -/
def Lexeme.moved (k : ℕ) (u : Lexeme) : Lexeme :=
  { u with start := u.start + k, stop := u.stop + k }

theorem Lexeme.content_moved (k : ℕ) (u : Lexeme) : (u.moved k).content = u.content := rfl

/-- Lexemes that stand inside a text. -/
def Lexeme.Placed (text : List Char) (us : List Lexeme) : Prop :=
  ∀ u ∈ us, u.start ≤ u.stop ∧ u.stop < text.length

instance (text : List Char) (us : List Lexeme) : Decidable (Lexeme.Placed text us) :=
  inferInstanceAs (Decidable (∀ u ∈ us, u.start ≤ u.stop ∧ u.stop < text.length))

namespace Script

open Lexeme

/-! ## Text between lexemes -/

theorem slice_append (as bs : List Char) {start count : ℕ} (h : start + count ≤ as.length) :
    ((as ++ bs).drop start).take count = (as.drop start).take count := by
  have hstart : start ≤ as.length := by omega
  have hcount : count ≤ (as.drop start).length := by
    rw [List.length_drop]
    omega
  rw [List.drop_append_of_le_length hstart, List.take_append_of_le_length hcount]

theorem slice_behind (as bs : List Char) (start stop : ℕ) :
    ((as ++ bs).drop (start + as.length)).take (stop + as.length + 1 - (start + as.length)) =
      (bs.drop start).take (stop + 1 - start) := by
  have hcount : stop + as.length + 1 - (start + as.length) = stop + 1 - start := by omega
  have hnone : as.drop (start + as.length) = [] := List.drop_eq_nil_of_le (by omega)
  rw [hcount, List.drop_append, hnone, List.nil_append, Nat.add_sub_cancel]

variable {us : List Lexeme}

/-- Lexemes are restated if more text follows. -/
theorem restated_before {as : List Char} (h : Placed as us) (bs : List Char) :
    Restated id as (as ++ bs) us us := by
  refine ⟨fun u v => u = v ∧ u ∈ us, ⟨?_, ?_⟩, ?_⟩
  · rintro u v ⟨rfl, -⟩
    exact alike_of_content rfl
  · rintro u v u' v' ⟨rfl, hu⟩ ⟨rfl, hu'⟩
    have hfirst := h u hu
    have hlast := h u' hu'
    have hinside : u.start + (u'.stop + 1 - u.start) ≤ as.length := by omega
    have hslice := slice_append as bs hinside
    exact congrArg (fun cs => some (String.ofList cs)) hslice.symm
  · exact List.forall₂_same.mpr fun u hu => ⟨rfl, hu⟩

/-- Lexemes are restated at the end of a longer text. -/
theorem restated_behind (as bs : List Char) (us : List Lexeme) :
    Restated id bs (as ++ bs) us (us.map (moved as.length)) := by
  refine ⟨fun u v => v = u.moved as.length, ⟨?_, ?_⟩, ?_⟩
  · rintro u v rfl
    exact alike_of_content (content_moved as.length u).symm
  · rintro u v u' v' rfl rfl
    have hslice := slice_behind as bs u.start u'.stop
    exact congrArg (fun cs => some (String.ofList cs)) hslice.symm
  · rw [List.forall₂_map_right_iff]
    exact List.forall₂_same.mpr fun _ _ => rfl

/-! ## Strings that hold a `CREATE TABLE` -/

theorem hidesCreateTable_congr {source source' : List Char} {us vs : List Lexeme}
    (h : List.Forall₂
      (fun u v => hidesCreateTable source [u] = hidesCreateTable source' [v]) us vs) :
    hidesCreateTable source us = hidesCreateTable source' vs := by
  induction h with
  | nil => rfl
  | cons hu _ ih =>
    simp only [hidesCreateTable, List.any_cons, List.any_nil, Bool.or_false] at hu ih ⊢
    rw [hu, ih]

theorem hidesCreateTable_before {as : List Char} (h : Placed as us) (bs : List Char) :
    hidesCreateTable (as ++ bs) us = hidesCreateTable as us := by
  refine hidesCreateTable_congr (List.forall₂_same.mpr fun u hu => ?_)
  have hplace := h u hu
  have hinside : u.start + (u.stop + 1 - u.start) ≤ as.length := by omega
  have hslice := slice_append as bs hinside
  have hbefore : (as ++ bs)[u.start - 1]? = as[u.start - 1]? :=
    List.getElem?_append_left (by omega)
  simp only [hidesCreateTable, List.any_cons, List.any_nil, hslice, hbefore]

/-- What stands before a text does not matter unless it is part of a word. -/
theorem createTableAt_of_edge {before : Option Char}
    (h : (before.map Text.isWordChar).getD false = false) (cs : List Char) :
    createTableAt before cs = createTableAt none cs := by
  rw [createTableAt, createTableAt, h]
  rfl

theorem holdsCreateTable_of_edge {before : Option Char}
    (h : (before.map Text.isWordChar).getD false = false) (cs : List Char) :
    holdsCreateTable before cs = holdsCreateTable none cs := by
  cases cs with
  | nil => rfl
  | cons c cs => rw [holdsCreateTable, holdsCreateTable, createTableAt_of_edge h]

/-- Lexemes hide the same behind another text that does not end in a part of a word. -/
theorem hidesCreateTable_behind {as : List Char}
    (h : (as.getLast?.map Text.isWordChar).getD false = false) (bs : List Char) (us : List Lexeme) :
    hidesCreateTable (as ++ bs) (us.map (moved as.length)) = hidesCreateTable bs us := by
  refine hidesCreateTable_congr ?_
  rw [List.forall₂_map_left_iff]
  refine List.forall₂_same.mpr fun u _ => ?_
  have hslice := slice_behind as bs u.start u.stop
  simp only [hidesCreateTable, List.any_cons, List.any_nil, moved, hslice]
  congr 2
  cases hstart : u.start with
  | zero =>
    cases has : as.getLast? with
    | none =>
      rw [List.getLast?_eq_none_iff] at has
      subst has
      rfl
    | some c =>
      have hpos : 0 + as.length ≠ 0 := by
        rintro hlength
        rw [List.length_eq_zero_iff.mp ((Nat.zero_add _).symm.trans hlength)] at has
        cases has
      have hbefore : (as ++ bs)[0 + as.length - 1]? = some c := by
        rw [Nat.zero_add, List.getElem?_append_left (by omega), ← List.getLast?_eq_getElem?, has]
      rw [if_neg hpos, if_pos rfl, hbefore, ← has]
      exact holdsCreateTable_of_edge h _
  | succ n =>
    have hbefore : (as ++ bs)[n + 1 + as.length - 1]? = bs[n]? := by
      rw [show n + 1 + as.length - 1 = as.length + n by omega,
        List.getElem?_append_right (Nat.le_add_right ..), Nat.add_sub_cancel_left]
    rw [if_neg (by omega), if_neg (by omega), hbefore]
    rfl

end Script

end Schemata
