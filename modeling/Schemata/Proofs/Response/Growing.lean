import Mathlib.Data.List.DropRight
import Mathlib.Tactic
import Schemata.Proofs.Response.Fences

/-!
# Answers that go on

While an answer is being written, only its end is open: a script that has its closing fence keeps
its place and its text whatever is written next, and so does the prose before it. An opening or a
closing fence that is not there yet cannot come to stand before one that is, since it would have to
run over the three backticks of that one.
-/
namespace Schemata.Response

/-! ## The first fence -/

theorem OpeningLine.count_mark {line : List Char} (h : OpeningLine line) :
    (fence ++ line).count '\x60' = 3 := by
  rw [List.count_append, List.count_eq_zero.mpr h.backtick_not_mem]
  rfl

theorem ClosingLine.count_mark {line : List Char} (h : ClosingLine line) :
    (line ++ fence).count '\x60' = 3 := by
  rw [List.count_append, List.count_eq_zero.mpr h.backtick_not_mem]
  rfl

section Append

variable {cs after : List Char} (more : List Char)

theorem afterOpening?_append (h : afterOpening? cs = some after) :
    afterOpening? (cs ++ more) = some (after ++ more) := by
  obtain ⟨line, hline, rfl⟩ := afterOpening?_eq_some_iff.mp h
  exact afterOpening?_eq_some_iff.mpr ⟨line, hline, by simp only [List.append_assoc]⟩

theorem afterOpening?_eq_none_of_append (h : afterOpening? (cs ++ more) = none) :
    afterOpening? cs = none := by
  by_contra hsome
  obtain ⟨after, hafter⟩ := Option.ne_none_iff_exists'.mp hsome
  rw [afterOpening?_append more hafter] at h
  cases h

theorem afterClosing?_append (h : afterClosing? cs = some after) :
    afterClosing? (cs ++ more) = some (after ++ more) := by
  obtain ⟨line, hline, rfl⟩ := afterClosing?_eq_some_iff.mp h
  exact afterClosing?_eq_some_iff.mpr ⟨line, hline, by simp only [List.append_assoc]⟩

/-- A text that no opening fence begins does not come to begin with one that reaches into a fence
behind it. -/
theorem afterOpening?_append_fence (hcs : cs ≠ []) (h : afterOpening? cs = none) :
    afterOpening? (cs ++ (fence ++ more)) = none := by
  by_contra hsome
  obtain ⟨after, hafter⟩ := Option.ne_none_iff_exists'.mp hsome
  obtain ⟨line, hline, heq⟩ := afterOpening?_eq_some_iff.mp hafter
  have hinside : ∀ rest, cs ≠ fence ++ line ++ rest := by
    rintro rest rfl
    rw [List.append_assoc, afterOpening?_eq_some_iff.mpr ⟨line, hline, rfl⟩] at h
    cases h
  rw [← List.append_assoc fence, List.append_eq_append_iff] at heq
  rcases heq with ⟨rest, hmark, hrest⟩ | ⟨rest, hsplit, -⟩
  · -- what reaches into the fence ends the line, so it holds all backticks of the fence
    obtain ⟨front, rfl, -⟩ := hline.exists_eq_append
    have hbreak : '\n' ∈ rest := by
      have hne : rest ≠ [] := by
        rintro rfl
        exact hinside [] (by rw [hmark, List.append_nil, List.append_nil])
      have hlast := congrArg List.getLast? hmark
      rw [← List.append_assoc, List.getLast?_concat, List.getLast?_append_of_ne_nil _ hne] at hlast
      exact List.mem_of_getLast? hlast.symm
    rcases List.append_eq_append_iff.mp hrest with ⟨rest', hrest', -⟩ | ⟨rest', hfence, -⟩
    · have hcount := hline.count_mark
      cases cs with
      | nil => exact hcs rfl
      | cons c cs =>
        obtain rfl : '\x60' = c := (List.cons.inj hmark).1
        have hthree : fence.count '\x60' = 3 := rfl
        rw [hmark, hrest', List.cons_append, List.count_cons_self, List.count_append,
          List.count_append, hthree] at hcount
        omega
    · have hmem : '\n' ∈ fence := by
        rw [hfence]
        exact List.mem_append_left _ hbreak
      exact absurd hmem (by decide)
  · exact hinside rest hsplit

/-- No closing fence comes to stand before a fence. -/
theorem afterClosing?_append_eq_none (h : afterClosing? cs = none)
    (hfence : 3 ≤ cs.count '\x60') : afterClosing? (cs ++ more) = none := by
  by_contra hsome
  obtain ⟨after, hafter⟩ := Option.ne_none_iff_exists'.mp hsome
  obtain ⟨line, hline, heq⟩ := afterClosing?_eq_some_iff.mp hafter
  rw [← List.append_assoc, List.append_eq_append_iff] at heq
  have hinside : ∀ rest, cs ≠ line ++ fence ++ rest := by
    rintro rest rfl
    rw [List.append_assoc, afterClosing?_eq_some_iff.mpr ⟨line, hline, rfl⟩] at h
    cases h
  rcases heq with ⟨rest, hmark, -⟩ | ⟨rest, hsplit, -⟩
  · -- the last backtick of the fence is one more than the three before it
    have hne : rest ≠ [] := by
      rintro rfl
      exact hinside [] (by rw [hmark, List.append_nil, List.append_nil])
    have hlast : rest.getLast? = some '\x60' := by
      rw [← List.getLast?_append_of_ne_nil cs hne, ← hmark]
      exact List.getLast?_append_of_ne_nil line (by simp [fence])
    have hpos := List.count_pos_iff.mpr (List.mem_of_getLast? hlast)
    have hcount := hline.count_mark
    rw [hmark, List.count_append] at hcount
    omega
  · exact hinside rest hsplit

/-- A text that holds a fence holds its backticks. -/
theorem three_le_count (before after : List Char) :
    3 ≤ (before ++ (fence ++ after)).count '\x60' := by
  have hfence : fence.count '\x60' = 3 := rfl
  rw [List.count_append, List.count_append, hfence]
  omega

theorem opening?_append {before inside : List Char} (h : opening? cs = some (before, inside)) :
    opening? (cs ++ more) = some (before, inside ++ more) := by
  rw [opening?_eq_firstRead?] at h ⊢
  refine firstRead?_append_right rfl (fun s t => afterOpening?_append more) ?_ h
  intro s rest hs hrest hnone
  obtain ⟨line, -, rfl⟩ := afterOpening?_eq_some_iff.mp hrest
  rw [List.append_assoc, List.append_assoc]
  exact afterOpening?_append_fence _ hs (afterOpening?_eq_none_of_append _ hnone)

theorem closing?_append {content : List Char} (h : closing? cs = some (content, after)) :
    closing? (cs ++ more) = some (content, after ++ more) := by
  rw [closing?_eq_firstRead?] at h ⊢
  refine firstRead?_append_right rfl (fun s t => afterClosing?_append more) ?_ h
  intro s rest _ hrest hnone
  obtain ⟨line, -, rfl⟩ := afterClosing?_eq_some_iff.mp hrest
  have hcount := three_le_count (s ++ line) after
  rw [List.append_assoc] at hcount
  exact afterClosing?_append_eq_none more hnone hcount

end Append

/-! ## Parts -/

/-- The parts of an answer up to its last script that has a closing fence. -/
def closedParts (ps : List Part) : List Part :=
  ps.rdropWhile fun p => !(p.isScript && p.isComplete)

theorem closedParts_prosePart (cs : List Char) : closedParts (prosePart cs) = [] := by
  rw [prosePart]
  split <;> rfl

theorem closedParts_open (cs inside : List Char) :
    closedParts (prosePart cs ++ [.script inside false]) = [] := by
  rw [closedParts, List.rdropWhile_concat_pos _ _ _ rfl]
  exact closedParts_prosePart cs

/-- What stands before a script with a closing fence stays. -/
theorem closedParts_append (before : List Part) (content : List Char) (ps : List Part) :
    closedParts (before ++ .script content true :: ps) =
      before ++ .script content true :: closedParts ps := by
  induction ps using List.reverseRecOn with
  | nil => exact List.rdropWhile_concat_neg _ _ _ (by simp [Part.isScript, Part.isComplete])
  | append_singleton ps p ih =>
    rw [closedParts] at ih ⊢
    rw [← List.cons_append, ← List.append_assoc, List.rdropWhile_concat, closedParts,
      List.rdropWhile_concat]
    split
    · exact ih
    · simp

theorem parts_of_closed {cs before inside content after : List Char}
    (hopen : opening? cs = some (before, inside))
    (hclose : closing? inside = some (content, after)) :
    parts cs = prosePart before ++ .script content true :: parts after := by
  rw [parts]
  split
  · next hnone =>
    rw [hopen] at hnone
    cases hnone
  · next hsome =>
    rw [hopen] at hsome
    cases hsome
    split
    · next hnone =>
      rw [hclose] at hnone
      cases hnone
    · next hsome =>
      rw [hclose] at hsome
      cases hsome
      rfl

/-- However an answer goes on, its parts up to the last closed script stay as they are. -/
theorem closedParts_prefix (cs more : List Char) :
    closedParts (parts cs) <+: parts (cs ++ more) := by
  fun_induction parts cs with
  | case1 cs hnone =>
    rw [closedParts_prosePart]
    exact List.nil_prefix
  | case2 cs before inside hopen hnone =>
    rw [closedParts_open]
    exact List.nil_prefix
  | case3 cs before inside hopen content after hclose ih =>
    rw [closedParts_append,
      parts_of_closed (opening?_append more hopen) (closing?_append more hclose)]
    exact (List.prefix_append_right_inj _).mpr (List.cons_prefix_cons.mpr ⟨rfl, ih⟩)

end Schemata.Response
