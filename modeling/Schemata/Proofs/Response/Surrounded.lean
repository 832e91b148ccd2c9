import Mathlib.Data.List.Infix
import Mathlib.Tactic
import Schemata.Proofs.Response.Foreign
import Schemata.Proofs.Text.Trim

/-!
# Answers with blanks around them

Blanks before an answer belong to its prose. Blanks behind it go on with the script that it ends in,
if that has no closing fence. A line break among them may end the line of an opening fence, but the
script behind that is blank. So the script of an answer is the same but for blanks around it, unless
it is the first fence of all that comes to open a script.
-/
namespace Schemata.Response

open Text

variable {cs before after : List Char}

/-! ## Fences and blanks -/

theorem opening?_blanks_append (hbefore : ∀ c ∈ before, isBlank c = true) (cs : List Char) :
    opening? (before ++ cs) = (opening? cs).map fun (b, a) => (before ++ b, a) := by
  rw [opening?_eq_firstRead?, opening?_eq_firstRead?]
  refine firstRead?_append fun s hs hne => ?_
  obtain ⟨c, s, rfl⟩ := List.exists_cons_of_ne_nil hne
  by_contra hsome
  obtain ⟨rest, hrest⟩ := Option.ne_none_iff_exists'.mp hsome
  obtain ⟨line, -, heq⟩ := afterOpening?_eq_some_iff.mp hrest
  obtain rfl : c = '\x60' := (List.cons.inj heq).1
  exact not_mem_of_blanks (by decide) hbefore (hs.subset List.mem_cons_self)

/-- What an opening fence opens that blanks behind a text complete is blank. -/
theorem suffix_of_opening?_append {inside : List Char} (h : opening? cs = none)
    (hopen : opening? (cs ++ after) = some (before, inside)) : inside <:+ after := by
  obtain ⟨line, hline, heq, -⟩ := opening?_eq_some hopen
  rw [← List.append_assoc fence, ← List.append_assoc before] at heq
  rcases List.append_eq_append_iff.mp heq with ⟨rest, hcs, hafter⟩ | ⟨rest, hcs, hinside⟩
  · exact ⟨rest, hafter.symm⟩
  · rw [opening?_eq_firstRead?, firstRead?_eq_none_iff rfl] at h
    have hnone := h (fence ++ (line ++ rest)) ⟨before, by rw [hcs]; simp only [List.append_assoc]⟩
    rw [afterOpening?_eq_some_iff.mpr ⟨line, hline, rfl⟩] at hnone
    cases hnone

theorem closing?_append_blanks (hafter : ∀ c ∈ after, isBlank c = true) (h : closing? cs = none) :
    closing? (cs ++ after) = none := by
  rw [closing?_eq_none_iff] at h ⊢
  cases after with
  | nil => rwa [List.append_nil]
  | cons c after =>
    have hmark : '\x60' ∉ c :: after := not_mem_of_blanks (by decide) hafter
    rw [List.mem_cons, not_or] at hmark
    refine h.append_cons (Ne.symm hmark.1) fun hfence => hmark.2 (hfence.subset ?_)
    exact List.mem_cons_self

/-! ## Scripts -/

/-- The texts of the scripts of an answer. -/
def blocks (cs : List Char) : List (List Char) := ((parts cs).filter Part.isScript).map Part.content

theorem blocks_of_unopened (h : opening? cs = none) : blocks cs = [] := by
  rw [blocks, parts_of_unopened h, filter_prosePart]
  rfl

theorem blocks_of_open {before inside : List Char} (h : opening? cs = some (before, inside))
    (hclose : closing? inside = none) : blocks cs = [inside] := by
  rw [blocks, filter_parts h, hclose]
  rfl

theorem blocks_of_closed {before inside content after : List Char}
    (h : opening? cs = some (before, inside)) (hclose : closing? inside = some (content, after)) :
    blocks cs = content :: blocks after := by
  rw [blocks, filter_parts h, hclose]
  rfl

theorem blocks_eq_nil_iff : blocks cs = [] ↔ opening? cs = none := by
  refine ⟨fun h => ?_, blocks_of_unopened⟩
  by_contra hsome
  obtain ⟨⟨b, inside⟩, hopen⟩ := Option.ne_none_iff_exists'.mp hsome
  cases hclose : closing? inside with
  | none =>
    rw [blocks_of_open hopen hclose] at h
    cases h
  | some found =>
    rw [blocks_of_closed hopen hclose] at h
    cases h

/-- Blanks behind an answer go on with its last script or make up one more. -/
inductive Extended (after : List Char) : List (List Char) → List (List Char) → Prop
  | same (bs : List (List Char)) : Extended after bs bs
  | last (init : List (List Char)) (b : List Char) :
    Extended after (init ++ [b]) (init ++ [b ++ after])
  | more (bs : List (List Char)) {b : List Char} (hb : b <:+ after) :
    Extended after bs (bs ++ [b])

theorem Extended.cons {bs bs' : List (List Char)} (h : Extended after bs bs') (b : List Char) :
    Extended after (b :: bs) (b :: bs') := by
  cases h with
  | same => exact .same _
  | last init last => exact .last (b :: init) last
  | more _ hb => exact .more (b :: bs) hb

theorem Extended.ne_nil {bs bs' : List (List Char)} (h : Extended after bs bs') (hne : bs ≠ []) :
    bs' ≠ [] := by
  cases h with
  | same => exact hne
  | last => simp
  | more => simp

theorem Extended.of_nil {bs bs' : List (List Char)} (h : Extended after bs bs') (hnil : bs = []) :
    bs' = [] ∨ ∃ b, b <:+ after ∧ bs' = [b] := by
  cases h with
  | same => exact .inl hnil
  | last init b => simp at hnil
  | more _ hb => exact .inr ⟨_, hb, by rw [hnil, List.nil_append]⟩

theorem extended_blocks (hafter : ∀ c ∈ after, isBlank c = true) (cs : List Char) :
    Extended after (blocks cs) (blocks (cs ++ after)) := by
  fun_induction parts cs with
  | case1 cs hnone =>
    rw [blocks_of_unopened hnone]
    cases hopen : opening? (cs ++ after) with
    | none =>
      rw [blocks_of_unopened hopen]
      exact .same []
    | some found =>
      obtain ⟨b, inside⟩ := found
      have hinside := suffix_of_opening?_append hnone hopen
      have hclose : closing? inside = none := closing?_eq_none_iff.mpr fun hfence =>
        not_mem_of_blanks (by decide) hafter (hinside.subset (hfence.subset List.mem_cons_self))
      rw [blocks_of_open hopen hclose]
      exact .more [] hinside
  | case2 cs b inside hopen hnone =>
    rw [blocks_of_open hopen hnone,
      blocks_of_open (opening?_append after hopen) (closing?_append_blanks hafter hnone)]
    exact .last [] inside
  | case3 cs b inside hopen content rest hclose ih =>
    rw [blocks_of_closed hopen hclose,
      blocks_of_closed (opening?_append after hopen) (closing?_append after hclose)]
    exact ih.cons content

theorem script_eq_intercalate (h : opening? cs ≠ none) :
    script cs = ['\n', '\n'].intercalate (blocks cs) := by
  have hne : (parts cs).filter Part.isScript ≠ [] := fun hnil =>
    h (blocks_eq_nil_iff.mp (by rw [blocks, hnil]; rfl))
  exact script_of_filter_parts rfl hne

theorem Extended.trim_intercalate {bs bs' : List (List Char)} (h : Extended after bs bs')
    (hafter : ∀ c ∈ after, isBlank c = true) (hne : bs ≠ []) :
    trim (['\n', '\n'].intercalate bs') = trim (['\n', '\n'].intercalate bs) := by
  cases h with
  | same => rfl
  | last init b =>
    by_cases hinit : init = []
    · subst hinit
      simpa using trim_append_blanks hafter b
    · rw [intercalate_concat _ hinit, intercalate_concat _ hinit, ← List.append_assoc,
        ← List.append_assoc, trim_append_blanks hafter, List.append_assoc]
  | @more _ b hb =>
    have hblank : ∀ c ∈ ['\n', '\n'] ++ b, isBlank c = true := by
      intro c hc
      rcases List.mem_append.mp hc with hc | hc
      · exact isBlankText_iff.mp (by decide : isBlankText ['\n', '\n'] = true) c hc
      · exact hafter c (hb.subset hc)
    rw [intercalate_concat _ hne, trim_append_blanks hblank]

theorem blocks_blanks_append (hbefore : ∀ c ∈ before, isBlank c = true) (cs : List Char) :
    blocks (before ++ cs) = blocks cs := by
  have hopen : (opening? (before ++ cs)).map Prod.snd = (opening? cs).map Prod.snd := by
    rw [opening?_blanks_append hbefore, Option.map_map]
    rfl
  rw [blocks, blocks, filter_parts_congr hopen]

/-- The script of an answer that opens one is the same with blanks around the answer, but for blanks
around the script. -/
theorem trim_script_around (hbefore : ∀ c ∈ before, isBlank c = true)
    (hafter : ∀ c ∈ after, isBlank c = true) (h : opening? cs ≠ none) :
    trim (script (before ++ cs ++ after)) = trim (script cs) := by
  have hblocks := extended_blocks hafter (before ++ cs)
  rw [blocks_blanks_append hbefore] at hblocks
  have hne : blocks cs ≠ [] := fun hnil => h (blocks_eq_nil_iff.mp hnil)
  have hopen : opening? (before ++ cs ++ after) ≠ none := fun hnone =>
    hblocks.ne_nil hne (blocks_of_unopened hnone)
  rw [script_eq_intercalate h, script_eq_intercalate hopen]
  exact hblocks.trim_intercalate hafter hne

/-- A script that only blanks behind an answer open is blank. -/
theorem trim_script_opened (hbefore : ∀ c ∈ before, isBlank c = true)
    (hafter : ∀ c ∈ after, isBlank c = true) (h : opening? cs = none)
    (hopen : opening? (before ++ cs ++ after) ≠ none) :
    trim (script (before ++ cs ++ after)) = [] := by
  have hblocks := extended_blocks hafter (before ++ cs)
  rw [blocks_blanks_append hbefore] at hblocks
  obtain hnil | ⟨b, hb, hone⟩ := hblocks.of_nil (blocks_of_unopened h)
  · exact absurd (blocks_eq_nil_iff.mp hnil) hopen
  · rw [script_eq_intercalate hopen, hone, List.intercalate_singleton, trim_eq_nil_iff,
      isBlankText_iff]
    exact fun c hc => hafter c (hb.subset hc)

/-- Answers that are equal but for blanks around them have the same script but for blanks around it,
if both open a script or neither does. -/
theorem trim_script_congr {cs' : List Char} (h : trim cs = trim cs')
    (hopen : opening? cs = none ↔ opening? cs' = none) :
    trim (script cs) = trim (script cs') := by
  obtain ⟨before, after, hbefore, hafter, hcs⟩ := exists_blanks_trim cs
  obtain ⟨before', after', hbefore', hafter', hcs'⟩ := exists_blanks_trim cs'
  rw [isBlankText_iff] at hbefore hafter hbefore' hafter'
  rw [← h] at hcs'
  by_cases hcore : opening? (trim cs) = none
  · by_cases hnone : opening? cs = none
    · rw [script_eq_self_of_unfenced hnone, script_eq_self_of_unfenced (hopen.mp hnone), h]
    · have hnone' : opening? cs' ≠ none := fun hnone' => hnone (hopen.mpr hnone')
      rw [hcs] at hnone
      rw [hcs'] at hnone'
      have hscript := trim_script_opened hbefore hafter hcore hnone
      have hscript' := trim_script_opened hbefore' hafter' hcore hnone'
      rw [← hcs] at hscript
      rw [← hcs'] at hscript'
      rw [hscript, hscript']
  · have hscript := trim_script_around hbefore hafter hcore
    have hscript' := trim_script_around hbefore' hafter' hcore
    rw [← hcs] at hscript
    rw [← hcs'] at hscript'
    exact hscript.trans hscript'.symm

end Schemata.Response
