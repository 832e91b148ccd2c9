import Mathlib.Data.List.Infix
import Mathlib.Tactic
import Schemata.Proofs.Response
import Schemata.Proofs.Response.Growing

/-!
# Answers divided into parts

The parts of an answer divide its text: put together with their fences, they are the whole text but
for runs of blanks. Prose ends where the first opening fence begins, and a script where the first
closing fence begins, so no script holds the backticks of a fence, and scripts that are joined stay
as they are when they are read as an answer once more.
-/
namespace Schemata.Response

/-- Text without the three backticks of a fence. -/
def FenceFree (cs : List Char) : Prop := ¬fence <:+: cs

instance (cs : List Char) : Decidable (FenceFree cs) := inferInstanceAs (Decidable ¬_)

theorem FenceFree.of_infix {cs ds : List Char} (h : FenceFree ds) (hcs : cs <:+: ds) :
    FenceFree cs := fun hfence => h (hfence.trans hcs)

/-- Three backticks do not run over another character. -/
theorem FenceFree.append_cons {cs ds : List Char} {c : Char} (hc : c ≠ '\x60') (h : FenceFree cs)
    (h' : FenceFree ds) : FenceFree (cs ++ c :: ds) := by
  have hmark : ∀ mark, mark <:+ fence → mark <+: c :: ds → mark = [] := by
    intro mark hsuffix hprefix
    cases mark with
    | nil => rfl
    | cons d mark =>
      obtain rfl := (List.cons_prefix_cons.mp hprefix).1
      have hmem : d ∈ fence := hsuffix.subset List.mem_cons_self
      exact absurd (by simpa [fence] using hmem) hc
  rw [FenceFree, List.infix_append_iff]
  rintro (hcs | hds | ⟨front, back, hfence, hfront, hback⟩)
  · exact h hcs
  · rcases List.infix_cons_iff.mp hds with hds | hds
    · cases hmark fence List.suffix_rfl hds
    · exact h' hds
  · obtain rfl := hmark back ⟨front, hfence.symm⟩ hback
    rw [List.append_nil] at hfence
    exact h (hfence ▸ hfront.isInfix)

/-! ## The first fence -/

/-- An opening fence and what stands before it, which holds no opening fence. -/
theorem opening?_eq_some {cs before inside : List Char} (h : opening? cs = some (before, inside)) :
    ∃ line, OpeningLine line ∧ cs = before ++ (fence ++ (line ++ inside)) ∧
      opening? before = none := by
  rw [opening?_eq_firstRead?, firstRead?_eq_some_iff rfl] at h
  obtain ⟨rest, rfl, hread, hfirst⟩ := h
  obtain ⟨line, hline, rfl⟩ := afterOpening?_eq_some_iff.mp hread
  refine ⟨line, hline, rfl, ?_⟩
  rw [opening?_eq_firstRead?, firstRead?_eq_none_iff rfl]
  intro s hs
  cases s with
  | nil => rfl
  | cons c s => exact afterOpening?_eq_none_of_append _ (hfirst _ hs (List.cons_ne_nil _ _))

/-- Backticks can always be read as a closing fence. -/
theorem afterClosing?_fence (cs : List Char) : afterClosing? (fence ++ cs) = some cs :=
  afterClosing?_eq_some_iff.mpr ⟨[], ⟨.inl rfl, .inl rfl, by simp [Spaces]⟩, rfl⟩

/-- A script and the closing fence behind it. The script holds no fence. -/
theorem closing?_eq_some {cs content after : List Char}
    (h : closing? cs = some (content, after)) :
    ∃ line, ClosingLine line ∧ cs = content ++ (line ++ (fence ++ after)) ∧
      FenceFree content := by
  rw [closing?_eq_firstRead?, firstRead?_eq_some_iff rfl] at h
  obtain ⟨rest, rfl, hread, hfirst⟩ := h
  obtain ⟨line, hline, rfl⟩ := afterClosing?_eq_some_iff.mp hread
  refine ⟨line, hline, rfl, ?_⟩
  rintro ⟨front, back, rfl⟩
  have hnone := hfirst (fence ++ back) ⟨front, (List.append_assoc ..).symm⟩ (by simp [fence])
  rw [List.append_assoc, afterClosing?_fence] at hnone
  cases hnone

theorem closing?_eq_none_iff {cs : List Char} : closing? cs = none ↔ FenceFree cs := by
  rw [closing?_eq_firstRead?, firstRead?_eq_none_iff rfl]
  constructor
  · rintro h ⟨front, back, rfl⟩
    have hnone := h (fence ++ back) ⟨front, (List.append_assoc ..).symm⟩
    rw [afterClosing?_fence] at hnone
    cases hnone
  · rintro hfree s ⟨front, rfl⟩
    by_contra hsome
    obtain ⟨after, hafter⟩ := Option.ne_none_iff_exists'.mp hsome
    obtain ⟨line, -, rfl⟩ := afterClosing?_eq_some_iff.mp hafter
    exact hfree ⟨front ++ line, after, by simp only [List.append_assoc]⟩

theorem opening?_eq_none_of_fenceFree {cs : List Char} (h : FenceFree cs) : opening? cs = none := by
  by_contra hsome
  obtain ⟨⟨before, inside⟩, hopen⟩ := Option.ne_none_iff_exists'.mp hsome
  obtain ⟨line, -, rfl, -⟩ := opening?_eq_some hopen
  exact h (List.infix_append' ..)

/-! ## Parts -/

/-- A text divided into parts in order. A script comes with its fences, one without a closing fence
ends the text, and nothing but blanks is left out. -/
inductive Divided : List Char → List Part → Prop
  | nil : Divided [] []
  | blank {run cs : List Char} {ps : List Part} (hrun : Text.isBlankText run = true)
      (h : Divided cs ps) : Divided (run ++ cs) ps
  | prose {content cs : List Char} {ps : List Part} (h : Divided cs ps) :
      Divided (content ++ cs) (.prose content :: ps)
  | closed {line content ending cs : List Char} {ps : List Part} (hline : OpeningLine line)
      (hending : ClosingLine ending) (h : Divided cs ps) :
      Divided (fence ++ (line ++ (content ++ (ending ++ (fence ++ cs)))))
        (.script content true :: ps)
  | unclosed {line content : List Char} (hline : OpeningLine line) :
      Divided (fence ++ (line ++ content)) [.script content false]

theorem Divided.prosePart {cs : List Char} {ps : List Part} (h : Divided cs ps)
    (before : List Char) : Divided (before ++ cs) (prosePart before ++ ps) := by
  rw [Response.prosePart]
  split
  · next hblank => exact .blank hblank h
  · exact .prose h

/-- Only the last part of a divided text can lack its closing fence. -/
theorem Divided.isComplete_of_mem_dropLast {cs : List Char} {ps : List Part} (h : Divided cs ps) :
    ∀ p ∈ ps.dropLast, p.isComplete = true := by
  have hcons : ∀ (p : Part) (ps : List Part), p.isComplete = true →
      (∀ q ∈ ps.dropLast, q.isComplete = true) →
      ∀ q ∈ (p :: ps).dropLast, q.isComplete = true := by
    intro p ps hp hps q hq
    cases ps with
    | nil => cases hq
    | cons r ps =>
      rcases List.mem_cons.mp hq with rfl | hq
      · exact hp
      · exact hps q hq
  induction h with
  | nil => simp
  | blank _ _ ih => exact ih
  | prose _ ih => exact hcons _ _ rfl ih
  | closed _ _ _ ih => exact hcons _ _ rfl ih
  | unclosed => simp

theorem divided_parts (cs : List Char) : Divided cs (parts cs) := by
  fun_induction parts cs with
  | case1 cs hnone => simpa using Divided.nil.prosePart cs
  | case2 cs before inside hopen hnone =>
    obtain ⟨line, hline, rfl, -⟩ := opening?_eq_some hopen
    exact (Divided.unclosed hline).prosePart before
  | case3 cs before inside hopen content after hclose ih =>
    obtain ⟨line, hline, rfl, -⟩ := opening?_eq_some hopen
    obtain ⟨ending, hending, rfl, -⟩ := closing?_eq_some hclose
    exact (Divided.closed hline hending ih).prosePart before

/-- What a part holds: a script no fence, and prose no opening fence and not only blanks. -/
def Part.Plain : Part → Prop
  | .prose content => opening? content = none ∧ Text.isBlankText content = false
  | .script content _ => FenceFree content

theorem plain_of_mem_prosePart {cs : List Char} (h : opening? cs = none) :
    ∀ p ∈ prosePart cs, p.Plain := by
  intro p hp
  rw [prosePart] at hp
  split at hp
  · cases hp
  · next hblank =>
    obtain rfl := List.mem_singleton.mp hp
    exact ⟨h, by simpa using hblank⟩

theorem plain_of_mem_parts (cs : List Char) : ∀ p ∈ parts cs, p.Plain := by
  fun_induction parts cs with
  | case1 cs hnone => exact plain_of_mem_prosePart hnone
  | case2 cs before inside hopen hnone =>
    obtain ⟨line, -, -, hbefore⟩ := opening?_eq_some hopen
    intro p hp
    rcases List.mem_append.mp hp with hp | hp
    · exact plain_of_mem_prosePart hbefore p hp
    · obtain rfl := List.mem_singleton.mp hp
      exact closing?_eq_none_iff.mp hnone
  | case3 cs before inside hopen content after hclose ih =>
    obtain ⟨line, -, -, hbefore⟩ := opening?_eq_some hopen
    obtain ⟨ending, -, -, hcontent⟩ := closing?_eq_some hclose
    intro p hp
    rcases List.mem_append.mp hp with hp | hp
    · exact plain_of_mem_prosePart hbefore p hp
    · rcases List.mem_cons.mp hp with rfl | hp
      · exact hcontent
      · exact ih p hp

/-- Of two parts that follow each other one is a script. -/
theorem isChain_parts (cs : List Char) :
    (parts cs).IsChain fun p q => p.isScript = true ∨ q.isScript = true := by
  have hprose : ∀ (cs : List Char) (p : Part) (ps : List Part), p.isScript = true →
      (p :: ps).IsChain (fun p q => p.isScript = true ∨ q.isScript = true) →
      (prosePart cs ++ p :: ps).IsChain fun p q => p.isScript = true ∨ q.isScript = true := by
    intro cs p ps hp hps
    rw [prosePart]
    split
    · exact hps
    · exact .cons_cons (.inr hp) hps
  fun_induction parts cs with
  | case1 cs hnone =>
    rw [prosePart]
    split
    · exact .nil
    · exact .singleton _
  | case2 cs before inside hopen hnone => exact hprose _ _ _ rfl (.singleton _)
  | case3 cs before inside hopen content after hclose ih =>
    exact hprose _ _ _ rfl (List.isChain_cons.mpr ⟨fun q _ => .inl rfl, ih⟩)

/-! ## Scripts read again -/

theorem fenceFree_intercalate {blocks : List (List Char)} (h : ∀ b ∈ blocks, FenceFree b) :
    FenceFree (['\n', '\n'].intercalate blocks) := by
  have hnil : FenceFree [] := by decide
  induction blocks with
  | nil => exact hnil
  | cons b blocks ih =>
    have hb := h b List.mem_cons_self
    have hblocks := ih fun c hc => h c (List.mem_cons_of_mem b hc)
    cases blocks with
    | nil => simpa using hb
    | cons c blocks =>
      rw [List.intercalate_cons_cons, List.append_assoc]
      exact hb.append_cons (by decide) (hnil.append_cons (by decide) hblocks)

/-- What is read from an answer is a script as a whole. -/
theorem script_script (cs : List Char) : script (script cs) = script cs := by
  cases hblocks : ((parts cs).filter Part.isScript).map Part.content with
  | nil =>
    have hself : script cs = cs := by rw [script, hblocks]
    rw [hself, hself]
  | cons b blocks =>
    have hjoined : script cs = ['\n', '\n'].intercalate (b :: blocks) := by rw [script, hblocks]
    have hfree : ∀ c ∈ b :: blocks, FenceFree c := by
      intro c hc
      obtain ⟨p, hp, rfl⟩ := List.mem_map.mp (hblocks ▸ hc)
      obtain ⟨hmem, hscript⟩ := List.mem_filter.mp hp
      have hplain := plain_of_mem_parts cs p hmem
      cases p with
      | prose content => cases hscript
      | script content complete => exact hplain
    rw [hjoined]
    exact script_eq_self_of_unfenced (opening?_eq_none_of_fenceFree (fenceFree_intercalate hfree))

/-- The parts of an answer divide its text, at most the last of them is a script without a closing
fence, no two runs of prose follow each other, no script holds a fence and no prose an opening one,
and the script of the answer is its own script. -/
theorem parts_division (cs : List Char) :
    Divided cs (parts cs) ∧
    (∀ p ∈ (parts cs).dropLast, p.isComplete = true) ∧
    ((parts cs).IsChain fun p q => p.isScript = true ∨ q.isScript = true) ∧
    (∀ p ∈ parts cs, p.Plain) ∧
    script (script cs) = script cs :=
  ⟨divided_parts cs, (divided_parts cs).isComplete_of_mem_dropLast, isChain_parts cs,
    plain_of_mem_parts cs, script_script cs⟩

end Schemata.Response
