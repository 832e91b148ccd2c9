import Mathlib.Tactic
import Schemata.Proofs.Response.Division

/-!
# Scripts wrapped in answers

An answer that is put together from prose and fenced scripts gives back exactly these scripts. Of a
block in another language everything is left out but its closing fence. That fence is taken for the
opening fence of a script without a tag if its line ends there, since fences are not paired.
-/
namespace Schemata.Response

/-- Prose that no fence stands in. -/
structure Prose where
  text : List Char
  fenceFree : FenceFree text

/-- The line of an opening fence without blanks. -/
theorem OpeningLine.of_tag {tag : List Char}
    (h : tag = [] ∨ tag.map Text.foldLetter = ['s', 'q', 'l']) : OpeningLine (tag ++ ['\n']) := by
  have hspaces : Spaces [] := by simp [Spaces]
  exact .mk hspaces h hspaces (.inl rfl)

/-- A script in its fences. The tag of the opening fence can be left out. A script that ends in a
carriage return would lose it to the line break before the closing fence. -/
structure Block where
  tagged : Bool
  script : List Char
  fenceFree : FenceFree script
  ending : script.getLast? ≠ some '\r'

namespace Block

/-- The rest of the line of the opening fence. -/
def line (b : Block) : List Char := (if b.tagged then ['s', 'q', 'l'] else []) ++ ['\n']

def text (b : Block) : List Char := fence ++ (b.line ++ (b.script ++ '\n' :: fence))

theorem openingLine_line (b : Block) : OpeningLine b.line := by
  rw [line]
  split
  · exact OpeningLine.of_tag (.inr (by decide))
  · exact OpeningLine.of_tag (.inl rfl)

end Block

/-- Blocks, each with the prose before it. -/
def leading (bs : List (Prose × Block)) : List Char := bs.flatMap fun e => e.1.text ++ e.2.text

/-- Blocks, each with the prose after it. -/
def following (bs : List (Block × Prose)) : List Char := bs.flatMap fun e => e.1.text ++ e.2.text

@[simp] theorem following_nil : following [] = [] := rfl

theorem leading_cons (p : Prose) (b : Block) (bs : List (Prose × Block)) :
    leading ((p, b) :: bs) = p.text ++ (b.text ++ leading bs) := by
  simp [leading]

theorem following_cons (b : Block) (p : Prose) (bs : List (Block × Prose)) :
    following ((b, p) :: bs) = b.text ++ (p.text ++ following bs) := by
  simp [following]

/-! ## Opening fences behind prose -/

/-- Prose in front of a fence does not change what is read from there on. -/
theorem opening?_append_fence {cs : List Char} (h : opening? cs = none) (more : List Char) :
    opening? (cs ++ (fence ++ more)) =
      (opening? (fence ++ more)).map fun (before, inside) => (cs ++ before, inside) := by
  rw [opening?_eq_firstRead?, firstRead?_eq_none_iff rfl] at h
  rw [opening?_eq_firstRead?, opening?_eq_firstRead?]
  exact firstRead?_append fun s hs hne => afterOpening?_append_fence more hne (h s hs)

theorem opening?_of_line {line : List Char} (h : OpeningLine line) (inside : List Char) :
    opening? (fence ++ (line ++ inside)) = some ([], inside) := by
  rw [opening?_eq_firstRead?, firstRead?_eq_some_iff rfl]
  exact ⟨_, rfl, afterOpening?_eq_some_iff.mpr ⟨line, h, rfl⟩, fun s hs hne =>
    absurd (List.suffix_nil.mp hs) hne⟩

/-! ## Closing fences behind scripts -/

/-- Of a closing line only a carriage return stands before its line break. -/
theorem ClosingLine.eq_return {line s rest : List Char} (h : ClosingLine line) (hs : s ≠ [])
    (heq : line = s ++ '\n' :: rest) : s = ['\r'] := by
  obtain @⟨cr, lf, blanks, hcr, hlf, hblanks⟩ := h
  have hspaces : ∀ front, blanks ≠ front ++ '\n' :: rest := by
    rintro front rfl
    exact absurd (hblanks '\n' (by simp)) (by decide)
  have hbreak : ∀ front, lf ++ blanks = front ++ '\n' :: rest → front = [] := by
    intro front hfront
    rcases hlf with rfl | rfl
    · exact absurd hfront (hspaces front)
    · cases front with
      | nil => rfl
      | cons c front => exact absurd (List.cons.inj hfront).2 (hspaces front)
  rcases hcr with rfl | rfl
  · exact absurd (hbreak s heq) hs
  · cases s with
    | nil => exact absurd rfl hs
    | cons c s =>
      obtain ⟨rfl, htail⟩ := List.cons.inj heq
      rw [hbreak s htail]

/-- A script ends at the line break before its closing fence. -/
theorem Block.closing?_script (b : Block) (after : List Char) :
    closing? (b.script ++ '\n' :: (fence ++ after)) = some (b.script, after) := by
  rw [closing?_eq_firstRead?, firstRead?_eq_some_iff rfl]
  refine ⟨_, rfl, ?_, fun s hs hne => ?_⟩
  · exact afterClosing?_eq_some_iff.mpr
      ⟨['\n'], ⟨.inl rfl, .inr rfl, by simp [Spaces]⟩, rfl⟩
  by_contra hsome
  obtain ⟨after', hafter⟩ := Option.ne_none_iff_exists'.mp hsome
  obtain ⟨line, hline, heq⟩ := afterClosing?_eq_some_iff.mp hafter
  have hfree : FenceFree s := b.fenceFree.of_infix hs.isInfix
  rcases List.append_eq_append_iff.mp heq with ⟨rest, hmark, hrest⟩ | ⟨rest, rfl, hrest⟩
  · -- the closing line runs on to the line break behind the script
    cases rest with
    | nil => cases (List.cons.inj hrest).1
    | cons c rest =>
      obtain rfl : '\n' = c := (List.cons.inj hrest).1
      obtain rfl := hline.eq_return hne hmark
      obtain ⟨front, hfront⟩ := hs
      exact b.ending (by rw [← hfront, List.getLast?_concat])
  · rcases List.append_eq_append_iff.mp hrest with ⟨rest', rfl, -⟩ | ⟨rest', hfence, hrest'⟩
    · exact hfree ⟨line, rest', List.append_assoc ..⟩
    · cases rest' with
      | nil => exact hfree ⟨line, [], by rw [hfence, List.append_nil, List.append_nil]⟩
      | cons c rest' =>
        obtain rfl : '\n' = c := (List.cons.inj hrest').1
        have hmem : '\n' ∈ fence := by
          rw [hfence]
          exact List.mem_append_right _ List.mem_cons_self
        exact absurd hmem (by decide)

/-! ## Parts of a wrapped answer -/

/-- The first block of an answer is its first script, and what follows is an answer by itself. -/
theorem parts_block (p : Prose) (b : Block) (rest : List Char) :
    parts (p.text ++ (b.text ++ rest)) =
      prosePart p.text ++ .script b.script true :: parts rest := by
  have hprose := opening?_eq_none_of_fenceFree p.fenceFree
  have hopen : opening? (p.text ++ (b.text ++ rest)) =
      some (p.text, b.script ++ '\n' :: (fence ++ rest)) := by
    simp only [Block.text, List.append_assoc, List.cons_append]
    rw [opening?_append_fence hprose, opening?_of_line b.openingLine_line, Option.map_some]
    simp only [List.append_nil]
  exact parts_of_closed hopen (b.closing?_script rest)

theorem parts_following (p : Prose) (bs : List (Block × Prose)) :
    parts (p.text ++ following bs) =
      prosePart p.text ++
        bs.flatMap fun e => .script e.1.script true :: prosePart e.2.text := by
  induction bs generalizing p with
  | nil => simp [parts_of_unopened (opening?_eq_none_of_fenceFree p.fenceFree)]
  | cons entry bs ih =>
    obtain ⟨b, q⟩ := entry
    rw [following_cons, parts_block, ih q, List.flatMap_cons, List.cons_append]

theorem filter_parts_following (p : Prose) (bs : List (Block × Prose)) :
    (parts (p.text ++ following bs)).filter Part.isScript =
      bs.map fun e => .script e.1.script true := by
  rw [parts_following, List.filter_append, filter_prosePart, List.nil_append]
  induction bs with
  | nil => rfl
  | cons entry bs ih =>
    rw [List.flatMap_cons, List.cons_append, List.filter_cons_of_pos rfl, List.filter_append,
      filter_prosePart, ih]
    rfl

theorem filter_parts_leading (bs : List (Prose × Block)) (rest : List Char) :
    (parts (leading bs ++ rest)).filter Part.isScript =
      (bs.map fun e => .script e.2.script true) ++ (parts rest).filter Part.isScript := by
  induction bs with
  | nil => rfl
  | cons entry bs ih =>
    obtain ⟨p, b⟩ := entry
    rw [leading_cons, List.append_assoc, List.append_assoc, parts_block, List.filter_append,
      filter_prosePart, List.nil_append, List.filter_cons_of_pos rfl, ih]
    rfl

theorem script_of_filter_parts {cs : List Char} {ps : List Part}
    (h : (parts cs).filter Part.isScript = ps) (hne : ps ≠ []) :
    script cs = ['\n', '\n'].intercalate (ps.map Part.content) := by
  rw [script, h]
  cases ps with
  | nil => exact absurd rfl hne
  | cons p ps => rfl

/-- Wrapping scripts in prose and fences is undone: the scripts of the answer are those of its
blocks, in order and all of them closed, and its script is these with a blank line between two. -/
theorem script_following (p : Prose) {bs : List (Block × Prose)} (hbs : bs ≠ []) :
    (parts (p.text ++ following bs)).filter Part.isScript =
        (bs.map fun e => .script e.1.script true) ∧
      script (p.text ++ following bs) =
        ['\n', '\n'].intercalate (bs.map fun e => e.1.script) := by
  have hfilter := filter_parts_following p bs
  have hne : (bs.map fun e => Part.script e.1.script true) ≠ [] :=
    fun hnil => hbs (List.map_eq_nil_iff.mp hnil)
  refine ⟨hfilter, ?_⟩
  rw [script_of_filter_parts hfilter hne, List.map_map]
  rfl

/-- Backticks stand next to the fences, one script ends in a blank line, and one is empty. -/
theorem script_following_seams :
    let first : Block := ⟨true, "SELECT 1;\n ".toList, by decide, by decide⟩
    let second : Block := ⟨false, [], by decide, by decide⟩
    let answer := "Two of them: \x60\x60".toList ++
      following [(first, ⟨"\x60and\x60\x60".toList, by decide⟩), (second, ⟨['.'], by decide⟩)]
    (parts answer).filter Part.isScript = [.script first.script true, .script [] true] ∧
      script answer = "SELECT 1;\n \n\n".toList := by
  intro first second answer
  have h := @script_following ⟨"Two of them: \x60\x60".toList, by decide⟩
    [(first, ⟨"\x60and\x60\x60".toList, by decide⟩), (second, ⟨['.'], by decide⟩)]
    (List.cons_ne_nil _ _)
  exact ⟨h.1, h.2.trans (by decide)⟩

end Schemata.Response
