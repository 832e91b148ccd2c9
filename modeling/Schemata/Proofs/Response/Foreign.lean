import Mathlib.Tactic
import Schemata.Proofs.Response.Wrapped

/-!
# Blocks in other languages

Fences are not paired. An opening fence is told by its line alone, so that of a block in another
language is passed over, but its closing fence opens a script without a tag where its line ends
there. An answer with such a block is read as if only the closing fence of the block were there.
-/
namespace Schemata.Response

/-- A fenced block in another language, which is named by a word. -/
structure ForeignBlock where
  language : List Char
  content : List Char
  language_ne_nil : language ≠ []
  word : (language.all fun c => !Text.isBlank c && c != '\x60') = true
  other : language.map Text.foldLetter ≠ ['s', 'q', 'l']
  plain : '\x60' ∉ content

namespace ForeignBlock

/-- What stands between the two fences. -/
def body (f : ForeignBlock) : List Char := f.language ++ '\n' :: (f.content ++ ['\n'])

def text (f : ForeignBlock) : List Char := fence ++ (f.body ++ fence)

theorem not_mem_language (f : ForeignBlock) {c : Char} (hc : Text.isBlank c = true) :
    c ∉ f.language := by
  intro hmem
  have hword := List.all_eq_true.mp f.word c hmem
  simp [hc] at hword

theorem backtick_not_mem_language (f : ForeignBlock) : '\x60' ∉ f.language := by
  intro hmem
  have hword := List.all_eq_true.mp f.word _ hmem
  simp at hword

theorem fenceFree_body (f : ForeignBlock) : FenceFree f.body := by
  intro hfence
  have hmem : '\x60' ∈ f.body := hfence.subset (by simp [fence])
  simp only [body, List.mem_append, List.mem_cons, List.not_mem_nil, or_false] at hmem
  rcases hmem with hmem | hmem | hmem | hmem
  · exact f.backtick_not_mem_language hmem
  · exact absurd hmem (by decide)
  · exact f.plain hmem
  · exact absurd hmem (by decide)

/-- The name of another language is no opening line. -/
theorem not_openingLine (f : ForeignBlock) : ¬OpeningLine (f.language ++ ['\n']) := by
  have hkept : ∀ c, Text.isBlank c = true → c ≠ '\n' → c ∉ f.language ++ ['\n'] := by
    intro c hc hne hmem
    rcases List.mem_append.mp hmem with hmem | hmem
    · exact f.not_mem_language hc hmem
    · exact hne (List.mem_singleton.mp hmem)
  generalize hline : f.language ++ ['\n'] = line at hkept
  rintro @⟨blanks, tag, blanks', ending, hblanks, htag, hblanks', hending⟩
  have hspaces : ∀ cs, Spaces cs → (∀ c ∈ cs, c ∈ blanks ++ (tag ++ (blanks' ++ ending))) →
      cs = [] := by
    intro cs hcs hsub
    rw [List.eq_nil_iff_forall_not_mem]
    intro c hc
    rcases hcs c hc with rfl | rfl
    · exact hkept _ (by decide) (by decide) (hsub _ hc)
    · exact hkept _ (by decide) (by decide) (hsub _ hc)
  obtain rfl := hspaces blanks hblanks fun c hc => by simp [hc]
  obtain rfl := hspaces blanks' hblanks' fun c hc => by simp [hc]
  rcases hending with rfl | rfl
  · have htag' : f.language = tag := by simpa using hline
    rcases htag with rfl | htag
    · exact f.language_ne_nil htag'
    · exact f.other (htag' ▸ htag)
  · exact hkept '\r' (by decide) (by decide) (by simp)

theorem afterOpening?_language (f : ForeignBlock) (more : List Char) :
    afterOpening? (fence ++ (f.language ++ '\n' :: more)) = none := by
  by_contra hsome
  obtain ⟨after, hafter⟩ := Option.ne_none_iff_exists'.mp hsome
  obtain ⟨line, hline, heq⟩ := afterOpening?_eq_some_iff.mp hafter
  obtain ⟨front, rfl, hfront⟩ := hline.exists_eq_append
  -- both sides have their first line break behind the language
  have hfirst : ∀ cs rest : List Char, '\n' ∉ cs →
      (cs ++ '\n' :: rest).takeWhile (· ≠ '\n') = cs := by
    intro cs rest hcs
    rw [List.takeWhile_append_of_pos fun c hc => by simpa using fun he : c = '\n' => hcs (he ▸ hc)]
    simp
  have hsplit := congrArg (List.takeWhile (· ≠ '\n')) (List.append_cancel_left heq)
  rw [List.append_assoc, List.singleton_append, hfirst _ _ (f.not_mem_language (by decide)),
    hfirst _ _ hfront] at hsplit
  exact f.not_openingLine (hsplit ▸ hline)

/-- The opening fence of the block is passed over. -/
theorem opening?_fence_body (f : ForeignBlock) (more : List Char) :
    opening? (fence ++ (f.body ++ more)) =
      (opening? (f.body ++ more)).map fun e => (fence ++ e.1, e.2) := by
  obtain ⟨c, language, hlanguage⟩ := List.exists_cons_of_ne_nil f.language_ne_nil
  have hc : '\x60' ≠ c := by
    rintro rfl
    exact f.backtick_not_mem_language (by simp [hlanguage])
  rw [opening?_eq_firstRead?, opening?_eq_firstRead?]
  refine firstRead?_append fun s hs hne => ?_
  simp only [fence, List.suffix_cons_iff, List.suffix_nil] at hs
  rcases hs with rfl | rfl | rfl | rfl
  · have hline := f.afterOpening?_language (f.content ++ ['\n'] ++ more)
    rwa [← List.cons_append, ← List.append_assoc f.language] at hline
  · simp [body, hlanguage, afterOpening?, fence, Text.after?, hc]
  · simp [body, hlanguage, afterOpening?, fence, Text.after?, hc]
  · exact absurd rfl hne

/-- The block is passed over up to its closing fence. -/
theorem opening?_text (f : ForeignBlock) {u : List Char} (hu : opening? u = none)
    (more : List Char) :
    opening? (u ++ (f.text ++ more)) =
      (opening? (fence ++ more)).map fun e => (u ++ (fence ++ (f.body ++ e.1)), e.2) := by
  have hbody := opening?_append_fence (opening?_eq_none_of_fenceFree f.fenceFree_body) more
  simp only [text, List.append_assoc]
  rw [opening?_append_fence hu, f.opening?_fence_body, hbody]
  cases opening? (fence ++ more) <;> rfl

end ForeignBlock

/-! ## Answers with blocks in other languages -/

/-- The scripts of an answer stand behind its first opening fence, whatever stands before it. -/
theorem filter_parts_congr {cs cs' : List Char}
    (h : (opening? cs).map Prod.snd = (opening? cs').map Prod.snd) :
    (parts cs).filter Part.isScript = (parts cs').filter Part.isScript := by
  cases hopen : opening? cs with
  | none =>
    have hopen' : opening? cs' = none := by
      rw [hopen] at h
      exact Option.map_eq_none_iff.mp h.symm
    rw [parts_of_unopened hopen, parts_of_unopened hopen', filter_prosePart, filter_prosePart]
  | some found =>
    obtain ⟨before, inside⟩ := found
    rw [hopen] at h
    obtain ⟨⟨before', inside'⟩, hopen', rfl⟩ := Option.map_eq_some_iff.mp h.symm
    rw [filter_parts hopen, filter_parts hopen']

section Foreign

variable (front : List (Prose × Block)) (f : ForeignBlock) {u : List Char}

/-- A block in another language counts as its closing fence alone. -/
theorem filter_parts_foreign (hu : opening? u = none) (more : List Char) :
    (parts (leading front ++ (u ++ (f.text ++ more)))).filter Part.isScript =
      (parts (leading front ++ (u ++ (fence ++ more)))).filter Part.isScript := by
  rw [filter_parts_leading, filter_parts_leading]
  congr 1
  apply filter_parts_congr
  rw [f.opening?_text hu, opening?_append_fence hu, Option.map_map, Option.map_map]
  rfl

/-- Backticks that open nothing do not matter. -/
theorem filter_parts_fence {v : List Char} (huv : FenceFree (u ++ v))
    (hv : opening? (fence ++ v) = none) (back : List (Block × Prose)) :
    (parts (u ++ (fence ++ (v ++ following back)))).filter Part.isScript =
      (parts (u ++ (v ++ following back))).filter Part.isScript := by
  have hu := opening?_eq_none_of_fenceFree (huv.of_infix (List.prefix_append u v).isInfix)
  apply filter_parts_congr
  rw [opening?_append_fence hu, ← List.append_assoc fence, ← List.append_assoc u]
  have huv' := opening?_eq_none_of_fenceFree huv
  cases back with
  | nil => simp [hv, huv']
  | cons entry back =>
    obtain ⟨b, p⟩ := entry
    simp only [following_cons, Block.text, List.append_assoc]
    rw [← List.append_assoc fence v, ← List.append_assoc u v, opening?_append_fence hv,
      opening?_append_fence huv', Option.map_map, Option.map_map, Option.map_map]
    rfl

/-- A fence whose line ends opens a script. -/
theorem filter_parts_break (hu : opening? u = none) (more : List Char) :
    (parts (u ++ (fence ++ '\n' :: more))).filter Part.isScript =
      match closing? more with
      | none => [.script more false]
      | some (content, after) => .script content true :: (parts after).filter Part.isScript := by
  have hline : OpeningLine ['\n'] := OpeningLine.of_tag (.inl rfl)
  have hopen : opening? (u ++ (fence ++ '\n' :: more)) = some (u ++ [], more) := by
    rw [opening?_append_fence hu, ← List.singleton_append, opening?_of_line hline, Option.map_some]
  exact filter_parts hopen

end Foreign

theorem script_eq_of_filter_parts {cs cs' : List Char}
    (h : (parts cs).filter Part.isScript = (parts cs').filter Part.isScript)
    (hne : (parts cs').filter Part.isScript ≠ []) : script cs = script cs' := by
  rw [script_of_filter_parts h hne, script_of_filter_parts rfl hne]

theorem intercalate_concat (sep : List Char) {blocks : List (List Char)} (h : blocks ≠ [])
    (b : List Char) : sep.intercalate (blocks ++ [b]) = sep.intercalate blocks ++ (sep ++ b) := by
  induction blocks with
  | nil => exact absurd rfl h
  | cons c blocks ih =>
    cases blocks with
    | nil => simp
    | cons d blocks =>
      rw [List.intercalate_cons_cons, List.append_assoc, ← ih (List.cons_ne_nil _ _)]
      simp

/-- Of a block in another language an answer keeps the closing fence, which opens a script where a
line break follows. Behind the last script this adds the prose that follows. The block leaves the
script of the answer as it is where its closing fence opens nothing. -/
theorem script_foreign (front : List (Prose × Block)) (back : List (Block × Prose))
    (f : ForeignBlock) {u v : List Char} (huv : FenceFree (u ++ v)) :
    script (leading front ++ (u ++ (f.text ++ '\n' :: (v ++ following back)))) =
        script (leading front ++ (u ++ (fence ++ '\n' :: (v ++ following back)))) ∧
      (front ≠ [] →
        script (leading front ++ (u ++ (f.text ++ '\n' :: v))) =
          script (leading front ++ (u ++ v)) ++ '\n' :: '\n' :: v) ∧
      (front ≠ [] ∨ back ≠ [] → opening? (fence ++ v) = none →
        script (leading front ++ (u ++ (f.text ++ (v ++ following back)))) =
          script (leading front ++ (u ++ (v ++ following back)))) := by
  have hu := opening?_eq_none_of_fenceFree (huv.of_infix (List.prefix_append u v).isInfix)
  have hforeign := fun more => filter_parts_foreign front f hu more
  refine ⟨?_, fun hfront => ?_, fun hblocks hv => ?_⟩
  · refine script_eq_of_filter_parts (hforeign _) ?_
    rw [filter_parts_leading, filter_parts_break hu]
    cases closing? (v ++ following back) <;> simp
  · have hclose : closing? v = none :=
      closing?_eq_none_iff.mpr (huv.of_infix (List.suffix_append u v).isInfix)
    have hbefore : (parts (leading front ++ (u ++ v))).filter Part.isScript =
        front.map fun e => .script e.2.script true := by
      rw [filter_parts_leading, parts_of_unopened (opening?_eq_none_of_fenceFree huv),
        filter_prosePart, List.append_nil]
    have hafter : (parts (leading front ++ (u ++ (f.text ++ '\n' :: v)))).filter Part.isScript =
        (front.map fun e => .script e.2.script true) ++ [.script v false] := by
      rw [hforeign, filter_parts_leading, filter_parts_break hu, hclose]
    have hne : (front.map fun e => Part.script e.2.script true) ≠ [] :=
      fun hnil => hfront (List.map_eq_nil_iff.mp hnil)
    rw [script_of_filter_parts hafter (by simp), script_of_filter_parts hbefore hne,
      List.map_append]
    exact intercalate_concat _ (fun hnil => hne (List.map_eq_nil_iff.mp hnil)) v
  · have hsame : (parts (leading front ++ (u ++ (f.text ++ (v ++ following back))))).filter
        Part.isScript = (parts (leading front ++ (u ++ (v ++ following back)))).filter
        Part.isScript := by
      rw [hforeign, filter_parts_leading, filter_parts_leading, filter_parts_fence huv hv]
    refine script_eq_of_filter_parts hsame ?_
    rw [filter_parts_leading, ← List.append_assoc u, filter_parts_following ⟨u ++ v, huv⟩]
    simpa [or_iff_not_imp_left] using hblocks

/-- The closing fence of the block goes on in its line, or it ends there. -/
theorem script_foreign_python :
    let python : ForeignBlock :=
      ⟨"python".toList, "print(1)".toList, by decide, by decide, by decide, by decide⟩
    let first : Block := ⟨true, "SELECT 1;".toList, by decide, by decide⟩
    let second : Block := ⟨false, "SELECT 2;".toList, by decide, by decide⟩
    let front := leading [(⟨"See\n".toList, by decide⟩, first)]
    let back := following [(second, ⟨[], by decide⟩)]
    let u := "\nor\n".toList
    let v := " as well\n".toList
    FenceFree (u ++ v) ∧ opening? (fence ++ v) = none ∧
      script (front ++ (u ++ (python.text ++ '\n' :: (v ++ back)))) =
        script (front ++ (u ++ (fence ++ '\n' :: (v ++ back)))) ∧
      script (front ++ (u ++ (python.text ++ '\n' :: v))) =
        script (front ++ (u ++ v)) ++ '\n' :: '\n' :: v ∧
      script (front ++ (u ++ (python.text ++ (v ++ back)))) =
        script (front ++ (u ++ (v ++ back))) := by
  intro python first second front back u v
  have huv : FenceFree (u ++ v) := by decide
  have hv : opening? (fence ++ v) = none := by decide
  have h := script_foreign [(⟨"See\n".toList, by decide⟩, first)] [(second, ⟨[], by decide⟩)]
    python huv
  exact ⟨huv, hv, h.1, h.2.1 (List.cons_ne_nil _ _), h.2.2 (.inl (List.cons_ne_nil _ _)) hv⟩

/-- A script is lost behind a block in another language whose closing fence ends its line. -/
theorem script_behind_python :
    let python : ForeignBlock :=
      ⟨"python".toList, "print(1)".toList, by decide, by decide, by decide, by decide⟩
    let table : Block := ⟨true, "CREATE TABLE a (id INT);".toList, by decide, by decide⟩
    let answer := following [(table, ⟨[], by decide⟩)]
    script (python.text ++ '\n' :: answer) = [] ∧ script answer = table.script ∧
      script (python.text ++ '\n' :: answer) ≠ script answer := by
  intro python table answer
  have hlost : script (python.text ++ '\n' :: answer) = [] := by decide +kernel
  have hthere : script answer = table.script := by decide +kernel
  refine ⟨hlost, hthere, ?_⟩
  rw [hlost, hthere]
  decide

end Schemata.Response
