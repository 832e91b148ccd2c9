import Mathlib.Data.List.Basic
import Mathlib.Tactic
import Schemata.Proofs.Response
import Schemata.Proofs.Script.Drafts

/-!
# Chunks of a text

No `CREATE TABLE` runs over a semicolon. A text that holds none behind its last semicolon is
therefore cut at the same places whatever stands there, and all of that belongs to its last chunk.
-/
namespace Schemata.Script

/-! ## Where a chunk begins -/

theorem dropWhile_isBlank_semicolon (cs bs : List Char) :
    (cs ++ ';' :: bs).dropWhile Text.isBlank = cs.dropWhile Text.isBlank ++ ';' :: bs := by
  have hmark : Text.isBlank ';' = false := by decide
  induction cs with
  | nil => rw [List.nil_append, List.dropWhile_cons, hmark]; rfl
  | cons c cs ih =>
    rw [List.cons_append, List.dropWhile_cons, List.dropWhile_cons, ih]
    split <;> rfl

theorem afterWordAndBlank?_semicolon {keyword : String} (h : ';' ∉ keyword.toList)
    (cs bs : List Char) :
    afterWordAndBlank? keyword (cs ++ ';' :: bs) =
      (afterWordAndBlank? keyword cs).map (· ++ ';' :: bs) := by
  simp only [afterWordAndBlank?, Option.bind_eq_bind]
  rw [Response.afterKeyword?_before_semicolon bs h]
  cases Text.afterKeyword? keyword.toList cs with
  | none => rfl
  | some rest =>
    simp only [Option.map_some, Option.bind_some, dropWhile_isBlank_semicolon, List.length_append,
      Nat.add_lt_add_iff_right]
    split <;> rfl

theorem skipModifier_semicolon {keywords : List String} (h : ∀ k ∈ keywords, ';' ∉ k.toList)
    (cs bs : List Char) :
    skipModifier keywords (cs ++ ';' :: bs) = skipModifier keywords cs ++ ';' :: bs := by
  have hfind : keywords.findSome? (afterWordAndBlank? · (cs ++ ';' :: bs)) =
      (keywords.findSome? (afterWordAndBlank? · cs)).map (· ++ ';' :: bs) := by
    induction keywords with
    | nil => rfl
    | cons k ks ih =>
      rw [List.findSome?_cons, List.findSome?_cons,
        afterWordAndBlank?_semicolon (h k List.mem_cons_self),
        ih fun k' hk' => h k' (List.mem_cons_of_mem k hk')]
      cases afterWordAndBlank? k cs <;> rfl
  rw [skipModifier, skipModifier, hfind]
  cases keywords.findSome? (afterWordAndBlank? · cs) <;> rfl

/-- Whether a `CREATE TABLE` begins at a place is settled before the next semicolon. -/
theorem createTableAt_semicolon (before : Option Char) (cs bs : List Char) :
    createTableAt before (cs ++ ';' :: bs) = createTableAt before cs := by
  have hmark : Text.isWordChar ';' = false := by decide
  rw [createTableAt, createTableAt, afterWordAndBlank?_semicolon (by decide)]
  cases afterWordAndBlank? "create" cs with
  | none => rfl
  | some cs =>
    simp only [Option.map_some]
    rw [skipModifier_semicolon (by decide), skipModifier_semicolon (by decide),
      Response.afterKeyword?_before_semicolon bs (by decide)]
    cases Text.afterKeyword? "table".toList
        (skipModifier ["temp", "temporary", "unlogged"] (skipModifier ["global", "local"] cs)) with
    | none => rfl
    | some rest => cases rest <;> simp [hmark]

/-! ## Chunks of a text that goes on -/

/-- Adds text to the last chunk. -/
def extendLast (more : List Char) : List (List Char) → List (List Char)
  | [] => []
  | [chunk] => [chunk ++ more]
  | chunk :: next :: rest => chunk :: extendLast more (next :: rest)

theorem extendLast_append_singleton (more : List Char) (init : List (List Char))
    (last : List Char) : extendLast more (init ++ [last]) = init ++ [last ++ more] := by
  induction init with
  | nil => rfl
  | cons chunk init ih =>
    cases init with
    | nil => rfl
    | cons next init =>
      rw [List.cons_append, List.cons_append, extendLast, ← List.cons_append, ih]
      rfl

theorem extendLast_extendLast (more more' : List Char) (chunks : List (List Char)) :
    extendLast more' (extendLast more chunks) = extendLast (more ++ more') chunks := by
  rcases List.eq_nil_or_concat' chunks with rfl | ⟨init, last, rfl⟩
  · rfl
  · rw [extendLast_append_singleton, extendLast_append_singleton, extendLast_append_singleton,
      List.append_assoc]

theorem cutAtCreateTable_of_not_holds {before : Option Char} {cs : List Char}
    (h : holdsCreateTable before cs = false) : cutAtCreateTable before cs = (cs, []) := by
  induction cs generalizing before with
  | nil => rfl
  | cons c cs ih =>
    rw [holdsCreateTable, Bool.or_eq_false_iff] at h
    rw [cutAtCreateTable, ih h.2, h.1]
    rfl

/-- Adds text to the last part of a cut. -/
def extendCut (more : List Char) : List Char × List (List Char) → List Char × List (List Char)
  | (head, []) => (head ++ more, [])
  | (head, chunk :: rest) => (head, extendLast more (chunk :: rest))

/-- A text is cut in the same way with more text behind it that begins nothing, neither of its own
nor together with the end of the text. -/
theorem cutAtCreateTable_extend {more : List Char}
    (hat : ∀ before cs, createTableAt before (cs ++ more) = createTableAt before cs)
    {before : Option Char} {cs : List Char}
    (hmore : ∀ before, holdsCreateTable before more = false) :
    cutAtCreateTable before (cs ++ more) = extendCut more (cutAtCreateTable before cs) := by
  induction cs generalizing before with
  | nil => exact cutAtCreateTable_of_not_holds (hmore before)
  | cons c cs ih =>
    have hhead := hat before (c :: cs)
    rw [List.cons_append] at hhead
    rw [List.cons_append, cutAtCreateTable, cutAtCreateTable, hhead, ih]
    generalize cutAtCreateTable (some c) cs = found
    obtain ⟨head, _ | ⟨chunk, rest⟩⟩ := found <;>
      by_cases hcreate : createTableAt before (c :: cs) = true <;>
        simp [extendCut, extendLast, hcreate]

theorem chunks_extend {more : List Char}
    (hat : ∀ before cs, createTableAt before (cs ++ more) = createTableAt before cs)
    (hmore : ∀ before, holdsCreateTable before more = false) (cs : List Char) :
    chunks (cs ++ more) = extendLast more (chunks cs) := by
  rw [chunks, cutAtCreateTable_extend hat hmore, chunks]
  generalize cutAtCreateTable none cs = found
  obtain ⟨head, _ | ⟨chunk, rest⟩⟩ := found <;> rfl

theorem chunks_semicolon (cs : List Char) {bs : List Char}
    (h : holdsCreateTable (some ';') bs = false) :
    chunks (cs ++ ';' :: bs) = extendLast (';' :: bs) (chunks cs) := by
  refine chunks_extend (fun before cs => createTableAt_semicolon before cs bs) (fun before => ?_) cs
  have hat : createTableAt before (';' :: bs) = false :=
    (createTableAt_semicolon before [] bs).trans (Bool.and_false _)
  rw [holdsCreateTable, hat, h]
  rfl

/-- Text behind the last semicolon that begins no `CREATE TABLE` belongs to the last chunk. -/
theorem chunks_append {body tail more : List Char} (h : holdsCreateTable (some ';') tail = false)
    (hmore : holdsCreateTable (some ';') (tail ++ more) = false) :
    chunks (body ++ ';' :: tail ++ more) = extendLast more (chunks (body ++ ';' :: tail)) := by
  rw [List.append_assoc, List.cons_append, chunks_semicolon body hmore, chunks_semicolon body h,
    extendLast_extendLast, List.cons_append]

/-- The text before the first chunk and the chunks make up the whole text. -/
theorem append_flatten_cutAtCreateTable (before : Option Char) (cs : List Char) :
    (cutAtCreateTable before cs).1 ++ (cutAtCreateTable before cs).2.flatten = cs := by
  induction cs generalizing before with
  | nil => rfl
  | cons c cs ih =>
    have hrest := ih (some c)
    rw [cutAtCreateTable]
    generalize cutAtCreateTable (some c) cs = found at hrest
    obtain ⟨head, chunks⟩ := found
    by_cases hcreate : createTableAt before (c :: cs) = true
    · simpa [hcreate] using hrest
    · simpa [hcreate] using hrest

theorem throughSemicolon?_append {cs cut : List Char} (h : throughSemicolon? cs = some cut)
    (more : List Char) : throughSemicolon? (cs ++ more) = some cut := by
  induction cs generalizing cut with
  | nil => cases h
  | cons c cs ih =>
    rw [throughSemicolon?] at h
    rw [List.cons_append, throughSemicolon?]
    by_cases hmark : c = ';'
    · rwa [if_pos hmark] at h ⊢
    · rw [if_neg hmark] at h ⊢
      obtain ⟨rest, hrest, rfl⟩ := Option.map_eq_some_iff.mp h
      rw [ih hrest, Option.map_some]

/-! ## Drafts of chunks -/

/-- The draft of the first statement of some lexemes. -/
def firstDraft? (source : List Char) (us : List Lexeme) : Option Draft :=
  (Lexeme.statements us).head?.bind fun statement => Statement.draft? ⟨statement, source⟩

def chunkDraft? (tokenize : Tokenizer) (chunk : List Char) : Option Draft :=
  (chunkLexemes? tokenize chunk).bind (firstDraft? chunk)

/-- Read chunk by chunk, a text has the drafts of its chunks. -/
theorem filterMap_chunkStatements (tokenize : Tokenizer) (text : List Char) :
    (chunkStatements tokenize text).1.filterMap Statement.draft? =
      (chunks text).filterMap (chunkDraft? tokenize) := by
  rw [chunkStatements, List.filterMap_filterMap, List.filterMap_map]
  refine List.filterMap_congr fun chunk _ => ?_
  simp only [Function.comp_apply, chunkStatement, chunkDraft?]
  cases chunkLexemes? tokenize chunk with
  | none => rfl
  | some us =>
    simp only [Option.bind_some, firstDraft?]
    cases (Lexeme.statements us).head? <;> rfl

end Schemata.Script
