import Mathlib.Data.List.Basic
import Mathlib.Tactic
import Schemata.Proofs.Script.Chunks
import Schemata.Proofs.Script.Placed
import Schemata.Proofs.Text.Trim

/-!
# Blanks around a `CREATE TABLE`

Blanks behind a text complete no `CREATE TABLE`, and those before it begin none. They belong to the
last chunk of the text, or to what stands before the first one.
-/
namespace Schemata.Script

open Text

variable {more : List Char}

/-! ## Keywords before blanks -/

/-- A keyword without blanks. -/
def IsSolid (keyword : String) : Prop := keyword.toList.any isBlank = false

instance : DecidablePred IsSolid := fun keyword =>
  inferInstanceAs (Decidable (keyword.toList.any isBlank = false))

theorem foldLetter_of_isBlank {c : Char} (hc : isBlank c = true) : foldLetter c = c :=
  forall_blank (P := fun c => foldLetter c = c) (by decide) hc

theorem IsSolid.foldLetter_not_mem {keyword : String} (h : IsSolid keyword) {c : Char}
    (hc : isBlank c = true) : foldLetter c ∉ keyword.toList := by
  rw [foldLetter_of_isBlank hc]
  exact fun hmem => List.any_eq_false.mp h c hmem hc

/-- A text that spells a keyword has no blanks. -/
theorem IsSolid.not_blank {keyword : String} (h : IsSolid keyword) {cs : List Char}
    (hcs : cs.map foldLetter = keyword.toList) : ∀ c ∈ cs, isBlank c = false := by
  intro c hc
  by_contra hblank
  rw [Bool.not_eq_false] at hblank
  exact h.foldLetter_not_mem hblank (hcs ▸ List.mem_map_of_mem hc)

theorem IsSolid.afterKeyword?_blanks {keyword : String} (h : IsSolid keyword)
    (hmore : ∀ c ∈ more, isBlank c = true) (cs : List Char) :
    afterKeyword? keyword.toList (cs ++ more) =
      (afterKeyword? keyword.toList cs).map (· ++ more) :=
  Response.afterKeyword?_append
    (fun c hc => h.foldLetter_not_mem (hmore c (List.mem_of_head? hc))) cs

theorem dropWhile_isBlank_append (hmore : ∀ c ∈ more, isBlank c = true) (cs : List Char) :
    (cs ++ more).dropWhile isBlank =
      if cs.dropWhile isBlank = [] then [] else cs.dropWhile isBlank ++ more := by
  rw [List.dropWhile_append, List.dropWhile_eq_nil_iff.mpr hmore]
  simp only [List.isEmpty_iff]

/-- A test of texts that blanks behind a text do not change. -/
structure IsSettled (more : List Char) (test : List Char → Bool) : Prop where
  nil : test [] = false
  append : ∀ cs, test (cs ++ more) = test cs

/-- What follows a keyword and a blank is tested alike: behind a keyword that ends the text there is
nothing but blanks. -/
theorem IsSettled.elim_afterWordAndBlank? {test : List Char → Bool} (h : IsSettled more test)
    (hmore : ∀ c ∈ more, isBlank c = true) {keyword : String} (hk : IsSolid keyword)
    (otherwise : List Char → Bool) (hother : ∀ cs, otherwise (cs ++ more) = otherwise cs)
    (hword : ∀ cs, cs.map foldLetter = keyword.toList → otherwise cs = false) (cs : List Char) :
    (afterWordAndBlank? keyword (cs ++ more)).elim (otherwise (cs ++ more)) test =
      (afterWordAndBlank? keyword cs).elim (otherwise cs) test := by
  have hblanks : ∀ (rest : List Char) (b : Bool), (rest = [] → b = false) →
      (if ([] : List Char).length < rest.length then some [] else none).elim b test = false := by
    intro rest b hnil
    split
    · exact h.nil
    · next hlength => exact hnil (by simpa using hlength)
  simp only [afterWordAndBlank?, Option.bind_eq_bind, hk.afterKeyword?_blanks hmore]
  cases hrest : afterKeyword? keyword.toList cs with
  | none => exact hother cs
  | some rest =>
    simp only [Option.map_some, Option.bind_some, dropWhile_isBlank_append hmore]
    by_cases hnil : rest.dropWhile isBlank = []
    · have hend : rest = [] → otherwise cs = false := by
        rintro rfl
        obtain ⟨opening, hcs, hopening⟩ := afterKeyword?_eq_some_iff.mp hrest
        rw [List.append_nil] at hcs
        exact hword cs (hcs ▸ hopening)
      rw [hnil, if_pos rfl, hblanks rest _ hend, hother]
      exact hblanks _ _ fun happend => hend (List.append_eq_nil_iff.mp happend).1
    · simp only [hnil, if_false, List.length_append, Nat.add_lt_add_iff_right]
      split
      · exact h.append _
      · exact hother cs

/-- Without blanks there is no modifier to pass over. -/
theorem skipModifier_of_not_blank {cs : List Char} (hcs : ∀ c ∈ cs, isBlank c = false)
    (keywords : List String) : skipModifier keywords cs = cs := by
  have hnone : ∀ k, afterWordAndBlank? k cs = none := by
    intro k
    simp only [afterWordAndBlank?, Option.bind_eq_bind]
    cases hrest : afterKeyword? k.toList cs with
    | none => rfl
    | some rest =>
      obtain ⟨opening, rfl, -⟩ := afterKeyword?_eq_some_iff.mp hrest
      have hself : rest.dropWhile isBlank = rest := by
        cases rest with
        | nil => rfl
        | cons c rest => exact List.dropWhile_cons_of_neg (by simp [hcs c (by simp)])
      rw [Option.bind_some, hself, if_neg (Nat.lt_irrefl _)]
  rw [skipModifier, List.findSome?_eq_none_iff.mpr fun k _ => hnone k]
  rfl

theorem test_skipModifier_cons (test : List Char → Bool) (k : String) (ks : List String)
    (cs : List Char) : test (skipModifier (k :: ks) cs) =
      (afterWordAndBlank? k cs).elim (test (skipModifier ks cs)) test := by
  rw [skipModifier, List.findSome?_cons]
  cases afterWordAndBlank? k cs <;> rfl

theorem IsSettled.skipModifier {test : List Char → Bool} (h : IsSettled more test)
    (hmore : ∀ c ∈ more, isBlank c = true) {keywords : List String}
    (hkeywords : ∀ k ∈ keywords, IsSolid k ∧ ∀ cs, cs.map foldLetter = k.toList → test cs = false) :
    IsSettled more fun cs => test (skipModifier keywords cs) where
  nil := by rw [skipModifier_of_not_blank (by simp), h.nil]
  append cs := by
    induction keywords generalizing cs with
    | nil => exact h.append cs
    | cons k ks ih =>
      obtain ⟨hk, hks⟩ := List.forall_mem_cons.mp hkeywords
      rw [test_skipModifier_cons test k ks, test_skipModifier_cons test k ks]
      refine h.elim_afterWordAndBlank? hmore hk.1 (fun cs => test (Script.skipModifier ks cs))
        (ih hks) (fun cs hcs => ?_) cs
      rw [skipModifier_of_not_blank (hk.1.not_blank hcs), hk.2 cs hcs]

/-! ## A `CREATE TABLE` at a place -/

/-- Whether a text begins with the word `TABLE`. -/
def tableAt (cs : List Char) : Bool :=
  (afterKeyword? "table".toList cs).elim false fun rest => !(rest.head?.map isWordChar).getD false

/-- Whether a text goes on with modifiers and the word `TABLE`. -/
def modifiedTableAt (cs : List Char) : Bool :=
  tableAt (skipModifier ["temp", "temporary", "unlogged"] (skipModifier ["global", "local"] cs))

theorem createTableAt_eq (before : Option Char) (cs : List Char) :
    createTableAt before cs = (!(before.map isWordChar).getD false &&
      (afterWordAndBlank? "create" cs).elim false modifiedTableAt) := by
  rw [createTableAt]
  cases afterWordAndBlank? "create" cs with
  | none => rfl
  | some rest =>
    simp only [Option.elim_some, modifiedTableAt, tableAt]
    cases afterKeyword? "table".toList _ <;> rfl

theorem isWordChar_of_isBlank {c : Char} (hc : isBlank c = true) : isWordChar c = false :=
  forall_blank (P := fun c => isWordChar c = false) (by decide +kernel) hc

theorem head?_isWordChar_append (hmore : ∀ c ∈ more, isBlank c = true) (cs : List Char) :
    ((cs ++ more).head?.map isWordChar).getD false = (cs.head?.map isWordChar).getD false := by
  cases cs with
  | nil =>
    cases more with
    | nil => rfl
    | cons c more => simp [isWordChar_of_isBlank (hmore c List.mem_cons_self)]
  | cons c cs => rfl

theorem isSettled_tableAt (hmore : ∀ c ∈ more, isBlank c = true) : IsSettled more tableAt where
  nil := rfl
  append cs := by
    rw [tableAt, tableAt, IsSolid.afterKeyword?_blanks (by decide) hmore]
    cases afterKeyword? "table".toList cs with
    | none => rfl
    | some rest => simp only [Option.map_some, Option.elim_some, head?_isWordChar_append hmore]

theorem tableAt_of_foldLetter {cs keyword : List Char} (hcs : cs.map foldLetter = keyword)
    (hkeyword : ¬"table".toList <+: keyword) : tableAt cs = false := by
  rw [tableAt]
  cases hrest : afterKeyword? "table".toList cs with
  | none => rfl
  | some rest =>
    obtain ⟨opening, rfl, hopening⟩ := afterKeyword?_eq_some_iff.mp hrest
    rw [List.map_append, hopening] at hcs
    exact absurd (hcs ▸ List.prefix_append _ _) hkeyword

theorem isSettled_modifiedTableAt (hmore : ∀ c ∈ more, isBlank c = true) :
    IsSettled more modifiedTableAt := by
  have htable := isSettled_tableAt hmore
  have hspecial : IsSettled more fun cs =>
      tableAt (skipModifier ["temp", "temporary", "unlogged"] cs) := by
    refine htable.skipModifier hmore ?_
    have hkeywords : ∀ k ∈ ["temp", "temporary", "unlogged"],
        IsSolid k ∧ ¬"table".toList <+: k.toList := by decide
    exact fun k hk => ⟨(hkeywords k hk).1, fun cs hcs =>
      tableAt_of_foldLetter hcs (hkeywords k hk).2⟩
  refine hspecial.skipModifier hmore ?_
  have hkeywords : ∀ k ∈ ["global", "local"], IsSolid k ∧ ¬"table".toList <+: k.toList := by decide
  intro k hk
  obtain ⟨hsolid, hprefix⟩ := hkeywords k hk
  refine ⟨hsolid, fun cs hcs => ?_⟩
  rw [skipModifier_of_not_blank (hsolid.not_blank hcs), tableAt_of_foldLetter hcs hprefix]

/-- Whether a `CREATE TABLE` begins at a place does not depend on blanks behind the text. -/
theorem createTableAt_blanks (hmore : ∀ c ∈ more, isBlank c = true) (before : Option Char)
    (cs : List Char) : createTableAt before (cs ++ more) = createTableAt before cs := by
  rw [createTableAt_eq, createTableAt_eq]
  congr 1
  exact (isSettled_modifiedTableAt hmore).elim_afterWordAndBlank? hmore (by decide)
    (fun _ => false) (fun _ => rfl) (fun _ _ => rfl) cs

/-- No `CREATE TABLE` begins with a blank. -/
theorem createTableAt_of_isBlank {c : Char} (hc : isBlank c = true) (before : Option Char)
    (cs : List Char) : createTableAt before (c :: cs) = false := by
  have hfold : foldLetter c ≠ 'c' := by
    rw [foldLetter_of_isBlank hc]
    rintro rfl
    revert hc
    decide
  have hnone : afterKeyword? "create".toList (c :: cs) = none := if_neg hfold
  rw [createTableAt_eq, afterWordAndBlank?, hnone]
  exact Bool.and_false _

/-! ## Chunks -/

theorem holdsCreateTable_of_isBlank (hmore : ∀ c ∈ more, isBlank c = true) (before : Option Char) :
    holdsCreateTable before more = false := by
  induction more generalizing before with
  | nil => rfl
  | cons c more ih =>
    rw [holdsCreateTable, createTableAt_of_isBlank (hmore c List.mem_cons_self)]
    exact ih (fun d hd => hmore d (List.mem_cons_of_mem c hd)) (some c)

theorem holdsCreateTable_blanks (hmore : ∀ c ∈ more, isBlank c = true) (before : Option Char)
    (cs : List Char) : holdsCreateTable before (cs ++ more) = holdsCreateTable before cs := by
  induction cs generalizing before with
  | nil => exact holdsCreateTable_of_isBlank hmore before
  | cons c cs ih =>
    have hat := createTableAt_blanks hmore before (c :: cs)
    rw [List.cons_append, holdsCreateTable, holdsCreateTable, ih, ← List.cons_append, hat]

/-- Blanks behind a text belong to its last chunk. -/
theorem chunks_append_blanks (hmore : ∀ c ∈ more, isBlank c = true) (cs : List Char) :
    chunks (cs ++ more) = extendLast more (chunks cs) :=
  chunks_extend (fun before cs => createTableAt_blanks hmore before cs)
    (fun before => holdsCreateTable_of_isBlank hmore before) cs

/-- Blanks before a text belong to no chunk. -/
theorem chunks_blanks_append (hmore : ∀ c ∈ more, isBlank c = true) (cs : List Char) :
    chunks (more ++ cs) = chunks cs := by
  have hedge : ∀ before : Option Char, (before.map isWordChar).getD false = false →
      cutAtCreateTable before cs = cutAtCreateTable none cs := by
    intro before hbefore
    cases cs with
    | nil => rfl
    | cons c cs => rw [cutAtCreateTable, cutAtCreateTable, createTableAt_of_edge hbefore]
  have hcut : ∀ before : Option Char, (before.map isWordChar).getD false = false →
      (cutAtCreateTable before (more ++ cs)).2 = (cutAtCreateTable none cs).2 := by
    induction more with
    | nil => exact fun before hbefore => congrArg Prod.snd (hedge before hbefore)
    | cons c more ih =>
      intro before hbefore
      have hc := hmore c List.mem_cons_self
      rw [List.cons_append, cutAtCreateTable, createTableAt_of_isBlank hc]
      exact ih (fun d hd => hmore d (List.mem_cons_of_mem c hd)) (some c) (isWordChar_of_isBlank hc)
  exact hcut none rfl

end Schemata.Script
