import Mathlib.Tactic
import Schemata.Proofs.Definition.Contents
import Schemata.Proofs.Text.Recased
import Schemata.Proofs.Text.WholeWord

/-!
# The wording of definitions

The definition of a table is made of ASCII words with blanks, parentheses and commas between them.
Beside its names, its words are those that its dialect has for types and constraints.
-/
namespace Schemata

open Text

/-- The characters between the words of a definition. -/
def isDefinitionMark (c : Char) : Bool := c ∈ [' ', '\n', '(', ')', ',']

/-- Whether a text is worded as definitions are, without one of the given keywords in any case. -/
def Avoids (keywords : List (List Char)) (cs : List Char) : Prop :=
  (∀ c ∈ cs, Plain.isWordChar c = true ∨ isDefinitionMark c = true) ∧
    ∀ word ∈ cs.splitOnP (!isWordChar ·), word.map foldLetter ∉ keywords

theorem avoids_iff (keywords : List (List Char)) (cs : List Char) : Avoids keywords cs ↔
    cs.all (fun c => Plain.isWordChar c || isDefinitionMark c) = true ∧
      (cs.splitOnP (!isWordChar ·)).all (fun word => !keywords.contains (word.map foldLetter)) =
        true := by
  simp only [Avoids, List.all_eq_true, Bool.or_eq_true, Bool.not_eq_true', List.contains_eq_mem,
    decide_eq_false_iff_not]

instance (keywords : List (List Char)) : DecidablePred (Avoids keywords) := fun cs =>
  decidable_of_iff' _ (avoids_iff keywords cs)

variable {keywords : List (List Char)} {as bs sep : List Char} {c : Char}

/-! ## Texts -/

theorem isWordChar_of_plain (h : Plain.isWordChar c = true) : isWordChar c = true := by
  rw [Plain.isWordChar, Bool.or_eq_true, decide_eq_true_eq] at h
  rcases h with rfl | h
  · rfl
  · rw [isWordChar, isAlphanumeric_of_isAlphanum h, Bool.or_true]

theorem isWordChar_of_mark (h : isDefinitionMark c = true) : isWordChar c = false := by
  have hc := of_decide_eq_true h
  simp only [List.mem_cons, List.not_mem_nil, or_false] at hc
  rcases hc with rfl | rfl | rfl | rfl | rfl <;> decide

namespace Avoids

theorem word (h : ∀ c ∈ as, Plain.isWordChar c = true) (hword : as.map foldLetter ∉ keywords) :
    Avoids keywords as := by
  refine ⟨fun c hc => .inl (h c hc), ?_⟩
  rw [List.splitOnP_eq_singleton fun c hc => by simp [isWordChar_of_plain (h c hc)]]
  simpa using hword

theorem nil (hks : ∀ k ∈ keywords, IsKeyword k) : Avoids keywords [] :=
  word (List.forall_mem_nil _) fun hmem => (hks _ hmem).ne_nil rfl

theorem append_cons (hc : isDefinitionMark c = true) (ha : Avoids keywords as)
    (hb : Avoids keywords bs) : Avoids keywords (as ++ c :: bs) := by
  constructor
  · intro d hd
    rcases List.mem_append.mp hd with hd | hd
    · exact ha.1 d hd
    · rcases List.mem_cons.mp hd with rfl | hd
      · exact .inr hc
      · exact hb.1 d hd
  · rw [List.splitOnP_append_cons as bs (by simp [isWordChar_of_mark hc])]
    intro word hword
    exact (List.mem_append.mp hword).elim (ha.2 word) (hb.2 word)

theorem cons (hks : ∀ k ∈ keywords, IsKeyword k) (hc : isDefinitionMark c = true)
    (hb : Avoids keywords bs) : Avoids keywords (c :: bs) :=
  append_cons hc (nil hks) hb

/-- Some marks between two texts, and at least one. -/
theorem append_marks (hks : ∀ k ∈ keywords, IsKeyword k)
    (hsep : sep.all isDefinitionMark = true) (hne : sep ≠ []) (ha : Avoids keywords as)
    (hb : Avoids keywords bs) : Avoids keywords (as ++ sep ++ bs) := by
  induction sep generalizing as with
  | nil => exact absurd rfl hne
  | cons c sep ih =>
    -- between two marks stands the empty text, which is no keyword
    obtain ⟨hc, hsep⟩ := (Bool.and_eq_true _ _).mp hsep
    rw [List.append_assoc, List.cons_append]
    refine append_cons hc ha ?_
    by_cases hsep' : sep = []
    · rwa [hsep', List.nil_append]
    · exact ih hsep hsep' (nil hks)

theorem intercalate (hks : ∀ k ∈ keywords, IsKeyword k)
    (hsep : sep.all isDefinitionMark = true) (hne : sep ≠ []) {parts : List (List Char)}
    (h : ∀ part ∈ parts, Avoids keywords part) : Avoids keywords (sep.intercalate parts) := by
  induction parts with
  | nil => exact nil hks
  | cons part parts ih =>
    cases parts with
    | nil => simpa using h part List.mem_cons_self
    | cons next parts =>
      rw [List.intercalate_cons_cons]
      exact append_marks hks hsep hne (h part List.mem_cons_self)
        (ih fun p hp => h p (List.mem_cons_of_mem part hp))

/-- Such a text has none of the keywords as a whole word. -/
theorem hasWholeWord (hks : ∀ k ∈ keywords, IsKeyword k) (h : Avoids keywords as) :
    hasWholeWord keywords none as = false := by
  rw [Bool.eq_false_iff, ne_eq, hasWholeWord_iff hks]
  rintro ⟨word, hword, hmem⟩
  exact h.2 word hword hmem

end Avoids

/-! ## Names -/

namespace Text

/-- Whether a name has the form `[A-Za-z_][A-Za-z0-9_]*`. -/
def isAsciiIdentifier (name : String) : Bool :=
  match name.toList with
  | [] => false
  | c :: cs => !c.isDigit && (c :: cs).all Plain.isWordChar

theorem isWordChar_of_isAsciiIdentifier {name : String} (h : isAsciiIdentifier name = true) :
    ∀ c ∈ name.toList, Plain.isWordChar c = true := by
  rw [isAsciiIdentifier] at h
  split at h
  · exact absurd h Bool.false_ne_true
  · rename_i c cs heq
    rw [heq]
    exact List.all_eq_true.mp ((Bool.and_eq_true _ _).mp h).2

end Text

/-- The words that a dialect does not know for a key that numbers its rows. -/
def Dialect.foreignWords : Dialect → List (List Char)
  | .mysql => ["bigserial".toList, "serial".toList]
  | _ => ["auto_increment".toList]

theorem Dialect.isKeyword_foreignWords (d : Dialect) : ∀ k ∈ d.foreignWords, IsKeyword k := by
  intro k hk
  cases d <;> simp only [foreignWords, List.mem_cons, List.not_mem_nil, or_false] at hk <;>
    rcases hk with rfl | rfl <;> exact ⟨by decide, List.all_eq_true.mp (by decide)⟩

/-- An ASCII identifier that is no word for a key which numbers its rows, in any dialect and in any
case. -/
structure IsSafeName (name : String) : Prop where
  identifier : isAsciiIdentifier name = true
  foreign : ∀ k ∈ ["AUTO_INCREMENT", "SERIAL", "BIGSERIAL"], ¬SameButCase name k

instance : DecidablePred IsSafeName := fun name =>
  decidable_of_iff (isAsciiIdentifier name = true ∧
    ∀ k ∈ ["AUTO_INCREMENT", "SERIAL", "BIGSERIAL"], ¬SameButCase name k)
    ⟨fun h => ⟨h.1, h.2⟩, fun h => ⟨h.identifier, h.foreign⟩⟩

/-- All names that a script is written with are safe. -/
structure Schema.SafelyNamed (s : Schema) : Prop where
  tables : ∀ t ∈ s.tables, IsSafeName t.name
  fields : ∀ t ∈ s.tables, ∀ f ∈ t.fields, IsSafeName f.name
  links : ∀ r ∈ s.relationships, IsSafeName r.toTable ∧ IsSafeName r.toField

instance : DecidablePred Schema.SafelyNamed := fun s =>
  decidable_of_iff ((∀ t ∈ s.tables, IsSafeName t.name ∧ ∀ f ∈ t.fields, IsSafeName f.name) ∧
    ∀ r ∈ s.relationships, IsSafeName r.toTable ∧ IsSafeName r.toField)
    ⟨fun h => ⟨fun t ht => (h.1 t ht).1, fun t ht => (h.1 t ht).2, h.2⟩,
      fun h => ⟨fun t ht => ⟨h.tables t ht, h.fields t ht⟩, h.links⟩⟩

theorem foldLetter_of_plain (h : Plain.isWordChar c = true) : foldLetter c = asciiLower c := by
  have hascii : isAscii c = true := by
    rw [Plain.isWordChar, Bool.or_eq_true, decide_eq_true_eq] at h
    rcases h with rfl | h
    · rfl
    · exact isAscii_of_isAlphanum h
  rw [foldLetter, if_pos hascii]

theorem IsSafeName.avoids {name : String} (h : IsSafeName name) (d : Dialect) :
    Avoids d.foreignWords name.toList := by
  have hchars := isWordChar_of_isAsciiIdentifier h.identifier
  have hfold : name.toList.map foldLetter = asciiLowerText name.toList :=
    List.map_congr_left fun c hc => foldLetter_of_plain (hchars c hc)
  refine .word hchars fun hmem => ?_
  rw [hfold] at hmem
  have hsmall : ∀ k ∈ d.foreignWords,
      ∃ word ∈ ["AUTO_INCREMENT", "SERIAL", "BIGSERIAL"], asciiLowerText word.toList = k := by
    cases d <;> decide
  obtain ⟨word, hword, hsame⟩ := hsmall _ hmem
  exact h.foreign word hword hsame.symm

/-! ## Definitions -/

section Definitions

variable {s : Schema} {t : Table} {f : Field}

theorem avoids_typeDefinition (htype : ∃ l : LogicalType, f.type = l.name) (d : Dialect) :
    Avoids d.foreignWords (f.typeDefinition d.spelling).toList := by
  obtain ⟨l, hl⟩ := htype
  rw [Field.typeDefinition_eq hl]
  cases d <;> cases l <;> cases f.primaryKey <;> decide +kernel

theorem avoids_foreignKey {r : Relationship} (h : IsSafeName r.toTable ∧ IsSafeName r.toField)
    (d : Dialect) : Avoids d.foreignWords (d.spelling.foreignKey r.toTable r.toField).toList := by
  have hword : Avoids d.foreignWords "REFERENCES".toList := by cases d <;> decide +kernel
  rw [toList_foreignKey]
  exact .append_cons rfl hword (.append_cons rfl (h.1.avoids d)
    (.append_cons rfl (h.2.avoids d) (.nil d.isKeyword_foreignWords)))

theorem avoids_definition (hname : IsSafeName f.name)
    (htype : ∃ l : LogicalType, f.type = l.name) (d : Dialect) {link : Option Relationship}
    (hlink : ∀ r, link = some r → IsSafeName r.toTable ∧ IsSafeName r.toField) :
    Avoids d.foreignWords (f.definition d.spelling link).toList := by
  have hnull : Avoids d.foreignWords d.spelling.notNull.toList := by cases d <;> decide +kernel
  rw [Field.definition, String.toList_intercalate]
  refine .intercalate d.isKeyword_foreignWords (by decide) (by decide) fun text htext => ?_
  obtain ⟨part, hpart, rfl⟩ := List.mem_map.mp htext
  rw [Field.definitionParts] at hpart
  simp only [List.mem_append, List.mem_cons, List.not_mem_nil, or_false, Option.mem_toList,
    Option.map_eq_some_iff] at hpart
  rcases hpart with ((rfl | rfl) | hpart) | ⟨r, hr, rfl⟩
  · exact hname.avoids d
  · exact avoids_typeDefinition htype d
  · split_ifs at hpart with hkey
    · rwa [List.mem_singleton.mp hpart]
    · cases hpart
  · exact avoids_foreignKey (hlink r hr) d

namespace Schema

/-- The statement that creates a table, without its semicolon. -/
def tableStatement (s : Schema) (d : Dialect) (t : Table) : List Char :=
  "CREATE TABLE IF NOT EXISTS".toList ++ ' ' :: (t.name.toList ++ ' ' :: '(' :: '\n' ::
    ([',', '\n'].intercalate ((t.fields.map (s.columnLine d t.name)).map String.toList) ++
      '\n' :: [')']))

theorem toList_tableDefinition_eq (s : Schema) (d : Dialect) (t : Table) :
    (s.tableDefinition d t).toList = s.tableStatement d t ++ [';'] := by
  rw [toList_tableDefinition]
  unfold tableStatement
  simp only [List.append_assoc, List.cons_append, List.nil_append]

theorem avoids_columnLine (h : s.SafelyNamed) (ht : t ∈ s.tables) (hf : f ∈ t.fields)
    (htype : ∃ l : LogicalType, f.type = l.name) (d : Dialect) :
    Avoids d.foreignWords (s.columnLine d t.name f).toList := by
  have hlink : ∀ r, s.relationship? t.name f.name = some r →
      IsSafeName r.toTable ∧ IsSafeName r.toField := fun r hr =>
    h.links r (List.mem_of_find?_eq_some hr)
  have hline : (s.columnLine d t.name f).toList =
      [] ++ [' ', ' ', ' ', ' '] ++ (s.columnDefinition d t.name f).toList := by
    rw [columnLine, String.toList_append]
    rfl
  rw [hline]
  exact .append_marks d.isKeyword_foreignWords (by decide) (by decide)
    (.nil d.isKeyword_foreignWords) (avoids_definition (h.fields t ht f hf) htype d hlink)

/-- The statement of a table is worded without what its dialect does not know. -/
theorem avoids_tableStatement (h : s.SafelyNamed) (ht : t ∈ s.tables)
    (htypes : ∀ f ∈ t.fields, ∃ l : LogicalType, f.type = l.name) (d : Dialect) :
    Avoids d.foreignWords (s.tableStatement d t) := by
  have hks := d.isKeyword_foreignWords
  have hhead : Avoids d.foreignWords "CREATE TABLE IF NOT EXISTS".toList := by
    cases d <;> decide +kernel
  have hbody : Avoids d.foreignWords ([',', '\n'].intercalate
      ((t.fields.map (s.columnLine d t.name)).map String.toList)) := by
    refine .intercalate hks (by decide) (by decide) fun part hpart => ?_
    obtain ⟨line, hline, rfl⟩ := List.mem_map.mp hpart
    obtain ⟨f, hf, rfl⟩ := List.mem_map.mp hline
    exact avoids_columnLine h ht hf (htypes f hf) d
  have hend : Avoids d.foreignWords [')'] := .cons hks rfl (.nil hks)
  have hrows := Avoids.append_cons (c := '\n') rfl hbody hend
  have hopen := Avoids.cons (c := '(') hks rfl (.cons (c := '\n') hks rfl hrows)
  unfold tableStatement
  exact .append_cons rfl hhead (.append_cons rfl ((h.tables t ht).avoids d) hopen)

end Schema

end Definitions

end Schemata
