import Mathlib.Data.List.Basic
import Mathlib.Tactic
import Schemata.Proofs.Definition.Contents
import Schemata.Proofs.Lexer.Words

/-!
# Scripts as the dialects read them

The lexical rules of every dialect read the script of a plainly named schema plainly: names open no
keyword with the types behind them, and no command stands where one could open.
-/
namespace Schemata.Lexer

open Text

/-- The words that types are spelled with. -/
def typeWords : Dialect → List String
  | .postgresql => ["SERIAL", "INTEGER", "TEXT", "BOOLEAN", "TIMESTAMP", "DECIMAL", "UUID", "JSON"]
  | .mysql => ["INT", "TEXT", "BOOLEAN", "TIMESTAMP", "DECIMAL", "UUID", "JSON"]
  | .sqlite => ["INTEGER", "TEXT", "REAL", "UUID", "JSON"]

/-- The other words of a definition that are tokens of their own. -/
def plainWords : List String :=
  ["CREATE", "TABLE", "IF", "NOT", "EXISTS", "NULL", "REFERENCES", "AUTO_INCREMENT",
    "AUTOINCREMENT"]

theorem columnWord_mem (l : LogicalType) (d : Dialect) (key : Bool) :
    l.columnWord d key ∈ typeWords d := by
  cases l <;> cases d <;> cases key <;> decide

variable {d : Dialect} {opening : Bool} {rest : List Char} {xs : List Content} {e : Char}

theorem word_of_mem_words {w : String} (hw : w ∈ plainWords ++ typeWords d) :
    (∀ c ∈ w.toList, Plain.isWordChar c = true) ∧
      ∃ c cs, w.toList = c :: cs ∧ c.isDigit = false := by
  have hall : ∀ w ∈ plainWords ++ typeWords d, w.toList.all Plain.isWordChar = true ∧
      w.toList ≠ [] ∧ (w.toList.headD '0').isDigit = false := by
    cases d <;> decide
  obtain ⟨hword, hne, hdigit⟩ := hall w hw
  refine ⟨List.all_eq_true.mp hword, ?_⟩
  cases hlist : w.toList with
  | nil => exact absurd hlist hne
  | cons c cs => exact ⟨c, cs, rfl, by simpa [hlist] using hdigit⟩

theorem separator_cases (he : e ∈ separators) : e ∈ [' ', '\n'] ∨ e ∈ ['(', ')', ',', ';'] := by
  revert he
  simp only [separators, List.mem_cons, List.not_mem_nil, or_false]
  tauto

/-! ## Words of a definition -/

theorem reads_definitionWord (w : String) (hw : w ∈ plainWords ++ typeWords d) (he : e ∈ separators)
    (h : Reads d.lexicon false (e :: rest) xs) :
    Reads d.lexicon opening (w.toList ++ e :: rest) (Content.word w :: xs) := by
  obtain ⟨hword, hstart⟩ := word_of_mem_words hw
  have hall : ∀ w ∈ plainWords ++ typeWords d, roleOf d.lexicon w.toList = .plain ∧
      ∀ p ∈ phrases d, p.1 ≠ w.toList.map asciiUpper := by
    cases d <;> decide
  obtain ⟨hrole, hphrase⟩ := hall w hw
  have hopen : ∀ o ∈ d.lexicon.openings, opens false o (w.toList ++ e :: rest) = false := by
    rcases separator_cases he with hblank | hmark
    · exact fun o ho => opens_before_blank hword hblank
        (fun p hp hfirst => absurd hfirst (hphrase p hp)) ho
    · exact fun o ho => opens_before_mark hword hmark ho
  have hread : Reads d.lexicon opening (w.toList ++ e :: rest)
      (Content.word (String.ofList w.toList) :: xs) := reads_word hword hstart ⟨e, he, rfl⟩ hopen
    (fun _ => by rw [hrole]; decide) (by rw [hrole]; exact h)
  rwa [String.ofList_toList] at hread

/-! ## Names -/

theorem word_of_isIdentifier {name : String} (h : isIdentifier name = true) :
    (∀ c ∈ name.toList, Plain.isWordChar c = true) ∧
      ∃ c cs, name.toList = c :: cs ∧ c.isDigit = false := by
  refine ⟨fun c hc => Plain.isWordChar_of_isIdentifierChar (isIdentifierChar_of_mem h hc), ?_⟩
  rw [isIdentifier] at h
  cases hlist : name.toList with
  | nil => simp [hlist] at h
  | cons c cs =>
    simp only [hlist, Bool.and_eq_true] at h
    have hascii : isAscii c = true :=
      isAscii_of_isIdentifierChar (by rw [isIdentifierChar, h.1]; rfl)
    exact ⟨c, cs, rfl, forall_ascii (P := fun c => isIdentifierStart c = true → c.isDigit = false)
      (by decide) hascii h.1⟩

theorem reads_name {name : String} (hid : isIdentifier name = true) (he : e ∈ separators)
    (hopen : ∀ o ∈ d.lexicon.openings, opens false o (name.toList ++ e :: rest) = false)
    (h : Reads d.lexicon true (e :: rest) xs) :
    Reads d.lexicon false (name.toList ++ e :: rest) (Content.word name :: xs) := by
  obtain ⟨hword, hstart⟩ := word_of_isIdentifier hid
  have hread : Reads d.lexicon false (name.toList ++ e :: rest)
      (Content.word (String.ofList name.toList) :: xs) :=
    reads_word hword hstart ⟨e, he, rfl⟩ hopen (fun h => absurd h Bool.false_ne_true) h.weaken
  rwa [String.ofList_toList] at hread

theorem reads_name_mark {name : String} (hid : isIdentifier name = true)
    (he : e ∈ ['(', ')', ',', ';']) (h : Reads d.lexicon true (e :: rest) xs) :
    Reads d.lexicon false (name.toList ++ e :: rest) (Content.word name :: xs) := by
  have hsep : e ∈ separators := by fin_cases he <;> decide
  exact reads_name hid hsep
    (fun o ho => opens_before_mark (word_of_isIdentifier hid).1 he ho) h

/-- The name of a table stands before its body. -/
theorem reads_tableName {name : String} (hid : isIdentifier name = true)
    (h : Reads d.lexicon true (' ' :: '(' :: rest) xs) :
    Reads d.lexicon false (name.toList ++ ' ' :: '(' :: rest) (Content.word name :: xs) := by
  refine reads_name hid (by decide) (fun o ho => ?_) h
  refine opens_before_blank (word_of_isIdentifier hid).1 (by decide) (fun p hp _ => ?_) ho
  exact opens_second_mark (word_of_mem_phrases d hp).2 (by decide) (by decide)

/-- The name of a column stands before its type, which completes no keyword. -/
theorem reads_columnName {name t : String} (hid : isIdentifier name = true) (ht : t ∈ typeWords d)
    (he : e ∈ separators) (h : Reads d.lexicon true (' ' :: (t.toList ++ e :: rest)) xs) :
    Reads d.lexicon false (name.toList ++ ' ' :: (t.toList ++ e :: rest))
      (Content.word name :: xs) := by
  obtain ⟨hword, c, cs, hcons, -⟩ := word_of_mem_words (List.mem_append_right plainWords ht)
  have hsep : Plain.isWordChar e = false := by
    revert he
    simp only [separators]
    intro he
    fin_cases he <;> decide
  refine reads_name hid (by decide) (fun o ho => ?_) h
  refine opens_before_blank (word_of_isIdentifier hid).1 (by decide) (fun p hp _ => ?_) ho
  have hmiss : ∀ p ∈ phrases d, ∀ t ∈ typeWords d, ¬p.2 <+: t.toList.map asciiUpper := by
    cases d <;> decide
  have hne : t.toList ≠ [] := by
    rw [hcons]
    exact List.cons_ne_nil c cs
  exact opens_second_word (word_of_mem_phrases d hp).2 hword hne hsep (hmiss p hp t ht)

/-! ## Columns -/

/-- A text that is read as given and begins with what may stand after a part of a column. -/
structure Follows (d : Dialect) (text : List Char) (xs : List Content) : Prop where
  reads : Reads d.lexicon false text xs
  head : ∃ e ∈ [' ', '\n', ','], ∃ rest, text = e :: rest

variable {text : List Char}

theorem Follows.separator (h : Follows d text xs) :
    ∃ e ∈ separators, ∃ rest, text = e :: rest := by
  obtain ⟨e, he, rest, rfl⟩ := h.head
  exact ⟨e, by fin_cases he <;> decide, rest, rfl⟩

theorem Follows.plainWord (w : String) (hw : w ∈ plainWords) (h : Follows d text xs) :
    Follows d (' ' :: (w.toList ++ text)) (Content.word w :: xs) := by
  obtain ⟨e, he, rest, rfl⟩ := h.separator
  have hread : Reads d.lexicon false (w.toList ++ e :: rest) (Content.word w :: xs) :=
    reads_definitionWord w (List.mem_append_left _ hw) he h.reads
  exact ⟨reads_space hread, ' ', by decide, _, rfl⟩

theorem Follows.primaryKey (h : Follows d text xs) :
    Follows d (' ' :: ("PRIMARY KEY".toList ++ text))
      (Content.word "PRIMARY" :: Content.word "KEY" :: xs) := by
  obtain ⟨e, he, rest, rfl⟩ := h.head
  exact ⟨reads_space (reads_primaryKey he h.reads), ' ', by decide, _, rfl⟩

theorem Follows.keyWords (l : LogicalType) (key : Bool) (h : Follows d text xs) :
    Follows d ((l.keyWords d key).flatMap (fun w => ' ' :: w.toList) ++ text)
      ((l.keyWords d key).map Content.word ++ xs) := by
  have hshape : l.keyWords d key = [] ∨ l.keyWords d key = ["PRIMARY", "KEY"] ∨
      l.keyWords d key = ["AUTO_INCREMENT", "PRIMARY", "KEY"] ∨
      l.keyWords d key = ["PRIMARY", "KEY", "AUTOINCREMENT"] := by
    cases l <;> cases d <;> cases key <;> decide
  rcases hshape with hs | hs | hs | hs <;> rw [hs]
  · exact h
  · exact h.primaryKey
  · exact h.primaryKey.plainWord "AUTO_INCREMENT" (by decide)
  · exact (h.plainWord "AUTOINCREMENT" (by decide)).primaryKey

theorem Follows.notNull (b : Bool) (h : Follows d text xs) :
    Follows d ((if b then [d.spelling.notNull] else []).flatMap (fun part => ' ' :: part.toList) ++
      text) ((if b then [Content.word "NOT", Content.word "NULL"] else []) ++ xs) := by
  cases b with
  | false => exact h
  | true =>
    have htext : d.spelling.notNull = "NOT NULL" := by cases d <;> rfl
    rw [if_pos rfl, if_pos rfl, htext]
    exact (h.plainWord "NULL" (by decide)).plainWord "NOT" (by decide)

theorem Follows.reference {r : Reference}
    (hr : isIdentifier r.table = true ∧ isIdentifier r.column = true) (h : Follows d text xs) :
    Follows d (' ' :: ((d.spelling.foreignKey r.table r.column).toList ++ text))
      (r.contents ++ xs) := by
  have hclose : Reads d.lexicon true (')' :: text) (Content.mark ")" :: xs) :=
    reads_mark (by decide) h.reads
  have hopen : Reads d.lexicon true ('(' :: (r.column.toList ++ ')' :: text))
      (Content.mark "(" :: Content.word r.column :: Content.mark ")" :: xs) :=
    reads_mark (by decide) (reads_name_mark hr.2 (by decide) hclose)
  have htable := reads_name_mark hr.1 (by decide) hopen
  have hspace : Follows d (' ' :: (r.table.toList ++ '(' :: (r.column.toList ++ ')' :: text)))
      (Content.word r.table :: Content.mark "(" :: Content.word r.column :: Content.mark ")" ::
        xs) :=
    ⟨reads_space htable, ' ', by decide, _, rfl⟩
  rw [Schemata.toList_foreignKey, List.append_assoc, List.cons_append, List.append_assoc,
    List.cons_append, List.append_assoc]
  exact hspace.plainWord "REFERENCES" (by decide)

/-- A column is read before whatever follows it. -/
theorem Follows.definition {f : Field} {link : Option Relationship}
    (htype : ∃ l : LogicalType, f.type = l.name) (hname : isIdentifier f.name = true)
    (hlink : link.map (·.target) = f.foreignKey)
    (href : ∀ r, f.foreignKey = some r → isIdentifier r.table = true ∧ isIdentifier r.column = true)
    (h : Follows d text xs) :
    Reads d.lexicon false ((f.definition d.spelling link).toList ++ text) (f.contents d ++ xs) := by
  have hlast : Follows d
      ((link.map fun r => d.spelling.foreignKey r.toTable r.toField).toList.flatMap
        (fun part => ' ' :: part.toList) ++ text)
      ((f.foreignKey.map Reference.contents).getD [] ++ xs) := by
    cases link with
    | none =>
      rw [← hlink]
      exact h
    | some r =>
      have hr := href r.target hlink.symm
      have hread := h.reference hr
      rw [show d.spelling.foreignKey r.target.table r.target.column =
        d.spelling.foreignKey r.toTable r.toField from rfl] at hread
      simpa [← hlink] using hread
  have hmiddle := (hlast.notNull (!f.nullable && !f.primaryKey)).keyWords f.logicalType f.primaryKey
  obtain ⟨e, he, rest, htail⟩ := hmiddle.separator
  have htypeWord := columnWord_mem f.logicalType d f.primaryKey
  have hread := hmiddle.reads
  rw [htail] at hread
  have hcolumn := reads_columnName hname htypeWord he
    (reads_space (reads_definitionWord _ (List.mem_append_right _ htypeWord) he hread))
  rw [← htail] at hcolumn
  rw [Field.definition, Field.definitionParts, List.cons_append, List.cons_append,
    Schemata.toList_spaced, List.flatMap_append, List.flatMap_append, List.flatMap_singleton,
    Field.typeDefinition_eq (Field.logicalType_name htype), Schemata.toList_spaced]
  rw [Field.contents, Field.constraintContents]
  simpa only [List.append_assoc, List.cons_append] using hcolumn

/-! ## Tables -/

variable {s : Schema} {t : Table}

theorem reads_columnLine (h : s.WellFormed) (ht : t ∈ s.tables) (hn : t.PlainlyNamed) {f : Field}
    (hf : f ∈ t.fields) (htext : Follows d text xs) :
    Reads d.lexicon false ((s.columnLine d t.name f).toList ++ text) (f.contents d ++ xs) := by
  have hlink := h.distinctNames.target_relationship? h.consistent ht hf
  have hline : (s.columnLine d t.name f).toList =
      ' ' :: ' ' :: ' ' :: ' ' :: (s.columnDefinition d t.name f).toList := by
    rw [Schema.columnLine, String.toList_append]
    rfl
  have hread := htext.definition ((h.tables t ht).types f hf) (hn.fields f hf).1 hlink
    (hn.references f hf)
  rw [hline]
  exact reads_space (reads_space (reads_space (reads_space hread)))

/-- Columns are read one after the other, each before the comma or the line break behind it. -/
theorem reads_body {fs : List Field} {line : Field → List Char}
    (hline : ∀ f ∈ fs, ∀ text xs, Follows d text xs →
      Reads d.lexicon false (line f ++ text) (f.contents d ++ xs))
    (hne : fs ≠ []) (h : Follows d text xs) :
    Reads d.lexicon false ([',', '\n'].intercalate (fs.map line) ++ text)
      ([Content.mark ","].intercalate (fs.map (·.contents d)) ++ xs) := by
  induction fs with
  | nil => exact absurd rfl hne
  | cons f fs ih =>
    cases fs with
    | nil => simpa using hline f List.mem_cons_self text xs h
    | cons g fs =>
      have hrest := ih (fun g hg => hline g (List.mem_cons_of_mem f hg)) (List.cons_ne_nil g fs)
      have hcomma : Follows d
          (',' :: '\n' :: ([',', '\n'].intercalate ((g :: fs).map line) ++ text))
          (Content.mark "," ::
            ([Content.mark ","].intercalate ((g :: fs).map (·.contents d)) ++ xs)) :=
        ⟨reads_mark (by decide) (reads_line hrest), ',', by decide, _, rfl⟩
      have hfirst := hline f List.mem_cons_self _ _ hcomma
      simp only [List.map_cons, List.intercalate_cons_cons] at hfirst ⊢
      simpa only [List.append_assoc, List.cons_append, List.nil_append] using hfirst

theorem reads_tableDefinition (h : s.WellFormed) (ht : t ∈ s.tables) (hn : t.PlainlyNamed)
    (hne : t.fields ≠ []) (hrest : Reads d.lexicon true rest xs) :
    Reads d.lexicon true ((s.tableDefinition d t).toList ++ rest) (t.contents d ++ xs) := by
  have hlast : Follows d ('\n' :: ')' :: ';' :: rest)
      (Content.mark ")" :: Content.mark ";" :: xs) :=
    ⟨reads_line (reads_mark (by decide) (reads_mark (by decide) hrest)), '\n', by decide, _, rfl⟩
  have hbody := reads_body (fun f hf _ _ htext => reads_columnLine h ht hn hf htext) hne hlast
  have hname := reads_tableName hn.name.1
    (reads_space (reads_mark (by decide) (reads_line hbody)))
  have hspace : Follows d (' ' :: (t.name.toList ++ ' ' :: '(' :: '\n' :: _)) _ :=
    ⟨reads_space hname, ' ', by decide, _, rfl⟩
  have hguard := ((hspace.plainWord "EXISTS" (by decide)).plainWord "NOT" (by decide)).plainWord
    "IF" (by decide)
  have htable := hguard.plainWord "TABLE" (by decide)
  have hread : Reads d.lexicon true ("CREATE".toList ++ ' ' :: _) _ :=
    reads_definitionWord "CREATE" (List.mem_append_left _ (by decide)) (by decide) htable.reads
  have htext : (s.tableDefinition d t).toList ++ rest =
      "CREATE TABLE IF NOT EXISTS".toList ++ ' ' :: (t.name.toList ++ ' ' :: '(' :: '\n' ::
        ([',', '\n'].intercalate (t.fields.map fun f => (s.columnLine d t.name f).toList) ++
          '\n' :: ')' :: ';' :: rest)) := by
    rw [Schema.toList_tableDefinition, List.map_map]
    simp only [List.append_assoc, List.cons_append, List.nil_append]
    rfl
  have hcontents : t.contents d ++ xs =
      [Content.word "CREATE", Content.word "TABLE", Content.word "IF", Content.word "NOT",
        Content.word "EXISTS", Content.word t.name, Content.mark "("] ++ (t.bodyContents d ++
          Content.mark ")" :: Content.mark ";" :: xs) := by
    simp only [Table.contents, Table.statementContents, List.append_assoc, List.cons_append,
      List.nil_append]
  rw [htext, hcontents]
  exact hread

/-- Definitions of tables are read one after the other, with an empty line between them. -/
theorem reads_tables (h : s.WellFormed) (hn : s.PlainlyNamed) {ts : List Table}
    (hts : ∀ t ∈ ts, t ∈ s.creatable) :
    Reads d.lexicon true (['\n', '\n'].intercalate
      ((ts.map (s.tableDefinition d)).map String.toList)) (ts.flatMap (·.contents d)) := by
  induction ts with
  | nil => exact reads_nil
  | cons t ts ih =>
    have ht := hts t List.mem_cons_self
    have ht' : t ∈ s.tables := List.mem_of_mem_filter ht
    have hne : t.fields ≠ [] := of_decide_eq_true (List.mem_filter.mp ht).2
    have hrest := ih fun u hu => hts u (List.mem_cons_of_mem t hu)
    cases ts with
    | nil => simpa using reads_tableDefinition h ht' (hn t ht') hne (reads_nil (l := d.lexicon))
    | cons u ts =>
      have hread := reads_tableDefinition h ht' (hn t ht') hne (reads_line (reads_line hrest))
      simp only [List.map_cons, List.intercalate_cons_cons, List.flatMap_cons] at hread ⊢
      simpa only [List.append_assoc, List.cons_append, List.nil_append] using hread

/-- The script of a plainly named schema is read plainly in its own dialect. -/
theorem readsPlainly_script (h : s.WellFormed) (hn : s.PlainlyNamed) (d : Dialect) :
    d.lexemes.ReadsPlainly (s.script d).toList := by
  have hread := reads_tables (d := d) h hn fun _ ht => ht
  rw [Tokenizer.ReadsPlainly, Schema.contents_script h hn, Schema.toList_script]
  exact hread.lexemes

end Schemata.Lexer
