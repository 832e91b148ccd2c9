import Mathlib.Data.List.Basic
import Mathlib.Tactic
import Schemata.Proofs.Definition.Kept
import Schemata.Proofs.Lexeme.Plain

/-!
# Words and marks of a definition

A script of plainly named tables is plain text. Its words and marks are computed here from the
tables alone: the type of a column is a known word, perhaps with words for a key behind it.
-/
namespace Schemata

open Text Plain Content

/-! ## Plain names -/

/-- Names that no reader can take for anything else. -/
structure Table.PlainlyNamed (t : Table) : Prop where
  name : isIdentifier t.name = true ∧ t.name ≠ "create"
  fields : ∀ f ∈ t.fields, isIdentifier f.name = true ∧
    f.name ∉ ["constraint", "exclude", "fulltext", "spatial"]
  references : ∀ f ∈ t.fields, ∀ r, f.foreignKey = some r →
    isIdentifier r.table = true ∧ isIdentifier r.column = true

def Schema.PlainlyNamed (s : Schema) : Prop := ∀ t ∈ s.tables, t.PlainlyNamed

theorem Table.PlainlyNamed.kept {t : Table} (h : t.PlainlyNamed) (d : Dialect) :
    (t.kept d).PlainlyNamed := by
  refine ⟨h.name, fun f hf => ?_, fun f hf => ?_⟩
  · obtain ⟨g, hg, rfl⟩ := List.mem_map.mp hf
    exact h.fields g hg
  · obtain ⟨g, hg, rfl⟩ := List.mem_map.mp hf
    exact h.references g hg

theorem Schema.PlainlyNamed.kept {s : Schema} (h : s.PlainlyNamed) (d : Dialect) :
    (s.kept d).PlainlyNamed := by
  intro t ht
  obtain ⟨u, hu, rfl⟩ := List.mem_map.mp ht
  exact (h u (List.mem_of_mem_filter hu)).kept d

/-! ## Types -/

namespace LogicalType

/-- The word that a dialect spells a type with. -/
def word (l : LogicalType) (d : Dialect) : String :=
  match l, d with
  | .int8, .mysql => "INT"
  | .int8, _ => "INTEGER"
  | .text, _ => "TEXT"
  | .boolean, .sqlite => "INTEGER"
  | .boolean, _ => "BOOLEAN"
  | .timestamp, .sqlite => "TEXT"
  | .timestamp, _ => "TIMESTAMP"
  | .numeric, .sqlite => "REAL"
  | .numeric, _ => "DECIMAL"
  | .uuid, _ => "UUID"
  | .json, _ => "JSON"

/-- The word for the type of a column, which may be the primary key. -/
def columnWord (l : LogicalType) (d : Dialect) (key : Bool) : String :=
  if key ∧ l = .int8 ∧ d = .postgresql then "SERIAL" else l.word d

/-- The words between the type and the other constraints. -/
def keyWords (l : LogicalType) (d : Dialect) (key : Bool) : List String :=
  match key, l, d with
  | false, _, _ => []
  | true, .int8, .mysql => ["AUTO_INCREMENT", "PRIMARY", "KEY"]
  | true, .int8, .sqlite => ["PRIMARY", "KEY", "AUTOINCREMENT"]
  | true, _, _ => ["PRIMARY", "KEY"]

theorem typeWord_name (l : LogicalType) (d : Dialect) :
    d.spelling.typeWord l.name none = l.word d := by
  cases l <;> cases d <;> decide

theorem logical?_word (l : LogicalType) (d : Dialect) :
    TypeWord.logical? (l.word d) = some (l.stored d) := by
  cases l <;> cases d <;> decide

theorem isAutoIncrement_word (l : LogicalType) (d : Dialect) :
    TypeWord.isAutoIncrement (l.word d) = false := by
  cases l <;> cases d <;> decide

theorem logical?_columnWord (l : LogicalType) (d : Dialect) (key : Bool) :
    TypeWord.logical? (l.columnWord d key) = some (l.stored d) := by
  rw [columnWord]
  split_ifs with h
  · obtain ⟨-, rfl, rfl⟩ := h
    decide
  · exact logical?_word l d

/-- Only a key is spelled with a type that numbers its rows. -/
theorem isAutoIncrement_columnWord {l : LogicalType} {d : Dialect} {key : Bool}
    (h : TypeWord.isAutoIncrement (l.columnWord d key) = true) : key = true := by
  rw [columnWord] at h
  split_ifs at h with hk
  · exact hk.1
  · rw [isAutoIncrement_word] at h
    cases h

end LogicalType

theorem Field.typeDefinition_eq {f : Field} {l : LogicalType} (hl : f.type = l.name) (d : Dialect) :
    f.typeDefinition d.spelling =
      " ".intercalate (l.columnWord d f.primaryKey :: l.keyWords d f.primaryKey) := by
  have hword := LogicalType.typeWord_name l d
  rw [typeDefinition, hl]
  cases f.primaryKey with
  | false => simpa [LogicalType.columnWord, LogicalType.keyWords] using hword
  | true =>
    rw [hword, if_pos rfl]
    cases l <;> cases d <;> decide

theorem longLength?_logicalType (l : LogicalType) : Spelling.longLength? l.name = none := by
  cases l <;> decide

/-- The script of a well-formed schema is never refused. -/
theorem Schema.WellFormed.longLength?_eq_none {s : Schema} (h : s.WellFormed) :
    s.longLength? = none := by
  simp only [Schema.longLength?, Table.longLength?, List.findSome?_eq_none_iff]
  intro t ht f hf
  obtain ⟨l, hl⟩ := (h.tables t ht).types f hf
  rw [Field.longLength?, hl, longLength?_logicalType]

/-! ## Columns -/

/-- The words and marks of a reference. -/
def Reference.contents (r : Reference) : List Content :=
  [word "REFERENCES", word r.table, mark "(", word r.column, mark ")"]

namespace Field

/-- The words and marks that follow the type of a column. -/
def constraintContents (f : Field) : List Content :=
  (if !f.nullable && !f.primaryKey then [word "NOT", word "NULL"] else []) ++
    (f.foreignKey.map Reference.contents).getD []

/-- The logical type of a column. -/
def logicalType (f : Field) : LogicalType :=
  (LogicalType.all.find? fun l => f.type = l.name).getD .text

theorem logicalType_name {f : Field} (h : ∃ l : LogicalType, f.type = l.name) :
    f.type = f.logicalType.name := by
  obtain ⟨l, hl⟩ := h
  have hfind : f.logicalType = l := by
    rw [logicalType, hl]
    cases l <;> decide
  rw [hl, hfind]

/-- The words and marks of a column. -/
def contents (f : Field) (d : Dialect) : List Content :=
  word f.name :: word (f.logicalType.columnWord d f.primaryKey) ::
    ((f.logicalType.keyWords d f.primaryKey).map word ++ f.constraintContents)

end Field

theorem contents_intercalate_space (parts : List (List Char)) :
    contents ([' '].intercalate parts) = parts.flatMap contents := by
  induction parts with
  | nil => rfl
  | cons part parts ih =>
    cases parts with
    | nil => simp
    | cons next parts =>
      rw [List.intercalate_cons_cons, List.append_assoc, List.singleton_append, contents_space, ih,
        List.flatMap_cons (x := part)]

/-- Parts with blanks between them, from the first one on. -/
theorem toList_spaced (part : String) (parts : List String) :
    (" ".intercalate (part :: parts)).toList =
      part.toList ++ parts.flatMap fun part => ' ' :: part.toList := by
  rw [String.toList_intercalate, List.map_cons]
  have hgen : ∀ first : List Char, [' '].intercalate (first :: parts.map String.toList) =
      first ++ parts.flatMap fun part => ' ' :: part.toList := by
    induction parts with
    | nil => simp
    | cons next parts ih =>
      intro first
      rw [List.map_cons, List.intercalate_cons_cons, ih, List.flatMap_cons]
      simp
  exact hgen part.toList

/-- The words and marks of parts with blanks between them. -/
theorem contents_spaced (parts : List String) :
    contents (" ".intercalate parts).toList = parts.flatMap fun part => contents part.toList := by
  rw [String.toList_intercalate]
  exact (contents_intercalate_space _).trans (by rw [List.flatMap_map])

theorem contents_typeDefinition {f : Field} {l : LogicalType} (hl : f.type = l.name) (d : Dialect) :
    contents (f.typeDefinition d.spelling).toList =
      word (l.columnWord d f.primaryKey) :: (l.keyWords d f.primaryKey).map word := by
  have hword : ∀ key, contents (l.columnWord d key).toList = [word (l.columnWord d key)] := by
    intro key
    cases l <;> cases d <;> cases key <;> decide
  have hkey : ∀ w ∈ l.keyWords d f.primaryKey, contents w.toList = [word w] := by
    have hmem : ∀ w ∈ l.keyWords d f.primaryKey,
        w ∈ ["PRIMARY", "KEY", "AUTO_INCREMENT", "AUTOINCREMENT"] := by
      cases f.primaryKey <;> cases l <;> cases d <;> decide
    have hall : ∀ w ∈ ["PRIMARY", "KEY", "AUTO_INCREMENT", "AUTOINCREMENT"],
        contents w.toList = [word w] := by
      decide
    exact fun w hw => hall w (hmem w hw)
  rw [Field.typeDefinition_eq hl, contents_spaced, List.flatMap_cons, hword, List.singleton_append,
    List.flatMap_congr hkey, ← List.map_eq_flatMap]

theorem toList_foreignKey (d : Dialect) (table column : String) :
    (d.spelling.foreignKey table column).toList =
      "REFERENCES".toList ++ ' ' :: (table.toList ++ '(' :: (column.toList ++ [')'])) := by
  cases d <;> simp [Dialect.spelling, Spelling.foreignKey, Template.fill, String.join,
    Spelling.postgresql, Spelling.mysql, Spelling.sqlite]

theorem contents_foreignKey (d : Dialect) {table column : String} (ht : isIdentifier table = true)
    (hc : isIdentifier column = true) :
    contents (d.spelling.foreignKey table column).toList =
      (⟨table, column⟩ : Reference).contents := by
  rw [toList_foreignKey, contents_space, contents_mark _ (by decide) (by decide),
    contents_identifier ht, contents_mark _ (by decide) (by decide), contents_identifier hc]
  rfl

theorem contents_definition (d : Dialect) {f : Field} {link : Option Relationship}
    (htype : ∃ l : LogicalType, f.type = l.name) (hname : isIdentifier f.name = true)
    (hlink : link.map (·.target) = f.foreignKey)
    (href : ∀ r, f.foreignKey = some r →
      isIdentifier r.table = true ∧ isIdentifier r.column = true) :
    contents (f.definition d.spelling link).toList = f.contents d := by
  have hnull : contents d.spelling.notNull.toList = [word "NOT", word "NULL"] := by
    cases d <;> decide
  have hlast : ((link.map fun r => d.spelling.foreignKey r.toTable r.toField).toList).flatMap
      (fun part => contents part.toList) = (f.foreignKey.map Reference.contents).getD [] := by
    cases link with
    | none => simp [← hlink]
    | some r =>
      have hr := href r.target hlink.symm
      have hkey : contents (d.spelling.foreignKey r.toTable r.toField).toList = r.target.contents :=
        contents_foreignKey d hr.1 hr.2
      simp [← hlink, hkey]
  rw [Field.definition, contents_spaced, Field.definitionParts, List.flatMap_append,
    List.flatMap_append, hlast, List.flatMap_cons, List.flatMap_singleton,
    contents_identifier hname, contents_typeDefinition (Field.logicalType_name htype)]
  rw [Field.contents, Field.constraintContents]
  split <;> simp [hnull]

/-! ## Tables -/

theorem contents_intercalate_comma (lines : List (List Char)) :
    contents ([',', '\n'].intercalate lines) =
      [mark ","].intercalate (lines.map contents) := by
  induction lines with
  | nil => rfl
  | cons line lines ih =>
    cases lines with
    | nil => simp
    | cons next lines =>
      have hsplit : [',', '\n'].intercalate (line :: next :: lines) =
          line ++ ',' :: ([] ++ '\n' :: [',', '\n'].intercalate (next :: lines)) := by
        rw [List.intercalate_cons_cons]
        simp
      rw [hsplit, contents_mark _ (by decide) (by decide), contents_line, ih]
      rw [List.map_cons, List.map_cons, List.map_cons, List.intercalate_cons_cons]
      simp [contents, contentsFrom, wordOf]

theorem contents_intercalate_lines (blocks : List (List Char)) :
    contents (['\n', '\n'].intercalate blocks) = blocks.flatMap contents := by
  induction blocks with
  | nil => rfl
  | cons block blocks ih =>
    cases blocks with
    | nil => simp
    | cons next blocks =>
      have hsplit : ['\n', '\n'].intercalate (block :: next :: blocks) =
          block ++ '\n' :: ([] ++ '\n' :: ['\n', '\n'].intercalate (next :: blocks)) := by
        rw [List.intercalate_cons_cons]
        simp
      rw [hsplit, contents_line, contents_line, ih, List.flatMap_cons]
      simp [contents, contentsFrom, wordOf]

namespace Table

/-- The words and marks between the parentheses of a table. -/
def bodyContents (t : Table) (d : Dialect) : List Content :=
  [mark ","].intercalate (t.fields.map (·.contents d))

/-- The words and marks of the statement that creates a table, up to its semicolon. -/
def statementContents (t : Table) (d : Dialect) : List Content :=
  [word "CREATE", word "TABLE", word "IF", word "NOT", word "EXISTS", word t.name, mark "("] ++
    t.bodyContents d ++ [mark ")"]

def contents (t : Table) (d : Dialect) : List Content := t.statementContents d ++ [mark ";"]

end Table

namespace Schema

variable {s : Schema} {t : Table}

/-- Indentation adds nothing to a column. -/
theorem contents_columnLine_eq (s : Schema) (d : Dialect) (table : String) (f : Field) :
    Plain.contents (s.columnLine d table f).toList =
      Plain.contents (s.columnDefinition d table f).toList := by
  rw [columnLine, String.toList_append, contents_blanks_append rfl]

theorem contents_columnLine (h : s.WellFormed) (ht : t ∈ s.tables) (hn : t.PlainlyNamed)
    (d : Dialect) {f : Field} (hf : f ∈ t.fields) :
    Plain.contents (s.columnLine d t.name f).toList = f.contents d := by
  have hlink := h.distinctNames.target_relationship? h.consistent ht hf
  rw [contents_columnLine_eq, columnDefinition,
    contents_definition d ((h.tables t ht).types f hf) (hn.fields f hf).1 hlink
      (hn.references f hf)]

/-- The characters of a text that is put together as a table is. -/
theorem toList_framed (head name middle comma last : String) (lines : List String) :
    (head ++ name ++ middle ++ comma.intercalate lines ++ last).toList =
      head.toList ++ (name.toList ++ (middle.toList ++
        (comma.toList.intercalate (lines.map String.toList) ++ last.toList))) := by
  simp only [String.toList_append, String.toList_intercalate, List.append_assoc]

theorem toList_tableDefinition (s : Schema) (d : Dialect) (t : Table) :
    (s.tableDefinition d t).toList =
      "CREATE TABLE IF NOT EXISTS".toList ++ ' ' :: (t.name.toList ++ ' ' :: '(' :: '\n' ::
        ([',', '\n'].intercalate ((t.fields.map (s.columnLine d t.name)).map String.toList) ++
          ['\n', ')', ';'])) := by
  have hhead : "CREATE TABLE IF NOT EXISTS ".toList =
      "CREATE TABLE IF NOT EXISTS".toList ++ [' '] := by decide
  have hmiddle : " (\n".toList = [' ', '(', '\n'] := by decide
  have hcomma : ",\n".toList = [',', '\n'] := by decide
  have hlast : "\n);".toList = ['\n', ')', ';'] := by decide
  rw [tableDefinition_eq, toList_framed, hhead, hmiddle, hcomma, hlast]
  simp only [List.append_assoc, List.cons_append, List.nil_append]

/-- The words and marks of a table are those of its columns in a frame. -/
theorem contents_tableDefinition_eq (s : Schema) (d : Dialect)
    (hname : Plain.contents t.name.toList = [word t.name]) :
    Plain.contents (s.tableDefinition d t).toList =
      [word "CREATE", word "TABLE", word "IF", word "NOT", word "EXISTS", word t.name, mark "("] ++
        [mark ","].intercalate
          (t.fields.map fun f => Plain.contents (s.columnLine d t.name f).toList) ++
        [mark ")", mark ";"] := by
  have htext : (s.tableDefinition d t).toList =
      "CREATE TABLE IF NOT EXISTS".toList ++ ' ' :: (t.name.toList ++ ' ' :: ([] ++ '(' ::
        ([] ++ '\n' :: ([',', '\n'].intercalate ((t.fields.map (s.columnLine d t.name)).map
          String.toList) ++ '\n' :: ([] ++ ')' :: ([] ++ ';' :: [])))))) :=
    toList_tableDefinition s d t
  have hopen : Plain.contents "CREATE TABLE IF NOT EXISTS".toList =
      [word "CREATE", word "TABLE", word "IF", word "NOT", word "EXISTS"] := by
    decide
  have hempty : Plain.contents [] = [] := rfl
  rw [htext, contents_space, contents_space, contents_mark _ (by decide) (by decide),
    contents_line, contents_line, contents_mark _ (by decide) (by decide),
    contents_mark _ (by decide) (by decide), hopen, hname, contents_intercalate_comma, hempty,
    List.map_map, List.map_map]
  simp only [List.cons_append, List.nil_append]
  rfl

theorem contents_tableDefinition (h : s.WellFormed) (ht : t ∈ s.tables) (hn : t.PlainlyNamed)
    (d : Dialect) : Plain.contents (s.tableDefinition d t).toList = t.contents d := by
  have hbody : (t.fields.map fun f => Plain.contents (s.columnLine d t.name f).toList) =
      t.fields.map (·.contents d) :=
    List.map_congr_left fun f hf => contents_columnLine h ht hn d hf
  rw [contents_tableDefinition_eq s d (contents_identifier hn.name.1), hbody]
  simp [Table.contents, Table.statementContents, Table.bodyContents]

theorem toList_script (s : Schema) (d : Dialect) :
    (s.script d).toList = ['\n', '\n'].intercalate
      ((s.creatable.map (s.tableDefinition d)).map String.toList) := by
  rw [script, String.toList_intercalate]
  rfl

/-- The words and marks of a script are those of its tables, one after the other. -/
theorem contents_script (h : s.WellFormed) (hn : s.PlainlyNamed) (d : Dialect) :
    Plain.contents (s.script d).toList = s.creatable.flatMap (·.contents d) := by
  rw [toList_script, contents_intercalate_lines, List.map_map, List.flatMap_map]
  refine List.flatMap_congr fun t ht => ?_
  have ht' : t ∈ s.tables := List.mem_of_mem_filter ht
  exact contents_tableDefinition h ht' (hn t ht') d

end Schema

end Schemata
