import Mathlib.Tactic
import Schemata.Proofs.Definition.Wording
import Schemata.Proofs.Migration.Database

/-!
# What statements say

The statements that create, alter and drop tables are read from their words and marks alone. As
long as names are identifiers and no type breaks off its column, the statement of a change asks a
database for just that change.
-/
namespace Schemata

open Text Plain Content

namespace Alteration

/-! ## Reading -/

/-- How many parentheses are open behind a word or mark of a column. The column ends at a comma
outside of parentheses, and only words, commas and parentheses belong to it. -/
def depthAfter? : ℕ → Content → Option ℕ
  | depth, (.word, _) => some depth
  | depth, (.punct, "(") => some (depth + 1)
  | depth + 1, (.punct, ")") => some depth
  | depth + 1, (.punct, ",") => some (depth + 1)
  | _, _ => none

/-- The columns between the parentheses of a table. -/
def columnsFrom? (depth : ℕ) : List Content → Option (List (List Content))
  | [] => if depth = 0 then some [[]] else none
  | x :: xs =>
    if depth = 0 ∧ x = mark "," then (columnsFrom? 0 xs).map ([] :: ·)
    else (depthAfter? depth x).bind fun next =>
      (columnsFrom? next xs).map (List.modifyHead (x :: ·))

/-- A column begins with its name; every word is taken for one. -/
def columnName? : List Content → Option String
  | (.word, name) :: _ => some name
  | _ => none

/-- The names of some columns, which are different. -/
def columnNames? (xs : List Content) : Option (List String) :=
  ((columnsFrom? 0 xs).bind (·.mapM columnName?)).filter (·.Nodup)

/-- Reads a statement without its semicolon. -/
def ofContents? : List Content → Option Alteration
  | (.word, "CREATE") :: (.word, "TABLE") :: (.word, "IF") :: (.word, "NOT") :: (.word, "EXISTS") ::
      (.word, table) :: (.punct, "(") :: xs =>
    ([mark ")"].isSuffixOf? xs).bind columnNames? |>.map (.createTable table)
  | (.word, "ALTER") :: (.word, "TABLE") :: (.word, table) :: (.word, "ADD") :: (.word, "COLUMN") ::
      xs =>
    match columnNames? xs with
    | some [column] => some (.addColumn table column)
    | _ => none
  | [(.word, "ALTER"), (.word, "TABLE"), (.word, table), (.word, "DROP"), (.word, "COLUMN"),
      (.word, column)] => some (.dropColumn table column)
  | [(.word, "DROP"), (.word, "TABLE"), (.word, "IF"), (.word, "EXISTS"), (.word, table)] =>
    some (.dropTable table)
  | _ => none

/-- What a statement asks for, if it is one of these. -/
def read? (statement : String) : Option Alteration :=
  ([mark ";"].isSuffixOf? (contents statement.toList)).bind ofContents?

/-- The database after some statements, each of which is read and then carried out by `step`. -/
def runWith (step : Database → Alteration → Option Database) (db : Database)
    (statements : List String) : Option Database :=
  statements.foldlM (fun db statement => (read? statement).bind (step db)) db

theorem runWith_cons (step : Database → Alteration → Option Database) (db : Database)
    (statement : String) (statements : List String) :
    runWith step db (statement :: statements) =
      ((read? statement).bind (step db)).bind (runWith step · statements) :=
  List.foldlM_cons

theorem runWith_append (step : Database → Alteration → Option Database) (db : Database)
    (statements later : List String) : runWith step db (statements ++ later) =
      (runWith step db statements).bind (runWith step · later) :=
  List.foldlM_append

/-- Every statement of a run is read and carried out in its turn. -/
theorem exists_step_of_runWith {step : Database → Alteration → Option Database}
    {db after : Database} {done later : List String} {statement : String}
    (h : runWith step db (done ++ statement :: later) = some after) :
    ∃ mid alteration next, runWith step db done = some mid ∧
      read? statement = some alteration ∧ step mid alteration = some next := by
  rw [runWith_append] at h
  obtain ⟨mid, hmid, h⟩ := Option.bind_eq_some_iff.mp h
  rw [runWith_cons] at h
  obtain ⟨next, hnext, -⟩ := Option.bind_eq_some_iff.mp h
  obtain ⟨alteration, hread, hstep⟩ := Option.bind_eq_some_iff.mp hnext
  exact ⟨mid, alteration, next, hmid, hread, hstep⟩

theorem ofContents?_createTable (table : String) (xs : List Content) :
    ofContents? ([word "CREATE", word "TABLE", word "IF", word "NOT", word "EXISTS", word table,
      mark "("] ++ xs ++ [mark ")"]) = (columnNames? xs).map (.createTable table) := by
  have hclose : [mark ")"].isSuffixOf? (xs ++ [mark ")"]) = some xs :=
    List.isSuffixOf?_eq_some_iff_append_eq.mpr rfl
  change (([mark ")"].isSuffixOf? (xs ++ [mark ")"])).bind columnNames?).map _ = _
  rw [hclose, Option.bind_some]

theorem ofContents?_addColumn {xs : List Content} {column : String}
    (h : columnNames? xs = some [column]) (table : String) :
    ofContents? ([word "ALTER", word "TABLE", word table, word "ADD", word "COLUMN"] ++ xs) =
      some (.addColumn table column) := by
  change (match columnNames? xs with
    | some [column] => some (addColumn table column)
    | _ => none) = _
  rw [h]

theorem read?_of_contents {statement : String} {xs : List Content}
    (h : contents statement.toList = xs ++ [mark ";"]) : read? statement = ofContents? xs := by
  have hend : [mark ";"].isSuffixOf? (xs ++ [mark ";"]) = some xs :=
    List.isSuffixOf?_eq_some_iff_append_eq.mpr rfl
  rw [read?, h, hend, Option.bind_some]

/-! ## Columns -/

/-- Words and marks that can stand in one column. -/
def Balanced (xs : List Content) : Prop := xs.foldlM depthAfter? 0 = some 0

instance : DecidablePred Balanced := fun xs =>
  inferInstanceAs (Decidable (xs.foldlM depthAfter? 0 = some 0))

theorem balanced_word (text : String) : Balanced [word text] := rfl

theorem Balanced.append {xs ys : List Content} (hx : Balanced xs) (hy : Balanced ys) :
    Balanced (xs ++ ys) := by
  rw [Balanced, List.foldlM_append, hx]
  exact hy

theorem balanced_flatMap {α : Type*} {parts : List α} {g : α → List Content}
    (h : ∀ part ∈ parts, Balanced (g part)) : Balanced (parts.flatMap g) := by
  induction parts with
  | nil => rfl
  | cons part parts ih =>
    rw [List.flatMap_cons]
    exact (h part List.mem_cons_self).append (ih fun p hp => h p (List.mem_cons_of_mem part hp))

theorem columnsFrom?_append {depth next : ℕ} {xs : List Content}
    (h : xs.foldlM depthAfter? depth = some next) (ys : List Content) :
    columnsFrom? depth (xs ++ ys) = (columnsFrom? next ys).map (List.modifyHead (xs ++ ·)) := by
  induction xs generalizing depth with
  | nil =>
    obtain rfl := Option.some.inj h
    have hid : List.modifyHead (([] : List Content) ++ ·) = id := by
      funext columns
      cases columns <;> rfl
    rw [List.nil_append, hid, Option.map_id, id]
  | cons x xs ih =>
    rw [List.foldlM_cons] at h
    obtain ⟨mid, hmid, hrest⟩ := Option.bind_eq_some_iff.mp h
    -- the comma between two columns belongs to neither
    have hcomma : ¬(depth = 0 ∧ x = mark ",") := by
      rintro ⟨rfl, rfl⟩
      cases hmid
    rw [List.cons_append, columnsFrom?, if_neg hcomma, hmid, Option.bind_some, ih hrest,
      Option.map_map]
    congr 1
    funext columns
    cases columns <;> rfl

/-- Columns with commas between them are read one by one. -/
theorem columnsFrom?_intercalate {parts : List (List Content)} (hne : parts ≠ [])
    (h : ∀ part ∈ parts, Balanced part) :
    columnsFrom? 0 ([mark ","].intercalate parts) = some parts := by
  induction parts with
  | nil => exact absurd rfl hne
  | cons part parts ih =>
    have hpart := h part List.mem_cons_self
    cases parts with
    | nil =>
      rw [List.intercalate_singleton, ← List.append_nil part, columnsFrom?_append hpart]
      simp [columnsFrom?]
    | cons next parts =>
      have hrest := ih (List.cons_ne_nil next parts) fun p hp => h p (List.mem_cons_of_mem part hp)
      rw [List.intercalate_cons_cons, List.append_assoc, columnsFrom?_append hpart,
        List.singleton_append, columnsFrom?, if_pos ⟨rfl, rfl⟩, hrest]
      simp

/-- What the definition of a column says. -/
structure IsColumn (name : String) (xs : List Content) : Prop where
  name : columnName? xs = some name
  balanced : Balanced xs

theorem mapM_columnName? {α : Type*} {items : List α} {name : α → String} {g : α → List Content}
    (h : ∀ item ∈ items, IsColumn (name item) (g item)) :
    (items.map g).mapM columnName? = some (items.map name) := by
  induction items with
  | nil => rfl
  | cons item items ih =>
    rw [List.map_cons, List.mapM_cons, (h item List.mem_cons_self).name,
      ih fun i hi => h i (List.mem_cons_of_mem item hi)]
    rfl

theorem columnNames?_intercalate {α : Type*} {items : List α} {name : α → String}
    {g : α → List Content} (hne : items ≠ []) (hn : (items.map name).Nodup)
    (h : ∀ item ∈ items, IsColumn (name item) (g item)) :
    columnNames? ([mark ","].intercalate (items.map g)) = some (items.map name) := by
  have hbalanced : ∀ part ∈ items.map g, Balanced part := by
    intro part hpart
    obtain ⟨item, hitem, rfl⟩ := List.mem_map.mp hpart
    exact (h item hitem).balanced
  rw [columnNames?, columnsFrom?_intercalate (by simpa using hne) hbalanced, Option.bind_some,
    mapM_columnName? h, Option.filter_some, if_pos (decide_eq_true hn)]

theorem IsColumn.columnNames? {name : String} {xs : List Content} (h : IsColumn name xs) :
    columnNames? xs = some [name] := by
  have hone : columnsFrom? 0 ([mark ","].intercalate [xs]) = some [xs] :=
    columnsFrom?_intercalate (List.cons_ne_nil xs []) fun part hpart =>
      List.mem_singleton.mp hpart ▸ h.balanced
  rw [List.intercalate_singleton] at hone
  simp [Alteration.columnNames?, hone, h.name]

end Alteration

/-! ## Words and marks of statements -/

theorem contents_isAsciiIdentifier {name : String} (h : isAsciiIdentifier name = true) :
    contents name.toList = [word name] := by
  refine contents_word (isWordChar_of_isAsciiIdentifier h) fun hnil => ?_
  rw [isAsciiIdentifier, hnil] at h
  cases h

theorem contents_append_semicolon (cs : List Char) :
    contents (cs ++ [';']) = contents cs ++ [mark ";"] :=
  contents_mark cs (by decide) (by decide) []

/-! ## Columns of a schema -/

namespace Schema

variable {s : Schema} {d : Dialect}

/-- All names that a schema is written with are identifiers, and no type that it is written with
breaks off its column. -/
structure Legible (s : Schema) (d : Dialect) : Prop where
  tables : ∀ t ∈ s.tables, isAsciiIdentifier t.name = true
  fields : ∀ t ∈ s.tables, ∀ f ∈ t.fields, isAsciiIdentifier f.name = true
  types : ∀ t ∈ s.tables, ∀ f ∈ t.fields,
    Alteration.Balanced (contents (d.spelling.typeWord f.type none).toList)
  links : ∀ r ∈ s.relationships,
    isAsciiIdentifier r.toTable = true ∧ isAsciiIdentifier r.toField = true

instance (s : Schema) (d : Dialect) : Decidable (s.Legible d) :=
  decidable_of_iff
    ((∀ t ∈ s.tables, isAsciiIdentifier t.name = true ∧ ∀ f ∈ t.fields,
      isAsciiIdentifier f.name = true ∧
        Alteration.Balanced (contents (d.spelling.typeWord f.type none).toList)) ∧
      ∀ r ∈ s.relationships,
        isAsciiIdentifier r.toTable = true ∧ isAsciiIdentifier r.toField = true)
    ⟨fun h => ⟨fun t ht => (h.1 t ht).1, fun t ht f hf => ((h.1 t ht).2 f hf).1,
      fun t ht f hf => ((h.1 t ht).2 f hf).2, h.2⟩,
      fun h => ⟨fun t ht => ⟨h.tables t ht, fun f hf => ⟨h.fields t ht f hf, h.types t ht f hf⟩⟩,
        h.links⟩⟩

/-- Safely named schemas of logical types are legible in every dialect. -/
theorem SafelyNamed.legible (h : s.SafelyNamed)
    (htypes : ∀ t ∈ s.tables, ∀ f ∈ t.fields, ∃ l : LogicalType, f.type = l.name) (d : Dialect) :
    s.Legible d where
  tables t ht := (h.tables t ht).identifier
  fields t ht f hf := (h.fields t ht f hf).identifier
  types t ht f hf := by
    obtain ⟨l, hl⟩ := htypes t ht f hf
    rw [hl, LogicalType.typeWord_name]
    cases l <;> cases d <;> decide
  links r hr := ⟨(h.links r hr).1.identifier, (h.links r hr).2.identifier⟩

end Schema

open Alteration

section Columns

variable {f : Field} {d : Dialect}

theorem balanced_typeDefinition (h : Balanced (contents (d.spelling.typeWord f.type none).toList)) :
    Balanced (contents (f.typeDefinition d.spelling).toList) := by
  have hauto : Balanced (contents d.spelling.autoIncrement.toList) := by cases d <;> decide
  have hkey : Balanced (contents d.spelling.primaryKey.toList) := by cases d <;> decide
  rw [Field.typeDefinition]
  split_ifs
  · exact hauto
  · have hspace : " ".toList = [' '] := rfl
    rw [String.toList_append, String.toList_append, hspace, List.append_assoc,
      List.singleton_append, contents_space]
    exact h.append hkey
  · exact h

theorem balanced_foreignKey {r : Relationship}
    (h : isAsciiIdentifier r.toTable = true ∧ isAsciiIdentifier r.toField = true) (d : Dialect) :
    Balanced (contents (d.spelling.foreignKey r.toTable r.toField).toList) := by
  have hopen : contents "REFERENCES".toList = [word "REFERENCES"] := by decide
  rw [toList_foreignKey, contents_space, contents_mark _ (by decide) (by decide),
    contents_mark _ (by decide) (by decide), contents_isAsciiIdentifier h.1,
    contents_isAsciiIdentifier h.2, hopen]
  rfl

theorem isColumn_definition (hname : isAsciiIdentifier f.name = true)
    (htype : Balanced (contents (d.spelling.typeWord f.type none).toList))
    {link : Option Relationship} (hlink : ∀ r, link = some r →
      isAsciiIdentifier r.toTable = true ∧ isAsciiIdentifier r.toField = true) :
    IsColumn f.name (contents (f.definition d.spelling link).toList) := by
  have hnull : Balanced (contents d.spelling.notNull.toList) := by cases d <;> decide
  rw [Field.definition, contents_spaced, Field.definitionParts]
  constructor
  · rw [List.flatMap_append, List.flatMap_append, List.flatMap_cons,
      contents_isAsciiIdentifier hname]
    rfl
  · refine balanced_flatMap fun part hpart => ?_
    simp only [List.mem_append, List.mem_cons, List.not_mem_nil, or_false, Option.mem_toList,
      Option.map_eq_some_iff] at hpart
    rcases hpart with ((rfl | rfl) | hpart) | ⟨r, hr, rfl⟩
    · rw [contents_isAsciiIdentifier hname]
      exact balanced_word f.name
    · exact balanced_typeDefinition htype
    · split_ifs at hpart
      · rwa [List.mem_singleton.mp hpart]
      · cases hpart
    · exact balanced_foreignKey (hlink r hr) d

theorem Schema.Legible.isColumn {s : Schema} (h : s.Legible d) {t : Table} (ht : t ∈ s.tables)
    (hf : f ∈ t.fields) : IsColumn f.name (contents (s.columnLine d t.name f).toList) := by
  rw [Schema.contents_columnLine_eq]
  exact isColumn_definition (h.fields t ht f hf) (h.types t ht f hf) fun r hr =>
    h.links r (List.mem_of_find?_eq_some hr)

end Columns

/-! ## Statements of changes -/

namespace Change

variable {target : Schema} {d : Dialect} {change : Change}

theorem read?_createTable {t : Table} (hname : isAsciiIdentifier t.name = true)
    (hne : t.fields ≠ []) (hn : (t.fields.map (·.name)).Nodup)
    (h : ∀ f ∈ t.fields, IsColumn f.name (contents (target.columnLine d t.name f).toList)) :
    read? (statement target d (.createTable t)) =
      some (.createTable t.name (t.fields.map (·.name))) := by
  have hcontents := target.contents_tableDefinition_eq d (contents_isAsciiIdentifier hname)
  have hend : ∀ xs : List Content, xs ++ [mark ")", mark ";"] = xs ++ [mark ")"] ++ [mark ";"] :=
    fun xs => (List.append_assoc xs [mark ")"] [mark ";"]).symm
  rw [hend] at hcontents
  change read? (target.tableDefinition d t) = _
  rw [read?_of_contents hcontents, ofContents?_createTable, columnNames?_intercalate hne hn h,
    Option.map_some]

/-- The words and marks of a statement that alters a table. -/
theorem contents_alter {table : String} (h : isAsciiIdentifier table = true) (cs : List Char) :
    contents ("ALTER TABLE".toList ++ ' ' :: (table.toList ++ ' ' :: (cs ++ [';']))) =
      [word "ALTER", word "TABLE", word table] ++ contents cs ++ [mark ";"] := by
  have halter : contents "ALTER TABLE".toList = [word "ALTER", word "TABLE"] := by decide
  rw [contents_space, contents_space, contents_append_semicolon, halter,
    contents_isAsciiIdentifier h]
  simp

theorem read?_addColumn {table : String} {f : Field} (hname : isAsciiIdentifier table = true)
    (h : IsColumn f.name (contents (target.columnLine d table f).toList)) :
    read? (statement target d (.addColumn table f)) = some (.addColumn table f.name) := by
  have htext : (statement target d (.addColumn table f)).toList =
      "ALTER TABLE".toList ++ ' ' :: (table.toList ++ ' ' ::
        ("ADD COLUMN".toList ++ ' ' :: trim (target.columnLine d table f).toList ++ [';'])) := by
    change ("ALTER TABLE " ++ table ++ " ADD COLUMN " ++ trimmed (target.columnLine d table f) ++
      ";").toList = _
    simp [trimmed]
  have hadd : contents "ADD COLUMN".toList = [word "ADD", word "COLUMN"] := by decide
  rw [read?_of_contents ((congrArg contents htext).trans (contents_alter hname _)), contents_space,
    contents_trim, hadd]
  exact ofContents?_addColumn h.columnNames? table

example : read? "ALTER TABLE t ADD COLUMN price DECIMAL(10, 2) NOT NULL;" =
    some (.addColumn "t" "price") := by
  decide +kernel

-- A type that is copied with a comma of its own adds a second column.
example : read? "ALTER TABLE t ADD COLUMN a INTEGER, b TEXT;" = none := by
  decide +kernel

theorem read?_dropColumn {table column : String} (hname : isAsciiIdentifier table = true)
    (h : isAsciiIdentifier column = true) :
    read? (statement target d (.dropColumn table column)) = some (.dropColumn table column) := by
  have htext : (statement target d (.dropColumn table column)).toList =
      "ALTER TABLE".toList ++ ' ' :: (table.toList ++ ' ' ::
        ("DROP COLUMN".toList ++ ' ' :: column.toList ++ [';'])) := by
    change ("ALTER TABLE " ++ table ++ " DROP COLUMN " ++ column ++ ";").toList = _
    simp
  have hdrop : contents "DROP COLUMN".toList = [word "DROP", word "COLUMN"] := by decide
  rw [read?_of_contents ((congrArg contents htext).trans (contents_alter hname _)), contents_space,
    hdrop, contents_isAsciiIdentifier h]
  rfl

theorem read?_dropTable {table : String} (h : isAsciiIdentifier table = true) :
    read? (statement target d (.dropTable table)) = some (.dropTable table) := by
  have htext : (statement target d (.dropTable table)).toList =
      "DROP TABLE IF EXISTS".toList ++ ' ' :: table.toList ++ [';'] := by
    change ("DROP TABLE IF EXISTS " ++ table ++ ";").toList = _
    simp
  have hdrop : contents "DROP TABLE IF EXISTS".toList =
      [word "DROP", word "TABLE", word "IF", word "EXISTS"] := by decide
  rw [read?_of_contents ((congrArg contents htext).trans (contents_append_semicolon _)),
    contents_space, hdrop, contents_isAsciiIdentifier h]
  rfl

/-- Statements that ask for what their changes do are run as the changes are. -/
theorem runWith_statements {step : Database → Alteration → Option Database}
    {changes : List Change}
    (h : ∀ change ∈ changes, read? (statement target d change) = some change.alteration)
    (db : Database) : runWith step db (changes.map (statement target d)) =
      changes.foldlM (fun db change => step db change.alteration) db := by
  induction changes generalizing db with
  | nil => rfl
  | cons change changes ih =>
    rw [List.map_cons, runWith_cons, List.foldlM_cons, h change List.mem_cons_self,
      Option.bind_some]
    exact congrArg _ (funext (ih fun c hc => h c (List.mem_cons_of_mem change hc)))

end Change

end Schemata
