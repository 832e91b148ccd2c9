import Mathlib.Data.List.Forall2
import Mathlib.Tactic
import Schemata.Proofs.Lexeme.Depth
import Schemata.Proofs.Response
import Schemata.Proofs.Script.Literals
import Schemata.Proofs.Script.Placed

/-!
# One script after another

A script that leaves no parenthesis open, whatever else is wrong with it, does not hide what stands
behind it: each table that a second script declares under a new name is there in both together. An
open parenthesis, on the other hand, takes the second script into the last statement of the first.
-/
namespace Schemata.Script

open Lexeme Phrase

/-- Statements that are found in a part of a text are found in the whole, restated. -/
theorem forall₂_restated_statements {source source' : List Char} {us vs : List Lexeme}
    (h : Restated id source source' us vs) :
    List.Forall₂ (Statement.Restated id) ((Lexeme.statements us).map (⟨·, source⟩))
      ((Lexeme.statements vs).map (⟨·, source'⟩)) := by
  obtain ⟨R, hR, h⟩ := h
  rw [List.forall₂_map_left_iff, List.forall₂_map_right_iff]
  exact (Lexeme.forall₂_statements hR.alike h).imp fun _ _ hstatement => ⟨R, hR, hstatement⟩

variable {tokenize : Tokenizer} {as bs : List Char} {us vs marks : List Lexeme}

/-- The statements of two scripts are those of the first and those of the second. -/
theorem statements_joined (hmarks : ∀ u ∈ marks, u.isPunct ";" = true)
    (hcreate : nextIs "CREATE" vs = true) (hclosed : openAfter 0 us = 0) :
    Lexeme.statements (us ++ (marks ++ vs)) = Lexeme.statements us ++ Lexeme.statements vs := by
  rw [← statements_semicolons hmarks vs]
  cases marks with
  | nil =>
    cases vs with
    | nil => cases hcreate
    | cons v vs =>
      refine statements_append_of_closed hclosed ?_ vs
      rw [cutsStatement, show v.isWord ["CREATE"] = true from hcreate, Bool.or_true]
  | cons u marks =>
    refine statements_append_of_closed hclosed ?_ (marks ++ vs)
    rw [cutsStatement, hmarks u List.mem_cons_self, Bool.true_or]

/-- The drafts of two scripts are those of the first and those of the second with new names. -/
theorem draftsOf_joined (bs : List Char) (hplaced : Placed as us)
    (hmarks : ∀ u ∈ marks, u.isPunct ";" = true) (hcreate : nextIs "CREATE" vs = true)
    (hclosed : openAfter 0 us = 0) (middle : List Char) :
    draftsOf ((Lexeme.statements (us ++ (marks ++ vs.map (moved (as ++ middle).length)))).map
        (⟨·, as ++ middle ++ bs⟩)) =
      draftsOf ((Lexeme.statements us).map (⟨·, as⟩)) ++
        (draftsOf ((Lexeme.statements vs).map (⟨·, bs⟩))).filter fun d =>
          d.name ∉ (draftsOf ((Lexeme.statements us).map (⟨·, as⟩))).map (·.name) := by
  have hcreate' : nextIs "CREATE" (vs.map (moved (as ++ middle).length)) = true := by
    cases vs with
    | nil => cases hcreate
    | cons v vs => exact hcreate
  have hfirst := draftsOf_restated_id
    (forall₂_restated_statements (restated_before hplaced (middle ++ bs)))
  have hsecond := draftsOf_restated_id
    (forall₂_restated_statements (restated_behind (as ++ middle) bs vs))
  rw [statements_joined hmarks hcreate' hclosed, List.map_append, draftsOf_append, hfirst, hsecond,
    List.append_assoc]

/-- No string of two scripts holds a `CREATE TABLE` if no string of either does. -/
theorem hidesCreateTable_joined (hplaced : Placed as us)
    (hmarks : ∀ u ∈ marks, u.isPunct ";" = true) (hhide : hidesCreateTable as us = false)
    (hhide' : hidesCreateTable bs vs = false) :
    hidesCreateTable (as ++ ';' :: '\n' :: bs)
      (us ++ (marks ++ vs.map (moved (as.length + 2)))) = false := by
  have hfirst := (hidesCreateTable_before hplaced (';' :: '\n' :: bs)).trans hhide
  have hedge : ((as ++ [';', '\n']).getLast?.map Text.isWordChar).getD false = false := by
    rw [List.getLast?_append]
    rfl
  have hsecond := (hidesCreateTable_behind hedge bs vs).trans hhide'
  rw [List.append_assoc, List.length_append, show [';', '\n'].length = 2 from rfl,
    show [';', '\n'] ++ bs = ';' :: '\n' :: bs from rfl] at hsecond
  have hmiddle : hidesCreateTable (as ++ ';' :: '\n' :: bs) marks = false := by
    refine hidesCreateTable_of_no_string _ fun u hu => ?_
    have hkind : u.kind = .punct := of_decide_eq_true (Bool.and_eq_true .. ▸ hmarks u hu).1
    simp [hkind]
  rw [hidesCreateTable] at hfirst hsecond hmiddle ⊢
  rw [List.any_append, List.any_append, hfirst, hmiddle, hsecond]
  rfl

/-- A table of some drafts is one of them with its references. -/
theorem exists_draft_of_mem_linked {ds : List Draft} {t : Table}
    (ht : t ∈ (linked ds).infer.tables) : ∃ d ∈ ds, d.table.unlinked = t.unlinked :=
  List.mem_map.mp (unlinked_linked ds ▸ List.mem_map_of_mem ht)

theorem exists_table_of_mem_drafts {ds : List Draft} {d : Draft} (hd : d ∈ ds) :
    ∃ t ∈ (linked ds).infer.tables, t.unlinked = d.table.unlinked :=
  List.mem_map.mp (unlinked_linked ds ▸ List.mem_map_of_mem hd)

/-- A table that a script declares is there behind another script as well, unless its name is taken:
the first script may be broken in any way that leaves no parenthesis open. The lexemes of the two
together are those of each, with at most semicolons between them. -/
theorem exists_table_read_joined {t : Table} (hus : tokenize as = .ok us)
    (hvs : tokenize bs = .ok vs)
    (hjoined : tokenize (as ++ ';' :: '\n' :: bs) =
      .ok (us ++ (marks ++ vs.map (moved (as.length + 2)))))
    (hplaced : Placed as us) (hmarks : ∀ u ∈ marks, u.isPunct ";" = true)
    (hcreate : nextIs "CREATE" vs = true) (hclosed : openAfter 0 us = 0)
    (hfence : Response.opening? as = none)
    (hhide : hidesCreateTable as us = false) (hhide' : hidesCreateTable bs vs = false)
    (ht : t ∈ (read tokenize bs).schema.tables)
    (hnew : t.name ∉ (read tokenize as).schema.tables.map (·.name)) :
    ∃ t' ∈ (read tokenize (as ++ ';' :: '\n' :: bs)).schema.tables, t'.unlinked = t.unlinked := by
  have hscript := Response.script_joined bs hfence
  by_cases hfence' : Response.opening? bs = none
  · have hhide'' := hidesCreateTable_joined hplaced hmarks hhide hhide'
    have hdrafts := draftsOf_joined bs hplaced hmarks hcreate hclosed [';', '\n']
    rw [List.length_append, show [';', '\n'].length = 2 from rfl, List.append_assoc,
      show [';', '\n'] ++ bs = ';' :: '\n' :: bs from rfl] at hdrafts
    -- the schemas in terms of the statements of each text
    rw [schema_read_of_lexemes hvs hfence' hhide'] at ht
    rw [schema_read_of_lexemes hus hfence hhide, names_linked] at hnew
    rw [schema_read, hscript, if_pos hfence', statements_of_lexemes hjoined hhide'']
    obtain ⟨d, hd, hsame⟩ := exists_draft_of_mem_linked ht
    have hname : d.name = t.name := congrArg Table.name hsame
    have hmem : d ∈ draftsOf ((Lexeme.statements (us ++ (marks ++
        vs.map (moved (as.length + 2))))).map (⟨·, as ++ ';' :: '\n' :: bs⟩)) := by
      rw [hdrafts]
      refine List.mem_append_right _ (List.mem_filter.mpr ⟨hd, ?_⟩)
      rw [hname]
      exact decide_eq_true hnew
    obtain ⟨t', ht', hsame'⟩ := exists_table_of_mem_drafts hmem
    exact ⟨t', ht', hsame'.trans hsame⟩
  · -- a script in a fence of the second text is all that is read of both
    refine ⟨t, ?_, rfl⟩
    rwa [schema_read, hscript, if_neg hfence', ← schema_read]

/-! ### A broken statement before a sound one -/

/-- A statement without a column list, and with a closing parenthesis too many. -/
def brokenText : List Char := "CREATE TABLE a x)".toList

def soundText : List Char := "CREATE TABLE b(y INT);".toList

def brokenLexemes : List Lexeme :=
  [⟨"CREATE", .word, 0, 5⟩, ⟨"TABLE", .word, 7, 11⟩, ⟨"a", .word, 13, 13⟩, ⟨"x", .word, 15, 15⟩,
    ⟨")", .punct, 16, 16⟩]

def soundLexemes : List Lexeme :=
  [⟨"CREATE", .word, 0, 5⟩, ⟨"TABLE", .word, 7, 11⟩, ⟨"b", .word, 13, 13⟩, ⟨"(", .punct, 14, 14⟩,
    ⟨"y", .word, 15, 15⟩, ⟨"INT", .word, 17, 19⟩, ⟨")", .punct, 20, 20⟩, ⟨";", .punct, 21, 21⟩]

def soundTable : Table := ⟨"b", [{ name := "y", type := "int8" }]⟩

theorem lexemes_soundText : Dialect.lexemes .postgresql soundText = .ok soundLexemes := by
  decide +kernel

theorem tables_read_soundText :
    (read (Dialect.lexemes .postgresql) soundText).schema.tables = [soundTable] := by
  have hstatements : Lexeme.statements soundLexemes = [soundLexemes.take 7] := by decide
  have hdraft : Statement.draft? ⟨soundLexemes.take 7, soundText⟩ =
      some ⟨"b", soundTable.fields, [], []⟩ := by
    have hbody : Lexeme.clauses ((soundLexemes.drop 4).take 2) =
        [(soundLexemes.drop 4).take 2] := by
      decide
    have hcolumn : column? soundText ((soundLexemes.drop 4).take 2) =
        some ⟨{ name := "y", type := "int8" }, none⟩ := by
      simp only [soundLexemes, List.drop_succ_cons, List.drop_zero, List.take_succ_cons,
        List.take_zero, column?, columnTraits]
      decide
    have htable : tableBody ⟨soundLexemes.take 7, soundText⟩ =
        .ok ("b", (soundLexemes.drop 4).take 2) := rfl
    rw [draft?_of_tableBody (by decide) htable, Draft.quiet_ofClauses, hbody, columnsOf_singleton,
      hcolumn, demandsOf_singleton]
    decide
  rw [schema_read_of_lexemes lexemes_soundText (by decide) (by decide), hstatements,
    List.map_singleton, draftsOf_singleton hdraft]
  decide

theorem exists_table_read_joined_broken :
    ∃ t ∈ (read (Dialect.lexemes .postgresql)
        (brokenText ++ ';' :: '\n' :: soundText)).schema.tables,
      t.unlinked = soundTable.unlinked := by
  have hbroken : Dialect.lexemes .postgresql brokenText = .ok brokenLexemes := by decide +kernel
  have hjoined : Dialect.lexemes .postgresql (brokenText ++ ';' :: '\n' :: soundText) =
      .ok (brokenLexemes ++ ([⟨";", .punct, 17, 17⟩] ++
        soundLexemes.map (moved (brokenText.length + 2)))) := by decide +kernel
  have hnone : (read (Dialect.lexemes .postgresql) brokenText).schema.tables.map (·.name) = [] := by
    rw [schema_read_of_lexemes hbroken (by decide) (by decide), names_linked]
    rfl
  refine exists_table_read_joined hbroken lexemes_soundText hjoined (by decide) (by decide)
    (by decide)
    (by decide) (by decide) (by decide) (by decide) ?_ ?_
  · rw [tables_read_soundText]
    exact List.mem_singleton.mpr rfl
  · rw [hnone]
    exact List.not_mem_nil

/-- A statement that leaves a parenthesis open. -/
def openText : List Char := "CREATE TABLE a(x".toList

def openLexemes : List Lexeme :=
  [⟨"CREATE", .word, 0, 5⟩, ⟨"TABLE", .word, 7, 11⟩, ⟨"a", .word, 13, 13⟩, ⟨"(", .punct, 14, 14⟩,
    ⟨"x", .word, 15, 15⟩]

theorem lexemes_openText : Dialect.lexemes .postgresql openText = .ok openLexemes := by
  decide +kernel

/-- An open parenthesis does hide the sound statement behind it. -/
theorem tables_read_openText :
    Dialect.lexemes .postgresql openText = .ok openLexemes ∧
      (read (Dialect.lexemes .postgresql) soundText).schema.tables = [soundTable] ∧
      (read (Dialect.lexemes .postgresql)
        (openText ++ ';' :: '\n' :: soundText)).schema.tables = [] := by
  obtain ⟨us, hus⟩ :
      ∃ us, us = openLexemes ++ (⟨";", .punct, 16, 16⟩ :: soundLexemes.map (moved 18)) :=
    ⟨_, rfl⟩
  have hlexemes : Dialect.lexemes .postgresql (openText ++ ';' :: '\n' :: soundText) = .ok us := by
    subst hus
    decide +kernel
  have hstatements : Lexeme.statements us = [us] := by
    subst hus
    decide
  have hnone : Statement.draft? ⟨us, openText ++ ';' :: '\n' :: soundText⟩ = none := by
    have hname : qualifiedName? (dropIfNotExists ((dropModifiers (us.drop 1)).drop 1)) =
        some ("a", us.drop 3) := by
      subst hus
      decide
    have hbody : (tableBody ⟨us, openText ++ ';' :: '\n' :: soundText⟩).toOption = none := by
      simp only [tableBody, hname]
      subst hus
      rfl
    rw [Statement.draft?, hbody, Option.map_none, ite_self]
  have hhide : hidesCreateTable (openText ++ ';' :: '\n' :: soundText) us = false := by
    subst hus
    exact hidesCreateTable_of_no_string _ (by decide)
  refine ⟨lexemes_openText, tables_read_soundText, ?_⟩
  rw [schema_read_of_lexemes hlexemes (Response.opening?_eq_none (by decide)) hhide, hstatements,
    List.map_singleton, draftsOf, List.filterMap_cons_none hnone]
  rfl

end Schemata.Script
