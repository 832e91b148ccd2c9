import Mathlib.Data.List.Forall2
import Mathlib.Tactic
import Schemata.Proofs.Script.Accounted

/-!
# What is skipped

A statement or a column that is skipped is reported and does nothing else: without it, a script has
the same schema, and the same issues but for the one of what was skipped.
-/
namespace Schemata.Script

open Phrase

/-! ## Table bodies -/

namespace Draft

/-- The draft with more issues before its own. -/
def behind (issues : List Issue) (d : Draft) : Draft := { d with issues := issues ++ d.issues }

variable (issues : List Issue)

@[simp] theorem quiet_behind (d : Draft) : (d.behind issues).quiet = d.quiet := rfl

@[simp] theorem behind_issues (d : Draft) : (d.behind issues).issues = issues ++ d.issues := rfl

theorem report_behind (d : Draft) (issue : Issue) :
    (d.behind issues).report issue = (d.report issue).behind issues := by
  simp [report, behind]

/-! ### Earlier issues have no part in what a clause does -/

theorem addColumn_behind (source : List Char) (d : Draft) (clause : List Lexeme) :
    (d.behind issues).addColumn source clause = (d.addColumn source clause).behind issues := by
  cases hc : column? source clause with
  | none =>
    rw [addColumn_of_none hc, addColumn_of_none hc]
    exact report_behind ..
  | some c =>
    rw [addColumn_of_some hc, addColumn_of_some hc]
    by_cases hmem : c.name ∈ d.fields.map (·.name)
    · rw [if_pos hmem, if_pos (show c.name ∈ (d.behind issues).fields.map _ from hmem)]
      exact report_behind ..
    · rw [if_neg hmem, if_neg (show c.name ∉ (d.behind issues).fields.map _ from hmem)]
      simp [behind]

theorem addPrimaryKey_behind (d : Draft) (text : String) (us : List Lexeme) :
    (d.behind issues).addPrimaryKey text us = (d.addPrimaryKey text us).behind issues := by
  simp only [addPrimaryKey]
  split
  · rw [show (d.behind issues).field? _ = d.field? _ from rfl]
    split
    · rfl
    · exact report_behind ..
  · exact report_behind ..

theorem addTarget_behind (d : Draft) (text : String) (names : List String) (target : Target) :
    (d.behind issues).addTarget text names target =
      (d.addTarget text names target).behind issues := by
  simp only [addTarget]
  split
  · rw [show (d.behind issues).field? _ = d.field? _ from rfl,
      show (d.behind issues).pending = d.pending from rfl]
    split_ifs
    · exact report_behind ..
    · exact report_behind ..
    · rfl
  · exact report_behind ..

theorem addForeignKey_behind (d : Draft) (text : String) (us : List Lexeme) :
    (d.behind issues).addForeignKey text us = (d.addForeignKey text us).behind issues := by
  simp only [addForeignKey]
  split
  · split
    · split
      · exact report_behind ..
      · exact addTarget_behind ..
    · exact report_behind ..
  · exact report_behind ..

theorem addConstraint_behind (source : List Char) (d : Draft) (clause : List Lexeme) :
    (d.behind issues).addConstraint source clause =
      (d.addConstraint source clause).behind issues := by
  simp only [addConstraint]
  split_ifs
  · exact addPrimaryKey_behind ..
  · exact addForeignKey_behind ..
  · exact report_behind ..

/-! ### A column that is skipped -/

theorem addColumn_of_skipped {source : List Char} {d : Draft} {before : List (List Lexeme)}
    {clause : List Lexeme} {issue : Issue}
    (h : ColumnEnds source d.name before clause (.skipped issue))
    (hnames : ∀ name, name ∈ d.fields.map (·.name) ↔
      name ∈ (columnsOf source before).map Column.name) :
    d.addColumn source clause = d.report issue := by
  rw [addColumn_of_ends h hnames]
  simp [report, ColumnOutcome.column?, ColumnOutcome.issues]

/-- A column that is skipped is reported and leaves no other trace in its table. -/
theorem ofClauses_of_skipped {source : List Char} {table : String} {left : List (List Lexeme)}
    {clause : List Lexeme} {issue : Issue} (right : List (List Lexeme))
    (hcolumn : isTableConstraint clause = false)
    (h : ColumnEnds source table left clause (.skipped issue)) :
    (ofClauses source table (left ++ clause :: right)).quiet =
        (ofClauses source table (left ++ right)).quiet ∧
      ∃ pre post, (ofClauses source table (left ++ clause :: right)).issues = pre ++ issue :: post ∧
        (ofClauses source table (left ++ right)).issues = pre ++ post := by
  let d := (left.filter (!isTableConstraint ·)).foldl (addColumn source) ⟨table, [], [], []⟩
  let run := fun e : Draft =>
    ((left ++ right).filter isTableConstraint).foldl (addConstraint source)
      ((right.filter (!isTableConstraint ·)).foldl (addColumn source) e)
  have hrun : ∀ issues e, run (behind issues e) = behind issues (run e) := by
    intro issues e
    simp only [run]
    rw [List.foldl_hom (behind issues) fun e clause => addColumn_behind issues source e clause,
      List.foldl_hom (behind issues) fun e clause => addConstraint_behind issues source e clause]
  have hname : d.name = table := by
    refine List.foldlRecOn (motive := fun e : Draft => e.name = table) _ _ rfl ?_
    intro e he clause _
    rw [addColumn_name, he]
  have hskip : d.addColumn source clause = d.report issue := by
    refine addColumn_of_skipped (hname.symm ▸ h) fun name => ?_
    rw [mem_names_foldl_addColumn (isColumn_of_mem_filter left)]
    simp only [columnsOf, List.filter_filter, Bool.and_self]
  have hwithout : ofClauses source table (left ++ right) = run (behind d.issues d.quiet) := by
    have hd : behind d.issues d.quiet = d := by simp [behind, quiet]
    rw [hd, ofClauses, List.filter_append, List.foldl_append]
  have hwith : ofClauses source table (left ++ clause :: right) =
      run (behind (d.issues ++ [issue]) d.quiet) := by
    have hd : behind (d.issues ++ [issue]) d.quiet = d.report issue := by
      simp [behind, quiet, report]
    have hcolumns : (left ++ clause :: right).filter (!isTableConstraint ·) =
        left.filter (!isTableConstraint ·) ++ clause :: right.filter (!isTableConstraint ·) := by
      simp [hcolumn]
    have hconstraints : (left ++ clause :: right).filter isTableConstraint =
        (left ++ right).filter isTableConstraint := by
      simp [hcolumn]
    rw [hd, ← hskip, ofClauses, hcolumns, hconstraints, List.foldl_append, List.foldl_cons]
  rw [hwith, hwithout, hrun, hrun]
  refine ⟨rfl, d.issues, (run d.quiet).issues, ?_, rfl⟩
  rw [behind_issues, List.append_assoc]
  rfl

end Draft

/-! ## Scripts -/

/-- Statements from which one was deleted that has been skipped, or a column clause of a table that
is kept; the others may be written at other places. -/
inductive SkipDeleted (found : List Statement) (issue : Issue) : List Statement → Prop
  | statement {before after found' : List Statement} {s : Statement}
      (hfound : found = before ++ s :: after) (hs : s.Ends before (.skipped issue))
      (hrest : List.Forall₂ (Statement.Restated id) (before ++ after) found') :
      SkipDeleted found issue found'
  | column {before before' after after' : List Statement} {s s' : Statement} {table : String}
      {left right clauses' : List (List Lexeme)} {clause : List Lexeme}
      (hfound : found = before ++ s :: after) (hs : s.Creates table (left ++ clause :: right))
      (hnew : table ∉ (draftsOf before).map (·.name)) (hcolumn : isTableConstraint clause = false)
      (hclause : ColumnEnds s.source table left clause (.skipped issue))
      (hs' : s'.Creates table clauses')
      (hclauses : List.Forall₂ (Script.Restated id s.source s'.source) (left ++ right) clauses')
      (hbefore : List.Forall₂ (Statement.Restated id) before before')
      (hafter : List.Forall₂ (Statement.Restated id) after after') :
      SkipDeleted found issue (before' ++ s' :: after')

/-- What was skipped has left one issue and nothing else. -/
theorem SkipDeleted.drafts_issues {found found' : List Statement} {issue : Issue}
    (h : SkipDeleted found issue found') :
    draftsOf found' = draftsOf found ∧
      ∃ pre post, issuesFrom [] found = pre ++ issue :: post ∧
        issuesFrom [] found' = pre ++ post := by
  cases h with
  | @statement before after _ s hfound hs hrest =>
    obtain ⟨hissue, hdrafts⟩ := hs.of_skipped
    rw [hfound, ← draftsOf_restated_id hrest, ← issuesFrom_restated hrest, draftsOf_split, hdrafts,
      issuesFrom_split, hissue, hdrafts, issuesFrom_append]
    refine ⟨?_, issuesFrom [] before, issuesFrom (draftsOf before) after, rfl, rfl⟩
    rw [draftsOf, List.filterMap_append, List.foldl_append]
    rfl
  | @column before before' after after' s s' _ _ right _ _ hfound hs hnew hcolumn hclause hs'
      hclauses hbefore hafter =>
    obtain ⟨hquiet, pre, post, hwith, hwithout⟩ :=
      Draft.ofClauses_of_skipped right hcolumn hclause
    have hbefore' := draftsOf_restated_id hbefore
    have hdrafts : draftsOf (before' ++ [s']) = draftsOf (before ++ [s]) := by
      rw [draftsOf_snoc, draftsOf_snoc, hs'.draft?, hs.draft?, hbefore', hquiet,
        Draft.ofClauses_restated_id hclauses]
    refine ⟨?_, issuesFrom [] before ++ pre, post ++ issuesFrom (draftsOf (before ++ [s])) after,
      ?_, ?_⟩
    · rw [hfound, draftsOf_split before' after' s', draftsOf_split before after s, hdrafts,
        drafts_restated_id hafter]
    · rw [hfound, issuesFrom_split, issuesBehind_of_creates hs hnew, hwith]
      simp only [List.append_assoc, List.cons_append]
    · rw [issuesFrom_split, issuesBehind_of_creates hs' (hbefore' ▸ hnew), hdrafts,
        ← issuesFrom_restated hbefore, ← issuesFrom_restated hafter,
        ← Draft.ofClauses_restated_id hclauses, hwithout]
      simp only [List.append_assoc]

/-- The fields of a draft have no references yet. -/
theorem Draft.Sound.unlinked_table {d : Draft} (h : d.Sound) : d.table.unlinked = d.table := by
  refine congrArg (Table.mk d.name) ((List.map_congr_left fun f hf => ?_).trans (List.map_id _))
  rw [Field.unlinked, ← h.unlinked f hf]
  rfl

/-- Nothing is skipped silently, and skipping has no other effect. In any text every statement has
one outcome, and so has every column clause and every table constraint of a table that is kept and
every reference that such a table waits for; its tables and issues are those of the outcomes, and
the relationships of the outcomes come before those that are inferred. A text with the same
statements, but without one or without a column clause that was skipped, has the same schema and the
same issues but for the one of what was skipped. -/
theorem read_accounted (tokenize : Tokenizer) (text : List Char) :
    (∃ os ends, Ledger Statement.Ends (statements tokenize (Response.script text)).1 os ∧
        (read tokenize text).schema.tables.map Table.unlinked =
          (os.filterMap Outcome.draft?).map Draft.table ∧
        List.Forall₂ (ReferenceEnds (read tokenize text).schema)
          ((os.filterMap Outcome.draft?).flatMap Draft.references) ends ∧
        ends.filterMap ReferenceOutcome.relationship? <+:
          (read tokenize text).schema.relationships ∧
        (read tokenize text).issues = (statements tokenize (Response.script text)).2 ++
          os.flatMap Outcome.issues ++ ends.filterMap ReferenceOutcome.issue?) ∧
      ∀ (tokenize' : Tokenizer) (text' : List Char) (issue : Issue) (found' : List Statement),
        SkipDeleted (statements tokenize (Response.script text)).1 issue found' →
          statements tokenize' (Response.script text') =
              (found', (statements tokenize (Response.script text)).2) →
            (read tokenize' text').schema = (read tokenize text).schema ∧
              ∃ pre post, (read tokenize text).issues = pre ++ issue :: post ∧
                (read tokenize' text').issues = pre ++ post := by
  constructor
  · obtain ⟨os, hledger, hdrafts, hissues⟩ :=
      exists_outcomes (statements tokenize (Response.script text)).1
    have hreferences : (os.filterMap Outcome.draft?).flatMap Draft.references =
        (draftsOf (statements tokenize (Response.script text)).1).flatMap Draft.references := by
      rw [← hdrafts, List.flatMap_map]
      rfl
    refine ⟨os, ?_⟩
    rw [hreferences]
    refine ⟨_, hledger, ?_, forall₂_referenceEnds tokenize text rfl, ?_, ?_⟩
    · rw [schema_read, unlinked_linked, ← hdrafts, List.map_map]
      refine List.map_congr_left fun d hd => ?_
      exact Draft.Sound.unlinked_table (sound_of_mem_draftsOf (hdrafts ▸ List.mem_map_of_mem hd))
    · rw [relationships_linked, schema_read]
      exact ⟨_, rfl⟩
    · rw [issues_openIssues, hissues, issues_read]
  · intro tokenize' text' issue found' hdeleted hfound'
    obtain ⟨hdrafts, pre, post, hwith, hwithout⟩ := hdeleted.drafts_issues
    rw [schema_read, schema_read, issues_read, issues_read, hfound', hdrafts, hwith, hwithout]
    refine ⟨rfl, (statements tokenize (Response.script text)).2 ++ pre,
      post ++ openIssues (draftsOf (statements tokenize (Response.script text)).1), ?_, ?_⟩
    · simp only [List.append_assoc, List.cons_append]
    · simp only [List.append_assoc]

/-! ### A table and a column that are declared twice -/

def plainText : List Char := "CREATE TABLE a(x INT);".toList

/-- The same table with another column. -/
def laterText : List Char := "CREATE TABLE a(y INT);".toList

/-- The same column twice. -/
def doubledText : List Char := "CREATE TABLE a(x INT,x INT);".toList

def plainLexemes : List Lexeme :=
  [⟨"CREATE", .word, 0, 5⟩, ⟨"TABLE", .word, 7, 11⟩, ⟨"a", .word, 13, 13⟩, ⟨"(", .punct, 14, 14⟩,
    ⟨"x", .word, 15, 15⟩, ⟨"INT", .word, 17, 19⟩, ⟨")", .punct, 20, 20⟩]

def laterLexemes : List Lexeme :=
  [⟨"CREATE", .word, 22, 27⟩, ⟨"TABLE", .word, 29, 33⟩, ⟨"a", .word, 35, 35⟩,
    ⟨"(", .punct, 36, 36⟩, ⟨"y", .word, 37, 37⟩, ⟨"INT", .word, 39, 41⟩, ⟨")", .punct, 42, 42⟩]

def repeatedColumn : List Lexeme := [⟨"x", .word, 21, 21⟩, ⟨"INT", .word, 23, 25⟩]

def doubledLexemes : List Lexeme :=
  plainLexemes.take 6 ++ ⟨",", .punct, 20, 20⟩ :: repeatedColumn ++ [⟨")", .punct, 26, 26⟩]

theorem statements_plainText :
    statements (Dialect.lexemes .postgresql) plainText = ([⟨plainLexemes, plainText⟩], []) := by
  have hlexemes : Dialect.lexemes .postgresql plainText =
      .ok (plainLexemes ++ [⟨";", .punct, 21, 21⟩]) := by decide +kernel
  have hstatements : Lexeme.statements (plainLexemes ++ [⟨";", .punct, 21, 21⟩]) =
      [plainLexemes] := by decide
  rw [statements_of_lexemes hlexemes (hidesCreateTable_of_no_string _ (by decide)), hstatements]
  rfl

theorem statements_plainText_laterText :
    statements (Dialect.lexemes .postgresql) (plainText ++ laterText) =
      ([⟨plainLexemes, plainText ++ laterText⟩, ⟨laterLexemes, plainText ++ laterText⟩], []) := by
  have hlexemes : Dialect.lexemes .postgresql (plainText ++ laterText) =
      .ok (plainLexemes ++ ⟨";", .punct, 21, 21⟩ :: (laterLexemes ++ [⟨";", .punct, 43, 43⟩])) := by
    decide +kernel
  have hstatements : Lexeme.statements (plainLexemes ++ ⟨";", .punct, 21, 21⟩ ::
      (laterLexemes ++ [⟨";", .punct, 43, 43⟩])) = [plainLexemes, laterLexemes] := by decide
  rw [statements_of_lexemes hlexemes (hidesCreateTable_of_no_string _ (by decide)), hstatements]
  rfl

theorem statements_doubledText :
    statements (Dialect.lexemes .postgresql) doubledText =
      ([⟨doubledLexemes, doubledText⟩], []) := by
  have hlexemes : Dialect.lexemes .postgresql doubledText =
      .ok (doubledLexemes ++ [⟨";", .punct, 27, 27⟩]) := by decide +kernel
  have hstatements : Lexeme.statements (doubledLexemes ++ [⟨";", .punct, 27, 27⟩]) =
      [doubledLexemes] := by decide
  rw [statements_of_lexemes hlexemes (hidesCreateTable_of_no_string _ (by decide)), hstatements]
  rfl

theorem creates_plain (source : List Char) :
    Statement.Creates ⟨plainLexemes, source⟩ "a" [(plainLexemes.drop 4).take 2] :=
  ⟨(by decide : isCreateTable plainLexemes = true), (plainLexemes.drop 4).take 2, rfl, by decide⟩

theorem skipDeleted_table :
    SkipDeleted [⟨plainLexemes, plainText ++ laterText⟩, ⟨laterLexemes, plainText ++ laterText⟩]
      (.duplicateTable "a") [⟨plainLexemes, plainText⟩] := by
  have hcreates : Statement.Creates ⟨laterLexemes, plainText ++ laterText⟩ "a"
      [(laterLexemes.drop 4).take 2] := ⟨by decide, (laterLexemes.drop 4).take 2, rfl, by decide⟩
  have hfound : [⟨plainLexemes, plainText ++ laterText⟩, ⟨laterLexemes, plainText ++ laterText⟩] =
      [⟨plainLexemes, plainText ++ laterText⟩] ++
        (⟨laterLexemes, plainText ++ laterText⟩ : Statement) :: [] := rfl
  refine .statement hfound (.repeated hcreates ?_) (.cons (restated_of_spans rfl (by decide)) .nil)
  rw [draftsOf_singleton (creates_plain _).draft?]
  simp [Draft.ofClauses_name]

theorem skipDeleted_column :
    SkipDeleted [⟨doubledLexemes, doubledText⟩] (.duplicateColumn "a" "x INT" "x")
      [⟨plainLexemes, plainText⟩] := by
  have hcreates : Statement.Creates ⟨doubledLexemes, doubledText⟩ "a"
      ([(plainLexemes.drop 4).take 2] ++ repeatedColumn :: []) :=
    ⟨by decide, (doubledLexemes.drop 4).take 5, rfl, by decide⟩
  have hcolumn : columnsOf doubledText [(plainLexemes.drop 4).take 2] =
      [⟨columnField "x" "INT" {}, none⟩] := columnsOf_pair doubledText (by decide) (by decide)
  have hrepeated : column? doubledText repeatedColumn = some ⟨columnField "x" "INT" {}, none⟩ := by
    simp only [repeatedColumn, column?, columnTraits]
    rfl
  have htext : Lexeme.sourceText doubledText repeatedColumn = "x INT" := by decide
  have hends : ColumnEnds doubledText "a" [(plainLexemes.drop 4).take 2] repeatedColumn
      (.skipped (.duplicateColumn "a" "x INT" "x")) := by
    rw [← htext]
    refine .repeated hrepeated ?_
    rw [hcolumn]
    exact List.mem_singleton.mpr rfl
  have hfound : [⟨doubledLexemes, doubledText⟩] =
      [] ++ (⟨doubledLexemes, doubledText⟩ : Statement) :: [] := rfl
  exact .column hfound hcreates List.not_mem_nil (by decide) hends (creates_plain _)
    (.cons (restated_of_spans rfl (by decide)) .nil) .nil .nil

/-- The second table and the second column are reported, and are otherwise as good as not there. -/
theorem read_accounted_repeated :
    ((read (Dialect.lexemes .postgresql) plainText).schema =
        (read (Dialect.lexemes .postgresql) (plainText ++ laterText)).schema ∧
      ∃ pre post, (read (Dialect.lexemes .postgresql) (plainText ++ laterText)).issues =
          pre ++ .duplicateTable "a" :: post ∧
        (read (Dialect.lexemes .postgresql) plainText).issues = pre ++ post) ∧
      (read (Dialect.lexemes .postgresql) plainText).schema =
          (read (Dialect.lexemes .postgresql) doubledText).schema ∧
        ∃ pre post, (read (Dialect.lexemes .postgresql) doubledText).issues =
            pre ++ .duplicateColumn "a" "x INT" "x" :: post ∧
          (read (Dialect.lexemes .postgresql) plainText).issues = pre ++ post := by
  have hplain : Response.script plainText = plainText := Response.script_eq_self (by decide)
  have hboth : Response.script (plainText ++ laterText) = plainText ++ laterText :=
    Response.script_eq_self (by decide)
  have hdoubled : Response.script doubledText = doubledText := Response.script_eq_self (by decide)
  constructor
  · refine (read_accounted (Dialect.lexemes .postgresql) (plainText ++ laterText)).2 _ plainText _
      [⟨plainLexemes, plainText⟩] ?_ ?_
    · rw [hboth, statements_plainText_laterText]
      exact skipDeleted_table
    · rw [hboth, hplain, statements_plainText_laterText, statements_plainText]
  · refine (read_accounted (Dialect.lexemes .postgresql) doubledText).2 _ plainText _
      [⟨plainLexemes, plainText⟩] ?_ ?_
    · rw [hdoubled, statements_doubledText]
      exact skipDeleted_column
    · rw [hdoubled, hplain, statements_doubledText, statements_plainText]

end Schemata.Script
