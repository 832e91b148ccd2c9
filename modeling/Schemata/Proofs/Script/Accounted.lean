import Mathlib.Data.List.Forall2
import Mathlib.Tactic
import Schemata.Proofs.Script.Outcomes

/-!
# Statements and references accounted for

Every statement that creates a table becomes a table or one issue, and every reference that a table
waits for becomes a relationship or one issue. There are no other tables, declared relationships or
issues.
-/
namespace Schemata.Script

open Phrase

/-! ## Statements -/

/-- What becomes of a statement: a table, one issue, or nothing if it creates no table. -/
inductive Outcome where
  | passed
  | table (draft : Draft)
  | skipped (issue : Issue)

namespace Outcome

def draft? : Outcome → Option Draft
  | table draft => some draft
  | _ => none

def issues : Outcome → List Issue
  | passed => []
  | table draft => draft.issues
  | skipped issue => [issue]

end Outcome

/-- The outcome of a statement behind others. A table body that cannot be found is malformed, and of
several tables of one name the first one is kept. -/
inductive Statement.Ends (before : List Statement) (s : Statement) : Outcome → Prop
  | passed (hother : isCreateTable s.lexemes = false) : s.Ends before .passed
  | table {d : Draft} {clauses : List (List Lexeme)} (hs : s.Creates d.name clauses)
      (hnew : d.name ∉ (draftsOf before).map (·.name)) (hsum : d.Accounted s.source clauses) :
      s.Ends before (.table d)
  | malformed {issue : Issue} (hcreate : isCreateTable s.lexemes = true)
      (hbody : tableBody s = .error issue) (hcode : issue.code = .malformedStatement) :
      s.Ends before (.skipped issue)
  | repeated {name : String} {clauses : List (List Lexeme)} (hs : s.Creates name clauses)
      (hold : name ∈ (draftsOf before).map (·.name)) :
      s.Ends before (.skipped (.duplicateTable name))

theorem code_of_tableBody {s : Statement} {issue : Issue} (h : tableBody s = .error issue) :
    issue.code = .malformedStatement := by
  rw [tableBody] at h
  repeat' split at h
  all_goals cases h
  all_goals rfl

theorem draftsOf_snoc (before : List Statement) (s : Statement) :
    draftsOf (before ++ [s]) = s.draft?.toList.foldl addNew (draftsOf before) := by
  rw [draftsOf, List.filterMap_append, List.foldl_append, ← draftsOf, List.filterMap_cons]
  cases s.draft? <;> rfl

theorem issuesFrom_snoc (before : List Statement) (s : Statement) :
    issuesFrom [] (before ++ [s]) = issuesFrom [] before ++ s.issuesBehind (draftsOf before) := by
  rw [issuesFrom_append, issuesFrom, issuesFrom, List.append_nil]
  rfl

theorem issuesFrom_split (before after : List Statement) (s : Statement) :
    issuesFrom [] (before ++ s :: after) =
      issuesFrom [] before ++ (s.issuesBehind (draftsOf before) ++
        issuesFrom (draftsOf (before ++ [s])) after) := by
  rw [issuesFrom_append, issuesFrom, draftsOf_snoc]
  rfl

theorem draftsOf_split (before after : List Statement) (s : Statement) :
    draftsOf (before ++ s :: after) =
      (after.filterMap Statement.draft?).foldl addNew (draftsOf (before ++ [s])) := by
  rw [draftsOf, draftsOf, ← List.foldl_append, ← List.filterMap_append, List.append_assoc]
  rfl

theorem issuesBehind_of_creates {s : Statement} {table : String} {clauses : List (List Lexeme)}
    (h : s.Creates table clauses) {ds : List Draft} (hnew : table ∉ ds.map (·.name)) :
    s.issuesBehind ds = (Draft.ofClauses s.source table clauses).issues := by
  obtain ⟨hcreate, body, hbody, rfl⟩ := h
  rw [Statement.issuesBehind, if_pos hcreate, hbody]
  exact if_neg hnew

/-- A statement that is skipped leaves its issue and no draft. -/
theorem Statement.Ends.of_skipped {before : List Statement} {s : Statement} {issue : Issue}
    (h : s.Ends before (.skipped issue)) :
    s.issuesBehind (draftsOf before) = [issue] ∧
      draftsOf (before ++ [s]) = draftsOf before := by
  rw [draftsOf_snoc, issuesBehind]
  cases h with
  | malformed hcreate hbody _ =>
    rw [if_pos hcreate, hbody, draft?, if_pos hcreate, hbody]
    exact ⟨rfl, rfl⟩
  | repeated hs hold =>
    rw [hs.draft?]
    obtain ⟨hcreate, body, hbody, rfl⟩ := hs
    rw [if_pos hcreate, hbody]
    refine ⟨if_pos hold, addNew_of_mem ?_⟩
    rwa [Draft.quiet_name, Draft.ofClauses_name]

/-- A statement behind others has an outcome, and it adds the issues and the draft of that
outcome. -/
theorem Statement.exists_outcome (before : List Statement) (s : Statement) :
    ∃ o, s.Ends before o ∧ o.issues = s.issuesBehind (draftsOf before) ∧
      draftsOf (before ++ [s]) = draftsOf before ++ o.draft?.toList.map Draft.quiet := by
  by_cases hcreate : isCreateTable s.lexemes = true
  · cases hbody : tableBody s with
    | error issue =>
      have hs : s.Ends before (.skipped issue) :=
        .malformed hcreate hbody (code_of_tableBody hbody)
      obtain ⟨hissue, hdraft⟩ := hs.of_skipped
      exact ⟨_, hs, hissue.symm, hdraft.trans (List.append_nil _).symm⟩
    | ok found =>
      obtain ⟨name, body⟩ := found
      have hs : s.Creates name (Lexeme.clauses body) := ⟨hcreate, body, hbody, rfl⟩
      by_cases hmem : name ∈ (draftsOf before).map (·.name)
      · have hend : s.Ends before (.skipped (.duplicateTable name)) := .repeated hs hmem
        obtain ⟨hissue, hdraft⟩ := hend.of_skipped
        exact ⟨_, hend, hissue.symm, hdraft.trans (List.append_nil _).symm⟩
      · have hname := Draft.ofClauses_name s.source name (Lexeme.clauses body)
        refine ⟨.table (Draft.ofClauses s.source name (Lexeme.clauses body)), ?_, ?_, ?_⟩
        · exact .table (hname.symm ▸ hs) (hname.symm ▸ hmem) (Draft.accounted_ofClauses ..)
        · exact (issuesBehind_of_creates hs hmem).symm
        · rw [draftsOf_snoc, hs.draft?]
          exact addNew_of_not_mem (by rwa [Draft.quiet_name, hname])
  · refine ⟨.passed, .passed (Bool.eq_false_iff.mpr hcreate), ?_, ?_⟩
    · rw [Statement.issuesBehind, if_neg hcreate]
      rfl
    · rw [draftsOf_snoc, Statement.draft?, if_neg hcreate]
      exact (List.append_nil _).symm

/-- Every statement has one outcome; the drafts are those of the tables that are kept, and the
issues are those of all outcomes. -/
theorem exists_outcomes (found : List Statement) :
    ∃ os, Ledger Statement.Ends found os ∧
      (os.filterMap Outcome.draft?).map Draft.quiet = draftsOf found ∧
        os.flatMap Outcome.issues = issuesFrom [] found := by
  refine exists_ledger (P := fun found os =>
    (os.filterMap Outcome.draft?).map Draft.quiet = draftsOf found ∧
      os.flatMap Outcome.issues = issuesFrom [] found) ⟨rfl, rfl⟩ ?_ found
  rintro before os s ⟨hdrafts, hissues⟩
  obtain ⟨o, ho, hissue, hdraft⟩ := s.exists_outcome before
  refine ⟨o, ho, ?_, ?_⟩
  · rw [hdraft, ← hdrafts, List.filterMap_append, List.map_append]
    cases o <;> rfl
  · rw [issuesFrom_snoc, ← hissues, ← hissue, List.flatMap_append, List.flatMap_singleton]

/-! ## References -/

/-- The references that a table waits for. -/
def Draft.references (d : Draft) : List (String × Pending) := d.pending.map (Prod.mk d.name)

/-- What becomes of a reference: a relationship or one issue. -/
inductive ReferenceOutcome where
  | kept (r : Relationship)
  | unresolved (issue : Issue)

namespace ReferenceOutcome

def relationship? : ReferenceOutcome → Option Relationship
  | kept r => some r
  | unresolved _ => none

def issue? : ReferenceOutcome → Option Issue
  | kept _ => none
  | unresolved issue => some issue

end ReferenceOutcome

/-- The outcome of a reference of a table. The relationship of a reference that is resolved is the
only one of its field. -/
inductive ReferenceEnds (s : Schema) : String × Pending → ReferenceOutcome → Prop
  | kept {table : String} {p : Pending} {r : Reference} (h : Resolves s p.target r)
      (honly : s.relationships.filter (·.leaves table p.field) = [r.relationship table p.field]) :
      ReferenceEnds s (table, p) (.kept (r.relationship table p.field))
  | unresolved {table : String} {p : Pending} (h : ∀ r, ¬Resolves s p.target r) :
      ReferenceEnds s (table, p)
        (.unresolved (.unresolvedReference table p.field p.target.table))

/-- The outcome of a reference by the tables of a schema. -/
def referenceOutcome (tables : List Table) (reference : String × Pending) : ReferenceOutcome :=
  match resolve? tables reference.2.target with
  | some r => .kept (r.relationship reference.1 reference.2.field)
  | none => .unresolved
      (.unresolvedReference reference.1 reference.2.field reference.2.target.table)

theorem relationships_linked (ds : List Draft) :
    ((ds.flatMap Draft.references).map (referenceOutcome (ds.map Draft.table))).filterMap
      ReferenceOutcome.relationship? = (linked ds).relationships := by
  rw [linked, List.filterMap_map, List.filterMap_flatMap]
  refine List.flatMap_congr fun d _ => ?_
  rw [Draft.references, List.filterMap_map]
  refine List.filterMap_congr fun p _ => ?_
  simp only [Function.comp_apply, referenceOutcome, edge?]
  cases resolve? (ds.map Draft.table) p.target <;> rfl

theorem issues_openIssues (ds : List Draft) :
    ((ds.flatMap Draft.references).map (referenceOutcome (ds.map Draft.table))).filterMap
      ReferenceOutcome.issue? = openIssues ds := by
  rw [openIssues, List.filterMap_map, List.filterMap_flatMap]
  refine List.flatMap_congr fun d _ => ?_
  rw [Draft.references, List.filterMap_map]
  refine List.filterMap_congr fun p _ => ?_
  simp only [Function.comp_apply, referenceOutcome, openIssue?]
  cases resolve? (ds.map Draft.table) p.target <;> rfl

/-- Every reference of a text has one outcome. -/
theorem forall₂_referenceEnds (tokenize : Tokenizer) (text : List Char) {ds : List Draft}
    (hds : draftsOf (statements tokenize (Response.script text)).1 = ds) :
    List.Forall₂ (ReferenceEnds (read tokenize text).schema) (ds.flatMap Draft.references)
      ((ds.flatMap Draft.references).map (referenceOutcome (ds.map Draft.table))) := by
  have hwell : (read tokenize text).schema.WellFormed := readScript_wellFormed tokenize _
  have hresolve : resolve? (ds.map Draft.table) = resolve? (read tokenize text).schema.tables := by
    rw [← hds, draftsOf_statements, resolve?_drafts]
  have hrelationships : (read tokenize text).schema.relationships =
      (linked ds).relationships ++ (linked ds).inferred := by
    rw [schema_read, hds]
    rfl
  rw [List.forall₂_map_right_iff, List.forall₂_same]
  rintro ⟨table, p⟩ hp
  cases hr : resolve? (ds.map Draft.table) p.target with
  | none =>
    rw [referenceOutcome, hr]
    exact .unresolved (resolve?_eq_none_iff.mp (hresolve ▸ hr))
  | some r =>
    have hout : referenceOutcome (ds.map Draft.table) (table, p) =
        .kept (r.relationship table p.field) := by rw [referenceOutcome, hr]
    have hedge : r.relationship table p.field ∈ (read tokenize text).schema.relationships := by
      rw [hrelationships, ← relationships_linked]
      refine List.mem_append_left _ (List.mem_filterMap.mpr ⟨_, List.mem_map_of_mem hp, ?_⟩)
      rw [hout]
      rfl
    rw [hout]
    exact .kept (resolve?_eq_some_iff.mp (hresolve ▸ hr)) (hwell.filter_leaves hedge)

/-! ## Codes -/

theorem Ledger.exists_ends {α β : Type} {Ends : List α → α → β → Prop} {as : List α} {os : List β}
    (h : Ledger Ends as os) {o : β} (ho : o ∈ os) : ∃ before a, Ends before a o := by
  induction h with
  | nil => cases ho
  | snoc _ hlast ih =>
    obtain ho | ho := List.mem_append.mp ho
    · exact ih ho
    · exact ⟨_, _, List.mem_singleton.mp ho ▸ hlast⟩

/-- Every issue of a table body is about the table. -/
theorem Draft.table?_of_mem_issues {source : List Char} {name : String}
    {clauses : List (List Lexeme)} {issue : Issue}
    (h : issue ∈ (ofClauses source name clauses).issues) : issue.table? = some name := by
  obtain ⟨columns, constraints, hcolumns, hconstraints, hsum⟩ :=
    accounted_ofClauses source name clauses
  rw [ofClauses_name] at hcolumns hconstraints hsum
  rw [hsum] at h
  obtain h | h := List.mem_append.mp h
  · obtain ⟨o, ho, hissue⟩ := List.mem_flatMap.mp h
    obtain ⟨before, clause, hend⟩ := hcolumns.exists_ends ho
    cases hend with
    | field _ _ =>
      obtain ⟨fault, -, rfl⟩ := List.mem_map.mp hissue
      cases fault <;> rfl
    | unreadable _ => exact List.mem_singleton.mp hissue ▸ rfl
    | repeated _ _ => exact List.mem_singleton.mp hissue ▸ rfl
  · obtain ⟨o, ho, hissue⟩ := List.mem_filterMap.mp h
    obtain ⟨before, clause, hend⟩ := hconstraints.exists_ends ho
    cases hend with
    | key _ _ => cases hissue
    | reference _ _ => cases hissue
    | reported _ htable _ => exact Option.some.inj hissue ▸ htable

/-- An issue about a table does not say that the reader has failed. -/
theorem code_ne_internalError {issue : Issue} {table : String} (h : issue.table? = some table) :
    issue.code ≠ .internalError := by
  cases issue with
  | notText => cases h
  | _ => simp [Issue.code]

theorem code_of_mem_issuesFrom {ds : List Draft} {found : List Statement} {issue : Issue}
    (h : issue ∈ issuesFrom ds found) : issue.code ≠ .internalError := by
  induction found generalizing ds with
  | nil => cases h
  | cons s found ih =>
    obtain h | h := List.mem_append.mp h
    · rw [Statement.issuesBehind] at h
      split at h
      · split at h
        · next hbody =>
          rw [List.mem_singleton.mp h, code_of_tableBody hbody]
          decide
        · split at h
          · rw [List.mem_singleton.mp h]
            exact code_ne_internalError rfl
          · exact code_ne_internalError (Draft.table?_of_mem_issues h)
      · cases h
    · exact ih h

theorem code_of_mem_chunkStatements {tokenize : Tokenizer} {text : List Char} {issue : Issue}
    (h : issue ∈ (chunkStatements tokenize text).2) : issue.code = .tokenizeFailed := by
  obtain ⟨outcome, houtcome, hissue⟩ := List.mem_filterMap.mp h
  obtain ⟨chunk, -, rfl⟩ := List.mem_map.mp houtcome
  rw [chunkStatement] at hissue
  cases hlexemes : chunkLexemes? tokenize chunk with
  | none =>
    rw [hlexemes] at hissue
    cases hissue
    rfl
  | some us =>
    rw [hlexemes] at hissue
    cases hissue

/-- No issue of a text says that the reader has failed. -/
theorem code_of_mem_issues_read {tokenize : Tokenizer} {text : List Char} {issue : Issue}
    (h : issue ∈ (read tokenize text).issues) : issue.code ≠ .internalError := by
  rw [issues_read] at h
  obtain h | h := List.mem_append.mp h
  · obtain h | h := List.mem_append.mp h
    · rw [statements] at h
      repeat' split at h
      · rw [code_of_mem_chunkStatements h]
        decide
      · rw [code_of_mem_chunkStatements h]
        decide
      · cases h
    · exact code_of_mem_issuesFrom h
  · obtain ⟨d, -, hissue⟩ := List.mem_flatMap.mp h
    obtain ⟨p, -, hopen⟩ := List.mem_filterMap.mp hissue
    rw [openIssue?] at hopen
    split at hopen <;> cases hopen
    exact code_ne_internalError rfl

end Schemata.Script
