import Mathlib.Data.List.Forall2
import Mathlib.Tactic
import Schemata.Proofs.Script.References
import Schemata.Proofs.Script.Restated

/-!
# Issues by their statements

Issues quote the text of what they are about, so a statement has the same issues wherever it is
written. What a statement adds to the issues depends on the drafts before it alone, and after the
issues of all statements come those of the references that are left open.
-/
namespace Schemata.Script

open Phrase

/-! ## Clauses that are written at another place -/

section Clauses

variable {source source' : List Char} {R : Lexeme → Lexeme → Prop} {us vs : List Lexeme}

theorem sourceText_cons (source : List Char) (u : Lexeme) (us : List Lexeme) :
    Lexeme.sourceText source (u :: us) =
      Lexeme.sourceText source [u, us.getLast?.getD u] := by
  simp [Lexeme.sourceText, List.getLast?_cons]

theorem sourceText_restated (hR : Restating id source source' R) (h : List.Forall₂ R us vs) :
    Lexeme.sourceText source us = Lexeme.sourceText source' vs := by
  cases h with
  | nil => rfl
  | cons hu hrest =>
    rw [sourceText_cons, sourceText_cons source']
    exact Option.some.inj (hR.span _ _ _ _ hu (rel_getLastD hu hrest))

theorem columnTraits_restated_id (hR : Restating id source source' R) (h : List.Forall₂ R us vs) :
    columnTraits source 0 {} us = columnTraits source' 0 {} vs := by
  rw [columnTraits_eq_foldl, columnTraits_eq_foldl, traitsFrom_restated_id hR h]

namespace Draft

theorem addColumn_restated (hR : Restating id source source' R) (h : List.Forall₂ R us vs)
    (d : Draft) : d.addColumn source us = d.addColumn source' vs := by
  have htext := sourceText_restated hR h
  rcases h with _ | ⟨hfirst, _ | ⟨hsecond, hrest⟩⟩
  · simp only [addColumn, htext]
  · simp only [addColumn, htext]
  have hfirst := hR.alike _ _ hfirst
  simp only [addColumn, htext, ← hfirst.isName, columnTraits_restated_id hR hrest,
    columnField_congr (base_typeText (hR.alike _ _ hsecond))]
  split
  · rfl
  · next hname =>
    have hname := Bool.not_eq_false _ ▸ mt (Bool.not_eq_true' _).mpr hname
    rw [hfirst.identifier hname]

theorem addPrimaryKey_restated (hR : ∀ u v, R u v → u.Alike v) (h : List.Forall₂ R us vs)
    (text : String) (d : Draft) : d.addPrimaryKey text us = d.addPrimaryKey text vs := by
  simp only [addPrimaryKey, (sameThen_nameList hR h).1]

theorem addForeignKey_restated (hR : ∀ u v, R u v → u.Alike v) (h : List.Forall₂ R us vs)
    (text : String) (d : Draft) : d.addForeignKey text us = d.addForeignKey text vs := by
  obtain ⟨hnames, hrest⟩ := sameThen_nameList hR h
  simp only [addForeignKey, hnames]
  generalize (nameList us).2 = after, (nameList vs).2 = after' at hrest
  cases hrest with
  | nil => rfl
  | cons hu hrest => simp only [(hR _ _ hu).isWord, (sameThen_reference hR hrest).1]

theorem addConstraint_restated (hR : Restating id source source' R) (h : List.Forall₂ R us vs)
    (d : Draft) : d.addConstraint source us = d.addConstraint source' vs := by
  have hbody := forall₂_unnamed hR.alike h
  have hbehind := List.forall₂_drop 2 hbody
  simp only [addConstraint, sourceText_restated hR h, pairIs_eq hR.alike _ _ hbody,
    addPrimaryKey_restated hR.alike hbehind, addForeignKey_restated hR.alike hbehind]

/-- A table body has the same draft wherever it is written, with the same issues. -/
theorem ofClauses_restated_id {clauses clauses' : List (List Lexeme)}
    (h : List.Forall₂ (Script.Restated id source source') clauses clauses') (name : String) :
    ofClauses source name clauses = ofClauses source' name clauses' := by
  have hkind : ∀ {us vs : List Lexeme}, Script.Restated id source source' us vs →
      isTableConstraint us = isTableConstraint vs :=
    fun ⟨_, hR, hclause⟩ => isTableConstraint_eq hR.alike hclause
  have hcolumns : List.Forall₂ (Script.Restated id source source')
      (clauses.filter (!isTableConstraint ·)) (clauses'.filter (!isTableConstraint ·)) :=
    List.rel_filter (fun _ _ hclause => by simp only [hkind hclause]) h
  have hconstraints : List.Forall₂ (Script.Restated id source source')
      (clauses.filter isTableConstraint) (clauses'.filter isTableConstraint) :=
    List.rel_filter (fun _ _ hclause => by simp only [hkind hclause]) h
  rw [ofClauses, ofClauses]
  refine List.rel_foldl (P := Eq) ?_ (List.rel_foldl (P := Eq) ?_ rfl hcolumns) hconstraints
  · rintro d _ rfl us vs ⟨R, hR, hclause⟩
    exact addConstraint_restated hR hclause d
  · rintro d _ rfl us vs ⟨R, hR, hclause⟩
    exact addColumn_restated hR hclause d

end Draft

end Clauses

/-! ## Statements that are written at another place -/

/-- The same issue, or the same table with clauses that correspond. -/
theorem tableBody_restated {s s' : Statement} (h : s.Restated id s') :
    (∃ issue, tableBody s = .error issue ∧ tableBody s' = .error issue) ∨
      ∃ name body body', tableBody s = .ok (name, body) ∧ tableBody s' = .ok (name, body') ∧
        List.Forall₂ (Script.Restated id s.source s'.source) (Lexeme.clauses body)
          (Lexeme.clauses body') := by
  obtain ⟨R, hR, h⟩ := h
  have hhead := forall₂_dropIfNotExists hR.alike
    (List.forall₂_drop 1 (forall₂_dropWhile_isWord hR.alike tableModifiers (List.forall₂_drop 1 h)))
  have hname := rel_qualifiedName? hR.alike hhead
  simp only [tableBody, dropModifiers, sourceText_restated hR h]
  revert hname
  generalize qualifiedName? _ = found
  generalize qualifiedName? _ = found'
  rintro (@⟨⟨table, rest⟩, ⟨table', rest'⟩, hsame, hrest⟩ | _)
  · obtain rfl : table = table' := hsame
    simp only
    cases hrest with
    | nil => exact Or.inl ⟨_, rfl, rfl⟩
    | @cons u v rest rest' hu hrest =>
      simp only [(hR.alike _ _ hu).isOpening]
      split
      · have hclosing := Lexeme.rel_closing? hR.alike hrest
        revert hclosing
        generalize Lexeme.closing? rest = found
        generalize Lexeme.closing? rest' = found'
        rintro (@⟨⟨body, _⟩, ⟨body', _⟩, hbody, -⟩ | _)
        · refine Or.inr ⟨table, body, body', rfl, rfl, ?_⟩
          exact (Lexeme.forall₂_clauses hR.alike hbody).imp fun _ _ hclause => ⟨R, hR, hclause⟩
        · exact Or.inl ⟨_, rfl, rfl⟩
      · exact Or.inl ⟨_, rfl, rfl⟩
  · exact Or.inl ⟨_, rfl, rfl⟩

/-! ## What a statement adds to the issues -/

/-- The issues that a statement adds, with the drafts of the statements before it. -/
def Statement.issuesBehind (ds : List Draft) (s : Statement) : List Issue :=
  if isCreateTable s.lexemes then
    match tableBody s with
    | .error issue => [issue]
    | .ok (name, body) =>
      if name ∈ ds.map (·.name) then [.duplicateTable name]
      else (Draft.ofClauses s.source name (Lexeme.clauses body)).issues
  else []

/-- The issues that some statements add one after the other. -/
def issuesFrom (ds : List Draft) : List Statement → List Issue
  | [] => []
  | s :: found => s.issuesBehind ds ++ issuesFrom (s.draft?.toList.foldl addNew ds) found

theorem issues_add (p : Progress) (s : Statement) :
    (p.add s).issues = p.issues ++ s.issuesBehind (p.drafts.map Draft.quiet) := by
  rw [Progress.add, Statement.issuesBehind]
  split
  · cases tableBody s with
    | error _ => rfl
    | ok found =>
      have hknown : p.drafts.any (·.name = found.1) = true ↔
          found.1 ∈ (p.drafts.map Draft.quiet).map (·.name) := by simp
      simp only [hknown]
      split <;> rfl
  · exact (List.append_nil _).symm

theorem issues_foldl (p : Progress) (found : List Statement) :
    (found.foldl Progress.add p).issues =
      p.issues ++ issuesFrom (p.drafts.map Draft.quiet) found := by
  induction found generalizing p with
  | nil => exact (List.append_nil _).symm
  | cons s found ih =>
    rw [List.foldl_cons, ih, issues_add, quiet_drafts_add, issuesFrom, List.append_assoc]

theorem issuesFrom_append (ds : List Draft) (found more : List Statement) :
    issuesFrom ds (found ++ more) =
      issuesFrom ds found ++
        issuesFrom ((found.filterMap Statement.draft?).foldl addNew ds) more := by
  induction found generalizing ds with
  | nil => rfl
  | cons s found ih =>
    rw [List.cons_append, issuesFrom, ih, issuesFrom, List.append_assoc, List.filterMap_cons]
    cases s.draft? <;> rfl

theorem issuesBehind_restated {s s' : Statement} (h : s.Restated id s') (ds : List Draft) :
    s.issuesBehind ds = s'.issuesBehind ds := by
  have hcreate : isCreateTable s.lexemes = isCreateTable s'.lexemes := by
    obtain ⟨R, hR, hlexemes⟩ := h
    exact isCreateTable_eq hR.alike hlexemes
  rw [Statement.issuesBehind, Statement.issuesBehind, hcreate]
  rcases tableBody_restated h with ⟨issue, hs, hs'⟩ | ⟨name, body, body', hs, hs', hclauses⟩
  · rw [hs, hs']
  · simp only [hs, hs', Draft.ofClauses_restated_id hclauses]

theorem issuesFrom_restated {found found' : List Statement}
    (h : List.Forall₂ (Statement.Restated id) found found') (ds : List Draft) :
    issuesFrom ds found = issuesFrom ds found' := by
  induction h generalizing ds with
  | nil => rfl
  | @cons s s' _ _ hs _ ih =>
    have hdraft : s.draft? = s'.draft? := by
      have hsame := draft?_restated hs
      rwa [funext Draft.through_id, Option.map_id', Option.map_id'] at hsame
    rw [issuesFrom, issuesFrom, issuesBehind_restated hs, hdraft, ih]

/-! ## References that are left open -/

/-- The issue of a reference whose column is not found. -/
def openIssue? (tables : List Table) (table : String) (p : Pending) : Option Issue :=
  if resolve? tables p.target = none then
    some (.unresolvedReference table p.field p.target.table)
  else none

/-- The issues of the references of some drafts. -/
def openIssues (ds : List Draft) : List Issue :=
  ds.flatMap fun d => d.pending.filterMap (openIssue? (ds.map Draft.table) d.name)

theorem Draft.resolved_issues (tables : List Table) (d : Draft) :
    (d.resolved tables).issues = d.pending.filterMap (openIssue? tables d.name) := by
  have hgen : ∀ (pending : List Pending) (resolved : Resolved),
      (pending.foldl (·.add tables) resolved).issues =
        resolved.issues ++ pending.filterMap (openIssue? tables resolved.table.name) := by
    intro pending
    induction pending with
    | nil => exact fun _ => (List.append_nil _).symm
    | cons p pending ih =>
      intro resolved
      have hname : (resolved.add tables p).table.name = resolved.table.name := by
        rw [Resolved.add_table, attach_name]
      rw [List.foldl_cons, ih, hname, Resolved.add_issues, List.append_assoc, List.filterMap_cons,
        openIssue?]
      split <;> rfl
  exact hgen d.pending ⟨d.table, [], []⟩

/-! ## Reports -/

/-- The issues of a text are those of what cannot be read, those of the statements and those of the
references that are left open. -/
theorem issues_read (tokenize : Tokenizer) (text : List Char) :
    (read tokenize text).issues =
      (statements tokenize (Response.script text)).2 ++
        issuesFrom [] (statements tokenize (Response.script text)).1 ++
          openIssues (draftsOf (statements tokenize (Response.script text)).1) := by
  have hdrafts := quiet_drafts_foldl { issues := (statements tokenize (Response.script text)).2 }
    (statements tokenize (Response.script text)).1
  have hissues := issues_foldl { issues := (statements tokenize (Response.script text)).2 }
    (statements tokenize (Response.script text)).1
  simp only [read, readScript, declared, hissues, List.flatMap_map]
  refine congrArg₂ (· ++ ·) rfl ?_
  rw [draftsOf]
  simp only [List.map_nil] at hdrafts
  rw [← hdrafts, openIssues, List.flatMap_map, List.map_map]
  exact List.flatMap_congr fun d _ => d.resolved_issues _

end Schemata.Script
