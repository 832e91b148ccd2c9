import Mathlib.Data.List.Basic
import Mathlib.Tactic
import Schemata.Proofs.Response
import Schemata.Proofs.Script.Clauses
import Schemata.Proofs.Script.Resolution

/-!
# Scripts by their drafts

The schema of a script depends on the drafts of its statements alone: the first draft of each name
counts, its references are attached one by one, and every reference that finds its column is one
relationship.
-/
namespace Schemata.Script

/-! ## Statements -/

/-- The draft of a statement that creates a table, without issues. -/
def Statement.draft? (s : Statement) : Option Draft :=
  if isCreateTable s.lexemes then
    (tableBody s).toOption.map fun (name, body) =>
      (Draft.ofClauses s.source name (Lexeme.clauses body)).quiet
  else none

/-- Adds a draft, unless one of its name is there. -/
def addNew (ds : List Draft) (d : Draft) : List Draft :=
  if d.name ∈ ds.map (·.name) then ds else ds ++ [d]

/-- The drafts of some statements, the first one of each name. -/
def draftsOf (found : List Statement) : List Draft :=
  (found.filterMap Statement.draft?).foldl addNew []

theorem draft?_of_tableBody {s : Statement} {name : String} {body : List Lexeme}
    (hcreate : isCreateTable s.lexemes = true) (h : tableBody s = .ok (name, body)) :
    s.draft? = some (Draft.ofClauses s.source name (Lexeme.clauses body)).quiet := by
  rw [Statement.draft?, if_pos hcreate, h]
  rfl

theorem quiet_drafts_add (p : Progress) (s : Statement) :
    (p.add s).drafts.map Draft.quiet = s.draft?.toList.foldl addNew (p.drafts.map Draft.quiet) := by
  simp only [Progress.add, Statement.draft?]
  split_ifs with hcreate
  · cases tableBody s with
    | error _ => rfl
    | ok found =>
      obtain ⟨name, body⟩ := found
      have hname := Draft.ofClauses_name s.source name (Lexeme.clauses body)
      have hknown : p.drafts.any (·.name = name) = true ↔
          name ∈ (p.drafts.map Draft.quiet).map (·.name) := by simp
      simp only [Except.toOption, Option.map_some, Option.toList_some, List.foldl_cons,
        List.foldl_nil, addNew, Draft.quiet_name, hname]
      by_cases hmem : name ∈ (p.drafts.map Draft.quiet).map (·.name)
      · rw [if_pos (hknown.mpr hmem), if_pos hmem]
      · rw [if_neg (mt hknown.mp hmem), if_neg hmem, List.map_append, List.map_singleton]
  · rfl

theorem quiet_drafts_foldl (p : Progress) (found : List Statement) :
    (found.foldl Progress.add p).drafts.map Draft.quiet =
      (found.filterMap Statement.draft?).foldl addNew (p.drafts.map Draft.quiet) := by
  induction found generalizing p with
  | nil => rfl
  | cons s found ih =>
    rw [List.foldl_cons, ih, quiet_drafts_add, List.filterMap_cons]
    cases s.draft? <;> rfl

theorem addNew_of_mem {ds : List Draft} {d : Draft} (h : d.name ∈ ds.map (·.name)) :
    addNew ds d = ds := if_pos h

theorem addNew_of_not_mem {ds : List Draft} {d : Draft} (h : d.name ∉ ds.map (·.name)) :
    addNew ds d = ds ++ [d] := if_neg h

/-- Drafts that are added later do not depend on the earlier ones but for the names that are
taken. -/
theorem foldl_addNew (ds new : List Draft) :
    new.foldl addNew ds =
      ds ++ (new.foldl addNew []).filter fun d => d.name ∉ ds.map (·.name) := by
  induction new using List.reverseRecOn with
  | nil => simp
  | append_singleton new d ih =>
    rw [List.foldl_append, List.foldl_append, ih, List.foldl_cons, List.foldl_nil, List.foldl_cons,
      List.foldl_nil]
    generalize new.foldl addNew [] = found
    have htaken : d.name ∈ (ds ++ found.filter fun e => e.name ∉ ds.map (·.name)).map (·.name) ↔
        d.name ∈ ds.map (·.name) ∨ d.name ∈ found.map (·.name) := by
      simp only [List.map_append, List.mem_append, List.mem_map, List.mem_filter, decide_eq_true_eq]
      grind
    by_cases hfound : d.name ∈ found.map (·.name)
    · rw [addNew_of_mem (htaken.mpr (Or.inr hfound)), addNew_of_mem hfound]
    · rw [addNew_of_not_mem hfound, List.filter_append, ← List.append_assoc]
      by_cases hold : d.name ∈ ds.map (·.name)
      · rw [addNew_of_mem (htaken.mpr (Or.inl hold))]
        simp only [List.filter_singleton, hold, not_true_eq_false, decide_false, cond_false,
          List.append_nil]
      · rw [addNew_of_not_mem (mt htaken.mp (not_or.mpr ⟨hold, hfound⟩))]
        simp only [List.filter_singleton, hold, not_false_eq_true, decide_true, cond_true]

theorem draftsOf_append (found more : List Statement) :
    draftsOf (found ++ more) =
      draftsOf found ++ (draftsOf more).filter fun d => d.name ∉ (draftsOf found).map (·.name) := by
  rw [draftsOf, List.filterMap_append, List.foldl_append, foldl_addNew]
  rfl

theorem draftsOf_singleton {s : Statement} {d : Draft} (h : s.draft? = some d) :
    draftsOf [s] = [d] := by
  rw [draftsOf, List.filterMap_cons_some h]
  rfl

/-! ## References -/

/-- Attaches a pending reference, if its column is found. -/
def attach (tables : List Table) (t : Table) (p : Pending) : Table :=
  ((resolve? tables p.target).map (setReference t p.field)).getD t

/-- The relationship of a pending reference, if its column is found. -/
def edge? (tables : List Table) (table : String) (p : Pending) : Option Relationship :=
  (resolve? tables p.target).map (·.relationship table p.field)

theorem attach_name (tables : List Table) (t : Table) (p : Pending) :
    (attach tables t p).name = t.name := by
  rw [attach]
  cases resolve? tables p.target <;> rfl

theorem Resolved.add_table (tables : List Table) (resolved : Resolved) (p : Pending) :
    (resolved.add tables p).table = attach tables resolved.table p := by
  rw [Resolved.add, attach]
  cases resolve? tables p.target <;> rfl

theorem Resolved.add_relationships (tables : List Table) (resolved : Resolved) (p : Pending) :
    (resolved.add tables p).relationships =
      resolved.relationships ++ (edge? tables resolved.table.name p).toList := by
  rw [Resolved.add, edge?]
  cases resolve? tables p.target <;> simp

namespace Draft

theorem resolved_table (tables : List Table) (d : Draft) :
    (d.resolved tables).table = d.pending.foldl (attach tables) d.table := by
  have hgen : ∀ (pending : List Pending) (resolved : Resolved),
      (pending.foldl (·.add tables) resolved).table =
        pending.foldl (attach tables) resolved.table := by
    intro pending
    induction pending with
    | nil => exact fun _ => rfl
    | cons p pending ih =>
      intro resolved
      rw [List.foldl_cons, List.foldl_cons, ih, Resolved.add_table]
  exact hgen d.pending ⟨d.table, [], []⟩

theorem resolved_relationships (tables : List Table) (d : Draft) :
    (d.resolved tables).relationships = d.pending.filterMap (edge? tables d.name) := by
  have hgen : ∀ (pending : List Pending) (resolved : Resolved),
      (pending.foldl (·.add tables) resolved).relationships =
        resolved.relationships ++ pending.filterMap (edge? tables resolved.table.name) := by
    intro pending
    induction pending with
    | nil => exact fun _ => (List.append_nil _).symm
    | cons p pending ih =>
      intro resolved
      have hname : (resolved.add tables p).table.name = resolved.table.name := by
        rw [Resolved.add_table, attach_name]
      rw [List.foldl_cons, ih, hname, Resolved.add_relationships, List.append_assoc,
        List.filterMap_cons]
      cases edge? tables resolved.table.name p <;> rfl
  exact hgen d.pending ⟨d.table, [], []⟩

end Draft

/-! ## Schemas -/

/-- The tables of some drafts with the declared references attached. -/
def linked (ds : List Draft) : Schema where
  tables := ds.map fun d => d.pending.foldl (attach (ds.map Draft.table)) d.table
  relationships := ds.flatMap fun d => d.pending.filterMap (edge? (ds.map Draft.table) d.name)

theorem attach_unlinked (tables : List Table) (t : Table) (p : Pending) :
    (attach tables t p).unlinked = t.unlinked := by
  rw [attach]
  cases resolve? tables p.target with
  | none => rfl
  | some r => exact setReference_unlinked t p.field r

theorem foldl_attach_unlinked (tables : List Table) (t : Table) (pending : List Pending) :
    (pending.foldl (attach tables) t).unlinked = t.unlinked := by
  induction pending generalizing t with
  | nil => rfl
  | cons p pending ih => rw [List.foldl_cons, ih, attach_unlinked]

/-- Linking adds references and nothing else. -/
theorem unlinked_linked (ds : List Draft) :
    (linked ds).infer.tables.map Table.unlinked = ds.map fun d => d.table.unlinked := by
  rw [Schema.unlinked_infer, linked, List.map_map]
  exact List.map_congr_left fun d _ => foldl_attach_unlinked _ d.table d.pending

theorem names_linked (ds : List Draft) :
    (linked ds).infer.tables.map (·.name) = ds.map (·.name) := by
  have h : (linked ds).infer.tables.map Table.unlinked =
      (ds.map Draft.table).map Table.unlinked := by
    rw [unlinked_linked, List.map_map]
    rfl
  rw [Schema.names_eq_of_unlinked h, List.map_map]
  rfl

theorem declared_schema (p : Progress) :
    (declared p).schema = linked (p.drafts.map Draft.quiet) := by
  have htables : (p.drafts.map Draft.quiet).map Draft.table = p.drafts.map Draft.table := by
    rw [List.map_map]
    rfl
  simp only [declared, linked, htables, List.map_map, List.flatMap_map, Function.comp_def,
    Draft.resolved_table, Draft.resolved_relationships]
  rfl

/-- A script without `CREATE TABLE` in its strings is cut by its lexemes. -/
theorem statements_of_lexemes {tokenize : Tokenizer} {script : List Char} {us : List Lexeme}
    (h : tokenize script = .ok us) (hhide : hidesCreateTable script us = false) :
    statements tokenize script = ((Lexeme.statements us).map (⟨·, script⟩), []) := by
  simp [statements, h, hhide]

theorem hidesCreateTable_of_no_string {us : List Lexeme} (source : List Char)
    (h : ∀ u ∈ us, u.kind ≠ .string) : hidesCreateTable source us = false :=
  List.any_eq_false.mpr fun u hu => by simp [h u hu]

/-- The schema that is read is the one of the drafts, with its links. -/
theorem schema_read (tokenize : Tokenizer) (text : List Char) :
    (read tokenize text).schema =
      (linked (draftsOf (statements tokenize (Response.script text)).1)).infer := by
  simp only [read, readScript, declared_schema, quiet_drafts_foldl]
  rfl

/-- The schema of a text without fences that is cut by its lexemes. -/
theorem schema_read_of_lexemes {tokenize : Tokenizer} {text : List Char} {us : List Lexeme}
    (h : tokenize text = .ok us) (hfence : Response.opening? text = none)
    (hhide : hidesCreateTable text us = false) :
    (read tokenize text).schema =
      (linked (draftsOf ((Lexeme.statements us).map (⟨·, text⟩)))).infer := by
  rw [schema_read, Response.script_eq_self_of_unfenced hfence, statements_of_lexemes h hhide]

end Schemata.Script
