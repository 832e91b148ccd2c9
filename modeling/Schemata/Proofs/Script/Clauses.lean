import Mathlib.Data.List.Basic
import Mathlib.Tactic
import Schemata.Proofs.Script.Draft

/-!
# What clauses say

A clause of a table body is a column or a demand on columns. Apart from its issues, a draft depends
on no more than the columns and the demands of its clauses, each in order, however they are written
and wherever they stand.
-/
namespace Schemata.Script

open Phrase

/-! ## Columns -/

/-- What a column clause declares. -/
structure Column where
  field : Field
  target : Option Target
deriving DecidableEq

def Column.name (c : Column) : String := c.field.name

/-- The column of a clause, if the clause can be read as one. -/
def column? (source : List Char) : List Lexeme → Option Column
  | first :: second :: rest =>
    if first.isName then
      let traits := columnTraits source 0 {} rest
      some ⟨columnField first.identifier (typeText second) traits, traits.target⟩
    else none
  | _ => none

/-- The columns of some clauses, with those that repeat a name. -/
def columnsOf (source : List Char) (clauses : List (List Lexeme)) : List Column :=
  (clauses.filter (!isTableConstraint ·)).filterMap (column? source)

@[simp] theorem columnsOf_nil (source : List Char) : columnsOf source [] = [] := rfl

theorem columnsOf_append (source : List Char) (clauses more : List (List Lexeme)) :
    columnsOf source (clauses ++ more) = columnsOf source clauses ++ columnsOf source more := by
  rw [columnsOf, List.filter_append, List.filterMap_append]
  rfl

theorem columnsOf_singleton (source : List Char) (clause : List Lexeme) :
    columnsOf source [clause] =
      if isTableConstraint clause then [] else (column? source clause).toList := by
  cases htable : isTableConstraint clause with
  | true => simp [columnsOf, htable]
  | false =>
    simp only [columnsOf, List.filter_cons, List.filter_nil, htable, Bool.not_false, if_true,
      Bool.false_eq_true, if_false, List.filterMap_cons, List.filterMap_nil]
    cases column? source clause <;> rfl

/-- A clause of a name and a type alone. -/
theorem columnsOf_pair (source : List Char) {name type : Lexeme}
    (h : isTableConstraint [name, type] = false) (hname : name.isName = true) :
    columnsOf source [[name, type]] =
      [⟨columnField name.identifier (typeText type) {}, none⟩] := by
  rw [columnsOf_singleton, h, if_neg Bool.false_ne_true]
  simp only [column?, hname, if_true, columnTraits]
  rfl

@[simp] theorem columnField_name (name type : String) (traits : ColumnTraits) :
    (columnField name type traits).name = name := rfl

/-! ## Demands -/

/-- What a table constraint asks for, if it can be kept. -/
inductive Demand where
  | key (field : String)
  | reference (field : String) (target : Target)
  | nothing
deriving DecidableEq

/-- What is asked for behind `PRIMARY KEY`. -/
def keyDemand (us : List Lexeme) : Demand :=
  match (nameList us).1 with
  | [name] => .key name
  | _ => .nothing

/-- What is asked for by a reference of the named columns. -/
def targetDemand : List String → Target → Demand
  | [name], target => .reference name target
  | _, _ => .nothing

/-- What is asked for behind `FOREIGN KEY`. -/
def referenceDemand (us : List Lexeme) : Demand :=
  match (nameList us).2 with
  | u :: rest =>
    if u.isWord ["REFERENCES"] then
      match (reference rest).1 with
      | .ok target => targetDemand (nameList us).1 target
      | .error _ => .nothing
    else .nothing
  | [] => .nothing

def demand (clause : List Lexeme) : Demand :=
  let body := Draft.unnamed clause
  if pairIs "PRIMARY" "KEY" body then keyDemand (body.drop 2)
  else if pairIs "FOREIGN" "KEY" body then referenceDemand (body.drop 2)
  else .nothing

def demandsOf (clauses : List (List Lexeme)) : List Demand :=
  (clauses.filter isTableConstraint).map demand

theorem demandsOf_append (clauses more : List (List Lexeme)) :
    demandsOf (clauses ++ more) = demandsOf clauses ++ demandsOf more := by
  rw [demandsOf, List.filter_append, List.map_append]
  rfl

theorem demandsOf_singleton (clause : List Lexeme) :
    demandsOf [clause] = if isTableConstraint clause then [demand clause] else [] := by
  cases htable : isTableConstraint clause <;> simp [demandsOf, htable]

/-! ## Drafts without issues -/

namespace Draft

/-- The draft without its issues. -/
def quiet (d : Draft) : Draft := { d with issues := [] }

@[simp] theorem quiet_name (d : Draft) : d.quiet.name = d.name := rfl

@[simp] theorem quiet_fields (d : Draft) : d.quiet.fields = d.fields := rfl

@[simp] theorem quiet_pending (d : Draft) : d.quiet.pending = d.pending := rfl

@[simp] theorem quiet_table (d : Draft) : d.quiet.table = d.table := rfl

@[simp] theorem quiet_report (d : Draft) (issue : Issue) : (d.report issue).quiet = d.quiet := rfl

/-- Takes a column in, unless one of its name is there. -/
def keep (d : Draft) (c : Column) : Draft :=
  if c.name ∈ d.fields.map (·.name) then d
  else
    { d with
      fields := d.fields ++ [c.field]
      pending := d.pending ++ (c.target.map (Pending.mk c.name)).toList }

theorem keep_of_mem {d : Draft} {c : Column} (h : c.name ∈ d.fields.map (·.name)) :
    d.keep c = d := if_pos h

theorem keep_of_not_mem {d : Draft} {c : Column} (h : c.name ∉ d.fields.map (·.name)) :
    d.keep c =
      { d with
        fields := d.fields ++ [c.field]
        pending := d.pending ++ (c.target.map (Pending.mk c.name)).toList } := if_neg h

/-- Keeps a reference of a field that is there and has none. -/
def refer (d : Draft) (name : String) (target : Target) : Draft :=
  if name ∈ d.fields.map (·.name) ∧ name ∉ d.pending.map (·.field) then
    { d with pending := d.pending ++ [⟨name, target⟩] }
  else d

theorem refer_of_open {d : Draft} {name : String} (target : Target)
    (hknown : name ∈ d.fields.map (·.name)) (hopen : name ∉ d.pending.map (·.field)) :
    d.refer name target = { d with pending := d.pending ++ [⟨name, target⟩] } :=
  if_pos ⟨hknown, hopen⟩

theorem refer_of_not_open {d : Draft} {name : String} (target : Target)
    (h : ¬(name ∈ d.fields.map (·.name) ∧ name ∉ d.pending.map (·.field))) :
    d.refer name target = d := if_neg h

/-- Meets a demand, as far as it can be met. -/
def meet (d : Draft) : Demand → Draft
  | .key name => d.setPrimaryKey name
  | .reference name target => d.refer name target
  | .nothing => d

/-- The draft of some columns and demands. -/
def assemble (name : String) (columns : List Column) (demands : List Demand) : Draft :=
  demands.foldl meet (columns.foldl keep ⟨name, [], [], []⟩)

/-! ### Every clause does what it says -/

theorem quiet_addColumn (source : List Char) (d : Draft) (clause : List Lexeme) :
    (d.addColumn source clause).quiet = (column? source clause).toList.foldl keep d.quiet := by
  rcases clause with _ | ⟨first, _ | ⟨second, rest⟩⟩
  · rfl
  · rfl
  by_cases hname : first.isName = true
  · let traits := columnTraits source 0 {} rest
    let c : Column := ⟨columnField first.identifier (typeText second) traits, traits.target⟩
    have hc : column? source (first :: second :: rest) = some c := if_pos hname
    have hknown : (d.field? first.identifier).isSome = true ↔
        c.name ∈ d.quiet.fields.map (·.name) := field?_isSome_iff
    simp only [addColumn, hname, Bool.not_true, Bool.false_eq_true, if_false]
    rw [hc, Option.toList_some, List.foldl_cons, List.foldl_nil]
    split_ifs with hmem
    · exact (keep_of_mem (hknown.mp hmem)).symm
    · exact (keep_of_not_mem (mt hknown.mpr hmem)).symm
  · simp [addColumn, column?, hname]

theorem setPrimaryKey_of_unknown {d : Draft} {name : String}
    (h : name ∉ d.fields.map (·.name)) : d.setPrimaryKey name = d := by
  have hfields : d.fields.map (fun f =>
      if f.name = name then { f with primaryKey := true, nullable := false } else f) =
        d.fields := by
    refine (List.map_congr_left fun f hf => if_neg fun he => ?_).trans (List.map_id _)
    exact h (List.mem_map.mpr ⟨f, hf, he⟩)
  rw [setPrimaryKey, hfields]

theorem quiet_addPrimaryKey (d : Draft) (text : String) (us : List Lexeme) :
    (d.addPrimaryKey text us).quiet = d.quiet.meet (keyDemand us) := by
  simp only [addPrimaryKey, keyDemand]
  generalize (nameList us).1 = names
  rcases names with _ | ⟨name, _ | ⟨second, names⟩⟩
  · rfl
  · simp only
    split
    · rfl
    · next hunknown =>
      have hfree : name ∉ d.fields.map (·.name) := mt field?_isSome_iff.mpr hunknown
      exact (setPrimaryKey_of_unknown (d := d.quiet) hfree).symm
  · rfl

theorem quiet_addTarget (d : Draft) (text : String) (names : List String) (target : Target) :
    (d.addTarget text names target).quiet = d.quiet.meet (targetDemand names target) := by
  rcases names with _ | ⟨name, _ | ⟨second, names⟩⟩
  · rfl
  · have hknown : (d.field? name).isNone = true ↔ name ∉ d.fields.map (·.name) := by
      rw [← field?_isSome_iff, Option.isNone_iff_eq_none, Option.isSome_iff_ne_none, not_not]
    have hpending : d.pending.any (·.field = name) = true ↔ name ∈ d.pending.map (·.field) := by
      simp
    simp only [addTarget, targetDemand, meet]
    split_ifs with hunknown hset
    · have hnot := hknown.mp hunknown
      exact (refer_of_not_open (d := d.quiet) target fun h => hnot h.1).symm
    · have hnot := hpending.mp hset
      exact (refer_of_not_open (d := d.quiet) target fun h => h.2 hnot).symm
    · have hmem := not_not.mp (mt hknown.mpr hunknown)
      exact (refer_of_open (d := d.quiet) target hmem (mt hpending.mpr hset)).symm
  · rfl

theorem quiet_addForeignKey (d : Draft) (text : String) (us : List Lexeme) :
    (d.addForeignKey text us).quiet = d.quiet.meet (referenceDemand us) := by
  simp only [addForeignKey, referenceDemand]
  cases (nameList us).2 with
  | nil => rfl
  | cons u rest =>
    simp only
    split
    · cases (reference rest).1 with
      | error _ => rfl
      | ok target => exact quiet_addTarget ..
    · rfl

theorem quiet_addConstraint (source : List Char) (d : Draft) (clause : List Lexeme) :
    (d.addConstraint source clause).quiet = d.quiet.meet (demand clause) := by
  simp only [addConstraint, demand]
  split_ifs
  · exact quiet_addPrimaryKey ..
  · exact quiet_addForeignKey ..
  · rfl

theorem quiet_foldl_addColumn (source : List Char) (d : Draft) (clauses : List (List Lexeme)) :
    (clauses.foldl (·.addColumn source) d).quiet =
      (clauses.filterMap (column? source)).foldl keep d.quiet := by
  induction clauses generalizing d with
  | nil => rfl
  | cons clause clauses ih =>
    rw [List.foldl_cons, ih, quiet_addColumn, List.filterMap_cons]
    cases column? source clause <;> rfl

theorem quiet_foldl_addConstraint (source : List Char) (d : Draft) (clauses : List (List Lexeme)) :
    (clauses.foldl (·.addConstraint source) d).quiet = (clauses.map demand).foldl meet d.quiet := by
  induction clauses generalizing d with
  | nil => rfl
  | cons clause clauses ih =>
    rw [List.foldl_cons, ih, quiet_addConstraint, List.map_cons, List.foldl_cons]

/-- Apart from its issues, a draft is made of the columns and the demands of its clauses. -/
theorem quiet_ofClauses (source : List Char) (name : String) (clauses : List (List Lexeme)) :
    (ofClauses source name clauses).quiet =
      assemble name (columnsOf source clauses) (demandsOf clauses) := by
  rw [ofClauses, quiet_foldl_addConstraint, quiet_foldl_addColumn]
  rfl

end Draft

end Schemata.Script
