import Mathlib.Data.List.Basic
import Mathlib.Tactic
import Schemata.Proofs.Script.KeyPlacement
import Schemata.Proofs.Script.Reported

/-!
# Outcomes

Every statement, every clause of a table body and every reference has one outcome, which may depend
on what stands before it. A ledger lists the outcomes of some entries in their order, and what has
been read in the end is the sum of a ledger.
-/
namespace Schemata.Script

open Phrase

/-! ## Ledgers -/

/-- The outcomes of some entries, one for each. An outcome depends on the entries before. -/
inductive Ledger {α β : Type} (Ends : List α → α → β → Prop) : List α → List β → Prop
  | nil : Ledger Ends [] []
  | snoc {before : List α} {os : List β} {a : α} {o : β} (h : Ledger Ends before os)
      (ho : Ends before a o) : Ledger Ends (before ++ [a]) (os ++ [o])

/-- What holds of no entries and is kept by every entry with one of its outcomes holds of a whole
ledger. -/
theorem exists_ledger {α β : Type} {Ends : List α → α → β → Prop} {P : List α → List β → Prop}
    (hnil : P [] [])
    (hsnoc : ∀ before os a, P before os → ∃ o, Ends before a o ∧ P (before ++ [a]) (os ++ [o]))
    (as : List α) : ∃ os, Ledger Ends as os ∧ P as os := by
  induction as using List.reverseRecOn with
  | nil => exact ⟨[], .nil, hnil⟩
  | append_singleton as a ih =>
    obtain ⟨os, hledger, hos⟩ := ih
    obtain ⟨o, ho, hnext⟩ := hsnoc as os a hos
    exact ⟨os ++ [o], .snoc hledger ho, hnext⟩

/-! ## Columns -/

/-- The reference that stands with a column. -/
def Column.pending? (c : Column) : Option Pending := c.target.map (Pending.mk c.name)

/-- What becomes of a column clause: a field, with issues for the references that cannot be read, or
one issue. -/
inductive ColumnOutcome where
  | field (column : Column) (faults : List Issue)
  | skipped (issue : Issue)

namespace ColumnOutcome

def column? : ColumnOutcome → Option Column
  | field column _ => some column
  | skipped _ => none

def issues : ColumnOutcome → List Issue
  | field _ faults => faults
  | skipped issue => [issue]

end ColumnOutcome

/-- The issues of the references of a column clause that cannot be read. -/
def referenceFaults (source : List Char) (table : String) (clause : List Lexeme) : List Issue :=
  (columnTraits source 0 {} (clause.drop 2)).faults.map
    (Draft.referenceIssue table (Lexeme.sourceText source clause))

/-- The outcome of a column clause behind others. A clause without a name and a type is skipped, and
so is one that names a column again. -/
inductive ColumnEnds (source : List Char) (table : String) (before : List (List Lexeme))
    (clause : List Lexeme) : ColumnOutcome → Prop
  | field {c : Column} (hc : column? source clause = some c)
      (hnew : c.name ∉ (columnsOf source before).map Column.name) :
      ColumnEnds source table before clause (.field c (referenceFaults source table clause))
  | unreadable (hc : column? source clause = none) :
      ColumnEnds source table before clause
        (.skipped (.unreadableColumn table (Lexeme.sourceText source clause)))
  | repeated {c : Column} (hc : column? source clause = some c)
      (hold : c.name ∈ (columnsOf source before).map Column.name) :
      ColumnEnds source table before clause
        (.skipped (.duplicateColumn table (Lexeme.sourceText source clause) c.name))

theorem exists_columnEnds (source : List Char) (table : String) (before : List (List Lexeme))
    (clause : List Lexeme) : ∃ o, ColumnEnds source table before clause o := by
  cases hc : column? source clause with
  | none => exact ⟨_, .unreadable hc⟩
  | some c =>
    by_cases hmem : c.name ∈ (columnsOf source before).map Column.name
    · exact ⟨_, .repeated hc hmem⟩
    · exact ⟨_, .field hc hmem⟩

namespace Draft

variable {source : List Char} {d : Draft} {before : List (List Lexeme)} {clause : List Lexeme}

theorem addColumn_of_none (h : column? source clause = none) :
    d.addColumn source clause =
      d.report (.unreadableColumn d.name (Lexeme.sourceText source clause)) := by
  rcases clause with _ | ⟨first, _ | ⟨second, rest⟩⟩
  · rfl
  · rfl
  have hname : ¬first.isName = true := fun hname => by simp [column?, hname] at h
  simp [addColumn, hname]

theorem addColumn_of_some {c : Column} (h : column? source clause = some c) :
    d.addColumn source clause =
      if c.name ∈ d.fields.map (·.name) then
        d.report (.duplicateColumn d.name (Lexeme.sourceText source clause) c.name)
      else
        { d with
          fields := d.fields ++ [c.field]
          pending := d.pending ++ c.pending?.toList
          issues := d.issues ++ referenceFaults source d.name clause } := by
  rcases clause with _ | ⟨first, _ | ⟨second, rest⟩⟩
  · cases h
  · cases h
  have hname : first.isName = true := by
    by_contra hname
    rw [column?, if_neg hname] at h
    cases h
  obtain rfl := Option.some.inj ((if_pos hname).symm.trans h)
  simp only [addColumn, hname, Bool.not_true, Bool.false_eq_true, if_false, field?_isSome_iff]
  rfl

/-- A column clause adds its outcome to the draft of the clauses before it. -/
theorem addColumn_of_ends {o : ColumnOutcome} (h : ColumnEnds source d.name before clause o)
    (hnames : ∀ name, name ∈ d.fields.map (·.name) ↔
      name ∈ (columnsOf source before).map Column.name) :
    d.addColumn source clause =
      { d with
        fields := d.fields ++ (o.column?.map Column.field).toList
        pending := d.pending ++ (o.column?.bind Column.pending?).toList
        issues := d.issues ++ o.issues } := by
  have hskip : ∀ issue, d.report issue =
      { d with
        fields := d.fields ++ []
        pending := d.pending ++ []
        issues := d.issues ++ [issue] } := by
    intro issue
    rw [List.append_nil, List.append_nil]
    rfl
  cases h with
  | field hc hnew =>
    rw [addColumn_of_some hc, if_neg (mt (hnames _).mp hnew)]
    rfl
  | unreadable hc => exact (addColumn_of_none hc).trans (hskip _)
  | repeated hc hold =>
    rw [addColumn_of_some hc, if_pos ((hnames _).mpr hold)]
    exact hskip _

end Draft

/-! ## Constraints -/

/-- What becomes of a table constraint: a key, a reference or one issue. -/
inductive ConstraintOutcome where
  | key (field : String)
  | reference (pending : Pending)
  | reported (issue : Issue)

namespace ConstraintOutcome

def key? : ConstraintOutcome → Option String
  | key field => some field
  | _ => none

def pending? : ConstraintOutcome → Option Pending
  | reference pending => some pending
  | _ => none

def issue? : ConstraintOutcome → Option Issue
  | reported issue => some issue
  | _ => none

end ConstraintOutcome

/-- Whether a draft can meet a demand: its field is there, and has no other reference if it is asked
to have one. -/
def Draft.Meets (d : Draft) : Demand → Prop
  | .key name => name ∈ d.fields.map (·.name)
  | .reference name _ => name ∈ d.fields.map (·.name) ∧ name ∉ d.pending.map (·.field)
  | .nothing => False

/-- The outcome of a table constraint behind others. What it demands is met by the draft of the
columns and the constraints before, or it is reported for its table with its text. -/
inductive ConstraintEnds (source : List Char) (table : String) (columns : List Column)
    (before : List (List Lexeme)) (clause : List Lexeme) : ConstraintOutcome → Prop
  | key {name : String} (hdemand : demand clause = .key name)
      (hmeets : (Draft.assemble table columns (before.map demand)).Meets (demand clause)) :
      ConstraintEnds source table columns before clause (.key name)
  | reference {name : String} {target : Target} (hdemand : demand clause = .reference name target)
      (hmeets : (Draft.assemble table columns (before.map demand)).Meets (demand clause)) :
      ConstraintEnds source table columns before clause (.reference ⟨name, target⟩)
  | reported {issue : Issue}
      (hmeets : ¬(Draft.assemble table columns (before.map demand)).Meets (demand clause))
      (htable : issue.table? = some table)
      (hclause : issue.clause? = some (Lexeme.sourceText source clause)) :
      ConstraintEnds source table columns before clause (.reported issue)

namespace Draft

variable {source : List Char} {d : Draft} {before : List (List Lexeme)} {clause : List Lexeme}

/-- One issue is all that a constraint does. -/
def Reports (d d' : Draft) (text : String) : Prop :=
  ∃ issue, issue.table? = some d.name ∧ issue.clause? = some text ∧ d' = d.report issue

theorem addPrimaryKey_cases (d : Draft) (text : String) (us : List Lexeme) :
    d.Meets (keyDemand us) ∧ d.addPrimaryKey text us = d.meet (keyDemand us) ∨
      ¬d.Meets (keyDemand us) ∧ d.Reports (d.addPrimaryKey text us) text := by
  simp only [addPrimaryKey, keyDemand]
  rcases (nameList us).1 with _ | ⟨name, _ | ⟨second, names⟩⟩
  · exact Or.inr ⟨id, _, rfl, rfl, rfl⟩
  · simp only [field?_isSome_iff]
    split_ifs with hknown
    · exact Or.inl ⟨hknown, rfl⟩
    · exact Or.inr ⟨hknown, _, rfl, rfl, rfl⟩
  · exact Or.inr ⟨id, _, rfl, rfl, rfl⟩

theorem addTarget_cases (d : Draft) (text : String) (names : List String) (target : Target) :
    d.Meets (targetDemand names target) ∧
        d.addTarget text names target = d.meet (targetDemand names target) ∨
      ¬d.Meets (targetDemand names target) ∧ d.Reports (d.addTarget text names target) text := by
  rcases names with _ | ⟨name, _ | ⟨second, names⟩⟩
  · exact Or.inr ⟨id, _, rfl, rfl, rfl⟩
  · have hknown : (d.field? name).isNone = true ↔ name ∉ d.fields.map (·.name) := by
      rw [← field?_isSome_iff, Option.isNone_iff_eq_none, Option.isSome_iff_ne_none, not_not]
    have hpending : d.pending.any (·.field = name) = true ↔ name ∈ d.pending.map (·.field) := by
      simp
    simp only [addTarget, targetDemand, meet, Meets, hknown, hpending]
    by_cases hmem : name ∈ d.fields.map (·.name)
    · by_cases hset : name ∈ d.pending.map (·.field)
      · rw [if_neg (not_not.mpr hmem), if_pos hset]
        exact Or.inr ⟨fun h => h.2 hset, _, rfl, rfl, rfl⟩
      · rw [if_neg (not_not.mpr hmem), if_neg hset]
        exact Or.inl ⟨⟨hmem, hset⟩, (refer_of_open target hmem hset).symm⟩
    · rw [if_pos hmem]
      exact Or.inr ⟨fun h => hmem h.1, _, rfl, rfl, rfl⟩
  · exact Or.inr ⟨id, _, rfl, rfl, rfl⟩

theorem addForeignKey_cases (d : Draft) (text : String) (us : List Lexeme) :
    d.Meets (referenceDemand us) ∧ d.addForeignKey text us = d.meet (referenceDemand us) ∨
      ¬d.Meets (referenceDemand us) ∧ d.Reports (d.addForeignKey text us) text := by
  simp only [addForeignKey, referenceDemand]
  cases (nameList us).2 with
  | nil => exact Or.inr ⟨id, _, rfl, rfl, rfl⟩
  | cons u rest =>
    simp only
    split
    · cases (reference rest).1 with
      | error fault => cases fault <;> exact Or.inr ⟨id, _, rfl, rfl, rfl⟩
      | ok target => exact addTarget_cases ..
    · exact Or.inr ⟨id, _, rfl, rfl, rfl⟩

/-- A table constraint has what it demands, or is reported. -/
theorem addConstraint_cases (source : List Char) (d : Draft) (clause : List Lexeme) :
    d.Meets (demand clause) ∧ d.addConstraint source clause = d.meet (demand clause) ∨
      ¬d.Meets (demand clause) ∧
        d.Reports (d.addConstraint source clause) (Lexeme.sourceText source clause) := by
  simp only [addConstraint, demand]
  split_ifs
  · exact addPrimaryKey_cases ..
  · exact addForeignKey_cases ..
  · exact Or.inr ⟨id, _, rfl, rfl, rfl⟩

end Draft

/-! ## Table bodies -/

/-- The field, as a primary key if it is named as one. -/
def keyed (keys : List String) (f : Field) : Field :=
  if f.name ∈ keys then { f with primaryKey := true, nullable := false } else f

theorem keyed_name (keys : List String) (f : Field) : (keyed keys f).name = f.name := by
  rw [keyed]
  split <;> rfl

/-- One more name makes one more key. -/
theorem keyed_snoc (keys : List String) (name : String) (f : Field) :
    keyed (keys ++ [name]) f =
      if (keyed keys f).name = name then
        { keyed keys f with primaryKey := true, nullable := false }
      else keyed keys f := by
  rw [keyed_name]
  by_cases hmem : f.name ∈ keys
  · rw [keyed, if_pos (List.mem_append_left _ hmem), keyed, if_pos hmem]
    split <;> rfl
  · simp only [keyed, List.mem_append, List.mem_singleton, hmem, false_or, if_false]

namespace Draft

/-- The draft that outcomes of columns and of constraints add up to. -/
def sum (table : String) (columns : List ColumnOutcome) (constraints : List ConstraintOutcome) :
    Draft where
  name := table
  fields := (columns.filterMap ColumnOutcome.column?).map fun c =>
    keyed (constraints.filterMap ConstraintOutcome.key?) c.field
  pending := (columns.filterMap ColumnOutcome.column?).filterMap Column.pending? ++
    constraints.filterMap ConstraintOutcome.pending?
  issues := columns.flatMap ColumnOutcome.issues ++
    constraints.filterMap ConstraintOutcome.issue?

/-- The draft is the sum of the outcomes of its clauses, those of the columns first. -/
def Accounted (source : List Char) (clauses : List (List Lexeme)) (d : Draft) : Prop :=
  ∃ columns constraints,
    Ledger (ColumnEnds source d.name) (clauses.filter (!isTableConstraint ·)) columns ∧
      Ledger (ConstraintEnds source d.name (columnsOf source clauses))
        (clauses.filter isTableConstraint) constraints ∧
      d = sum d.name columns constraints

section Sum

variable {source : List Char} {table : String} {columns : List ColumnOutcome}
  {constraints : List ConstraintOutcome}

theorem sum_snoc_column (table : String) (columns : List ColumnOutcome) (o : ColumnOutcome) :
    sum table (columns ++ [o]) [] =
      { sum table columns [] with
        fields := (sum table columns []).fields ++ (o.column?.map Column.field).toList
        pending := (sum table columns []).pending ++ (o.column?.bind Column.pending?).toList
        issues := (sum table columns []).issues ++ o.issues } := by
  cases o with
  | field c faults => cases hc : c.pending? <;>
      simp [sum, ColumnOutcome.column?, ColumnOutcome.issues, keyed, hc]
  | skipped issue => simp [sum, ColumnOutcome.column?, ColumnOutcome.issues]

theorem mem_names_foldl_addColumn {clauses : List (List Lexeme)}
    (hclauses : ∀ clause ∈ clauses, isTableConstraint clause = false) {name : String} :
    name ∈ (clauses.foldl (addColumn source) ⟨table, [], [], []⟩).fields.map (·.name) ↔
      name ∈ (columnsOf source clauses).map Column.name := by
  have hcolumns : clauses.filter (!isTableConstraint ·) = clauses :=
    List.filter_eq_self.mpr fun clause hclause => by rw [hclauses clause hclause]; rfl
  rw [← quiet_fields, quiet_foldl_addColumn, mem_names_foldl_keep, columnsOf, hcolumns]
  simp

theorem isColumn_of_mem_filter (clauses : List (List Lexeme)) :
    ∀ clause ∈ clauses.filter (!isTableConstraint ·), isTableConstraint clause = false := by
  intro clause hclause
  simpa using (List.mem_filter.mp hclause).2

/-- The draft of some column clauses is the sum of their outcomes. -/
theorem exists_columns (source : List Char) (table : String) {clauses : List (List Lexeme)}
    (hclauses : ∀ clause ∈ clauses, isTableConstraint clause = false) :
    ∃ os, Ledger (ColumnEnds source table) clauses os ∧
      clauses.foldl (addColumn source) ⟨table, [], [], []⟩ = sum table os [] := by
  suffices h : ∃ os, Ledger (ColumnEnds source table) clauses os ∧
      ((∀ clause ∈ clauses, isTableConstraint clause = false) →
        clauses.foldl (addColumn source) ⟨table, [], [], []⟩ = sum table os []) by
    obtain ⟨os, hledger, hsum⟩ := h
    exact ⟨os, hledger, hsum hclauses⟩
  clear hclauses
  refine exists_ledger (P := fun clauses os =>
    (∀ clause ∈ clauses, isTableConstraint clause = false) →
      clauses.foldl (addColumn source) ⟨table, [], [], []⟩ = sum table os [])
    (fun _ => rfl) ?_ clauses
  intro before os clause ih
  obtain ⟨o, ho⟩ := exists_columnEnds source table before clause
  refine ⟨o, ho, fun hall => ?_⟩
  have hbefore := fun clause hclause => hall clause (List.mem_append_left _ hclause)
  have hnames : ∀ name, name ∈ (sum table os []).fields.map (·.name) ↔
      name ∈ (columnsOf source before).map Column.name := by
    intro name
    rw [← ih hbefore, mem_names_foldl_addColumn hbefore]
  rw [List.foldl_append, ih hbefore, List.foldl_cons, List.foldl_nil, sum_snoc_column]
  exact addColumn_of_ends (d := sum table os []) ho hnames

/-! ### Constraints -/

theorem sum_snoc_key (name : String) :
    sum table columns (constraints ++ [.key name]) =
      (sum table columns constraints).setPrimaryKey name := by
  simp only [sum, setPrimaryKey, List.filterMap_append, List.map_map]
  congr 1
  · exact List.map_congr_left fun c _ => keyed_snoc _ name c.field
  all_goals simp [ConstraintOutcome.pending?, ConstraintOutcome.issue?]

theorem sum_snoc_reference (p : Pending) :
    sum table columns (constraints ++ [.reference p]) =
      { sum table columns constraints with
        pending := (sum table columns constraints).pending ++ [p] } := by
  have hkeys : [ConstraintOutcome.reference p].filterMap ConstraintOutcome.key? = [] := rfl
  simp only [sum, List.filterMap_append, hkeys, List.append_nil]
  simp [ConstraintOutcome.pending?, ConstraintOutcome.issue?]

theorem sum_snoc_reported (issue : Issue) :
    sum table columns (constraints ++ [.reported issue]) =
      (sum table columns constraints).report issue := by
  have hkeys : [ConstraintOutcome.reported issue].filterMap ConstraintOutcome.key? = [] := rfl
  simp only [sum, report, List.filterMap_append, hkeys, List.append_nil]
  simp [ConstraintOutcome.pending?, ConstraintOutcome.issue?]

/-- A table constraint adds its outcome to the draft of the clauses before it. -/
theorem exists_constraintEnds {cs : List Column} {before : List (List Lexeme)}
    (hquiet : (sum table columns constraints).quiet = assemble table cs (before.map demand))
    (clause : List Lexeme) :
    ∃ o, ConstraintEnds source table cs before clause o ∧
      (sum table columns constraints).addConstraint source clause =
        sum table columns (constraints ++ [o]) := by
  rcases addConstraint_cases source (sum table columns constraints) clause with
    ⟨hmeets, hadd⟩ | ⟨hmeets, issue, htable, hclause, hadd⟩
  · have hmeets' : (assemble table cs (before.map demand)).Meets (demand clause) := by
      rw [← hquiet]
      cases hdemand : demand clause <;> rw [hdemand] at hmeets <;> exact hmeets
    cases hdemand : demand clause with
    | key name =>
      refine ⟨.key name, .key hdemand hmeets', ?_⟩
      rw [hadd, hdemand, sum_snoc_key]
      rfl
    | reference name target =>
      rw [hdemand] at hmeets
      refine ⟨.reference ⟨name, target⟩, .reference hdemand hmeets', ?_⟩
      rw [hadd, hdemand, sum_snoc_reference]
      exact refer_of_open target hmeets.1 hmeets.2
    | nothing =>
      rw [hdemand] at hmeets
      exact hmeets.elim
  · have hmeets' : ¬(assemble table cs (before.map demand)).Meets (demand clause) := by
      rw [← hquiet]
      cases hdemand : demand clause <;> rw [hdemand] at hmeets <;> exact hmeets
    refine ⟨.reported issue, .reported hmeets' htable hclause, ?_⟩
    rw [hadd, sum_snoc_reported]

/-- The draft of some constraints behind columns is the sum of all their outcomes. -/
theorem exists_constraints (source : List Char) {cs : List Column}
    (hquiet : (sum table columns []).quiet = cs.foldl keep ⟨table, [], [], []⟩)
    (clauses : List (List Lexeme)) :
    ∃ os, Ledger (ConstraintEnds source table cs) clauses os ∧
      clauses.foldl (addConstraint source) (sum table columns []) = sum table columns os := by
  refine exists_ledger (P := fun clauses os =>
    clauses.foldl (addConstraint source) (sum table columns []) = sum table columns os)
    rfl ?_ clauses
  intro before os clause ih
  have hbefore : (sum table columns os).quiet = assemble table cs (before.map demand) := by
    rw [← ih, quiet_foldl_addConstraint, hquiet]
    rfl
  obtain ⟨o, ho, hadd⟩ := exists_constraintEnds hbefore clause
  refine ⟨o, ho, ?_⟩
  rw [List.foldl_append, ih, List.foldl_cons, List.foldl_nil, hadd]

end Sum

/-- Every clause of a table body has one outcome, and the draft is their sum. -/
theorem accounted_ofClauses (source : List Char) (name : String) (clauses : List (List Lexeme)) :
    (ofClauses source name clauses).Accounted source clauses := by
  obtain ⟨columns, hcolumns, hsum⟩ := exists_columns source name (isColumn_of_mem_filter clauses)
  have hquiet : (sum name columns []).quiet =
      (columnsOf source clauses).foldl keep ⟨name, [], [], []⟩ := by
    rw [← hsum, quiet_foldl_addColumn]
    rfl
  obtain ⟨constraints, hconstraints, hboth⟩ := exists_constraints source hquiet
    (clauses.filter isTableConstraint)
  have hdraft : ofClauses source name clauses = sum name columns constraints := by
    rw [← hboth, ← hsum]
    rfl
  refine ⟨columns, constraints, ?_, ?_, ?_⟩ <;> rw [ofClauses_name]
  · exact hcolumns
  · exact hconstraints
  · exact hdraft

end Draft

end Schemata.Script
