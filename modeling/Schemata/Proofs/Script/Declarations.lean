import Mathlib.Data.List.Nodup
import Mathlib.Tactic
import Schemata.Proofs.Script.Drafts
import Schemata.Proofs.Script.Keys

/-!
# Declarations

What the statements of a script declare, without the order in which a reader works: the first
statement of each table name counts, and in it the first column of each name. The references of a
table are those of its columns, followed by those of its clauses that find a column without one.
-/
namespace Schemata.Script

/-! ## The first of each name -/

/-- The entries that are the first ones of their name. -/
def firsts {α : Type} (name : α → String) : List α → List α
  | [] => []
  | a :: as => a :: (firsts name as).filter (name · ≠ name a)

section Firsts

variable {α β : Type} {name : α → String}

theorem mem_names_firsts {n : String} {as : List α} :
    n ∈ (firsts name as).map name ↔ n ∈ as.map name := by
  induction as with
  | nil => rfl
  | cons a as ih =>
    simp only [firsts, List.map_cons, List.mem_cons]
    by_cases hn : n = name a
    · simp [hn]
    · rw [← ih]
      simp only [hn, false_or, List.mem_map, List.mem_filter, decide_eq_true_eq]
      constructor
      · rintro ⟨b, ⟨hb, -⟩, rfl⟩
        exact ⟨b, hb, rfl⟩
      · rintro ⟨b, hb, rfl⟩
        exact ⟨b, ⟨hb, hn⟩, rfl⟩

theorem nodup_names_firsts (as : List α) : ((firsts name as).map name).Nodup := by
  induction as with
  | nil => exact List.nodup_nil
  | cons a as ih =>
    rw [firsts, List.map_cons, List.nodup_cons]
    refine ⟨fun hmem => ?_, (List.filter_sublist.map name).nodup ih⟩
    obtain ⟨b, hb, hsame⟩ := List.mem_map.mp hmem
    exact of_decide_eq_true (List.mem_filter.mp hb).2 hsame

/-- One more entry counts if its name is new. -/
theorem firsts_append_singleton (as : List α) (a : α) :
    firsts name (as ++ [a]) = firsts name as ++ if name a ∈ as.map name then [] else [a] := by
  induction as with
  | nil => rfl
  | cons b as ih =>
    rw [List.cons_append, firsts, ih, firsts, List.filter_append, List.cons_append]
    by_cases hb : name a = name b
    · simp [hb, apply_ite]
    · by_cases hmem : name a ∈ as.map name <;> simp [hb, hmem]

theorem firsts_map (g : β → α) (bs : List β) :
    firsts name (bs.map g) = (firsts (fun b => name (g b)) bs).map g := by
  induction bs with
  | nil => rfl
  | cons b bs ih => rw [List.map_cons, firsts, ih, firsts, List.map_cons, List.filter_map]; rfl

end Firsts

/-! ## What a statement declares -/

/-- The table that a statement declares: its columns, with those that repeat a name, and the demands
of its clauses. -/
structure Declaration where
  name : String
  columns : List Column
  demands : List Demand

def Statement.declaration? (s : Statement) : Option Declaration :=
  if isCreateTable s.lexemes then
    (tableBody s).toOption.map fun (name, body) =>
      ⟨name, columnsOf s.source (Lexeme.clauses body), demandsOf (Lexeme.clauses body)⟩
  else none

/-- The declarations of some statements, in order; of each table name the first one counts. -/
def declarations (found : List Statement) : List Declaration :=
  firsts Declaration.name (found.filterMap Statement.declaration?)

/-- The reference that a table constraint asks for. -/
def Demand.reference? : Demand → Option Pending
  | .reference field target => some ⟨field, target⟩
  | _ => none

namespace Declaration

/-- The references that stand with the columns, in column order. -/
def inline (d : Declaration) : List Pending :=
  (firsts Column.name d.columns).filterMap fun c => c.target.map (Pending.mk c.name)

/-- The references of the table constraints, in clause order: those of a column that is there and
has no reference before. -/
def clauses (d : Declaration) : List Pending :=
  firsts Pending.field <| (d.demands.filterMap Demand.reference?).filter fun p =>
    p.field ∈ d.columns.map Column.name ∧ p.field ∉ d.inline.map Pending.field

def references (d : Declaration) : List Pending := d.inline ++ d.clauses

def draft (d : Declaration) : Draft := Draft.assemble d.name d.columns d.demands

end Declaration

/-! ## Drafts of declarations -/

namespace Draft

theorem pending_foldl_keep (name : String) (cs : List Column) :
    (cs.foldl keep ⟨name, [], [], []⟩).pending =
      (firsts Column.name cs).filterMap fun c => c.target.map (Pending.mk c.name) := by
  induction cs using List.reverseRecOn with
  | nil => rfl
  | append_singleton cs c ih =>
    rw [List.foldl_append, List.foldl_cons, List.foldl_nil, firsts_append_singleton,
      List.filterMap_append, ← ih]
    by_cases hmem : c.name ∈ cs.map Column.name
    · have hknown := (mem_names_foldl_keep (d := ⟨name, [], [], []⟩) cs).mpr (Or.inr hmem)
      rw [keep_of_mem hknown, if_pos hmem, List.filterMap_nil, List.append_nil]
    · rw [keep_of_not_mem (not_mem_names_foldl_keep name hmem), if_neg hmem]
      cases hc : c.target <;> simp [hc]

/-- A clause that asks for a reference adds it if its column is there and has no reference by then,
whether from before or from an earlier clause. -/
theorem pending_meet_reference {d e : Draft} {kept : List Pending}
    (hnames : e.fields.map (·.name) = d.fields.map (·.name))
    (hpending : e.pending = d.pending ++ firsts Pending.field kept) (field : String)
    (target : Phrase.Target) :
    (e.meet (.reference field target)).pending = d.pending ++
      firsts Pending.field (kept ++ [(⟨field, target⟩ : Pending)].filter fun p =>
        p.field ∈ d.fields.map (·.name) ∧ p.field ∉ d.pending.map Pending.field) := by
  have htaken : field ∈ e.pending.map Pending.field ↔
      field ∈ d.pending.map Pending.field ∨ field ∈ kept.map Pending.field := by
    rw [hpending, List.map_append, List.mem_append, mem_names_firsts]
  rw [meet]
  by_cases hopen : field ∈ d.fields.map (·.name) ∧ field ∉ d.pending.map Pending.field
  · have hkeep : [(⟨field, target⟩ : Pending)].filter (fun p =>
        p.field ∈ d.fields.map (·.name) ∧ p.field ∉ d.pending.map Pending.field) =
          [⟨field, target⟩] := List.filter_cons_of_pos (decide_eq_true hopen)
    rw [hkeep, firsts_append_singleton]
    by_cases hkept : field ∈ kept.map Pending.field
    · rw [if_pos hkept, List.append_nil,
        refer_of_not_open target fun h => h.2 (htaken.mpr (Or.inr hkept)), hpending]
    · have hfree : field ∉ e.pending.map Pending.field :=
        mt htaken.mp (not_or.mpr ⟨hopen.2, hkept⟩)
      rw [if_neg hkept, refer_of_open target (hnames ▸ hopen.1) hfree, hpending, List.append_assoc]
  · have hclosed : ¬(field ∈ e.fields.map (·.name) ∧ field ∉ e.pending.map Pending.field) := by
      rintro ⟨hknown, hfree⟩
      exact hopen ⟨hnames ▸ hknown, fun hold => hfree (htaken.mpr (Or.inl hold))⟩
    have hdrop : [(⟨field, target⟩ : Pending)].filter (fun p =>
        p.field ∈ d.fields.map (·.name) ∧ p.field ∉ d.pending.map Pending.field) = [] :=
      List.filter_cons_of_neg fun h => hopen (of_decide_eq_true h)
    rw [hdrop, List.append_nil, refer_of_not_open target hclosed, hpending]

theorem pending_foldl_meet (d : Draft) (ks : List Demand) :
    (ks.foldl meet d).pending = d.pending ++
      firsts Pending.field ((ks.filterMap Demand.reference?).filter fun p =>
        p.field ∈ d.fields.map (·.name) ∧ p.field ∉ d.pending.map Pending.field) := by
  induction ks using List.reverseRecOn with
  | nil => simp [firsts]
  | append_singleton ks k ih =>
    rw [List.foldl_append, List.foldl_cons, List.foldl_nil, List.filterMap_append,
      List.filter_append]
    cases k with
    | key name =>
      rw [show [Demand.key name].filterMap Demand.reference? = [] from rfl, List.filter_nil,
        List.append_nil]
      exact ih
    | nothing =>
      rw [show [Demand.nothing].filterMap Demand.reference? = [] from rfl, List.filter_nil,
        List.append_nil]
      exact ih
    | reference field target =>
      exact pending_meet_reference (names_foldl_meet d ks) ih field target

end Draft

namespace Declaration

variable (d : Declaration)

@[simp] theorem draft_name : d.draft.name = d.name := by
  have hkeep : ∀ cs : List Column, (cs.foldl Draft.keep ⟨d.name, [], [], []⟩).name = d.name := by
    intro cs
    refine List.foldlRecOn cs Draft.keep (motive := fun e : Draft => e.name = d.name) rfl ?_
    intro e he c _
    rw [Draft.keep]
    split <;> exact he
  refine List.foldlRecOn d.demands Draft.meet (motive := fun e : Draft => e.name = d.name)
    (hkeep d.columns) ?_
  intro e he k _
  cases k with
  | key name => exact he
  | nothing => exact he
  | reference field target =>
    rw [Draft.meet, Draft.refer]
    split <;> exact he

/-- A draft waits for the references of its declaration, in their order. -/
theorem pending_draft : d.draft.pending = d.references := by
  have hknown : ∀ field, field ∈ (d.columns.foldl Draft.keep ⟨d.name, [], [], []⟩).fields.map
      (·.name) ↔ field ∈ d.columns.map Column.name := by
    intro field
    rw [Draft.mem_names_foldl_keep]
    simp
  rw [draft, Draft.assemble, Draft.pending_foldl_meet, Draft.pending_foldl_keep]
  simp only [hknown]
  rfl

end Declaration

theorem draft?_eq_declaration? (s : Statement) :
    s.draft? = s.declaration?.map Declaration.draft := by
  rw [Statement.draft?, Statement.declaration?]
  split
  · rw [Option.map_map]
    refine Option.map_congr fun p _ => ?_
    exact Draft.quiet_ofClauses s.source p.1 (Lexeme.clauses p.2)
  · rfl

theorem foldl_addNew_eq_firsts (new : List Draft) :
    new.foldl addNew [] = firsts Draft.name new := by
  induction new using List.reverseRecOn with
  | nil => rfl
  | append_singleton new d ih =>
    rw [List.foldl_append, ih, firsts_append_singleton, List.foldl_cons, List.foldl_nil, addNew]
    by_cases hmem : d.name ∈ new.map Draft.name
    · rw [if_pos (mem_names_firsts.mpr hmem), if_pos hmem, List.append_nil]
    · rw [if_neg (mt mem_names_firsts.mp hmem), if_neg hmem]

/-- The drafts of some statements are those of their declarations. -/
theorem draftsOf_eq_declarations (found : List Statement) :
    draftsOf found = (declarations found).map Declaration.draft := by
  have hdrafts : found.filterMap Statement.draft? =
      (found.filterMap Statement.declaration?).map Declaration.draft := by
    rw [List.map_filterMap]
    exact List.filterMap_congr fun s _ => draft?_eq_declaration? s
  rw [draftsOf, hdrafts, foldl_addNew_eq_firsts, firsts_map, declarations]
  simp only [Declaration.draft_name]

end Schemata.Script
