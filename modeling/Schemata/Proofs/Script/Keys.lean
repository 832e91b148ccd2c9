import Mathlib.Data.List.Perm.Basic
import Mathlib.Tactic
import Schemata.Proofs.Script.Reordered

/-!
# Keys of columns and keys of tables

A key may be a trait of its column or a demand of its table. Making a field the primary key commutes
with all that is read after the field, and a reference that is kept early stays ahead of the others
until the demand for it is met: in the end both ways lead to the same draft.
-/
namespace Schemata.Script

/-- The column as a primary key. -/
def Column.asKey (c : Column) : Column :=
  { c with field := { c.field with primaryKey := true, nullable := false } }

/-- The column with a reference of its own. -/
def Column.to (c : Column) (target : Phrase.Target) : Column := { c with target := some target }

namespace Draft

variable {d e : Draft} {c : Column} {name : String}

/-! ## Names of fields -/

theorem mem_names_keep : name ∈ (d.keep c).fields.map (·.name) ↔
    name ∈ d.fields.map (·.name) ∨ name = c.name := by
  by_cases hmem : c.name ∈ d.fields.map (·.name)
  · rw [keep_of_mem hmem]
    refine ⟨Or.inl, fun h => h.elim id fun he => ?_⟩
    rwa [he]
  · rw [keep_of_not_mem hmem, List.map_append, List.mem_append, List.map_singleton,
      List.mem_singleton, Column.name]

theorem mem_names_foldl_keep (cs : List Column) : name ∈ (cs.foldl keep d).fields.map (·.name) ↔
    name ∈ d.fields.map (·.name) ∨ name ∈ cs.map Column.name := by
  induction cs generalizing d with
  | nil => simp
  | cons c cs ih => rw [List.foldl_cons, ih, mem_names_keep, List.map_cons, List.mem_cons, or_assoc]

/-- A column is new behind others of other names. -/
theorem not_mem_names_foldl_keep (table : String) {before : List Column}
    (h : c.name ∉ before.map Column.name) :
    c.name ∉ (before.foldl keep ⟨table, [], [], []⟩).fields.map (·.name) := by
  rw [mem_names_foldl_keep]
  simpa using h

theorem names_setPrimaryKey (d : Draft) (name : String) :
    (d.setPrimaryKey name).fields.map (·.name) = d.fields.map (·.name) := by
  simp only [setPrimaryKey, List.map_map]
  refine List.map_congr_left fun f _ => ?_
  simp only [Function.comp_apply]
  split <;> rfl

theorem fields_refer (d : Draft) (name : String) (target : Phrase.Target) :
    (d.refer name target).fields = d.fields := by
  rw [refer]
  split <;> rfl

theorem names_meet (d : Draft) (k : Demand) :
    (d.meet k).fields.map (·.name) = d.fields.map (·.name) := by
  cases k with
  | key name => exact names_setPrimaryKey d name
  | reference name target => rw [meet, fields_refer]
  | nothing => rfl

theorem names_foldl_meet (d : Draft) (ks : List Demand) :
    (ks.foldl meet d).fields.map (·.name) = d.fields.map (·.name) := by
  induction ks generalizing d with
  | nil => rfl
  | cons k ks ih => rw [List.foldl_cons, ih, names_meet]

/-! ## Primary keys -/

/-- A new column that is a key is a new column that is made the key. -/
theorem keep_asKey (h : c.name ∉ d.fields.map (·.name)) :
    d.keep c.asKey = (d.keep c).setPrimaryKey c.name := by
  have hkey : c.asKey.name ∉ d.fields.map (·.name) := h
  have hold : d.fields.map (fun f =>
      if f.name = c.name then { f with primaryKey := true, nullable := false } else f) =
      d.fields := congrArg Draft.fields (setPrimaryKey_of_unknown h)
  rw [keep_of_not_mem hkey, keep_of_not_mem h, setPrimaryKey, List.map_append, hold,
    List.map_singleton, if_pos (show c.field.name = c.name from rfl)]
  rfl

theorem keep_setPrimaryKey (h : name ∈ d.fields.map (·.name)) (c : Column) :
    (d.setPrimaryKey name).keep c = (d.keep c).setPrimaryKey name := by
  by_cases hmem : c.name ∈ d.fields.map (·.name)
  · rw [keep_of_mem hmem, keep_of_mem ((names_setPrimaryKey d name).symm ▸ hmem)]
  · have hne : c.field.name ≠ name := fun he => hmem (by rwa [Column.name, he])
    rw [keep_of_not_mem hmem, keep_of_not_mem ((names_setPrimaryKey d name).symm ▸ hmem),
      setPrimaryKey, setPrimaryKey, List.map_append, List.map_singleton, if_neg hne]

theorem foldl_keep_setPrimaryKey (h : name ∈ d.fields.map (·.name)) (cs : List Column) :
    cs.foldl keep (d.setPrimaryKey name) = (cs.foldl keep d).setPrimaryKey name := by
  induction cs generalizing d with
  | nil => rfl
  | cons c cs ih =>
    rw [List.foldl_cons, List.foldl_cons, keep_setPrimaryKey h, ih (mem_names_keep.mpr (Or.inl h))]

theorem setPrimaryKey_comm (d : Draft) (name name' : String) :
    (d.setPrimaryKey name).setPrimaryKey name' = (d.setPrimaryKey name').setPrimaryKey name := by
  by_cases hne : name = name'
  · rw [hne]
  simp only [setPrimaryKey, List.map_map]
  congr 1
  refine List.map_congr_left fun f _ => ?_
  simp only [Function.comp_apply]
  by_cases h : f.name = name
  · simp [h, hne]
  · by_cases h' : f.name = name' <;> simp [h, h', Ne.symm hne]

theorem meet_setPrimaryKey (d : Draft) (name : String) (k : Demand) :
    (d.setPrimaryKey name).meet k = (d.meet k).setPrimaryKey name := by
  cases k with
  | key name' => exact setPrimaryKey_comm d name name'
  | reference name' target =>
    simp only [meet, refer, names_setPrimaryKey]
    have hpending : (d.setPrimaryKey name).pending = d.pending := rfl
    rw [hpending]
    split <;> rfl
  | nothing => rfl

theorem foldl_meet_setPrimaryKey (d : Draft) (name : String) (ks : List Demand) :
    ks.foldl meet (d.setPrimaryKey name) = (ks.foldl meet d).setPrimaryKey name :=
  List.foldl_hom (·.setPrimaryKey name) fun d k => meet_setPrimaryKey d name k

/-- A column that is a key, and a demand for that key among all others. -/
theorem assemble_asKey (table : String) {before : List Column}
    (h : c.name ∉ before.map Column.name) (after : List Column) (left right : List Demand) :
    assemble table (before ++ c.asKey :: after) (left ++ right) =
      assemble table (before ++ c :: after) (left ++ .key c.name :: right) := by
  have hfirst := not_mem_names_foldl_keep table h
  have hkept : c.name ∈ ((before.foldl keep ⟨table, [], [], []⟩).keep c).fields.map (·.name) :=
    mem_names_keep.mpr (Or.inr rfl)
  simp only [assemble, List.foldl_append, List.foldl_cons, keep_asKey hfirst,
    foldl_keep_setPrimaryKey hkept, foldl_meet_setPrimaryKey, meet]

/-! ## References -/

/-- A draft that keeps one more reference than another one. -/
structure Ahead (p : Pending) (d e : Draft) : Prop where
  name : d.name = e.name
  fields : d.fields = e.fields
  pending : d.pending.Perm (p :: e.pending)

variable {p : Pending}

theorem Ahead.keep (h : Ahead p d e) (c : Column) : Ahead p (d.keep c) (e.keep c) := by
  rw [Draft.keep, Draft.keep, h.fields]
  split
  · exact h
  · exact ⟨h.name, rfl, (h.pending.append_right _).trans (List.Perm.of_eq (List.cons_append ..))⟩

theorem Ahead.setPrimaryKey (h : Ahead p d e) (name : String) :
    Ahead p (d.setPrimaryKey name) (e.setPrimaryKey name) :=
  ⟨h.name, by rw [Draft.setPrimaryKey, Draft.setPrimaryKey, h.fields], h.pending⟩

theorem pending_subset_foldl_keep (d : Draft) (cs : List Column) :
    d.pending ⊆ (cs.foldl keep d).pending := by
  induction cs generalizing d with
  | nil => exact List.Subset.refl _
  | cons c cs ih =>
    have hstep : d.pending ⊆ (d.keep c).pending := by
      rw [keep]
      split
      · exact List.Subset.refl _
      · exact List.subset_append_left _ _
    exact fun p hp => ih (d.keep c) (hstep hp)

theorem pending_subset_meet (d : Draft) (k : Demand) : d.pending ⊆ (d.meet k).pending := by
  cases k with
  | key name => exact List.Subset.refl _
  | reference name target =>
    rw [meet, refer]
    split
    · exact List.subset_append_left _ _
    · exact List.Subset.refl _
  | nothing => exact List.Subset.refl _

theorem pending_subset_foldl_meet (d : Draft) (ks : List Demand) :
    d.pending ⊆ (ks.foldl meet d).pending := by
  induction ks generalizing d with
  | nil => exact List.Subset.refl _
  | cons k ks ih => exact fun q hq => ih (d.meet k) (pending_subset_meet d k hq)

/-- Being ahead lasts as long as the field of the reference gets no other one. -/
theorem Ahead.meet (h : Ahead p d e) (k : Demand)
    (hopen : p.field ∉ (e.meet k).pending.map (·.field)) : Ahead p (d.meet k) (e.meet k) := by
  cases k with
  | key name => exact h.setPrimaryKey name
  | nothing => exact h
  | reference name target =>
    have hpending : ∀ field, field ∈ d.pending.map (·.field) ↔
        field = p.field ∨ field ∈ e.pending.map (·.field) := fun field => by
      rw [(h.pending.map _).mem_iff, List.map_cons, List.mem_cons]
    rw [Draft.meet] at hopen ⊢
    rw [Draft.meet]
    by_cases hset : name ∈ e.fields.map (·.name) ∧ name ∉ e.pending.map (·.field)
    · rw [refer_of_open target hset.1 hset.2] at hopen ⊢
      have hne : name ≠ p.field := by
        rintro rfl
        simp at hopen
      have hset' : name ∉ d.pending.map (·.field) := by
        rw [hpending]
        exact not_or.mpr ⟨hne, hset.2⟩
      rw [refer_of_open target (h.fields ▸ hset.1) hset']
      exact ⟨h.name, h.fields,
        (h.pending.append_right _).trans (List.Perm.of_eq (List.cons_append ..))⟩
    · rw [refer_of_not_open target hset]
      rw [refer_of_not_open target]
      · exact h
      · rw [h.fields, hpending, not_or]
        exact fun hall => hset ⟨hall.1, hall.2.2⟩

theorem Ahead.foldl_keep (h : Ahead p d e) (cs : List Column) :
    Ahead p (cs.foldl Draft.keep d) (cs.foldl Draft.keep e) := by
  induction cs generalizing d e with
  | nil => exact h
  | cons c cs ih => exact ih (h.keep c)

theorem Ahead.foldl_meet (h : Ahead p d e) (ks : List Demand)
    (hopen : p.field ∉ (ks.foldl Draft.meet e).pending.map (·.field)) :
    Ahead p (ks.foldl Draft.meet d) (ks.foldl Draft.meet e) := by
  induction ks generalizing d e with
  | nil => exact h
  | cons k ks ih =>
    refine ih (h.meet k fun hmem => hopen ?_) hopen
    exact List.map_subset _ (pending_subset_foldl_meet (e.meet k) ks) hmem

/-- Once the demand is met, the drafts differ in the order of their references only. -/
theorem Ahead.refer (h : Ahead p d e) (hknown : p.field ∈ e.fields.map (·.name))
    (hopen : p.field ∉ e.pending.map (·.field)) : d.Reordered (e.refer p.field p.target) := by
  rw [refer_of_open p.target hknown hopen]
  exact ⟨h.name, h.fields, h.pending.trans (List.perm_append_singleton p e.pending).symm⟩

theorem Reordered.meet (h : d.Reordered e) (k : Demand) : (d.meet k).Reordered (e.meet k) := by
  cases k with
  | key name =>
    refine ⟨h.name, ?_, h.pending⟩
    rw [Draft.meet, Draft.meet, setPrimaryKey, setPrimaryKey, h.fields]
  | nothing => exact h
  | reference name target =>
    have hpending : name ∈ d.pending.map (·.field) ↔ name ∈ e.pending.map (·.field) :=
      (h.pending.map _).mem_iff
    simp only [Draft.meet, Draft.refer, h.fields, hpending]
    split
    · exact ⟨h.name, rfl, h.pending.append_right _⟩
    · exact h

theorem Reordered.foldl_meet (h : d.Reordered e) (ks : List Demand) :
    (ks.foldl Draft.meet d).Reordered (ks.foldl Draft.meet e) := by
  induction ks generalizing d e with
  | nil => exact h
  | cons k ks ih => exact ih (h.meet k)

/-- The reference of a column is kept. -/
theorem mem_pending_assemble (table : String) {before : List Column} {target : Phrase.Target}
    (h : c.name ∉ before.map Column.name) (hc : c.target = some target) (after : List Column)
    (ks : List Demand) :
    c.name ∈ (assemble table (before ++ c :: after) ks).pending.map (·.field) := by
  have hfirst := not_mem_names_foldl_keep table h
  simp only [assemble, List.foldl_append, List.foldl_cons]
  generalize before.foldl keep ⟨table, [], [], []⟩ = d at hfirst ⊢
  have hkept : ⟨c.name, target⟩ ∈ (d.keep c).pending := by
    rw [keep_of_not_mem hfirst, hc]
    exact List.mem_append_right _ List.mem_cons_self
  have hlater := pending_subset_foldl_meet (after.foldl keep (d.keep c)) ks
    (pending_subset_foldl_keep (d.keep c) after hkept)
  exact List.mem_map.mpr ⟨_, hlater, rfl⟩

/-- A column with a reference of its own, and a demand for that reference among all others. The
column must have no other one in the end. -/
theorem reordered_assemble (table : String) {before : List Column}
    (h : c.name ∉ before.map Column.name) (after : List Column) (left right : List Demand)
    (target : Phrase.Target)
    (hopen : c.name ∉
      (assemble table (before ++ c :: after) (left ++ right)).pending.map (·.field)) :
    (assemble table (before ++ c.to target :: after) (left ++ right)).Reordered
      (assemble table (before ++ c :: after) (left ++ .reference c.name target :: right)) := by
  have hnone : c.target = none := by
    cases hc : c.target with
    | none => rfl
    | some other => exact absurd (mem_pending_assemble table h hc after _) hopen
  simp only [assemble, List.foldl_append, List.foldl_cons] at hopen ⊢
  have hfirst := not_mem_names_foldl_keep table h
  generalize before.foldl keep ⟨table, [], [], []⟩ = d at hfirst hopen ⊢
  have hstart : Ahead ⟨c.name, target⟩ (d.keep (c.to target)) (d.keep c) := by
    have hfirst' : (c.to target).name ∉ d.fields.map (·.name) := hfirst
    rw [keep_of_not_mem hfirst, keep_of_not_mem hfirst', hnone]
    refine ⟨rfl, rfl, ?_⟩
    exact (List.perm_append_singleton _ _).trans
      (List.Perm.of_eq (congrArg _ (List.append_nil _).symm))
  have hopen' : c.name ∉
      (left.foldl meet (after.foldl keep (d.keep c))).pending.map (·.field) := fun hmem =>
    hopen (List.map_subset _ (pending_subset_foldl_meet _ right) hmem)
  have hknown : c.name ∈ (left.foldl meet (after.foldl keep (d.keep c))).fields.map (·.name) := by
    rw [names_foldl_meet, mem_names_foldl_keep, mem_names_keep]
    exact Or.inl (Or.inr rfl)
  have hahead := (hstart.foldl_keep after).foldl_meet left hopen'
  exact (hahead.refer hknown hopen').foldl_meet right

end Draft

end Schemata.Script
