import Schemata.Proofs.Schema.WellFormed
import Schemata.Script.Draft

/-!
# Sound drafts

Whatever the clauses of a table body are, a draft keeps its fields well formed and without
references, and it keeps at most one pending reference for each field that it has.
-/
namespace Schemata.Script

/-- The invariant of reading a table body. -/
structure Draft.Sound (d : Draft) : Prop where
  wellFormed : d.table.WellFormed
  unlinked : ∀ f ∈ d.fields, f.foreignKey = none
  pendingOnce : (d.pending.map (·.field)).Nodup
  pendingKnown : ∀ p ∈ d.pending, p.field ∈ d.fields.map (·.name)

/-- A type word is always read as a logical type. -/
theorem columnField_type (name type : String) (traits : ColumnTraits) :
    (columnField name type traits).type = (TypeWord.logical type).name := by
  simp only [columnField]

/-- A column that is a key, by its type or by a constraint, is never null. -/
theorem columnField_nullable {name type : String} {traits : ColumnTraits}
    (h : (columnField name type traits).primaryKey = true) :
    (columnField name type traits).nullable = false := by
  simp only [columnField] at h ⊢
  rw [h]
  rfl

namespace Draft

theorem field?_isSome_iff {d : Draft} {name : String} :
    (d.field? name).isSome = true ↔ name ∈ d.fields.map (·.name) := by
  simp [field?, Table.field?, table, List.find?_isSome]

theorem sound_empty (name : String) : (⟨name, [], [], []⟩ : Draft).Sound where
  wellFormed := ⟨List.nodup_nil, by simp [table], by simp [table]⟩
  unlinked := by simp
  pendingOnce := List.nodup_nil
  pendingKnown := by simp

/-! ## The name stays -/

section Name

variable (d : Draft)

@[simp] theorem addColumn_name (source : List Char) (clause : List Lexeme) :
    (d.addColumn source clause).name = d.name := by
  simp only [addColumn]
  repeat' split
  all_goals rfl

theorem addTarget_name (text : String) (names : List String) (target : Phrase.Target) :
    (d.addTarget text names target).name = d.name := by
  simp only [addTarget]
  repeat' split
  all_goals rfl

theorem addPrimaryKey_name (text : String) (us : List Lexeme) :
    (d.addPrimaryKey text us).name = d.name := by
  simp only [addPrimaryKey]
  repeat' split
  all_goals rfl

theorem addForeignKey_name (text : String) (us : List Lexeme) :
    (d.addForeignKey text us).name = d.name := by
  simp only [addForeignKey]
  repeat' split
  all_goals first | rfl | exact addTarget_name ..

@[simp] theorem addConstraint_name (source : List Char) (clause : List Lexeme) :
    (d.addConstraint source clause).name = d.name := by
  simp only [addConstraint]
  split
  · exact addPrimaryKey_name ..
  · split
    · exact addForeignKey_name ..
    · rfl

end Name

theorem ofClauses_name (source : List Char) (name : String) (clauses : List (List Lexeme)) :
    (ofClauses source name clauses).name = name := by
  have hcolumns : ∀ (cs : List (List Lexeme)) (d : Draft),
      (cs.foldl (·.addColumn source) d).name = d.name := by
    intro cs d
    induction cs generalizing d with
    | nil => rfl
    | cons c cs ih => rw [List.foldl_cons, ih, addColumn_name]
  have hconstraints : ∀ (cs : List (List Lexeme)) (d : Draft),
      (cs.foldl (·.addConstraint source) d).name = d.name := by
    intro cs d
    induction cs generalizing d with
    | nil => rfl
    | cons c cs ih => rw [List.foldl_cons, ih, addConstraint_name]
  simp only [ofClauses, hconstraints, hcolumns]

/-! ## What each clause keeps -/

namespace Sound

variable {d : Draft}

theorem report (h : d.Sound) (issue : Issue) : (d.report issue).Sound :=
  ⟨h.wellFormed, h.unlinked, h.pendingOnce, h.pendingKnown⟩

/-- A new field comes last, with at most one reference of its own. -/
theorem addField (h : d.Sound) {f : Field} {target : Option Phrase.Target} {issues : List Issue}
    (hname : f.name ∉ d.fields.map (·.name)) (htype : ∃ l : LogicalType, f.type = l.name)
    (hkey : f.primaryKey = true → f.nullable = false) (hopen : f.foreignKey = none) :
    (⟨d.name, d.fields ++ [f], d.pending ++ (target.map (Pending.mk f.name)).toList,
      issues⟩ : Draft).Sound where
  wellFormed := by
    refine ⟨?_, ?_, ?_⟩
    · simp only [table, List.map_append, List.map_cons, List.map_nil]
      rw [List.nodup_append_comm]
      exact List.nodup_cons.mpr ⟨hname, h.wellFormed.names⟩
    · intro g hg
      rcases List.mem_append.mp hg with hg | hg
      · exact h.wellFormed.types g hg
      · exact List.mem_singleton.mp hg ▸ htype
    · intro g hg
      rcases List.mem_append.mp hg with hg | hg
      · exact h.wellFormed.keys g hg
      · exact List.mem_singleton.mp hg ▸ hkey
  unlinked := by
    intro g hg
    rcases List.mem_append.mp hg with hg | hg
    · exact h.unlinked g hg
    · exact List.mem_singleton.mp hg ▸ hopen
  pendingOnce := by
    cases target with
    | none => simpa using h.pendingOnce
    | some t =>
      simp only [Option.map_some, Option.toList_some, List.map_append, List.map_cons, List.map_nil]
      rw [List.nodup_append_comm]
      refine List.nodup_cons.mpr ⟨fun hmem => ?_, h.pendingOnce⟩
      obtain ⟨p, hp, he⟩ := List.mem_map.mp hmem
      exact hname (he ▸ h.pendingKnown p hp)
  pendingKnown := by
    intro p hp
    simp only [List.map_append, List.mem_append]
    rcases List.mem_append.mp hp with hp | hp
    · exact Or.inl (h.pendingKnown p hp)
    · cases target with
      | none => cases hp
      | some t =>
        rw [List.mem_singleton.mp hp]
        exact Or.inr (List.mem_singleton.mpr rfl)

theorem addColumn (h : d.Sound) (source : List Char) (clause : List Lexeme) :
    (d.addColumn source clause).Sound := by
  simp only [Draft.addColumn]
  split
  · next first second rest =>
    split
    · exact h.report _
    · split
      · exact h.report _
      · next hnew =>
        exact h.addField (mt field?_isSome_iff.mpr hnew) ⟨_, columnField_type ..⟩
          columnField_nullable rfl
  · exact h.report _

theorem setPrimaryKey (h : d.Sound) (name : String) : (d.setPrimaryKey name).Sound := by
  have hnames : (d.setPrimaryKey name).fields.map (·.name) = d.fields.map (·.name) := by
    simp only [Draft.setPrimaryKey, List.map_map]
    refine List.map_congr_left fun f _ => ?_
    simp only [Function.comp_apply]
    split <;> rfl
  refine ⟨⟨hnames ▸ h.wellFormed.names, ?_, ?_⟩, ?_, h.pendingOnce, hnames ▸ h.pendingKnown⟩ <;>
    intro g hg <;> obtain ⟨f, hf, rfl⟩ := List.mem_map.mp hg
  · have := h.wellFormed.types f hf
    split <;> exact this
  · have := h.wellFormed.keys f hf
    split
    · exact fun _ => rfl
    · exact this
  · have := h.unlinked f hf
    split <;> exact this

theorem addPrimaryKey (h : d.Sound) (text : String) (us : List Lexeme) :
    (d.addPrimaryKey text us).Sound := by
  simp only [Draft.addPrimaryKey]
  split
  · split
    · exact h.setPrimaryKey _
    · exact h.report _
  · exact h.report _

theorem addTarget (h : d.Sound) (text : String) (names : List String) (target : Phrase.Target) :
    (d.addTarget text names target).Sound := by
  simp only [Draft.addTarget]
  split
  · next name =>
    split
    · exact h.report _
    · next hknown =>
      split
      · exact h.report _
      · next hfree =>
        have hmem : name ∈ d.fields.map (·.name) := by
          rw [← field?_isSome_iff]
          simpa [Option.isNone_iff_eq_none, Option.isSome_iff_ne_none] using hknown
        refine ⟨h.wellFormed, h.unlinked, ?_, ?_⟩
        · simp only [List.map_append, List.map_cons, List.map_nil]
          rw [List.nodup_append_comm]
          refine List.nodup_cons.mpr ⟨fun hp => hfree ?_, h.pendingOnce⟩
          obtain ⟨p, hp, he⟩ := List.mem_map.mp hp
          exact List.any_eq_true.mpr ⟨p, hp, by simp [he]⟩
        · intro p hp
          rcases List.mem_append.mp hp with hp | hp
          · exact h.pendingKnown p hp
          · rw [List.mem_singleton.mp hp]
            exact hmem
  · exact h.report _

theorem addForeignKey (h : d.Sound) (text : String) (us : List Lexeme) :
    (d.addForeignKey text us).Sound := by
  simp only [Draft.addForeignKey]
  split
  · split
    · split
      · exact h.report _
      · exact h.addTarget _ _ _
    · exact h.report _
  · exact h.report _

theorem addConstraint (h : d.Sound) (source : List Char) (clause : List Lexeme) :
    (d.addConstraint source clause).Sound := by
  simp only [Draft.addConstraint]
  split
  · exact h.addPrimaryKey _ _
  · split
    · exact h.addForeignKey _ _
    · exact h.report _

end Sound

theorem sound_ofClauses (source : List Char) (name : String) (clauses : List (List Lexeme)) :
    (ofClauses source name clauses).Sound := by
  simp only [ofClauses]
  refine List.foldlRecOn _ _ ?_ fun d hd clause _ => hd.addConstraint source clause
  exact List.foldlRecOn _ _ (sound_empty name) fun d hd clause _ => hd.addColumn source clause

end Draft

end Schemata.Script
