import Mathlib.Data.List.Forall2
import Mathlib.Tactic
import Schemata.Proofs.Schema.FieldLinks

/-!
# Schemas with more tables

More tables and relationships behind those of a schema leave its links as they are: the first
candidate that a field fits is still the first one. A field that had no link may get one, to one of
the new tables.
-/
namespace Schemata

open Schema

variable {candidates : List Candidate}

/-! ## More candidates -/

namespace Schema

theorem candidate?_append_of_some {f : Field} {c : Candidate}
    (h : candidate? candidates f = some c) (more : List Candidate) :
    candidate? (candidates ++ more) f = some c := by
  rw [candidate?] at h ⊢
  split_ifs at h ⊢ with hclosed
  obtain ⟨stem, hstem, hfind⟩ := Option.bind_eq_some_iff.mp h
  rw [hstem, Option.bind_some, List.find?_append, hfind]
  rfl

theorem candidatesOf_append {ts us : List Table} (h : ((ts ++ us).map (·.name)).Nodup) :
    candidatesOf (ts ++ us) = candidatesOf ts ++ candidatesOf us := by
  rw [candidatesOf_eq_filterMap h, List.filterMap_append]
  rw [List.map_append] at h
  rw [candidatesOf_eq_filterMap h.of_append_left, candidatesOf_eq_filterMap h.of_append_right]

end Schema

namespace Field

theorem link?_append_of_some {f : Field} {table : String} {r : Relationship}
    (h : f.link? candidates table = some r) (more : List Candidate) :
    f.link? (candidates ++ more) table = some r := by
  obtain ⟨c, hc, rfl⟩ := Option.map_eq_some_iff.mp h
  rw [link?, candidate?_append_of_some hc more, Option.map_some]

/-- The link of a field stays. -/
theorem extendedBy_linked_append (candidates more : List Candidate) (f : Field) :
    (f.linked candidates).ExtendedBy (f.linked (candidates ++ more)) := by
  cases hc : candidate? candidates f with
  | none =>
    have hsame : f.linked candidates = f := by rw [linked, hc]
    rw [hsame]
    exact f.extendedBy_linked _
  | some c =>
    have hsame : f.linked candidates = f.linked (candidates ++ more) := by
      rw [linked, linked, hc, candidate?_append_of_some hc more]
    rw [hsame]
    exact ExtendedBy.refl _

end Field

namespace Table

theorem extendedBy_linked_append (candidates more : List Candidate) (t : Table) :
    (t.linked candidates).ExtendedBy (t.linked (candidates ++ more)) := by
  refine ⟨rfl, ?_⟩
  rw [linked, linked, List.forall₂_map_left_iff, List.forall₂_map_right_iff, List.forall₂_same]
  exact fun f _ => f.extendedBy_linked_append candidates more

theorem links_sublist (candidates more : List Candidate) (t : Table) :
    (t.links candidates).Sublist (t.links (candidates ++ more)) := by
  rw [links, links]
  induction t.fields with
  | nil => exact List.Sublist.refl _
  | cons f fs ih =>
    rw [List.filterMap_cons, List.filterMap_cons]
    cases hlink : f.link? candidates t.name with
    | some r =>
      rw [Field.link?_append_of_some hlink more]
      exact ih.cons_cons r
    | none =>
      cases f.link? (candidates ++ more) t.name with
      | none => exact ih
      | some r => exact ih.cons r

end Table

namespace Schema

theorem flatMap_links_sublist (candidates more : List Candidate) (ts : List Table) :
    (ts.flatMap (·.links candidates)).Sublist (ts.flatMap (·.links (candidates ++ more))) := by
  induction ts with
  | nil => exact List.Sublist.refl _
  | cons t ts ih =>
    rw [List.flatMap_cons, List.flatMap_cons]
    exact (t.links_sublist candidates more).append ih

/-- More tables and relationships leave what is inferred among the old ones in place. -/
theorem WellFormed.infer_extended {s s' : Schema} {ts : List Table} {rs : List Relationship}
    (h : s.WellFormed) (h' : s'.WellFormed) (htables : s'.tables = s.tables ++ ts)
    (hrelationships : s'.relationships = s.relationships ++ rs) :
    (∃ old new, s'.infer.tables = old ++ new ∧
        List.Forall₂ Table.ExtendedBy s.infer.tables old) ∧
      s.infer.relationships.Sublist s'.infer.relationships := by
  have hnames : ((s.tables ++ ts).map (·.name)).Nodup := htables ▸ h'.tableNames
  have hcandidates : candidatesOf s'.tables = candidatesOf s.tables ++ candidatesOf ts := by
    rw [htables, candidatesOf_append hnames]
  constructor
  · rw [h.distinctNames.tables_infer h.consistent, h'.distinctNames.tables_infer h'.consistent,
      hcandidates, htables, List.map_append]
    refine ⟨_, _, rfl, ?_⟩
    rw [List.forall₂_map_left_iff, List.forall₂_map_right_iff, List.forall₂_same]
    exact fun t _ => t.extendedBy_linked_append _ _
  · rw [Schema.infer, Schema.infer, h.distinctNames.inferred_eq h.consistent,
      h'.distinctNames.inferred_eq h'.consistent, hcandidates, htables, hrelationships,
      List.flatMap_append, ← List.append_assoc]
    have hdeclared := List.sublist_append_left s.relationships rs
    exact (hdeclared.append (flatMap_links_sublist _ _ s.tables)).trans
      (List.sublist_append_left _ _)

end Schema

end Schemata
