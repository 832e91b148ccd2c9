import Mathlib.Data.List.Forall2
import Mathlib.Tactic
import Schemata.Proofs.Script.ClauseKinds
import Schemata.Proofs.Script.Columns
import Schemata.Script.Reading

/-!
# Reading tables back

The body of a written table falls into one clause for each field, every clause is read as a column,
and the statement as a whole is read as a draft without issues.
-/
namespace Schemata

open Content Text

/-- What is kept aside for the reference of a field. -/
def Field.pending (f : Field) : List Script.Pending :=
  (f.foreignKey.map fun r => ⟨f.name, r.written⟩).toList

/-- Lexemes with the words and marks of a column. -/
def Lexeme.Spell (d : Dialect) (us : List Lexeme) (f : Field) : Prop :=
  us.map content = f.contents d

/-! ## Nesting -/

namespace Lexeme

theorem solid_reference {us : List Lexeme} {r : Reference} (h : us.map content = r.contents) :
    Solid cutsClause us := by
  obtain ⟨k, us, rfl, hk, h⟩ := exists_cons_of_contents h
  obtain ⟨t, us, rfl, ht, h⟩ := exists_cons_of_contents h
  obtain ⟨o, us, rfl, ho, h⟩ := exists_cons_of_contents h
  obtain ⟨c, us, rfl, hc, h⟩ := exists_cons_of_contents h
  obtain ⟨e, us, rfl, he, h⟩ := exists_cons_of_contents h
  obtain rfl := List.map_eq_nil_iff.mp h
  have hopen := isOpening_of_mark ho
  have hclose := isClosing_of_mark he
  have hwords : [k, t].map content = ["REFERENCES", r.table].map word := by simp [hk, ht]
  have hcolumn : [c].map content = [r.column].map word := by simp [hc]
  have hgroup := (solid_clause_of_words hcolumn).balanced.group hopen hclose cutsClause
  exact (solid_clause_of_words hwords).append hgroup

/-- No comma of a column stands outside parentheses. -/
theorem Spell.solid {d : Dialect} {us : List Lexeme} {f : Field} (h : Spell d us f) :
    Solid cutsClause us := by
  have hcontents : f.contents d = (f.name :: f.logicalType.columnWord d f.primaryKey ::
      (f.logicalType.keyWords d f.primaryKey ++
        if !f.nullable && !f.primaryKey then ["NOT", "NULL"] else [])).map word ++
      (f.foreignKey.map Reference.contents).getD [] := by
    rw [Field.contents, Field.constraintContents]
    split <;> simp
  rw [Spell, hcontents] at h
  obtain ⟨ws, rs, rfl, hw, hr⟩ := List.map_eq_append_iff.mp h
  refine (solid_clause_of_words hw).append ?_
  cases hf : f.foreignKey with
  | none =>
    rw [hf] at hr
    obtain rfl := List.map_eq_nil_iff.mp hr
    rfl
  | some r =>
    rw [hf] at hr
    exact solid_reference hr

theorem Spell.ne_nil {d : Dialect} {us : List Lexeme} {f : Field} (h : Spell d us f) : us ≠ [] := by
  rintro rfl
  cases h

/-- The body of a table is one balanced piece that falls into its columns. -/
theorem clauses_body {d : Dialect} {body : List Lexeme} {fs : List Field}
    (h : body.map content = [mark ","].intercalate (fs.map (·.contents d))) :
    Balanced body ∧ List.Forall₂ (Spell d) (clauses body) fs := by
  induction fs generalizing body with
  | nil =>
    obtain rfl := List.map_eq_nil_iff.mp h
    exact ⟨rfl, List.Forall₂.nil⟩
  | cons f fs ih =>
    cases fs with
    | nil =>
      rw [List.map_singleton, List.intercalate_singleton] at h
      have hspell : Spell d body f := h
      rw [clauses_singleton hspell.solid hspell.ne_nil]
      exact ⟨hspell.solid.balanced, List.Forall₂.cons hspell List.Forall₂.nil⟩
    | cons g fs =>
      rw [List.map_cons, List.map_cons, List.intercalate_cons_cons, List.append_assoc] at h
      obtain ⟨us, rest, rfl, hspell, h⟩ := List.map_eq_append_iff.mp h
      obtain ⟨comma, rest, rfl, hcomma, h⟩ := exists_cons_of_contents h
      have hpunct : comma.isPunct "," = true := by rw [isPunct_of_mark hcomma]; rfl
      replace hspell : Spell d us f := hspell
      obtain ⟨hbalanced, hrest⟩ := ih h
      have hone : Balanced [comma] := by
        refine depthAfter?_plain (fun u hu => ?_) 0
        rw [List.mem_singleton.mp hu, isOpening, isClosing, isPunct_of_mark hcomma,
          isPunct_of_mark hcomma]
        exact ⟨rfl, rfl, rfl⟩
      rw [clauses_cons hspell.solid hspell.ne_nil hpunct]
      exact ⟨hspell.solid.balanced.append (hone.append hbalanced),
        List.Forall₂.cons hspell hrest⟩

end Lexeme

namespace Script

open Lexeme Phrase

/-! ## Clauses -/

theorem isKnownType_columnWord {u : Lexeme} {l : LogicalType} {d : Dialect} {key : Bool}
    (h : u.content = word (l.columnWord d key)) : isKnownType u = true := by
  rw [isKnownType, isName_of_word h, text_of_word h, TypeWord.isKnown,
    LogicalType.logical?_columnWord]
  rfl

/-- A keyword in capitals is an identifier only of the same letters. -/
theorem upperCase_not_mem {name : String} (h : isIdentifier name = true) {keywords : List String}
    (hn : name ∉ keywords.map lowerCase) : upperCase name ∉ keywords := fun hmem =>
  hn (List.mem_map.mpr ⟨_, hmem, lowerCase_upperCase h⟩)

/-- Even a column that is called like a constraint is a column, as its type follows the name. -/
theorem isTableConstraint_contents {d : Dialect} {us : List Lexeme} {f : Field}
    (hname : isIdentifier f.name = true ∧
      f.name ∉ ["constraint", "exclude", "fulltext", "spatial"])
    (h : Spell d us f) : isTableConstraint us = false := by
  obtain ⟨n, us, rfl, hn, h⟩ := exists_cons_of_contents h
  obtain ⟨t, us, rfl, ht, h⟩ := exists_cons_of_contents h
  rw [isTableConstraint_of_isKnownType (isKnownType_columnWord ht), isWord_of_word hn,
    decide_eq_false_iff_not]
  refine upperCase_not_mem hname.1 ?_
  have hlower : constraintWords.map lowerCase =
      ["constraint", "exclude", "fulltext", "spatial"] := by
    decide
  rw [hlower]
  exact hname.2

/-- A clause with the words of a column adds its field, and nothing is reported. -/
theorem addColumn_contents {source : List Char} {d : Dialect} {us : List Lexeme} {f : Field}
    {draft : Draft} (hname : isIdentifier f.name = true)
    (hr : ∀ r, f.foreignKey = some r → isIdentifier r.table = true ∧ isIdentifier r.column = true)
    (htype : ∃ l : LogicalType, f.type = l.name) (hkey : f.primaryKey = true → f.nullable = false)
    (hnew : f.name ∉ draft.fields.map (·.name)) (h : Spell d us f) :
    draft.addColumn source us =
      ⟨draft.name, draft.fields ++ [f.bare d], draft.pending ++ f.pending, draft.issues⟩ := by
  obtain ⟨n, us, rfl, hn, h⟩ := exists_cons_of_contents h
  obtain ⟨t, us, rfl, ht, h⟩ := exists_cons_of_contents h
  have hfree : (draft.field? f.name).isSome = false :=
    Bool.eq_false_iff.mpr (mt Draft.field?_isSome_iff.mp hnew)
  have htext : typeText t = f.logicalType.columnWord d f.primaryKey := by
    rw [typeText, isName_of_word ht, text_of_word ht, if_pos rfl]
  rw [Draft.addColumn]
  simp only [isName_of_word hn, Bool.not_true, Bool.false_eq_true, if_false,
    identifier_of_word hn hname, hfree, htext, columnTraits_contents hr h]
  rw [columnField_contents htype hkey rfl rfl rfl, Field.pending]
  simp [Option.map_map, Function.comp_def]

/-! ## Bodies -/

theorem isTableConstraint_body {d : Dialect} {t : Table} (hn : t.PlainlyNamed)
    {clauses : List (List Lexeme)} {fs : List Field} (hsub : ∀ f ∈ fs, f ∈ t.fields)
    (h : List.Forall₂ (Spell d) clauses fs) : ∀ us ∈ clauses, isTableConstraint us = false := by
  induction h with
  | nil => simp
  | @cons us f clauses fs hspell _ ih =>
    intro vs hvs
    rcases List.mem_cons.mp hvs with rfl | hvs
    · exact isTableConstraint_contents (hn.fields f (hsub f List.mem_cons_self)) hspell
    · exact ih (fun g hg => hsub g (List.mem_cons_of_mem f hg)) vs hvs

/-- Names that are new before an item are still new after it. -/
theorem names_new_after {α : Type} {name : α → String} {a : α} {as : List α} {known : List String}
    (hfirst : name a ∉ as.map name) (hnew : ∀ b ∈ a :: as, name b ∉ known) :
    ∀ b ∈ as, name b ∉ known ++ [name a] := by
  intro b hb hmem
  rcases List.mem_append.mp hmem with hmem | hmem
  · exact hnew b (List.mem_cons_of_mem a hb) hmem
  · have hsame : name b = name a := List.mem_singleton.mp hmem
    exact hfirst (List.mem_map.mpr ⟨b, hb, hsame⟩)

theorem foldl_addColumn_contents {source : List Char} {d : Dialect} {t : Table}
    (ht : t.WellFormed) (hn : t.PlainlyNamed) {clauses : List (List Lexeme)} {fs : List Field}
    (hsub : ∀ f ∈ fs, f ∈ t.fields) (hnames : (fs.map (·.name)).Nodup)
    (h : List.Forall₂ (Spell d) clauses fs) {draft : Draft}
    (hnew : ∀ f ∈ fs, f.name ∉ draft.fields.map (·.name)) :
    clauses.foldl (·.addColumn source) draft =
      ⟨draft.name, draft.fields ++ fs.map (·.bare d), draft.pending ++ fs.flatMap Field.pending,
        draft.issues⟩ := by
  induction h generalizing draft with
  | nil => simp
  | @cons us f clauses fs hspell _ ih =>
    have hf := hsub f List.mem_cons_self
    simp only [List.map_cons, List.nodup_cons] at hnames
    rw [List.foldl_cons, addColumn_contents (hn.fields f hf).1 (hn.references f hf)
      (ht.types f hf) (ht.keys f hf) (hnew f List.mem_cons_self) hspell,
      ih (fun g hg => hsub g (List.mem_cons_of_mem f hg)) hnames.2]
    · simp
    · have hlater : ∀ g ∈ fs, g.name ∉ draft.fields.map (·.name) ++ [f.name] :=
        names_new_after hnames.1 hnew
      simpa using hlater

/-- The draft that a written table is read back as. -/
def Draft.written (d : Dialect) (t : Table) : Draft :=
  ⟨t.name, t.fields.map (·.bare d), t.fields.flatMap Field.pending, []⟩

theorem ofClauses_contents (source : List Char) {d : Dialect} {t : Table} (ht : t.WellFormed)
    (hn : t.PlainlyNamed) {clauses : List (List Lexeme)}
    (h : List.Forall₂ (Spell d) clauses t.fields) :
    Draft.ofClauses source t.name clauses = Draft.written d t := by
  have hnone := isTableConstraint_body hn (fun _ hf => hf) h
  have hcolumns : clauses.filter (!isTableConstraint ·) = clauses :=
    List.filter_eq_self.mpr fun us hus => by rw [hnone us hus]; rfl
  have hconstraints : clauses.filter isTableConstraint = [] :=
    List.filter_eq_nil_iff.mpr fun us hus => by rw [hnone us hus]; exact Bool.false_ne_true
  rw [Draft.ofClauses, hcolumns, hconstraints, List.foldl_nil,
    foldl_addColumn_contents ht hn (fun _ hf => hf) ht.names h (by simp), Draft.written]
  simp

end Script

end Schemata
