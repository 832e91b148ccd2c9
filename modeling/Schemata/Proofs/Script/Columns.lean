import Mathlib.Data.List.Basic
import Mathlib.Tactic
import Schemata.Proofs.Definition.Contents
import Schemata.Proofs.Lexeme.Nesting
import Schemata.Proofs.Script.Draft

/-!
# Reading columns back

The words and marks of a column definition are read as the column that was written: its stored type,
its constraints and its reference, and nothing to report.
-/
namespace Schemata

open Content Text

/-- The lexemes of some contents, from the first one on. -/
theorem Lexeme.exists_cons_of_contents {us : List Lexeme} {x : Content} {xs : List Content}
    (h : us.map content = x :: xs) : ∃ u vs, us = u :: vs ∧ u.content = x ∧ vs.map content = xs :=
  List.map_eq_cons_iff.mp h

/-- Words are solid if none of them is cut at. -/
theorem Lexeme.solid_of_words {cut : Lexeme → Bool} {us : List Lexeme} {ws : List String}
    (h : us.map content = ws.map word)
    (hcut : ∀ w ∈ ws, ∀ u : Lexeme, u.content = word w → cut u = false) : Solid cut us := by
  refine depthAfter?_plain (fun u hu => ?_) 0
  have hmem : u.content ∈ ws.map word := h ▸ List.mem_map_of_mem hu
  obtain ⟨w, hw, hcontent⟩ := List.mem_map.mp hmem
  have hword : u.content = word w := hcontent.symm
  exact ⟨isOpening_of_word hword, isClosing_of_word hword, hcut w hw u hword⟩

theorem Lexeme.solid_clause_of_words {us : List Lexeme} {ws : List String}
    (h : us.map content = ws.map word) : Solid cutsClause us :=
  solid_of_words h fun _ _ _ hu => isPunct_of_word hu ","

/-- The field that a column is read back as, before references are attached. -/
def Field.bare (f : Field) (d : Dialect) : Field :=
  { f with type := d.storedType f.type, foreignKey := none, defaultValue := none }

@[simp] theorem Field.bare_name (f : Field) (d : Dialect) : (f.bare d).name = f.name := rfl

/-- What a reference points at, written out in full. -/
def Reference.written (r : Reference) : Phrase.Target := ⟨r.table, some r.column⟩

namespace Phrase

open Lexeme

theorem nextIs_of_word {u : Lexeme} {text keyword : String} (h : u.content = word text)
    (rest : List Lexeme) : nextIs keyword (u :: rest) = decide (upperCase text = keyword) := by
  rw [nextIs, isWord_of_word h]
  simp

/-- A reference to one column is read in full. -/
theorem reference_contents {us rest : List Lexeme} {r : Reference}
    (hr : isIdentifier r.table = true ∧ isIdentifier r.column = true)
    (h : us.map content = [word r.table, mark "(", word r.column, mark ")"]) :
    reference (us ++ rest) = (.ok r.written, rest) := by
  obtain ⟨t, us, rfl, ht, h⟩ := exists_cons_of_contents h
  obtain ⟨o, us, rfl, ho, h⟩ := exists_cons_of_contents h
  obtain ⟨c, us, rfl, hc, h⟩ := exists_cons_of_contents h
  obtain ⟨e, us, rfl, he, h⟩ := exists_cons_of_contents h
  obtain rfl := List.map_eq_nil_iff.mp h
  have hopen := isOpening_of_mark ho
  have hclose := isClosing_of_mark he
  have hdot : o.isPunct "." = false := by rw [isPunct_of_mark ho]; rfl
  have hcolumn : [c].map content = [r.column].map word := by simp [hc]
  have hsolid := solid_clause_of_words hcolumn
  have hname : qualifiedName? (t :: o :: c :: e :: rest) = some (r.table, o :: c :: e :: rest) := by
    simp [qualifiedName?, qualifiedRest, isName_of_word ht, identifier_of_word ht hr.1, hdot]
  have hinside : closing? ([c] ++ e :: rest) = some ([c], e, rest) :=
    closing?_append hsolid.balanced hclose rest
  have hlist : nameList (o :: c :: e :: rest) = ([r.column], rest) := by
    rw [nameList, if_pos hopen, ← List.singleton_append, hinside]
    simp [clauses_singleton hsolid, leadingName?, isName_of_word hc, identifier_of_word hc hr.2]
  simp only [List.cons_append, List.nil_append, reference, hname, hopen, if_true, hlist]
  rfl

end Phrase

namespace Script

open Lexeme Phrase

/-! ## One constraint -/

section Step

variable {source : List Char} {traits : ColumnTraits} {u v : Lexeme} {rest : List Lexeme}

theorem columnTraits_notNull (hu : u.content = word "NOT") (hv : v.content = word "NULL") :
    columnTraits source 0 traits (u :: v :: rest) =
      columnTraits source 0 { traits with notNull := true } rest := by
  have hnot : u.isWord ["NOT"] = true := by rw [isWord_of_word hu]; decide
  have hnull : nextIs "NULL" (v :: rest) = true := by rw [nextIs_of_word hv]; decide
  rw [columnTraits]
  simp [isOpening_of_word hu, isClosing_of_word hu, hnot, hnull]

theorem columnTraits_primaryKey (hu : u.content = word "PRIMARY") (hv : v.content = word "KEY") :
    columnTraits source 0 traits (u :: v :: rest) =
      columnTraits source 0 { traits with primaryKey := true } rest := by
  have hnot : u.isWord ["NOT"] = false := by rw [isWord_of_word hu]; decide
  have hprimary : u.isWord ["PRIMARY"] = true := by rw [isWord_of_word hu]; decide
  have hkey : nextIs "KEY" (v :: rest) = true := by rw [nextIs_of_word hv]; decide
  rw [columnTraits]
  simp [isOpening_of_word hu, isClosing_of_word hu, hnot, hprimary, hkey]

theorem columnTraits_references {us : List Lexeme} {r : Reference}
    (hr : isIdentifier r.table = true ∧ isIdentifier r.column = true)
    (h : us.map content = r.contents) :
    columnTraits source 0 traits (us ++ rest) =
      columnTraits source 0 { traits with target := some r.written } rest := by
  obtain ⟨u, us, rfl, hu, h⟩ := exists_cons_of_contents h
  have hnot : u.isWord ["NOT"] = false := by rw [isWord_of_word hu]; decide
  have hprimary : u.isWord ["PRIMARY"] = false := by rw [isWord_of_word hu]; decide
  have hword : u.isWord ["REFERENCES"] = true := by rw [isWord_of_word hu]; decide
  rw [List.cons_append, columnTraits]
  simp [isOpening_of_word hu, isClosing_of_word hu, hnot, hprimary, hword,
    reference_contents hr h, ColumnTraits.addReference]

/-- Other words say nothing. -/
theorem columnTraits_word {text : String} (hu : u.content = word text)
    (h : upperCase text ∉ ["NOT", "PRIMARY", "REFERENCES", "DEFAULT"]) :
    columnTraits source 0 traits (u :: rest) = columnTraits source 0 traits rest := by
  simp only [List.mem_cons, List.not_mem_nil, or_false, not_or] at h
  rw [columnTraits]
  simp [isOpening_of_word hu, isClosing_of_word hu, isWord_of_word hu, h]

end Step

/-! ## All constraints -/

theorem columnTraits_keyWords {source : List Char} {traits : ColumnTraits} {us : List Lexeme}
    {l : LogicalType} {d : Dialect} {key : Bool}
    (h : us.map content = (l.keyWords d key).map word) (rest : List Lexeme) :
    columnTraits source 0 traits (us ++ rest) =
      columnTraits source 0 { traits with primaryKey := traits.primaryKey || key } rest := by
  cases key with
  | false =>
    obtain rfl := List.map_eq_nil_iff.mp h
    rw [Bool.or_false]
    rfl
  | true =>
    have hshape : l.keyWords d true = ["PRIMARY", "KEY"] ∨
        l.keyWords d true = ["AUTO_INCREMENT", "PRIMARY", "KEY"] ∨
        l.keyWords d true = ["PRIMARY", "KEY", "AUTOINCREMENT"] := by
      cases l <;> cases d <;> decide
    rw [Bool.or_true]
    rcases hshape with hs | hs | hs <;> rw [hs] at h
    · obtain ⟨p, us, rfl, hp, h⟩ := exists_cons_of_contents h
      obtain ⟨k, us, rfl, hk, h⟩ := exists_cons_of_contents h
      obtain rfl := List.map_eq_nil_iff.mp h
      exact columnTraits_primaryKey hp hk
    · obtain ⟨a, us, rfl, ha, h⟩ := exists_cons_of_contents h
      obtain ⟨p, us, rfl, hp, h⟩ := exists_cons_of_contents h
      obtain ⟨k, us, rfl, hk, h⟩ := exists_cons_of_contents h
      obtain rfl := List.map_eq_nil_iff.mp h
      exact (columnTraits_word ha (by decide)).trans (columnTraits_primaryKey hp hk)
    · obtain ⟨p, us, rfl, hp, h⟩ := exists_cons_of_contents h
      obtain ⟨k, us, rfl, hk, h⟩ := exists_cons_of_contents h
      obtain ⟨a, us, rfl, ha, h⟩ := exists_cons_of_contents h
      obtain rfl := List.map_eq_nil_iff.mp h
      exact (columnTraits_primaryKey hp hk).trans (columnTraits_word ha (by decide))

theorem columnTraits_nullability {source : List Char} {traits : ColumnTraits} {us : List Lexeme}
    {b : Bool} (h : us.map content = if b then [word "NOT", word "NULL"] else [])
    (rest : List Lexeme) :
    columnTraits source 0 traits (us ++ rest) =
      columnTraits source 0 { traits with notNull := traits.notNull || b } rest := by
  cases b with
  | false =>
    obtain rfl := List.map_eq_nil_iff.mp h
    rw [Bool.or_false]
    rfl
  | true =>
    obtain ⟨n, us, rfl, hn, h⟩ := exists_cons_of_contents h
    obtain ⟨m, us, rfl, hm, h⟩ := exists_cons_of_contents h
    obtain rfl := List.map_eq_nil_iff.mp h
    rw [Bool.or_true]
    exact columnTraits_notNull hn hm

/-- The constraints of a written column are all read, and nothing else is. -/
theorem columnTraits_contents {source : List Char} {us : List Lexeme} {f : Field} {d : Dialect}
    (hr : ∀ r, f.foreignKey = some r → isIdentifier r.table = true ∧ isIdentifier r.column = true)
    (h : us.map content =
      (f.logicalType.keyWords d f.primaryKey).map word ++ f.constraintContents) :
    columnTraits source 0 {} us =
      { notNull := !f.nullable && !f.primaryKey
        primaryKey := f.primaryKey
        target := f.foreignKey.map Reference.written } := by
  obtain ⟨ks, us, rfl, hk, h⟩ := List.map_eq_append_iff.mp h
  obtain ⟨ns, rs, rfl, hn, h⟩ := List.map_eq_append_iff.mp h
  rw [columnTraits_keyWords hk, columnTraits_nullability hn]
  cases hf : f.foreignKey with
  | none =>
    rw [hf] at h
    obtain rfl := List.map_eq_nil_iff.mp h
    rw [columnTraits]
    simp
  | some r =>
    rw [hf] at h
    have hlast : ∀ traits, columnTraits source 0 traits (rs ++ []) =
        columnTraits source 0 { traits with target := some r.written } [] := fun _ =>
      columnTraits_references (hr r hf) h
    rw [← List.append_nil rs, hlast, columnTraits]
    simp

/-- A column is read back as the field it was written for. -/
theorem columnField_contents {f : Field} {d : Dialect} {traits : ColumnTraits}
    (htype : ∃ l : LogicalType, f.type = l.name)
    (hkey : f.primaryKey = true → f.nullable = false)
    (hnull : traits.notNull = (!f.nullable && !f.primaryKey))
    (hprimary : traits.primaryKey = f.primaryKey) (hdefault : traits.defaultValue = none) :
    columnField f.name (f.logicalType.columnWord d f.primaryKey) traits = f.bare d := by
  have hlogical : (TypeWord.logical (f.logicalType.columnWord d f.primaryKey)).name =
      d.storedType f.type := by
    rw [TypeWord.logical, LogicalType.logical?_columnWord, Option.getD_some,
      ← LogicalType.storedType_name, ← Field.logicalType_name htype]
  have hauto : (f.primaryKey || TypeWord.isAutoIncrement
      (f.logicalType.columnWord d f.primaryKey)) = f.primaryKey := by
    cases hword : TypeWord.isAutoIncrement (f.logicalType.columnWord d f.primaryKey) with
    | false => rw [Bool.or_false]
    | true => rw [LogicalType.isAutoIncrement_columnWord hword]; rfl
  simp only [columnField, hprimary, hauto, hnull, hdefault, hlogical, Field.bare]
  cases hp : f.primaryKey with
  | false => simp
  | true => simp [hkey hp]

end Script

end Schemata
