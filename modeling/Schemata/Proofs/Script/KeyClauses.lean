import Mathlib.Data.List.Basic
import Mathlib.Tactic
import Schemata.Proofs.Script.ClauseKinds
import Schemata.Proofs.Script.Keys
import Schemata.Proofs.Script.Traits

/-!
# Keys as they are written

A primary key and a reference are each written in two ways: as a constraint of their column, or as a
clause of the table body that names the column, with or without a name of its own. Both are read off
their lexemes, whatever the table, its names and the other clauses are.
-/
namespace Schemata.Script

open Phrase

/-- A key that a column may have. -/
inductive ColumnKey where
  | primary
  | reference (target : Target)
deriving DecidableEq

namespace ColumnKey

def trait : ColumnKey → Trait
  | primary => .primaryKey
  | reference target => .reference (.ok target)

def demand (name : String) : ColumnKey → Demand
  | primary => .key name
  | reference target => .reference name target

/-- The column with the key. -/
def onto (c : Column) : ColumnKey → Column
  | primary => c.asKey
  | reference target => c.to target

end ColumnKey

/-! ## Spellings -/

/-- Lexemes that spell a table, or a table with a column in parentheses. -/
inductive SpellsTarget : Target → List Lexeme → Prop where
  | table {table : String} {name : List Lexeme} (hname : qualifiedName? name = some (table, [])) :
    SpellsTarget ⟨table, none⟩ name
  | column {table : String} {name : List Lexeme} {o c e : Lexeme}
    (hname : qualifiedName? name = some (table, [])) (ho : o.isOpening = true)
    (hc : c.isName = true) (he : e.isClosing = true) :
    SpellsTarget ⟨table, some c.identifier⟩ (name ++ [o, c, e])

/-- `PRIMARY KEY` or `REFERENCES …`, as a constraint of a column. -/
inductive ColumnKey.Inline : ColumnKey → List Lexeme → Prop where
  | primary {p k : Lexeme} (hp : p.isWord ["PRIMARY"] = true) (hk : k.isWord ["KEY"] = true) :
    Inline .primary [p, k]
  | reference {r : Lexeme} {target : Target} {us : List Lexeme}
    (hr : r.isWord ["REFERENCES"] = true) (hus : SpellsTarget target us) :
    Inline (.reference target) (r :: us)

/-- `PRIMARY KEY (name)` or `FOREIGN KEY (name) REFERENCES …`, as a clause of a table body. -/
inductive ColumnKey.Bare (name : String) : ColumnKey → List Lexeme → Prop where
  | primary {p k o c e : Lexeme} (hp : p.isWord ["PRIMARY"] = true) (hk : k.isWord ["KEY"] = true)
    (ho : o.isOpening = true) (hc : c.isName = true) (hname : c.identifier = name)
    (he : e.isClosing = true) : Bare name .primary [p, k, o, c, e]
  | reference {f k o c e r : Lexeme} {target : Target} {us : List Lexeme}
    (hf : f.isWord ["FOREIGN"] = true) (hk : k.isWord ["KEY"] = true) (ho : o.isOpening = true)
    (hc : c.isName = true) (hname : c.identifier = name) (he : e.isClosing = true)
    (hr : r.isWord ["REFERENCES"] = true) (hus : SpellsTarget target us) :
    Bare name (.reference target) (f :: k :: o :: c :: e :: r :: us)

/-- The clause, with or without `CONSTRAINT` and a name in front. -/
inductive ColumnKey.Clause (name : String) (key : ColumnKey) : List Lexeme → Prop where
  | bare {us : List Lexeme} (h : key.Bare name us) : Clause name key us
  | named {k n : Lexeme} {us : List Lexeme} (hk : k.isWord ["CONSTRAINT"] = true)
    (h : key.Bare name us) : Clause name key (k :: n :: us)

/-! ## Words -/

/-- Outside parentheses the constraint that begins with a word is read, if one does. -/
theorem traitsFrom_word (source : List Char) {u : Lexeme} (hu : u.kind = .word) {depth : ℤ}
    (hdepth : depth ≤ 0) (us : List Lexeme) :
    traitsFrom source depth (u :: us) =
      (traitAt source u us).1.toList ++ traitsFrom source depth (traitAt source u us).2 :=
  traitsFrom_outside source (by simp [Lexeme.isOpening, isPunct_of_word_kind hu])
    (by simp [Lexeme.isClosing, isPunct_of_word_kind hu]) (by omega)

/-! ## References -/

theorem qualifiedRest_append {name table : String} {us : List Lexeme}
    (h : qualifiedRest name us = (table, [])) {rest : List Lexeme}
    (hrest : ∀ u ∈ rest.head?, u.isPunct "." = false) :
    qualifiedRest name (us ++ rest) = (table, rest) := by
  fun_induction qualifiedRest name us with
  | case1 name dot part us hdot ih =>
    rw [List.cons_append, List.cons_append, qualifiedRest, if_pos hdot]
    exact ih h
  | case2 => cases h
  | case3 name us _ =>
    obtain ⟨rfl, rfl⟩ := Prod.mk.inj h
    rcases rest with _ | ⟨u, _ | ⟨v, rest⟩⟩
    · rfl
    · rfl
    · have hdot := hrest u rfl
      simp [qualifiedRest, hdot]

theorem qualifiedName?_append {table : String} {us : List Lexeme}
    (h : qualifiedName? us = some (table, [])) {rest : List Lexeme}
    (hrest : ∀ u ∈ rest.head?, u.isPunct "." = false) :
    qualifiedName? (us ++ rest) = some (table, rest) := by
  cases us with
  | nil => cases h
  | cons u us =>
    rw [qualifiedName?] at h
    split at h
    · next hname =>
      rw [List.cons_append, qualifiedName?, if_pos hname,
        qualifiedRest_append (Option.some.inj h) hrest]
    · cases h

/-- A list of one name. -/
theorem nameList_singleton {o c e : Lexeme} (ho : o.isOpening = true) (hc : c.isName = true)
    (he : e.isClosing = true) (rest : List Lexeme) :
    nameList (o :: c :: e :: rest) = ([c.identifier], rest) := by
  have hplain : ∀ u ∈ [c], u.isOpening = false ∧ u.isClosing = false ∧
      Lexeme.cutsClause u = false := by
    intro u hu
    rw [List.mem_singleton.mp hu]
    exact ⟨isPunct_of_isName hc "(", isPunct_of_isName hc ")", isPunct_of_isName hc ","⟩
  have hsolid : Lexeme.Solid Lexeme.cutsClause [c] := Lexeme.depthAfter?_plain hplain 0
  have hclosing := Lexeme.closing?_append hsolid.balanced he rest
  rw [List.singleton_append] at hclosing
  simp only [nameList, ho, if_true, hclosing,
    Lexeme.clauses_singleton hsolid (List.cons_ne_nil c [])]
  simp [leadingName?, hc]

/-- A reference is read to its end, if a word or nothing follows. -/
theorem reference_append {target : Target} {us : List Lexeme} (h : SpellsTarget target us)
    {rest : List Lexeme} (hrest : ∀ u ∈ rest.head?, u.kind = .word) :
    reference (us ++ rest) = (.ok target, rest) := by
  cases h with
  | @table table name hname =>
    have hdot : ∀ u ∈ rest.head?, u.isPunct "." = false := fun u hu =>
      isPunct_of_word_kind (hrest u hu) "."
    rw [reference, qualifiedName?_append hname hdot]
    cases rest with
    | nil => rfl
    | cons u rest =>
      have hopen : u.isOpening = false := isPunct_of_word_kind (hrest u rfl) "("
      simp [hopen]
  | @column table name o c e hname ho hc he =>
    have hdot : ∀ u ∈ (o :: c :: e :: rest).head?, u.isPunct "." = false := by
      intro u hu
      obtain rfl := Option.some.inj hu
      have htext : o.text = "(" := of_decide_eq_true (Bool.and_eq_true .. ▸ ho).2
      simp [Lexeme.isPunct, htext]
    rw [List.append_assoc, show [o, c, e] ++ rest = o :: c :: e :: rest from rfl, reference,
      qualifiedName?_append hname hdot]
    simp only [ho, if_true, nameList_singleton ho hc he rest]

/-! ## As a constraint of the column -/

theorem traitsFrom_inline (source : List Char) {key : ColumnKey} {us : List Lexeme}
    (h : key.Inline us) {rest : List Lexeme} (hrest : ∀ u ∈ rest.head?, u.kind = .word) :
    traitsFrom source 0 (us ++ rest) = key.trait :: traitsFrom source 0 rest := by
  cases h with
  | primary hp hk =>
    rw [List.cons_append, List.cons_append, traitsFrom_word source (kind_of_isWord hp) le_rfl,
      traitAt, if_neg (by simp [isWord_eq_false hp]), if_pos (by simp [hp, nextIs, hk])]
    rfl
  | reference hr hus =>
    rw [List.cons_append, traitsFrom_word source (kind_of_isWord hr) le_rfl, traitAt,
      if_neg (by simp [isWord_eq_false hr]), if_neg (by simp [isWord_eq_false hr]), if_pos hr,
      reference_append hus hrest]
    rfl

theorem foldl_add_primaryKey (ts : List Trait) (traits : ColumnTraits) :
    ts.foldl ColumnTraits.add (traits.add .primaryKey) =
      (ts.foldl ColumnTraits.add traits).add .primaryKey := by
  refine List.foldl_hom (fun traits => ColumnTraits.add traits .primaryKey) fun traits t => ?_
  cases t with
  | reference outcome => cases outcome <;> rfl
  | _ => rfl

/-- A reference gives way to a later one. -/
theorem foldl_add_target (ts : List Trait) (traits : ColumnTraits) (target : Option Target) :
    ts.foldl ColumnTraits.add { traits with target := traits.target.or target } =
      { ts.foldl ColumnTraits.add traits with
        target := (ts.foldl ColumnTraits.add traits).target.or target } := by
  refine List.foldl_hom
    (fun traits : ColumnTraits => { traits with target := traits.target.or target })
    fun traits t => ?_
  cases t with
  | reference outcome => cases outcome <;> rfl
  | _ => rfl

theorem columnField_primaryKey (name type : String) (traits : ColumnTraits) :
    columnField name type (traits.add .primaryKey) =
      { columnField name type traits with primaryKey := true, nullable := false } := by
  simp [columnField, ColumnTraits.add]

theorem columnField_target (name type : String) (traits : ColumnTraits) (target : Option Target) :
    columnField name type { traits with target := target } = columnField name type traits := by
  simp only [columnField]

/-- The column of a definition with one more constraint in front of its others. A reference must be
the only one. -/
theorem column_of_key (name type : String) (ts : List Trait) (key : ColumnKey)
    (hopen : key ≠ .primary → (ts.foldl ColumnTraits.add {}).target = none) :
    (⟨columnField name type ((key.trait :: ts).foldl ColumnTraits.add {}),
      ((key.trait :: ts).foldl ColumnTraits.add {}).target⟩ : Column) =
      key.onto ⟨columnField name type (ts.foldl ColumnTraits.add {}),
        (ts.foldl ColumnTraits.add {}).target⟩ := by
  rw [List.foldl_cons]
  cases key with
  | primary =>
    rw [ColumnKey.trait, foldl_add_primaryKey, columnField_primaryKey]
    rfl
  | reference target =>
    have hnone := hopen (by simp)
    have hfold : ts.foldl ColumnTraits.add
        (({} : ColumnTraits).add (ColumnKey.reference target).trait) =
        { ts.foldl ColumnTraits.add {} with target := some target } := by
      have h := foldl_add_target ts {} (some target)
      rw [hnone, Option.none_or] at h
      exact h
    rw [hfold, columnField_target]
    rfl

/-! ## As a clause of the table body -/

section Clause

variable {name : String} {key : ColumnKey} {us : List Lexeme}

theorem isTableConstraint_of_pair {keyword : String} {u v : Lexeme}
    (hkeyword : keyword ∈ ["PRIMARY", "FOREIGN"]) (hu : u.isWord [keyword] = true)
    (hv : v.isWord ["KEY"] = true) (rest : List Lexeme) :
    isTableConstraint (u :: v :: rest) = true := by
  have hpair : pairIs keyword "KEY" (u :: v :: rest) = true := by
    rw [pairIs, hu, nextIs, hv]
    rfl
  rw [isTableConstraint]
  split
  · rfl
  · have hany : (pairIs "PRIMARY" "KEY" (u :: v :: rest) ||
        pairIs "FOREIGN" "KEY" (u :: v :: rest)) = true := by
      rcases List.mem_pair.mp hkeyword with rfl | rfl
      · rw [hpair, Bool.true_or]
      · rw [hpair, Bool.or_true]
    rw [if_pos hany]

theorem ColumnKey.Bare.isTableConstraint (h : key.Bare name us) : isTableConstraint us = true := by
  cases h with
  | primary hp hk => exact isTableConstraint_of_pair (by simp) hp hk _
  | reference hf hk => exact isTableConstraint_of_pair (by simp) hf hk _

theorem ColumnKey.Clause.isTableConstraint (h : key.Clause name us) :
    isTableConstraint us = true := by
  cases h with
  | bare h => exact h.isTableConstraint
  | named hk =>
    have hword : Lexeme.isWord _ ["CONSTRAINT", "EXCLUDE", "FULLTEXT", "SPATIAL"] = true :=
      isWord_of_subset hk (by simp)
    rw [Script.isTableConstraint, if_pos hword]

/-- The part of a demand that does not depend on the name of the constraint. -/
theorem ColumnKey.Bare.demand (h : key.Bare name us) :
    (if pairIs "PRIMARY" "KEY" us then keyDemand (us.drop 2)
      else if pairIs "FOREIGN" "KEY" us then referenceDemand (us.drop 2) else .nothing) =
      key.demand name := by
  cases h with
  | @primary p k o c e hp hk ho hc hname he =>
    have hpair : pairIs "PRIMARY" "KEY" [p, k, o, c, e] = true := by
      rw [pairIs, hp, nextIs, hk]
      rfl
    rw [if_pos hpair, show [p, k, o, c, e].drop 2 = [o, c, e] from rfl, keyDemand,
      nameList_singleton ho hc he, hname]
    rfl
  | @reference f k o c e r target us hf hk ho hc hname he hr hus =>
    have hprimary : pairIs "PRIMARY" "KEY" (f :: k :: o :: c :: e :: r :: us) = false := by
      rw [pairIs, isWord_eq_false hf (by decide), Bool.false_and]
    have hforeign : pairIs "FOREIGN" "KEY" (f :: k :: o :: c :: e :: r :: us) = true := by
      rw [pairIs, hf, nextIs, hk]
      rfl
    have hreference : Phrase.reference (us ++ []) = (.ok target, []) :=
      reference_append hus (by simp)
    rw [List.append_nil] at hreference
    rw [hprimary, if_neg Bool.false_ne_true, if_pos hforeign,
      show (f :: k :: o :: c :: e :: r :: us).drop 2 = o :: c :: e :: r :: us from rfl,
      referenceDemand, nameList_singleton ho hc he]
    simp only [hr, if_true, hreference, targetDemand, hname]
    rfl

theorem ColumnKey.Bare.unnamed (h : key.Bare name us) : Draft.unnamed us = us := by
  cases h with
  | primary hp => rw [Draft.unnamed, isWord_eq_false hp (by decide), if_neg Bool.false_ne_true]
  | reference hf => rw [Draft.unnamed, isWord_eq_false hf (by decide), if_neg Bool.false_ne_true]

/-- A key clause asks for its key. -/
theorem ColumnKey.Clause.demand (h : key.Clause name us) :
    Script.demand us = key.demand name := by
  cases h with
  | bare h => rw [Script.demand, h.unnamed, h.demand]
  | @named k n us hk h =>
    have hbody : Draft.unnamed (k :: n :: us) = us := by
      rw [Draft.unnamed, if_pos hk]
      rfl
    rw [Script.demand, hbody, h.demand]

end Clause

end Schemata.Script
