import Mathlib.Data.List.Forall2
import Mathlib.Tactic
import Schemata.Proofs.Script.Phrases
import Schemata.Proofs.Script.Traits

/-!
# Restated statements

A statement that is written at another place, with lexemes that correspond to its own, declares the
same columns and makes the same demands. Scripts whose statements are restated one by one have the
same drafts, as far as their default values count.
-/
namespace Schemata.Script

open Phrase

variable {view : View} {source source' : List Char} {R : Lexeme → Lexeme → Prop}
  {us vs : List Lexeme}

/-! ## Columns -/

/-- A constraint with what counts of its default value. -/
def Trait.through (view : View) : Trait → Trait
  | .default value => .default (view value)
  | .notNull => .notNull
  | .primaryKey => .primaryKey
  | .reference outcome => .reference outcome

@[simp] theorem Trait.through_id (t : Trait) : t.through id = t := by cases t <;> rfl

/-- The traits with what counts of the default value. -/
def ColumnTraits.through (view : View) (traits : ColumnTraits) : ColumnTraits :=
  { traits with defaultValue := view traits.defaultValue }

@[simp] theorem ColumnTraits.through_target (traits : ColumnTraits) :
    (traits.through view).target = traits.target := rfl

theorem ColumnTraits.through_add (traits : ColumnTraits) (t : Trait) :
    (traits.add t).through view = (traits.through view).add (t.through view) := by
  cases t with
  | reference outcome => cases outcome <;> rfl
  | _ => rfl

theorem ColumnTraits.through_foldl (ts : List Trait) (traits : ColumnTraits) :
    (ts.foldl ColumnTraits.add traits).through view =
      (ts.map (Trait.through view)).foldl ColumnTraits.add (traits.through view) := by
  rw [List.foldl_map]
  exact (List.foldl_hom (ColumnTraits.through view) fun traits t =>
    (through_add traits t).symm).symm

theorem traitAt_restated (hR : Restating view source source' R) {u v : Lexeme} (hu : R u v)
    (h : List.Forall₂ R us vs) :
    (traitAt source u us).1.map (Trait.through view) =
        (traitAt source' v vs).1.map (Trait.through view) ∧
      List.Forall₂ R (traitAt source u us).2 (traitAt source' v vs).2 := by
  have hdrop := List.forall₂_drop 1 h
  obtain ⟨hsame, hafter⟩ := sameThen_reference hR.alike h
  obtain ⟨hvalue, hbehind⟩ := default?_restated hR h
  simp only [traitAt, (hR.alike u v hu).isWord, nextIs_eq hR.alike _ h]
  split_ifs
  · exact ⟨rfl, hdrop⟩
  · exact ⟨rfl, hdrop⟩
  · exact ⟨by rw [hsame], hafter⟩
  · exact ⟨by simp only [Option.map_some, Trait.through, hvalue], hbehind⟩
  · exact ⟨rfl, h⟩

theorem traitsFrom_restated (hR : Restating view source source' R) (h : List.Forall₂ R us vs)
    (depth : ℤ) :
    (traitsFrom source depth us).map (Trait.through view) =
      (traitsFrom source' depth vs).map (Trait.through view) := by
  induction depth, us using traitsFrom_induction source generalizing vs with
  | nil depth =>
    cases h
    rw [traitsFrom, traitsFrom]
  | opening depth u us ho ih =>
    obtain ⟨v, vs, hu, hrest, rfl⟩ := List.forall₂_cons_left_iff.mp h
    have ho' := (hR.alike u v hu).isOpening ▸ ho
    rw [traitsFrom_opening source ho, traitsFrom_opening source' ho', ih hrest]
  | closing depth u us ho hc ih =>
    obtain ⟨v, vs, hu, hrest, rfl⟩ := List.forall₂_cons_left_iff.mp h
    have ho' := (hR.alike u v hu).isOpening ▸ ho
    have hc' := (hR.alike u v hu).isClosing ▸ hc
    rw [traitsFrom_closing source ho hc, traitsFrom_closing source' ho' hc', ih hrest]
  | inside depth u us ho hc hd ih =>
    obtain ⟨v, vs, hu, hrest, rfl⟩ := List.forall₂_cons_left_iff.mp h
    have ho' := (hR.alike u v hu).isOpening ▸ ho
    have hc' := (hR.alike u v hu).isClosing ▸ hc
    rw [traitsFrom_inside source ho hc hd, traitsFrom_inside source' ho' hc' hd, ih hrest]
  | outside depth u us ho hc hd ih =>
    obtain ⟨v, vs, hu, hrest, rfl⟩ := List.forall₂_cons_left_iff.mp h
    have ho' := (hR.alike u v hu).isOpening ▸ ho
    have hc' := (hR.alike u v hu).isClosing ▸ hc
    obtain ⟨hread, hbehind⟩ := traitAt_restated hR hu hrest
    rw [traitsFrom_outside source ho hc hd, traitsFrom_outside source' ho' hc' hd,
      List.map_append, List.map_append, ← Option.toList_map, ← Option.toList_map, hread,
      ih hbehind]

theorem traitsFrom_restated_id (hR : Restating id source source' R) (h : List.Forall₂ R us vs)
    (depth : ℤ) : traitsFrom source depth us = traitsFrom source' depth vs := by
  have htraits := traitsFrom_restated hR h depth
  rwa [List.map_id'' Trait.through_id, List.map_id'' Trait.through_id] at htraits

/-- Traits begin with no default value, and they end with the same one as far as it counts. -/
theorem columnTraits_restated (hR : Restating view source source' R) (h : List.Forall₂ R us vs) :
    (columnTraits source 0 {} us).through view = (columnTraits source' 0 {} vs).through view := by
  rw [columnTraits_eq_foldl, columnTraits_eq_foldl, ColumnTraits.through_foldl,
    ColumnTraits.through_foldl, traitsFrom_restated hR h]

theorem columnField_through (name type : String) (traits : ColumnTraits) :
    (columnField name type traits).through view =
      columnField name type (traits.through view) := by
  simp only [columnField, Field.through, ColumnTraits.through]

/-- Of a type word only its base counts. -/
theorem columnField_congr {type type' : String} (h : TypeWord.base type = TypeWord.base type')
    (name : String) (traits : ColumnTraits) :
    columnField name type traits = columnField name type' traits := by
  simp only [columnField, TypeWord.logical, TypeWord.logical?, TypeWord.isAutoIncrement, h]

theorem base_typeText {u v : Lexeme} (h : u.Alike v) :
    TypeWord.base (typeText u) = TypeWord.base (typeText v) := by
  simp only [typeText, ← h.isName]
  split
  · next hname => exact h.type hname
  · rfl

theorem column?_restated (hR : Restating view source source' R) (h : List.Forall₂ R us vs) :
    (column? source us).map (Column.through view) =
      (column? source' vs).map (Column.through view) := by
  obtain _ | ⟨hfirst, _ | ⟨hsecond, h⟩⟩ := h
  · rfl
  · rfl
  simp only [column?, ← (hR.alike _ _ hfirst).isName]
  split
  · next hname =>
    have htraits := columnTraits_restated hR h
    have htarget := congrArg ColumnTraits.target htraits
    rw [ColumnTraits.through_target, ColumnTraits.through_target] at htarget
    simp only [Option.map_some, Column.through, columnField_through, htraits, htarget,
      (hR.alike _ _ hfirst).identifier hname,
      columnField_congr (base_typeText (hR.alike _ _ hsecond))]
  · rfl

/-! ## Constraints -/

section Alike

variable (hR : ∀ u v, R u v → u.Alike v)
include hR

theorem isKnownType_eq {u v : Lexeme} (hu : R u v) : isKnownType u = isKnownType v := by
  by_cases hname : u.isName = true
  · simp only [isKnownType, ← (hR _ _ hu).isName, TypeWord.isKnown, TypeWord.logical?,
      (hR _ _ hu).type hname]
  · simp [isKnownType, ← (hR _ _ hu).isName, hname]

theorem isTableConstraint_eq (h : List.Forall₂ R us vs) :
    isTableConstraint us = isTableConstraint vs := by
  cases h with
  | nil => rfl
  | @cons first first' us vs hfirst hrest =>
    have hpair : ∀ one two, pairIs one two (first :: us) = pairIs one two (first' :: vs) :=
      fun one two => pairIs_eq hR one two (List.Forall₂.cons hfirst hrest)
    simp only [isTableConstraint, (hR _ _ hfirst).isWord, hpair]
    cases hrest with
    | nil => rfl
    | cons hsecond hrest =>
      cases hrest with
      | nil =>
        simp only [List.head?_cons, List.head?_nil, Option.map_some, isKnownType_eq hR hsecond,
          (hR _ _ hsecond).isOpening]
      | cons hthird _ =>
        simp only [List.head?_cons, Option.map_some, isKnownType_eq hR hsecond,
          (hR _ _ hsecond).isOpening, (hR _ _ hthird).isOpening]

theorem forall₂_unnamed (h : List.Forall₂ R us vs) :
    List.Forall₂ R (Draft.unnamed us) (Draft.unnamed vs) := by
  cases h with
  | nil => exact List.Forall₂.nil
  | cons hu hrest =>
    simp only [Draft.unnamed, (hR _ _ hu).isWord]
    split
    · exact List.forall₂_drop 1 hrest
    · exact List.Forall₂.cons hu hrest

theorem referenceDemand_eq (h : List.Forall₂ R us vs) :
    referenceDemand us = referenceDemand vs := by
  obtain ⟨hnames, hrest⟩ := sameThen_nameList hR h
  simp only [referenceDemand, hnames]
  generalize (nameList us).2 = after, (nameList vs).2 = after' at hrest
  cases hrest with
  | nil => rfl
  | cons hu hrest => simp only [(hR _ _ hu).isWord, (sameThen_reference hR hrest).1]

theorem demand_eq (h : List.Forall₂ R us vs) : demand us = demand vs := by
  have hbody := forall₂_unnamed hR h
  have hbehind := List.forall₂_drop 2 hbody
  simp only [demand, pairIs_eq hR _ _ hbody, keyDemand, (sameThen_nameList hR hbehind).1,
    referenceDemand_eq hR hbehind]

end Alike

/-! ## Clauses -/

/-- Lexemes that are written at another place. -/
def Restated (view : View) (source source' : List Char) (us vs : List Lexeme) : Prop :=
  ∃ R, Restating view source source' R ∧ List.Forall₂ R us vs

/-- It is enough to compare what the lexemes say and the text between any two of them. -/
theorem restated_of_spans (h : us.map Lexeme.content = vs.map Lexeme.content)
    (hspan : ∀ p ∈ us.zip vs, ∀ q ∈ us.zip vs,
      Lexeme.sourceText source [p.1, q.1] = Lexeme.sourceText source' [p.2, q.2]) :
    Restated view source source' us vs := by
  obtain ⟨hlength, hcontent⟩ := List.forall₂_iff_zip.mp (Lexeme.forall₂_content h)
  refine ⟨fun u v => (u, v) ∈ us.zip vs, ⟨fun u v huv => ?_, ?_⟩, ?_⟩
  · exact Lexeme.alike_of_content (hcontent huv)
  · intro u v u' v' huv huv'
    rw [hspan (u, v) huv (u', v') huv']
  · exact List.forall₂_iff_zip.mpr ⟨hlength, fun huv => huv⟩

section Clauses

variable {clauses clauses' : List (List Lexeme)}
  (h : List.Forall₂ (Restated view source source') clauses clauses')
include h

theorem columnsOf_restated :
    (columnsOf source clauses).map (Column.through view) =
      (columnsOf source' clauses').map (Column.through view) := by
  induction h with
  | nil => rw [columnsOf_nil, columnsOf_nil]
  | @cons us vs clauses clauses' hclause _ ih =>
    obtain ⟨R, hR, hclause⟩ := hclause
    rw [← List.singleton_append, columnsOf_append, ← List.singleton_append (l := clauses'),
      columnsOf_append, List.map_append, List.map_append, ih, columnsOf_singleton,
      columnsOf_singleton, isTableConstraint_eq hR.alike hclause]
    split
    · rfl
    · rw [← Option.toList_map, column?_restated hR hclause, Option.toList_map]

omit h in
theorem columnsOf_restated_id (h : List.Forall₂ (Restated id source source') clauses clauses') :
    columnsOf source clauses = columnsOf source' clauses' := by
  have hcolumns := columnsOf_restated h
  rwa [List.map_id'' Column.through_id, List.map_id'' Column.through_id] at hcolumns

theorem demandsOf_restated : demandsOf clauses = demandsOf clauses' := by
  induction h with
  | nil => rfl
  | @cons us vs clauses clauses' hclause _ ih =>
    obtain ⟨R, hR, hclause⟩ := hclause
    rw [← List.singleton_append, demandsOf_append, ← List.singleton_append (l := clauses'),
      demandsOf_append, ih, demandsOf_singleton, demandsOf_singleton,
      isTableConstraint_eq hR.alike hclause, demand_eq hR.alike hclause]

/-- A table body has the same draft wherever it is written. -/
theorem ofClauses_restated (name : String) :
    (Draft.ofClauses source name clauses).quiet.through view =
      (Draft.ofClauses source' name clauses').quiet.through view := by
  rw [Draft.quiet_ofClauses, Draft.quiet_ofClauses, ← Draft.assemble_through,
    ← Draft.assemble_through, columnsOf_restated h, demandsOf_restated h]

end Clauses

/-! ## Statements -/

theorem forall₂_dropWhile_isWord (hR : ∀ u v, R u v → u.Alike v) (keywords : List String)
    (h : List.Forall₂ R us vs) :
    List.Forall₂ R (us.dropWhile (·.isWord keywords)) (vs.dropWhile (·.isWord keywords)) := by
  induction h with
  | nil => exact List.Forall₂.nil
  | cons hu hrest ih =>
    rw [List.dropWhile_cons, List.dropWhile_cons, (hR _ _ hu).isWord]
    split
    · exact ih
    · exact List.Forall₂.cons hu hrest

theorem isCreateTable_eq (hR : ∀ u v, R u v → u.Alike v) (h : List.Forall₂ R us vs) :
    isCreateTable us = isCreateTable vs := by
  cases h with
  | nil => rfl
  | cons hu hrest =>
    have htable := nextIs_eq hR "TABLE" (forall₂_dropWhile_isWord hR tableModifiers hrest)
    simp only [isCreateTable, dropModifiers, (hR _ _ hu).isWord, htable]

theorem forall₂_dropIfNotExists (hR : ∀ u v, R u v → u.Alike v) (h : List.Forall₂ R us vs) :
    List.Forall₂ R (dropIfNotExists us) (dropIfNotExists vs) := by
  rcases h with _ | ⟨ha, _ | ⟨hb, _ | ⟨hc, h⟩⟩⟩
  · exact List.Forall₂.nil
  · exact List.Forall₂.cons ha List.Forall₂.nil
  · exact List.Forall₂.cons ha (List.Forall₂.cons hb List.Forall₂.nil)
  simp only [dropIfNotExists, (hR _ _ ha).isWord, (hR _ _ hb).isWord, (hR _ _ hc).isWord]
  split
  · exact h
  · exact List.Forall₂.cons ha (List.Forall₂.cons hb (List.Forall₂.cons hc h))

/-- The name and the body of the table are found in both statements or in none. -/
theorem rel_tableBody {s s' : Statement} (hR : ∀ u v, R u v → u.Alike v)
    (h : List.Forall₂ R s.lexemes s'.lexemes) :
    Option.Rel (SameThen R) (tableBody s).toOption (tableBody s').toOption := by
  have hhead := forall₂_dropIfNotExists hR
    (List.forall₂_drop 1 (forall₂_dropWhile_isWord hR tableModifiers (List.forall₂_drop 1 h)))
  have hname := rel_qualifiedName? hR hhead
  simp only [tableBody, dropModifiers]
  revert hname
  generalize qualifiedName? _ = found
  generalize qualifiedName? _ = found'
  rintro (@⟨⟨table, rest⟩, ⟨table', rest'⟩, hsame, hrest⟩ | _)
  · obtain rfl : table = table' := hsame
    simp only
    cases hrest with
    | nil => exact Option.Rel.none
    | @cons u v rest rest' hu hrest =>
      simp only [(hR _ _ hu).isOpening]
      split
      · have hclosing := Lexeme.rel_closing? hR hrest
        revert hclosing
        generalize Lexeme.closing? rest = found
        generalize Lexeme.closing? rest' = found'
        rintro (@⟨⟨body, _⟩, ⟨body', _⟩, hbody, -⟩ | _)
        · exact Option.Rel.some ⟨rfl, hbody⟩
        · exact Option.Rel.none
      · exact Option.Rel.none
  · exact Option.Rel.none

/-- A statement that is written at another place. -/
def Statement.Restated (view : View) (s s' : Statement) : Prop :=
  Script.Restated view s.source s'.source s.lexemes s'.lexemes

theorem draft?_restated {s s' : Statement} (h : s.Restated view s') :
    s.draft?.map (Draft.through view) = s'.draft?.map (Draft.through view) := by
  obtain ⟨R, hR, h⟩ := h
  have hbody := rel_tableBody hR.alike h
  simp only [Statement.draft?, isCreateTable_eq hR.alike h]
  split
  · revert hbody
    generalize (tableBody s).toOption = found
    generalize (tableBody s').toOption = found'
    rintro (@⟨⟨name, body⟩, ⟨name', body'⟩, hname, hbody⟩ | _)
    · obtain rfl : name = name' := hname
      have hclauses : List.Forall₂ (Script.Restated view s.source s'.source)
          (Lexeme.clauses body) (Lexeme.clauses body') :=
        (Lexeme.forall₂_clauses hR.alike hbody).imp fun _ _ hclause => ⟨R, hR, hclause⟩
      rw [Option.map_some, Option.map_some, Option.map_some, Option.map_some,
        ofClauses_restated hclauses name]
    · simp only [Option.map_none]
  · simp only [Option.map_none]

/-- Statements that are restated one by one have the same drafts. -/
theorem drafts_restated {found found' : List Statement}
    (h : List.Forall₂ (Statement.Restated view) found found') :
    (found.filterMap Statement.draft?).map (Draft.through view) =
      (found'.filterMap Statement.draft?).map (Draft.through view) := by
  rw [List.filterMap_eq_flatMap_toList, List.filterMap_eq_flatMap_toList]
  induction h with
  | nil => rfl
  | cons hs _ ih =>
    rw [List.flatMap_cons, List.flatMap_cons, List.map_append, List.map_append, ih,
      ← Option.toList_map, draft?_restated hs, Option.toList_map]

theorem drafts_restated_id {found found' : List Statement}
    (h : List.Forall₂ (Statement.Restated id) found found') :
    found.filterMap Statement.draft? = found'.filterMap Statement.draft? := by
  have hdrafts := drafts_restated h
  rwa [List.map_id'' Draft.through_id, List.map_id'' Draft.through_id] at hdrafts

theorem draftsOf_restated {found found' : List Statement}
    (h : List.Forall₂ (Statement.Restated view) found found') :
    (draftsOf found).map (Draft.through view) = (draftsOf found').map (Draft.through view) := by
  rw [draftsOf, draftsOf, map_through_foldl_addNew, map_through_foldl_addNew, drafts_restated h]

theorem draftsOf_restated_id {found found' : List Statement}
    (h : List.Forall₂ (Statement.Restated id) found found') : draftsOf found = draftsOf found' := by
  rw [draftsOf, draftsOf, drafts_restated_id h]

/-- Restated statements make up the same schema, as far as default values count. -/
theorem linked_restated {found found' : List Statement}
    (h : List.Forall₂ (Statement.Restated view) found found') :
    (linked (draftsOf found)).infer.through view =
      (linked (draftsOf found')).infer.through view := by
  rw [← Schema.infer_through, ← Schema.infer_through, ← linked_through, ← linked_through,
    draftsOf_restated h]

/-- The schemas of restated scripts agree, as far as default values count. -/
theorem schema_read_restated {tokenize tokenize' : Tokenizer} {text text' : List Char}
    (h : List.Forall₂ (Statement.Restated view) (statements tokenize (Response.script text)).1
      (statements tokenize' (Response.script text')).1) :
    (read tokenize text).schema.through view = (read tokenize' text').schema.through view := by
  rw [schema_read, schema_read, linked_restated h]

end Schemata.Script

namespace Schemata

/-- The schema without the texts of its default values. Whether a field has one is kept. -/
def Schema.withoutDefaultTexts (s : Schema) : Schema := s.through (Option.map fun _ => "")

namespace Script

/-- Scripts that are cut by their lexemes declare the same schema up to the texts of default values
if their lexemes read alike, wherever these stand. -/
theorem withoutDefaultTexts_read_of_alike {R : Lexeme → Lexeme → Prop}
    (hR : ∀ u v, R u v → u.Alike v) {tokenize : Tokenizer} {text text' : List Char}
    {us vs : List Lexeme} (hus : tokenize (Response.script text) = .ok us)
    (hvs : tokenize (Response.script text') = .ok vs) (h : List.Forall₂ R us vs)
    (hhide : hidesCreateTable (Response.script text) us = false)
    (hhide' : hidesCreateTable (Response.script text') vs = false) :
    (read tokenize text).schema.withoutDefaultTexts =
      (read tokenize text').schema.withoutDefaultTexts := by
  refine schema_read_restated ?_
  rw [statements_of_lexemes hus hhide, statements_of_lexemes hvs hhide',
    List.forall₂_map_left_iff, List.forall₂_map_right_iff]
  exact (Lexeme.forall₂_statements hR h).imp fun _ _ hstatement =>
    ⟨R, ⟨hR, fun _ _ _ _ _ _ => rfl⟩, hstatement⟩

end Script

end Schemata
