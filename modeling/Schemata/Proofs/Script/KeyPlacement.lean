import Mathlib.Tactic
import Schemata.Proofs.Response
import Schemata.Proofs.Script.KeyClauses
import Schemata.Proofs.Script.Restated

/-!
# Where a key is written

Writing a key behind the type of its column, or as a clause anywhere in the table body, makes no
difference: a script has the same tables and relationships either way. References come out in
another order, as those of the columns are read before those of the clauses.
-/
namespace Schemata.Script

open Lexeme Phrase

/-- A column of a table body, with a place behind its type and the clauses around it. -/
structure Site where
  before : List (List Lexeme)
  column : Lexeme
  type : Lexeme
  arguments : List Lexeme
  rest : List Lexeme
  after : List (List Lexeme)

namespace Site

/-- The clause of the column with a constraint at the place. -/
def clause (p : Site) (key : List Lexeme) : List Lexeme :=
  p.column :: p.type :: (p.arguments ++ (key ++ p.rest))

/-- The table body with a constraint at the place. -/
def clauses (p : Site) (key : List Lexeme) : List (List Lexeme) :=
  p.before ++ p.clause key :: p.after

/-- The clause is the one that declares a column of its name, with arguments that hold no
constraint, and a word or nothing follows the place. -/
structure Declares (source : List Char) (p : Site) : Prop where
  name : p.column.isName = true
  column : isTableConstraint (p.clause []) = false
  arguments : Solid startsTrait p.arguments
  rest : ∀ u ∈ p.rest.head?, u.kind = .word
  first : p.column.identifier ∉ (columnsOf source p.before).map Column.name

/-- The body without the constraint declares no reference of the column. -/
def Unreferenced (source : List Char) (table : String) (p : Site) : Prop :=
  p.column.identifier ∉
    (Draft.ofClauses source table (p.clauses [])).pending.map (·.field)

/-- The same column and clauses in another source. Text may only differ at the place itself. -/
structure Restated (source source' : List Char) (p p' : Site) : Prop where
  before : List.Forall₂ (Script.Restated id source source') p.before p'.before
  column : p.column.content = p'.column.content
  type : p.type.content = p'.type.content
  arguments : p.arguments.map content = p'.arguments.map content
  rest : Script.Restated id source source' p.rest p'.rest
  after : List.Forall₂ (Script.Restated id source source') p.after p'.after

/-! ## The clause of the column -/

section Clause

variable {source source' : List Char} {p p' : Site} {key : ColumnKey} {us : List Lexeme}

/-- Behind the type, only an opening parenthesis can tell a table constraint from a column. -/
theorem isTableConstraint_congr_rest (first second : Lexeme) {rest rest' : List Lexeme}
    (h : (rest.head?.map Lexeme.isOpening).getD false =
      (rest'.head?.map Lexeme.isOpening).getD false) :
    isTableConstraint (first :: second :: rest) = isTableConstraint (first :: second :: rest') := by
  simp only [isTableConstraint, pairIs, nextIs, List.head?_cons, h]

theorem head_word_of_inline (h : key.Inline us) : ∃ u vs, us = u :: vs ∧ u.kind = .word := by
  cases h with
  | primary hp => exact ⟨_, _, rfl, kind_of_isWord hp⟩
  | reference hr => exact ⟨_, _, rfl, kind_of_isWord hr⟩

/-- A constraint of a column does not turn its clause into a table constraint. -/
theorem Declares.column_inline (h : p.Declares source) (hkey : key.Inline us) :
    isTableConstraint (p.clause us) = false := by
  rw [← h.column]
  refine isTableConstraint_congr_rest p.column p.type ?_
  cases hargs : p.arguments with
  | cons a args => rfl
  | nil =>
    obtain ⟨u, vs, rfl, hu⟩ := head_word_of_inline hkey
    have hopen : u.isOpening = false := isPunct_of_word_kind hu "("
    have hrest : (p.rest.head?.map Lexeme.isOpening).getD false = false := by
      cases hhead : p.rest.head? with
      | none => rfl
      | some v => exact isPunct_of_word_kind (h.rest v hhead) "("
    simp only [List.nil_append, List.cons_append, List.head?_cons, Option.map_some,
      Option.getD_some, hopen, hrest]

theorem Restated.alike (h : p.Restated source source' p') :
    List.Forall₂ Lexeme.Alike (p.clause []) (p'.clause []) := by
  have harguments : List.Forall₂ Lexeme.Alike p.arguments p'.arguments :=
    (forall₂_content h.arguments).imp fun _ _ => alike_of_content
  obtain ⟨R, hR, hrest⟩ := h.rest
  refine List.Forall₂.cons (alike_of_content h.column)
    (List.Forall₂.cons (alike_of_content h.type) (List.rel_append harguments ?_))
  exact hrest.imp hR.alike

theorem Declares.column_restated (h : p.Declares source) (hr : p.Restated source source' p') :
    isTableConstraint (p'.clause []) = false := by
  rw [← isTableConstraint_eq (fun _ _ halike => halike) hr.alike]
  exact h.column

/-- The column of the clause, by the constraints of which `ts` are those behind the place. -/
def columnOf (p : Site) (ts : List Trait) : Column :=
  ⟨columnField p.column.identifier (typeText p.type) (ts.foldl ColumnTraits.add {}),
    (ts.foldl ColumnTraits.add {}).target⟩

/-- The column without a constraint at the place. -/
def plain (source : List Char) (p : Site) : Column := p.columnOf (traitsFrom source 0 p.rest)

theorem plain_name (source : List Char) (p : Site) :
    (p.plain source).name = p.column.identifier := by
  rw [Column.name, plain, columnOf, columnField_name]

theorem column?_clause (h : p.column.isName = true) (harguments : Solid startsTrait p.arguments)
    (us : List Lexeme) :
    column? source (p.clause us) = some (p.columnOf (traitsFrom source 0 (us ++ p.rest))) := by
  have htraits := traitsFrom_append source harguments (us ++ p.rest)
  rw [Nat.cast_zero] at htraits
  simp only [clause, column?, h, if_true, columnTraits_eq_foldl, htraits, columnOf]

theorem identifier_of_content {u v : Lexeme} (h : u.content = v.content) :
    u.identifier = v.identifier := by
  rw [Lexeme.identifier, Lexeme.identifier, (Prod.mk.inj h).2]

theorem columnOf_restated (hp : p.column.content = p'.column.content)
    (ht : p.type.content = p'.type.content) (ts : List Trait) : p.columnOf ts = p'.columnOf ts := by
  have htype : typeText p.type = typeText p'.type := by
    rw [typeText, typeText, (Prod.mk.inj ht).2, (alike_of_content ht).isName]
  rw [columnOf, columnOf, identifier_of_content hp, htype]

/-- The column without the constraint, as the other source has it. -/
theorem Declares.columnsOf_restated (h : p.Declares source) (hr : p.Restated source source' p') :
    columnsOf source' (p'.clauses []) = columnsOf source p.before ++
      p.plain source :: columnsOf source p.after := by
  have hname : p'.column.isName = true := by rw [← (alike_of_content hr.column).isName, h.name]
  have harguments : Solid startsTrait p'.arguments := by
    have hdepth : depthAfter? startsTrait 0 p.arguments = depthAfter? startsTrait 0 p'.arguments :=
      depthAfter?_alike (fun _ _ => alike_of_content)
        (fun _ _ hcontent => (alike_of_content hcontent).isWord _) 0 (forall₂_content hr.arguments)
    exact hdepth.symm.trans h.arguments
  obtain ⟨R, hR, hrest⟩ := hr.rest
  rw [clauses, columnsOf_append, ← List.singleton_append, columnsOf_append, columnsOf_singleton,
    h.column_restated hr, if_neg Bool.false_ne_true, column?_clause hname harguments,
    List.nil_append,
    ← columnsOf_restated_id hr.before, ← columnsOf_restated_id hr.after,
    ← traitsFrom_restated_id hR hrest, ← columnOf_restated hr.column hr.type]
  rfl

/-- The column with the constraint. -/
theorem Declares.columnsOf_inline (h : p.Declares source) (hkey : key.Inline us)
    (hopen : key ≠ .primary → (p.plain source).target = none) :
    columnsOf source (p.clauses us) =
      columnsOf source p.before ++ key.onto (p.plain source) :: columnsOf source p.after := by
  rw [clauses, columnsOf_append, ← List.singleton_append, columnsOf_append, columnsOf_singleton,
    h.column_inline hkey, if_neg Bool.false_ne_true, column?_clause h.name h.arguments,
    traitsFrom_inline source hkey h.rest, columnOf, column_of_key _ _ _ key hopen]
  rfl

theorem demandsOf_clauses (p : Site) (h : isTableConstraint (p.clause us) = false) :
    demandsOf (p.clauses us) = demandsOf p.before ++ demandsOf p.after := by
  rw [clauses, demandsOf_append, ← List.singleton_append, demandsOf_append, demandsOf_singleton, h,
    if_neg Bool.false_ne_true, List.nil_append]

end Clause

end Site

/-! ## The table body -/

section Body

variable {source source' : List Char} {p p' : Site} {key : ColumnKey} {us vs : List Lexeme}
  {left right : List (List Lexeme)} {table : String}

/-- A key clause among other clauses is one more demand among theirs. -/
theorem columnsOf_insert (source : List Char) (hclause : isTableConstraint vs = true) :
    columnsOf source (left ++ vs :: right) = columnsOf source (left ++ right) := by
  rw [← List.singleton_append, columnsOf_append, columnsOf_append, columnsOf_append,
    columnsOf_singleton, if_pos hclause, List.nil_append]

theorem demandsOf_insert (hclause : isTableConstraint vs = true) :
    demandsOf (left ++ vs :: right) = demandsOf left ++ demand vs :: demandsOf right := by
  rw [← List.singleton_append, demandsOf_append, demandsOf_append, demandsOf_singleton,
    if_pos hclause, List.singleton_append]

/-- The draft of the body with neither. -/
theorem quiet_plain (hp : p.Declares source) (hr : p.Restated source source' p')
    (hsplit : left ++ right = p'.clauses []) :
    (Draft.ofClauses source' table (p'.clauses [])).quiet =
      Draft.assemble table (columnsOf source p.before ++ p.plain source :: columnsOf source p.after)
        (demandsOf left ++ demandsOf right) := by
  rw [Draft.quiet_ofClauses, hp.columnsOf_restated hr, ← hsplit, demandsOf_append]

theorem quiet_clause (hp : p.Declares source) (hr : p.Restated source source' p')
    (hclause : key.Clause p.column.identifier vs) (hsplit : left ++ right = p'.clauses []) :
    (Draft.ofClauses source' table (left ++ vs :: right)).quiet =
      Draft.assemble table (columnsOf source p.before ++ p.plain source :: columnsOf source p.after)
        (demandsOf left ++ key.demand (p.plain source).name :: demandsOf right) := by
  rw [Draft.quiet_ofClauses, columnsOf_insert source' hclause.isTableConstraint, hsplit,
    hp.columnsOf_restated hr, demandsOf_insert hclause.isTableConstraint, hclause.demand,
    p.plain_name]

theorem quiet_inline (hp : p.Declares source) (hr : p.Restated source source' p')
    (hkey : key.Inline us) (hsplit : left ++ right = p'.clauses [])
    (hnone : key ≠ .primary → (p.plain source).target = none) :
    (Draft.ofClauses source table (p.clauses us)).quiet =
      Draft.assemble table
        (columnsOf source p.before ++ key.onto (p.plain source) :: columnsOf source p.after)
        (demandsOf left ++ demandsOf right) := by
  have hdemands : demandsOf p.before ++ demandsOf p.after = demandsOf left ++ demandsOf right := by
    rw [← demandsOf_append left right, hsplit, p'.demandsOf_clauses (hp.column_restated hr),
      demandsOf_restated hr.before, demandsOf_restated hr.after]
  rw [Draft.quiet_ofClauses, hp.columnsOf_inline hkey hnone,
    p.demandsOf_clauses (hp.column_inline hkey), hdemands]

/-- A key behind its column, and the same key in a clause anywhere in the body. -/
theorem reordered_ofClauses (hp : p.Declares source) (hr : p.Restated source source' p')
    (hkey : key.Inline us) (hclause : key.Clause p.column.identifier vs)
    (hsplit : left ++ right = p'.clauses [])
    (hopen : key ≠ .primary → p'.Unreferenced source' table) :
    (Draft.ofClauses source table (p.clauses us)).quiet.Reordered
        (Draft.ofClauses source' table (left ++ vs :: right)).quiet ∧
      (key = .primary → (Draft.ofClauses source table (p.clauses us)).quiet =
        (Draft.ofClauses source' table (left ++ vs :: right)).quiet) := by
  have hfirst : (p.plain source).name ∉ (columnsOf source p.before).map Column.name := by
    rw [p.plain_name]
    exact hp.first
  rw [Site.Unreferenced, ← Site.identifier_of_content hr.column, ← p.plain_name source,
    ← Draft.quiet_pending, quiet_plain hp hr hsplit] at hopen
  -- a column without a further reference has no reference
  have hnone : key ≠ .primary → (p.plain source).target = none := by
    intro hne
    cases htarget : (p.plain source).target with
    | none => rfl
    | some target =>
      exact absurd (Draft.mem_pending_assemble table hfirst htarget _ _) (hopen hne)
  rw [quiet_inline hp hr hkey hsplit hnone, quiet_clause hp hr hclause hsplit]
  generalize p.plain source = c at hfirst hopen ⊢
  cases key with
  | primary =>
    have hsame := Draft.assemble_asKey table hfirst (columnsOf source p.after) (demandsOf left)
      (demandsOf right)
    exact ⟨hsame ▸ Draft.Reordered.refl _, fun _ => hsame⟩
  | reference target =>
    have hopen' := hopen (by simp)
    exact ⟨Draft.reordered_assemble table hfirst _ _ _ target hopen', fun h => by cases h⟩

end Body

/-! ## Scripts -/

/-- A statement that creates a table with the given clauses. -/
def Statement.Creates (s : Statement) (table : String) (clauses : List (List Lexeme)) : Prop :=
  isCreateTable s.lexemes = true ∧
    ∃ body, tableBody s = .ok (table, body) ∧ Lexeme.clauses body = clauses

theorem Statement.Creates.draft? {s : Statement} {table : String} {clauses : List (List Lexeme)}
    (h : s.Creates table clauses) :
    s.draft? = some (Draft.ofClauses s.source table clauses).quiet := by
  obtain ⟨hcreate, body, hbody, rfl⟩ := h
  exact draft?_of_tableBody hcreate hbody

/-- Two scripts with the same statements but for one: there the key of a column is written behind
its type in one script and as a clause of the table body in the other. They declare the same tables
and the same relationships, for a reference up to their order. The column of a reference must have
no other one. -/
theorem read_key_placement {tokenize : Tokenizer} {text text' : List Char}
    {before before' after after' : List Statement} {s s' : Statement} {table : String}
    {p p' : Site} {key : ColumnKey} {us vs : List Lexeme} {left right : List (List Lexeme)}
    (hfound : (statements tokenize (Response.script text)).1 = before ++ s :: after)
    (hfound' : (statements tokenize (Response.script text')).1 = before' ++ s' :: after')
    (hbefore : List.Forall₂ (Statement.Restated id) before before')
    (hafter : List.Forall₂ (Statement.Restated id) after after')
    (hs : s.Creates table (p.clauses us)) (hs' : s'.Creates table (left ++ vs :: right))
    (hsplit : left ++ right = p'.clauses []) (hp : p.Declares s.source)
    (hr : p.Restated s.source s'.source p') (hkey : key.Inline us)
    (hclause : key.Clause p.column.identifier vs)
    (hopen : key ≠ .primary → p'.Unreferenced s'.source table) :
    (read tokenize text).schema.tables = (read tokenize text').schema.tables ∧
      (read tokenize text).schema.relationships.Perm (read tokenize text').schema.relationships ∧
      (key = .primary →
        (read tokenize text).schema.relationships =
          (read tokenize text').schema.relationships) := by
  obtain ⟨hreordered, hequal⟩ := reordered_ofClauses hp hr hkey hclause hsplit hopen
  have hdrafts : (before ++ s :: after).filterMap Statement.draft? =
      before'.filterMap Statement.draft? ++
        (Draft.ofClauses s.source table (p.clauses us)).quiet ::
          after'.filterMap Statement.draft? := by
    rw [List.filterMap_append, List.filterMap_cons_some hs.draft?, drafts_restated_id hbefore,
      drafts_restated_id hafter]
  have hdrafts' : (before' ++ s' :: after').filterMap Statement.draft? =
      before'.filterMap Statement.draft? ++
        (Draft.ofClauses s'.source table (left ++ vs :: right)).quiet ::
          after'.filterMap Statement.draft? := by
    rw [List.filterMap_append, List.filterMap_cons_some hs'.draft?]
  have hall : List.Forall₂ Draft.Reordered ((before ++ s :: after).filterMap Statement.draft?)
      ((before' ++ s' :: after').filterMap Statement.draft?) := by
    rw [hdrafts, hdrafts']
    have hrefl : ∀ ds : List Draft, List.Forall₂ Draft.Reordered ds ds := fun ds =>
      List.forall₂_same.mpr fun d _ => Draft.Reordered.refl d
    exact List.rel_append (hrefl _) (List.Forall₂.cons hreordered (hrefl _))
  obtain ⟨htables, hrelationships⟩ := schema_reordered hall
  rw [schema_read, schema_read, hfound, hfound']
  refine ⟨htables, hrelationships, fun hprimary => ?_⟩
  rw [draftsOf, draftsOf, hdrafts, hdrafts', hequal hprimary]

/-! ### A table that refers to itself -/

/-- A reference behind the type of its column. -/
def inlineScript : List Char := "CREATE TABLE t(x INT,b INT REFERENCES t(x))".toList

/-- The same reference, ahead of the columns. -/
def clauseScript : List Char :=
  "CREATE TABLE t(FOREIGN KEY(B)REFERENCES t(x),x INT,b INT)".toList

/-- Two columns from a place on, the second of which has the key. -/
def siteAt (k : ℕ) : Site where
  before := [[⟨"x", .word, k, k⟩, ⟨"INT", .word, k + 2, k + 4⟩]]
  column := ⟨"b", .word, k + 6, k + 6⟩
  type := ⟨"INT", .word, k + 8, k + 10⟩
  arguments := []
  rest := []
  after := []

/-- The reference from a place on. -/
def referenceAt (k : ℕ) : List Lexeme :=
  ⟨"REFERENCES", .word, k, k + 9⟩ :: ([⟨"t", .word, k + 11, k + 11⟩] ++
    [⟨"(", .punct, k + 12, k + 12⟩, ⟨"x", .word, k + 13, k + 13⟩, ⟨")", .punct, k + 14, k + 14⟩])

def foreignKey : List Lexeme :=
  [⟨"FOREIGN", .word, 15, 25⟩, ⟨"KEY", .word, 15, 25⟩, ⟨"(", .punct, 26, 26⟩,
    ⟨"B", .word, 27, 27⟩, ⟨")", .punct, 28, 28⟩] ++ referenceAt 29

def headLexemes : List Lexeme :=
  [⟨"CREATE", .word, 0, 5⟩, ⟨"TABLE", .word, 7, 11⟩, ⟨"t", .word, 13, 13⟩, ⟨"(", .punct, 14, 14⟩]

def inlineLexemes : List Lexeme :=
  headLexemes ++ (siteAt 15).before.flatten ++ [⟨",", .punct, 20, 20⟩] ++
    (siteAt 15).clause (referenceAt 27) ++ [⟨")", .punct, 42, 42⟩]

def clauseLexemes : List Lexeme :=
  headLexemes ++ foreignKey ++ [⟨",", .punct, 44, 44⟩] ++ (siteAt 45).before.flatten ++
    [⟨",", .punct, 50, 50⟩] ++ (siteAt 45).clause [] ++ [⟨")", .punct, 56, 56⟩]

theorem lexemes_inlineScript : Dialect.lexemes .postgresql inlineScript = .ok inlineLexemes := by
  decide +kernel

theorem lexemes_clauseScript : Dialect.lexemes .postgresql clauseScript = .ok clauseLexemes := by
  decide +kernel

/-- A script without strings whose lexemes are one statement. -/
theorem statements_of_one {tokenize : Tokenizer} {text : List Char} {us : List Lexeme}
    (h : tokenize text = .ok us) (hfence : '\x60' ∉ text) (hstring : ∀ u ∈ us, u.kind ≠ .string)
    (hone : Lexeme.statements us = [us]) :
    (statements tokenize (Response.script text)).1 = [] ++ ⟨us, text⟩ :: [] := by
  rw [Response.script_eq_self hfence,
    statements_of_lexemes h (hidesCreateTable_of_no_string text hstring), hone]
  rfl

theorem read_key_placement_reference :
    (read (Dialect.lexemes .postgresql) inlineScript).schema.tables =
        (read (Dialect.lexemes .postgresql) clauseScript).schema.tables ∧
      (read (Dialect.lexemes .postgresql) inlineScript).schema.relationships.Perm
        (read (Dialect.lexemes .postgresql) clauseScript).schema.relationships := by
  have hcreates : Statement.Creates ⟨inlineLexemes, inlineScript⟩ "t"
      ((siteAt 15).clauses (referenceAt 27)) :=
    ⟨by decide, (inlineLexemes.drop 4).take 10, rfl, by decide⟩
  have hcreates' : Statement.Creates ⟨clauseLexemes, clauseScript⟩ "t"
      ([] ++ foreignKey :: (siteAt 45).clauses []) :=
    ⟨by decide, (clauseLexemes.drop 4).take 16, rfl, by decide⟩
  have hdeclares : (siteAt 15).Declares inlineScript := by
    have hx : columnsOf inlineScript (siteAt 15).before = [⟨columnField "x" "INT" {}, none⟩] :=
      columnsOf_pair inlineScript (by decide) (by decide)
    constructor
    · decide
    · decide
    · rfl
    · decide
    · rw [hx]
      decide
  have hrestated : (siteAt 15).Restated inlineScript clauseScript (siteAt 45) := by
    constructor
    · exact .cons (restated_of_spans (by decide) (by decide)) .nil
    · rfl
    · rfl
    · rfl
    · exact restated_of_spans rfl (by decide)
    · exact .nil
  have hkey : (ColumnKey.reference ⟨"t", some "x"⟩).Inline (referenceAt 27) := by
    refine .reference (by decide) ?_
    exact .column (c := ⟨"x", .word, 40, 40⟩) (by decide) (by decide) (by decide) (by decide)
  have hclause : (ColumnKey.reference ⟨"t", some "x"⟩).Clause (siteAt 15).column.identifier
      foreignKey := by
    have htarget : SpellsTarget ⟨"t", some "x"⟩ ((referenceAt 29).drop 1) :=
      .column (c := ⟨"x", .word, 42, 42⟩) (by decide) (by decide) (by decide) (by decide)
    refine .bare (.reference ?_ ?_ ?_ ?_ ?_ ?_ ?_ htarget)
    all_goals decide
  have hopen : (siteAt 45).Unreferenced clauseScript "t" := by
    have hcolumns : columnsOf clauseScript ((siteAt 45).clauses []) =
        [⟨columnField "x" "INT" {}, none⟩] ++ [⟨columnField "b" "INT" {}, none⟩] := by
      rw [Site.clauses, columnsOf_append]
      exact congrArg₂ _ (columnsOf_pair clauseScript (by decide) (by decide))
        (columnsOf_pair clauseScript (by decide) (by decide))
    have hdemands : demandsOf ((siteAt 45).clauses []) = [] := by decide
    rw [Site.Unreferenced, ← Draft.quiet_pending, Draft.quiet_ofClauses, hcolumns, hdemands]
    decide
  have hfound := statements_of_one lexemes_inlineScript (by decide) (by decide) (by decide)
  have hfound' := statements_of_one lexemes_clauseScript (by decide) (by decide) (by decide)
  obtain ⟨htables, hrelationships, -⟩ := read_key_placement hfound hfound' .nil .nil hcreates
    hcreates' (List.nil_append _) hdeclares hrestated hkey hclause fun _ => hopen
  exact ⟨htables, hrelationships⟩

end Schemata.Script
