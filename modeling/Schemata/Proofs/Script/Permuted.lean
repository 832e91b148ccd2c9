import Mathlib.Tactic
import Schemata.Proofs.Script.Declared
import Schemata.Proofs.Script.Placed

/-!
# The order of statements

Statements that create tables of different names declare the same tables in any order: a reference
finds its table by name, before or behind the statement that it stands in. What is inferred depends
on the order only if a field name fits several tables.
-/
namespace Schemata.Script

/-! ## Drafts -/

theorem foldl_addNew_of_nodup {ds new : List Draft} (h : ((ds ++ new).map (·.name)).Nodup) :
    new.foldl addNew ds = ds ++ new := by
  induction new generalizing ds with
  | nil => simp
  | cons d new ih =>
    have hmiddle : ((ds ++ [d] ++ new).map (·.name)).Nodup := by simpa using h
    have hfresh : d.name ∉ ds.map (·.name) := by
      rw [List.map_append, List.nodup_append] at h
      exact fun hmem => h.2.2 d.name hmem d.name List.mem_cons_self rfl
    rw [List.foldl_cons, addNew_of_not_mem hfresh, ih hmiddle, List.append_assoc]
    rfl

/-- Where all names are different, every draft counts. -/
theorem draftsOf_of_nodup {found : List Statement}
    (h : ((found.filterMap Statement.draft?).map (·.name)).Nodup) :
    draftsOf found = found.filterMap Statement.draft? := by
  rw [draftsOf, foldl_addNew_of_nodup (by simpa using h), List.nil_append]

theorem resolve?_perm {tables tables' : List Table} (h : tables.Perm tables')
    (hnames : (tables.map (·.name)).Nodup) : resolve? tables = resolve? tables' := by
  funext target
  have hfind : tables.find? (·.name = target.table) = tables'.find? (·.name = target.table) := by
    refine List.find?_eq_find?_of_perm h ?_
    rintro t ⟨ht, hname⟩ u ⟨hu, hname'⟩
    exact List.inj_on_of_nodup_map hnames ht hu
      ((of_decide_eq_true hname).trans (of_decide_eq_true hname').symm)
  rw [resolve?, resolve?, hfind]

section Perm

variable {ds es : List Draft}

/-- Drafts in another order declare the same tables in that order, and the same relationships. -/
theorem linked_perm (h : ds.Perm es) (hnames : (ds.map (·.name)).Nodup) :
    (linked es).tables = es.map (fun d => d.pending.foldl (attach (ds.map Draft.table)) d.table) ∧
      (linked ds).relationships.Perm (linked es).relationships := by
  have hnames' : ((ds.map Draft.table).map (·.name)).Nodup := by
    rw [List.map_map]
    exact hnames
  have hresolve := resolve?_perm (h.map Draft.table) hnames'
  have hattach : attach (es.map Draft.table) = attach (ds.map Draft.table) := by
    funext t p
    rw [attach, attach, hresolve]
  have hedge : edge? (es.map Draft.table) = edge? (ds.map Draft.table) := by
    funext table p
    rw [edge?, edge?, hresolve]
  rw [linked, linked]
  simp only [hattach, hedge]
  exact ⟨trivial, h.flatMap_right _⟩

end Perm

/-! ## Statements -/

/-- Tables that stand as their statements do, in each of two orders. -/
def InOrderOf (found found' : List Statement) (ts ts' : List Table) : Prop :=
  ∃ table : Statement → Table, ts = found.map table ∧ ts' = found'.map table

theorem InOrderOf.perm {found found' : List Statement} {ts ts' : List Table}
    (h : InOrderOf found found' ts ts') (hperm : found.Perm found') : ts.Perm ts' := by
  obtain ⟨table, rfl, rfl⟩ := h
  exact hperm.map table

theorem InOrderOf.map {found found' : List Statement} {ts ts' : List Table}
    (h : InOrderOf found found' ts ts') (g : Table → Table) :
    InOrderOf found found' (ts.map g) (ts'.map g) := by
  obtain ⟨table, rfl, rfl⟩ := h
  exact ⟨g ∘ table, List.map_map, List.map_map⟩

theorem map_filterMap_draft? {found : List Statement} (h : ∀ s ∈ found, s.draft?.isSome = true)
    (g : Draft → Table) :
    (found.filterMap Statement.draft?).map g =
      found.map fun s => (s.draft?.map g).getD default := by
  induction found with
  | nil => rfl
  | cons s found ih =>
    obtain ⟨d, hd⟩ := Option.isSome_iff_exists.mp (h s List.mem_cons_self)
    rw [List.filterMap_cons_some hd, List.map_cons, List.map_cons, hd,
      ih fun s' hs' => h s' (List.mem_cons_of_mem s hs')]
    rfl

/-- Two scripts of the same statements in two orders, where every statement creates a table and no
two of them one of the same name, declare the same tables in the order of the statements. Inference
extends them. If every field name that ends in `_id` fits one table with a primary key at most, the
scripts agree in what is inferred as well, and in their relationships up to the order. -/
theorem read_permuted {tokenize tokenize' : Tokenizer} {text text' : List Char}
    {found : List Statement}
    (hperm : (statements tokenize (Response.script text)).1.Perm found)
    (hsame : List.Forall₂ (Statement.Restated id) found
      (statements tokenize' (Response.script text')).1)
    (htables : ∀ s ∈ found, s.draft?.isSome = true)
    (hnames : ((found.filterMap Statement.draft?).map (·.name)).Nodup) :
    InOrderOf (statements tokenize (Response.script text)).1 found
        (readDeclared tokenize text).schema.tables (readDeclared tokenize' text').schema.tables ∧
      List.Forall₂ Table.ExtendedBy (readDeclared tokenize text).schema.tables
        (read tokenize text).schema.tables ∧
      List.Forall₂ Table.ExtendedBy (readDeclared tokenize' text').schema.tables
        (read tokenize' text').schema.tables ∧
      ((read tokenize text).schema.Unambiguous →
        InOrderOf (statements tokenize (Response.script text)).1 found
            (read tokenize text).schema.tables (read tokenize' text').schema.tables ∧
          (read tokenize text).schema.relationships.Perm
            (read tokenize' text').schema.relationships) := by
  obtain ⟨first, hfirst⟩ : ∃ first, first = (statements tokenize (Response.script text)).1 :=
    ⟨_, rfl⟩
  rw [← hfirst] at hperm ⊢
  have hdrafts := hperm.filterMap Statement.draft?
  have hnames' : ((first.filterMap Statement.draft?).map (·.name)).Nodup :=
    (hdrafts.map _).nodup_iff.mpr hnames
  -- both declared schemas in terms of the drafts
  have hschema : (readDeclared tokenize text).schema =
      linked (first.filterMap Statement.draft?) := by
    rw [schema_readDeclared, ← hfirst, draftsOf_of_nodup hnames']
  have hschema' : (readDeclared tokenize' text').schema =
      linked (found.filterMap Statement.draft?) := by
    rw [schema_readDeclared, ← draftsOf_restated_id hsame, draftsOf_of_nodup hnames]
  obtain ⟨hlinked, hrelationships⟩ := linked_perm hdrafts hnames'
  have horder : InOrderOf first found (readDeclared tokenize text).schema.tables
      (readDeclared tokenize' text').schema.tables := by
    have hmap := map_filterMap_draft? (fun s hs => htables s (hperm.mem_iff.mp hs)) fun d =>
      d.pending.foldl (attach ((first.filterMap Statement.draft?).map Draft.table)) d.table
    have hmap' := map_filterMap_draft? htables fun d =>
      d.pending.foldl (attach ((first.filterMap Statement.draft?).map Draft.table)) d.table
    rw [InOrderOf, hschema, hschema', hlinked]
    exact ⟨_, hmap, hmap'⟩
  refine ⟨horder, extendedBy_read tokenize text, extendedBy_read tokenize' text', fun hu => ?_⟩
  rw [read_eq_infer] at hu
  rw [← hschema, ← hschema'] at hrelationships
  have hwell := readDeclared_wellFormed tokenize text
  have hwell' := readDeclared_wellFormed tokenize' text'
  obtain ⟨hinfer, hall⟩ := hwell.distinctNames.infer_of_perm hwell.consistent hwell'.consistent
    (horder.perm hperm) hrelationships hu.of_infer
  rw [read_eq_infer, read_eq_infer]
  refine ⟨?_, hall⟩
  rw [hinfer, hwell.distinctNames.tables_infer hwell.consistent]
  exact horder.map _

/-! ### Two statements in both orders -/

/-- A table that refers to the key of another one, and has a field that is named for it. -/
def memberText : List Char := "CREATE TABLE a(x INT REFERENCES b,b_id INT);".toList

def groupText : List Char := "CREATE TABLE b(k INT PRIMARY KEY);".toList

def memberLexemes : List Lexeme :=
  [⟨"CREATE", .word, 0, 5⟩, ⟨"TABLE", .word, 7, 11⟩, ⟨"a", .word, 13, 13⟩, ⟨"(", .punct, 14, 14⟩,
    ⟨"x", .word, 15, 15⟩, ⟨"INT", .word, 17, 19⟩, ⟨"REFERENCES", .word, 21, 30⟩,
    ⟨"b", .word, 32, 32⟩, ⟨",", .punct, 33, 33⟩, ⟨"b_id", .word, 34, 37⟩, ⟨"INT", .word, 39, 41⟩,
    ⟨")", .punct, 42, 42⟩]

def groupLexemes : List Lexeme :=
  [⟨"CREATE", .word, 0, 5⟩, ⟨"TABLE", .word, 7, 11⟩, ⟨"b", .word, 13, 13⟩, ⟨"(", .punct, 14, 14⟩,
    ⟨"k", .word, 15, 15⟩, ⟨"INT", .word, 17, 19⟩, ⟨"PRIMARY", .word, 21, 31⟩,
    ⟨"KEY", .word, 21, 31⟩, ⟨")", .punct, 32, 32⟩]

open Lexeme

/-! The statements of the two scripts -/

def memberAhead : Statement := ⟨memberLexemes, memberText ++ groupText⟩

def groupBehind : Statement := ⟨groupLexemes.map (moved 44), memberText ++ groupText⟩

def groupAhead : Statement := ⟨groupLexemes, groupText ++ memberText⟩

def memberBehind : Statement := ⟨memberLexemes.map (moved 34), groupText ++ memberText⟩

theorem statements_memberAhead :
    (statements (Dialect.lexemes .postgresql) (Response.script (memberText ++ groupText))).1 =
      [memberAhead, groupBehind] := by
  have hlexemes : Dialect.lexemes .postgresql (memberText ++ groupText) =
      .ok (memberLexemes ++ ⟨";", .punct, 43, 43⟩ ::
        (groupLexemes.map (moved 44) ++ [⟨";", .punct, 77, 77⟩])) := by decide +kernel
  have hstatements : Lexeme.statements (memberLexemes ++ ⟨";", .punct, 43, 43⟩ ::
      (groupLexemes.map (moved 44) ++ [⟨";", .punct, 77, 77⟩])) =
        [memberLexemes, groupLexemes.map (moved 44)] := by decide
  rw [Response.script_eq_self (by decide),
    statements_of_lexemes hlexemes (hidesCreateTable_of_no_string _ (by decide)), hstatements]
  rfl

theorem statements_groupAhead :
    (statements (Dialect.lexemes .postgresql) (Response.script (groupText ++ memberText))).1 =
      [groupAhead, memberBehind] := by
  have hlexemes : Dialect.lexemes .postgresql (groupText ++ memberText) =
      .ok (groupLexemes ++ ⟨";", .punct, 33, 33⟩ ::
        (memberLexemes.map (moved 34) ++ [⟨";", .punct, 77, 77⟩])) := by decide +kernel
  have hstatements : Lexeme.statements (groupLexemes ++ ⟨";", .punct, 33, 33⟩ ::
      (memberLexemes.map (moved 34) ++ [⟨";", .punct, 77, 77⟩])) =
        [groupLexemes, memberLexemes.map (moved 34)] := by decide
  rw [Response.script_eq_self (by decide),
    statements_of_lexemes hlexemes (hidesCreateTable_of_no_string _ (by decide)), hstatements]
  rfl

def memberDraft : Draft where
  name := "a"
  fields := [{ name := "x", type := "int8" }, { name := "b_id", type := "int8" }]
  pending := [⟨"x", ⟨"b", none⟩⟩]

def groupDraft : Draft where
  name := "b"
  fields := [{ name := "k", type := "int8", nullable := false, primaryKey := true }]

theorem draft?_member : Statement.draft? ⟨memberLexemes, memberText⟩ = some memberDraft := by
  have htable : tableBody ⟨memberLexemes, memberText⟩ = .ok ("a", (memberLexemes.drop 4).take 7) :=
    rfl
  have hclauses : Lexeme.clauses ((memberLexemes.drop 4).take 7) =
      [(memberLexemes.drop 4).take 4] ++ [(memberLexemes.drop 9).take 2] := by decide
  have hreference : Phrase.reference [⟨"b", .word, 32, 32⟩] = (.ok ⟨"b", none⟩, []) := rfl
  have htraits : columnTraits memberText 0 {} [⟨"REFERENCES", .word, 21, 30⟩,
      ⟨"b", .word, 32, 32⟩] = { target := some ⟨"b", none⟩ } := by
    rw [columnTraits, hreference, columnTraits]
    rfl
  have hcolumn : column? memberText ((memberLexemes.drop 4).take 4) =
      some ⟨{ name := "x", type := "int8" }, some ⟨"b", none⟩⟩ := by
    simp only [memberLexemes, List.drop_succ_cons, List.drop_zero, List.take_succ_cons,
      List.take_zero, column?, htraits]
    decide
  have hcolumn' : columnsOf memberText [(memberLexemes.drop 9).take 2] =
      [⟨columnField "b_id" "INT" {}, none⟩] := columnsOf_pair memberText (by decide) (by decide)
  have hdemands : demandsOf (Lexeme.clauses ((memberLexemes.drop 4).take 7)) = [] := by decide
  rw [draft?_of_tableBody (by decide) htable, Draft.quiet_ofClauses, hdemands, hclauses,
    columnsOf_append, columnsOf_singleton, hcolumn, hcolumn']
  decide

theorem draft?_group : Statement.draft? ⟨groupLexemes, groupText⟩ = some groupDraft := by
  have htable : tableBody ⟨groupLexemes, groupText⟩ = .ok ("b", (groupLexemes.drop 4).take 4) := rfl
  have hclauses : Lexeme.clauses ((groupLexemes.drop 4).take 4) =
      [(groupLexemes.drop 4).take 4] := by
    decide
  have hcolumn : column? groupText ((groupLexemes.drop 4).take 4) =
      some ⟨{ name := "k", type := "int8", nullable := false, primaryKey := true }, none⟩ := by
    simp only [groupLexemes, List.drop_succ_cons, List.drop_zero, List.take_succ_cons,
      List.take_zero, column?, columnTraits]
    decide
  rw [draft?_of_tableBody (by decide) htable, Draft.quiet_ofClauses, hclauses, columnsOf_singleton,
    hcolumn, demandsOf_singleton]
  decide

/-- The drafts of both statements, whatever stands around them. -/
theorem drafts_memberAhead :
    [memberAhead, groupBehind].filterMap Statement.draft? = [memberDraft, groupDraft] := by
  have hfirst : Statement.Restated id ⟨memberLexemes, memberText⟩ memberAhead :=
    restated_before (by decide) groupText
  have hsecond : Statement.Restated id ⟨groupLexemes, groupText⟩ groupBehind :=
    restated_behind memberText groupText groupLexemes
  rw [← drafts_restated_id (.cons hfirst (.cons hsecond .nil)),
    List.filterMap_cons_some draft?_member, List.filterMap_cons_some draft?_group]
  rfl

theorem unambiguous_memberAhead :
    (read (Dialect.lexemes .postgresql) (memberText ++ groupText)).schema.Unambiguous := by
  have hcandidates : Schema.candidatesOf (linked [memberDraft, groupDraft]).tables =
      [⟨"b", "k"⟩] := by decide
  rw [schema_read, statements_memberAhead, draftsOf, drafts_memberAhead]
  intro t _ f _ stem _ c hc _ c' hc' _
  have hone : c ∈ Schema.candidatesOf (linked [memberDraft, groupDraft]).infer.tables := hc
  have hone' : c' ∈ Schema.candidatesOf (linked [memberDraft, groupDraft]).infer.tables := hc'
  rw [Schema.candidatesOf_infer, hcandidates, List.mem_singleton] at hone hone'
  rw [hone, hone']

/-- Whichever statement comes first, the same fields refer to the key of the other table. -/
theorem read_permuted_member :
    InOrderOf [memberAhead, groupBehind] [groupBehind, memberAhead]
        (read (Dialect.lexemes .postgresql) (memberText ++ groupText)).schema.tables
        (read (Dialect.lexemes .postgresql) (groupText ++ memberText)).schema.tables ∧
      (read (Dialect.lexemes .postgresql) (memberText ++ groupText)).schema.relationships.Perm
        (read (Dialect.lexemes .postgresql) (groupText ++ memberText)).schema.relationships := by
  have hperm : [memberAhead, groupBehind].Perm [groupBehind, memberAhead] := List.Perm.swap ..
  have hmember : memberAhead.Restated id memberBehind := restated_of_spans rfl (by decide)
  have hgroup : groupBehind.Restated id groupAhead := restated_of_spans rfl (by decide)
  have hnames : (([groupBehind, memberAhead].filterMap Statement.draft?).map (·.name)).Nodup := by
    rw [← ((hperm.filterMap _).map _).nodup_iff, drafts_memberAhead]
    decide
  have hfirst := statements_memberAhead
  have hsecond := statements_groupAhead
  have hsame : List.Forall₂ (Statement.Restated id) [groupBehind, memberAhead]
      (statements (Dialect.lexemes .postgresql) (Response.script (groupText ++ memberText))).1 := by
    rw [hsecond]
    exact .cons hgroup (.cons hmember .nil)
  obtain ⟨-, -, -, hagree⟩ := read_permuted (hfirst ▸ hperm) hsame (by decide) hnames
  rw [hfirst] at hagree
  exact hagree unambiguous_memberAhead

end Schemata.Script
