import Mathlib.Data.List.Forall2
import Mathlib.Tactic
import Schemata.Proofs.Schema.Extended
import Schemata.Proofs.Script.Placed
import Schemata.Proofs.Script.References

/-!
# Scripts that go on

Statements behind a script whose references are all resolved only add to its schema: the tables of
the script come first, with their references, and its relationships stay in their order. A field
without a reference may be linked to a table that is declared later.
-/
namespace Schemata.Script

/-! ## Drafts with more drafts behind them -/

theorem resolve?_append_of_some {tables : List Table} {target : Phrase.Target} {r : Reference}
    (h : resolve? tables target = some r) (more : List Table) :
    resolve? (tables ++ more) target = some r := by
  rw [resolve?] at h ⊢
  cases hcolumn : target.column with
  | some column =>
    rw [hcolumn] at h
    exact h
  | none =>
    rw [hcolumn] at h
    obtain ⟨key, hkey, hr⟩ := Option.map_eq_some_iff.mp h
    obtain ⟨t, ht, hkey⟩ := Option.bind_eq_some_iff.mp hkey
    simp only [List.find?_append, ht, Option.some_or, Option.bind_some, hkey, Option.map_some, hr]

section Append

variable {ds : List Draft}
  (h : ∀ d ∈ ds, ∀ p ∈ d.pending, ∃ r, resolve? (ds.map Draft.table) p.target = some r)
  (more : List Draft)
include h

theorem resolve?_more {d : Draft} (hd : d ∈ ds) {p : Pending} (hp : p ∈ d.pending) :
    resolve? ((ds ++ more).map Draft.table) p.target = resolve? (ds.map Draft.table) p.target := by
  obtain ⟨r, hr⟩ := h d hd p hp
  rw [List.map_append, resolve?_append_of_some hr, hr]

/-- Resolved references stay as they are. -/
theorem linked_append :
    (∃ ts, (linked (ds ++ more)).tables = (linked ds).tables ++ ts) ∧
      ∃ rs, (linked (ds ++ more)).relationships = (linked ds).relationships ++ rs := by
  constructor
  · refine ⟨_, List.map_append.trans (congrArg (· ++ _) (List.map_congr_left fun d hd => ?_))⟩
    refine List.foldl_ext _ _ _ fun t p hp => ?_
    rw [attach, attach, resolve?_more h more hd hp]
  · refine ⟨_, List.flatMap_append.trans (congrArg (· ++ _) (List.flatMap_congr fun d hd => ?_))⟩
    refine List.filterMap_congr fun p hp => ?_
    rw [edge?, edge?, resolve?_more h more hd hp]

end Append

/-! ## Scripts -/

/-- The references of a text without an open one are resolved. -/
theorem resolved_of_issues {tokenize : Tokenizer} {text : List Char}
    (h : ∀ issue ∈ (read tokenize text).issues, issue.code ≠ .unresolvedReference) :
    ∀ d ∈ draftsOf (statements tokenize (Response.script text)).1, ∀ p ∈ d.pending, ∃ r,
      resolve? ((draftsOf (statements tokenize (Response.script text)).1).map Draft.table)
        p.target = some r := by
  rw [draftsOf_statements, resolve?_drafts]
  intro d hd p hp
  obtain ⟨e, he, rfl⟩ := List.mem_map.mp hd
  rw [e.pending_draft] at hp
  refine Option.ne_none_iff_exists'.mp fun hopen => ?_
  exact h _ (mem_issues_read tokenize text he hp hopen) rfl

/-- A text whose statements are those of another one, with more statements behind them, extends its
schema: the tables of the other text come first, each with the same fields, of which some may have
new references, and the relationships of the other text stand among its own in the same order. The
other text must leave no reference open. -/
theorem read_extended {tokenize tokenize' : Tokenizer} {text text' : List Char}
    {found more : List Statement}
    (hfound : List.Forall₂ (Statement.Restated id) (statements tokenize (Response.script text)).1
      found)
    (hmore : (statements tokenize' (Response.script text')).1 = found ++ more)
    (hresolved : ∀ issue ∈ (read tokenize text).issues, issue.code ≠ .unresolvedReference) :
    (∃ old new, (read tokenize' text').schema.tables = old ++ new ∧
        List.Forall₂ Table.ExtendedBy (read tokenize text).schema.tables old) ∧
      (read tokenize text).schema.relationships.Sublist
        (read tokenize' text').schema.relationships := by
  have hall := resolved_of_issues hresolved
  have hwell := readDeclared_wellFormed tokenize text
  have hwell' := readDeclared_wellFormed tokenize' text'
  rw [read_eq_infer, read_eq_infer]
  rw [schema_readDeclared] at hwell hwell'
  rw [hmore, draftsOf_append, ← draftsOf_restated_id hfound] at hwell'
  obtain ⟨⟨ts, htables⟩, rs, hrelationships⟩ := linked_append hall _
  have hextended := hwell.infer_extended hwell' htables hrelationships
  simp only [schema_readDeclared]
  rwa [hmore, draftsOf_append, ← draftsOf_restated_id hfound]

/-! ### A field that is linked later -/

/-- A table that refers to itself, with a field that is named for another table. -/
def orderText : List Char := "CREATE TABLE a(x INT REFERENCES a(x),b_id INT);".toList

def keyedText : List Char := "CREATE TABLE b(k INT PRIMARY KEY);".toList

def orderLexemes : List Lexeme :=
  [⟨"CREATE", .word, 0, 5⟩, ⟨"TABLE", .word, 7, 11⟩, ⟨"a", .word, 13, 13⟩, ⟨"(", .punct, 14, 14⟩,
    ⟨"x", .word, 15, 15⟩, ⟨"INT", .word, 17, 19⟩, ⟨"REFERENCES", .word, 21, 30⟩,
    ⟨"a", .word, 32, 32⟩, ⟨"(", .punct, 33, 33⟩, ⟨"x", .word, 34, 34⟩, ⟨")", .punct, 35, 35⟩,
    ⟨",", .punct, 36, 36⟩, ⟨"b_id", .word, 37, 40⟩, ⟨"INT", .word, 42, 44⟩, ⟨")", .punct, 45, 45⟩]

def keyedLexemes : List Lexeme :=
  [⟨"CREATE", .word, 0, 5⟩, ⟨"TABLE", .word, 7, 11⟩, ⟨"b", .word, 13, 13⟩, ⟨"(", .punct, 14, 14⟩,
    ⟨"k", .word, 15, 15⟩, ⟨"INT", .word, 17, 19⟩, ⟨"PRIMARY", .word, 21, 31⟩,
    ⟨"KEY", .word, 21, 31⟩, ⟨")", .punct, 32, 32⟩]

def orderDraft : Draft where
  name := "a"
  fields := [{ name := "x", type := "int8" }, { name := "b_id", type := "int8" }]
  pending := [⟨"x", ⟨"a", some "x"⟩⟩]

theorem ofClauses_order :
    Draft.ofClauses orderText "a" [(orderLexemes.drop 4).take 7, (orderLexemes.drop 12).take 2] =
      orderDraft := by
  have hreference : Phrase.reference ((orderLexemes.drop 7).take 4) = (.ok ⟨"a", some "x"⟩, []) :=
    rfl
  have hnone : columnTraits orderText 0 {} [] = {} := by rw [columnTraits]
  have htraits : columnTraits orderText 0 {} (⟨"REFERENCES", .word, 21, 30⟩ ::
      (orderLexemes.drop 7).take 4) = { target := some ⟨"a", some "x"⟩ } := by
    rw [columnTraits, hreference, columnTraits]
    rfl
  have hcolumns : [(orderLexemes.drop 4).take 7, (orderLexemes.drop 12).take 2].filter
      (!isTableConstraint ·) = [(orderLexemes.drop 4).take 7, (orderLexemes.drop 12).take 2] := by
    decide
  have hconstraints : [(orderLexemes.drop 4).take 7, (orderLexemes.drop 12).take 2].filter
      isTableConstraint = [] := by decide
  rw [Draft.ofClauses, hcolumns, hconstraints]
  simp only [orderLexemes, List.drop_succ_cons, List.drop_zero, List.take_succ_cons,
    List.take_zero, List.foldl_cons, List.foldl_nil, Draft.addColumn] at htraits ⊢
  rw [htraits, hnone]
  decide

theorem add_order : Progress.add {} ⟨orderLexemes, orderText⟩ = { drafts := [orderDraft] } := by
  have htable : tableBody ⟨orderLexemes, orderText⟩ =
      .ok ("a", (orderLexemes.drop 4).take 10) := rfl
  have hclauses : Lexeme.clauses ((orderLexemes.drop 4).take 10) =
      [(orderLexemes.drop 4).take 7, (orderLexemes.drop 12).take 2] := by decide
  rw [Progress.add, if_pos (by decide), htable]
  simp only [hclauses, ofClauses_order]
  rfl

theorem statements_orderText :
    statements (Dialect.lexemes .postgresql) orderText = ([⟨orderLexemes, orderText⟩], []) := by
  have hlexemes : Dialect.lexemes .postgresql orderText =
      .ok (orderLexemes ++ [⟨";", .punct, 46, 46⟩]) := by decide +kernel
  have hstatements : Lexeme.statements (orderLexemes ++ [⟨";", .punct, 46, 46⟩]) =
      [orderLexemes] := by decide
  rw [statements_of_lexemes hlexemes (hidesCreateTable_of_no_string _ (by decide)), hstatements]
  rfl

theorem statements_orderText_keyedText :
    statements (Dialect.lexemes .postgresql) (orderText ++ keyedText) =
      ([⟨orderLexemes, orderText ++ keyedText⟩,
        ⟨keyedLexemes.map (Lexeme.moved 47), orderText ++ keyedText⟩], []) := by
  have hlexemes : Dialect.lexemes .postgresql (orderText ++ keyedText) =
      .ok (orderLexemes ++ ⟨";", .punct, 46, 46⟩ ::
        (keyedLexemes.map (Lexeme.moved 47) ++ [⟨";", .punct, 80, 80⟩])) := by decide +kernel
  have hstatements : Lexeme.statements (orderLexemes ++ ⟨";", .punct, 46, 46⟩ ::
      (keyedLexemes.map (Lexeme.moved 47) ++ [⟨";", .punct, 80, 80⟩])) =
        [orderLexemes, keyedLexemes.map (Lexeme.moved 47)] := by decide
  rw [statements_of_lexemes hlexemes (hidesCreateTable_of_no_string _ (by decide)), hstatements]
  rfl

/-- The field `b_id` of the first table waits for the second one. -/
theorem read_extended_order :
    (∃ old new, (read (Dialect.lexemes .postgresql) (orderText ++ keyedText)).schema.tables =
          old ++ new ∧
        List.Forall₂ Table.ExtendedBy
          (read (Dialect.lexemes .postgresql) orderText).schema.tables old) ∧
      (read (Dialect.lexemes .postgresql) orderText).schema.relationships.Sublist
        (read (Dialect.lexemes .postgresql) (orderText ++ keyedText)).schema.relationships := by
  have hfirst := statements_orderText
  have hboth := statements_orderText_keyedText
  have hscript : Response.script orderText = orderText := Response.script_eq_self (by decide)
  have hscript' : Response.script (orderText ++ keyedText) = orderText ++ keyedText :=
    Response.script_eq_self (by decide)
  have hissues : (read (Dialect.lexemes .postgresql) orderText).issues = [] := by
    simp only [read, readScript, hscript, hfirst, List.foldl_cons, List.foldl_nil, add_order]
    decide
  have hfound : List.Forall₂ (Statement.Restated id)
      (statements (Dialect.lexemes .postgresql) (Response.script orderText)).1
      [⟨orderLexemes, orderText ++ keyedText⟩] := by
    rw [hscript, hfirst]
    exact .cons (restated_before (by decide) keyedText) .nil
  have hmore : (statements (Dialect.lexemes .postgresql)
      (Response.script (orderText ++ keyedText))).1 = [⟨orderLexemes, orderText ++ keyedText⟩] ++
        [⟨keyedLexemes.map (Lexeme.moved 47), orderText ++ keyedText⟩] := by
    rw [hscript', hboth]
    rfl
  refine read_extended hfound hmore ?_
  rw [hissues]
  exact fun _ h => absurd h List.not_mem_nil

end Schemata.Script
