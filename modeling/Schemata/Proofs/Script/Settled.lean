import Mathlib.Data.List.Basic
import Mathlib.Tactic
import Schemata.Proofs.Script.Accounted
import Schemata.Proofs.Script.Reached

/-!
# References that are kept or reported

A reference of a table that is kept becomes a relationship of its column, or the report has an issue
for the table. The one exception are references of one column clause: of those that can be read, the
last one takes the place of the others, and nothing tells that they were there.
-/
namespace Schemata.Script

open Lexeme Phrase

/-! ## What a report says of a reference -/

/-- A relationship leads from a column to the table whose name comes next. -/
def Relates (s : Schema) (table column : String) (us : List Lexeme) : Prop :=
  ∃ r ∈ s.relationships, r.fromTable = table ∧ r.fromField = column ∧
    (qualifiedName? us).map Prod.fst = some r.toTable

/-- The report has an issue for a table. -/
def Report.Mentions (report : Report) (table : String) : Prop :=
  ∃ issue ∈ report.issues, issue.table? = some table

theorem table_of_resolve? {tables : List Table} {target : Target} {r : Reference}
    (h : resolve? tables target = some r) : r.table = target.table := by
  rw [resolve?] at h
  split at h
  · cases h
    rfl
  · obtain ⟨_, _, rfl⟩ := Option.map_eq_some_iff.mp h
    rfl

/-- The table of a reference that can be read is the one whose name comes next. -/
theorem table_of_reference {us : List Lexeme} {target : Target}
    (h : (reference us).1 = .ok target) :
    (qualifiedName? us).map Prod.fst = some target.table := by
  rw [reference] at h
  cases hname : qualifiedName? us with
  | none =>
    rw [hname] at h
    cases h
  | some found =>
    obtain ⟨table, rest⟩ := found
    simp only [hname] at h
    repeat' split at h
    all_goals cases h
    all_goals rfl

section Report

variable {tokenize : Tokenizer} {text : List Char} {before after : List Statement} {s : Statement}
  {table : String} {clauses : List (List Lexeme)}
  (hfound : (statements tokenize (Response.script text)).1 = before ++ s :: after)
  (hs : s.Creates table clauses) (hnew : table ∉ (draftsOf before).map (·.name))
include hfound hs hnew

/-- The issues of a table that is kept are reported. -/
theorem mentions_of_mem {issue : Issue}
    (hissue : issue ∈ (Draft.ofClauses s.source table clauses).issues)
    (htable : issue.table? = some table) : (read tokenize text).Mentions table := by
  refine ⟨issue, ?_, htable⟩
  rw [issues_read, hfound, issuesFrom_split, issuesBehind_of_creates hs hnew]
  simp [hissue]

theorem mem_draftsOf_of_creates : (Draft.ofClauses s.source table clauses).quiet ∈
    draftsOf (statements tokenize (Response.script text)).1 := by
  have hname : (Draft.ofClauses s.source table clauses).quiet.name ∉
      (draftsOf before).map (·.name) := by
    rwa [Draft.quiet_name, Draft.ofClauses_name]
  rw [hfound, draftsOf_split, draftsOf_snoc, hs.draft?, Option.toList_some, List.foldl_cons,
    List.foldl_nil, addNew_of_not_mem hname, foldl_addNew]
  simp

/-- A reference that a table waits for becomes a relationship or is reported. -/
theorem relates_or_mentions {p : Pending}
    (hp : p ∈ (Draft.ofClauses s.source table clauses).pending) {us : List Lexeme}
    (hus : (qualifiedName? us).map Prod.fst = some p.target.table) :
    Relates (read tokenize text).schema table p.field us ∨ (read tokenize text).Mentions table := by
  have hdraft := mem_draftsOf_of_creates hfound hs hnew
  have hname : (Draft.ofClauses s.source table clauses).quiet.name = table := by
    rw [Draft.quiet_name, Draft.ofClauses_name]
  generalize hds : draftsOf (statements tokenize (Response.script text)).1 = ds at hdraft
  cases hr : resolve? (ds.map Draft.table) p.target with
  | some r =>
    refine Or.inl ⟨r.relationship table p.field, ?_, rfl, rfl, ?_⟩
    · rw [schema_read, hds]
      refine List.mem_append_left _ (List.mem_flatMap.mpr ⟨_, hdraft, List.mem_filterMap.mpr ?_⟩)
      exact ⟨p, hp, by rw [edge?, hr, hname]; rfl⟩
    · rw [hus, ← table_of_resolve? hr]
      rfl
  | none =>
    refine Or.inr ⟨.unresolvedReference table p.field p.target.table, ?_, rfl⟩
    rw [issues_read, hds]
    refine List.mem_append_right _ (List.mem_flatMap.mpr ⟨_, hdraft, List.mem_filterMap.mpr ?_⟩)
    exact ⟨p, hp, by rw [openIssue?, if_pos hr, hname]⟩

end Report

/-! ## References of columns -/

/-- A reference in the clause of a column, with what stands around it behind the type. -/
structure InlineReference where
  column : Lexeme
  type : Lexeme
  before : List Lexeme
  keyword : Lexeme
  after : List Lexeme

namespace InlineReference

def clause (m : InlineReference) : List Lexeme :=
  m.column :: m.type :: (m.before ++ m.keyword :: m.after)

/-- The keyword stands outside parentheses, and not where it belongs to another phrase. -/
structure Occurs (m : InlineReference) : Prop where
  keyword : m.keyword.isWord ["REFERENCES"] = true
  outside : Lexeme.Balanced (m.type :: m.before)
  free : ∀ u ∈ m.before.getLast?, takesNext u = false

/-- A later reference of the same column can be read. -/
def Superseded (m : InlineReference) : Prop :=
  ∃ us keyword vs target, m.after = us ++ keyword :: vs ∧
    keyword.isWord ["REFERENCES"] = true ∧ (reference vs).1 = .ok target

end InlineReference

/-- The fault of a reference that cannot be read. -/
def Trait.fault? : Trait → Option ReferenceFault
  | .reference (.error fault) => some fault
  | _ => none

namespace ColumnTraits

theorem faults_foldl (ts : List Trait) (traits : ColumnTraits) :
    (ts.foldl add traits).faults = traits.faults ++ ts.filterMap Trait.fault? := by
  induction ts generalizing traits with
  | nil => exact (List.append_nil _).symm
  | cons t ts ih =>
    rw [List.foldl_cons, ih]
    cases t with
    | reference outcome =>
      cases outcome with
      | ok target => rfl
      | error fault => simp [add, addReference, Trait.fault?]
    | _ => rfl

/-- Without a reference that can be read the target stays as it is. -/
theorem target_foldl {ts : List Trait} (h : ∀ target, Trait.reference (.ok target) ∉ ts)
    (traits : ColumnTraits) : (ts.foldl add traits).target = traits.target := by
  induction ts generalizing traits with
  | nil => rfl
  | cons t ts ih =>
    rw [List.foldl_cons, ih fun target hmem => h target (List.mem_cons_of_mem t hmem)]
    cases t with
    | reference outcome =>
      cases outcome with
      | ok target => exact absurd List.mem_cons_self (h target)
      | error fault => rfl
    | _ => rfl

end ColumnTraits

/-- A reference that occurs cannot be read, or it is the target of its column, or a later one can be
read. -/
theorem InlineReference.Occurs.traits {m : InlineReference} (h : m.Occurs) (source : List Char) :
    let traits := columnTraits source 0 {} (m.before ++ m.keyword :: m.after)
    (∃ fault ∈ traits.faults, (reference m.after).1 = .error fault) ∨
      (∃ target, traits.target = some target ∧ (reference m.after).1 = .ok target) ∨
        m.Superseded := by
  have hclosed : ∃ nesting : ℕ, (0 : ℤ) ≤ nesting ∧
      depthAfter? (fun _ => false) nesting m.before = some 0 := by
    have hall := h.outside
    rw [Lexeme.Balanced, Solid, ← List.singleton_append, depthAfter?_append] at hall
    obtain ⟨nesting, -, hbefore⟩ := Option.bind_eq_some_iff.mp hall
    exact ⟨nesting, by omega, hbefore⟩
  obtain ⟨ts, depth, htraits⟩ :=
    traitsFrom_reaches h.keyword m.after source hclosed h.free
  simp only [columnTraits_eq_foldl, htraits]
  cases hout : (reference m.after).1 with
  | error fault =>
    refine Or.inl ⟨fault, ?_, rfl⟩
    rw [ColumnTraits.faults_foldl]
    simp [Trait.fault?]
  | ok target =>
    by_cases hlater : ∃ target', Trait.reference (.ok target') ∈
        traitsFrom source depth (reference m.after).2
    · obtain ⟨target', hmem⟩ := hlater
      obtain ⟨us, keyword, vs, hrest, hkeyword, htarget⟩ := exists_keyword_of_mem _ _ _ hmem
      obtain ⟨front, hfront⟩ := reference_suffix m.after
      refine Or.inr (Or.inr ⟨front ++ us, keyword, vs, target', ?_, hkeyword, htarget⟩)
      rw [← hfront, hrest, List.append_assoc]
    · refine Or.inr (Or.inl ⟨target, ?_, rfl⟩)
      rw [List.foldl_append, List.foldl_cons,
        ColumnTraits.target_foldl fun target' hmem => hlater ⟨target', hmem⟩]
      rfl

/-! ## References of tables -/

/-- A reference in a `FOREIGN KEY` clause, with what stands around it behind these words. -/
structure TableReference where
  clause : List Lexeme
  before : List Lexeme
  keyword : Lexeme
  after : List Lexeme

namespace TableReference

/-- The columns of the clause. -/
def columns (m : TableReference) : List String :=
  (nameList (m.before ++ m.keyword :: m.after)).1

/-- The keyword is the first one of its kind outside parentheses. -/
structure Occurs (m : TableReference) : Prop where
  key : pairIs "FOREIGN" "KEY" (Draft.unnamed m.clause) = true
  clause : (Draft.unnamed m.clause).drop 2 = m.before ++ m.keyword :: m.after
  keyword : m.keyword.isWord ["REFERENCES"] = true
  first : Solid (·.isWord ["REFERENCES"]) m.before

namespace Occurs

variable {m : TableReference} (h : m.Occurs)
include h

theorem isTableConstraint : isTableConstraint m.clause = true := by
  have hkey := h.key
  rcases hclause : m.clause with _ | ⟨u, us⟩
  · rw [hclause] at hkey
    cases hkey
  rw [hclause, Draft.unnamed] at hkey
  simp only [Script.isTableConstraint]
  split at hkey
  · next hname =>
    have hsub : u.isWord ["CONSTRAINT", "EXCLUDE", "FULLTEXT", "SPATIAL"] = true :=
      isWord_of_subset hname (by simp)
    rw [if_pos hsub]
  · split
    · rfl
    · rw [hkey, Bool.or_true, if_pos rfl]

/-- Behind the columns stands the keyword, or nothing that refers to a table. -/
theorem nameList_rest : ∃ vs, Solid (·.isWord ["REFERENCES"]) vs ∧
    (nameList (m.before ++ m.keyword :: m.after)).2 = vs ++ m.keyword :: m.after := by
  have hfirst := h.first
  rcases hbefore : m.before with _ | ⟨u, us⟩
  · refine ⟨[], rfl, ?_⟩
    simp [nameList, isOpening_keyword h.keyword]
  rw [hbefore, Solid, depthAfter?] at hfirst
  rw [List.cons_append, nameList]
  split
  · next hu =>
    rw [if_pos hu] at hfirst
    obtain ⟨inside, close, rest, hclose⟩ :=
      exists_closing?_of_closed (hbefore ▸ h.first.balanced) hu
    rw [closing?, closingFrom?_more hclose]
    refine ⟨rest, ?_, rfl⟩
    rw [Solid, ← depthAfter?_of_closingFrom? hclose _ 0]
    exact hfirst
  · exact ⟨u :: us, hbefore ▸ h.first, rfl⟩

theorem demand_eq :
    demand m.clause = referenceDemand (m.before ++ m.keyword :: m.after) := by
  have hkey := h.key
  have hprimary : pairIs "PRIMARY" "KEY" (Draft.unnamed m.clause) = false := by
    cases hbody : Draft.unnamed m.clause with
    | nil => rfl
    | cons u us =>
      rw [hbody, pairIs, Bool.and_eq_true] at hkey
      rw [pairIs, isWord_eq_false hkey.1 (by decide), Bool.false_and]
  simp only [demand, hprimary, hkey, h.clause, Bool.false_eq_true, if_false, if_true]

theorem demand_ne_key (name : String) : demand m.clause ≠ .key name := by
  rw [h.demand_eq, referenceDemand]
  repeat' split
  all_goals try exact fun hsame => by cases hsame
  rw [targetDemand.eq_def]
  split <;> exact fun hsame => by cases hsame

/-- What is demanded by the clause is its first reference. -/
theorem of_demand {name : String} {target : Target}
    (hdemand : demand m.clause = .reference name target) :
    m.columns = [name] ∧ (reference m.after).1 = .ok target := by
  obtain ⟨vs, hsolid, hrest⟩ := h.nameList_rest
  rw [h.demand_eq, referenceDemand, hrest, ← columns] at hdemand
  cases vs with
  | nil =>
    simp only [List.nil_append, h.keyword, if_true] at hdemand
    cases hout : (reference m.after).1 with
    | error fault =>
      rw [hout] at hdemand
      cases hdemand
    | ok found =>
      rw [hout] at hdemand
      rcases hcolumns : m.columns with _ | ⟨column, _ | ⟨second, columns⟩⟩ <;>
        rw [hcolumns] at hdemand <;> cases hdemand
      exact ⟨rfl, rfl⟩
  | cons v vs =>
    have hother : v.isWord ["REFERENCES"] = false := by
      by_contra hword
      rw [Bool.not_eq_false] at hword
      have hkind := kind_of_isWord hword
      rw [Solid, depthAfter?, isOpening, isPunct_of_word_kind hkind, isClosing,
        isPunct_of_word_kind hkind, hword] at hsolid
      cases hsolid
    rw [List.cons_append] at hdemand
    simp only [hother, Bool.false_eq_true, if_false] at hdemand
    cases hdemand

end Occurs

end TableReference

/-! ## Scripts -/

/-- An entry of a ledger has an outcome there. -/
theorem Ledger.exists_of_mem {α β : Type} {Ends : List α → α → β → Prop} {as : List α} {os : List β}
    (h : Ledger Ends as os) {a : α} (ha : a ∈ as) : ∃ before, ∃ o ∈ os, Ends before a o := by
  induction h with
  | nil => cases ha
  | @snoc before os b o _ ho ih =>
    rcases List.mem_append.mp ha with ha | ha
    · obtain ⟨before', o', hmem, ho'⟩ := ih ha
      exact ⟨before', o', List.mem_append_left _ hmem, ho'⟩
    · obtain rfl := List.mem_singleton.mp ha
      exact ⟨before, o, List.mem_append_right _ (List.mem_singleton.mpr rfl), ho⟩

section Kept

variable {tokenize : Tokenizer} {text : List Char} {before after : List Statement} {s : Statement}
  {table : String} {clauses : List (List Lexeme)}
  (hfound : (statements tokenize (Response.script text)).1 = before ++ s :: after)
  (hs : s.Creates table clauses) (hnew : table ∉ (draftsOf before).map (·.name))
include hfound hs hnew

theorem InlineReference.Occurs.settled {m : InlineReference} (hm : m.Occurs)
    (hclause : m.clause ∈ clauses) (hcolumn : isTableConstraint m.clause = false) :
    Relates (read tokenize text).schema table m.column.identifier m.after ∨
      (read tokenize text).Mentions table ∨ m.Superseded := by
  obtain ⟨columns, constraints, hcolumns, -, hsum⟩ :=
    Draft.accounted_ofClauses s.source table clauses
  rw [Draft.ofClauses_name] at hcolumns hsum
  obtain ⟨left, o, ho, hends⟩ :=
    hcolumns.exists_of_mem (List.mem_filter.mpr ⟨hclause, by rw [hcolumn]; rfl⟩)
  have hreported : ∀ issue ∈ o.issues, issue.table? = some table →
      (read tokenize text).Mentions table := by
    intro issue hissue htable
    refine mentions_of_mem hfound hs hnew (congrArg Draft.issues hsum ▸ ?_) htable
    exact List.mem_append_left _ (List.mem_flatMap.mpr ⟨o, ho, hissue⟩)
  cases hends with
  | unreadable hc => exact Or.inr (Or.inl (hreported _ List.mem_cons_self rfl))
  | repeated hc hold => exact Or.inr (Or.inl (hreported _ List.mem_cons_self rfl))
  | @field c hc hnew' =>
    have hname : m.column.isName = true := by
      by_contra hname
      rw [InlineReference.clause, column?, if_neg hname] at hc
      cases hc
    obtain rfl := Option.some.inj ((if_pos hname).symm.trans hc)
    rcases hm.traits s.source with ⟨fault, hfault, -⟩ | ⟨target, htarget, hout⟩ | hlater
    · refine Or.inr (Or.inl (hreported _ (List.mem_map_of_mem hfault) ?_))
      cases fault <;> rfl
    · have hwaits : ⟨m.column.identifier, target⟩ ∈
          (Draft.ofClauses s.source table clauses).pending := by
        rw [congrArg Draft.pending hsum]
        refine List.mem_append_left _ (List.mem_filterMap.mpr
          ⟨_, List.mem_filterMap.mpr ⟨_, ho, rfl⟩, ?_⟩)
        simp only [Column.pending?, htarget, Column.name, columnField_name, Option.map_some]
      rcases relates_or_mentions hfound hs hnew hwaits (table_of_reference hout) with h | h
      · exact Or.inl h
      · exact Or.inr (Or.inl h)
    · exact Or.inr (Or.inr hlater)

theorem TableReference.Occurs.settled {m : TableReference} (hm : m.Occurs)
    (hclause : m.clause ∈ clauses) :
    (∃ column, m.columns = [column] ∧ Relates (read tokenize text).schema table column m.after) ∨
      (read tokenize text).Mentions table := by
  obtain ⟨columns, constraints, -, hconstraints, hsum⟩ :=
    Draft.accounted_ofClauses s.source table clauses
  rw [Draft.ofClauses_name] at hconstraints hsum
  obtain ⟨left, o, ho, hends⟩ :=
    hconstraints.exists_of_mem (List.mem_filter.mpr ⟨hclause, hm.isTableConstraint⟩)
  cases hends with
  | key hdemand _ => exact absurd hdemand (hm.demand_ne_key _)
  | @reference name target hdemand _ =>
    obtain ⟨hcolumn, hout⟩ := hm.of_demand hdemand
    have hwaits : ⟨name, target⟩ ∈ (Draft.ofClauses s.source table clauses).pending := by
      rw [congrArg Draft.pending hsum]
      exact List.mem_append_right _ (List.mem_filterMap.mpr ⟨_, ho, rfl⟩)
    rcases relates_or_mentions hfound hs hnew hwaits (table_of_reference hout) with h | h
    · exact Or.inl ⟨name, hcolumn, h⟩
    · exact Or.inr h
  | reported _ htable _ =>
    refine Or.inr (mentions_of_mem hfound hs hnew (congrArg Draft.issues hsum ▸ ?_) htable)
    exact List.mem_append_right _ (List.mem_filterMap.mpr ⟨_, ho, rfl⟩)

end Kept

/-- Every reference of a table that is kept is a relationship of its column, or an issue is reported
for the table, or, in the clause of a column, a later reference takes its place. So of several
references of one column, inline or in clauses of the table in any mix, those that are not kept are
reported, but for inline ones before the last one of them that can be read. -/
theorem read_settled {tokenize : Tokenizer} {text : List Char} {before after : List Statement}
    {s : Statement} {table : String} {clauses : List (List Lexeme)}
    (hfound : (statements tokenize (Response.script text)).1 = before ++ s :: after)
    (hs : s.Creates table clauses) (hnew : table ∉ (draftsOf before).map (·.name)) :
    (∀ m : InlineReference, m.Occurs → m.clause ∈ clauses → isTableConstraint m.clause = false →
      Relates (read tokenize text).schema table m.column.identifier m.after ∨
        (read tokenize text).Mentions table ∨ m.Superseded) ∧
      ∀ m : TableReference, m.Occurs → m.clause ∈ clauses →
        (∃ column, m.columns = [column] ∧
          Relates (read tokenize text).schema table column m.after) ∨
            (read tokenize text).Mentions table :=
  ⟨fun _ hm hclause hcolumn => hm.settled hfound hs hnew hclause hcolumn,
    fun _ hm hclause => hm.settled hfound hs hnew hclause⟩

/-! ### A column with two references -/

def twoText : List Char := "CREATE TABLE t(a INT REFERENCES b(x) REFERENCES c(y));".toList

def firstReference : InlineReference where
  column := ⟨"a", .word, 15, 15⟩
  type := ⟨"INT", .word, 17, 19⟩
  before := []
  keyword := ⟨"REFERENCES", .word, 21, 30⟩
  after := [⟨"b", .word, 32, 32⟩, ⟨"(", .punct, 33, 33⟩, ⟨"x", .word, 34, 34⟩,
    ⟨")", .punct, 35, 35⟩, ⟨"REFERENCES", .word, 37, 46⟩, ⟨"c", .word, 48, 48⟩,
    ⟨"(", .punct, 49, 49⟩, ⟨"y", .word, 50, 50⟩, ⟨")", .punct, 51, 51⟩]

def secondReference : InlineReference where
  column := ⟨"a", .word, 15, 15⟩
  type := ⟨"INT", .word, 17, 19⟩
  before := firstReference.keyword :: firstReference.after.take 4
  keyword := ⟨"REFERENCES", .word, 37, 46⟩
  after := firstReference.after.drop 5

def twoStatement : Statement where
  lexemes := [⟨"CREATE", .word, 0, 5⟩, ⟨"TABLE", .word, 7, 11⟩, ⟨"t", .word, 13, 13⟩,
    ⟨"(", .punct, 14, 14⟩] ++ firstReference.clause ++ [⟨")", .punct, 52, 52⟩]
  source := twoText

theorem statements_twoText :
    statements (Dialect.lexemes .postgresql) (Response.script twoText) = ([twoStatement], []) := by
  have hlexemes : Dialect.lexemes .postgresql twoText =
      .ok (twoStatement.lexemes ++ [⟨";", .punct, 53, 53⟩]) := by decide +kernel
  have hstatements : Lexeme.statements (twoStatement.lexemes ++ [⟨";", .punct, 53, 53⟩]) =
      [twoStatement.lexemes] := by decide
  rw [Response.script_eq_self (by decide), statements_of_lexemes hlexemes
    (hidesCreateTable_of_no_string _ (by decide)), hstatements]
  rfl

theorem creates_two : twoStatement.Creates "t" [firstReference.clause] :=
  ⟨by decide, firstReference.clause, rfl, by decide⟩

theorem occurs_firstReference : firstReference.Occurs := ⟨by decide, rfl, by decide⟩

/-- The second reference is kept or reported. -/
theorem read_settled_second :
    Relates (read (Dialect.lexemes .postgresql) twoText).schema "t" "a" secondReference.after ∨
      (read (Dialect.lexemes .postgresql) twoText).Mentions "t" := by
  have hfound : (statements (Dialect.lexemes .postgresql) (Response.script twoText)).1 =
      [] ++ twoStatement :: [] := by rw [statements_twoText]; rfl
  have hoccurs : secondReference.Occurs := ⟨by decide, rfl, by decide⟩
  rcases (read_settled hfound creates_two List.not_mem_nil).1 secondReference hoccurs
    (List.mem_singleton.mpr rfl) (by decide) with h | h | ⟨us, keyword, vs, _, hafter, hword, _⟩
  · exact Or.inl h
  · exact Or.inr h
  · have hnone : ∀ u ∈ secondReference.after, u.isWord ["REFERENCES"] = false := by decide
    rw [hnone keyword (hafter ▸ List.mem_append_right _ List.mem_cons_self)] at hword
    cases hword

def twoDraft : Draft where
  name := "t"
  fields := [{ name := "a", type := "int8" }]
  pending := [⟨"a", ⟨"c", some "y"⟩⟩]

theorem ofClauses_two : Draft.ofClauses twoText "t" [firstReference.clause] = twoDraft := by
  have hfirst : reference firstReference.after =
      (.ok ⟨"b", some "x"⟩, secondReference.keyword :: secondReference.after) := rfl
  have hsecond : reference secondReference.after = (.ok ⟨"c", some "y"⟩, []) := rfl
  have htraits : columnTraits twoText 0 {} (firstReference.keyword :: firstReference.after) =
      { target := some ⟨"c", some "y"⟩ } := by
    rw [columnTraits, hfirst, columnTraits, hsecond, columnTraits]
    rfl
  have hcolumns : [firstReference.clause].filter (!isTableConstraint ·) =
      [firstReference.clause] := by decide
  have hconstraints : [firstReference.clause].filter isTableConstraint = [] := by decide
  rw [Draft.ofClauses, hcolumns, hconstraints]
  have hclause : firstReference.clause = firstReference.column :: firstReference.type ::
      firstReference.keyword :: firstReference.after := rfl
  simp only [hclause, List.foldl_cons, List.foldl_nil, Draft.addColumn, htraits]
  decide

theorem read_twoText :
    (read (Dialect.lexemes .postgresql) twoText).schema.relationships = [⟨"t", "a", "c", "y"⟩] ∧
      (read (Dialect.lexemes .postgresql) twoText).issues = [] := by
  have hadd : Progress.add {} twoStatement = { drafts := [twoDraft] } := by
    have htable : tableBody twoStatement = .ok ("t", firstReference.clause) := rfl
    have hclauses : Lexeme.clauses firstReference.clause = [firstReference.clause] := by decide
    rw [Progress.add, if_pos (by decide), htable]
    simp only [hclauses, show twoStatement.source = twoText from rfl, ofClauses_two]
    rfl
  simp only [read, readScript, statements_twoText, List.foldl_cons, List.foldl_nil, hadd]
  constructor <;> decide

/-- The first reference is neither kept nor reported. -/
theorem read_superseded_first :
    (statements (Dialect.lexemes .postgresql) (Response.script twoText)).1 = [twoStatement] ∧
      twoStatement.Creates "t" [firstReference.clause] ∧
      isTableConstraint firstReference.clause = false ∧ firstReference.Occurs ∧
      ¬(Relates (read (Dialect.lexemes .postgresql) twoText).schema "t" "a" firstReference.after ∨
        (read (Dialect.lexemes .postgresql) twoText).Mentions "t") := by
  obtain ⟨hrelationships, hissues⟩ := read_twoText
  refine ⟨by rw [statements_twoText], creates_two, by decide, occurs_firstReference, ?_⟩
  rintro (⟨r, hr, -, -, htable⟩ | ⟨issue, hissue, -⟩)
  · rw [hrelationships, List.mem_singleton] at hr
    subst hr
    exact absurd htable (by decide)
  · rw [hissues] at hissue
    cases hissue

end Schemata.Script
