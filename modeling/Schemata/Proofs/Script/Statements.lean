import Mathlib.Data.List.Forall2
import Mathlib.Tactic
import Schemata.Proofs.Script.Tables

/-!
# Reading statements back

Lexemes with the words and marks of some tables fall into one statement for each table, and the run
over these statements collects the drafts of the tables without reporting anything.
-/
namespace Schemata

open Content Text

namespace Lexeme

/-- Lexemes with the words and marks of the statement that creates a table. -/
def SpellTable (d : Dialect) (us : List Lexeme) (t : Table) : Prop :=
  us.map content = t.statementContents d

/-- A statement with its words and marks told apart. -/
theorem SpellTable.parts {d : Dialect} {us : List Lexeme} {t : Table} (h : SpellTable d us t) :
    ∃ create front name o body c,
      us = create :: (front ++ name :: o :: (body ++ [c])) ∧
      create.content = word "CREATE" ∧
      front.map content = ["TABLE", "IF", "NOT", "EXISTS"].map word ∧
      name.content = word t.name ∧ o.content = mark "(" ∧
      body.map content = t.bodyContents d ∧ c.content = mark ")" := by
  rw [SpellTable, Table.statementContents, List.append_assoc] at h
  obtain ⟨heads, rest, rfl, hheads, h⟩ := List.map_eq_append_iff.mp h
  obtain ⟨body, lasts, rfl, hbody, h⟩ := List.map_eq_append_iff.mp h
  obtain ⟨c, lasts, rfl, hc, h⟩ := exists_cons_of_contents h
  obtain rfl := List.map_eq_nil_iff.mp h
  obtain ⟨create, heads, rfl, hcreate, hheads⟩ := exists_cons_of_contents hheads
  obtain ⟨front, heads, rfl, hfront, hheads⟩ := List.map_eq_append_iff.mp
    (show heads.map content = ["TABLE", "IF", "NOT", "EXISTS"].map word ++
      [word t.name, mark "("] from hheads)
  obtain ⟨name, heads, rfl, hname, hheads⟩ := exists_cons_of_contents hheads
  obtain ⟨o, heads, rfl, ho, hheads⟩ := exists_cons_of_contents hheads
  obtain rfl := List.map_eq_nil_iff.mp hheads
  exact ⟨create, front, name, o, body, c, by simp, hcreate, hfront, hname, ho, hbody, hc⟩

theorem solid_statement_of_words {us : List Lexeme} {ws : List String}
    (h : us.map content = ws.map word) (hw : ∀ w ∈ ws, upperCase w ≠ "CREATE") :
    Solid cutsStatement us := by
  refine solid_of_words h fun w hws u hu => ?_
  rw [cutsStatement, isPunct_of_word hu, isWord_of_word hu]
  simp [hw w hws]

/-- Statements of tables are cut where they were put together. -/
theorem statements_contents {d : Dialect} {us : List Lexeme} {ts : List Table}
    (hn : ∀ t ∈ ts, t.PlainlyNamed) (h : us.map content = ts.flatMap (·.contents d)) :
    List.Forall₂ (SpellTable d) (statements us) ts := by
  induction ts generalizing us with
  | nil =>
    obtain rfl := List.map_eq_nil_iff.mp h
    exact List.Forall₂.nil
  | cons t ts ih =>
    rw [List.flatMap_cons, Table.contents, List.append_assoc] at h
    obtain ⟨vs, rest, rfl, hspell, h⟩ := List.map_eq_append_iff.mp h
    obtain ⟨semicolon, rest, rfl, hsemi, h⟩ := exists_cons_of_contents h
    replace hspell : SpellTable d vs t := hspell
    have hpunct : semicolon.isPunct ";" = true := by rw [isPunct_of_mark hsemi]; rfl
    have hrest := ih (fun u hu => hn u (List.mem_cons_of_mem t hu)) h
    obtain ⟨create, front, name, o, body, c, rfl, hcreate, hfront, hname, ho, hbody, hc⟩ :=
      hspell.parts
    have hword : create.isWord ["CREATE"] = true := by rw [isWord_of_word hcreate]; decide
    have htable := hn t List.mem_cons_self
    have hsolid : Solid cutsStatement (front ++ name :: o :: (body ++ [c])) := by
      have hone : [name].map content = [t.name].map word := by simp [hname]
      have hgroup := (clauses_body hbody).1.group (isOpening_of_mark ho) (isClosing_of_mark hc)
        cutsStatement
      have hcreate' : upperCase t.name ≠ "CREATE" := by
        intro he
        have hback := lowerCase_upperCase htable.name.1
        rw [he] at hback
        exact htable.name.2 (hback.symm.trans (by decide))
      refine (solid_statement_of_words hfront (by decide)).append ?_
      refine (solid_statement_of_words hone ?_).append hgroup
      exact fun w hw => List.mem_singleton.mp hw ▸ hcreate'
    rw [statements_cons hword hsolid hpunct]
    exact List.Forall₂.cons hspell hrest

end Lexeme

namespace Script

open Lexeme Phrase

variable {d : Dialect} {us : List Lexeme} {t : Table}

theorem dropModifiers_of_word {u : Lexeme} {text : String} (h : u.content = word text)
    (hm : upperCase text ∉ tableModifiers) (rest : List Lexeme) :
    dropModifiers (u :: rest) = u :: rest := by
  rw [dropModifiers, List.dropWhile_cons, isWord_of_word h]
  simp [hm]

theorem isCreateTable_contents (h : SpellTable d us t) : isCreateTable us = true := by
  obtain ⟨create, front, name, o, body, c, rfl, hcreate, hfront, -⟩ := h.parts
  obtain ⟨table, front, rfl, htable, -⟩ := exists_cons_of_contents hfront
  have hword : create.isWord ["CREATE"] = true := by rw [isWord_of_word hcreate]; decide
  rw [isCreateTable, hword, List.cons_append, dropModifiers_of_word htable (by decide),
    nextIs_of_word htable]
  decide

/-- The body of a written table is found, and its clauses are the columns. -/
theorem tableBody_contents (hn : t.PlainlyNamed) (h : SpellTable d us t) (source : List Char) :
    ∃ body, tableBody ⟨us, source⟩ = .ok (t.name, body) ∧
      List.Forall₂ (Spell d) (clauses body) t.fields := by
  obtain ⟨create, front, name, o, body, c, rfl, hcreate, hfront, hname, ho, hbody, hc⟩ := h.parts
  obtain ⟨table, front, rfl, htable, hfront⟩ := exists_cons_of_contents hfront
  obtain ⟨i, front, rfl, hi, hfront⟩ := exists_cons_of_contents hfront
  obtain ⟨n, front, rfl, hnot, hfront⟩ := exists_cons_of_contents hfront
  obtain ⟨e, front, rfl, he, hfront⟩ := exists_cons_of_contents hfront
  obtain rfl := List.map_eq_nil_iff.mp hfront
  obtain ⟨hbalanced, hclauses⟩ := clauses_body hbody
  have hif : i.isWord ["IF"] = true := by rw [isWord_of_word hi]; decide
  have hnot' : n.isWord ["NOT"] = true := by rw [isWord_of_word hnot]; decide
  have hexists : e.isWord ["EXISTS"] = true := by rw [isWord_of_word he]; decide
  have hdot : o.isPunct "." = false := by rw [isPunct_of_mark ho]; rfl
  have hqualified :
      qualifiedName? (name :: o :: (body ++ [c])) = some (t.name, o :: (body ++ [c])) := by
    cases hb : body ++ [c] with
    | nil => simp at hb
    | cons x xs =>
      simp [qualifiedName?, qualifiedRest, isName_of_word hname, identifier_of_word hname hn.name.1,
        hdot]
  have hdrop : dropModifiers (table :: i :: n :: e :: name :: o :: (body ++ [c])) =
      table :: i :: n :: e :: name :: o :: (body ++ [c]) :=
    dropModifiers_of_word htable (by decide) _
  refine ⟨body, ?_, hclauses⟩
  simp only [tableBody, List.cons_append, List.nil_append, List.drop_succ_cons, List.drop_zero,
    hdrop, dropIfNotExists, hif, hnot', hexists, Bool.and_self, if_true, hqualified,
    isOpening_of_mark ho, closing?_append hbalanced (isClosing_of_mark hc)]

/-! ## Runs -/

theorem add_contents {p : Progress} (ht : t.WellFormed) (hn : t.PlainlyNamed)
    (hnew : t.name ∉ p.drafts.map (·.name)) (h : SpellTable d us t) (source : List Char) :
    p.add ⟨us, source⟩ = ⟨p.drafts ++ [Draft.written d t], p.issues⟩ := by
  obtain ⟨body, hbody, hclauses⟩ := tableBody_contents hn h source
  have hfree : p.drafts.any (·.name = t.name) = false := by
    rw [List.any_eq_false]
    intro draft hdraft he
    exact hnew (List.mem_map.mpr ⟨draft, hdraft, of_decide_eq_true he⟩)
  rw [Progress.add]
  simp only [isCreateTable_contents h, if_true, hbody, hfree, Bool.false_eq_true, if_false,
    ofClauses_contents source ht hn hclauses]
  simp [Draft.written]

theorem foldl_add_contents {statements : List (List Lexeme)} {ts : List Table}
    (ht : ∀ t ∈ ts, t.WellFormed) (hn : ∀ t ∈ ts, t.PlainlyNamed)
    (hnames : (ts.map (·.name)).Nodup) (h : List.Forall₂ (SpellTable d) statements ts)
    (source : List Char) {p : Progress} (hnew : ∀ t ∈ ts, t.name ∉ p.drafts.map (·.name)) :
    (statements.map (⟨·, source⟩ : _ → Statement)).foldl Progress.add p =
      ⟨p.drafts ++ ts.map (Draft.written d), p.issues⟩ := by
  induction h generalizing p with
  | nil => simp
  | @cons us t statements ts hspell _ ih =>
    simp only [List.map_cons, List.nodup_cons] at hnames
    rw [List.map_cons, List.foldl_cons, add_contents (ht t List.mem_cons_self)
      (hn t List.mem_cons_self) (hnew t List.mem_cons_self) hspell,
      ih (fun u hu => ht u (List.mem_cons_of_mem t hu))
        (fun u hu => hn u (List.mem_cons_of_mem t hu)) hnames.2]
    · simp
    · have hlater : ∀ u ∈ ts, u.name ∉ p.drafts.map (·.name) ++ [t.name] :=
        names_new_after hnames.1 hnew
      simpa [Draft.written] using hlater

end Script

end Schemata
