import Mathlib.Data.List.Forall2
import Mathlib.Tactic
import Schemata.Proofs.Script.Expressions
import Schemata.Proofs.Script.KeyClauses
import Schemata.Proofs.Script.Settled

/-!
# Column clauses as they are written

Behind its name and its type a column has constraints, in any order and number. Each of them is read
to its end, so that the next one is read at the right place, and the field and the reference of the
column are what the constraints say one by one.
-/
namespace Schemata.Script

open Lexeme Phrase

/-! ## Spellings -/

/-- A constraint of a column, as far as it counts. -/
inductive Constraint where
  | notNull
  | primaryKey
  | reference (target : Target)
  | default (value : List Lexeme)
  | other
deriving DecidableEq

/-- What may be done about a reference whose row goes away or changes. -/
def referentialActions : List (List String) :=
  [["CASCADE"], ["RESTRICT"], ["SET", "NULL"], ["NO", "ACTION"]]

/-- `ON DELETE` or `ON UPDATE` with an action. -/
structure IsReferential (us : List Lexeme) : Prop where
  words : ∀ u ∈ us, u.kind = .word
  spelling : ∃ event ∈ ["DELETE", "UPDATE"], ∃ action ∈ referentialActions,
    us.map upper = "ON" :: event :: action

/-- The lexemes that a constraint is written with. -/
inductive Constraint.Spells : Constraint → List Lexeme → Prop where
  | notNull {n l : Lexeme} (hn : n.isWord ["NOT"] = true) (hl : l.isWord ["NULL"] = true) :
    Spells .notNull [n, l]
  | primaryKey {p k : Lexeme} (hp : p.isWord ["PRIMARY"] = true) (hk : k.isWord ["KEY"] = true) :
    Spells .primaryKey [p, k]
  | word {u : Lexeme} (hu : u.isWord ["NULL", "UNIQUE", "AUTO_INCREMENT"] = true) :
    Spells .other [u]
  | collate {c w : Lexeme} (hc : c.isWord ["COLLATE"] = true) (hw : w.kind ≠ .punct)
    (hplain : startsTrait w = false) : Spells .other [c, w]
  | check {c : Lexeme} {us : List Lexeme} (hc : c.isWord ["CHECK"] = true) (hus : Group us) :
    Spells .other (c :: us)
  | reference {r : Lexeme} {target : Target} {us : List Lexeme} {actions : List (List Lexeme)}
    (hr : r.isWord ["REFERENCES"] = true) (hus : SpellsTarget target us)
    (hactions : ∀ action ∈ actions, IsReferential action) :
    Spells (.reference target) (r :: us ++ actions.flatten)
  | default {d : Lexeme} {value : List Lexeme} (hd : d.isWord ["DEFAULT"] = true)
    (hvalue : Value value) : Spells (.default value) (d :: value)

/-! ## One constraint -/

/-- The trait that a constraint is. -/
def Constraint.trait? (source : List Char) : Constraint → Option Trait
  | notNull => some .notNull
  | primaryKey => some .primaryKey
  | reference target => some (.reference (.ok target))
  | default value => some (.default (some (sourceText source value)))
  | other => none

/-- The words that constraints and referential actions begin with. -/
def openingWords : List String :=
  ["NOT", "NULL", "PRIMARY", "UNIQUE", "AUTO_INCREMENT", "COLLATE", "CHECK", "REFERENCES",
    "DEFAULT", "ON"]

/-- Nothing, or a constraint or a referential action at the front. -/
def AtConstraint (us : List Lexeme) : Prop := ∀ u ∈ us.head?, u.isWord openingWords = true

theorem isWord_of_disjoint {u : Lexeme} {keywords keywords' : List String}
    (h : u.isWord keywords = true) (hdisjoint : ∀ keyword ∈ keywords, keyword ∉ keywords') :
    u.isWord keywords' = false := by
  simp only [isWord, Bool.and_eq_true, decide_eq_true_eq] at h
  simp only [isWord, hdisjoint u.upper h.2, decide_false, Bool.and_false]

namespace AtConstraint

variable {rest : List Lexeme} (h : AtConstraint rest)
include h

theorem kind : ∀ u ∈ rest.head?, u.kind = .word := fun u hu => kind_of_isWord (h u hu)

theorem endsValue : EndsValue rest where
  opening u hu := isPunct_of_word_kind (h.kind u hu) "("
  cast u hu htext :=
    text_not_mem_operators (h u hu) (by decide) (htext ▸ by decide)

end AtConstraint

theorem atConstraint_cons {u : Lexeme} {keywords : List String} (hu : u.isWord keywords = true)
    (hsub : keywords ⊆ openingWords) (us : List Lexeme) : AtConstraint (u :: us) := by
  rintro _ ⟨⟩
  exact isWord_of_subset hu hsub

theorem IsReferential.atConstraint {us : List Lexeme} (h : IsReferential us) (rest : List Lexeme) :
    AtConstraint (us ++ rest) := by
  obtain ⟨hwords, event, -, action, -, hus⟩ := h
  obtain ⟨on, us, rfl, hon, -⟩ := List.map_eq_cons_iff.mp hus
  have hword : on.isWord ["ON"] = true := by
    simp [isWord, hwords on List.mem_cons_self, hon]
  exact atConstraint_cons hword (by decide) (us ++ rest)

theorem atConstraint_actions {actions : List (List Lexeme)}
    (h : ∀ action ∈ actions, IsReferential action) {rest : List Lexeme}
    (hrest : AtConstraint rest) : AtConstraint (actions.flatten ++ rest) := by
  cases actions with
  | nil => exact hrest
  | cons action actions =>
    rw [List.flatten_cons, List.append_assoc]
    exact (h action List.mem_cons_self).atConstraint _

theorem Constraint.Spells.atConstraint {c : Constraint} {us : List Lexeme} (h : c.Spells us)
    (rest : List Lexeme) : AtConstraint (us ++ rest) := by
  cases h with
  | notNull hu | primaryKey hu | word hu | collate hu | check hu | reference hu | default hu =>
    exact atConstraint_cons hu (by decide) _

theorem atConstraint_flatten {cs : List Constraint} {pieces : List (List Lexeme)}
    (h : List.Forall₂ Constraint.Spells cs pieces) : AtConstraint pieces.flatten := by
  cases h with
  | nil =>
    rintro _ ⟨⟩
  | cons hc _ => exact hc.atConstraint _

/-! ## Reading one constraint -/

/-- Words that begin nothing are passed over. -/
theorem solid_of_words {us : List Lexeme} (h : ∀ u ∈ us, u.kind ≠ .punct ∧ startsTrait u = false) :
    Solid startsTrait us :=
  depthAfter?_plain (fun u hu => ⟨isPunct_of_kind (h u hu).1 "(", isPunct_of_kind (h u hu).1 ")",
    (h u hu).2⟩) 0

theorem solid_of_keyword {u : Lexeme} {keywords : List String} (h : u.isWord keywords = true)
    (hdisjoint : ∀ keyword ∈ keywords, keyword ∉ ["NOT", "PRIMARY", "REFERENCES", "DEFAULT"]) :
    Solid startsTrait [u] :=
  solid_of_words (List.forall_mem_singleton.mpr
    ⟨by simp [kind_of_isWord h], isWord_of_disjoint h hdisjoint⟩)

theorem IsReferential.solid {us : List Lexeme} (h : IsReferential us) : Solid startsTrait us := by
  obtain ⟨hwords, event, hevent, action, haction, hus⟩ := h
  have hplain : ∀ event ∈ ["DELETE", "UPDATE"], ∀ action ∈ referentialActions,
      ∀ word ∈ "ON" :: event :: action,
        word ∉ ["NOT", "PRIMARY", "REFERENCES", "DEFAULT"] := by decide
  refine solid_of_words fun u hu => ⟨by simp [hwords u hu], ?_⟩
  have hupper := hplain event hevent action haction u.upper (hus ▸ List.mem_map_of_mem hu)
  simp only [startsTrait, isWord, hupper, decide_false, Bool.and_false]

theorem solid_flatten {cut : Lexeme → Bool} {pieces : List (List Lexeme)}
    (h : ∀ us ∈ pieces, Solid cut us) : Solid cut pieces.flatten := by
  induction pieces with
  | nil => rfl
  | cons us pieces ih =>
    exact (h us List.mem_cons_self).append (ih fun vs hvs => h vs (List.mem_cons_of_mem us hvs))

theorem traitsFrom_solid (source : List Char) {us : List Lexeme} (h : Solid startsTrait us)
    (rest : List Lexeme) : traitsFrom source 0 (us ++ rest) = traitsFrom source 0 rest := by
  exact_mod_cast traitsFrom_append source h rest

theorem traitsFrom_default (source : List Char) {d : Lexeme} (hd : d.isWord ["DEFAULT"] = true)
    {depth : ℤ} (hdepth : depth ≤ 0) (us : List Lexeme) : traitsFrom source depth (d :: us) =
      .default (default? source us).1 :: traitsFrom source depth (default? source us).2 := by
  rw [traitsFrom_word source (kind_of_isWord hd) hdepth, traitAt,
    if_neg (by simp [isWord_eq_false hd]), if_neg (by simp [isWord_eq_false hd]),
    if_neg (by simp [isWord_eq_false hd]), if_pos hd]
  rfl

/-- A constraint is read to its end, and counts as what it says. -/
theorem Constraint.Spells.traitsFrom (source : List Char) {c : Constraint} {us : List Lexeme}
    (h : c.Spells us) {rest : List Lexeme} (hrest : AtConstraint rest) :
    traitsFrom source 0 (us ++ rest) = (c.trait? source).toList ++ traitsFrom source 0 rest := by
  cases h with
  | notNull hn hl =>
    rw [List.cons_append, List.cons_append, traitsFrom_word source (kind_of_isWord hn) le_rfl,
      traitAt, if_pos (by simp [hn, nextIs, hl])]
    rfl
  | primaryKey hp hk => exact traitsFrom_inline source (.primary hp hk) hrest.kind
  | word hu => exact traitsFrom_solid source (solid_of_keyword hu (by decide)) rest
  | @collate c w hc hw hplain =>
    have hsolid : Solid startsTrait [w] := solid_of_words (by simp [hw, hplain])
    exact traitsFrom_solid source ((solid_of_keyword hc (by decide)).append hsolid) rest
  | check hc hus =>
    exact traitsFrom_solid source ((solid_of_keyword hc (by decide)).append (hus.solid _)) rest
  | reference hr hus hactions =>
    rw [List.append_assoc, traitsFrom_inline source (.reference hr hus)
      (atConstraint_actions hactions hrest).kind, traitsFrom_solid source
      (solid_flatten fun us hus => (hactions us hus).solid)]
    rfl
  | default hd hvalue =>
    rw [List.cons_append, traitsFrom_default source hd le_rfl,
      default?_append source hvalue hrest.endsValue]
    rfl

/-! ## All constraints -/

theorem traitsFrom_flatten (source : List Char) {cs : List Constraint}
    {pieces : List (List Lexeme)} (h : List.Forall₂ Constraint.Spells cs pieces) :
    traitsFrom source 0 pieces.flatten = cs.filterMap (Constraint.trait? source) := by
  induction h with
  | nil => rw [List.flatten_nil, traitsFrom, List.filterMap_nil]
  | @cons c us cs pieces hc hcs ih =>
    rw [List.flatten_cons, hc.traitsFrom source (atConstraint_flatten hcs), ih,
      List.filterMap_cons]
    cases c.trait? source <;> rfl

def Constraint.target? : Constraint → Option Target
  | reference target => some target
  | _ => none

def Constraint.value? : Constraint → Option (List Lexeme)
  | default value => some value
  | _ => none

/-- The last reference of some constraints. -/
def lastTarget? (cs : List Constraint) : Option Target :=
  (cs.filterMap Constraint.target?).getLast?

/-- The last default value of some constraints. -/
def lastValue? (cs : List Constraint) : Option (List Lexeme) :=
  (cs.filterMap Constraint.value?).getLast?

theorem lastTarget?_append (cs : List Constraint) (c : Constraint) :
    lastTarget? (cs ++ [c]) = c.target?.or (lastTarget? cs) := by
  rw [lastTarget?, List.filterMap_append, List.getLast?_append]
  cases c <;> rfl

theorem lastValue?_append (cs : List Constraint) (c : Constraint) :
    lastValue? (cs ++ [c]) = c.value?.or (lastValue? cs) := by
  rw [lastValue?, List.filterMap_append, List.getLast?_append]
  cases c <;> rfl

/-- Traits are kept or not, whatever their order; of references and default values the last ones
are. -/
theorem foldl_trait? (source : List Char) (cs : List Constraint) :
    (cs.filterMap (Constraint.trait? source)).foldl ColumnTraits.add {} =
      { notNull := decide (.notNull ∈ cs)
        primaryKey := decide (.primaryKey ∈ cs)
        defaultValue := (lastValue? cs).map (sourceText source)
        target := lastTarget? cs } := by
  induction cs using List.reverseRecOn with
  | nil => rfl
  | append_singleton cs c ih =>
    have hlast : [c].filterMap (Constraint.trait? source) = (c.trait? source).toList := by
      cases c <;> rfl
    rw [List.filterMap_append, List.foldl_append, ih, hlast, lastTarget?_append, lastValue?_append]
    cases c <;> simp [Constraint.trait?, Constraint.target?, Constraint.value?, ColumnTraits.add,
      ColumnTraits.addReference]

/-- A column clause of a name, a type, arguments of the type and any constraints adds one field,
which is what the constraints say, and one reference, the last one, if there is any. Nothing is
reported but a name that the table has already. -/
theorem Draft.addColumn_constraints (source : List Char) (d : Draft) {name type : Lexeme}
    {args clause : List Lexeme} {cs : List Constraint} {pieces : List (List Lexeme)}
    (hclause : clause = name :: type :: (args ++ pieces.flatten))
    (hname : name.isName = true) (htype : type.isName = true) (hargs : args = [] ∨ Group args)
    (hpieces : List.Forall₂ Constraint.Spells cs pieces) :
    ∃ field : Field,
      d.addColumn source clause =
        (if (d.field? name.identifier).isSome then
          d.report (.duplicateColumn d.name (sourceText source clause) name.identifier)
        else
          { d with
            fields := d.fields ++ [field]
            pending := d.pending ++ ((lastTarget? cs).map (Pending.mk name.identifier)).toList }) ∧
      field.name = name.identifier ∧
      field.type = (TypeWord.logical type.text).name ∧
      (field.primaryKey = true ↔
        .primaryKey ∈ cs ∨ TypeWord.base type.text ∈ ["SERIAL", "BIGSERIAL"]) ∧
      (field.nullable = true ↔ field.primaryKey = false ∧ .notNull ∉ cs) ∧
      field.foreignKey = none ∧
      field.defaultValue = (lastValue? cs).map (sourceText source) := by
  have hsolid : Solid startsTrait args := by
    rcases hargs with rfl | hargs
    · rfl
    · exact hargs.solid startsTrait
  have htraits := columnTraits_eq_foldl source 0 {} (args ++ pieces.flatten)
  rw [traitsFrom_solid source hsolid, traitsFrom_flatten source hpieces, foldl_trait?] at htraits
  refine ⟨columnField name.identifier (typeText type) (columnTraits source 0 {}
    (args ++ pieces.flatten)), ?_, rfl, ?_, ?_, ?_, rfl, ?_⟩
  · simp [hclause, Draft.addColumn, hname, htraits]
  · simp [columnField, typeText, htype]
  · simp [columnField, typeText, htype, htraits, TypeWord.isAutoIncrement]
  · simp [columnField, htraits]
  · rw [columnField, htraits]

/-! ### A price -/

def priceText : List Char :=
  ("price NUMERIC(10,2) DEFAULT -1::INT NOT NULL REFERENCES s.t(c) ON DELETE SET NULL " ++
    "CHECK(a>(0))").toList

def priceArguments : List Lexeme :=
  [⟨"(", .punct, 13, 13⟩, ⟨"10", .number, 14, 15⟩, ⟨",", .punct, 16, 16⟩, ⟨"2", .number, 17, 17⟩,
    ⟨")", .punct, 18, 18⟩]

def priceValue : List Lexeme :=
  [⟨"-", .word, 28, 28⟩, ⟨"1", .number, 29, 29⟩, ⟨"::", .word, 30, 31⟩, ⟨"INT", .word, 32, 34⟩]

def priceConstraints : List Constraint :=
  [.default priceValue, .notNull, .reference ⟨"t", some "c"⟩, .other]

def pricePieces : List (List Lexeme) :=
  [⟨"DEFAULT", .word, 20, 26⟩ :: priceValue,
    [⟨"NOT", .word, 36, 38⟩, ⟨"NULL", .word, 40, 43⟩],
    [⟨"REFERENCES", .word, 45, 54⟩, ⟨"s", .word, 56, 56⟩, ⟨".", .punct, 57, 57⟩,
      ⟨"t", .word, 58, 58⟩, ⟨"(", .punct, 59, 59⟩, ⟨"c", .word, 60, 60⟩, ⟨")", .punct, 61, 61⟩,
      ⟨"ON", .word, 63, 64⟩, ⟨"DELETE", .word, 66, 71⟩, ⟨"SET", .word, 73, 75⟩,
      ⟨"NULL", .word, 77, 80⟩],
    [⟨"CHECK", .word, 82, 86⟩, ⟨"(", .punct, 87, 87⟩, ⟨"a", .word, 88, 88⟩, ⟨">", .word, 89, 89⟩,
      ⟨"(", .punct, 90, 90⟩, ⟨"0", .number, 91, 91⟩, ⟨")", .punct, 92, 92⟩,
      ⟨")", .punct, 93, 93⟩]]

def priceClause : List Lexeme :=
  ⟨"price", .word, 0, 4⟩ :: ⟨"NUMERIC", .word, 6, 12⟩ :: (priceArguments ++ pricePieces.flatten)

theorem lexemes_priceText : Dialect.lexemes .postgresql priceText = .ok priceClause := by
  decide +kernel

theorem spells_price : List.Forall₂ Constraint.Spells priceConstraints pricePieces := by
  have hvalue : Constraint.Spells (.default priceValue)
      (⟨"DEFAULT", .word, 20, 26⟩ :: priceValue) :=
    .default (by decide) (.mk (e := priceValue.take 2) (.signed (by decide) rfl)
      (.cons rfl rfl .nil))
  have hname : qualifiedName? ((pricePieces[2].drop 1).take 3) = some ("t", []) := by decide
  have htarget : SpellsTarget ⟨"t", some "c"⟩ ((pricePieces[2].drop 1).take 6) :=
    .column hname (c := ⟨"c", .word, 60, 60⟩) (by decide) (by decide) (by decide)
  have hactions : ∀ action ∈ [pricePieces[2].drop 7], IsReferential action :=
    List.forall_mem_singleton.mpr ⟨by decide, by decide⟩
  have hreference : Constraint.Spells (.reference ⟨"t", some "c"⟩) pricePieces[2] :=
    .reference (by decide) htarget hactions
  have hinside : Balanced ((pricePieces[3].drop 2).take 5) := rfl
  have hcheck : Constraint.Spells .other pricePieces[3] :=
    .check (by decide) (.mk (by decide) hinside (by decide))
  exact .cons hvalue (.cons (.notNull (by decide) (by decide))
    (.cons hreference (.cons hcheck .nil)))

theorem addColumn_constraints_price :
    Dialect.lexemes .postgresql priceText = .ok priceClause ∧
      (⟨"s", [], [], []⟩ : Draft).addColumn priceText priceClause =
        { name := "s"
          fields := [{ name := "price", type := "numeric", nullable := false,
                       defaultValue := some "-1::INT" }]
          pending := [⟨"price", ⟨"t", some "c"⟩⟩] } := by
  have hinside : Balanced ((priceArguments.drop 1).take 3) := rfl
  have hargs : Group priceArguments := .mk (by decide) hinside (by decide)
  have hclause : priceClause = ⟨"price", .word, 0, 4⟩ :: ⟨"NUMERIC", .word, 6, 12⟩ ::
      (priceArguments ++ pricePieces.flatten) := rfl
  obtain ⟨field, hadd, hname, htype, hkey, hnull, hforeign, hvalue⟩ :=
    Draft.addColumn_constraints priceText ⟨"s", [], [], []⟩ hclause rfl rfl (.inr hargs)
      spells_price
  have hkey' : field.primaryKey = false := by
    rw [← Bool.not_eq_true, hkey]
    decide
  have hnull' : field.nullable = false := by
    rw [← Bool.not_eq_true, hnull]
    exact fun h => h.2 (by decide)
  have hfield : field = { name := "price", type := "numeric", nullable := false,
                          defaultValue := some "-1::INT" } := by
    cases field
    simp only at hname htype hkey' hnull' hforeign hvalue
    rw [hname, htype, hkey', hnull', hforeign, hvalue]
    decide
  refine ⟨lexemes_priceText, ?_⟩
  rw [hadd, hfield, if_neg (by decide)]
  rfl

end Schemata.Script
