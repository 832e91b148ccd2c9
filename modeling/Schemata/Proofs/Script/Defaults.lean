import Mathlib.Tactic
import Schemata.Proofs.Script.Constraints
import Schemata.Proofs.Script.Seams

/-!
# Default values among other constraints

A default value that is read to its end sets the default of its column and nothing else: the column
is the one of the clause without it. `SET DEFAULT` is read as one more default, which is empty at
the end of a clause.
-/
namespace Schemata.Script

open Lexeme Phrase

/-! ## Traits that are no defaults -/

/-- Lexemes without a `DEFAULT` say nothing of a default. -/
theorem default_not_mem (source : List Char) (depth : ℤ) (us : List Lexeme)
    (h : ∀ u ∈ us, u.isWord ["DEFAULT"] = false) (value : Option String) :
    Trait.default value ∉ traitsFrom source depth us := by
  induction depth, us using traitsFrom_induction source with
  | nil depth => simp [traitsFrom]
  | opening depth u us ho ih =>
    rw [traitsFrom_opening source ho]
    exact ih fun v hv => h v (List.mem_cons_of_mem u hv)
  | closing depth u us ho hc ih =>
    rw [traitsFrom_closing source ho hc]
    exact ih fun v hv => h v (List.mem_cons_of_mem u hv)
  | inside depth u us ho hc hd ih =>
    rw [traitsFrom_inside source ho hc hd]
    exact ih fun v hv => h v (List.mem_cons_of_mem u hv)
  | outside depth u us ho hc hd ih =>
    have hsuffix := traitAt_suffix source u us
    rw [traitsFrom_outside source ho hc hd, List.mem_append, Option.mem_toList, not_or]
    refine ⟨fun hread => ?_, ih fun v hv => h v (List.mem_cons_of_mem u (hsuffix.subset hv))⟩
    have hdefault := traitAt_eq_default hread
    rw [h u List.mem_cons_self] at hdefault
    cases hdefault

/-- A default that no other one follows is kept, and it changes nothing else. -/
theorem foldl_add_default {ts : List Trait} (h : ∀ value, Trait.default value ∉ ts)
    (traits : ColumnTraits) (value : Option String) :
    ts.foldl ColumnTraits.add { traits with defaultValue := value } =
      { ts.foldl ColumnTraits.add traits with defaultValue := value } := by
  induction ts generalizing traits with
  | nil => rfl
  | cons t ts ih =>
    have hts : ∀ value, Trait.default value ∉ ts := fun v hv => h v (List.mem_cons_of_mem t hv)
    rw [List.foldl_cons, List.foldl_cons, ← ih hts]
    cases t with
    | default v => exact absurd List.mem_cons_self (h v)
    | reference outcome => cases outcome <;> rfl
    | _ => rfl

/-- Without a default the value is what it was. -/
theorem defaultValue_foldl {ts : List Trait} (h : ∀ value, Trait.default value ∉ ts)
    (traits : ColumnTraits) :
    (ts.foldl ColumnTraits.add traits).defaultValue = traits.defaultValue := by
  have hsame := congrArg ColumnTraits.defaultValue (foldl_add_default h traits traits.defaultValue)
  exact hsame

/-! ## The clause with and without a default -/

/-- A default value in a column clause, with what stands around it behind the type. -/
structure DefaultClause where
  column : Lexeme
  type : Lexeme
  before : List Lexeme
  keyword : Lexeme
  value : List Lexeme
  after : List Lexeme

namespace DefaultClause

def clause (m : DefaultClause) : List Lexeme :=
  m.column :: m.type :: (m.before ++ m.keyword :: (m.value ++ m.after))

def without (m : DefaultClause) : List Lexeme := m.column :: m.type :: (m.before ++ m.after)

/-- The only `DEFAULT` of the clause, outside the phrases of the other constraints, with a value
that is read to its end. -/
structure Occurs (m : DefaultClause) : Prop where
  column : m.column.isName = true
  keyword : m.keyword.isWord ["DEFAULT"] = true
  only : ∀ u ∈ m.before ++ m.after, u.isWord ["DEFAULT"] = false
  seam : Seam m.before m.after
  value : Value m.value ∧ EndsValue m.after ∨
    m.after = [] ∧ ∃ u : Lexeme, m.value = [u] ∧ u.kind ≠ .punct

end DefaultClause

/-- The column with a default value. -/
def Column.withDefault (c : Column) (value : String) : Column :=
  { c with field := { c.field with defaultValue := some value } }

theorem Column.withDefault_mk (name type : String) (traits : ColumnTraits) (value : String) :
    withDefault ⟨columnField name type traits, traits.target⟩ value =
      ⟨columnField name type { traits with defaultValue := some value }, traits.target⟩ := by
  simp only [Column.withDefault, columnField]

/-- Apart from issues, a clause adds a column, and with the default value it adds the same column
with that value. -/
def DefaultClause.SetsDefault (m : DefaultClause) (source : List Char) (d : Draft) : Prop :=
  ∃ c : Column, (d.addColumn source m.without).quiet = d.quiet.keep c ∧
    (d.addColumn source m.clause).quiet = d.quiet.keep (c.withDefault (sourceText source m.value))

theorem quiet_addColumn_named (source : List Char) (d : Draft) {name : Lexeme}
    (hname : name.isName = true) (type : Lexeme) (us : List Lexeme) :
    (d.addColumn source (name :: type :: us)).quiet =
      d.quiet.keep ⟨columnField name.identifier (typeText type) (columnTraits source 0 {} us),
        (columnTraits source 0 {} us).target⟩ := by
  simp only [Draft.quiet_addColumn, column?, hname, if_true, Option.toList_some, List.foldl_cons,
    List.foldl_nil]

namespace DefaultClause.Occurs

variable {m : DefaultClause} (h : m.Occurs)
include h

theorem default? (source : List Char) :
    default? source (m.value ++ m.after) = (some (sourceText source m.value), m.after) := by
  rcases h.value with ⟨hvalue, hafter⟩ | ⟨hafter, u, hvalue, hu⟩
  · exact default?_append source hvalue hafter
  · rw [hvalue, hafter, List.append_nil, default?_singleton source hu]

theorem seam_keyword (us : List Lexeme) : Seam m.before (m.keyword :: us) := by
  have hkind := kind_of_isWord h.keyword
  refine ⟨h.seam.closed, h.seam.last, ?_, fun u _ => ⟨fun _ => ?_, fun _ => ?_⟩, .inl ?_⟩
  · rintro _ ⟨⟩
    exact ⟨isPunct_of_word_kind hkind "(", isPunct_of_word_kind hkind "."⟩
  · exact isWord_eq_false h.keyword (by decide)
  · exact isWord_eq_false h.keyword (by decide)
  · exact fun u hu => h.only u (List.mem_append_left _ hu)

theorem columnTraits (source : List Char) :
    columnTraits source 0 {} (m.before ++ m.keyword :: (m.value ++ m.after)) =
      { Script.columnTraits source 0 {} (m.before ++ m.after) with
        defaultValue := some (sourceText source m.value) } := by
  obtain ⟨nesting, hnesting⟩ := h.seam.closed
  obtain ⟨depth, hdepth, hread⟩ :=
    traitsFrom_seam source 0 m.before ⟨nesting, by omega, hnesting⟩
  have hafter : ∀ value, Trait.default value ∉ traitsFrom source depth m.after :=
    default_not_mem source depth m.after fun u hu => h.only u (List.mem_append_right _ hu)
  rw [columnTraits_eq_foldl, columnTraits_eq_foldl, hread h.seam, hread (h.seam_keyword _),
    traitsFrom_default source h.keyword hdepth, h.default?, List.foldl_append, List.foldl_append,
    List.foldl_cons]
  exact foldl_add_default hafter _ _

theorem setsDefault (source : List Char) (d : Draft) : m.SetsDefault source d := by
  refine ⟨_, quiet_addColumn_named source d h.column m.type (m.before ++ m.after), ?_⟩
  rw [clause, quiet_addColumn_named source d h.column, h.columnTraits, Column.withDefault_mk]

end DefaultClause.Occurs

/-! ## Referential actions -/

/-- `ON DELETE SET DEFAULT` or `ON UPDATE SET DEFAULT` in a column clause, with what stands around
it behind the type. -/
structure DefaultAction where
  column : Lexeme
  type : Lexeme
  before : List Lexeme
  on : Lexeme
  event : Lexeme
  set : Lexeme
  keyword : Lexeme
  after : List Lexeme

namespace DefaultAction

def action (m : DefaultAction) : List Lexeme := [m.on, m.event, m.set, m.keyword]

def clause (m : DefaultAction) : List Lexeme :=
  m.column :: m.type :: (m.before ++ m.action ++ m.after)

def without (m : DefaultAction) : List Lexeme := m.column :: m.type :: (m.before ++ m.after)

/-- The action ends the clause, which has no default value. -/
structure Occurs (m : DefaultAction) : Prop where
  on : m.on.isWord ["ON"] = true
  event : m.event.isWord ["DELETE", "UPDATE"] = true
  set : m.set.isWord ["SET"] = true
  keyword : m.keyword.isWord ["DEFAULT"] = true
  only : ∀ u ∈ m.before, u.isWord ["DEFAULT"] = false
  seam : Seam m.before m.action
  after : m.after = []

end DefaultAction

/-- A keyword that begins nothing is passed over at any depth. -/
theorem traitsFrom_keyword_plain (source : List Char) {u : Lexeme} (keywords : List String)
    (hu : u.isWord keywords = true)
    (hplain : ∀ keyword ∈ keywords, keyword ∉ ["NOT", "PRIMARY", "REFERENCES", "DEFAULT"])
    (depth : ℤ) (us : List Lexeme) :
    traitsFrom source depth (u :: us) = traitsFrom source depth us := by
  have hpunct := isPunct_of_word_kind (kind_of_isWord hu)
  exact traitsFrom_plain source (by simp [isOpening, hpunct]) (by simp [isClosing, hpunct])
    (isWord_of_disjoint hu hplain) depth us

namespace DefaultAction.Occurs

variable {m : DefaultAction} (h : m.Occurs)
include h

/-- The scan takes the last word of the action for a default without a value. -/
theorem traitsFrom_action (source : List Char) {depth : ℤ} (hdepth : depth ≤ 0) :
    traitsFrom source depth m.action = [.default none] := by
  rw [action, traitsFrom_keyword_plain source _ h.on (by decide),
    traitsFrom_keyword_plain source _ h.event (by decide),
    traitsFrom_keyword_plain source _ h.set (by decide),
    traitsFrom_default source h.keyword hdepth, Phrase.default?, traitsFrom]

theorem columnTraits (source : List Char) :
    columnTraits source 0 {} (m.before ++ m.action) = Script.columnTraits source 0 {} m.before := by
  obtain ⟨nesting, hnesting⟩ := h.seam.closed
  obtain ⟨depth, hdepth, hread⟩ :=
    traitsFrom_seam source 0 m.before ⟨nesting, by omega, hnesting⟩
  have hnone := defaultValue_foldl (default_not_mem source 0 m.before h.only) {}
  rw [columnTraits_eq_foldl, columnTraits_eq_foldl, hread h.seam,
    h.traitsFrom_action source hdepth, List.foldl_append, List.foldl_cons, List.foldl_nil]
  generalize (traitsFrom source 0 m.before).foldl ColumnTraits.add {} = traits at hnone
  obtain ⟨notNull, primaryKey, value, target, faults⟩ := traits
  obtain rfl : value = none := hnone
  rfl

theorem quiet_addColumn (source : List Char) (d : Draft) :
    (d.addColumn source m.clause).quiet = (d.addColumn source m.without).quiet := by
  simp only [Draft.quiet_addColumn, clause, without, column?, h.after, List.append_nil,
    h.columnTraits]

end DefaultAction.Occurs

/-- A default value that is read to its end changes the default of its column only, and an action
that sets the default at the end of a clause without default value changes nothing. -/
theorem quiet_addColumn_defaults (source : List Char) (d : Draft) :
    (∀ m : DefaultClause, m.Occurs → m.SetsDefault source d) ∧
      ∀ m : DefaultAction, m.Occurs →
        (d.addColumn source m.clause).quiet = (d.addColumn source m.without).quiet :=
  ⟨fun _ h => h.setsDefault source d, fun _ h => h.quiet_addColumn source d⟩

/-! ### A call and an action -/

def callText : List Char := "a INT UNIQUE DEFAULT f(1) NOT NULL".toList

def callDefault : DefaultClause where
  column := ⟨"a", .word, 0, 0⟩
  type := ⟨"INT", .word, 2, 4⟩
  before := [⟨"UNIQUE", .word, 6, 11⟩]
  keyword := ⟨"DEFAULT", .word, 13, 19⟩
  value := [⟨"f", .word, 21, 21⟩, ⟨"(", .punct, 22, 22⟩, ⟨"1", .number, 23, 23⟩,
    ⟨")", .punct, 24, 24⟩]
  after := [⟨"NOT", .word, 26, 28⟩, ⟨"NULL", .word, 30, 33⟩]

def lastText : List Char := "a INT REFERENCES t(c) ON DELETE SET DEFAULT".toList

def lastAction : DefaultAction where
  column := ⟨"a", .word, 0, 0⟩
  type := ⟨"INT", .word, 2, 4⟩
  before := [⟨"REFERENCES", .word, 6, 15⟩, ⟨"t", .word, 17, 17⟩, ⟨"(", .punct, 18, 18⟩,
    ⟨"c", .word, 19, 19⟩, ⟨")", .punct, 20, 20⟩]
  on := ⟨"ON", .word, 22, 23⟩
  event := ⟨"DELETE", .word, 25, 30⟩
  set := ⟨"SET", .word, 32, 34⟩
  keyword := ⟨"DEFAULT", .word, 36, 42⟩
  after := []

theorem lexemes_read :
    Dialect.lexemes .postgresql callText = .ok callDefault.clause ∧
      Dialect.lexemes .postgresql lastText = .ok lastAction.clause := by
  decide +kernel

theorem quiet_addColumn_defaults_call :
    (Dialect.lexemes .postgresql callText = .ok callDefault.clause ∧
      callDefault.SetsDefault callText ⟨"s", [], [], []⟩) ∧
    (Dialect.lexemes .postgresql lastText = .ok lastAction.clause ∧
      (Draft.addColumn lastText ⟨"s", [], [], []⟩ lastAction.clause).quiet =
        (Draft.addColumn lastText ⟨"s", [], [], []⟩ lastAction.without).quiet) := by
  have hinside : Balanced [⟨"1", .number, 23, 23⟩] := rfl
  have hgroup : Group (callDefault.value.drop 1) := .mk (by decide) hinside (by decide)
  have hvalue : Value callDefault.value :=
    .mk (e := callDefault.value) (.call rfl (by decide) hgroup) .nil
  have hcall : callDefault.Occurs := by
    refine ⟨by decide, by decide, by decide, ⟨⟨0, rfl⟩, by decide, by decide, by decide, ?_⟩, ?_⟩
    · exact .inl (by decide)
    · exact .inl ⟨hvalue, by decide, by decide⟩
  have hlast : lastAction.Occurs := by
    refine ⟨by decide, by decide, by decide, by decide, by decide, ?_, rfl⟩
    exact ⟨⟨0, rfl⟩, by decide, by decide, by decide, .inl (by decide)⟩
  exact ⟨⟨lexemes_read.1,
      (quiet_addColumn_defaults callText ⟨"s", [], [], []⟩).1 callDefault hcall⟩,
    lexemes_read.2, (quiet_addColumn_defaults lastText ⟨"s", [], [], []⟩).2 lastAction hlast⟩

/-! ### Values that are misread -/

/-- A string that spells a sign takes the next lexeme in. -/
def signText : List Char := "a TEXT DEFAULT '-' NOT NULL".toList

def signDefault : DefaultClause where
  column := ⟨"a", .word, 0, 0⟩
  type := ⟨"TEXT", .word, 2, 5⟩
  before := []
  keyword := ⟨"DEFAULT", .word, 7, 13⟩
  value := [⟨"-", .string, 15, 17⟩]
  after := [⟨"NOT", .word, 19, 21⟩, ⟨"NULL", .word, 23, 26⟩]

def negatedText : List Char := "a INT DEFAULT -(5)".toList

def negatedDefault : DefaultClause where
  column := ⟨"a", .word, 0, 0⟩
  type := ⟨"INT", .word, 2, 4⟩
  before := []
  keyword := ⟨"DEFAULT", .word, 6, 12⟩
  value := [⟨"-", .word, 14, 14⟩, ⟨"(", .punct, 15, 15⟩, ⟨"5", .number, 16, 16⟩,
    ⟨")", .punct, 17, 17⟩]
  after := []

def actionText : List Char := "a INT REFERENCES t(c) ON DELETE SET DEFAULT NOT NULL".toList

/-- The same action in front of another constraint. -/
def innerAction : DefaultAction :=
  { lastAction with after := [⟨"NOT", .word, 44, 46⟩, ⟨"NULL", .word, 48, 51⟩] }

theorem lexemes_misread :
    Dialect.lexemes .postgresql signText = .ok signDefault.clause ∧
      Dialect.lexemes .postgresql negatedText = .ok negatedDefault.clause ∧
      Dialect.lexemes .postgresql actionText = .ok innerAction.clause := by
  decide +kernel

theorem field_of_keep {name : String} {c c' : Column}
    (h : (⟨name, [], [], []⟩ : Draft).keep c = (⟨name, [], [], []⟩ : Draft).keep c') :
    c.field = c'.field := by
  simpa [Draft.keep] using congrArg Draft.fields h

/-- What a clause with a default value says, if it is not what it says without the value. -/
theorem DefaultClause.not_setsDefault {m : DefaultClause} {source : List Char}
    {traits traits' : ColumnTraits} (hname : m.column.isName = true)
    (hclause : columnTraits source 0 {} (m.before ++ m.keyword :: (m.value ++ m.after)) = traits)
    (hwithout : columnTraits source 0 {} (m.before ++ m.after) = traits')
    (hne : columnField m.column.identifier (typeText m.type) traits ≠
      { columnField m.column.identifier (typeText m.type) traits' with
        defaultValue := some (sourceText source m.value) }) (name : String) :
    ¬m.SetsDefault source ⟨name, [], [], []⟩ := by
  rintro ⟨c, hc, hc'⟩
  rw [without, quiet_addColumn_named source _ hname, hwithout] at hc
  rw [clause, quiet_addColumn_named source _ hname, hclause] at hc'
  have hfield : _ = c.field := field_of_keep hc
  have hfield' := field_of_keep hc'
  rw [Column.withDefault, ← hfield] at hfield'
  exact hne hfield'

theorem not_setsDefault_sign : ¬signDefault.SetsDefault signText ⟨"s", [], [], []⟩ := by
  have hvalue : default? signText (signDefault.value ++ signDefault.after) =
      (some "'-' NOT", [⟨"NULL", .word, 23, 26⟩]) := by decide
  have hclause : columnTraits signText 0 {} (signDefault.before ++
      signDefault.keyword :: (signDefault.value ++ signDefault.after)) =
        { defaultValue := some "'-' NOT" } := by
    rw [columnTraits_eq_foldl, show signDefault.before = [] from rfl, List.nil_append,
      traitsFrom_default signText (by decide) le_rfl, hvalue,
      traitsFrom_keyword_plain signText ["NULL"] (by decide) (by decide), traitsFrom]
    rfl
  have hnull : Constraint.Spells .notNull signDefault.after := .notNull (by decide) (by decide)
  have hwithout : columnTraits signText 0 {} (signDefault.before ++ signDefault.after) =
      { notNull := true } := by
    have hflat := traitsFrom_flatten signText (.cons hnull .nil)
    rw [List.flatten_singleton] at hflat
    rw [columnTraits_eq_foldl, show signDefault.before = [] from rfl, List.nil_append, hflat]
    rfl
  exact DefaultClause.not_setsDefault rfl hclause hwithout (by decide) "s"

theorem not_setsDefault_negated :
    ¬negatedDefault.SetsDefault negatedText ⟨"s", [], [], []⟩ := by
  have hvalue : default? negatedText (negatedDefault.value ++ negatedDefault.after) =
      (some "-(", [⟨"5", .number, 16, 16⟩, ⟨")", .punct, 17, 17⟩]) := by decide
  have hclause : columnTraits negatedText 0 {} (negatedDefault.before ++
      negatedDefault.keyword :: (negatedDefault.value ++ negatedDefault.after)) =
        { defaultValue := some "-(" } := by
    rw [columnTraits_eq_foldl, show negatedDefault.before = [] from rfl, List.nil_append,
      traitsFrom_default negatedText (by decide) le_rfl, hvalue]
    simp [traitsFrom, isOpening, isClosing, isPunct, isWord, ColumnTraits.add]
  have hwithout : columnTraits negatedText 0 {} (negatedDefault.before ++ negatedDefault.after) =
      {} := by
    rw [show negatedDefault.before ++ negatedDefault.after = [] from rfl, columnTraits]
  exact DefaultClause.not_setsDefault rfl hclause hwithout (by decide) "s"

theorem quiet_addColumn_innerAction :
    (Draft.addColumn actionText ⟨"s", [], [], []⟩ innerAction.clause).quiet ≠
      (Draft.addColumn actionText ⟨"s", [], [], []⟩ innerAction.without).quiet := by
  have hname : qualifiedName? ((innerAction.before.drop 1).take 1) = some ("t", []) := by decide
  have htarget : SpellsTarget ⟨"t", some "c"⟩ (innerAction.before.drop 1) :=
    .column hname (c := ⟨"c", .word, 19, 19⟩) (by decide) (by decide) (by decide)
  have hactions : ∀ action ∈ ([] : List (List Lexeme)), IsReferential action :=
    List.forall_mem_nil _
  have hbefore : Constraint.Spells (.reference ⟨"t", some "c"⟩) innerAction.before :=
    .reference (by decide) htarget hactions
  have hnull : Constraint.Spells .notNull innerAction.after := .notNull (by decide) (by decide)
  have hvalue : default? actionText innerAction.after =
      (some "NOT", [⟨"NULL", .word, 48, 51⟩]) := by decide
  have haction : traitsFrom actionText 0 (innerAction.action ++ innerAction.after) =
      [.default (some "NOT")] := by
    rw [show innerAction.action ++ innerAction.after = innerAction.on :: innerAction.event ::
      innerAction.set :: innerAction.keyword :: innerAction.after from rfl,
      traitsFrom_keyword_plain actionText ["ON"] (by decide) (by decide),
      traitsFrom_keyword_plain actionText ["DELETE"] (by decide) (by decide),
      traitsFrom_keyword_plain actionText ["SET"] (by decide) (by decide),
      traitsFrom_default actionText (by decide) le_rfl, hvalue,
      traitsFrom_keyword_plain actionText ["NULL"] (by decide) (by decide),
      traitsFrom]
  have hclause : columnTraits actionText 0 {}
      (innerAction.before ++ innerAction.action ++ innerAction.after) =
        { target := some ⟨"t", some "c"⟩, defaultValue := some "NOT" } := by
    have hon : innerAction.on.isWord ["ON"] = true := by decide
    have hat : AtConstraint (innerAction.action ++ innerAction.after) :=
      atConstraint_cons hon (by decide) _
    rw [columnTraits_eq_foldl, List.append_assoc, hbefore.traitsFrom actionText hat, haction]
    rfl
  have hwithout : columnTraits actionText 0 {} (innerAction.before ++ innerAction.after) =
      { target := some ⟨"t", some "c"⟩, notNull := true } := by
    have hflat := traitsFrom_flatten actionText (.cons hbefore (.cons hnull .nil))
    rw [List.flatten_cons, List.flatten_singleton] at hflat
    rw [columnTraits_eq_foldl, hflat]
    rfl
  intro h
  rw [DefaultAction.clause, DefaultAction.without, quiet_addColumn_named actionText _ rfl,
    quiet_addColumn_named actionText _ rfl, hclause, hwithout] at h
  exact absurd (field_of_keep h) (by decide)

/-- Three clauses whose default is not the one that is written: the sign of a string takes `NOT` in,
the sign of a group takes no more than its parenthesis, and `SET DEFAULT` has `NOT` for a value. -/
theorem addColumn_misread :
    (Dialect.lexemes .postgresql signText = .ok signDefault.clause ∧
      ¬signDefault.SetsDefault signText ⟨"s", [], [], []⟩) ∧
    (Dialect.lexemes .postgresql negatedText = .ok negatedDefault.clause ∧
      ¬negatedDefault.SetsDefault negatedText ⟨"s", [], [], []⟩) ∧
    (Dialect.lexemes .postgresql actionText = .ok innerAction.clause ∧
      (Draft.addColumn actionText ⟨"s", [], [], []⟩ innerAction.clause).quiet ≠
        (Draft.addColumn actionText ⟨"s", [], [], []⟩ innerAction.without).quiet) :=
  ⟨⟨lexemes_misread.1, not_setsDefault_sign⟩, ⟨lexemes_misread.2.1, not_setsDefault_negated⟩,
    lexemes_misread.2.2, quiet_addColumn_innerAction⟩

end Schemata.Script
