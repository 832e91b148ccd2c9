import Mathlib.Tactic
import Schemata.Schema.Document

/-!
# Saved schemas

A saved schema is loaded as it was, whichever of its two names each member of the document is
written with.
-/
namespace Schemata

deriving instance DecidableEq for Document.MemberName

namespace Document

/-! ## Names of members -/

/-- The members with two names. -/
def renamed : List MemberName :=
  [primaryKey, foreignKey, defaultValue, fromTable, fromField, toTable, toField]

/-- All members of documents, in the order that they are saved in. -/
def allNames : List MemberName :=
  ["name", "type", "nullable"].map plainName ++ renamed.take 3 ++
    ["fields", "table", "column"].map plainName ++ renamed.drop 3 ++
    ["tables", "relationships"].map plainName

/-- The names that a member can be written with instead of a given name. -/
def spellings (saved : String) : List String :=
  saved :: (renamed.filter (·.saved = saved)).map (·.other)

/-- A member is found under all of its spellings and under no spelling of another one. -/
theorem spells_iff : ∀ name ∈ allNames, ∀ saved ∈ allNames.map (·.saved),
    ∀ written ∈ spellings saved,
      (written = name.saved ∨ written = name.other) ↔ saved = name.saved := by
  decide +kernel

/-- Members with related values, whose names may be spelled differently. -/
inductive SameMember (R : Json → Json → Prop) : String × Json → String × Json → Prop
  | mk {saved written : String} {value value' : Json} (hname : written ∈ spellings saved)
    (hvalue : R value value') : SameMember R (saved, value) (written, value')

end Document

/-- Documents with the same values, where names of members may be spelled differently. -/
inductive Json.Respelled : Json → Json → Prop
  | refl (json : Json) : Respelled json json
  | array {items items' : List Json} (h : List.Forall₂ Respelled items items') :
    Respelled (.array items) (.array items')
  | object {members members' : List (String × Json)}
    (h : List.Forall₂ (Document.SameMember Respelled) members members') :
    Respelled (.object members) (.object members')

open Json (Respelled)

namespace Document

variable {members members' : List (String × Json)} {m : String × Json} {name : MemberName}
  {json value : Json} {α : Type} {decode : Json → Decoded α} {a default : α}

/-! ## Finding members -/

/-- Whether a name is one of the two that a member has. -/
def MemberName.Spells (name : MemberName) (written : String) : Prop :=
  written = name.saved ∨ written = name.other

/-- Members in the order of saved ones, and the same ones with other spellings. -/
structure Respells (members members' : List (String × Json)) : Prop where
  saved : (members.map (·.1)).Sublist (allNames.map (·.saved))
  same : List.Forall₂ (SameMember Respelled) members members'

theorem lookup_eq_some {found : String} (hmem : (found, value) ∈ members)
    (hone : ∀ m ∈ members, m.1 = found → m.2 = value) : Json.lookup members found = some value := by
  have hsome : (members.reverse.find? (·.1 = found)).isSome = true :=
    List.find?_isSome.mpr ⟨_, List.mem_reverse.mpr hmem, by simp⟩
  obtain ⟨m, hm⟩ := Option.isSome_iff_exists.mp hsome
  have hfound : m.1 = found := by simpa using List.find?_some hm
  rw [Json.lookup, hm, Option.map_some, hone m (List.mem_reverse.mp (List.mem_of_find?_eq_some hm))
    hfound]

theorem lookup_eq_none {found : String} (h : ∀ m ∈ members, m.1 ≠ found) :
    Json.lookup members found = none := by
  rw [Json.lookup, Option.map_eq_none_iff, List.find?_eq_none]
  exact fun m hm => by simpa using h m (List.mem_reverse.mp hm)

/-- The only member with one of two names is found under either name. -/
theorem find?_eq_some (hmem : m ∈ members) (hname : name.Spells m.1)
    (hone : ∀ n ∈ members, name.Spells n.1 → n = m) :
    find? members name = some m := by
  by_cases hsaved : m.1 = name.saved
  · have hlookup : Json.lookup members name.saved = some m.2 :=
      lookup_eq_some (hsaved ▸ hmem) fun n hn he => by rw [hone n hn (.inl he)]
    rw [find?, hlookup, ← hsaved]
  · have hother : m.1 = name.other := hname.resolve_left hsaved
    have hnone : Json.lookup members name.saved = none :=
      lookup_eq_none fun n hn he => hsaved (hone n hn (.inl he) ▸ he)
    have hlookup : Json.lookup members name.other = some m.2 :=
      lookup_eq_some (hother ▸ hmem) fun n hn he => by rw [hone n hn (.inr he)]
    rw [find?, hnone, hlookup, ← hother]
    rfl

theorem find?_eq_none (h : ∀ m ∈ members, ¬name.Spells m.1) : find? members name = none := by
  rw [find?, lookup_eq_none fun m hm he => h m hm (.inl he),
    lookup_eq_none fun m hm he => h m hm (.inr he)]
  rfl

namespace Respells

theorem tail {ms ms' : List (String × Json)} {m' : String × Json}
    (h : Respells (m :: ms) (m' :: ms')) : Respells ms ms' :=
  ⟨(List.sublist_cons_self m.1 _).trans h.saved, (List.forall₂_cons.mp h.same).2⟩

theorem head {ms ms' : List (String × Json)} {m' : String × Json}
    (h : Respells (m :: ms) (m' :: ms')) (hname : name ∈ allNames) :
    name.Spells m'.1 ↔ m.1 = name.saved := by
  cases (List.forall₂_cons.mp h.same).1 with
  | mk hspelled _ => exact spells_iff name hname _ (h.saved.subset List.mem_cons_self) _ hspelled

/-- A member that is not there is not there under other spellings. -/
theorem not_spells (h : Respells members members') (hname : name ∈ allNames)
    (hnone : name.saved ∉ members.map (·.1)) : ∀ m' ∈ members', ¬name.Spells m'.1 := by
  have hsame := h.same
  induction hsame with
  | nil => exact List.forall_mem_nil _
  | @cons m m' ms ms' _ _ ih =>
    rw [List.map_cons, List.mem_cons, not_or] at hnone
    exact List.forall_mem_cons.mpr
      ⟨fun hspelled => hnone.1 ((h.head hname).mp hspelled).symm, ih h.tail hnone.2⟩

/-- A member that is there is found, with what its value is written as. -/
theorem exists_find? (h : Respells members members') (hname : name ∈ allNames)
    (hmem : (name.saved, value) ∈ members) :
    ∃ found value', find? members' name = some (found, value') ∧ Respelled value value' := by
  -- written members are told apart by the saved names that they stand for, which are distinct
  suffices hone : ∃ m' ∈ members', name.Spells m'.1 ∧ Respelled value m'.2 ∧
      ∀ n ∈ members', name.Spells n.1 → n = m' by
    obtain ⟨m', hm', hspelled, hvalue, hall⟩ := hone
    exact ⟨m'.1, m'.2, find?_eq_some hm' hspelled hall, hvalue⟩
  have hdistinct : (members.map (·.1)).Nodup := h.saved.nodup (by decide +kernel)
  have hsame := h.same
  induction hsame with
  | nil => cases hmem
  | @cons m m' ms ms' hm _ ih =>
    obtain ⟨hnew, hdistinct⟩ := List.nodup_cons.mp hdistinct
    rcases List.mem_cons.mp hmem with rfl | hmem
    · have hspelled := (h.head hname).mpr rfl
      have hrest := h.tail.not_spells hname hnew
      cases hm with
      | mk _ hvalue =>
        refine ⟨_, List.mem_cons_self, hspelled, hvalue, fun n hn hns => ?_⟩
        exact (List.mem_cons.mp hn).resolve_right fun hn => hrest n hn hns
    · have hother : ¬name.Spells m'.1 := fun hspelled =>
        hnew (List.mem_map.mpr ⟨_, hmem, ((h.head hname).mp hspelled).symm⟩)
      obtain ⟨n, hn, hspelled, hvalue, hall⟩ := ih h.tail hmem hdistinct
      refine ⟨n, List.mem_cons_of_mem m' hn, hspelled, hvalue, fun k hk hks => ?_⟩
      rcases List.mem_cons.mp hk with rfl | hk
      · exact absurd hks hother
      · exact hall k hk hks

theorem required (h : Respells members members') (hname : name ∈ allNames)
    (hmem : (name.saved, value) ∈ members)
    (hdecode : ∀ value', Respelled value value' → decode value' = .ok a) :
    required members' name decode = .ok a := by
  obtain ⟨found, value', hfound, hvalue⟩ := h.exists_find? hname hmem
  rw [Document.required, hfound]
  simp only [hdecode value' hvalue, Decoded.under]

theorem withDefault (h : Respells members members') (hname : name ∈ allNames)
    (hmem : (name.saved, value) ∈ members)
    (hdecode : ∀ value', Respelled value value' → decode value' = .ok a) :
    withDefault members' name default decode = .ok a := by
  obtain ⟨found, value', hfound, hvalue⟩ := h.exists_find? hname hmem
  rw [Document.withDefault, hfound]
  simp only [hdecode value' hvalue, Decoded.under]

theorem withDefault_missing (h : Respells members members') (hname : name ∈ allNames)
    (hnone : name.saved ∉ members.map (·.1)) :
    Document.withDefault members' name default decode = .ok default := by
  rw [Document.withDefault, find?_eq_none (h.not_spells hname hnone)]

end Respells

/-! ## Loading what was saved -/

theorem string_respelled {s : String} (h : Respelled (.string s) json) : string json = .ok s := by
  cases h
  rfl

theorem bool_respelled {b : Bool} (h : Respelled (.bool b) json) : bool json = .ok b := by
  cases h
  rfl

theorem object_respelled {decode : List (String × Json) → Decoded α}
    (h : Respelled (.object members) json)
    (hsaved : (members.map (·.1)).Sublist (allNames.map (·.saved)))
    (hdecode : ∀ members', Respells members members' → decode members' = .ok a) :
    object decode json = .ok a := by
  cases h with
  | refl =>
    exact hdecode members ⟨hsaved, List.forall₂_same.mpr fun m _ => ⟨List.mem_cons_self, .refl m.2⟩⟩
  | object h => exact hdecode _ ⟨hsaved, h⟩

theorem itemsFrom_respelled {toJson : α → Json} {as : List α} {items : List Json}
    (hdecode : ∀ a ∈ as, ∀ json, Respelled (toJson a) json → decode json = .ok a)
    (h : List.Forall₂ Respelled (as.map toJson) items) (position : Nat) :
    itemsFrom decode position items = .ok as := by
  induction as generalizing items position with
  | nil =>
    cases h
    rfl
  | cons a as ih =>
    cases h with
    | cons hitem hitems =>
      have hfirst := hdecode a List.mem_cons_self _ hitem
      have hrest := ih (fun b hb => hdecode b (List.mem_cons_of_mem a hb)) hitems (position + 1)
      rw [itemsFrom, hfirst, hrest]
      rfl

theorem list_respelled {toJson : α → Json} {as : List α}
    (hdecode : ∀ a ∈ as, ∀ json, Respelled (toJson a) json → decode json = .ok a)
    (h : Respelled (.array (as.map toJson)) json) : list decode json = .ok as := by
  cases h with
  | refl =>
    exact itemsFrom_respelled hdecode (List.forall₂_same.mpr fun json _ => .refl json) 0
  | array h => exact itemsFrom_respelled hdecode h 0

/-- A value that is left out where it is missing. -/
theorem optional_respelled {toJson : α → Json} {value? : Option α} (h : Respells members members')
    (hname : name ∈ allNames) (hmem : ∀ a ∈ value?, (name.saved, toJson a) ∈ members)
    (hnone : value? = none → name.saved ∉ members.map (·.1))
    (hdecode : ∀ a json, Respelled (toJson a) json → json ≠ .null ∧ decode json = .ok a) :
    withDefault members' name none (optional decode) = .ok value? := by
  cases value? with
  | none => exact h.withDefault_missing hname (hnone rfl)
  | some a =>
    refine h.withDefault hname (hmem a rfl) fun json hjson => ?_
    obtain ⟨hvalue, hdecoded⟩ := hdecode a json hjson
    rw [optional, hdecoded]
    · rfl
    · exact hvalue

theorem reference_respelled {r : Reference} (h : Respelled r.toJson json) :
    reference json = .ok r := by
  refine object_respelled h (by decide : ["table", "column"].Sublist _) fun members hm => ?_
  have htable : required members (plainName "table") string = .ok r.table :=
    hm.required (by decide) (.head _) fun _ => string_respelled
  have hcolumn : required members (plainName "column") string = .ok r.column :=
    hm.required (by decide) (.tail _ (.head _)) fun _ => string_respelled
  rw [htable, hcolumn]
  rfl

theorem relationship_respelled {r : Relationship} (h : Respelled r.toJson json) :
    relationship json = .ok r := by
  refine object_respelled h
    (by decide : ["fromTable", "fromField", "toTable", "toField"].Sublist _) fun members hm => ?_
  have hfromTable : required members fromTable string = .ok r.fromTable :=
    hm.required (by decide) (.head _) fun _ => string_respelled
  have hfromField : required members fromField string = .ok r.fromField :=
    hm.required (by decide) (.tail _ (.head _)) fun _ => string_respelled
  have htoTable : required members toTable string = .ok r.toTable :=
    hm.required (by decide) (.tail _ (.tail _ (.head _))) fun _ => string_respelled
  have htoField : required members toField string = .ok r.toField :=
    hm.required (by decide) (.tail _ (.tail _ (.tail _ (.head _)))) fun _ => string_respelled
  rw [hfromTable, hfromField, htoTable, htoField]
  rfl

/-- The members that a column is saved with. -/
def fieldMembers (f : Field) : List (String × Json) :=
  [("name", .string f.name), ("type", .string f.type), ("nullable", .bool f.nullable),
   ("primaryKey", .bool f.primaryKey)] ++
  (f.foreignKey.map fun r => ("foreignKey", r.toJson)).toList ++
  (f.defaultValue.map fun v => ("defaultValue", Json.string v)).toList

theorem names_fieldMembers (f : Field) : (fieldMembers f).map (·.1) =
    ["name", "type", "nullable", "primaryKey"] ++
      (if f.foreignKey.isSome then ["foreignKey"] else []) ++
      if f.defaultValue.isSome then ["defaultValue"] else [] := by
  rw [fieldMembers]
  cases f.foreignKey <;> cases f.defaultValue <;> rfl

theorem field_respelled {f : Field} (h : Respelled f.toJson json) : field json = .ok f := by
  have hsaved : ((fieldMembers f).map (·.1)).Sublist (allNames.map (·.saved)) := by
    rw [names_fieldMembers]
    cases f.foreignKey.isSome <;> cases f.defaultValue.isSome <;> decide
  have hdocument : f.toJson = .object (fieldMembers f) := rfl
  rw [hdocument] at h
  refine object_respelled h hsaved fun members hm => ?_
  have hname : required members (plainName "name") string = .ok f.name :=
    hm.required (by decide) (.head _) fun _ => string_respelled
  have htype : withDefault members (plainName "type") "text" string = .ok f.type :=
    hm.withDefault (by decide) (.tail _ (.head _)) fun _ => string_respelled
  have hnullable : withDefault members (plainName "nullable") true bool = .ok f.nullable :=
    hm.withDefault (by decide) (.tail _ (.tail _ (.head _))) fun _ => bool_respelled
  have hkey : withDefault members primaryKey false bool = .ok f.primaryKey :=
    hm.withDefault (by decide) (.tail _ (.tail _ (.tail _ (.head _)))) fun _ => bool_respelled
  have hforeign : withDefault members foreignKey none (optional reference) = .ok f.foreignKey := by
    refine optional_respelled hm (by decide) (fun r hr => ?_) (fun hnone => ?_)
      fun r json hjson => ⟨?_, reference_respelled hjson⟩
    · have hmap : f.foreignKey.map (fun r => ("foreignKey", r.toJson)) =
          some ("foreignKey", r.toJson) := by rw [Option.mem_def.mp hr]; rfl
      rw [fieldMembers, hmap]
      simp [foreignKey]
    · rw [names_fieldMembers, hnone]
      cases f.defaultValue.isSome <;> decide
    · cases hjson <;> exact Json.noConfusion
  have hdefault : withDefault members defaultValue none (optional string) = .ok f.defaultValue := by
    refine optional_respelled hm (by decide) (fun v hv => ?_) (fun hnone => ?_)
      fun v json hjson => ⟨?_, string_respelled hjson⟩
    · rw [fieldMembers, Option.mem_def.mp hv]
      simp [defaultValue]
    · rw [names_fieldMembers, hnone]
      cases f.foreignKey.isSome <;> decide
    · cases hjson
      exact Json.noConfusion
  rw [hname, htype, hnullable, hkey, hforeign, hdefault]
  rfl

theorem table_respelled {t : Table} (h : Respelled t.toJson json) : table json = .ok t := by
  refine object_respelled h (by decide : ["name", "fields"].Sublist _) fun members hm => ?_
  have hname : required members (plainName "name") string = .ok t.name :=
    hm.required (by decide) (.head _) fun _ => string_respelled
  have hfields : withDefault members (plainName "fields") [] (list field) = .ok t.fields :=
    hm.withDefault (by decide) (.tail _ (.head _)) fun _ =>
      list_respelled fun _ _ _ => field_respelled
  rw [hname, hfields]
  rfl

/-- A saved schema is loaded as it was, however its members are spelled. -/
theorem schema_respelled {s : Schema} (h : Respelled s.toJson json) : schema json = .ok s := by
  refine object_respelled h (by decide : ["tables", "relationships"].Sublist _) fun members hm => ?_
  have htables : withDefault members (plainName "tables") [] (list table) = .ok s.tables :=
    hm.withDefault (by decide) (.head _) fun _ => list_respelled fun _ _ _ => table_respelled
  have hrelationships : withDefault members (plainName "relationships") [] (list relationship) =
      .ok s.relationships :=
    hm.withDefault (by decide) (.tail _ (.head _)) fun _ =>
      list_respelled fun _ _ _ => relationship_respelled
  rw [htables, hrelationships]
  rfl

end Document

end Schemata
