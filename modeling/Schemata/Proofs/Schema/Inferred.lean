import Mathlib.Data.List.ReduceOption
import Mathlib.Tactic
import Schemata.Proofs.Schema.Linking

/-!
# What is inferred

The fields have their turns in table and field order. A field without a reference, that is no
primary key and is called `stem_id`, gains a link to the table that its stem stands for: of the
names that go with the stem, the one whose first table with a primary key comes first. It is passed
over if a relationship between the same names is there already, an inferred one included. Names may
be repeated and references may be out of step; nothing but these links is ever added.
-/
namespace Schemata

/-! ## Names and stems -/

/-- A table name goes with the stem of a field name: without one `s`, or as it is, the name is the
stem, up to one `s` or `_id` behind either. -/
def Suits (table stem : String) : Prop :=
  ∃ name, (name = table ∨ name ++ "s" = table) ∧
    (name = stem ∨ name = stem ++ "s" ∨ name = stem ++ "_id" ∨ stem = name ++ "_id")

theorem before?_eq_some_iff_append {ending : List Char} {text opening : String} :
    Text.before? ending text.toList = some opening.toList ↔
      opening ++ String.ofList ending = text := by
  rw [Text.before?_eq_some_iff, ← String.toList_inj, String.toList_append, String.toList_ofList,
    eq_comm]

/-- The singular is the name without one `s`, if it ends in one. -/
theorem eq_singular_iff {table name : String} :
    name = table ∨ name = singular table ↔ name = table ∨ name ++ "s" = table := by
  have hends : ∀ stem : String, Text.before? ['s'] table.toList = some stem.toList ↔
      stem ++ "s" = table := fun _ => before?_eq_some_iff_append
  rw [singular]
  cases hstem : Text.before? ['s'] table.toList with
  | none =>
    have hnot : name ++ "s" ≠ table := fun h => by
      rw [(hends name).mpr h] at hstem
      cases hstem
    simp [hnot]
  | some stem =>
    have hname : name ++ "s" = table ↔ name = String.ofList stem := by
      rw [← hends, hstem, Option.some.injEq, ← String.toList_inj, String.toList_ofList, eq_comm]
    rw [hname]

theorem append_id_ne_append_s (name stem : String) : name ++ "_id" ≠ stem ++ "s" := by
  intro h
  have hlast := congrArg (fun text : String => text.toList.getLast?) h
  simp at hlast

theorem referenceStem?_eq_some_iff {field stem : String} :
    referenceStem? field = some stem ↔ field = stem ++ "_id" ∧ stem ≠ "" := by
  have hends : ∀ stem : String, Text.before? ['_', 'i', 'd'] field.toList = some stem.toList ↔
      stem ++ "_id" = field := fun _ => before?_eq_some_iff_append
  rw [referenceStem?, @eq_comm _ field, ← hends]
  cases Text.before? ['_', 'i', 'd'] field.toList with
  | none => simp
  | some cs =>
    cases cs with
    | nil =>
      simp only [Option.some.injEq, reduceCtorEq, false_iff, not_and, not_not]
      exact fun h => String.toList_inj.mp h.symm
    | cons c cs =>
      simp only [Option.some.injEq]
      rw [← String.toList_inj, String.toList_ofList]
      refine ⟨fun h => ⟨h, ?_⟩, fun h => h.1⟩
      rintro rfl
      cases h

theorem mem_nameVariations {table variation : String} :
    variation ∈ nameVariations table ↔ ∃ name, (name = table ∨ name ++ "s" = table) ∧
      (variation = name ∨ variation = name ++ "_id") := by
  simp only [← eq_singular_iff, nameVariations, List.mem_cons, List.not_mem_nil, or_false]
  constructor
  · rintro (h | h | h | h)
    · exact ⟨table, Or.inl rfl, Or.inl h⟩
    · exact ⟨singular table, Or.inr rfl, Or.inl h⟩
    · exact ⟨table, Or.inl rfl, Or.inr h⟩
    · exact ⟨singular table, Or.inr rfl, Or.inr h⟩
  · rintro ⟨name, rfl | rfl, rfl | rfl⟩ <;> simp

theorem Candidate.fits_iff {c : Candidate} {stem : String} :
    c.fits stem = true ↔ Suits c.table stem := by
  simp only [fits, List.any_eq_true, Bool.or_eq_true, decide_eq_true_eq, or_assoc]
  constructor
  · rintro ⟨variation, hvariation, hfits⟩
    obtain ⟨name, hname, rfl | rfl⟩ := mem_nameVariations.mp hvariation
    · refine ⟨variation, hname, ?_⟩
      rcases hfits with h | h | h <;> simp [h]
    · rcases hfits with h | h | h
      · exact ⟨name, hname, Or.inr (Or.inr (Or.inr h.symm))⟩
      · exact absurd h (append_id_ne_append_s name stem)
      · exact ⟨name, hname, Or.inl ((String.append_left_inj _).mp h)⟩
  · rintro ⟨name, hname, h | h | h | h⟩
    · exact ⟨name, mem_nameVariations.mpr ⟨name, hname, Or.inl rfl⟩, Or.inl h⟩
    · exact ⟨name, mem_nameVariations.mpr ⟨name, hname, Or.inl rfl⟩, Or.inr (Or.inl h)⟩
    · exact ⟨name, mem_nameVariations.mpr ⟨name, hname, Or.inl rfl⟩, Or.inr (Or.inr h)⟩
    · exact ⟨_, mem_nameVariations.mpr ⟨name, hname, Or.inr rfl⟩, Or.inl h.symm⟩

/-! ## Tables that stems stand for -/

/-- A table with a primary key, behind tables none of which has its name and a primary key. -/
def Leads (before : List Table) (t : Table) : Prop :=
  t.primaryKey?.isSome ∧ ∀ u ∈ before, u.name = t.name → u.primaryKey? = none

/-- A stem stands for a table with its first primary key: the table leads those of its name, its
name goes with the stem, and no table before it does both. -/
structure StandsFor (ts : List Table) (stem : String) (t : Table) (key : Field) : Prop where
  key : t.primaryKey? = some key
  suits : Suits t.name stem
  first : ∃ before after, ts = before ++ t :: after ∧ Leads before t ∧
    ∀ earlier u later, before = earlier ++ u :: later → Leads earlier u → ¬Suits u.name stem

/-- Whether a table has a primary key and a name that goes with a stem. -/
def Table.answers (stem : String) (t : Table) : Bool :=
  t.primaryKey?.isSome && Candidate.fits ⟨t.name, ""⟩ stem

theorem Table.answers_iff {stem : String} {t : Table} :
    t.answers stem = true ↔ t.primaryKey?.isSome ∧ Suits t.name stem := by
  rw [answers, Bool.and_eq_true, Candidate.fits_iff]

namespace Schema

/-- Tables of a name that does not fit may be left out, so that all of a name are as good as the
first. -/
theorem find?_candidatesOf (stem : String) (ts : List Table) :
    (candidatesOf ts).find? (·.fits stem) =
      (ts.find? (·.answers stem)).bind fun t =>
        t.primaryKey?.map fun key => ⟨t.name, key.name⟩ := by
  induction ts with
  | nil => rfl
  | cons t ts ih =>
    rw [candidatesOf, List.find?_cons]
    cases hkey : t.primaryKey? with
    | none => simpa [Table.answers, hkey] using ih
    | some key =>
      have hanswers : t.answers stem = Candidate.fits ⟨t.name, ""⟩ stem := by
        rw [Table.answers, hkey]
        rfl
      have hfits : Candidate.fits ⟨t.name, key.name⟩ stem = Candidate.fits ⟨t.name, ""⟩ stem := rfl
      simp only [List.find?_cons, hanswers, hfits]
      cases hsuits : Candidate.fits ⟨t.name, ""⟩ stem with
      | true => simp [hkey]
      | false =>
        simp only [List.find?_filter, ← ih]
        refine List.find?_congr fun c _ => ?_
        -- a candidate of this name would fit as little as the table
        cases hc : c.fits stem with
        | false => simp
        | true =>
          have hname : c.table ≠ t.name := fun hsame => by
            rw [Candidate.fits_iff, hsame] at hc
            rw [← Bool.not_eq_true, Candidate.fits_iff] at hsuits
            exact hsuits hc
          simp [hname]

theorem leads_of_mem {before : List Table} {u : Table} (hu : u ∈ before)
    (hkey : u.primaryKey?.isSome) :
    ∃ earlier v later, before = earlier ++ v :: later ∧ Leads earlier v ∧ v.name = u.name := by
  obtain ⟨v, hv⟩ := Option.isSome_iff_exists.mp
    (List.find?_isSome.mpr ⟨u, hu, by simp [hkey]⟩ :
      (before.find? fun v => decide (v.name = u.name) && v.primaryKey?.isSome).isSome)
  obtain ⟨hsame, earlier, later, rfl, hearlier⟩ := List.find?_eq_some_iff_append.mp hv
  simp only [Bool.and_eq_true, decide_eq_true_eq] at hsame
  refine ⟨earlier, v, later, rfl, ⟨hsame.2, fun w hw hname => ?_⟩, hsame.1⟩
  have hnot := hearlier w hw
  simpa [hname, hsame.1] using hnot

/-- A field is linked to the table that its stem stands for. -/
theorem find?_candidatesOf_eq_some_iff {stem : String} {ts : List Table} {c : Candidate} :
    (candidatesOf ts).find? (·.fits stem) = some c ↔
      ∃ t key, StandsFor ts stem t key ∧ c = ⟨t.name, key.name⟩ := by
  rw [find?_candidatesOf, Option.bind_eq_some_iff]
  constructor
  · rintro ⟨t, ht, hc⟩
    obtain ⟨key, hkey, rfl⟩ := Option.map_eq_some_iff.mp hc
    obtain ⟨hanswers, before, after, rfl, hbefore⟩ := List.find?_eq_some_iff_append.mp ht
    obtain ⟨hsome, hsuits⟩ := Table.answers_iff.mp hanswers
    have hnone : ∀ u ∈ before, u.primaryKey?.isSome → ¬Suits u.name stem := by
      intro u hu hsome hsuits
      have hnot := hbefore u hu
      rw [Table.answers_iff.mpr ⟨hsome, hsuits⟩] at hnot
      cases hnot
    refine ⟨t, key, ⟨hkey, hsuits, before, after, rfl, ⟨hsome, fun u hu hname => ?_⟩, ?_⟩, rfl⟩
    · by_contra hother
      exact hnone u hu (Option.isSome_iff_ne_none.mpr hother) (hname ▸ hsuits)
    · rintro earlier u later rfl hleads
      exact hnone u (by simp) hleads.1
  · rintro ⟨t, key, ⟨hkey, hsuits, before, after, rfl, hleads, hfirst⟩, rfl⟩
    refine ⟨t, List.find?_eq_some_iff_append.mpr ⟨Table.answers_iff.mpr ⟨hleads.1, hsuits⟩,
      before, after, rfl, fun u hu => ?_⟩, by rw [hkey]; rfl⟩
    by_contra hanswers
    obtain ⟨hsome, husuits⟩ := Table.answers_iff.mp (by simpa using hanswers)
    obtain ⟨earlier, v, later, hsplit, hv, hname⟩ := leads_of_mem hu hsome
    exact hfirst earlier v later hsplit hv (hname ▸ husuits)

/-! ## One field -/

/-- A field gains a relationship, given those that are there when it has its turn. -/
structure Gains (ts : List Table) (known : List Relationship) (table : String) (f : Field)
    (r : Relationship) : Prop where
  unlinked : f.foreignKey = none
  notKey : f.primaryKey = false
  target : ∃ stem t key, f.name = stem ++ "_id" ∧ stem ≠ "" ∧ StandsFor ts stem t key ∧
    r = ⟨table, f.name, t.name, key.name⟩
  new : ∀ k ∈ known, ¬(k.fromTable = table ∧ k.fromField = f.name ∧ k.toTable = r.toTable)

theorem candidate?_eq_some_iff {ts : List Table} {f : Field} {c : Candidate} :
    candidate? (candidatesOf ts) f = some c ↔
      f.foreignKey = none ∧ f.primaryKey = false ∧ ∃ stem t key, f.name = stem ++ "_id" ∧
        stem ≠ "" ∧ StandsFor ts stem t key ∧ c = ⟨t.name, key.name⟩ := by
  rw [candidate?]
  split
  · next h =>
    simp only [Bool.or_eq_true] at h
    refine iff_of_false (by simp) ?_
    rintro ⟨hnone, hkey, -⟩
    simp [hnone, hkey] at h
  · next h =>
    simp only [Bool.or_eq_true, not_or, Bool.not_eq_true, Option.isSome_eq_false_iff,
      Option.isNone_iff_eq_none] at h
    simp only [h, true_and, Option.bind_eq_some_iff, referenceStem?_eq_some_iff,
      find?_candidatesOf_eq_some_iff, and_assoc, exists_and_left]

theorem newLink?_eq_some_iff {ts : List Table} {table : String} {known : List Relationship}
    {f : Field} {r : Relationship} :
    newLink? (candidatesOf ts) table known f = some r ↔ Gains ts known table f r := by
  rw [newLink?]
  constructor
  · intro h
    split at h
    · cases h
    · next c hc =>
      obtain ⟨hnone, hkey, stem, t, key, hname, hne, hstands, rfl⟩ := candidate?_eq_some_iff.mp hc
      split at h
      · cases h
      · next hfree =>
        cases h
        refine ⟨hnone, hkey, ⟨stem, t, key, hname, hne, hstands, rfl⟩, fun k hk hsame => hfree ?_⟩
        exact List.any_eq_true.mpr ⟨k, hk, by simp [hsame]⟩
  · rintro ⟨hnone, hkey, ⟨stem, t, key, hname, hne, hstands, rfl⟩, hnew⟩
    have hc : candidate? (candidatesOf ts) f = some ⟨t.name, key.name⟩ :=
      candidate?_eq_some_iff.mpr ⟨hnone, hkey, stem, t, key, hname, hne, hstands, rfl⟩
    have hfree : (known.any fun k =>
        k.fromTable = table && k.fromField = f.name && k.toTable = t.name) = false := by
      rw [List.any_eq_false]
      intro k hk
      simpa [and_assoc] using hnew k hk
    simp only [hc, hfree, Bool.false_eq_true, if_false]

/-! ## All fields in their turns -/

/-- What the fields of a schema gain, one after the other: at most one relationship each, and what
is gained is known to the fields that follow. -/
inductive Gained (ts : List Table) :
    List Relationship → List (Table × Field) → List (Option Relationship) → Prop
  | nil (known : List Relationship) : Gained ts known [] []
  | linked {known : List Relationship} {t : Table} {f : Field} {r : Relationship}
    {entries : List (Table × Field)} {gains : List (Option Relationship)}
    (h : Gains ts known t.name f r) (hrest : Gained ts (known ++ [r]) entries gains) :
    Gained ts known ((t, f) :: entries) (some r :: gains)
  | passed {known : List Relationship} {t : Table} {f : Field}
    {entries : List (Table × Field)} {gains : List (Option Relationship)}
    (h : ∀ r, ¬Gains ts known t.name f r) (hrest : Gained ts known entries gains) :
    Gained ts known ((t, f) :: entries) (none :: gains)

namespace Gained

variable {ts : List Table} {known : List Relationship} {entries more : List (Table × Field)}
  {gains gains' : List (Option Relationship)}

theorem length_eq (h : Gained ts known entries gains) : entries.length = gains.length := by
  induction h with
  | nil => rfl
  | linked _ _ ih => exact congrArg (· + 1) ih
  | passed _ _ ih => exact congrArg (· + 1) ih

theorem append (h : Gained ts known entries gains)
    (hmore : Gained ts (known ++ gains.reduceOption) more gains') :
    Gained ts known (entries ++ more) (gains ++ gains') := by
  induction h with
  | nil => simpa using hmore
  | linked hr _ ih => exact linked hr (ih (by simpa [List.reduceOption_cons_of_some] using hmore))
  | passed hr _ ih => exact passed hr (ih (by simpa [List.reduceOption_cons_of_none] using hmore))

end Gained

/-- The reference of a field when it has had its turn. -/
def referenceAfter (entry : Table × Field) (gain : Option Relationship) : Option Reference :=
  (gain.map (·.target)).or entry.2.foreignKey

theorem exists_gained_linkFields (ts : List Table) (t : Table) (known : List Relationship)
    (fs : List Field) :
    ∃ gains, Gained ts known (fs.map (t, ·)) gains ∧
      (linkFields (candidatesOf ts) t.name known fs).2 = gains.reduceOption ∧
      (linkFields (candidatesOf ts) t.name known fs).1.map (·.foreignKey) =
        List.zipWith referenceAfter (fs.map (t, ·)) gains := by
  induction fs generalizing known with
  | nil => exact ⟨[], Gained.nil known, rfl, rfl⟩
  | cons f fs ih =>
    rw [linkFields]
    cases hnew : newLink? (candidatesOf ts) t.name known f with
    | none =>
      obtain ⟨gains, hgained, hlinks, hreferences⟩ := ih known
      have hpassed : ∀ r, ¬Gains ts known t.name f r := fun r hr => by
        rw [newLink?_eq_some_iff.mpr hr] at hnew
        cases hnew
      refine ⟨none :: gains, Gained.passed hpassed hgained, ?_, ?_⟩
      · rw [List.reduceOption_cons_of_none, ← hlinks]
      · rw [List.map_cons, List.map_cons, List.zipWith_cons_cons, ← hreferences]
        rfl
    | some r =>
      obtain ⟨gains, hgained, hlinks, hreferences⟩ := ih (known ++ [r])
      refine ⟨some r :: gains, Gained.linked (newLink?_eq_some_iff.mp hnew) hgained, ?_, ?_⟩
      · rw [List.reduceOption_cons_of_some, ← hlinks]
      · rw [List.map_cons, List.map_cons, List.zipWith_cons_cons, ← hreferences]
        rfl

theorem exists_gained_linkTables (ts us : List Table) (known : List Relationship) :
    ∃ gains, Gained ts known (us.flatMap fun t => t.fields.map (t, ·)) gains ∧
      (linkTables (candidatesOf ts) known us).2 = gains.reduceOption ∧
      ((linkTables (candidatesOf ts) known us).1.flatMap fun t => t.fields.map (·.foreignKey)) =
        List.zipWith referenceAfter (us.flatMap fun t => t.fields.map (t, ·)) gains := by
  induction us generalizing known with
  | nil => exact ⟨[], Gained.nil known, rfl, rfl⟩
  | cons t us ih =>
    obtain ⟨gains, hgained, hlinks, hreferences⟩ := exists_gained_linkFields ts t known t.fields
    obtain ⟨gains', hgained', hlinks', hreferences'⟩ := ih (known ++ gains.reduceOption)
    refine ⟨gains ++ gains', hgained.append hgained', ?_, ?_⟩
    · rw [linkTables, List.reduceOption_append, ← hlinks', hlinks]
    · rw [linkTables, List.flatMap_cons, List.flatMap_cons, List.zipWith_append hgained.length_eq,
        ← hreferences, ← hreferences', hlinks]

/-- What is inferred is what the fields gain in their turns. It is added behind the relationships
that were there, the fields that gain something refer to it, and nothing else changes. -/
theorem infer_gained (s : Schema) :
    ∃ gains, Gained s.tables s.relationships s.fields gains ∧
      s.inferred = gains.reduceOption ∧
      s.infer.relationships = s.relationships ++ gains.reduceOption ∧
      s.infer.fields.map (·.2.foreignKey) = List.zipWith referenceAfter s.fields gains ∧
      s.infer.tables.map Table.unlinked = s.tables.map Table.unlinked := by
  obtain ⟨gains, hgained, hlinks, hreferences⟩ :=
    exists_gained_linkTables s.tables s.tables s.relationships
  refine ⟨gains, hgained, hlinks, congrArg _ hlinks, ?_, s.unlinked_infer⟩
  have hmap : s.infer.fields.map (·.2.foreignKey) =
      s.infer.tables.flatMap fun t => t.fields.map (·.foreignKey) := by
    simp [fields, List.map_flatMap, Function.comp_def]
  exact hmap.trans hreferences

/-! ## A second run -/

/-- Nothing can be inferred exactly if no field would gain a relationship now. -/
theorem inferred_eq_nil_iff_not_gains {s : Schema} :
    s.inferred = [] ↔
      ∀ t ∈ s.tables, ∀ f ∈ t.fields, ∀ r, ¬Gains s.tables s.relationships t.name f r := by
  simp only [inferred_eq_nil_iff, Option.eq_none_iff_forall_ne_some, ne_eq, newLink?_eq_some_iff]

/-- What a second run could add has been added by the first, whatever names are repeated and
whatever is out of step: it finds nothing and leaves the schema as it is. No field is left that
would gain a relationship, wherever it has its turn. -/
theorem infer_infer (s : Schema) :
    s.infer.inferred = [] ∧ s.infer.infer = s.infer ∧
      ∀ t ∈ s.infer.tables, ∀ f ∈ t.fields, ∀ r,
        ¬Gains s.infer.tables s.infer.relationships t.name f r :=
  ⟨inferred_infer s, infer_eq_self (inferred_infer s),
    inferred_eq_nil_iff_not_gains.mp (inferred_infer s)⟩

/-- Two tables and two fields of the same name. The first field gains a relationship, and the second
one is passed over because of it. -/
def repeatedSchema : Schema where
  tables :=
    [⟨"users", [{ name := "id", type := "int8", nullable := false, primaryKey := true }]⟩,
      ⟨"users", [{ name := "key", type := "int8", nullable := false, primaryKey := true }]⟩,
      ⟨"posts", [{ name := "user_id", type := "int8" }, { name := "user_id", type := "text" }]⟩]
  relationships := []

theorem infer_infer_repeated :
    repeatedSchema.infer.relationships = [⟨"posts", "user_id", "users", "id"⟩] ∧
      repeatedSchema.infer.infer = repeatedSchema.infer ∧
      ∀ r, ¬Gains repeatedSchema.infer.tables repeatedSchema.infer.relationships "posts"
        { name := "user_id", type := "text" } r := by
  obtain ⟨-, hsame, hleft⟩ := infer_infer repeatedSchema
  have hposts : ⟨"posts", [
      { name := "user_id", type := "int8", foreignKey := some ⟨"users", "id"⟩ },
      { name := "user_id", type := "text" }]⟩ ∈ repeatedSchema.infer.tables := by decide +kernel
  exact ⟨by decide +kernel, hsame, hleft _ hposts _ (List.mem_cons_of_mem _ List.mem_cons_self)⟩

end Schema

end Schemata
