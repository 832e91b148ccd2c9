import Mathlib.Tactic
import Schemata.Dialect.Environment
import Schemata.Proofs.Text.Lowered

/-!
# Names of dialects

Scripts are read and written for the family that a name names. The two look the name up in the same
aliases, but only one of them takes a blank name for a missing one: all other names are read in the
family that they are written for.
-/
namespace Schemata.Dialect

variable {settings : Settings} {n : String}

/-! ## Names for a reader -/

theorem readerName_injective : Function.Injective readerName := by
  intro d e h
  cases d <;> cases e <;> first | rfl | exact absurd h (by decide)

@[simp] theorem ofReaderName?_readerName (d : Dialect) : ofReaderName? d.readerName = some d := by
  cases d <;> decide

/-- The name of a family is one of its aliases. -/
theorem readerNameOf_name (d : Dialect) : readerNameOf (some d.name) = d.readerName := by
  cases d <;> decide +kernel

theorem lookup_readerName (d : Dialect) : aliases.lookup d.readerName = some d := by
  cases d <;> decide

theorem ofReaderName?_eq_none (h : aliases.lookup n = none) : ofReaderName? n = none := by
  refine List.find?_eq_none.mpr fun d _ hd => ?_
  have hname : d.readerName = n := of_decide_eq_true hd
  rw [← hname, lookup_readerName] at h
  cases h

theorem readerNameOf_of_alias {d : Dialect} (hn : n ≠ "") (h : ofAlias? n = some d) :
    readerNameOf (some n) = d.readerName := by
  rw [ofAlias?] at h
  simp only [readerNameOf, Text.trimmed_lowerCase, h]

theorem readerNameOf_of_no_alias (hn : n ≠ "") (h : ofAlias? n = none) :
    readerNameOf (some n) = Text.lowerCase (Text.trimmed n) := by
  rw [ofAlias?] at h
  simp only [readerNameOf, Text.trimmed_lowerCase, h]

/-- A name that is no alias is no name for a reader either. -/
theorem ofReaderName?_readerNameOf (n : String) :
    (ofReaderName? (readerNameOf (some n))).getD .postgresql = (ofAlias? n).getD .postgresql := by
  by_cases hn : n = ""
  · subst hn
    decide +kernel
  cases h : ofAlias? n with
  | some d => rw [readerNameOf_of_alias hn h, ofReaderName?_readerName]
  | none => rw [readerNameOf_of_no_alias hn h, ofReaderName?_eq_none h]

/-! ## Families of names -/

theorem ofAlias?_of_isBlankText (h : Text.isBlankText n.toList = true) : ofAlias? n = none := by
  have htrimmed : Text.trimmed n = "" := by
    rw [Text.trimmed, Text.trim_eq_nil_iff.mpr h]
  rw [ofAlias?, htrimmed]
  decide

theorem forReading_none (settings : Settings) : forReading settings none = resolve settings none :=
  ofReaderName?_readerNameOf settings.defaultDialect

theorem forReading_some (h : n ≠ "") :
    forReading settings (some n) = (ofAlias? n).getD .postgresql := by
  rw [forReading, if_neg h, ofReaderName?_readerNameOf]

theorem resolve_some_of_not_blank (h : Text.isBlankText n.toList = false) :
    resolve settings (some n) = (ofAlias? n).getD .postgresql := by
  simp only [resolve, h, Bool.false_eq_true, if_false]

theorem resolve_some_of_blank (h : Text.isBlankText n.toList = true) :
    resolve settings (some n) = resolve settings none := by
  simp only [resolve, h, if_true]

/-- A blank name that is not empty is read as PostgreSQL, whatever the default is. -/
theorem forReading_eq_resolve_iff (settings : Settings) (name : Option String) :
    forReading settings name = resolve settings name ↔
      ∀ n, name = some n → n ≠ "" → Text.isBlankText n.toList = true →
        resolve settings none = .postgresql := by
  cases name with
  | none => simp [forReading_none]
  | some n =>
    by_cases hn : n = ""
    · have hempty : resolve settings (some n) = resolve settings none :=
        resolve_some_of_blank (by rw [hn]; rfl)
      have hread : forReading settings (some n) = forReading settings none := by
        simp only [forReading, if_pos hn]
      simp [hn ▸ hread, hn ▸ hempty, hn, forReading_none]
    by_cases hblank : Text.isBlankText n.toList = true
    · rw [forReading_some hn, ofAlias?_of_isBlankText hblank, resolve_some_of_blank hblank]
      constructor
      · intro h _ _ _ _
        exact h.symm
      · intro h
        exact (h n rfl hn hblank).symm
    · rw [forReading_some hn, resolve_some_of_not_blank (Bool.eq_false_iff.mpr hblank)]
      refine ⟨fun _ m hm _ hm' => ?_, fun _ => rfl⟩
      obtain rfl := Option.some.inj hm
      exact absurd hm' hblank

/-- In every environment a script is read with the reader that belongs to the family which the same
name stands for elsewhere, unless the name is of blanks only and the default is another family than
PostgreSQL. -/
theorem readerName_forReading_iff (env : Environment) (name : Option String) :
    (forReading (Settings.ofEnvironment env) name).readerName =
        readerNameOf (some (resolve (Settings.ofEnvironment env) name).name) ↔
      ∀ n, name = some n → n ≠ "" → Text.isBlankText n.toList = true →
        resolve (Settings.ofEnvironment env) none = .postgresql := by
  rw [readerNameOf_name, readerName_injective.eq_iff]
  exact forReading_eq_resolve_iff _ name

/-- With a blank name the default is what is written and not what is read. -/
theorem readerName_forReading_blank :
    (forReading (Settings.ofEnvironment [(Settings.dialectVariable, "mysql")])
        (some " ")).readerName ≠
      readerNameOf (some (resolve (Settings.ofEnvironment [(Settings.dialectVariable, "mysql")])
        (some " ")).name) := by
  decide +kernel

end Schemata.Dialect
