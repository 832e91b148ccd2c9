import Mathlib.Tactic
import Schemata.Proofs.Separation.Joined
import Schemata.Validation

/-!
# Findings on joined scripts

Every rule looks at one statement alone, and a finding is listed where it occurs first. So the
findings on a script are made up of those on its parts, and comments have no part in them.
-/
namespace Schemata

/-! ## First occurrences -/

section Occurrences

variable {α : Type*} [DecidableEq α]

theorem nodup_eraseDups (as : List α) : as.eraseDups.Nodup := by
  cases as with
  | nil => simp
  | cons a as =>
    rw [List.eraseDups_cons, List.nodup_cons]
    exact ⟨by simp, nodup_eraseDups _⟩
termination_by as.length
decreasing_by
  have := List.length_filter_le (fun b => !b == a) as
  simp only [List.length_cons]
  omega

theorem eraseDups_eq_self {as : List α} (h : as.Nodup) : as.eraseDups = as := by
  induction as with
  | nil => rfl
  | cons a as ih =>
    have hother : as.filter (fun b => !b == a) = as := by
      refine List.filter_eq_self.mpr fun b hb => ?_
      have hne : b ≠ a := fun he => (List.nodup_cons.mp h).1 (he ▸ hb)
      simpa using hne
    rw [List.eraseDups_cons, hother, ih (List.nodup_cons.mp h).2]

theorem filter_eraseDups (p : α → Bool) (as : List α) :
    as.eraseDups.filter p = (as.filter p).eraseDups := by
  cases as with
  | nil => rfl
  | cons a as =>
    have hrest := filter_eraseDups p (as.filter fun b => !b == a)
    rw [List.eraseDups_cons, List.filter_cons, hrest, List.filter_cons]
    split_ifs with ha
    · rw [List.eraseDups_cons, List.filter_filter, List.filter_filter]
      simp only [Bool.and_comm]
    · have hother : (as.filter fun b => !b == a).filter p = as.filter p := by
        rw [List.filter_filter]
        refine List.filter_congr fun b _ => ?_
        by_cases hb : b = a <;> simp [hb, ha]
      rw [hother]
termination_by as.length
decreasing_by
  have := List.length_filter_le (fun b => !b == a) as
  simp only [List.length_cons]
  omega

/-- What occurs first in two lists can be looked for in what occurs first in each of them. -/
theorem eraseDups_append_eraseDups (as bs : List α) :
    (as.eraseDups ++ bs.eraseDups).eraseDups = (as ++ bs).eraseDups := by
  have hnew : bs.eraseDups.removeAll as.eraseDups = (bs.removeAll as).eraseDups := by
    rw [List.removeAll, List.removeAll, ← filter_eraseDups]
    refine List.filter_congr fun b _ => ?_
    simp
  rw [List.eraseDups_append, List.eraseDups_append, hnew, eraseDups_eq_self (nodup_eraseDups as),
    eraseDups_eq_self (nodup_eraseDups _)]

end Occurrences

variable {d : Dialect} {a b script script' : List Char}

/-! ## Findings by rules -/

/-- The messages of the rules of one kind that statements break, each where it occurs first. -/
def messagesOf (d : Dialect) (kind : Rule → Bool) (statements : List (List Char)) : List String :=
  (((brokenRules d statements).filter kind).map Rule.message).eraseDups

/-- The warnings on a script that say which rules it breaks. -/
def ruleWarnings (d : Dialect) (script : List Char) : List String :=
  (validate d script).warnings.filter (· ∈ (Rule.ofDialect d).map Rule.message)

theorem messagesOf_append (d : Dialect) (kind : Rule → Bool) (as bs : List (List Char)) :
    messagesOf d kind (as ++ bs) = (messagesOf d kind as ++ messagesOf d kind bs).eraseDups := by
  rw [messagesOf, messagesOf, messagesOf, eraseDups_append_eraseDups, brokenRules,
    List.flatMap_append, List.filter_append, List.map_append]
  rfl

theorem mem_of_mem_messagesOf {kind : Rule → Bool} {statements : List (List Char)} {m : String}
    (h : m ∈ messagesOf d kind statements) : m ∈ (Rule.ofDialect d).map Rule.message := by
  rw [messagesOf, List.mem_eraseDups] at h
  obtain ⟨rule, hrule, rfl⟩ := List.mem_map.mp h
  obtain ⟨s, -, hs⟩ := List.mem_flatMap.mp (List.mem_filter.mp hrule).1
  exact List.mem_map_of_mem (List.mem_filter.mp hs).1

/-- No rule has the message that a script has no tokens. -/
theorem not_mem_messages_of_lexicalWarning {m : String} (h : m ∈ lexicalWarning d script)
    (d' : Dialect) : m ∉ (Rule.ofDialect d').map Rule.message := by
  have hhead : m.toList.head? = some 's' := by
    rw [lexicalWarning] at h
    split at h
    · cases h
    · rw [List.mem_singleton.mp h, String.toList_append]
      rfl
  intro hm
  obtain ⟨rule, -, rfl⟩ := List.mem_map.mp hm
  revert hhead
  cases rule <;> decide

theorem errors_validate (d : Dialect) (script : List Char) :
    (validate d script).errors = messagesOf d Rule.isError (Script.separate false script) := rfl

theorem ruleWarnings_eq (d : Dialect) (script : List Char) :
    ruleWarnings d script = messagesOf d (!·.isError) (Script.separate false script) := by
  have hwarnings : (validate d script).warnings =
      messagesOf d (!·.isError) (Script.separate false script) ++ lexicalWarning d script := rfl
  rw [ruleWarnings, hwarnings, List.filter_append,
    List.filter_eq_self.mpr fun m hm => decide_eq_true (mem_of_mem_messagesOf hm),
    List.filter_eq_nil_iff.mpr fun m hm => by
      simpa using not_mem_messages_of_lexicalWarning hm d, List.append_nil]

/-- Findings are made up of the findings on the parts, and depend on the statements alone. A script
whose end lies outside quotes and comments has the statements and findings of the joined script in
common with it up to the semicolon, and what follows adds its own. The bodies of comments make no
difference. -/
theorem validate_joined_sameButComments (d : Dialect) :
    (∀ a b, Script.EndsOutside a →
      Script.separate false (a ++ ';' :: b) = Script.separate false a ++ Script.separate false b ∧
      (validate d (a ++ ';' :: b)).errors =
        ((validate d a).errors ++ (validate d b).errors).eraseDups ∧
      (validate d (a ++ ';' :: b)).errors.Nodup ∧
      ruleWarnings d (a ++ ';' :: b) = (ruleWarnings d a ++ ruleWarnings d b).eraseDups ∧
      (ruleWarnings d (a ++ ';' :: b)).Nodup) ∧
    ∀ script script', Script.SameButComments script script' →
      (∀ keep, Script.separate keep script' = Script.separate keep script) ∧
      (validate d script').errors = (validate d script).errors ∧
      ruleWarnings d script' = ruleWarnings d script ∧
      (validate d script').valid = (validate d script).valid := by
  refine ⟨fun a b ha => ?_, fun script script' hsame => ?_⟩
  · have hjoined := Script.separate_joined ha b
    simp only [errors_validate, ruleWarnings_eq, hjoined, messagesOf_append]
    exact ⟨trivial, trivial, nodup_eraseDups _, trivial, nodup_eraseDups _⟩
  · have hstatements := Script.separate_sameButComments hsame
    have herrors : (validate d script').errors = (validate d script).errors := by
      rw [errors_validate, errors_validate, hstatements]
    refine ⟨hstatements, herrors, ?_, ?_⟩
    · rw [ruleWarnings_eq, ruleWarnings_eq, hstatements]
    · rw [Findings.valid, Findings.valid, herrors]

/-- A finding of both parts is listed once, and a semicolon and a word of the rules in a comment
count for nothing. -/
theorem validate_joined_sameButComments_serial :
    (Script.EndsOutside "n SERIAL/*;*/".toList ∧
      (validate .mysql ("n SERIAL/*;*/".toList ++ ';' :: "m BIGSERIAL".toList)).errors =
        ((validate .mysql "n SERIAL/*;*/".toList).errors ++
          (validate .mysql "m BIGSERIAL".toList).errors).eraseDups) ∧
    (Script.SameButComments "n SERIAL/*;*/".toList "n SERIAL/*BOOLEAN*/".toList ∧
      (validate .mysql "n SERIAL/*BOOLEAN*/".toList).errors =
        (validate .mysql "n SERIAL/*;*/".toList).errors) := by
  have hcomment : (Script.Run.blockComment [';'] true).Ends [] := ⟨by decide, Bool.noConfusion⟩
  have hword : "n SERIAL".toList.Forall fun c => Script.isQuote c = false ∧ c ≠ '-' ∧ c ≠ '/' := by
    decide
  have hcut : Script.Cut "n SERIAL/*;*/".toList
      ("n SERIAL".toList.map .single ++ [.blockComment [';'] true]) :=
    Script.Cut.singles (List.forall_iff_forall_mem.mp hword) (.cons hcomment .nil)
  have hends : Script.EndsOutside "n SERIAL/*;*/".toList := ⟨_, hcut, by decide⟩
  have hsame : Script.SameButComments "n SERIAL/*;*/".toList "n SERIAL/*BOOLEAN*/".toList := by
    refine ⟨_, "n SERIAL".toList.map .single ++ [.blockComment "BOOLEAN".toList true], hcut, ?_,
      by decide⟩
    exact List.rel_append (List.forall₂_same.mpr fun run _ => .refl run)
      (.cons (.block (by decide)) .nil)
  exact ⟨⟨hends, ((validate_joined_sameButComments .mysql).1 _ _ hends).2.1⟩,
    hsame, ((validate_joined_sameButComments .mysql).2 _ _ hsame).2.1⟩

end Schemata
