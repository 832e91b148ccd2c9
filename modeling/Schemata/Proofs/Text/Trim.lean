import Mathlib.Data.List.DropRight
import Mathlib.Tactic
import Schemata.Text.Blank

/-!
# Blanks around a text

A text is its trimmed part with blanks around it, and the trimmed part neither begins nor ends with
a blank.
-/
namespace Schemata.Text

variable {p : Char → Bool} {cs more : List Char}

/-- The code points of the blanks. -/
def blankCodes : List ℕ :=
  [0x09, 0x0A, 0x0B, 0x0C, 0x0D, 0x1C, 0x1D, 0x1E, 0x1F, 0x20, 0x85, 0xA0, 0x1680, 0x2000, 0x2001,
   0x2002, 0x2003, 0x2004, 0x2005, 0x2006, 0x2007, 0x2008, 0x2009, 0x200A, 0x2028, 0x2029, 0x202F,
   0x205F, 0x3000]

/-- What holds of these code points holds of every blank. -/
theorem forall_blank {P : Char → Prop} (h : ∀ n ∈ blankCodes, P (Char.ofNat n)) {c : Char}
    (hc : isBlank c = true) : P c := by
  have hmem : c.toNat ∈ blankCodes := by
    simp only [isBlank, Bool.or_eq_true, Bool.and_eq_true, decide_eq_true_eq, beq_iff_eq] at hc
    simp only [blankCodes, List.mem_cons, List.not_mem_nil, or_false]
    omega
  have hn := h c.toNat hmem
  rwa [Char.ofNat_toNat] at hn

theorem isBlankText_iff : isBlankText cs = true ↔ ∀ c ∈ cs, isBlank c = true :=
  List.all_eq_true

theorem isBlankText_nil : isBlankText [] = true := rfl

/-- Among blanks there is no mark. -/
theorem not_mem_of_blanks {mark : Char} (hmark : isBlank mark = false)
    (hblanks : ∀ c ∈ cs, isBlank c = true) : mark ∉ cs :=
  fun hmem => Bool.eq_false_iff.mp hmark (hblanks mark hmem)

theorem dropEndWhile_eq_rdropWhile (p : Char → Bool) (cs : List Char) :
    dropEndWhile p cs = cs.rdropWhile p := rfl

theorem trim_eq_nil_iff : trim cs = [] ↔ isBlankText cs = true := by
  rw [trim, trimWhile, dropEndWhile_eq_rdropWhile, List.rdropWhile_eq_nil_iff, isBlankText_iff]
  constructor
  · intro h c hc
    rw [← List.takeWhile_append_dropWhile (p := isBlank) (l := cs)] at hc
    exact (List.mem_append.mp hc).elim List.mem_takeWhile_imp (h c)
  · exact fun h c hc => h c ((List.dropWhile_suffix _).subset hc)

/-- What ends before a run of characters ends there with more of them as well. -/
theorem dropWhile_append_of_stop (h : ∀ c ∈ more, p c = false) (cs : List Char) :
    (cs ++ more).dropWhile p = cs.dropWhile p ++ more := by
  induction cs with
  | nil =>
    cases more with
    | nil => rfl
    | cons c more => simp [h c List.mem_cons_self]
  | cons c cs ih =>
    rw [List.cons_append, List.dropWhile_cons, List.dropWhile_cons, ih]
    split <;> rfl

/-- A text is its trimmed part between blanks. -/
theorem exists_blanks_trim (cs : List Char) : ∃ before after, isBlankText before = true ∧
    isBlankText after = true ∧ cs = before ++ trim cs ++ after := by
  refine ⟨cs.takeWhile isBlank, (cs.dropWhile isBlank).rtakeWhile isBlank, ?_, ?_, ?_⟩
  · exact isBlankText_iff.mpr fun c hc => List.mem_takeWhile_imp hc
  · exact isBlankText_iff.mpr fun c hc => List.mem_rtakeWhile_imp hc
  · rw [trim, trimWhile, dropEndWhile_eq_rdropWhile, List.append_assoc,
      List.rdropWhile_append_rtakeWhile, List.takeWhile_append_dropWhile]

theorem isBlank_head?_trim {c : Char} (h : (trim cs).head? = some c) : isBlank c = false := by
  rw [trim, trimWhile, dropEndWhile_eq_rdropWhile] at h
  obtain ⟨rest, hrest⟩ := List.head?_eq_some_iff.mp h
  obtain ⟨after, hafter⟩ := List.rdropWhile_prefix isBlank (l := cs.dropWhile isBlank)
  have hhead : (cs.dropWhile isBlank).head? = some c := by rw [← hafter, hrest]; rfl
  have hstop := List.head?_dropWhile_not isBlank cs
  rw [hhead] at hstop
  simpa using hstop

theorem isBlank_getLast?_trim {c : Char} (h : (trim cs).getLast? = some c) : isBlank c = false := by
  rw [trim, trimWhile, dropEndWhile_eq_rdropWhile] at h
  have hne : (cs.dropWhile isBlank).rdropWhile isBlank ≠ [] := by
    intro hnil
    rw [hnil] at h
    cases h
  have hlast := List.rdropWhile_last_not isBlank _ hne
  rw [List.getLast?_eq_getLast_of_ne_nil hne] at h
  rw [← Option.some.inj h]
  simpa using hlast

/-- Blanks around a text do not change its trimmed part. -/
theorem trim_between {before after : List Char} (hb : isBlankText before = true)
    (ha : isBlankText after = true) (cs : List Char) : trim (before ++ cs ++ after) = trim cs := by
  have hfront : (before ++ cs ++ after).dropWhile isBlank = (cs ++ after).dropWhile isBlank := by
    rw [List.append_assoc, List.dropWhile_append_of_pos (isBlankText_iff.mp hb)]
  rw [trim, trim, trimWhile, trimWhile, hfront, dropEndWhile_eq_rdropWhile,
    dropEndWhile_eq_rdropWhile, List.dropWhile_append]
  split_ifs with hnil
  · have hafter : after.dropWhile isBlank = [] :=
      List.dropWhile_eq_nil_iff.mpr (isBlankText_iff.mp ha)
    rw [hafter, List.isEmpty_iff.mp hnil]
  · rw [List.rdropWhile, List.rdropWhile, List.reverse_append,
      List.dropWhile_append_of_pos fun c hc => isBlankText_iff.mp ha c (List.mem_reverse.mp hc)]

theorem trim_blanks_append {before : List Char} (hb : isBlankText before = true)
    (cs : List Char) : trim (before ++ cs) = trim cs := by
  have hbetween := trim_between hb isBlankText_nil cs
  rwa [List.append_nil] at hbetween

theorem trim_trim (cs : List Char) : trim (trim cs) = trim cs := by
  obtain ⟨before, after, hbefore, hafter, hcs⟩ := exists_blanks_trim cs
  conv_rhs => rw [hcs]
  exact (trim_between hbefore hafter (trim cs)).symm

/-- A text between blanks that does not begin or end with one is the trimmed part. -/
theorem trim_eq_of_ends {before after : List Char} (hbefore : isBlankText before = true)
    (hafter : isBlankText after = true) (hhead : ∀ c, cs.head? = some c → isBlank c = false)
    (hlast : ∀ c, cs.getLast? = some c → isBlank c = false) :
    trim (before ++ cs ++ after) = cs := by
  rw [trim_between hbefore hafter, trim, trimWhile, dropEndWhile_eq_rdropWhile]
  have hfront : cs.dropWhile isBlank = cs := by
    cases cs with
    | nil => rfl
    | cons c cs => rw [List.dropWhile_cons, hhead c rfl]; rfl
  rw [hfront, List.rdropWhile_eq_self_iff]
  intro hne
  simp [hlast _ (List.getLast?_eq_getLast_of_ne_nil hne)]

theorem trim_append_blanks {more : List Char} (hmore : ∀ c ∈ more, isBlank c = true)
    (cs : List Char) : trim (cs ++ more) = trim cs :=
  trim_between (isBlankText_iff.mpr (List.forall_mem_nil _)) (isBlankText_iff.mpr hmore) cs

end Schemata.Text
