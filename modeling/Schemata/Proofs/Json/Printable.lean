import Mathlib.Tactic
import Schemata.Proofs.Json.Written

/-!
# Characters of documents

A document without numbers has line feeds and printable characters only, and none outside ASCII
where the style asks for that.
-/
namespace Schemata.Json

/-- Whether a style writes a character: a line feed, or a printable one in its range. -/
def Style.Prints (style : Style) (c : Char) : Prop :=
  c = '\n' ∨ 0x20 ≤ c.toNat ∧ (style.asciiOnly = true → c.toNat < 0x7F)

variable {style : Style} {json : Json} {items : List Json} {members : List (String × Json)}
  {c : Char} {depth n : Nat}

/-- A printable ASCII character is written in every style. -/
theorem Style.Prints.of_ascii (h : 0x20 ≤ c.toNat ∧ c.toNat < 0x7F) (style : Style) :
    style.Prints c := .inr ⟨h.1, fun _ => h.2⟩

theorem prints_unitEscape (style : Style) (n : Nat) : ∀ c ∈ unitEscape n, style.Prints c := by
  have hdigits : ∀ m < 16, 0x20 ≤ (Nat.digitChar m).toNat ∧ (Nat.digitChar m).toNat < 0x7F := by
    decide
  intro c hc
  rw [unitEscape, List.mem_cons, List.mem_cons, Text.hexDigits, List.mem_map] at hc
  rcases hc with rfl | rfl | ⟨i, -, rfl⟩
  · exact .of_ascii (by decide) style
  · exact .of_ascii (by decide) style
  · exact .of_ascii (hdigits _ (Nat.mod_lt _ (by decide))) style

theorem prints_writeChar (style : Style) (d : Char) : ∀ c ∈ writeChar style d, style.Prints c := by
  have hmarked : ∀ mark ∈ ['"', '\\', 'n', 'r', 't', 'b', 'f'],
      ∀ c ∈ ['\\', mark], style.Prints c := by
    intro mark hmark c hc
    refine .of_ascii ?_ style
    simp only [List.mem_cons, List.not_mem_nil, or_false] at hmark hc
    rcases hc with rfl | rfl
    · decide
    · rcases hmark with rfl | rfl | rfl | rfl | rfl | rfl | rfl <;> decide
  rw [writeChar]
  split_ifs with _ _ _ _ _ _ _ hcontrol
  · exact hmarked _ (by simp)
  · exact hmarked _ (by simp)
  · exact hmarked _ (by simp)
  · exact hmarked _ (by simp)
  · exact hmarked _ (by simp)
  · exact hmarked _ (by simp)
  · exact hmarked _ (by simp)
  · rw [charEscape]
    split_ifs
    · exact prints_unitEscape style _
    · exact List.forall_mem_append.mpr ⟨prints_unitEscape style _, prints_unitEscape style _⟩
  · simp only [Bool.or_eq_true, Bool.and_eq_true, decide_eq_true_eq, not_or, not_and, not_lt,
      not_le] at hcontrol
    intro c hc
    rw [List.mem_singleton.mp hc]
    exact .inr hcontrol

theorem prints_writeString (style : Style) (s : String) :
    ∀ c ∈ writeString style s, style.Prints c := by
  have hquote : style.Prints '"' := .of_ascii (by decide) style
  intro c hc
  rw [writeString, List.cons_append, List.mem_cons, List.mem_append, List.mem_flatMap,
    List.mem_singleton] at hc
  rcases hc with rfl | ⟨d, -, hc⟩ | rfl
  · exact hquote
  · exact prints_writeChar style d c hc
  · exact hquote

theorem prints_lineBreak (style : Style) (depth : Nat) :
    ∀ c ∈ lineBreak style depth, style.Prints c := by
  intro c hc
  rw [lineBreak] at hc
  split_ifs at hc
  · rcases List.mem_cons.mp hc with rfl | hc
    · exact .inl rfl
    · rw [List.eq_of_mem_replicate hc]
      exact .of_ascii (by decide) style
  · cases hc

theorem prints_memberMark (style : Style) : ∀ c ∈ memberMark style, style.Prints c := by
  intro c hc
  rw [memberMark] at hc
  refine .of_ascii ?_ style
  split_ifs at hc <;> simp only [List.mem_cons, List.not_mem_nil, or_false] at hc
  · rcases hc with rfl | rfl <;> decide
  · rw [hc]
    decide

theorem prints_writeItems (depth : Nat)
    (h : ∀ i ∈ items, ∀ c ∈ writeAt style depth i, style.Prints c) :
    ∀ c ∈ writeItems style depth items, style.Prints c := by
  induction items with
  | nil => exact List.forall_mem_nil _
  | cons item items ih =>
    obtain ⟨hitem, hitems⟩ := List.forall_mem_cons.mp h
    rw [writeItems_cons, List.forall_mem_cons, List.forall_mem_append, List.forall_mem_append]
    exact ⟨.of_ascii (by decide) style, prints_lineBreak style depth, hitem, ih hitems⟩

theorem prints_writeMember {m : String × Json} (h : ∀ c ∈ writeAt style depth m.2, style.Prints c) :
    ∀ c ∈ writeMember style depth m, style.Prints c := by
  rw [writeMember, List.forall_mem_append, List.forall_mem_append]
  exact ⟨⟨prints_writeString style m.1, prints_memberMark style⟩, h⟩

theorem prints_writeMembers (depth : Nat)
    (h : ∀ m ∈ members, ∀ c ∈ writeAt style depth m.2, style.Prints c) :
    ∀ c ∈ writeMembers style depth members, style.Prints c := by
  induction members with
  | nil => exact List.forall_mem_nil _
  | cons m members ih =>
    obtain ⟨hm, hmembers⟩ := List.forall_mem_cons.mp h
    rw [writeMembers_cons, List.forall_mem_cons, List.forall_mem_append, List.forall_mem_append]
    exact ⟨.of_ascii (by decide) style, prints_lineBreak style depth, prints_writeMember hm,
      ih hmembers⟩

/-- A textual document is written in the characters of its style. -/
theorem Textual.prints (h : Textual json) (style : Style) (depth : Nat) :
    ∀ c ∈ writeAt style depth json, style.Prints c := by
  have hletters : ∀ word ∈ ["null", "true", "false"], ∀ c ∈ word.toList, style.Prints c := by
    have hascii : ∀ word ∈ ["null", "true", "false"],
        word.toList.all (fun c => 0x20 ≤ c.toNat && c.toNat < 0x7F) = true := by decide
    intro word hword c hc
    have hrange := List.all_eq_true.mp (hascii word hword) c hc
    simp only [Bool.and_eq_true, decide_eq_true_eq] at hrange
    exact .of_ascii hrange style
  induction h generalizing depth with
  | null => exact hletters "null" (by simp)
  | bool value =>
    cases value with
    | true => exact hletters "true" (by simp)
    | false => exact hletters "false" (by simp)
  | string value => exact prints_writeString style value
  | @array items _ ih =>
    have hopen : style.Prints '[' := .of_ascii (by decide) style
    have hclose : style.Prints ']' := .of_ascii (by decide) style
    cases items with
    | nil => simp [hopen, hclose]
    | cons item items =>
      obtain ⟨hitem, hitems⟩ := List.forall_mem_cons.mp ih
      have hrest := prints_writeItems (depth + 1) fun i hi => hitems i hi (depth + 1)
      rw [writeAt_array_cons]
      simp only [List.cons_append, List.append_assoc, List.forall_mem_cons, List.forall_mem_append]
      exact ⟨hopen, prints_lineBreak style (depth + 1), hitem (depth + 1), hrest,
        prints_lineBreak style depth, hclose, List.forall_mem_nil _⟩
  | @object members _ ih =>
    have hopen : style.Prints '\x7b' := .of_ascii (by decide) style
    have hclose : style.Prints '\x7d' := .of_ascii (by decide) style
    cases members with
    | nil => simp [hopen, hclose]
    | cons m members =>
      obtain ⟨hm, hmembers⟩ := List.forall_mem_cons.mp ih
      have hrest := prints_writeMembers (depth + 1) fun n hn => hmembers n hn (depth + 1)
      rw [writeAt_object_cons]
      simp only [List.cons_append, List.append_assoc, List.forall_mem_cons, List.forall_mem_append]
      exact ⟨hopen, prints_lineBreak style (depth + 1), prints_writeMember (hm (depth + 1)), hrest,
        prints_lineBreak style depth, hclose, List.forall_mem_nil _⟩

end Schemata.Json
