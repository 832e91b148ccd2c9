import Mathlib.Tactic
import Schemata.Proofs.Json.Strings

/-!
# Written documents

Documents without numbers are read as they were written, in every style. Values, items and members
say themselves where they end, so each is read off the front of any text.
-/
namespace Schemata.Json

/-- Documents of texts, truth values and nulls. -/
inductive Textual : Json → Prop
  | null : Textual .null
  | bool (value : Bool) : Textual (.bool value)
  | string (value : String) : Textual (.string value)
  | array {items : List Json} (h : ∀ item ∈ items, Textual item) : Textual (.array items)
  | object {members : List (String × Json)} (h : ∀ m ∈ members, Textual m.2) :
    Textual (.object members)

variable {style : Style} {json item value : Json} {items : List Json} {name : String}
  {members : List (String × Json)} {c : Char} {depth : Nat}

/-! ## Layout -/

@[simp] theorem writeAt_null (style : Style) (depth : Nat) :
    writeAt style depth .null = "null".toList := rfl

@[simp] theorem writeAt_true (style : Style) (depth : Nat) :
    writeAt style depth (.bool true) = "true".toList := rfl

@[simp] theorem writeAt_false (style : Style) (depth : Nat) :
    writeAt style depth (.bool false) = "false".toList := rfl

@[simp] theorem writeAt_string (style : Style) (depth : Nat) (s : String) :
    writeAt style depth (.string s) = writeString style s := rfl

@[simp] theorem writeAt_array_nil (style : Style) (depth : Nat) :
    writeAt style depth (.array []) = ['[', ']'] := rfl

@[simp] theorem writeAt_object_nil (style : Style) (depth : Nat) :
    writeAt style depth (.object []) = ['\x7b', '\x7d'] := rfl

theorem writeAt_array_cons (style : Style) (depth : Nat) (item : Json) (items : List Json) :
    writeAt style depth (.array (item :: items)) =
      '[' :: lineBreak style (depth + 1) ++ writeAt style (depth + 1) item ++
        writeItems style (depth + 1) items ++ lineBreak style depth ++ [']'] := rfl

theorem writeItems_cons (style : Style) (depth : Nat) (item : Json) (items : List Json) :
    writeItems style depth (item :: items) =
      ',' :: (lineBreak style depth ++
        (writeAt style depth item ++ writeItems style depth items)) := by
  rw [writeItems]
  simp only [List.append_assoc, List.cons_append]

/-- A member with its name in front of its value. -/
def writeMember (style : Style) (depth : Nat) (m : String × Json) : List Char :=
  writeString style m.1 ++ memberMark style ++ writeAt style depth m.2

theorem writeAt_object_cons (style : Style) (depth : Nat) (m : String × Json)
    (members : List (String × Json)) :
    writeAt style depth (.object (m :: members)) =
      '\x7b' :: lineBreak style (depth + 1) ++ writeMember style (depth + 1) m ++
        writeMembers style (depth + 1) members ++ lineBreak style depth ++ ['\x7d'] := by
  have hwritten : writeAt style depth (.object (m :: members)) =
      '\x7b' :: lineBreak style (depth + 1) ++ writeString style m.1 ++ memberMark style ++
        writeAt style (depth + 1) m.2 ++ writeMembers style (depth + 1) members ++
        lineBreak style depth ++ ['\x7d'] := rfl
  simp only [hwritten, writeMember, List.append_assoc, List.cons_append]

theorem writeMembers_cons (style : Style) (depth : Nat) (m : String × Json)
    (members : List (String × Json)) :
    writeMembers style depth (m :: members) =
      ',' :: (lineBreak style depth ++
        (writeMember style depth m ++ writeMembers style depth members)) := by
  have hwritten : writeMembers style depth (m :: members) =
      ',' :: lineBreak style depth ++ writeString style m.1 ++ memberMark style ++
        writeAt style depth m.2 ++ writeMembers style depth members := rfl
  simp only [hwritten, writeMember, List.append_assoc, List.cons_append]

/-! ## Spaces -/

theorem isSpace_of_mem_lineBreak (h : c ∈ lineBreak style depth) : isSpace c = true := by
  rw [lineBreak] at h
  split_ifs at h
  · rcases List.mem_cons.mp h with rfl | h
    · rfl
    · rw [List.eq_of_mem_replicate h]
      rfl
  · cases h

/-- The break before a value is skipped, and no more. -/
theorem skipSpace_lineBreak (style : Style) (depth : Nat) (hc : isSpace c = false)
    (cs : List Char) : skipSpace (lineBreak style depth ++ c :: cs) = c :: cs := by
  rw [skipSpace, List.dropWhile_append_of_pos fun d hd => isSpace_of_mem_lineBreak hd,
    List.dropWhile_cons_of_neg (by simp [hc])]

theorem skipSpace_cons (hc : isSpace c = false) (cs : List Char) : skipSpace (c :: cs) = c :: cs :=
  List.dropWhile_cons_of_neg (by simp [hc])

/-- A value begins with neither a space nor a closing bracket. -/
theorem Textual.head (h : Textual json) (style : Style) (depth : Nat) :
    ∃ c cs, writeAt style depth json = c :: cs ∧ isSpace c = false ∧ c ≠ ']' := by
  suffices hhead : ∃ c ∈ ['n', 't', 'f', '"', '[', '\x7b'],
      (writeAt style depth json).head? = some c by
    obtain ⟨c, hc, hhead⟩ := hhead
    obtain ⟨cs, hcs⟩ := List.head?_eq_some_iff.mp hhead
    refine ⟨c, cs, hcs, ?_⟩
    simp only [List.mem_cons, List.not_mem_nil, or_false] at hc
    rcases hc with rfl | rfl | rfl | rfl | rfl | rfl <;> decide
  cases h with
  | null => exact ⟨'n', by simp, rfl⟩
  | bool value =>
    cases value with
    | true => exact ⟨'t', by simp, rfl⟩
    | false => exact ⟨'f', by simp, rfl⟩
  | string value => exact ⟨'"', by simp, rfl⟩
  | @array items h => exact ⟨'[', by simp, by cases items <;> rfl⟩
  | @object members h => exact ⟨'\x7b', by simp, by cases members <;> rfl⟩

/-! ## Values -/

/-- Whether a value is read off the front of any text that it is written before. -/
def Reads (style : Style) (json : Json) : Prop :=
  ∀ depth fuel rest, (writeAt style depth json).length ≤ fuel →
    readValue? fuel (writeAt style depth json ++ rest) = some (json, rest)

/-- A value is not empty, so it is never read without fuel. -/
theorem Textual.reads_of_succ (h : Textual json)
    (hsucc : ∀ depth fuel rest, (writeAt style depth json).length ≤ fuel + 1 →
      readValue? (fuel + 1) (writeAt style depth json ++ rest) = some (json, rest)) :
    Reads style json := by
  intro depth fuel rest hfuel
  obtain ⟨c, cs, hhead, -, -⟩ := h.head style depth
  have hlength : (writeAt style depth json).length = cs.length + 1 := by
    rw [hhead, List.length_cons]
  obtain ⟨fuel, rfl⟩ := Nat.exists_eq_add_one_of_ne_zero (by omega : fuel ≠ 0)
  exact hsucc depth fuel rest hfuel

/-- The items of an array are read to the closing bracket. -/
theorem readItems?_written (htextual : ∀ i ∈ item :: items, Textual i)
    (hreads : ∀ i ∈ item :: items, Reads style i) (depth outer fuel : Nat)
    (hfuel : (writeAt style depth item ++ writeItems style depth items).length < fuel)
    (rest : List Char) :
    readItems? fuel (writeAt style depth item ++ (writeItems style depth items ++
      (lineBreak style outer ++ ']' :: rest))) = some (item :: items, rest) := by
  induction items generalizing item fuel with
  | nil =>
    obtain ⟨fuel, rfl⟩ := Nat.exists_eq_add_one_of_ne_zero (by omega : fuel ≠ 0)
    have hitem := hreads item List.mem_cons_self depth fuel
      (lineBreak style outer ++ ']' :: rest) (by simp at hfuel; omega)
    rw [readItems?, writeItems, List.nil_append, hitem]
    simp only [Option.bind_eq_bind, Option.bind_some,
      skipSpace_lineBreak style outer (c := ']') rfl]
    rfl
  | cons next items ih =>
    obtain ⟨fuel, rfl⟩ := Nat.exists_eq_add_one_of_ne_zero (by omega : fuel ≠ 0)
    -- an item costs one unit of fuel and has, with its comma, two characters at least
    rw [writeItems_cons] at hfuel ⊢
    have hitem := hreads item List.mem_cons_self depth fuel
    have hrest := @ih next
      (fun i hi => htextual i (List.mem_cons_of_mem item hi))
      (fun i hi => hreads i (List.mem_cons_of_mem item hi)) fuel (by simp at hfuel ⊢; omega)
    obtain ⟨c, cs, hnext, hspace, -⟩ := (htextual next (by simp)).head style depth
    rw [hnext, List.cons_append] at hrest
    rw [readItems?, hitem _ (by simp at hfuel; omega)]
    simp only [Option.bind_eq_bind, Option.bind_some, List.cons_append, List.append_assoc,
      skipSpace_cons (c := ',') rfl, hnext, skipSpace_lineBreak style depth hspace, hrest]
    rfl

/-- The name of a member is read, and behind its mark the value begins. -/
theorem exists_writeMember (style : Style) (depth : Nat) (name : String) (htextual : Textual value)
    (rest : List Char) : ∃ body after,
      writeMember style depth (name, value) ++ rest = '"' :: body ∧
      readString? body = some (some name, ':' :: after) ∧
      skipSpace after = writeAt style depth value ++ rest := by
  obtain ⟨c, cs, hvalue, hspace, -⟩ := htextual.head style depth
  obtain ⟨space, hmark, hskip⟩ : ∃ space, memberMark style = ':' :: space ∧
      skipSpace (space ++ (c :: cs ++ rest)) = c :: cs ++ rest := by
    rw [memberMark]
    split_ifs
    · exact ⟨[' '], rfl, (List.dropWhile_cons_of_pos rfl).trans (skipSpace_cons hspace _)⟩
    · exact ⟨[], rfl, skipSpace_cons hspace _⟩
  obtain ⟨body, hbody, hread⟩ := readString?_writeString style name
    (memberMark style ++ (writeAt style depth value ++ rest))
  refine ⟨body, space ++ (writeAt style depth value ++ rest), ?_, ?_, ?_⟩
  · rw [← hbody, writeMember]
    simp only [List.append_assoc]
  · rw [hread, hmark, List.cons_append]
  · rw [hvalue, hskip]

/-- The members of an object are read to the closing brace. -/
theorem readMembers?_written {m : String × Json} (htextual : ∀ n ∈ m :: members, Textual n.2)
    (hreads : ∀ n ∈ m :: members, Reads style n.2) (depth outer fuel : Nat)
    (hfuel : (writeMember style depth m ++ writeMembers style depth members).length < fuel)
    (rest : List Char) :
    readMembers? fuel (writeMember style depth m ++ (writeMembers style depth members ++
      (lineBreak style outer ++ '\x7d' :: rest))) = some (m :: members, rest) := by
  induction members generalizing m fuel with
  | nil =>
    obtain ⟨fuel, rfl⟩ := Nat.exists_eq_add_one_of_ne_zero (by omega : fuel ≠ 0)
    have hnone : writeMembers style depth [] = [] := rfl
    have hread := hreads m List.mem_cons_self depth fuel
      (lineBreak style outer ++ '\x7d' :: rest) (by simp [writeMember] at hfuel; omega)
    obtain ⟨body, after, hbody, hname, hvalue⟩ := exists_writeMember style depth m.1
      (htextual m List.mem_cons_self) (lineBreak style outer ++ '\x7d' :: rest)
    rw [hnone, List.nil_append, hbody, readMembers?, hname]
    simp only [Option.bind_eq_bind, Option.bind_some, skipSpace_cons (c := ':') rfl, hvalue, hread,
      skipSpace_lineBreak style outer (c := '\x7d') rfl]
    rfl
  | cons next members ih =>
    obtain ⟨fuel, rfl⟩ := Nat.exists_eq_add_one_of_ne_zero (by omega : fuel ≠ 0)
    rw [writeMembers_cons] at hfuel ⊢
    simp only [List.cons_append, List.append_assoc]
    have hread := hreads m List.mem_cons_self depth fuel
    have hrest := @ih next
      (fun n hn => htextual n (List.mem_cons_of_mem m hn))
      (fun n hn => hreads n (List.mem_cons_of_mem m hn)) fuel (by simp at hfuel ⊢; omega)
    obtain ⟨nextBody, -, hnext, -, -⟩ := exists_writeMember style depth next.1
      (htextual next (by simp)) (writeMembers style depth members ++
        (lineBreak style outer ++ '\x7d' :: rest))
    rw [hnext] at hrest ⊢
    obtain ⟨body, after, hbody, hname, hvalue⟩ := exists_writeMember style depth m.1
      (htextual m List.mem_cons_self) (',' :: (lineBreak style depth ++ '"' :: nextBody))
    rw [hbody, readMembers?, hname]
    simp only [Option.bind_eq_bind, Option.bind_some, skipSpace_cons (c := ':') rfl, hvalue,
      hread _ (by simp [writeMember] at hfuel; omega), skipSpace_cons (c := ',') rfl,
      skipSpace_lineBreak style depth (c := '"') rfl, hrest]
    rfl

/-- A word that stands for a value is read as that value. -/
theorem readValue?_word (word : List Char) (hword : (word, value) ∈ words.take 3) (fuel : Nat)
    (rest : List Char) : readValue? (fuel + 1) (word ++ rest) = some (value, rest) := by
  simp only [words, List.take, List.mem_cons, List.not_mem_nil, or_false, Prod.mk.injEq] at hword
  rcases hword with ⟨rfl, rfl⟩ | ⟨rfl, rfl⟩ | ⟨rfl, rfl⟩ <;>
    simp [readValue?, readWord?, words, Text.after?]

theorem readValue?_array (fuel : Nat) {text cs : List Char} (hskip : skipSpace text = c :: cs)
    (hclose : c ≠ ']') : readValue? (fuel + 1) ('[' :: text) =
      (readItems? fuel (c :: cs)).map fun found => (.array found.1, found.2) := by
  rw [readValue?, hskip]
  split
  · rename_i heq
    exact absurd (List.cons.inj heq).1 hclose
  · cases readItems? fuel (c :: cs) <;> rfl

theorem readValue?_object (fuel : Nat) {text cs : List Char} (hskip : skipSpace text = '"' :: cs) :
    readValue? (fuel + 1) ('\x7b' :: text) =
      (readMembers? fuel ('"' :: cs)).map fun found => (.object found.1, found.2) := by
  rw [readValue?, hskip]
  split
  · rename_i heq
    exact absurd (List.cons.inj heq).1 (by decide)
  · cases readMembers? fuel ('"' :: cs) <;> rfl

/-- A textual value is read off the front of any text that it is written before. -/
theorem Textual.reads (h : Textual json) (style : Style) : Reads style json := by
  induction h with
  | null =>
    exact Textual.null.reads_of_succ fun _ fuel rest _ =>
      readValue?_word _ (by simp [words]) fuel rest
  | bool value =>
    refine (Textual.bool value).reads_of_succ fun depth fuel rest _ => ?_
    cases value with
    | true => exact readValue?_word "true".toList (by simp [words]) fuel rest
    | false => exact readValue?_word "false".toList (by simp [words]) fuel rest
  | string value =>
    refine (Textual.string value).reads_of_succ fun depth fuel rest _ => ?_
    obtain ⟨body, hbody, hread⟩ := readString?_writeString style value rest
    rw [writeAt_string, hbody, readValue?, hread]
    rfl
  | @array items htextual ih =>
    refine (Textual.array htextual).reads_of_succ fun depth fuel rest hfuel => ?_
    cases items with
    | nil => rfl
    | cons item items =>
      rw [writeAt_array_cons] at hfuel ⊢
      obtain ⟨c, cs, hitem, hspace, hclose⟩ :=
        (htextual item List.mem_cons_self).head style (depth + 1)
      have hitems := readItems?_written htextual ih (depth + 1) depth fuel
        (by simp at hfuel ⊢; omega) rest
      simp only [List.cons_append, List.append_assoc, List.nil_append]
      rw [hitem, List.cons_append] at hitems ⊢
      rw [readValue?_array fuel (skipSpace_lineBreak style (depth + 1) hspace _) hclose, hitems]
      rfl
  | @object members htextual ih =>
    refine (Textual.object htextual).reads_of_succ fun depth fuel rest hfuel => ?_
    cases members with
    | nil => rfl
    | cons m members =>
      rw [writeAt_object_cons] at hfuel ⊢
      obtain ⟨body, -, hbody, -, -⟩ := exists_writeMember style (depth + 1) m.1
        (htextual m List.mem_cons_self) (writeMembers style (depth + 1) members ++
          (lineBreak style depth ++ '\x7d' :: rest))
      have hmembers := readMembers?_written htextual ih (depth + 1) depth fuel
        (by simp at hfuel ⊢; omega) rest
      simp only [List.cons_append, List.append_assoc, List.nil_append]
      rw [hbody] at hmembers ⊢
      rw [readValue?_object fuel (skipSpace_lineBreak style (depth + 1) rfl _), hmembers]
      rfl

/-- A textual document is read as it was written, also with a line break behind it. -/
theorem Textual.read?_write (h : Textual json) (style : Style) :
    read? (json.write style ++ "\n") = some json := by
  obtain ⟨c, cs, hhead, hspace, -⟩ := h.head style 0
  have htext : (json.write style ++ "\n").toList = writeAt style 0 json ++ ['\n'] := by
    simp [write]
  have hskip : skipSpace (writeAt style 0 json ++ ['\n']) = writeAt style 0 json ++ ['\n'] := by
    rw [hhead]
    exact skipSpace_cons hspace _
  have hread := h.reads style 0 ((writeAt style 0 json ++ ['\n']).length + 1) ['\n']
    (by simp; omega)
  simp only [read?, htext, hskip, hread]
  rfl

end Schemata.Json
