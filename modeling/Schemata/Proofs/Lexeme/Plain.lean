import Mathlib.Data.List.Basic
import Mathlib.Tactic
import Schemata.Lexeme.Basic
import Schemata.Proofs.Text.Identifier
import Schemata.Proofs.Text.Trim

/-!
# Plain text

Text of words, blanks and single marks. A tokenizer reads such a text plainly if it yields one
lexeme for each word and one for each mark, in order; where the lexemes stand is left open.
-/
namespace Schemata

/-- What a lexeme says, wherever it stands. -/
abbrev Content := LexemeKind × String

namespace Content

abbrev word (text : String) : Content := (.word, text)

abbrev mark (text : String) : Content := (.punct, text)

end Content

def Lexeme.content (u : Lexeme) : Content := (u.kind, u.text)

namespace Plain

open Content Text

def isWordChar (c : Char) : Bool := c = '_' || c.isAlphanum

theorem isWordChar_of_isLower {c : Char} (h : c.isLower = true) : isWordChar c = true := by
  have halpha : c.isAlpha = true := (Bool.or_eq_true _ _).mpr (Or.inr h)
  have halnum : c.isAlphanum = true := (Bool.or_eq_true _ _).mpr (Or.inl halpha)
  rw [isWordChar, halnum, Bool.or_true]

theorem isWordChar_of_isDigit {c : Char} (h : c.isDigit = true) : isWordChar c = true := by
  have halnum : c.isAlphanum = true := (Bool.or_eq_true _ _).mpr (Or.inr h)
  rw [isWordChar, halnum, Bool.or_true]

/-- The word that has been collected, if there is one. -/
def wordOf (cs : List Char) : List Content := if cs.isEmpty then [] else [word (String.ofList cs)]

/-- The words and marks of a text, where `current` is the word so far. -/
def contentsFrom (current : List Char) : List Char → List Content
  | [] => wordOf current
  | c :: cs =>
    if isWordChar c then contentsFrom (current ++ [c]) cs
    else if isBlank c then wordOf current ++ contentsFrom [] cs
    else wordOf current ++ mark (String.singleton c) :: contentsFrom [] cs

/-- The words and marks of a text. -/
def contents (cs : List Char) : List Content := contentsFrom [] cs

/-! ## Pieces of text -/

theorem contentsFrom_word (current : List Char) {cs : List Char} (h : ∀ c ∈ cs, isWordChar c = true)
    (rest : List Char) : contentsFrom current (cs ++ rest) = contentsFrom (current ++ cs) rest := by
  induction cs generalizing current with
  | nil => simp
  | cons c cs ih =>
    rw [List.cons_append, contentsFrom, if_pos (h c List.mem_cons_self),
      ih _ fun d hd => h d (List.mem_cons_of_mem c hd), List.append_assoc, List.singleton_append]

/-- Words do not run on over a blank. -/
theorem contentsFrom_blank (current as : List Char) {c : Char} (hw : isWordChar c = false)
    (hb : isBlank c = true) (bs : List Char) :
    contentsFrom current (as ++ c :: bs) = contentsFrom current as ++ contents bs := by
  induction as generalizing current with
  | nil => simp [contentsFrom, hw, hb, contents]
  | cons a as ih =>
    simp only [List.cons_append, contentsFrom]
    split_ifs <;> simp [ih]

/-- Words do not run on over a mark. -/
theorem contentsFrom_mark (current as : List Char) {c : Char} (hw : isWordChar c = false)
    (hb : isBlank c = false) (bs : List Char) :
    contentsFrom current (as ++ c :: bs) =
      contentsFrom current as ++ mark (String.singleton c) :: contents bs := by
  induction as generalizing current with
  | nil => simp [contentsFrom, hw, hb, contents]
  | cons a as ih =>
    simp only [List.cons_append, contentsFrom]
    split_ifs <;> simp [ih]

theorem contents_space (as bs : List Char) :
    contents (as ++ ' ' :: bs) = contents as ++ contents bs :=
  contentsFrom_blank [] as rfl rfl bs

theorem contents_line (as bs : List Char) :
    contents (as ++ '\n' :: bs) = contents as ++ contents bs :=
  contentsFrom_blank [] as rfl rfl bs

theorem contents_mark (as : List Char) {c : Char} (hw : isWordChar c = false)
    (hb : isBlank c = false) (bs : List Char) :
    contents (as ++ c :: bs) = contents as ++ mark (String.singleton c) :: contents bs :=
  contentsFrom_mark [] as hw hb bs

theorem isWordChar_of_isBlank {c : Char} (h : isBlank c = true) : isWordChar c = false :=
  forall_blank (P := fun c => isWordChar c = false) (by decide) h

theorem contents_blanks_append {blanks : List Char} (h : isBlankText blanks = true)
    (cs : List Char) : contents (blanks ++ cs) = contents cs := by
  induction blanks with
  | nil => rfl
  | cons c blanks ih =>
    obtain ⟨hc, hblanks⟩ := (Bool.and_eq_true _ _).mp h
    have hsplit := contentsFrom_blank [] [] (isWordChar_of_isBlank hc) hc (blanks ++ cs)
    rw [List.nil_append] at hsplit
    rw [List.cons_append, contents, hsplit, ih hblanks]
    rfl

theorem contents_append_blanks {blanks : List Char} (h : isBlankText blanks = true)
    (cs : List Char) : contents (cs ++ blanks) = contents cs := by
  cases blanks with
  | nil => rw [List.append_nil]
  | cons c blanks =>
    obtain ⟨hc, hblanks⟩ := (Bool.and_eq_true _ _).mp h
    have hnil : contents blanks = [] := by
      rw [← List.append_nil blanks, contents_blanks_append hblanks]
      rfl
    rw [contents, contentsFrom_blank [] cs (isWordChar_of_isBlank hc) hc, hnil,
      List.append_nil, contents]

/-- Blanks at the ends of a text add nothing to its words and marks. -/
theorem contents_trim (cs : List Char) : contents (trim cs) = contents cs := by
  obtain ⟨before, after, hbefore, hafter, hcs⟩ := exists_blanks_trim cs
  calc contents (trim cs) = contents (trim cs ++ after) := (contents_append_blanks hafter _).symm
    _ = contents (before ++ (trim cs ++ after)) := (contents_blanks_append hbefore _).symm
    _ = contents cs := by rw [← List.append_assoc, ← hcs]

theorem isWordChar_of_isIdentifierChar {c : Char} (h : isIdentifierChar c = true) :
    isWordChar c = true := by
  simp only [isIdentifierChar, isIdentifierStart, Bool.or_eq_true, decide_eq_true_eq] at h
  rcases h with (hlower | rfl) | hdigit
  · exact isWordChar_of_isLower hlower
  · rfl
  · exact isWordChar_of_isDigit hdigit

theorem contents_word {name : String} (h : ∀ c ∈ name.toList, isWordChar c = true)
    (hne : name.toList ≠ []) : contents name.toList = [word name] := by
  have happ := contentsFrom_word [] h []
  rw [List.append_nil, List.nil_append] at happ
  rw [contents, happ, contentsFrom, wordOf]
  simp [hne]

theorem contents_identifier {name : String} (h : isIdentifier name = true) :
    contents name.toList = [word name] :=
  contents_word (fun _ hc => isWordChar_of_isIdentifierChar (isIdentifierChar_of_mem h hc))
    (toList_ne_nil_of_isIdentifier h)

/-- Every content is a word or a mark. -/
theorem kind_of_mem_contents {cs : List Char} {x : Content} (h : x ∈ contents cs) :
    x.1 = .word ∨ x.1 = .punct := by
  suffices hgen : ∀ current, x ∈ contentsFrom current cs → x.1 = .word ∨ x.1 = .punct from hgen [] h
  clear h
  have hword : ∀ current, x ∈ wordOf current → x.1 = .word := by
    intro current hx
    rw [wordOf] at hx
    split at hx
    · cases hx
    · rw [List.mem_singleton.mp hx]
  induction cs with
  | nil => exact fun current hx => Or.inl (hword current hx)
  | cons c cs ih =>
    intro current hx
    rw [contentsFrom] at hx
    split at hx
    · exact ih _ hx
    · split at hx
      · exact (List.mem_append.mp hx).elim (fun hx => Or.inl (hword current hx)) (ih _)
      · rcases List.mem_append.mp hx with hx | hx
        · exact Or.inl (hword current hx)
        · rcases List.mem_cons.mp hx with rfl | hx
          · exact Or.inr rfl
          · exact ih _ hx

/-- No mark of a text is lost. -/
theorem mark_mem_contents {cs : List Char} {c : Char} (hc : c ∈ cs) (hw : isWordChar c = false)
    (hb : isBlank c = false) : mark (String.singleton c) ∈ contents cs := by
  obtain ⟨as, bs, rfl⟩ := List.append_of_mem hc
  rw [contents_mark as hw hb]
  exact List.mem_append_right _ List.mem_cons_self

end Plain

/-- The tokenizer yields one lexeme for each word and each mark of a text, in order. -/
def Tokenizer.ReadsPlainly (tokenize : Tokenizer) (text : List Char) : Prop :=
  ∃ us, tokenize text = .ok us ∧ us.map Lexeme.content = Plain.contents text

/-! ## Lexemes of given contents -/

namespace Lexeme

open Content Text

variable {u : Lexeme} {text : String}

section Word

variable (h : u.content = word text)
include h

theorem kind_of_word : u.kind = .word := congrArg Prod.fst h

theorem text_of_word : u.text = text := congrArg Prod.snd h

theorem isName_of_word : u.isName = true := by
  simp [isName, kind_of_word h]

theorem isPunct_of_word (m : String) : u.isPunct m = false := by
  simp [isPunct, kind_of_word h]

theorem isOpening_of_word : u.isOpening = false := isPunct_of_word h "("

theorem isClosing_of_word : u.isClosing = false := isPunct_of_word h ")"

theorem isWord_of_word (keywords : List String) :
    u.isWord keywords = decide (upperCase text ∈ keywords) := by
  simp [isWord, upper, kind_of_word h, text_of_word h]

theorem identifier_of_word (hid : isIdentifier text = true) : u.identifier = text := by
  have hquote : ∀ c ∈ text.toList, decide (c ∈ ['\x60', '"', '[', ']']) = false := by
    intro c hc
    have hn := toNat_of_isIdentifierChar (isIdentifierChar_of_mem hid hc)
    simp only [decide_eq_false_iff_not, List.mem_cons, List.not_mem_nil, or_false, not_or]
    refine ⟨?_, ?_, ?_, ?_⟩ <;> rintro rfl <;> revert hn <;> decide
  rw [identifier, text_of_word h, trimWhile_eq_self hquote, lower_identifier hid,
    String.ofList_toList]

end Word

section Mark

variable (h : u.content = mark text)
include h

theorem kind_of_mark : u.kind = .punct := congrArg Prod.fst h

theorem text_of_mark : u.text = text := congrArg Prod.snd h

theorem isPunct_of_mark (m : String) : u.isPunct m = decide (text = m) := by
  simp [isPunct, kind_of_mark h, text_of_mark h]

end Mark

theorem isOpening_of_mark {u : Lexeme} (h : u.content = mark "(") : u.isOpening = true := by
  rw [isOpening, isPunct_of_mark h]
  rfl

theorem isClosing_of_mark {u : Lexeme} (h : u.content = mark ")") : u.isClosing = true := by
  rw [isClosing, isPunct_of_mark h]
  rfl

end Lexeme

end Schemata
