import Schemata.Lexeme.Split

/-!
# Phrases of a definition

Names, lists of names, references and default values, each read off the front of some lexemes. What
follows the phrase is always an end piece of what was there.
-/
namespace Schemata.Phrase

/-- Whether the next lexeme is a given keyword. -/
def nextIs (keyword : String) : List Lexeme → Bool
  | u :: _ => u.isWord [keyword]
  | [] => false

/-- Whether two given keywords come next. -/
def pairIs (first second : String) : List Lexeme → Bool
  | u :: us => u.isWord [first] && nextIs second us
  | [] => false

/-! ## Names -/

/-- The parts of a name after dots; the last one counts. -/
def qualifiedRest (name : String) : List Lexeme → String × List Lexeme
  | dot :: part :: us =>
    if dot.isPunct "." && part.isName then qualifiedRest part.identifier us
    else (name, dot :: part :: us)
  | us => (name, us)

/-- A name, possibly qualified; only its last part is kept. -/
def qualifiedName? : List Lexeme → Option (String × List Lexeme)
  | u :: us => if u.isName then some (qualifiedRest u.identifier us) else none
  | [] => none

/-- The name that a clause opens with. -/
def leadingName? : List Lexeme → Option String
  | u :: _ => if u.isName then some u.identifier else none
  | [] => none

/-- The names in a list in parentheses; without a list there are none. A list that is never closed
takes all that follows. -/
def nameList : List Lexeme → List String × List Lexeme
  | [] => ([], [])
  | u :: us =>
    if u.isOpening then
      match Lexeme.closing? us with
      | some (inside, _, rest) => ((Lexeme.clauses inside).filterMap leadingName?, rest)
      | none => ((Lexeme.clauses us).filterMap leadingName?, [])
    else ([], u :: us)

/-! ## References -/

/-- What a reference points at. A column that is left out is the primary key of the table. -/
structure Target where
  table : String
  column : Option String
deriving DecidableEq

/-- Why a reference cannot be kept. -/
inductive ReferenceFault where
  | noTable
  | notSingle (table : String) (columns : List String)
deriving DecidableEq

/-- What stands after `REFERENCES`: a table name and at most one column. -/
def reference (us : List Lexeme) : Except ReferenceFault Target × List Lexeme :=
  match qualifiedName? us with
  | none => (.error .noTable, us)
  | some (table, rest) =>
    match rest with
    | u :: _ =>
      if u.isOpening then
        match nameList rest with
        | ([column], rest) => (.ok ⟨table, some column⟩, rest)
        | (columns, rest) => (.error (.notSingle table columns), rest)
      else (.ok ⟨table, none⟩, rest)
    | [] => (.ok ⟨table, none⟩, [])

/-! ## Default values -/

/-- The last lexeme of a group whose opening parenthesis is given. A group that is never closed
takes all that follows. -/
def groupEnd (opening : Lexeme) (us : List Lexeme) : Lexeme × List Lexeme :=
  match Lexeme.closing? us with
  | some (_, close, rest) => (close, rest)
  | none => (us.getLast?.getD opening, [])

/-- The last lexeme of an expression that begins with a given one: a group, a sign with what follows
it, or a word with the group that follows it. -/
def expressionEnd (first : Lexeme) (us : List Lexeme) : Lexeme × List Lexeme :=
  if first.isOpening then groupEnd first us
  else match us with
    | [] => (first, [])
    | next :: rest =>
      if first.text = "-" || first.text = "+" then (next, rest)
      else if next.isOpening then groupEnd next rest
      else (first, us)

/-- Goes past type casts. -/
def castEnd (last : Lexeme) : List Lexeme → Lexeme × List Lexeme
  | mark :: type :: us =>
    if mark.text = "::" then castEnd type us else (last, mark :: type :: us)
  | us => (last, us)

/-- The source text of the expression after `DEFAULT`, if there is one. -/
def default? (source : List Char) : List Lexeme → Option String × List Lexeme
  | [] => (none, [])
  | first :: us =>
    if first.isPunct "," || first.isClosing then (none, first :: us)
    else
      let (last, rest) := expressionEnd first us
      let (last, rest) := castEnd last rest
      (some (Lexeme.sourceText source [first, last]), rest)

/-! ## What follows is an end piece -/

theorem closingFrom?_suffix {depth : Nat} {us inside rest : List Lexeme} {close : Lexeme}
    (h : Lexeme.closingFrom? depth us = some (inside, close, rest)) : rest <:+ us := by
  induction us generalizing depth inside close with
  | nil => cases h
  | cons u us ih =>
    simp only [Lexeme.closingFrom?] at h
    split at h
    · cases h
      exact List.suffix_cons ..
    · simp only [Option.map_eq_some_iff, Prod.mk.injEq] at h
      obtain ⟨⟨i, c, r⟩, hr, -, -, rfl⟩ := h
      exact (ih hr).trans (List.suffix_cons ..)

theorem closing?_suffix {us inside rest : List Lexeme} {close : Lexeme}
    (h : Lexeme.closing? us = some (inside, close, rest)) : rest <:+ us := closingFrom?_suffix h

theorem qualifiedRest_suffix (name : String) (us : List Lexeme) :
    (qualifiedRest name us).2 <:+ us := by
  fun_induction qualifiedRest name us with
  | case1 name dot part us h ih =>
    exact ih.trans ((List.suffix_cons ..).trans (List.suffix_cons ..))
  | case2 => exact List.suffix_rfl
  | case3 => exact List.suffix_rfl

theorem nameList_suffix (us : List Lexeme) : (nameList us).2 <:+ us := by
  cases us with
  | nil => exact List.suffix_rfl
  | cons u us =>
    simp only [nameList]
    split
    · split
      · next h => exact (closing?_suffix h).trans (List.suffix_cons ..)
      · exact List.nil_suffix
    · exact List.suffix_rfl

theorem qualifiedName?_suffix {us rest : List Lexeme} {name : String}
    (h : qualifiedName? us = some (name, rest)) : rest <:+ us := by
  cases us with
  | nil => cases h
  | cons u us =>
    simp only [qualifiedName?] at h
    split at h
    · have hr : (qualifiedRest u.identifier us).2 = rest := by rw [Option.some.inj h]
      exact hr ▸ (qualifiedRest_suffix ..).trans (List.suffix_cons ..)
    · cases h

theorem reference_suffix (us : List Lexeme) : (reference us).2 <:+ us := by
  simp only [reference]
  split
  · exact List.suffix_rfl
  · next table rest h =>
    have hr := qualifiedName?_suffix h
    split
    · next u us =>
      have hn := (nameList_suffix (u :: us)).trans hr
      split
      · split
        · next he => rwa [he] at hn
        · next _ he => rwa [he] at hn
      · exact hr
    · exact List.nil_suffix

theorem groupEnd_suffix (opening : Lexeme) (us : List Lexeme) :
    (groupEnd opening us).2 <:+ us := by
  simp only [groupEnd]
  split
  · next h => exact closing?_suffix h
  · exact List.nil_suffix

theorem expressionEnd_suffix (first : Lexeme) (us : List Lexeme) :
    (expressionEnd first us).2 <:+ us := by
  simp only [expressionEnd]
  split
  · exact groupEnd_suffix ..
  · split
    · exact List.suffix_rfl
    · split
      · exact List.suffix_cons ..
      · split
        · exact (groupEnd_suffix ..).trans (List.suffix_cons ..)
        · exact List.suffix_rfl

theorem castEnd_suffix (last : Lexeme) (us : List Lexeme) : (castEnd last us).2 <:+ us := by
  fun_induction castEnd last us with
  | case1 last mark type us h ih =>
    exact ih.trans ((List.suffix_cons ..).trans (List.suffix_cons ..))
  | case2 => exact List.suffix_rfl
  | case3 => exact List.suffix_rfl

theorem default?_suffix (source : List Char) (us : List Lexeme) :
    (default? source us).2 <:+ us := by
  cases us with
  | nil => exact List.suffix_rfl
  | cons first us =>
    simp only [default?]
    split
    · exact List.suffix_rfl
    · exact (castEnd_suffix ..).trans ((expressionEnd_suffix ..).trans (List.suffix_cons ..))

end Schemata.Phrase
