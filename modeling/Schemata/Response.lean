import Schemata.Text.Affix
import Schemata.Text.Blank
import Schemata.Text.Caseless

/-!
# Answers with fenced scripts

An answer is prose with scripts in fences of three backticks, tagged `sql` or not at all. The last
script may lack its closing fence while the answer is still being written.
-/
namespace Schemata.Response

/-- A slice of an answer. -/
inductive Part where
  | prose (content : List Char)
  | script (content : List Char) (complete : Bool)
deriving DecidableEq

namespace Part

def content : Part → List Char
  | prose cs => cs
  | script cs _ => cs

def isScript : Part → Bool
  | prose _ => false
  | script _ _ => true

def isComplete : Part → Bool
  | prose _ => true
  | script _ complete => complete

end Part

def fence : List Char := ['\x60', '\x60', '\x60']

/-- Blanks within a line. -/
def skipSpace (cs : List Char) : List Char := cs.dropWhile fun c => c = ' ' || c = '\t'

def skipChar (c : Char) : List Char → List Char
  | [] => []
  | d :: cs => if d = c then cs else d :: cs

/-- The text after an opening fence at the front: backticks, a tag at most, and the end of the
line. -/
def afterOpening? (cs : List Char) : Option (List Char) := do
  let cs ← Text.after? fence cs
  let cs := skipSpace cs
  let cs := (Text.afterKeyword? ['s', 'q', 'l'] cs).getD cs
  Text.after? ['\n'] (skipChar '\r' (skipSpace cs))

/-- The text after a closing fence at the front, with the line break and blanks before it. -/
def afterClosing? (cs : List Char) : Option (List Char) :=
  Text.after? fence (skipSpace (skipChar '\n' (skipChar '\r' cs)))

/-- The text before the first opening fence and the text after that fence. -/
def opening? : List Char → Option (List Char × List Char)
  | [] => none
  | c :: cs =>
    match afterOpening? (c :: cs) with
    | some after => some ([], after)
    | none => (opening? cs).map fun (before, after) => (c :: before, after)

/-- The text before the first closing fence and the text after that fence. -/
def closing? : List Char → Option (List Char × List Char)
  | [] => none
  | c :: cs =>
    match afterClosing? (c :: cs) with
    | some after => some ([], after)
    | none => (closing? cs).map fun (before, after) => (c :: before, after)

/-! ## What is left is a part of what was there -/

theorem skipSpace_suffix (cs : List Char) : skipSpace cs <:+ cs := List.dropWhile_suffix _

theorem skipChar_suffix (c : Char) (cs : List Char) : skipChar c cs <:+ cs := by
  cases cs with
  | nil => exact List.suffix_rfl
  | cons d cs =>
    simp only [skipChar]
    split
    · exact List.suffix_cons ..
    · exact List.suffix_rfl

theorem afterOpening?_eq {cs after : List Char} (h : afterOpening? cs = some after) :
    ∃ mark, cs = fence ++ mark ++ after := by
  simp only [afterOpening?, Option.bind_eq_bind, Option.bind_eq_some_iff] at h
  obtain ⟨a, ha, h⟩ := h
  have hs : after <:+ a := by
    refine (Text.after?_suffix h).trans ((skipChar_suffix ..).trans ((skipSpace_suffix _).trans
      (List.IsSuffix.trans ?_ (skipSpace_suffix a))))
    cases hk : Text.afterKeyword? ['s', 'q', 'l'] (skipSpace a) with
    | none => exact List.suffix_rfl
    | some k =>
      obtain ⟨o, ho, -⟩ := Text.afterKeyword?_eq_some_iff.1 hk
      exact ⟨o, ho.symm⟩
  obtain ⟨mark, rfl⟩ := hs
  exact ⟨mark, by rw [Text.after?_eq_some_iff.1 ha, List.append_assoc]⟩

theorem afterClosing?_suffix {cs after : List Char} (h : afterClosing? cs = some after) :
    after <:+ cs :=
  (Text.after?_suffix h).trans ((skipSpace_suffix _).trans ((skipChar_suffix ..).trans
    (skipChar_suffix ..)))

theorem opening?_eq {cs before after : List Char} (h : opening? cs = some (before, after)) :
    ∃ mark, cs = before ++ (fence ++ mark ++ after) := by
  induction cs generalizing before with
  | nil => cases h
  | cons c cs ih =>
    simp only [opening?] at h
    split at h
    · next ha =>
      cases h
      exact afterOpening?_eq ha
    · simp only [Option.map_eq_some_iff, Prod.mk.injEq] at h
      obtain ⟨⟨b, a⟩, hb, rfl, rfl⟩ := h
      obtain ⟨mark, hm⟩ := ih hb
      exact ⟨mark, by rw [hm, List.cons_append]⟩

theorem opening?_length {cs before after : List Char} (h : opening? cs = some (before, after)) :
    after.length < cs.length := by
  obtain ⟨mark, rfl⟩ := opening?_eq h
  simp only [fence, List.length_append, List.length_cons]
  omega

theorem closing?_suffix {cs before after : List Char} (h : closing? cs = some (before, after)) :
    after <:+ cs := by
  induction cs generalizing before with
  | nil => cases h
  | cons c cs ih =>
    simp only [closing?] at h
    split at h
    · next ha =>
      cases h
      exact afterClosing?_suffix ha
    · simp only [Option.map_eq_some_iff, Prod.mk.injEq] at h
      obtain ⟨⟨b, a⟩, hb, -, rfl⟩ := h
      exact (ih hb).trans (List.suffix_cons ..)

/-! ## Parts -/

/-- A run of prose, left out if it is blank. -/
def prosePart (cs : List Char) : List Part := if Text.isBlankText cs then [] else [.prose cs]

/-- The parts of an answer in order. -/
def parts (cs : List Char) : List Part :=
  match _h : opening? cs with
  | none => prosePart cs
  | some (before, inside) =>
    match _h' : closing? inside with
    | none => prosePart before ++ [.script inside false]
    | some (content, after) => prosePart before ++ .script content true :: parts after
termination_by cs.length
decreasing_by exact Nat.lt_of_le_of_lt (closing?_suffix _h').length_le (opening?_length _h)

/-- The scripts of an answer, with a blank line between two. An answer without any fence is a script
as a whole. -/
def script (cs : List Char) : List Char :=
  match ((parts cs).filter Part.isScript).map Part.content with
  | [] => cs
  | blocks => ['\n', '\n'].intercalate blocks

end Schemata.Response
