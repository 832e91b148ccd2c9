import Mathlib.Data.List.Basic
import Mathlib.Tactic
import Schemata.Proofs.Lexer.Tokens

/-!
# Blanks around a text

A scan comes through a text in the same way if blanks stand before and behind it: the tokens are the
same, further on in the text. Only what ends with the text may reach into the blanks behind it, and
the string that a command is kept as may stand among them.
-/
namespace Schemata

/-- The token further on in a text. -/
def Token.moved (k : ℕ) (t : Token) : Token := { t with start := t.start + k, stop := t.stop + k }

/-- The last token of a text of length `n`, and what it is with `k` characters before the text and
blanks behind it. -/
structure Token.Late (k n : ℕ) (t t' : Token) : Prop where
  kind : t'.kind = t.kind
  role : t'.role = t.role
  text : t'.text = t.text
  stop : t.stop + 1 = n
  stop_le : n + k ≤ t'.stop + 1
  start : t'.start = t.start + k ∨ n + k ≤ t'.start

namespace Lexer

open Text

/-- How far a scan of a text of length `n` and one of the same text with `k` characters before it
and blanks behind it have come: to the same place, or beyond the end of the text. -/
structure Progress.SamePlace (k n : ℕ) (blanks : List Char) (p p' : Progress) : Prop where
  position : p.position + p.rest.length = n
  place : (p'.rest = p.rest ++ blanks ∧ p'.position = p.position + k ∧ p'.start = p.start + k) ∨
    (p.rest = [] ∧ p'.rest <:+ blanks ∧ n + k ≤ p'.position ∧
      (p'.start = p.start + k ∨ n + k ≤ p'.start))

/-- Scans that have come to the same place with the same tokens. -/
structure Progress.Around (k n : ℕ) (blanks : List Char) (p p' : Progress) : Prop extends
    Progress.SamePlace k n blanks p p' where
  stop_lt : ∀ t ∈ p.tokens, t.stop < n
  tokens : p'.tokens = p.tokens.map (Token.moved k) ∨
    (p.rest = [] ∧ ∃ t t' before, p.tokens = t :: before ∧
      p'.tokens = t' :: before.map (Token.moved k) ∧ Token.Late k n t t')

namespace Progress

variable {k n : ℕ} {blanks : List Char} {p p' : Progress}

theorem SamePlace.length_le (h : SamePlace k n blanks p p') :
    p'.rest.length ≤ p.rest.length + blanks.length := by
  obtain ⟨hrest, -⟩ | ⟨-, hrest, -⟩ := h.place
  · rw [hrest, List.length_append]
  · exact hrest.length_le.trans (Nat.le_add_left _ _)

/-- Before its end both scans stand at the same place of the text. -/
theorem SamePlace.of_ne_nil (h : SamePlace k n blanks p p') (hne : p.rest ≠ []) :
    p'.rest = p.rest ++ blanks ∧ p'.position = p.position + k ∧ p'.start = p.start + k :=
  h.place.resolve_right fun hend => hne hend.1

theorem SamePlace.rest_blank (h : SamePlace k n blanks p p')
    (hblanks : ∀ c ∈ blanks, isBlank c = true) (hnil : p.rest = []) :
    ∀ c ∈ p'.rest, isBlank c = true := by
  obtain ⟨hrest, -⟩ | ⟨-, hrest, -⟩ := h.place
  · rwa [hrest, hnil, List.nil_append]
  · exact fun c hc => hblanks c (hrest.subset hc)

theorem SamePlace.atEnd (h : SamePlace k n blanks p p') (hnil : p.rest = []) :
    n + k ≤ p'.position ∧ (p'.start = p.start + k ∨ n + k ≤ p'.start) := by
  have hposition := h.position
  rw [hnil, List.length_nil, Nat.add_zero] at hposition
  obtain ⟨-, hplace, hstart⟩ | ⟨-, -, hplace⟩ := h.place
  · exact ⟨by rw [hplace, hposition], .inl hstart⟩
  · exact hplace

theorem SamePlace.head? (h : SamePlace k n blanks p p') (hblanks : ∀ c ∈ blanks, isBlank c = true) :
    p'.rest.head? = some ';' ↔ p.rest.head? = some ';' := by
  cases hp : p.rest with
  | nil =>
    have hmark : ';' ∉ p'.rest := not_mem_of_blanks (by decide) (h.rest_blank hblanks hp)
    exact iff_of_false (fun hhead => hmark (List.mem_of_head? hhead)) (by simp)
  | cons c cs =>
    rw [(h.of_ne_nil (by simp [hp])).1, hp]
    rfl

theorem Around.map_role (h : Around k n blanks p p') :
    p'.tokens.map (·.role) = p.tokens.map (·.role) := by
  obtain htokens | ⟨-, t, t', before, htokens, htokens', hlate⟩ := h.tokens
  · rw [htokens, List.map_map]
    rfl
  · rw [htokens, htokens', List.map_cons, List.map_cons, List.map_map, hlate.role]
    rfl

theorem Around.previousRole (h : Around k n blanks p p') : p'.previousRole = p.previousRole := by
  rw [Progress.previousRole, Progress.previousRole, ← List.head?_map, ← List.head?_map, h.map_role]

/-- A command opens after the same tokens. -/
theorem Around.opensCommand (h : Around k n blanks p p')
    (hblanks : ∀ c ∈ blanks, isBlank c = true) : p'.opensCommand = p.opensCommand := by
  have hrole : ∀ q : Progress, q.opensCommand = (decide (q.rest.head? ≠ some ';') &&
      match q.tokens.map (·.role) with
      | [r] => r = .command
      | r :: before :: _ => r = .command && before = .commandOpener
      | [] => false) := by
    rintro ⟨start, position, rest, tokens⟩
    rcases tokens with _ | ⟨t, _ | ⟨before, tokens⟩⟩ <;> rfl
  rw [hrole, hrole, h.map_role, decide_eq_decide.mpr (not_congr (h.head? hblanks))]

/-- A token is put at the same place, or it is the last one. -/
theorem SamePlace.push (h : SamePlace k n blanks p p') (hpos : 0 < p.position)
    (hstop : ∀ t ∈ p.tokens, t.stop < n) (htokens : p'.tokens = p.tokens.map (Token.moved k))
    (kind : LexemeKind) (role : TokenRole) (text : List Char) :
    Around k n blanks (p.push kind role text) (p'.push kind role text) where
  position := h.position
  place := h.place
  stop_lt t ht := by
    rcases List.mem_cons.mp ht with rfl | ht
    · have hposition := h.position
      simp only
      omega
    · exact hstop t ht
  tokens := by
    have hposition := h.position
    obtain ⟨hrest, hplace, hstart⟩ | ⟨hnil, -, hplace, hstart⟩ := h.place
    · left
      simp only [Progress.push, htokens, hplace, hstart, List.map_cons, Token.moved]
      congr 3
      omega
    · right
      refine ⟨hnil, _, _, _, rfl, congrArg _ htokens, ⟨rfl, rfl, rfl, ?_, ?_, hstart⟩⟩
      · rw [hnil, List.length_nil, Nat.add_zero] at hposition
        simp only
        omega
      · simp only
        omega

/-- Where a step begins does not set two scans apart. -/
theorem SamePlace.restart (h : SamePlace k n blanks p p') :
    SamePlace k n blanks { p with start := p.position } { p' with start := p'.position } where
  position := h.position
  place := by
    obtain ⟨hrest, hposition, -⟩ | ⟨hnil, hrest, hposition, -⟩ := h.place
    · exact .inl ⟨hrest, hposition, hposition⟩
    · exact .inr ⟨hnil, hrest, hposition, .inr hposition⟩

theorem SamePlace.moveTo (h : SamePlace k n blanks p p') (hne : p.rest ≠ [])
    {rest rest' : List Char} (hsuffix : rest <:+ p.rest)
    (hrest : rest' = rest ++ blanks ∨ rest = [] ∧ rest' <:+ blanks) :
    SamePlace k n blanks (p.moveTo rest) (p'.moveTo rest') := by
  obtain ⟨hp, hplace, hstart⟩ := h.of_ne_nil hne
  have hposition := h.position
  have hle := hsuffix.length_le
  refine ⟨?_, ?_⟩
  · simp only [Progress.moveTo]
    omega
  · rw [Progress.moveTo, Progress.moveTo, hp, hplace, hstart]
    obtain rfl | ⟨rfl, hrest⟩ := hrest
    · refine .inl ⟨rfl, ?_, rfl⟩
      rw [List.length_append, List.length_append, Nat.add_sub_add_right]
      exact Nat.add_right_comm ..
    · refine .inr ⟨rfl, hrest, ?_, .inl rfl⟩
      have hle' := hrest.length_le
      simp only [List.length_append, List.length_nil] at *
      omega

end Progress

open Progress

section Step

variable {d : Dialect} {k n : ℕ} {blanks : List Char} {p p' : Progress}

theorem length_dropWhile_behind (drops : Char → Bool) {cs : List Char} (hne : cs ≠ [])
    (blanks : List Char) :
    ((cs ++ blanks).dropWhile drops).length < (cs ++ blanks).length ↔
      (cs.dropWhile drops).length < cs.length := by
  have hlong : 0 < cs.length := List.length_pos_iff.mpr hne
  obtain hlater | ⟨hnil, hlater⟩ := dropWhile_behind drops cs blanks
  · rw [hlater, List.length_append, List.length_append]
    omega
  · have hle := hlater.length_le
    rw [hnil, List.length_nil, List.length_append]
    omega

/-- A step goes on in the same way with blanks around the text. -/
theorem step_around (hblanks : ∀ c ∈ blanks, isBlank c = true) (h : Around k n blanks p p')
    (hne : p.rest ≠ []) (hsettled : d = .postgresql → EndsSettled p.rest) :
    Agree (fun a a' => a'.1 = a.1 ∧ SamePlace k n blanks a.2 a'.2 ∧ a.2.tokens = p.tokens ∧
        a'.2.tokens = p'.tokens ∧ a.2.rest <:+ p.rest ∧ a.2.rest.length < p.rest.length)
      (step d.lexicon p) (step d.lexicon p') := by
  obtain ⟨start, position, rest, tokens⟩ := p
  obtain ⟨start', position', rest', tokens'⟩ := p'
  obtain ⟨rfl, -⟩ : rest' = rest ++ blanks ∧ _ := h.toSamePlace.of_ne_nil hne
  have hplace : SamePlace k n blanks ⟨start, position, rest, tokens⟩
    ⟨start', position', rest ++ blanks, tokens'⟩ := h.toSamePlace
  rw [step, step]
  simp only [length_dropWhile_behind (fun c => c = ' ' || c = '\t') hne blanks]
  split
  · next hlt =>
    have hsuffix := List.dropWhile_suffix (l := rest) fun c => c = ' ' || c = '\t'
    exact .ok ⟨rfl, (hplace.moveTo hne hsuffix (dropWhile_behind _ rest blanks)).restart, rfl, rfl,
      hsuffix, hlt⟩
  obtain ⟨c, cs, rfl⟩ : ∃ c cs, rest = c :: cs := List.exists_cons_of_ne_nil hne
  have hcs : cs <:+ c :: cs := List.suffix_cons c cs
  simp only [List.cons_append]
  split
  · exact .ok ⟨rfl, hplace.restart.moveTo hne hcs (.inl rfl), rfl, rfl, hcs, Nat.lt_succ_self _⟩
  · next hblank =>
    rw [Bool.not_eq_true] at hblank
    have hrole := h.previousRole
    simp only [Progress.previousRole] at hrole ⊢
    rw [hrole]
    refine (readToken_behind d hblanks hblank hsettled).and_left.bind fun r r' hr => .ok ?_
    obtain ⟨hread, htoken, hrest⟩ := hr
    have hr : r.rest <:+ cs := readToken_suffix hblank hread
    exact ⟨htoken, hplace.restart.moveTo hne (hr.trans hcs) hrest, rfl, rfl, hr.trans hcs,
      Nat.lt_succ_of_le hr.length_le⟩

end Step

/-! ## Blanks at the end -/

theorem step_blanks (l : Lexicon) {p : Progress} (hne : p.rest ≠ [])
    (hblank : ∀ c ∈ p.rest, isBlank c = true) :
    ∃ q, step l p = .ok (none, q) ∧ q.rest <:+ p.rest ∧ q.rest.length < p.rest.length ∧
      q.tokens = p.tokens ∧ p.position ≤ q.position ∧
        (q.start = p.start ∨ p.position ≤ q.start) := by
  obtain ⟨start, position, rest, tokens⟩ := p
  obtain ⟨c, cs, rfl⟩ : ∃ c cs, rest = c :: cs := List.exists_cons_of_ne_nil hne
  rw [step]
  simp only
  split
  · next hlt =>
    exact ⟨_, rfl, List.dropWhile_suffix _, hlt, rfl, Nat.le_add_right ..,
      .inr (Nat.le_add_right ..)⟩
  · rw [if_pos (hblank c List.mem_cons_self)]
    exact ⟨_, rfl, List.suffix_cons c cs, Nat.lt_succ_self _, rfl, Nat.le_add_right ..,
      .inr (Nat.le_refl position)⟩

/-- A scan comes through blanks without another token. -/
theorem scan_blanks (l : Lexicon) (toSemicolon : Bool) {fuel : ℕ} {p : Progress}
    (hblank : ∀ c ∈ p.rest, isBlank c = true) (hfuel : p.rest.length < fuel) :
    ∃ q, scan l fuel toSemicolon p = .ok q ∧ q.rest = [] ∧ q.tokens = p.tokens ∧
      p.position ≤ q.position ∧ (q.start = p.start ∨ p.position ≤ q.start) := by
  induction fuel generalizing p with
  | zero => exact absurd hfuel (Nat.not_lt_zero _)
  | succ fuel ih =>
    by_cases hnil : p.rest = []
    · refine ⟨p, ?_, hnil, rfl, Nat.le_refl _, .inl rfl⟩
      rw [scan, hnil]
      rfl
    · obtain ⟨q, hstep, hsuffix, hlt, htokens, hposition, hstart⟩ := step_blanks l hnil hblank
      have hrest : ∀ c ∈ q.rest, isBlank c = true := fun c hc => hblank c (hsuffix.subset hc)
      have hhead : q.rest.head? ≠ some ';' := fun hhead =>
        not_mem_of_blanks (by decide) hrest (List.mem_of_head? hhead)
      obtain ⟨q', hscan, hnil', htokens', hposition', hstart'⟩ := ih hrest (by omega)
      refine ⟨q', ?_, hnil', htokens'.trans htokens, hposition.trans hposition', ?_⟩
      · rw [scan, if_neg (by simpa using hnil), hstep]
        simp only [bind, Except.bind, pure, Except.pure, hhead, decide_false, Bool.and_false,
          Bool.false_eq_true, if_false]
        exact hscan
      · omega

/-! ## Commands -/

theorem textBefore_nil (cs : List Char) : textBefore cs [] = cs := by
  rw [textBefore, List.length_nil, Nat.sub_zero, List.take_length]

section Command

variable {k n : ℕ} {blanks : List Char} {command command' inner inner' : Progress}

/-- The string that a command is kept as has no blanks around it. -/
theorem trim_textBefore_around (hblanks : ∀ c ∈ blanks, isBlank c = true)
    (h : Around k n blanks command command') (hinner : Around k n blanks inner inner')
    (hdone : inner.rest = [] → inner'.rest = []) (hsuffix : inner.rest <:+ command.rest) :
    trim (textBefore command'.rest inner'.rest) = trim (textBefore command.rest inner.rest) := by
  by_cases hnil : command.rest = []
  · have hinnil : inner.rest = [] := List.suffix_nil.mp (hnil ▸ hsuffix)
    have hblank : trim command'.rest = [] :=
      trim_eq_nil_iff.mpr (isBlankText_iff.mpr (h.toSamePlace.rest_blank hblanks hnil))
    rw [hdone hinnil, hinnil, hnil, textBefore_nil, textBefore_nil, hblank]
    rfl
  · have hrest := (h.toSamePlace.of_ne_nil hnil).1
    obtain ⟨hinrest, -⟩ | ⟨hinnil, -⟩ := hinner.place
    · rw [hrest, hinrest, textBefore_append]
    · rw [hdone hinnil, hinnil, textBefore_nil, textBefore_nil, hrest, trim_append_blanks hblanks]

theorem Progress.Around.closeCommand (hblanks : ∀ c ∈ blanks, isBlank c = true)
    (h : Around k n blanks command command') (hpos : 0 < command.position)
    (hinner : Around k n blanks inner inner') (hdone : inner.rest = [] → inner'.rest = [])
    (hsuffix : inner.rest <:+ command.rest) :
    Around k n blanks (command.closeCommand inner) (command'.closeCommand inner') := by
  have hplace : SamePlace k n blanks { inner with tokens := command.tokens }
    { inner' with tokens := command'.tokens } := ⟨hinner.position, hinner.place⟩
  rw [Progress.closeCommand, Progress.closeCommand]
  simp only [trim_textBefore_around hblanks h hinner hdone hsuffix]
  split
  · refine ⟨hplace, h.stop_lt, ?_⟩
    obtain htokens | ⟨hnil, htokens⟩ := h.tokens
    · exact .inl htokens
    · exact .inr ⟨List.suffix_nil.mp (hnil ▸ hsuffix), htokens⟩
  · next hbody =>
    have hne : command.rest ≠ [] := by
      intro hnil
      rw [hnil] at hbody hsuffix
      rw [List.suffix_nil.mp hsuffix] at hbody
      exact hbody rfl
    have htokens := h.tokens.resolve_right fun hend => hne hend.1
    refine hplace.push ?_ h.stop_lt htokens _ _ _
    have hle := hsuffix.length_le
    have hposition := h.position
    have hinposition := hinner.position
    simp only
    omega

end Command

/-! ## Scanning on -/

/-- What a scan does with the outcome of a step: a command takes the rest of its statement. -/
def afterStep (l : Lexicon) (fuel : ℕ) : Option BareToken × Progress → Except (List Char) Progress
  | (none, p) => .ok p
  | (some (kind, role, text), p) =>
    let p := p.push kind role text
    if p.opensCommand then (scan l fuel true p).bind fun inner => .ok (p.closeCommand inner)
    else .ok p

theorem scan_succ (l : Lexicon) (fuel : ℕ) (toSemicolon : Bool) {p : Progress} (hne : p.rest ≠ []) :
    scan l (fuel + 1) toSemicolon p =
      (step l p).bind fun a => (afterStep l fuel a).bind fun p =>
        if toSemicolon && p.rest.head? = some ';' then .ok p else scan l fuel toSemicolon p := by
  rw [scan, if_neg (by simpa using hne)]
  cases step l p with
  | error e => rfl
  | ok a =>
    obtain ⟨_ | ⟨kind, role, text⟩, p⟩ := a
    · rfl
    · simp only [bind, Except.bind, afterStep]
      split_ifs
      · cases scan l fuel true (p.push kind role text) <;> rfl
      · rfl

section Scan

variable {d : Dialect} {k n : ℕ} {blanks : List Char}

theorem closeCommand_rest (command inner : Progress) :
    (command.closeCommand inner).rest = inner.rest := by
  rw [Progress.closeCommand]
  split <;> rfl

/-- Where a scan and the same scan with blanks around the text stop. -/
def StopAround (k n : ℕ) (blanks : List Char) (rest : List Char) (q q' : Progress) : Prop :=
  Around k n blanks q q' ∧ (q.rest = [] → q'.rest = []) ∧ q.rest <:+ rest

theorem afterStep_around {fuel fuel' : ℕ} {a a' : Option BareToken × Progress}
    (hblanks : ∀ c ∈ blanks, isBlank c = true) (htoken : a'.1 = a.1)
    (hplace : SamePlace k n blanks a.2 a'.2) (hpos : 0 < a.2.position)
    (hstop : ∀ t ∈ a.2.tokens, t.stop < n) (htokens : a'.2.tokens = a.2.tokens.map (Token.moved k))
    (hscan : ∀ command command', Around k n blanks command command' → command.rest = a.2.rest →
      Agree (StopAround k n blanks a.2.rest) (scan d.lexicon fuel true command)
        (scan d.lexicon fuel' true command')) :
    Agree (fun q q' => Around k n blanks q q' ∧ q.rest <:+ a.2.rest)
      (afterStep d.lexicon fuel a) (afterStep d.lexicon fuel' a') := by
  obtain ⟨token, p⟩ := a
  obtain ⟨token', p'⟩ := a'
  obtain rfl : token' = token := htoken
  cases token' with
  | none => exact .ok ⟨⟨hplace, hstop, .inl htokens⟩, List.suffix_rfl⟩
  | some token =>
    obtain ⟨kind, role, text⟩ := token
    have hcommand : Around k n blanks (p.push kind role text) (p'.push kind role text) :=
      hplace.push hpos hstop htokens kind role text
    simp only [afterStep, hcommand.opensCommand hblanks]
    split
    · refine (hscan _ _ hcommand rfl).bind fun inner inner' hinner => .ok ?_
      obtain ⟨haround, hdone, hsuffix⟩ := hinner
      refine ⟨hcommand.closeCommand hblanks hpos haround hdone hsuffix, ?_⟩
      rw [closeCommand_rest]
      exact hsuffix
    · exact .ok ⟨hcommand, List.suffix_rfl⟩

/-- At the end of the text the scan with blanks behind it comes through them. -/
theorem scan_around_end (hblanks : ∀ c ∈ blanks, isBlank c = true) (toSemicolon : Bool)
    {fuel fuel' : ℕ} {p p' : Progress} (h : Around k n blanks p p') (hnil : p.rest = [])
    (hfuel' : p.rest.length + blanks.length < fuel') :
    Agree (StopAround k n blanks p.rest) (scan d.lexicon (fuel + 1) toSemicolon p)
      (scan d.lexicon fuel' toSemicolon p') := by
  have hlong : p'.rest.length < fuel' := Nat.lt_of_le_of_lt h.toSamePlace.length_le hfuel'
  obtain ⟨q', hscan, hnil', htokens, hposition, hstart⟩ := scan_blanks d.lexicon toSemicolon
    (h.toSamePlace.rest_blank hblanks hnil) hlong
  have hend : scan d.lexicon (fuel + 1) toSemicolon p = .ok p := by
    rw [scan, hnil]
    rfl
  obtain ⟨hbehind, hstart'⟩ := h.toSamePlace.atEnd hnil
  have hplace : SamePlace k n blanks p q' :=
    ⟨h.position, .inr ⟨hnil, hnil' ▸ List.nil_suffix, by omega, by omega⟩⟩
  rw [hend, hscan]
  exact .ok ⟨⟨hplace, h.stop_lt, htokens ▸ h.tokens⟩, fun _ => hnil', List.suffix_rfl⟩

/-- A scan and the same scan with blanks around the text stop alike, or fail both. -/
theorem scan_around (hblanks : ∀ c ∈ blanks, isBlank c = true) (toSemicolon : Bool)
    {fuel fuel' : ℕ} {p p' : Progress} (h : Around k n blanks p p')
    (hsettled : d = .postgresql → EndsSettled p.rest) (hfuel : p.rest.length < fuel)
    (hfuel' : p.rest.length + blanks.length < fuel') :
    Agree (StopAround k n blanks p.rest) (scan d.lexicon fuel toSemicolon p)
      (scan d.lexicon fuel' toSemicolon p') := by
  induction fuel generalizing fuel' p p' toSemicolon with
  | zero => exact absurd hfuel (Nat.not_lt_zero _)
  | succ fuel ih =>
    obtain ⟨fuel', rfl⟩ := Nat.exists_eq_succ_of_ne_zero (Nat.ne_zero_of_lt hfuel')
    by_cases hnil : p.rest = []
    · exact scan_around_end hblanks toSemicolon h hnil hfuel'
    · have hne : p'.rest ≠ [] := by
        rw [(h.toSamePlace.of_ne_nil hnil).1]
        exact List.append_ne_nil_of_left_ne_nil hnil blanks
      rw [scan_succ d.lexicon fuel toSemicolon hnil, scan_succ d.lexicon fuel' toSemicolon hne]
      refine (step_around hblanks h hnil hsettled).bind fun a a' ha => ?_
      obtain ⟨htoken, hplace, htokens, htokens', hsuffix, hlt⟩ := ha
      have hsame : a'.2.tokens = a.2.tokens.map (Token.moved k) := by
        rw [htokens, htokens']
        exact h.tokens.resolve_right fun hend => hnil hend.1
      have hpos : 0 < a.2.position := by
        have hposition := hplace.position
        have hposition' := h.position
        omega
      have hsettled' : ∀ rest, rest <:+ a.2.rest → d = .postgresql → EndsSettled rest :=
        fun rest hrest hd => (hsettled hd).suffix (hrest.trans hsuffix)
      refine (afterStep_around hblanks htoken hplace hpos (htokens ▸ h.stop_lt) hsame ?_).bind ?_
      · intro command command' hcommand hrest
        rw [← hrest]
        exact ih true hcommand (hsettled' _ (hrest ▸ List.suffix_rfl)) (by rw [hrest]; omega)
          (by rw [hrest]; omega)
      · intro q q' hq
        obtain ⟨haround, hrest⟩ := hq
        have hle := hrest.length_le
        have hhead := haround.toSamePlace.head? hblanks
        simp only [hhead]
        split
        · next hstop =>
          refine .ok ⟨haround, fun hnil => ?_, hrest.trans hsuffix⟩
          simp [hnil] at hstop
        · refine (ih toSemicolon haround (hsettled' _ hrest) ?_ ?_).imp fun r r' hr => ?_
          · omega
          · omega
          · exact ⟨hr.1, hr.2.1, hr.2.2.trans (hrest.trans hsuffix)⟩

end Scan

end Lexer

end Schemata
