import Mathlib.Data.List.Forall2
import Mathlib.Tactic
import Schemata.Proofs.Lexer.Surrounded
import Schemata.Proofs.Script.Blanks
import Schemata.Proofs.Script.Recased

/-!
# Scripts with blanks around them

The statements of a script do not depend on blanks around it. The exceptions are a dollar sign that
the end of the text closes, and a command at its end that is kept as a string over a `CREATE TABLE`.
-/
namespace Schemata.Script

open Text Lexeme

variable {before text after : List Char}

/-! ## Lexemes of moved tokens -/

theorem ofToken_moved (k : ℕ) (t : Token) : ofToken (t.moved k) = (ofToken t).map (moved k) := by
  obtain ⟨kind, role, text, start, stop⟩ := t
  cases kind with
  | word => simp [ofToken, Token.moved, moved]
  | _ => rfl

theorem content_ofToken_late {k n : ℕ} {t t' : Token} (h : Token.Late k n t t') :
    (ofToken t').map Lexeme.content = (ofToken t).map Lexeme.content := by
  rw [Lexer.contents_ofToken, Lexer.contents_ofToken, h.kind, h.text]

theorem stop_of_mem_ofToken {t : Token} {u : Lexeme} (hu : u ∈ ofToken t) : u.stop = t.stop := by
  obtain ⟨kind, role, text, start, stop⟩ := t
  cases kind with
  | word =>
    obtain ⟨w, -, rfl⟩ := List.mem_map.mp hu
    rfl
  | _ =>
    obtain rfl := List.mem_singleton.mp hu
    rfl

theorem hidesCreateTable_ofToken_word (source : List Char) {t : Token} (h : t.kind = .word) :
    hidesCreateTable source (ofToken t) = false := by
  obtain ⟨kind, role, text, start, stop⟩ := t
  obtain rfl : kind = .word := h
  refine hidesCreateTable_of_no_string _ fun u hu => ?_
  obtain ⟨w, -, rfl⟩ := List.mem_map.mp hu
  exact (by decide : LexemeKind.word ≠ .string)

/-- Only the lexeme of a token that is a single one hides something. -/
theorem hidesCreateTable_ofToken {source : List Char} {t : Token}
    (h : ∀ u, (ofToken t).getLast? = some u → hidesCreateTable source [u] = false) :
    hidesCreateTable source (ofToken t) = false := by
  obtain ⟨kind, role, text, start, stop⟩ := t
  cases kind with
  | word => exact hidesCreateTable_ofToken_word source rfl
  | _ => exact h _ rfl

theorem hidesCreateTable_append (source : List Char) (us vs : List Lexeme) :
    hidesCreateTable source (us ++ vs) =
      (hidesCreateTable source us || hidesCreateTable source vs) :=
  List.any_append

/-- A string hides the same with blanks behind the text, also if it ends with the text and takes in
some of the blanks. -/
theorem hidesCreateTable_blanks {u u' : Lexeme} (hafter : ∀ c ∈ after, isBlank c = true)
    (hkind : u'.kind = u.kind) (hstart : u'.start = u.start)
    (hstop : u'.stop = u.stop ∧ u.stop < text.length ∨
      u.stop + 1 = text.length ∧ text.length ≤ u'.stop + 1) :
    hidesCreateTable (text ++ after) [u'] = hidesCreateTable text [u] := by
  simp only [hidesCreateTable, List.any_cons, List.any_nil, Bool.or_false, hkind, hstart]
  congr 1
  have hslice : ((text ++ after).drop u.start).take (u'.stop + 1 - u.start) =
      (text.drop u.start).take (u.stop + 1 - u.start) ++
        (after.drop (u.start - text.length)).take
          (u'.stop + 1 - u.start - (text.drop u.start).length) := by
    rw [List.drop_append, List.take_append]
    congr 1
    obtain ⟨hstop, -⟩ | ⟨hstop, hstop'⟩ := hstop
    · rw [hstop]
    · rw [List.take_of_length_le, List.take_of_length_le] <;> rw [List.length_drop] <;> omega
  have hblank : ∀ c ∈ (after.drop (u.start - text.length)).take
      (u'.stop + 1 - u.start - (text.drop u.start).length), isBlank c = true :=
    fun c hc => hafter c (List.mem_of_mem_drop (List.mem_of_mem_take hc))
  rw [hslice, holdsCreateTable_blanks hblank]
  by_cases hinside : u.start ≤ text.length
  · split
    · rfl
    · rw [List.getElem?_append_left (by omega)]
  · rw [List.drop_eq_nil_of_le (by omega), List.take_nil]
    rfl

/-- A lexeme among blanks hides nothing. -/
theorem hidesCreateTable_beyond {u : Lexeme} (hafter : ∀ c ∈ after, isBlank c = true)
    (hstart : text.length ≤ u.start) : hidesCreateTable (text ++ after) [u] = false := by
  have hblank : ∀ c ∈ ((text ++ after).drop u.start).take (u.stop + 1 - u.start),
      isBlank c = true := by
    rw [List.drop_append, List.drop_eq_nil_of_le hstart, List.nil_append]
    exact fun c hc => hafter c (List.mem_of_mem_drop (List.mem_of_mem_take hc))
  simp only [hidesCreateTable, List.any_cons, List.any_nil, Bool.or_false,
    holdsCreateTable_of_isBlank hblank, Bool.and_false]

/-- The edge of blanks before a text. -/
theorem edge_of_blanks (hbefore : ∀ c ∈ before, isBlank c = true) :
    (before.getLast?.map isWordChar).getD false = false := by
  cases hlast : before.getLast? with
  | none => rfl
  | some c => exact isWordChar_of_isBlank (hbefore c (List.mem_of_getLast? hlast))

/-! ## Lexemes -/

section Lexemes

variable (hbefore : ∀ c ∈ before, isBlank c = true) (hafter : ∀ c ∈ after, isBlank c = true)
include hbefore hafter

theorem hidesCreateTable_moved {us : List Lexeme} (hstop : ∀ u ∈ us, u.stop < text.length) :
    hidesCreateTable (before ++ text ++ after) (us.map (moved before.length)) =
      hidesCreateTable text us := by
  rw [List.append_assoc, hidesCreateTable_behind (edge_of_blanks hbefore)]
  exact hidesCreateTable_congr (List.forall₂_same.mpr fun u hu =>
    hidesCreateTable_blanks hafter rfl rfl (.inl ⟨rfl, hstop u hu⟩))

/-- The last token does not come to hide something through the blanks around it. -/
theorem hidesCreateTable_late {t t' : Token} (h : Token.Late before.length text.length t t')
    (hhide : hidesCreateTable text (ofToken t) = false) :
    hidesCreateTable (before ++ text ++ after) (ofToken t') = false := by
  obtain ⟨kind, role, chars, start, stop⟩ := t
  obtain ⟨kind', role', chars', start', stop'⟩ := t'
  obtain ⟨rfl, -, rfl, hstop, hstop', hstart⟩ := h
  simp only at hstop hstop' hstart
  cases kind' with
  | string =>
    obtain rfl | hbeyond := hstart
    · have hmoved : ofToken ⟨.string, role', chars', start + before.length, stop'⟩ =
          [⟨String.ofList chars', .string, start, stop' - before.length⟩].map
            (moved before.length) := by
        have hstop : before.length ≤ stop' := by omega
        simp only [List.map_singleton, moved, Nat.sub_add_cancel hstop]
        rfl
      rw [hmoved, List.append_assoc, hidesCreateTable_behind (edge_of_blanks hbefore), ← hhide]
      exact hidesCreateTable_blanks hafter rfl rfl (.inr ⟨hstop, by simp only; omega⟩)
    · exact hidesCreateTable_beyond hafter (by rw [List.length_append]; simp only; omega)
  | word => exact hidesCreateTable_ofToken_word _ rfl
  | quoted => rfl
  | number => rfl
  | punct => rfl

/-- The lexemes of a text do not depend on blanks around it, and neither does what they hide, unless
the last one hides something. -/
theorem lexemes_around {d : Dialect} (hhead : ∀ c, text.head? = some c → isBlank c = false)
    (hsettled : d = .postgresql → Lexer.EndsSettled text) :
    Lexer.Agree (fun us us' => us'.map Lexeme.content = us.map Lexeme.content ∧
        ((∀ u, us.getLast? = some u → hidesCreateTable text [u] = false) →
          hidesCreateTable (before ++ text ++ after) us' = hidesCreateTable text us))
      (d.lexemes text) (d.lexemes (before ++ text ++ after)) := by
  have hmap : ∀ x : Except LexicalError (List Token),
      x.map (·.flatMap ofToken) = x.bind fun ts => .ok (ts.flatMap ofToken) := by
    rintro (_ | _) <;> rfl
  have hflat : ∀ ts : List Token, (ts.map (Token.moved before.length)).flatMap ofToken =
      (ts.flatMap ofToken).map (moved before.length) := by
    intro ts
    rw [List.flatMap_map, List.map_flatMap]
    exact List.flatMap_congr fun t _ => ofToken_moved _ t
  rw [Dialect.lexemes, Dialect.lexemes, hmap, hmap]
  refine (Lexer.tokens_around hbefore hafter hhead hsettled).bind fun ts ts' hts => .ok ?_
  obtain ⟨hstop, rfl | ⟨init, t, t', rfl, rfl, hlate⟩⟩ := hts
  · rw [hflat]
    refine ⟨List.map_map, fun _ => hidesCreateTable_moved hbefore hafter fun u hu => ?_⟩
    obtain ⟨t, ht, hu⟩ := List.mem_flatMap.mp hu
    exact stop_of_mem_ofToken hu ▸ hstop t ht
  · simp only [List.flatMap_append, List.flatMap_singleton, hflat]
    refine ⟨?_, fun hlast => ?_⟩
    · rw [List.map_append, List.map_append, content_ofToken_late hlate, List.map_map]
      rfl
    · have hhide : hidesCreateTable text (ofToken t) = false :=
        hidesCreateTable_ofToken fun u hu => hlast u (by rw [List.getLast?_append, hu]; rfl)
      have hinit : ∀ u ∈ init.flatMap ofToken, u.stop < text.length := by
        intro u hu
        obtain ⟨t, ht, hu⟩ := List.mem_flatMap.mp hu
        exact stop_of_mem_ofToken hu ▸ hstop t (List.mem_append_left _ ht)
      rw [hidesCreateTable_append, hidesCreateTable_append,
        hidesCreateTable_moved hbefore hafter hinit, hhide,
        hidesCreateTable_late hbefore hafter hlate hhide]

end Lexemes

/-! ## Statements -/

/-- Statements with lexemes of the same contents. -/
def Statement.SaysSame (s s' : Statement) : Prop :=
  List.Forall₂ (fun u v => u.content = v.content) s.lexemes s'.lexemes

theorem Statement.SaysSame.restated {s s' : Statement} (h : s.SaysSame s') :
    s.Restated (Option.map fun _ => "") s' :=
  ⟨fun u v => u.content = v.content, ⟨fun _ _ => alike_of_content, fun _ _ _ _ _ _ => rfl⟩, h⟩

theorem forall₂_saysSame {us vs : List Lexeme} (source source' : List Char)
    (h : vs.map Lexeme.content = us.map Lexeme.content) :
    List.Forall₂ Statement.SaysSame ((Lexeme.statements us).map (⟨·, source⟩))
      ((Lexeme.statements vs).map (⟨·, source'⟩)) := by
  rw [List.forall₂_map_left_iff, List.forall₂_map_right_iff]
  exact Lexeme.forall₂_statements (fun _ _ => alike_of_content) (forall₂_content h.symm)

/-- The first statement of a chunk, if it can be read. -/
def chunkFound? (tokenize : Tokenizer) (chunk : List Char) : Option Statement :=
  (chunkLexemes? tokenize chunk).bind fun us => (Lexeme.statements us).head?.map (⟨·, chunk⟩)

theorem chunkStatements_fst (tokenize : Tokenizer) (cs : List Char) :
    (chunkStatements tokenize cs).1 = (chunks cs).filterMap (chunkFound? tokenize) := by
  rw [chunkStatements, List.filterMap_map]
  refine List.filterMap_congr fun chunk _ => ?_
  simp only [Function.comp_apply, chunkStatement, chunkFound?]
  cases chunkLexemes? tokenize chunk <;> rfl

theorem rel_chunkFound? {tokenize : Tokenizer} {chunk chunk' : List Char}
    (h : Option.Rel (fun us vs => vs.map Lexeme.content = us.map Lexeme.content)
      (chunkLexemes? tokenize chunk) (chunkLexemes? tokenize chunk')) :
    Option.Rel Statement.SaysSame (chunkFound? tokenize chunk) (chunkFound? tokenize chunk') := by
  rw [chunkFound?, chunkFound?]
  generalize chunkLexemes? tokenize chunk = found at h ⊢
  generalize chunkLexemes? tokenize chunk' = found' at h ⊢
  cases h with
  | none => exact .none
  | @some us vs h =>
    have hstatements := Lexeme.forall₂_statements (fun _ _ => alike_of_content)
      (forall₂_content h.symm)
    simp only [Option.bind_some]
    generalize Lexeme.statements us = found at hstatements ⊢
    generalize Lexeme.statements vs = found' at hstatements ⊢
    cases hstatements with
    | nil => exact .none
    | cons hstatement _ => exact .some hstatement

theorem throughSemicolon?_blanks (hafter : ∀ c ∈ after, isBlank c = true) (cs : List Char) :
    throughSemicolon? (cs ++ after) = throughSemicolon? cs := by
  induction cs with
  | nil =>
    induction after with
    | nil => rfl
    | cons c after ih =>
      have hc : c ≠ ';' := fun hsemi =>
        not_mem_of_blanks (by decide) hafter (List.mem_cons.mpr (.inl hsemi.symm))
      have hrest : throughSemicolon? after = none :=
        ih fun d hd => hafter d (List.mem_cons_of_mem c hd)
      rw [List.nil_append, throughSemicolon?, throughSemicolon?, if_neg hc, hrest]
      rfl
  | cons c cs ih => rw [List.cons_append, throughSemicolon?, throughSemicolon?, ih]

theorem chunkLexemes?_blanks {d : Dialect} {chunk : List Char}
    (hafter : ∀ c ∈ after, isBlank c = true)
    (hhead : ∀ c, chunk.head? = some c → isBlank c = false)
    (hsettled : d = .postgresql → Lexer.EndsSettled chunk) :
    Option.Rel (fun us vs => vs.map Lexeme.content = us.map Lexeme.content)
      (chunkLexemes? d.lexemes chunk) (chunkLexemes? d.lexemes (chunk ++ after)) := by
  have hnone : ∀ c ∈ ([] : List Char), isBlank c = true := by simp
  have hlexemes := lexemes_around hnone hafter hhead hsettled
  rw [List.nil_append] at hlexemes
  rw [chunkLexemes?, chunkLexemes?]
  generalize d.lexemes chunk = x at hlexemes ⊢
  generalize d.lexemes (chunk ++ after) = y at hlexemes ⊢
  cases hlexemes with
  | ok h => exact .some h.1
  | error =>
    simp only [throughSemicolon?_blanks hafter]
    cases (throughSemicolon? chunk).bind fun cut => (d.lexemes cut).toOption with
    | none => exact .none
    | some us => exact .some rfl

/-! ## Whole scripts -/

/-- A chunk begins with a word. -/
theorem head?_of_mem_chunks {cs chunk : List Char} (h : chunk ∈ chunks cs) :
    ∀ c, chunk.head? = some c → isBlank c = false := by
  have hcut : ∀ before : Option Char, ∀ chunk ∈ (cutAtCreateTable before cs).2,
      ∀ c, chunk.head? = some c → isBlank c = false := by
    clear h
    induction cs with
    | nil => simp [cutAtCreateTable]
    | cons c cs ih =>
      intro before chunk hchunk
      rw [cutAtCreateTable] at hchunk
      have hrest := ih (some c)
      generalize cutAtCreateTable (some c) cs = found at hchunk hrest
      obtain ⟨head, rest⟩ := found
      simp only at hchunk
      split at hchunk
      · next hcreate =>
        rcases List.mem_cons.mp hchunk with rfl | hchunk
        · intro d hd
          obtain rfl : c = d := Option.some.inj hd
          by_contra hblank
          rw [Bool.not_eq_false] at hblank
          rw [createTableAt_of_isBlank hblank] at hcreate
          cases hcreate
        · exact hrest chunk hchunk
      · exact hrest chunk hchunk
  exact hcut none chunk h

/-- The last chunk is an end of the text. -/
theorem suffix_of_chunks {cs last : List Char} {init : List (List Char)}
    (h : chunks cs = init ++ [last]) : last <:+ cs := by
  refine ⟨(cutAtCreateTable none cs).1 ++ init.flatten, ?_⟩
  have hwhole := append_flatten_cutAtCreateTable none cs
  rw [chunks] at h
  rw [h, List.flatten_append, List.flatten_singleton, ← List.append_assoc] at hwhole
  exact hwhole

section Statements

variable {d : Dialect} (hbefore : ∀ c ∈ before, isBlank c = true)
  (hafter : ∀ c ∈ after, isBlank c = true)
  (hsettled : d = .postgresql → Lexer.EndsSettled text)
include hbefore hafter hsettled

/-- Read chunk by chunk, a text has the same statements with blanks around it. -/
theorem chunkStatements_around :
    List.Forall₂ Statement.SaysSame (chunkStatements d.lexemes text).1
      (chunkStatements d.lexemes (before ++ text ++ after)).1 := by
  have hself : ∀ chunk, Option.Rel (fun us vs : List Lexeme =>
      vs.map Lexeme.content = us.map Lexeme.content) (chunkLexemes? d.lexemes chunk)
        (chunkLexemes? d.lexemes chunk) := by
    intro chunk
    cases chunkLexemes? d.lexemes chunk with
    | none => exact .none
    | some us => exact .some rfl
  rw [chunkStatements_fst, chunkStatements_fst, List.append_assoc, chunks_blanks_append hbefore,
    chunks_append_blanks hafter]
  refine List.rel_filterMap (R := fun chunk chunk' => Option.Rel Statement.SaysSame
    (chunkFound? d.lexemes chunk) (chunkFound? d.lexemes chunk')) (fun _ _ h => h) ?_
  rcases List.eq_nil_or_concat' (chunks text) with hnil | ⟨init, last, hchunks⟩
  · rw [hnil]
    exact .nil
  · rw [hchunks, extendLast_append_singleton]
    have hlast : last ∈ chunks text := by
      rw [hchunks]
      exact List.mem_append_right _ List.mem_cons_self
    refine List.rel_append (List.forall₂_same.mpr fun chunk _ => rel_chunkFound? (hself chunk)) ?_
    exact .cons (rel_chunkFound? (chunkLexemes?_blanks hafter (head?_of_mem_chunks hlast)
      fun hd => (hsettled hd).suffix (suffix_of_chunks hchunks))) .nil

/-- A script has the same statements with blanks around it, unless it ends in a string over a
`CREATE TABLE`. -/
theorem statements_around (hhead : ∀ c, text.head? = some c → isBlank c = false)
    (hlast : ∀ us u, d.lexemes text = .ok us → us.getLast? = some u →
      hidesCreateTable text [u] = false) :
    List.Forall₂ Statement.SaysSame (statements d.lexemes text).1
      (statements d.lexemes (before ++ text ++ after)).1 := by
  have hlexemes := (lexemes_around hbefore hafter hhead hsettled).and_left
  have hchunks := chunkStatements_around hbefore hafter hsettled
  rw [statements, statements]
  generalize hx : d.lexemes text = x at hlexemes ⊢
  generalize d.lexemes (before ++ text ++ after) = y at hlexemes ⊢
  cases hlexemes with
  | error => exact hchunks
  | @ok us vs h =>
    obtain ⟨hus, hcontents, hhides⟩ := h
    simp only [hhides fun u hu => hlast us u (hx.trans hus) hu]
    split
    · exact hchunks
    · exact forall₂_saysSame _ _ hcontents

end Statements

end Schemata.Script
