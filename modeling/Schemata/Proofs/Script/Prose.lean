import Mathlib.Data.List.Forall2
import Mathlib.Tactic
import Schemata.Proofs.Script.Appended
import Schemata.Proofs.Script.Chunks

/-!
# Scripts before prose

A quotation mark in the prose behind a script leaves the whole text without tokens, and its
statements are found chunk by chunk. The schema stays the same for a script that its tokenizer reads
in pieces, one for each `CREATE TABLE` in the text, provided that the first semicolon of the last
piece ends a statement. A semicolon in a string does not.
-/
namespace Schemata.Script

open Lexeme Phrase

/-! ## Pieces -/

/-- A part of a script, with the lexemes of this part. -/
structure Piece where
  text : List Char
  lexemes : List Lexeme

namespace Piece

/-- The lexemes of pieces that stand one behind the other, from a place on. -/
def joined (k : ℕ) : List Piece → List Lexeme
  | [] => []
  | p :: ps => p.lexemes.map (moved k) ++ joined (k + p.text.length) ps

/-- A piece that is read by itself and begins with its only statement that creates a table. -/
structure Sound (tokenize : Tokenizer) (p : Piece) : Prop where
  read : tokenize p.text = .ok p.lexemes
  placed : Placed p.text p.lexemes
  create : nextIs "CREATE" p.lexemes = true
  closed : openAfter 0 p.lexemes = 0
  only : ∀ us ∈ (Lexeme.statements p.lexemes).tail, isCreateTable us = false

/-- A piece whose first semicolon ends its first statement, before text that cannot be read. -/
structure EndsBefore (tokenize : Tokenizer) (prose : List Char) (p : Piece) : Prop where
  unread : ∃ e, tokenize (p.text ++ prose) = .error e
  ends : ∃ cut us, throughSemicolon? p.text = some cut ∧ tokenize cut = .ok us ∧
    (Lexeme.statements us).head? = (Lexeme.statements p.lexemes).head?

/-- The draft of the first statement of a piece. -/
def draft? (p : Piece) : Option Draft := firstDraft? p.text p.lexemes

end Piece

/-- A script that is read in pieces, which are its chunks: the lexemes of the whole are those of the
pieces, behind some that create no table. -/
structure ReadInPieces (tokenize : Tokenizer) (text : List Char) (head : List Lexeme)
    (pieces : List Piece) : Prop where
  chunks : chunks text = pieces.map Piece.text
  read : tokenize text = .ok (head ++ Piece.joined (cutAtCreateTable none text).1.length pieces)
  sound : ∀ p ∈ pieces, p.Sound tokenize
  closed : openAfter 0 head = 0
  plain : ∀ us ∈ Lexeme.statements head, isCreateTable us = false

/-! ## Drafts of pieces -/

theorem openAfter_moved (k depth : ℕ) (us : List Lexeme) :
    openAfter depth (us.map (moved k)) = openAfter depth us := by
  induction us generalizing depth with
  | nil => rfl
  | cons u us ih =>
    rw [List.map_cons, openAfter, openAfter, ih, ih, ih]
    rfl

theorem placed_moved {as : List Char} {us : List Lexeme} (h : Placed as us) (bs : List Char) :
    Placed (bs ++ as) (us.map (moved bs.length)) := by
  intro u hu
  obtain ⟨v, hv, rfl⟩ := List.mem_map.mp hu
  obtain ⟨hle, hlt⟩ := h v hv
  refine ⟨Nat.add_le_add_right hle _, ?_⟩
  change v.stop + bs.length < (bs ++ as).length
  rw [List.length_append]
  omega

theorem draft?_restated_id {s s' : Statement} (h : s.Restated id s') : s.draft? = s'.draft? := by
  have hdraft := draft?_restated h
  rwa [show Draft.through id = id from funext Draft.through_id, Option.map_id, id, id] at hdraft

theorem drafts_of_plain (source : List Char) {found : List (List Lexeme)}
    (h : ∀ us ∈ found, isCreateTable us = false) :
    (found.map (⟨·, source⟩ : _ → Statement)).filterMap Statement.draft? = [] := by
  rw [List.filterMap_map, List.filterMap_eq_nil_iff]
  intro us hus
  rw [Function.comp_apply, Statement.draft?, if_neg]
  rw [h us hus]
  exact Bool.false_ne_true

variable {tokenize : Tokenizer}

/-- The statements of a piece have one draft at most. -/
theorem Piece.Sound.drafts {p : Piece} (h : p.Sound tokenize) :
    ((Lexeme.statements p.lexemes).map (⟨·, p.text⟩ : _ → Statement)).filterMap Statement.draft? =
      p.draft?.toList := by
  have honly := h.only
  rw [Piece.draft?, firstDraft?]
  cases hfound : Lexeme.statements p.lexemes with
  | nil => rfl
  | cons us found =>
    rw [hfound] at honly
    have hrest := drafts_of_plain p.text honly
    rw [List.tail_cons] at hrest
    rw [List.map_cons, List.filterMap_cons, hrest]
    cases hdraft : Statement.draft? ⟨us, p.text⟩ <;> simp [hdraft]

/-- Wherever a piece stands, its statements have the same draft. -/
theorem Piece.Sound.drafts_within {p : Piece} (h : p.Sound tokenize) (before after : List Char) :
    ((Lexeme.statements (p.lexemes.map (moved before.length))).map
      (⟨·, before ++ p.text ++ after⟩ : _ → Statement)).filterMap Statement.draft? =
        p.draft?.toList := by
  have hbehind := forall₂_restated_statements (restated_behind before p.text p.lexemes)
  have hbefore := forall₂_restated_statements
    (restated_before (placed_moved h.placed before) after)
  rw [← drafts_restated_id hbefore, ← drafts_restated_id hbehind, h.drafts]

theorem nextIs_joined (k : ℕ) {p : Piece} (ps : List Piece) (h : p.Sound tokenize) :
    nextIs "CREATE" (Piece.joined k (p :: ps)) = true := by
  have hcreate := h.create
  rw [Piece.joined]
  cases hus : p.lexemes with
  | nil =>
    rw [hus] at hcreate
    cases hcreate
  | cons u us =>
    rw [hus] at hcreate
    exact hcreate

/-- The statements of lexemes before pieces end where the first piece begins. -/
theorem statements_append_joined {us : List Lexeme} (hclosed : openAfter 0 us = 0) {k : ℕ}
    {ps : List Piece} (hps : ∀ p ∈ ps, p.Sound tokenize) :
    Lexeme.statements (us ++ Piece.joined k ps) =
      Lexeme.statements us ++ Lexeme.statements (Piece.joined k ps) := by
  cases ps with
  | nil => rw [Piece.joined, List.append_nil]; exact (List.append_nil _).symm
  | cons p ps =>
    have hcreate := nextIs_joined k ps (hps p List.mem_cons_self)
    have hmarks : ∀ u ∈ ([] : List Lexeme), u.isPunct ";" = true := by simp
    exact statements_joined hmarks hcreate hclosed

/-- The drafts of joined pieces are those of the pieces. -/
theorem drafts_joined (before : List Char) {ps : List Piece} (hps : ∀ p ∈ ps, p.Sound tokenize) :
    ((Lexeme.statements (Piece.joined before.length ps)).map
      (⟨·, before ++ (ps.map Piece.text).flatten⟩ : _ → Statement)).filterMap Statement.draft? =
        ps.filterMap Piece.draft? := by
  induction ps generalizing before with
  | nil => rfl
  | cons p ps ih =>
    have hp := hps p List.mem_cons_self
    have hrest := ih (before ++ p.text) fun q hq => hps q (List.mem_cons_of_mem p hq)
    have hfirst := hp.drafts_within before (ps.map Piece.text).flatten
    have hclosed : openAfter 0 (p.lexemes.map (moved before.length)) = 0 := by
      rw [openAfter_moved, hp.closed]
    rw [List.length_append, List.append_assoc] at hrest
    rw [List.append_assoc] at hfirst
    rw [Piece.joined,
      statements_append_joined hclosed fun q hq => hps q (List.mem_cons_of_mem p hq),
      List.map_append, List.filterMap_append, List.map_cons, List.flatten_cons, hrest, hfirst,
      List.filterMap_cons]
    cases p.draft? <;> rfl

/-! ## The two ways of reading -/

/-- A script that is read in pieces has the drafts of its pieces. -/
theorem ReadInPieces.drafts {text : List Char} {head : List Lexeme} {pieces : List Piece}
    (h : ReadInPieces tokenize text head pieces) :
    ((Lexeme.statements (head ++ Piece.joined (cutAtCreateTable none text).1.length pieces)).map
      (⟨·, text⟩ : _ → Statement)).filterMap Statement.draft? = pieces.filterMap Piece.draft? := by
  have hjoined := drafts_joined (cutAtCreateTable none text).1 h.sound
  rw [← h.chunks, Script.chunks, append_flatten_cutAtCreateTable] at hjoined
  rw [statements_append_joined h.closed h.sound, List.map_append, List.filterMap_append,
    drafts_of_plain _ h.plain, hjoined, List.nil_append]

theorem Piece.Sound.chunkDraft? {p : Piece} (h : p.Sound tokenize) :
    chunkDraft? tokenize p.text = p.draft? := by
  rw [Script.chunkDraft?, chunkLexemes?, h.read]
  rfl

/-- Of a piece before prose the part up to its first semicolon is read, with the same draft. -/
theorem Piece.Sound.chunkDraft?_append {p : Piece} (h : p.Sound tokenize) {prose : List Char}
    (hends : p.EndsBefore tokenize prose) :
    Script.chunkDraft? tokenize (p.text ++ prose) = p.draft? := by
  obtain ⟨e, herror⟩ := hends.unread
  obtain ⟨cut, us, hcut, hread, hhead⟩ := hends.ends
  have hlexemes : chunkLexemes? tokenize (p.text ++ prose) = some us := by
    rw [chunkLexemes?, herror]
    simp only [throughSemicolon?_append hcut, Option.bind_some, hread, Except.toOption]
  have hsame := forall₂_restated_statements (restated_before h.placed prose)
  rw [Script.chunkDraft?, hlexemes, Option.bind_some, firstDraft?, hhead, Piece.draft?, firstDraft?]
  cases hfound : Lexeme.statements p.lexemes with
  | nil => rw [List.head?_nil, Option.bind_none, Option.bind_none]
  | cons statement found =>
    rw [hfound, List.map_cons, List.map_cons, List.forall₂_cons] at hsame
    rw [List.head?_cons, Option.bind_some, Option.bind_some, draft?_restated_id hsame.1]

/-- The chunks of a script before prose have the drafts of its pieces. -/
theorem filterMap_chunkDraft?_extendLast {pieces : List Piece} {prose : List Char}
    (hsound : ∀ p ∈ pieces, p.Sound tokenize)
    (hlast : ∀ p, pieces.getLast? = some p → p.EndsBefore tokenize prose) :
    (extendLast prose (pieces.map Piece.text)).filterMap (chunkDraft? tokenize) =
      pieces.filterMap Piece.draft? := by
  rcases List.eq_nil_or_concat' pieces with rfl | ⟨init, last, rfl⟩
  · rfl
  have hinit : (init.map Piece.text).filterMap (chunkDraft? tokenize) =
      init.filterMap Piece.draft? := by
    rw [List.filterMap_map]
    exact List.filterMap_congr fun p hp => (hsound p (List.mem_append_left _ hp)).chunkDraft?
  have hend : chunkDraft? tokenize (last.text ++ prose) = last.draft? :=
    (hsound last (List.mem_append_right _ (List.mem_singleton.mpr rfl))).chunkDraft?_append
      (hlast last List.getLast?_concat)
  rw [List.map_append, List.map_singleton, extendLast_append_singleton, List.filterMap_append,
    List.filterMap_append, hinit, List.filterMap_cons, List.filterMap_cons, hend]
  rfl

/-- Prose behind a script that makes the whole text unreadable changes nothing. -/
theorem schema_read_prose {body tail prose : List Char} {head : List Lexeme} {pieces : List Piece}
    (hpieces : ReadInPieces tokenize (body ++ ';' :: tail) head pieces)
    (hhide : hidesCreateTable (body ++ ';' :: tail)
      (head ++ Piece.joined (cutAtCreateTable none (body ++ ';' :: tail)).1.length pieces) = false)
    (hfence : Response.opening? (body ++ ';' :: tail) = none)
    (hfence' : Response.opening? (body ++ ';' :: tail ++ '\n' :: prose) = none)
    (htail : holdsCreateTable (some ';') tail = false)
    (hprose : holdsCreateTable (some ';') (tail ++ '\n' :: prose) = false)
    (hquote : ∃ e, tokenize (body ++ ';' :: tail ++ '\n' :: prose) = .error e)
    (hlast : ∀ p, pieces.getLast? = some p → p.EndsBefore tokenize ('\n' :: prose)) :
    (read tokenize (body ++ ';' :: tail ++ '\n' :: prose)).schema =
      (read tokenize (body ++ ';' :: tail)).schema := by
  obtain ⟨e, herror⟩ := hquote
  have hfound : statements tokenize (body ++ ';' :: tail ++ '\n' :: prose) =
      chunkStatements tokenize (body ++ ';' :: tail ++ '\n' :: prose) := by
    rw [statements, herror]
  have hchunks := filterMap_chunkDraft?_extendLast hpieces.sound hlast
  rw [← hpieces.chunks, ← chunks_append htail hprose] at hchunks
  rw [schema_read, Response.script_eq_self_of_unfenced hfence', hfound, draftsOf,
    filterMap_chunkStatements, hchunks, schema_read_of_lexemes hpieces.read hfence hhide, draftsOf,
    hpieces.drafts]

/-! ### Prose behind two tables -/

theorem exists_error_of_not_isOk {text : List Char} (h : (tokenize text).isOk = false) :
    ∃ e, tokenize text = .error e := by
  cases hread : tokenize text with
  | ok us =>
    rw [hread] at h
    cases h
  | error e => exact ⟨e, rfl⟩

/-- A table whose default value holds a semicolon, with a comment behind it. -/
def quotedText : List Char := "CREATE TABLE a(x TEXT DEFAULT ';');--c\n".toList

def quotedLexemes : List Lexeme :=
  [⟨"CREATE", .word, 0, 5⟩, ⟨"TABLE", .word, 7, 11⟩, ⟨"a", .word, 13, 13⟩, ⟨"(", .punct, 14, 14⟩,
    ⟨"x", .word, 15, 15⟩, ⟨"TEXT", .word, 17, 20⟩, ⟨"DEFAULT", .word, 22, 28⟩,
    ⟨";", .string, 30, 32⟩, ⟨")", .punct, 33, 33⟩, ⟨";", .punct, 34, 34⟩]

def proseText : List Char := "It's".toList

theorem lexemes_quotedText_soundText : Dialect.lexemes .postgresql (quotedText ++ soundText) =
    .ok (quotedLexemes ++ soundLexemes.map (moved 39)) := by decide +kernel

theorem readInPieces_quotedText_soundText :
    ReadInPieces (Dialect.lexemes .postgresql) (quotedText ++ soundText) []
      [⟨quotedText, quotedLexemes⟩, ⟨soundText, soundLexemes⟩] := by
  have hchunks : chunks (quotedText ++ soundText) = [quotedText, soundText] := by decide
  have hquoted : Piece.Sound (Dialect.lexemes .postgresql) ⟨quotedText, quotedLexemes⟩ :=
    ⟨by decide +kernel, by decide, by decide, by decide, by decide⟩
  have hsound : Piece.Sound (Dialect.lexemes .postgresql) ⟨soundText, soundLexemes⟩ :=
    ⟨lexemes_soundText, by decide, by decide, by decide, by decide⟩
  refine ⟨hchunks, ?_, ?_, rfl, by decide⟩
  · have hhead : (cutAtCreateTable none (quotedText ++ soundText)).1.length = 0 := by decide
    rw [lexemes_quotedText_soundText, hhead]
    rfl
  · simp only [List.mem_cons, List.not_mem_nil, or_false, forall_eq_or_imp, forall_eq]
    exact ⟨hquoted, hsound⟩

set_option maxRecDepth 4000 in
/-- The semicolon in the first table does no harm, since it is not in the last one. -/
theorem schema_read_prose_quoted :
    (read (Dialect.lexemes .postgresql) (quotedText ++ soundText ++ '\n' :: proseText)).schema =
      (read (Dialect.lexemes .postgresql) (quotedText ++ soundText)).schema := by
  have hbody : quotedText ++ soundText = (quotedText ++ soundText.dropLast) ++ ';' :: [] := by
    decide
  have hunread : ∃ e, Dialect.lexemes .postgresql (soundText ++ '\n' :: proseText) = .error e :=
    exists_error_of_not_isOk (by decide +kernel)
  have hquote : ∃ e, Dialect.lexemes .postgresql (quotedText ++ soundText ++ '\n' :: proseText) =
      .error e := exists_error_of_not_isOk (by decide +kernel)
  have hends : Piece.EndsBefore (Dialect.lexemes .postgresql) ('\n' :: proseText)
      ⟨soundText, soundLexemes⟩ :=
    ⟨hunread, soundText, soundLexemes, by decide, lexemes_soundText, rfl⟩
  have hpieces := readInPieces_quotedText_soundText
  rw [hbody] at hpieces hquote ⊢
  refine schema_read_prose hpieces (by decide) (by decide) (by decide) (by decide) (by decide)
    hquote ?_
  intro p hp
  obtain rfl := Option.some.inj hp
  exact hends

/-- A semicolon in the last table does: with the prose there is no table at all. -/
theorem tables_read_semicolon :
    (∃ us, Dialect.lexemes .postgresql (stringScript ";" ++ [';']) = .ok us) ∧
      (read (Dialect.lexemes .postgresql) (stringScript ";" ++ [';'])).schema.tables.map (·.name) =
        ["t"] ∧
      (read (Dialect.lexemes .postgresql)
        (stringScript ";" ++ [';'] ++ '\n' :: proseText)).schema.tables = [] := by
  have hlexemes : Dialect.lexemes .postgresql (stringScript ";" ++ [';']) =
      .ok (stringLexemes ";" 32 ++ [⟨";", .punct, 34, 34⟩]) := by decide +kernel
  have hstatements : Lexeme.statements (stringLexemes ";" 32 ++ [⟨";", .punct, 34, 34⟩]) =
      [stringLexemes ";" 32] := by decide
  have hdraft := draft?_of_tableBody (s := ⟨stringLexemes ";" 32, stringScript ";" ++ [';']⟩)
    (by decide) rfl
  refine ⟨⟨_, hlexemes⟩, ?_, ?_⟩
  · rw [schema_read_of_lexemes hlexemes (by decide) (by decide), names_linked, hstatements,
      List.map_singleton, draftsOf_singleton hdraft]
    rfl
  · -- with the prose the only chunk is cut inside the string
    obtain ⟨e, herror⟩ : ∃ e, Dialect.lexemes .postgresql
        (stringScript ";" ++ [';'] ++ '\n' :: proseText) = .error e :=
      exists_error_of_not_isOk (by decide +kernel)
    have hchunks : chunks (stringScript ";" ++ [';'] ++ '\n' :: proseText) =
        [stringScript ";" ++ [';'] ++ '\n' :: proseText] := by decide
    have hcut : throughSemicolon? (stringScript ";" ++ [';'] ++ '\n' :: proseText) =
        some "CREATE TABLE t(a TEXT DEFAULT ';".toList := by decide
    obtain ⟨e', herror'⟩ : ∃ e', Dialect.lexemes .postgresql
        "CREATE TABLE t(a TEXT DEFAULT ';".toList = .error e' :=
      exists_error_of_not_isOk (by decide +kernel)
    have hnone : chunkLexemes? (Dialect.lexemes .postgresql)
        (stringScript ";" ++ [';'] ++ '\n' :: proseText) = none := by
      rw [chunkLexemes?, herror]
      simp only [hcut, Option.bind_some, herror', Except.toOption]
    have hfound : (statements (Dialect.lexemes .postgresql)
        (stringScript ";" ++ [';'] ++ '\n' :: proseText)).1 = [] := by
      simp only [statements, herror, chunkStatements, hchunks, List.map_cons, List.map_nil,
        chunkStatement, hnone]
      rfl
    rw [schema_read, Response.script_eq_self (by decide), hfound]
    rfl

end Schemata.Script
