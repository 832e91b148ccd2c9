import Mathlib.Tactic
import Schemata.Proofs.Separation.Joined

/-!
# Statements that are separated again

What is left of a script between two semicolons is a piece: it holds no comment and no semicolon of
its own, and only in the last one may a quote be open. No characters that become neighbours when
comments and blanks are dropped begin a new run, so the statements of a script are read as they are
when they are separated again, each of them alone or all of them on lines of their own.
-/
namespace Schemata.Script

variable {b : Char} {closed : Bool} {cs lead rest : List Char} {run : Run}
  {pieces : List (List Char)}

/-! ## Pieces -/

/-- A run of which nothing is dropped and at which no script is cut. -/
inductive Run.Stays : Run → Prop
  | quoted (q : Char) (body : List Char) (closed : Bool) : Stays (.quoted q body closed)
  | single {c : Char} : c ≠ ';' → Stays (.single c)

theorem Run.Stays.kept (h : run.Stays) : run.kept = run.text := by
  cases h <;> rfl

theorem Run.Stays.ne_semicolon (h : run.Stays) : run ≠ .single ';' := by
  rintro rfl
  cases h with
  | single hc => exact hc rfl

/-- A text without comments and single semicolons, and without open quotes if it is closed. -/
def IsPiece (closed : Bool) (cs : List Char) : Prop :=
  ∃ runs, Cut cs runs ∧ ∀ run ∈ runs, run.Stays ∧ (closed = true → run.IsClosed)

/-- Pieces that may be written one after the other, with semicolons between them. -/
inductive ArePieces : List (List Char) → Prop
  | last {piece : List Char} : IsPiece false piece → ArePieces [piece]
  | cons {piece : List Char} {pieces : List (List Char)} :
    IsPiece true piece → ArePieces pieces → ArePieces (piece :: pieces)

theorem ArePieces.ne_nil (h : ArePieces pieces) : pieces ≠ [] := by
  cases h <;> exact List.cons_ne_nil _ _

namespace IsPiece

theorem nil (closed : Bool) : IsPiece closed [] := ⟨[], .nil, List.forall_mem_nil _⟩

theorem cons_run (hends : run.Ends cs) (hstays : run.Stays) (hclosed : closed = true → run.IsClosed)
    (h : IsPiece closed cs) : IsPiece closed (run.text ++ cs) := by
  obtain ⟨runs, hcut, hall⟩ := h
  exact ⟨run :: runs, .cons hends hcut, List.forall_mem_cons.mpr ⟨⟨hstays, hclosed⟩, hall⟩⟩

theorem piecesFrom_eq (h : IsPiece closed cs) : piecesFrom .plain cs = [cs] := by
  obtain ⟨runs, hcut, hall⟩ := h
  have hnone : Run.single ';' ∉ runs := fun hmem => (hall _ hmem).1.ne_semicolon rfl
  have hkept : runs.flatMap Run.kept = runs.flatMap Run.text :=
    List.flatMap_congr fun run hrun => (hall run hrun).1.kept
  rw [piecesFrom_of_cut hcut, List.splitOn_eq_singleton hnone, List.map_singleton, hkept, hcut.text]

theorem endsOutside (h : IsPiece true cs) : EndsOutside cs := by
  obtain ⟨runs, hcut, hall⟩ := h
  exact ⟨runs, hcut, fun run hrun => (hall run hrun).2 rfl⟩

theorem of_closed (h : IsPiece true cs) (closed : Bool) : IsPiece closed cs := by
  obtain ⟨runs, hcut, hall⟩ := h
  exact ⟨runs, hcut, fun run hrun => ⟨(hall run hrun).1, fun _ => (hall run hrun).2 rfl⟩⟩

end IsPiece

/-! ## What is left of a script -/

/-- A text begins like another one, or with what is left of a comment, and is empty if the other one
is. -/
structure BeginsLike (cs rest : List Char) : Prop where
  head : ∀ c, cs.head? = some c → rest.head? = some c ∨ c = '\n' ∨ c = ' '
  nil : rest = [] → cs = []

/-- A run still ends where what follows it begins like before: no mark becomes a doubled one. -/
theorem Run.Ends.beginsLike (h : run.Ends rest) (hlike : BeginsLike cs rest) : run.Ends cs := by
  refine h.with_rest (fun c hc heq => ?_) fun hopen => hlike.nil (h.rest_eq_nil hopen)
  rcases hlike.head c heq with hrest | rfl | rfl
  · exact hrest
  · exact absurd hc (by decide)
  · exact absurd hc (by decide)

/-- What is kept of a run, in front of a piece, is a piece. -/
theorem Run.Ends.isPiece_kept (h : run.Ends rest) (hne : run ≠ .single ';')
    (hlike : BeginsLike cs rest) (hclosed : closed = true → run.IsClosed)
    (hcs : IsPiece closed cs) :
    IsPiece closed (run.kept ++ cs) := by
  have hends := h.beginsLike hlike
  cases run with
  | quoted q body closed => exact hcs.cons_run hends (.quoted q body closed) hclosed
  | lineComment body closed =>
    cases closed with
    | false => exact hcs
    | true =>
      have hbreak : (Run.single '\n').Ends cs := ⟨by decide, by simp, by simp⟩
      exact hcs.cons_run hbreak (.single (by decide)) fun _ => trivial
  | blockComment body closed =>
    have hblank : (Run.single ' ').Ends cs := ⟨by decide, by simp, by simp⟩
    exact hcs.cons_run hblank (.single (by decide)) fun _ => trivial
  | single c =>
    have hc : c ≠ ';' := fun hc => hne (by rw [hc])
    exact hcs.cons_run hends (.single hc) hclosed

/-- What is kept of a run begins like it. -/
theorem Run.Ends.beginsLike_kept (h : run.Ends rest) (hlike : BeginsLike cs rest) :
    BeginsLike (run.kept ++ cs) (run.text ++ rest) := by
  refine ⟨fun c hc => ?_, fun hnil => absurd (List.append_eq_nil_iff.mp hnil).1 run.text_ne_nil⟩
  cases run with
  | quoted q body closed => exact .inl hc
  | lineComment body closed =>
    cases closed with
    | false =>
      obtain rfl := hlike.nil (h.2 rfl)
      cases hc
    | true => exact .inr (.inl (Option.some.inj hc).symm)
  | blockComment body closed => exact .inr (.inr (Option.some.inj hc).symm)
  | single d => exact .inl hc

/-- A script falls into pieces. -/
theorem exists_pieces (script : List Char) : ∃ first pieces,
    piecesFrom .plain script = first :: pieces ∧ ArePieces (first :: pieces) ∧
      BeginsLike first script := by
  obtain ⟨runs, hcut⟩ := exists_cut script
  induction hcut with
  | nil =>
    have hlike : BeginsLike [] [] := ⟨fun c hc => .inl hc, fun _ => rfl⟩
    exact ⟨[], [], piecesFrom_nil _, .last (.nil _), hlike⟩
  | @cons run rest runs hends _ ih =>
    obtain ⟨first, pieces, hpieces, hare, hlike⟩ := ih
    rw [piecesFrom_run hends, hpieces]
    by_cases hsemicolon : run = .single ';'
    · subst hsemicolon
      refine ⟨[], first :: pieces, if_pos rfl, .cons (.nil _) hare, ?_⟩
      exact ⟨fun c hc => absurd hc (by simp), fun _ => rfl⟩
    · refine ⟨run.kept ++ first, pieces, ?_, ?_, hends.beginsLike_kept hlike⟩
      · rw [if_neg hsemicolon, consChars_cons]
      · cases hare with
        | last hfirst => exact .last (hends.isPiece_kept hsemicolon hlike Bool.noConfusion hfirst)
        | cons hfirst hare =>
          -- a run that is open would be the last one
          have hclosed : run.IsClosed := by
            by_contra hopen
            obtain rfl := hends.rest_eq_nil hopen
            rw [piecesFrom_nil] at hpieces
            exact hare.ne_nil (List.cons.inj hpieces).2.symm
          exact .cons (hends.isPiece_kept hsemicolon hlike (fun _ => hclosed) hfirst) hare

/-! ## Blanks around a piece -/

theorem not_isQuote_of_isBlank (hb : Text.isBlank b = true) : isQuote b = false :=
  Text.forall_blank (P := fun c => isQuote c = false) (by decide) hb

theorem stays_of_isBlank (hb : Text.isBlank b = true) : (Run.single b).Stays :=
  .single (Text.forall_blank (P := fun c => c ≠ ';') (by decide) hb)

theorem ends_of_isBlank (hb : Text.isBlank b = true) (rest : List Char) :
    (Run.single b).Ends rest := by
  have hmarks : b ≠ '-' ∧ b ≠ '/' :=
    Text.forall_blank (P := fun c => c ≠ '-' ∧ c ≠ '/') (by decide) hb
  exact ⟨not_isQuote_of_isBlank hb, fun hl => hmarks.1 hl.1, fun hb => hmarks.2 hb.1⟩

/-- A doubled quote is not cut by dropping another character. -/
theorem Doubled.of_append_singleton {q : Char} (h : Doubled q (cs ++ [b])) (hb : b ≠ q) :
    Doubled q cs := by
  generalize htext : cs ++ [b] = text at h
  induction h generalizing cs with
  | nil => exact absurd htext (by simp)
  | @other d ds hd _ ih =>
    cases cs with
    | nil => exact .nil
    | cons c cs =>
      obtain ⟨rfl, hds⟩ := List.cons.inj htext
      exact .other hd (ih hds)
  | @pair ds _ ih =>
    match cs with
    | [] => exact .nil
    | [c] => exact absurd (List.cons.inj (List.cons.inj htext).2).1 hb
    | c :: d :: cs =>
      simp only [List.cons_append, List.cons.injEq] at htext
      obtain ⟨rfl, rfl, hds⟩ := htext
      exact .pair (ih hds)

namespace IsPiece

theorem cons_blank (hb : Text.isBlank b = true) (h : IsPiece closed cs) :
    IsPiece closed (b :: cs) :=
  h.cons_run (ends_of_isBlank hb cs) (stays_of_isBlank hb) fun _ => trivial

theorem blanks_append (hlead : Text.isBlankText lead = true) (h : IsPiece closed cs) :
    IsPiece closed (lead ++ cs) := by
  rw [Text.isBlankText_iff] at hlead
  induction lead with
  | nil => exact h
  | cons b lead ih =>
    exact (ih fun d hd => hlead d (List.mem_cons_of_mem b hd)).cons_blank
      (hlead b List.mem_cons_self)

theorem of_cons_blank (hb : Text.isBlank b = true) (h : IsPiece closed (b :: cs)) :
    IsPiece closed cs := by
  obtain ⟨runs, hcut, hall⟩ := h
  generalize htext : b :: cs = text at hcut
  cases hcut with
  | nil => cases htext
  | @cons run rest runs hends hrest =>
    cases (hall run List.mem_cons_self).1 with
    | quoted q body closed =>
      obtain rfl : b = q := (List.cons.inj htext).1
      have hq : isQuote b = true := hends.1
      rw [not_isQuote_of_isBlank hb] at hq
      exact absurd hq Bool.false_ne_true
    | single hc =>
      obtain rfl : cs = rest := (List.cons.inj htext).2
      exact ⟨runs, hrest, fun r hr => hall r (List.mem_cons_of_mem _ hr)⟩

/-- A run that a text ends with. Its last blank stands alone or in a quote that is open. -/
theorem of_last_run (hb : Text.isBlank b = true) (hends : run.Ends []) (hstays : run.Stays)
    (hclosed : closed = true → run.IsClosed) (htext : cs ++ [b] = run.text) :
    IsPiece closed cs := by
  cases hstays with
  | single _ =>
    obtain rfl : cs = [] := by simpa [Run.text] using congrArg List.length htext
    exact .nil closed
  | quoted q body isClosed =>
    have hne : b ≠ q := by
      rintro rfl
      have hq : isQuote b = true := hends.1
      rw [not_isQuote_of_isBlank hb] at hq
      exact Bool.false_ne_true hq
    cases isClosed with
    | true =>
      rw [Run.text, if_pos rfl] at htext
      exact absurd (List.singleton_inj.mp (List.append_inj' htext rfl).2) hne
    | false =>
      rcases List.eq_nil_or_concat body with rfl | ⟨body, d, rfl⟩
      · have hlast : b = q := by simpa [Run.text] using congrArg List.getLast? htext
        exact absurd hlast hne
      · obtain ⟨rfl, hlast⟩ : cs = q :: body ∧ [b] = [d] :=
          List.append_inj' (by simpa [Run.text] using htext) rfl
        obtain rfl := List.singleton_inj.mp hlast
        have hbody : Doubled q body := (List.concat_eq_append ▸ hends.2.1).of_append_singleton hne
        have hrun : (Run.quoted q body false).Ends [] := ⟨hends.1, hbody, rfl⟩
        have hpiece := (IsPiece.nil closed).cons_run hrun (.quoted q body false) hclosed
        simpa [Run.text] using hpiece

theorem of_append_blank (hb : Text.isBlank b = true) (h : IsPiece closed (cs ++ [b])) :
    IsPiece closed cs := by
  obtain ⟨runs, hcut, hall⟩ := h
  generalize htext : cs ++ [b] = text at hcut
  induction hcut generalizing cs with
  | nil => exact absurd htext (by simp)
  | @cons run rest runs hends _ ih =>
    obtain ⟨⟨hstays, hclosed⟩, hrestAll⟩ := List.forall_mem_cons.mp hall
    clear hall
    rcases List.eq_nil_or_concat rest with rfl | ⟨rest, d, rfl⟩
    · exact of_last_run hb hends hstays hclosed (htext.trans (List.append_nil _))
    · rw [List.concat_eq_append, ← List.append_assoc] at htext
      obtain ⟨rfl, hlast⟩ := List.append_inj' htext rfl
      obtain rfl := List.singleton_inj.mp hlast
      have hrest : IsPiece closed rest := ih hrestAll List.concat_eq_append.symm
      refine hrest.cons_run (hends.beginsLike ⟨fun c hc => .inl ?_, fun hnil => ?_⟩) hstays hclosed
      · rw [List.concat_eq_append, List.head?_append, hc]
        rfl
      · exact absurd hnil (by simp)

/-- A piece without the blanks around it is a piece. -/
theorem trim (h : IsPiece closed cs) : IsPiece closed (Text.trim cs) := by
  obtain ⟨before, after, hbefore, hafter, hcs⟩ := Text.exists_blanks_trim cs
  rw [hcs] at h
  clear hcs
  generalize Text.trim cs = inner at h ⊢
  rw [Text.isBlankText_iff] at hbefore hafter
  have hfront : IsPiece closed (inner ++ after) := by
    rw [List.append_assoc] at h
    induction before with
    | nil => exact h
    | cons b before ih =>
      exact ih (fun d hd => hbefore d (List.mem_cons_of_mem b hd))
        (h.of_cons_blank (hbefore b List.mem_cons_self))
  clear h
  induction after using List.reverseRecOn with
  | nil => simpa using hfront
  | append_singleton after b ih =>
    rw [← List.append_assoc] at hfront
    exact ih (fun d hd => hafter d (List.mem_append_left _ hd))
      (hfront.of_append_blank (hafter b (by simp)))

end IsPiece

/-! ## Statements -/

theorem statementsOf_cons (keepSemicolons : Bool) (piece : List Char) (hne : pieces ≠ []) :
    statementsOf keepSemicolons (piece :: pieces) =
      if Text.isBlankText piece then statementsOf keepSemicolons pieces
      else (Text.trim piece ++ if keepSemicolons then [';'] else []) ::
        statementsOf keepSemicolons pieces := by
  obtain ⟨next, pieces, rfl⟩ := List.exists_cons_of_ne_nil hne
  rw [statementsOf]
  exact List.cons_ne_nil next pieces

theorem piecesFrom_plain_ne_nil (script : List Char) : piecesFrom .plain script ≠ [] := by
  obtain ⟨runs, hcut⟩ := exists_cut script
  rw [piecesFrom_of_cut hcut, ne_eq, List.map_eq_nil_iff]
  exact List.splitOn_ne_nil _ runs

/-- Blanks in front of a trimmed text are the only ones that are trimmed. -/
theorem trim_behind_blanks (hlead : Text.isBlankText lead = true)
    (hne : ¬Text.isBlankText cs = true) : Text.trim (lead ++ Text.trim cs) = Text.trim cs ∧
      ¬Text.isBlankText (lead ++ Text.trim cs) = true := by
  have htrim : Text.trim (lead ++ Text.trim cs) = Text.trim cs :=
    (Text.trim_blanks_append hlead _).trans (Text.trim_trim cs)
  refine ⟨htrim, ?_⟩
  rwa [← Text.trim_eq_nil_iff, htrim, Text.trim_eq_nil_iff]

/-- A closed piece with its semicolon is read as it is, perhaps behind blanks. -/
theorem separate_piece_append (hlead : Text.isBlankText lead = true) (h : IsPiece true cs)
    (hne : ¬Text.isBlankText cs = true) (keepSemicolons : Bool) (rest : List Char) :
    separate keepSemicolons (lead ++ Text.trim cs ++ ';' :: rest) =
      (Text.trim cs ++ if keepSemicolons then [';'] else []) :: separate keepSemicolons rest := by
  have hpiece : IsPiece true (lead ++ Text.trim cs) := h.trim.blanks_append hlead
  obtain ⟨htrim, hblank⟩ := trim_behind_blanks hlead hne
  rw [separate, piecesFrom_joined hpiece.endsOutside, hpiece.piecesFrom_eq, List.singleton_append,
    statementsOf_cons _ _ (piecesFrom_plain_ne_nil rest), if_neg hblank, htrim, separate]

/-- The last piece is read as it is, perhaps behind blanks. -/
theorem separate_last_piece (hlead : Text.isBlankText lead = true) (h : IsPiece false cs)
    (hne : ¬Text.isBlankText cs = true) (keepSemicolons : Bool) :
    separate keepSemicolons (lead ++ Text.trim cs) = [Text.trim cs] := by
  have hpiece : IsPiece false (lead ++ Text.trim cs) := h.trim.blanks_append hlead
  obtain ⟨htrim, hblank⟩ := trim_behind_blanks hlead hne
  rw [separate, hpiece.piecesFrom_eq, statementsOf, if_neg hblank, htrim]

theorem separate_blanks (hlead : Text.isBlankText lead = true) (keepSemicolons : Bool) :
    separate keepSemicolons lead = [] := by
  have hpiece : IsPiece false lead := by
    simpa using (IsPiece.nil false).blanks_append hlead
  rw [separate, hpiece.piecesFrom_eq, statementsOf, if_pos hlead]

/-- A statement is separated into itself. -/
theorem ArePieces.separate_statement (h : ArePieces pieces) (keepSemicolons : Bool) :
    ∀ s ∈ statementsOf keepSemicolons pieces, separate keepSemicolons s = [s] := by
  induction h with
  | @last piece hpiece =>
    rw [statementsOf]
    split_ifs with hblank
    · exact List.forall_mem_nil _
    · rw [List.forall_mem_singleton]
      exact separate_last_piece Text.isBlankText_nil hpiece hblank keepSemicolons
  | @cons piece pieces hpiece hpieces ih =>
    rw [statementsOf_cons _ _ hpieces.ne_nil]
    split_ifs with hblank hkeep
    · exact ih
    · refine List.forall_mem_cons.mpr ⟨?_, ih⟩
      have hown := separate_piece_append Text.isBlankText_nil hpiece hblank keepSemicolons []
      rw [separate_blanks Text.isBlankText_nil] at hown
      simpa [hkeep] using hown
    · refine List.forall_mem_cons.mpr ⟨?_, ih⟩
      have hown := separate_last_piece Text.isBlankText_nil (hpiece.of_closed false) hblank
        keepSemicolons
      simpa using hown

/-- Statements with their semicolons are separated again, whatever blanks stand between them. -/
theorem ArePieces.separate_intercalate_statements (h : ArePieces pieces) {gap : List Char}
    (hgap : Text.isBlankText gap = true) (hlead : Text.isBlankText lead = true)
    (keepSemicolons : Bool) :
    separate keepSemicolons (lead ++ gap.intercalate (statementsOf true pieces)) =
      statementsOf keepSemicolons pieces := by
  induction h generalizing lead with
  | @last piece hpiece =>
    rw [statementsOf, statementsOf]
    split_ifs with hblank
    · simpa using separate_blanks hlead keepSemicolons
    · rw [List.intercalate_singleton]
      exact separate_last_piece hlead hpiece hblank keepSemicolons
  | @cons piece pieces hpiece hpieces ih =>
    rw [statementsOf_cons _ _ hpieces.ne_nil, statementsOf_cons _ _ hpieces.ne_nil]
    by_cases hblank : Text.isBlankText piece = true
    · rw [if_pos hblank, if_pos hblank]
      exact ih hlead
    · rw [if_neg hblank, if_neg hblank, if_pos rfl]
      have hfirst := separate_piece_append hlead hpiece hblank keepSemicolons
      cases hrest : statementsOf true pieces with
      | nil =>
        have hnone := ih Text.isBlankText_nil
        rw [hrest] at hnone
        rw [List.intercalate_singleton, ← List.append_assoc, hfirst, ← hnone]
        rfl
      | cons next others =>
        have hothers := ih hgap
        rw [hrest] at hothers
        rw [List.intercalate_cons_cons, ← hothers, ← hfirst]
        simp

/-! ## Lists of statements -/

/-- A statement without quotes and comments, and without blanks around it. -/
structure IsBare (cs : List Char) : Prop where
  plain : ∀ c ∈ cs, isQuote c = false ∧ c ≠ '-' ∧ c ≠ '/' ∧ c ≠ ';'
  trimmed : Text.trim cs = cs
  ne_nil : cs ≠ []

theorem Cut.of_plain (h : ∀ c ∈ cs, isQuote c = false ∧ c ≠ '-' ∧ c ≠ '/' ∧ c ≠ ';') :
    Cut cs (cs.map .single) := by
  have hcut := Cut.singles (fun c hc => ⟨(h c hc).1, (h c hc).2.1, (h c hc).2.2.1⟩) Cut.nil
  simpa using hcut

namespace IsBare

theorem isPiece (h : IsBare cs) : IsPiece true cs := by
  refine ⟨cs.map .single, Cut.of_plain h.plain, fun run hrun => ?_⟩
  obtain ⟨c, hc, rfl⟩ := List.mem_map.mp hrun
  exact ⟨.single (h.plain c hc).2.2.2, fun _ => trivial⟩

theorem isBlankText (h : IsBare cs) : Text.isBlankText cs = false := by
  rw [Bool.eq_false_iff, ne_eq, ← Text.trim_eq_nil_iff, h.trimmed]
  exact h.ne_nil

end IsBare

/-- Bare statements with blank lines between them are separated again. -/
theorem separate_intercalate {statements : List (List Char)} (h : ∀ b ∈ statements, IsBare b)
    (keepSemicolons : Bool) :
    separate keepSemicolons (['\n', '\n'].intercalate (statements.map (· ++ [';']))) =
      statements.map (· ++ if keepSemicolons then [';'] else []) := by
  have hpieces : ArePieces (statements ++ [[]]) ∧ ∀ keepSemicolons,
      statementsOf keepSemicolons (statements ++ [[]]) =
        statements.map (· ++ if keepSemicolons then [';'] else []) := by
    induction statements with
    | nil => exact ⟨.last (.nil false), fun _ => rfl⟩
    | cons b statements ih =>
      obtain ⟨hare, hstatements⟩ := ih fun c hc => h c (List.mem_cons_of_mem b hc)
      have hb := h b List.mem_cons_self
      refine ⟨.cons hb.isPiece hare, fun keepSemicolons => ?_⟩
      rw [List.cons_append, statementsOf_cons _ _ hare.ne_nil, hb.isBlankText,
        if_neg Bool.false_ne_true, hb.trimmed, hstatements, List.map_cons]
  obtain ⟨hare, hstatements⟩ := hpieces
  have hgap : Text.isBlankText ['\n', '\n'] = true := rfl
  have hagain := hare.separate_intercalate_statements hgap Text.isBlankText_nil keepSemicolons
  rwa [hstatements, hstatements, List.nil_append] at hagain

/-! ## Normal forms -/

/-- Separation gives a normal form: each statement is separated into itself, and the statements on
lines of their own, with their semicolons, are separated into the same ones. -/
theorem separate_separated (script : List Char) :
    (∀ keepSemicolons, ∀ s ∈ separate keepSemicolons script, separate keepSemicolons s = [s]) ∧
      ∀ keepSemicolons, separate keepSemicolons (['\n'].intercalate (separate true script)) =
        separate keepSemicolons script := by
  obtain ⟨first, pieces, hpieces, hare, -⟩ := exists_pieces script
  refine ⟨fun keepSemicolons s hs => ?_, fun keepSemicolons => ?_⟩
  · rw [separate, hpieces] at hs
    exact hare.separate_statement keepSemicolons s hs
  · have hgap : Text.isBlankText ['\n'] = true := rfl
    have hagain := hare.separate_intercalate_statements hgap Text.isBlankText_nil keepSemicolons
    simpa only [separate, hpieces, List.nil_append] using hagain

/-- A comment between two signs, a comment with a semicolon, and a quote that stays open. -/
def mixedText : List Char := "a -/*;*/- b; -- c;\n;d '; --''  ".toList

theorem separate_separated_mixed :
    separate true mixedText = ["a - - b;".toList, "d '; --''".toList] ∧
      separate true "a - - b;".toList = ["a - - b;".toList] ∧
      separate true "d '; --''".toList = ["d '; --''".toList] ∧
      separate false (['\n'].intercalate (separate true mixedText)) =
        ["a - - b".toList, "d '; --''".toList] := by
  have hboth : separate true mixedText = ["a - - b;".toList, "d '; --''".toList] := by
    decide +kernel
  have hbare : separate false mixedText = ["a - - b".toList, "d '; --''".toList] := by
    decide +kernel
  obtain ⟨halone, htogether⟩ := separate_separated mixedText
  refine ⟨hboth, halone true _ ?_, halone true _ ?_, (htogether false).trans hbare⟩
  · rw [hboth]
    exact List.mem_cons_self
  · rw [hboth]
    exact List.mem_cons_of_mem _ List.mem_cons_self

end Schemata.Script
