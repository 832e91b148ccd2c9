import Schemata.Text.Alphabet

/-!
# Numeric escapes

A backslash may be followed by the number of a character: one to three octal digits, `x` with one or
two hexadecimal digits, `u` with four or `U` with eight. Octal and `x` escapes stand for bytes, and
a run of them that encodes a character in UTF-8 stands for that character.
-/
namespace Schemata.Lexer

/-- The form of a numeric escape: its base, the fewest and most digits, the greatest number. -/
structure EscapeForm where
  base : Nat
  fewest : Nat
  most : Nat
  greatest : Nat

namespace EscapeForm

def octal : EscapeForm := ⟨8, 1, 3, 0o777⟩
def byte : EscapeForm := ⟨16, 1, 2, 0xFF⟩
def short : EscapeForm := ⟨16, 4, 4, 0xFFFF⟩
def long : EscapeForm := ⟨16, 8, 8, 0x10FFFF⟩

/-- Whether the escape stands for a byte. -/
def isByte (f : EscapeForm) : Bool := f.base = 8 || f.greatest ≤ 0xFF

end EscapeForm

/-- The form that follows a backslash, with the text from its digits on. -/
def escapeForm? : List Char → Option (EscapeForm × List Char)
  | 'x' :: cs => some (.byte, cs)
  | 'u' :: cs => some (.short, cs)
  | 'U' :: cs => some (.long, cs)
  | c :: cs => if (Text.digitBelow? 8 c).isSome then some (.octal, c :: cs) else none
  | [] => none

/-- Reads at most `most` further digits while the number stays within bounds, and returns it with
the count of digits. -/
def escapeDigits (f : EscapeForm) : (most value count : Nat) → List Char → Nat × Nat
  | 0, value, count, _ => (value, count)
  | _ + 1, value, count, [] => (value, count)
  | most + 1, value, count, c :: cs =>
    match Text.digitBelow? f.base c with
    | none => (value, count)
    | some d =>
      if f.greatest < value * f.base + d then (value, count)
      else escapeDigits f most (value * f.base + d) (count + 1) cs

/-- The number of an escape of a given form and the text after it. -/
def escapeNumber? (f : EscapeForm) (cs : List Char) : Option (Nat × List Char) :=
  let (value, count) := escapeDigits f f.most 0 0 cs
  if f.fewest ≤ count then some (if f.isByte then value % 0x100 else value, cs.drop count)
  else none

/-- The number of an escaped byte that continues a character. -/
def continuationByte? : List Char → Option (Nat × List Char)
  | '\\' :: cs => do
    let (f, cs) ← escapeForm? cs
    let (byte, rest) ← escapeNumber? f cs
    if f.isByte && 0x80 ≤ byte && byte ≤ 0xBF then some (byte, rest) else none
  | _ => none

/-- Reads a number of continuation bytes onto the bits read so far. -/
def continuation? : (count bits : Nat) → List Char → Option (Nat × List Char)
  | 0, bits, cs => some (bits, cs)
  | count + 1, bits, cs => do
    let (byte, rest) ← continuationByte? cs
    continuation? count (bits * 0x40 + (byte - 0x80)) rest

/-- The character whose encoding starts with a byte, if escaped bytes complete it. -/
def encodedChar? (lead : Nat) (cs : List Char) : Option (Char × List Char) :=
  if lead < 0xC2 || 0xF4 < lead then none
  else
    let (count, bits, least) :=
      if lead < 0xE0 then (1, lead - 0xC0, 0x80)
      else if lead < 0xF0 then (2, lead - 0xE0, 0x800)
      else (3, lead - 0xF0, 0x10000)
    match continuation? count bits cs with
    | none => none
    | some (n, rest) => if least ≤ n && n.isValidChar then some (Char.ofNat n, rest) else none

/-- The character of an escape beyond the bytes: a plain number or a pair of surrogates. -/
def wideChar? (f : EscapeForm) (mark : Char) (n : Nat) (rest : List Char) :
    Option (Char × List Char) :=
  if n.isValidChar then some (Char.ofNat n, rest)
  else if 0xD800 ≤ n && n ≤ 0xDBFF then
    match rest with
    | '\\' :: c :: cs => do
      let (low, rest) ← escapeNumber? f cs
      if c = mark ∧ 0xDC00 ≤ low ∧ low ≤ 0xDFFF then
        some (Char.ofNat (0x10000 + (n - 0xD800) * 0x400 + (low - 0xDC00)), rest)
      else none
    | _ => none
  else none

/-- The character that a numeric escape stands for, given the text after its backslash. An escape at
the very end of the text is not read. -/
def numericEscape? (cs : List Char) : Option (Char × List Char) := do
  let (f, digits) ← escapeForm? cs
  let (n, rest) ← escapeNumber? f digits
  if f.isByte then
    match encodedChar? n rest with
    | some (c, after) =>
      if after.isEmpty then (if rest.isEmpty then none else some (Char.ofNat n, rest))
      else some (c, after)
    | none => if rest.isEmpty then none else some (Char.ofNat n, rest)
  else
    let (c, after) ← wideChar? f (cs.headD ' ') n rest
    if after.isEmpty then none else some (c, after)

/-! ## What is left is a part of what was there -/

theorem escapeForm?_suffix {cs rest : List Char} {f : EscapeForm}
    (h : escapeForm? cs = some (f, rest)) : rest <:+ cs := by
  unfold escapeForm? at h
  split at h
  · cases h; exact List.suffix_cons ..
  · cases h; exact List.suffix_cons ..
  · cases h; exact List.suffix_cons ..
  · split at h
    · cases h; exact List.suffix_rfl
    · cases h
  · cases h

theorem escapeNumber?_suffix {f : EscapeForm} {cs rest : List Char} {n : Nat}
    (h : escapeNumber? f cs = some (n, rest)) : rest <:+ cs := by
  unfold escapeNumber? at h
  split at h
  split at h
  · cases h; exact List.drop_suffix ..
  · cases h

theorem continuationByte?_suffix {cs rest : List Char} {n : Nat}
    (h : continuationByte? cs = some (n, rest)) : rest <:+ cs := by
  unfold continuationByte? at h
  split at h
  · simp only [Option.bind_eq_bind, Option.bind_eq_some_iff, Prod.exists] at h
    obtain ⟨f, ds, hf, m, r, hn, he⟩ := h
    split at he
    · cases he
      exact (escapeNumber?_suffix hn).trans ((escapeForm?_suffix hf).trans (List.suffix_cons ..))
    · cases he
  · cases h

theorem continuation?_suffix {count bits n : Nat} {cs rest : List Char}
    (h : continuation? count bits cs = some (n, rest)) : rest <:+ cs := by
  induction count generalizing bits cs with
  | zero => cases h; exact List.suffix_rfl
  | succ count ih =>
    simp only [continuation?, Option.bind_eq_bind, Option.bind_eq_some_iff, Prod.exists] at h
    obtain ⟨b, r, hb, hr⟩ := h
    exact (ih hr).trans (continuationByte?_suffix hb)

theorem encodedChar?_suffix {lead : Nat} {c : Char} {cs rest : List Char}
    (h : encodedChar? lead cs = some (c, rest)) : rest <:+ cs := by
  unfold encodedChar? at h
  split at h
  · cases h
  · split at h
    split at h
    · cases h
    · next hn =>
      split at h
      · cases h; exact continuation?_suffix hn
      · cases h

theorem wideChar?_suffix {f : EscapeForm} {mark c : Char} {n : Nat} {cs rest : List Char}
    (h : wideChar? f mark n cs = some (c, rest)) : rest <:+ cs := by
  unfold wideChar? at h
  split at h
  · obtain ⟨-, rfl⟩ := Prod.mk.inj (Option.some.inj h)
    exact List.suffix_rfl
  · split at h
    · split at h
      · simp only [Option.bind_eq_bind, Option.bind_eq_some_iff, Prod.exists] at h
        obtain ⟨low, r, hn, he⟩ := h
        split at he
        · obtain ⟨-, rfl⟩ := Prod.mk.inj (Option.some.inj he)
          exact (escapeNumber?_suffix hn).trans
            ((List.suffix_cons ..).trans (List.suffix_cons ..))
        · cases he
      · cases h
    · cases h

theorem numericEscape?_suffix {c : Char} {cs rest : List Char}
    (h : numericEscape? cs = some (c, rest)) : rest <:+ cs := by
  unfold numericEscape? at h
  simp only [Option.bind_eq_bind, Option.bind_eq_some_iff, Prod.exists] at h
  obtain ⟨f, ds, hf, n, r, hn, h⟩ := h
  have hr : r <:+ cs := (escapeNumber?_suffix hn).trans (escapeForm?_suffix hf)
  split at h
  · split at h
    · next he =>
      split at h
      · split at h
        · cases h
        · obtain ⟨-, rfl⟩ := Prod.mk.inj (Option.some.inj h)
          exact hr
      · cases h; exact (encodedChar?_suffix he).trans hr
    · split at h
      · cases h
      · obtain ⟨-, rfl⟩ := Prod.mk.inj (Option.some.inj h)
        exact hr
  · simp only [Option.bind_eq_some_iff, Prod.exists] at h
    obtain ⟨d, after, hw, h⟩ := h
    split at h
    · cases h
    · cases h; exact (wideChar?_suffix hw).trans hr

end Schemata.Lexer
