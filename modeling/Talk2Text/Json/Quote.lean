import Talk2Text.Format.Utf8

/-!
# JSON strings

The text of a string between its quotes, as `encoding/json` writes it (`escape`, with the escapes for HTML) and reads
it (`unquote`). A string is a byte string: bytes that are not UTF-8 become U+FFFD, on either way.

`unquote_escape`: reading what was written gives the string that the byte string reads as.
-/

namespace Talk2Text.Json

open Format

abbrev ascii (c : Char) : UInt8 := UInt8.ofNat c.toNat

/-! ## Reading -/

def hexDigit (b : UInt8) : Option Nat :=
  if ascii '0' ≤ b ∧ b ≤ ascii '9' then some (b.toNat - 48)
  else if ascii 'a' ≤ b ∧ b ≤ ascii 'f' then some (b.toNat - 87)
  else if ascii 'A' ≤ b ∧ b ≤ ascii 'F' then some (b.toNat - 55)
  else none

def hexDigits : List UInt8 → Nat → Option Nat
  | [], n => some n
  | b :: bs, n => (hexDigit b).bind fun d => hexDigits bs (16 * n + d)

/-- `getu4`: the code of an escape `\uXXXX` at the beginning. -/
def getu4 : List UInt8 → Option Nat
  | b :: u :: d₁ :: d₂ :: d₃ :: d₄ :: _ =>
    if b = ascii '\\' ∧ u = ascii 'u' then hexDigits [d₁, d₂, d₃, d₄] 0 else none
  | _ => none

/-- `utf16.IsSurrogate`. -/
def isSurrogate (r : Nat) : Bool := 0xD800 ≤ r && r < 0xE000

/-- `utf16.DecodeRune`. -/
def decodeSurrogates (r₁ r₂ : Nat) : Option Char :=
  if 0xD800 ≤ r₁ ∧ r₁ < 0xDC00 ∧ 0xDC00 ≤ r₂ ∧ r₂ < 0xE000 then
    some (Char.ofNat ((r₁ - 0xD800) * 1024 + (r₂ - 0xDC00) + 0x10000))
  else none

/-- The character of an escape of one letter; a quote, a backslash and a slash stand for themselves. -/
def escaped (b : UInt8) : Char :=
  if b = ascii 'b' then Char.ofNat 8
  else if b = ascii 'f' then Char.ofNat 12
  else if b = ascii 'n' then '\n'
  else if b = ascii 'r' then '\r'
  else if b = ascii 't' then '\t'
  else Char.ofNat b.toNat

/-- `utf8.DecodeRune`, with the size. -/
def decodeRune (s : List UInt8) : Char × Nat :=
  match decodeRune? s with
  | some c => (c, c.utf8Size)
  | none => (replacementChar, 1)

/-- The first character of a string and how much of its text it takes. -/
def unquoteRune (s : List UInt8) : Char × Nat :=
  match s with
  | b :: e :: _ =>
    if b = ascii '\\' then
      if e = ascii 'u' then
        match getu4 s with
        | some r =>
          if isSurrogate r then
            match (getu4 (s.drop 6)).bind (decodeSurrogates r) with
            | some c => (c, 12)
            | none => (replacementChar, 6)
          else (Char.ofNat r, 6)
        -- not in the text of a string
        | none => (replacementChar, 1)
      else (escaped e, 2)
    else decodeRune s
  | _ => decodeRune s

def unquoteAux : Nat → List UInt8 → List Char
  | _, [] => []
  | skip + 1, _ :: bs => unquoteAux skip bs
  | 0, b :: bs =>
    let (c, size) := unquoteRune (b :: bs)
    c :: unquoteAux (size - 1) bs

/-- `unquote`, of the text between the quotes. -/
def unquote (bs : List UInt8) : String := String.ofList (unquoteAux 0 bs)

/-! ## Writing -/

def hex (n : Nat) : UInt8 := if n < 10 then UInt8.ofNat (48 + n) else UInt8.ofNat (87 + n)

/-- `htmlSafeSet`. -/
def htmlSafe (b : UInt8) : Bool :=
  0x20 ≤ b && b < 0x80 && b ≠ ascii '"' && b ≠ ascii '&' && b ≠ ascii '<' && b ≠ ascii '>' && b ≠ ascii '\\'

def escapeByte (b : UInt8) : List UInt8 :=
  if htmlSafe b then [b]
  else if b = ascii '\\' ∨ b = ascii '"' then [ascii '\\', b]
  else if b = 8 then [ascii '\\', ascii 'b']
  else if b = 12 then [ascii '\\', ascii 'f']
  else if b = ascii '\n' then [ascii '\\', ascii 'n']
  else if b = ascii '\r' then [ascii '\\', ascii 'r']
  else if b = ascii '\t' then [ascii '\\', ascii 't']
  else [ascii '\\', ascii 'u', ascii '0', ascii '0', hex (b.toNat / 16), hex (b.toNat % 16)]

/-- A character that is not ASCII: U+2028 and U+2029 are escaped. -/
def escapeRune (c : Char) : List UInt8 :=
  if c.toNat = 0x2028 ∨ c.toNat = 0x2029 then
    [ascii '\\', ascii 'u', ascii '2', ascii '0', ascii '2', hex (c.toNat % 16)]
  else String.utf8EncodeChar c

/-- `\ufffd`. -/
def escapedReplacement : List UInt8 :=
  [ascii '\\', ascii 'u', ascii 'f', ascii 'f', ascii 'f', ascii 'd']

def escapeAux : Nat → List UInt8 → List UInt8
  | _, [] => []
  | skip + 1, _ :: bs => escapeAux skip bs
  | 0, b :: bs =>
    if b < 0x80 then escapeByte b ++ escapeAux 0 bs
    else
      match decodeRune? (b :: bs) with
      | some c => escapeRune c ++ escapeAux (c.utf8Size - 1) bs
      | none => escapedReplacement ++ escapeAux 0 bs

/-- `appendString` with `escapeHTML`, without the quotes. -/
def escape (bs : List UInt8) : List UInt8 := escapeAux 0 bs

/-- What is written for a character. -/
def escapeChar (c : Char) : List UInt8 :=
  if c.toNat < 128 then escapeByte (UInt8.ofNat c.toNat) else escapeRune c

/-! ## The text of a string, piece by piece -/

section Pieces

variable {c : Char} {b : UInt8} {bs : List UInt8}

theorem escapeAux_skip (skip : Nat) (bs : List UInt8) : escapeAux skip bs = escape (bs.drop skip) := by
  induction skip generalizing bs with
  | zero => rfl
  | succ skip ih =>
    cases bs with
    | nil => rfl
    | cons b bs => exact ih bs

theorem unquoteAux_skip (skip : Nat) (bs : List UInt8) : unquoteAux skip bs = unquoteAux 0 (bs.drop skip) := by
  induction skip generalizing bs with
  | zero => rfl
  | succ skip ih =>
    cases bs with
    | nil => rfl
    | cons b bs => exact ih bs

theorem escape_rune (c : Char) (bs : List UInt8) :
    escape (String.utf8EncodeChar c ++ bs) = escapeChar c ++ escape bs := by
  have hd := decodeRune?_append c bs
  have hlen := String.length_utf8EncodeChar c
  by_cases hc : c.toNat < 128
  · have hlt : UInt8.ofNat c.toNat < 0x80 := by
      rw [UInt8.lt_iff_toNat_lt, UInt8.toNat_ofNat']
      show c.toNat % 2 ^ 8 < 128
      omega
    rw [utf8EncodeChar_ascii hc, List.singleton_append, escape, escapeAux, if_pos hlt, escapeChar, if_pos hc]
    rfl
  · cases he : String.utf8EncodeChar c with
    | nil =>
      have hpos := c.utf8Size_pos
      rw [he, List.length_nil] at hlen
      omega
    | cons b t =>
      have hb : ¬b < 0x80 := by
        have hm := mem_utf8EncodeChar (c := c) (b := b) (by rw [he]; exact List.mem_cons_self)
        rw [UInt8.lt_iff_toNat_lt]
        show ¬b.toNat < 128
        omega
      rw [he, List.cons_append] at hd
      rw [he, List.length_cons] at hlen
      rw [List.cons_append, escape, escapeAux, if_neg hb, hd]
      dsimp only
      rw [escapeAux_skip, ← hlen, Nat.add_sub_cancel, List.drop_left, escapeChar, if_neg hc]

theorem escape_invalid (h : decodeRune? (b :: bs) = none) :
    escape (b :: bs) = escapedReplacement ++ escape bs := by
  have hb : ¬b < 0x80 := by
    intro hlt
    rw [decodeRune?_ascii (UInt8.lt_iff_toNat_lt.mp hlt)] at h
    cases h
  rw [escape, escapeAux, if_neg hb, h]
  rfl

/-- The character of a piece comes first. -/
theorem unquote_piece {s : List UInt8} (hs : s ≠ []) (h : unquoteRune (s ++ bs) = (c, s.length)) :
    unquoteAux 0 (s ++ bs) = c :: unquoteAux 0 bs := by
  cases s with
  | nil => exact absurd rfl hs
  | cons b s =>
    rw [List.cons_append] at h ⊢
    rw [unquoteAux, h]
    dsimp only
    rw [unquoteAux_skip, List.length_cons, Nat.add_sub_cancel, List.drop_left]

/-- A character that is not escaped. -/
theorem unquoteRune_rune (h : c ≠ '\\') : unquoteRune (String.utf8EncodeChar c ++ bs) = (c, c.utf8Size) := by
  have hd : decodeRune (String.utf8EncodeChar c ++ bs) = (c, c.utf8Size) := by
    rw [decodeRune, decodeRune?_append]
  unfold unquoteRune
  split
  · rename_i b e s he
    rw [if_neg, hd]
    -- the first byte is no backslash
    intro hb
    have hpos := c.utf8Size_pos
    have hm : b ∈ String.utf8EncodeChar c := by
      cases hc : String.utf8EncodeChar c with
      | nil =>
        have hlen := String.length_utf8EncodeChar c
        rw [hc, List.length_nil] at hlen
        omega
      | cons b' t =>
        rw [hc, List.cons_append, List.cons.injEq] at he
        rw [he.1]
        exact List.mem_cons_self
    rw [hb] at hm
    rcases mem_utf8EncodeChar hm with ⟨-, he⟩ | ⟨-, hle⟩
    · exact h (Char.toNat_inj.mp he.symm)
    · exact absurd hle (by decide)
  · exact hd

theorem unquoteRune_letter {e : UInt8} (h : e ≠ ascii 'u') :
    unquoteRune (ascii '\\' :: e :: bs) = (escaped e, 2) := by
  rw [unquoteRune, if_pos rfl, if_neg h]

theorem unquoteRune_hex {d₁ d₂ d₃ d₄ : UInt8} {r : Nat} (h : hexDigits [d₁, d₂, d₃, d₄] 0 = some r)
    (hr : isSurrogate r = false) :
    unquoteRune (ascii '\\' :: ascii 'u' :: d₁ :: d₂ :: d₃ :: d₄ :: bs) = (Char.ofNat r, 6) := by
  have hg : getu4 (ascii '\\' :: ascii 'u' :: d₁ :: d₂ :: d₃ :: d₄ :: bs) = some r := by
    rw [getu4, if_pos ⟨rfl, rfl⟩, h]
  rw [unquoteRune, if_pos rfl, if_pos rfl, hg]
  simp only [hr, Bool.false_eq_true, if_false]

theorem hexDigits_hex : ∀ n < 128, hexDigits [ascii '0', ascii '0', hex (n / 16), hex (n % 16)] 0 = some n := by
  decide +kernel

/-- The piece of an ASCII character. -/
theorem unquote_escapeByte (hc : c.toNat < 128) :
    unquoteAux 0 (escapeByte (UInt8.ofNat c.toNat) ++ bs) = c :: unquoteAux 0 bs := by
  have hb : (UInt8.ofNat c.toNat).toNat = c.toNat := by
    rw [UInt8.toNat_ofNat']
    omega
  have hchar : Char.ofNat c.toNat = c := Char.ofNat_toNat c
  have hletter : ∀ {e : UInt8}, e ≠ ascii 'u' → escaped e = c →
      unquoteAux 0 ([ascii '\\', e] ++ bs) = c :: unquoteAux 0 bs := by
    intro e he hc
    refine unquote_piece (by simp) ?_
    rw [List.cons_append, List.singleton_append, unquoteRune_letter he, hc]
    rfl
  generalize hbyte : UInt8.ofNat c.toNat = b at hb
  rw [escapeByte]
  split
  · rename_i hsafe
    have hne : c ≠ '\\' := by
      rintro rfl
      rw [← hbyte] at hsafe
      exact absurd hsafe (by decide)
    rw [← hbyte, ← utf8EncodeChar_ascii hc]
    refine unquote_piece ?_ ?_
    · rw [utf8EncodeChar_ascii hc]
      exact List.cons_ne_nil _ _
    · rw [unquoteRune_rune hne, String.length_utf8EncodeChar]
  split
  · rename_i hq
    refine hletter ?_ ?_
    · rcases hq with rfl | rfl <;> decide
    · rw [← hchar, ← hb]
      rcases hq with rfl | rfl <;> rfl
  iterate 5
    split
    · rename_i he
      refine hletter (by decide) ?_
      rw [← hchar, ← hb, he]
      rfl
  · have hr : isSurrogate c.toNat = false := by
      simp only [isSurrogate, Bool.and_eq_false_iff, decide_eq_false_iff_not]
      omega
    refine unquote_piece (by simp) ?_
    rw [hb]
    simp only [List.cons_append, List.nil_append]
    rw [unquoteRune_hex (hexDigits_hex _ hc) hr, hchar]
    rfl

theorem unquote_escapeRune (hge : 128 ≤ c.toNat) : unquoteAux 0 (escapeRune c ++ bs) = c :: unquoteAux 0 bs := by
  rw [escapeRune]
  split
  · rename_i hc
    refine unquote_piece (by simp) ?_
    have hchar : Char.ofNat c.toNat = c := Char.ofNat_toNat c
    have hhex : hexDigits [ascii '2', ascii '0', ascii '2', hex (c.toNat % 16)] 0 = some c.toNat := by
      rcases hc with hc | hc <;> rw [hc] <;> decide
    have hr : isSurrogate c.toNat = false := by
      rcases hc with hc | hc <;> rw [hc] <;> decide
    simp only [List.cons_append, List.nil_append]
    rw [unquoteRune_hex hhex hr, hchar]
    rfl
  · have hne : c ≠ '\\' := by
      rintro rfl
      exact absurd hge (by decide)
    have hlen := String.length_utf8EncodeChar c
    have hpos := c.utf8Size_pos
    refine unquote_piece ?_ ?_
    · intro he
      rw [he, List.length_nil] at hlen
      omega
    · rw [unquoteRune_rune hne, hlen]

/-- The piece of a byte that is not UTF-8. -/
theorem unquote_escapedReplacement :
    unquoteAux 0 (escapedReplacement ++ bs) = replacementChar :: unquoteAux 0 bs := by
  refine unquote_piece (by decide) ?_
  rw [escapedReplacement]
  simp only [List.cons_append, List.nil_append]
  rw [unquoteRune_hex (r := 0xFFFD) (by decide) (by decide)]
  rfl

end Pieces

/-- **Reading what was written** gives the string that the byte string reads as. -/
theorem unquote_escape (bs : List UInt8) : unquote (escape bs) = decodeUtf8 bs := by
  rw [unquote, decodeUtf8]
  congr 1
  induction bs using runes_induction with
  | nil => rfl
  | rune c bs ih =>
    rw [escape_rune, toRunes_encodeChar_append, ← ih, escapeChar]
    split
    · exact unquote_escapeByte (by assumption)
    · exact unquote_escapeRune (by omega)
  | invalid b bs hd ih => rw [escape_invalid hd, toRunes_cons_of_none hd, ← ih, unquote_escapedReplacement]

end Talk2Text.Json
