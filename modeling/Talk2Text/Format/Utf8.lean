import Mathlib.Data.List.Basic

/-!
# UTF-8

Byte strings and the characters in them. A byte that starts no valid encoding counts as one replacement character
(`toRunes`), as in a loop over a Go string.

- `toRunes_encodeRunes`: decoding inverts encoding;
- `encodeRunes_toRunes_iff`: a byte string survives decoding and encoding iff it is valid UTF-8;
- `mem_encodeRunes_ascii`: an ASCII byte of an encoding is an ASCII character of the text.
-/

namespace Talk2Text.Format

/-- The UTF-8 encoding of a text. -/
def encodeRunes (cs : List Char) : List UInt8 := cs.flatMap String.utf8EncodeChar

/-- The UTF-8 encoding of a string. -/
def utf8 (s : String) : List UInt8 := encodeRunes s.toList

/-- The character whose encoding comes first. -/
def decodeRune? (bs : List UInt8) : Option Char := bs.toByteArray.utf8DecodeChar? 0

/-- U+FFFD, which stands for a byte that is not UTF-8. -/
def replacementChar : Char := Char.ofNat 0xFFFD

/-- The characters of a byte string after `skip` bytes. -/
def toRunesAux : Nat → List UInt8 → List Char
  | _, [] => []
  | skip + 1, _ :: bs => toRunesAux skip bs
  | 0, b :: bs =>
    match decodeRune? (b :: bs) with
    | some c => c :: toRunesAux (c.utf8Size - 1) bs
    | none => replacementChar :: toRunesAux 0 bs

/-- The characters of a byte string. -/
def toRunes (bs : List UInt8) : List Char := toRunesAux 0 bs

/-- The byte string is the encoding of a text. -/
def ValidUtf8 (bs : List UInt8) : Prop := ∃ cs, bs = encodeRunes cs

section Runes

variable {c : Char} {cs : List Char} {b : UInt8} {bs : List UInt8}

@[simp] theorem encodeRunes_nil : encodeRunes [] = [] := rfl

@[simp] theorem encodeRunes_cons : encodeRunes (c :: cs) = String.utf8EncodeChar c ++ encodeRunes cs :=
  List.flatMap_cons

@[simp] theorem encodeRunes_append (cs cs' : List Char) :
    encodeRunes (cs ++ cs') = encodeRunes cs ++ encodeRunes cs' := List.flatMap_append

theorem decodeRune?_append (c : Char) (bs : List UInt8) : decodeRune? (String.utf8EncodeChar c ++ bs) = some c := by
  rw [decodeRune?, List.toByteArray_append]
  exact ByteArray.utf8DecodeChar?_utf8EncodeChar_append

/-- What is decoded comes first. -/
theorem exists_of_decodeRune? (h : decodeRune? bs = some c) : ∃ r, bs = String.utf8EncodeChar c ++ r := by
  obtain ⟨r, hr⟩ := ByteArray.exists_of_utf8DecodeChar?_eq_some h
  refine ⟨r.data.toList, ?_⟩
  rw [← List.toByteArray_inj, List.toByteArray_append, hr]
  congr 1
  exact ByteArray.ext List.data_toByteArray.symm

theorem toRunesAux_skip (skip : Nat) (bs : List UInt8) : toRunesAux skip bs = toRunes (bs.drop skip) := by
  induction skip generalizing bs with
  | zero => rfl
  | succ skip ih =>
    cases bs with
    | nil => rfl
    | cons b bs => exact ih bs

@[simp] theorem toRunes_nil : toRunes [] = [] := rfl

/-- The characters after a valid encoding. -/
theorem toRunes_encodeChar_append (c : Char) (bs : List UInt8) :
    toRunes (String.utf8EncodeChar c ++ bs) = c :: toRunes bs := by
  have hd := decodeRune?_append c bs
  have hlen := String.length_utf8EncodeChar c
  have hpos := c.utf8Size_pos
  cases he : String.utf8EncodeChar c with
  | nil => rw [he, List.length_nil] at hlen; omega
  | cons b t =>
    rw [he, List.cons_append] at hd
    rw [he, List.length_cons] at hlen
    rw [List.cons_append, toRunes, toRunesAux, hd]
    dsimp only
    rw [toRunesAux_skip, ← hlen, Nat.add_sub_cancel, List.drop_left]

/-- The characters after a byte that starts no encoding. -/
theorem toRunes_cons_of_none (h : decodeRune? (b :: bs) = none) :
    toRunes (b :: bs) = replacementChar :: toRunes bs := by
  rw [toRunes, toRunesAux, h]
  rfl

/-- **Decoding inverts encoding.** -/
@[simp] theorem toRunes_encodeRunes (cs : List Char) : toRunes (encodeRunes cs) = cs := by
  induction cs with
  | nil => rfl
  | cons c cs ih => rw [encodeRunes_cons, toRunes_encodeChar_append, ih]

theorem encodeRunes_inj {cs cs' : List Char} : encodeRunes cs = encodeRunes cs' ↔ cs = cs' := by
  refine ⟨fun h => ?_, congrArg encodeRunes⟩
  rw [← toRunes_encodeRunes cs, ← toRunes_encodeRunes cs', h]

/-- **A byte string survives decoding and encoding** iff it is valid UTF-8. -/
theorem encodeRunes_toRunes_iff : encodeRunes (toRunes bs) = bs ↔ ValidUtf8 bs := by
  constructor
  · intro h
    exact ⟨_, h.symm⟩
  · rintro ⟨cs, rfl⟩
    rw [toRunes_encodeRunes]

/-- The string that a byte string reads as. -/
def decodeUtf8 (bs : List UInt8) : String := String.ofList (toRunes bs)

@[simp] theorem decodeUtf8_utf8 (s : String) : decodeUtf8 (utf8 s) = s := by
  rw [decodeUtf8, utf8, toRunes_encodeRunes, String.ofList_toList]

theorem utf8_decodeUtf8_iff : utf8 (decodeUtf8 bs) = bs ↔ ValidUtf8 bs := by
  rw [utf8, decodeUtf8, String.toList_ofList, encodeRunes_toRunes_iff]

theorem utf8_inj {s t : String} : utf8 s = utf8 t ↔ s = t := by
  rw [utf8, utf8, encodeRunes_inj, String.toList_inj]

@[simp] theorem utf8_append (s t : String) : utf8 (s ++ t) = utf8 s ++ utf8 t := by
  rw [utf8, String.toList_append, encodeRunes_append]
  rfl

/-- The characters of a byte string, one by one. -/
theorem runes_induction {P : List UInt8 → Prop} (nil : P [])
    (rune : ∀ c bs, P bs → P (String.utf8EncodeChar c ++ bs))
    (invalid : ∀ b bs, decodeRune? (b :: bs) = none → P bs → P (b :: bs)) (bs : List UInt8) : P bs := by
  induction hn : bs.length using Nat.strongRecOn generalizing bs with
  | ind n ih =>
    cases bs with
    | nil => exact nil
    | cons b bs =>
      rw [List.length_cons] at hn
      cases hd : decodeRune? (b :: bs) with
      | none => exact invalid b bs hd (ih bs.length (by omega) bs rfl)
      | some c =>
        obtain ⟨r, hr⟩ := exists_of_decodeRune? hd
        have hlen := congrArg List.length hr
        have hpos := c.utf8Size_pos
        rw [List.length_append, String.length_utf8EncodeChar, List.length_cons] at hlen
        rw [hr]
        exact rune c r (ih r.length (by omega) r rfl)

/-- What is read without U+FFFD is UTF-8. -/
theorem valid_of_notMem {bs : List UInt8} (h : replacementChar ∉ toRunes bs) : ValidUtf8 bs := by
  induction bs using runes_induction with
  | nil => exact ⟨[], rfl⟩
  | rune c bs ih =>
    rw [toRunes_encodeChar_append, List.mem_cons, not_or] at h
    obtain ⟨cs, rfl⟩ := ih h.2
    exact ⟨c :: cs, encodeRunes_cons.symm⟩
  | invalid b bs hd _ =>
    rw [toRunes_cons_of_none hd] at h
    exact absurd List.mem_cons_self h

/-- **A text without U+FFFD** is read from one byte string only. -/
theorem eq_utf8_of_decodeUtf8 {bs : List UInt8} {s : String} (hs : replacementChar ∉ s.toList)
    (h : decodeUtf8 bs = s) : bs = utf8 s := by
  have hrunes : toRunes bs = s.toList := by rw [← h, decodeUtf8, String.toList_ofList]
  rw [← h, utf8_decodeUtf8_iff.mpr (valid_of_notMem (hrunes ▸ hs))]

@[simp] theorem length_utf8 (s : String) : (utf8 s).length = s.utf8ByteSize := by
  conv_rhs => rw [← String.ofList_toList (s := s)]
  rw [String.utf8ByteSize, String.toByteArray_ofList, utf8, encodeRunes, List.utf8Encode]
  simp

/-! ## ASCII -/

/-- A byte of the encoding of a character is the character itself, or not ASCII. -/
theorem mem_utf8EncodeChar (h : b ∈ String.utf8EncodeChar c) :
    (c.toNat < 128 ∧ b.toNat = c.toNat) ∨ (128 ≤ c.toNat ∧ 128 ≤ b.toNat) := by
  have hc : c.toNat = c.val.toNat := rfl
  unfold String.utf8EncodeChar at h
  dsimp only at h
  rw [← hc] at h
  split at h
  · rename_i hle
    rw [List.mem_singleton.mp h, UInt8.toNat_ofNat']
    omega
  · rename_i hle
    refine Or.inr ⟨by omega, ?_⟩
    split at h
    · simp only [List.mem_cons, List.not_mem_nil, or_false] at h
      rcases h with rfl | rfl <;> rw [UInt8.toNat_ofNat'] <;> omega
    · split at h
      · simp only [List.mem_cons, List.not_mem_nil, or_false] at h
        rcases h with rfl | rfl | rfl <;> rw [UInt8.toNat_ofNat'] <;> omega
      · simp only [List.mem_cons, List.not_mem_nil, or_false] at h
        rcases h with rfl | rfl | rfl | rfl <;> rw [UInt8.toNat_ofNat'] <;> omega

/-- An ASCII character is its own encoding. -/
theorem utf8EncodeChar_ascii (h : c.toNat < 128) : String.utf8EncodeChar c = [UInt8.ofNat c.toNat] := by
  have hc : c.toNat = c.val.toNat := rfl
  unfold String.utf8EncodeChar
  dsimp only
  rw [← hc, if_pos (by omega)]

theorem toNat_ofNat_of_ascii {n : Nat} (h : n < 128) : (Char.ofNat n).toNat = n := by
  have hv : n.isValidChar := Or.inl (by omega)
  rw [Char.ofNat, dif_pos hv]
  show (UInt32.ofNatLT n _).toNat = n
  simp

/-- An ASCII byte is a character. -/
theorem decodeRune?_ascii (hb : b.toNat < 128) : decodeRune? (b :: bs) = some (Char.ofNat b.toNat) := by
  have hc := toNat_ofNat_of_ascii hb
  have he := utf8EncodeChar_ascii (c := Char.ofNat b.toNat) (by omega)
  rw [hc, UInt8.ofNat_toNat] at he
  have hd := decodeRune?_append (Char.ofNat b.toNat) bs
  rwa [he] at hd

/-- **The ASCII bytes of an encoding** are the ASCII characters of the text. -/
theorem mem_encodeRunes_ascii (hb : b.toNat < 128) :
    b ∈ encodeRunes cs ↔ ∃ c ∈ cs, c.toNat = b.toNat := by
  rw [encodeRunes, List.mem_flatMap]
  constructor
  · rintro ⟨c, hc, hm⟩
    rcases mem_utf8EncodeChar hm with ⟨-, he⟩ | ⟨-, hge⟩
    · exact ⟨c, hc, he.symm⟩
    · omega
  · rintro ⟨c, hc, he⟩
    refine ⟨c, hc, ?_⟩
    rw [utf8EncodeChar_ascii (he ▸ hb), he, UInt8.ofNat_toNat]
    exact List.mem_singleton_self _

end Runes

end Talk2Text.Format
