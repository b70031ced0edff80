import Mathlib.Algebra.Ring.Nat
import Talk2Text.Json.Scanner

/-!
# Encoding

What `encoding/json` writes for a string and for a `map[string]string`, and how the scanner reads it back. The strings
of Go are byte strings; a string that is not UTF-8 comes back with U+FFFD in it (`decodeUtf8`).

- `run_quote`, `run_quoteKey`: a string;
- `run_encodeMap`: a map.
-/

namespace Talk2Text.Json

open Format

/-- `appendString`. -/
def quote (bs : List UInt8) : List UInt8 := ascii '"' :: escape bs ++ [ascii '"']

/-- A member of an object. -/
def encodeMember (m : List UInt8 × List UInt8) : List UInt8 := quote m.1 ++ ascii ':' :: quote m.2

/-- The members after the first one, and the end of the object. -/
def encodeMembers : List (List UInt8 × List UInt8) → List UInt8
  | [] => [ascii '}']
  | m :: ms => ascii ',' :: encodeMember m ++ encodeMembers ms

/-- `mapEncoder.encode`, of the members in their order. -/
def encodeMap : List (List UInt8 × List UInt8) → List UInt8
  | [] => [ascii '{', ascii '}']
  | m :: ms => ascii '{' :: encodeMember m ++ encodeMembers ms

/-- What a map reads as. -/
def decodeMember (m : List UInt8 × List UInt8) : String × Value := (decodeUtf8 m.1, .string (decodeUtf8 m.2))

/-! ## The text of a string -/

section Escape

variable {fs : List Frame} {raw bs ys : List UInt8} {c : Char}

theorem isPlain_of_le {b : UInt8} (h : 128 ≤ b.toNat) : isPlain b = true := by
  have hne : ∀ {a : UInt8}, a.toNat < 128 → b ≠ a := by
    rintro a ha rfl
    omega
  have hlt : ¬b < 0x20 := by
    rw [UInt8.lt_iff_toNat_lt]
    show ¬b.toNat < 32
    omega
  simp only [isPlain, Bool.and_eq_true, decide_eq_true_eq, Bool.not_eq_true', decide_eq_false_iff_not]
  exact ⟨⟨hne (by decide), hne (by decide)⟩, hlt⟩

theorem isPlain_of_htmlSafe {b : UInt8} (h : htmlSafe b = true) : isPlain b = true := by
  simp only [htmlSafe, Bool.and_eq_true, decide_eq_true_eq] at h
  obtain ⟨⟨⟨⟨⟨⟨hle, -⟩, hq⟩, -⟩, -⟩, -⟩, hb⟩ := h
  simp only [isPlain, Bool.and_eq_true, decide_eq_true_eq, Bool.not_eq_true', decide_eq_false_iff_not]
  exact ⟨⟨hq, hb⟩, UInt8.not_lt.mpr hle⟩

/-- An escape of one letter. -/
theorem run_letter {e : UInt8} (he : (utf8 "bfnrt\\/\"").contains e = true) :
    Scanner.run ⟨.inString raw, fs⟩ ([ascii '\\', e] ++ ys) =
      Scanner.run ⟨.inString (raw ++ [ascii '\\', e]), fs⟩ ys := by
  have hstep : Scanner.step ⟨.inString raw, fs⟩ (ascii '\\') = .next ⟨.inStringEsc (raw ++ [ascii '\\']), fs⟩ := rfl
  have hstep' : Scanner.step ⟨.inStringEsc (raw ++ [ascii '\\']), fs⟩ e =
      .next ⟨.inString (raw ++ [ascii '\\'] ++ [e]), fs⟩ := if_pos he
  rw [List.cons_append, List.singleton_append, Scanner.run, hstep]
  dsimp only
  rw [Scanner.run, hstep', List.append_assoc]
  rfl

theorem run_hexDigit {n : Nat} {d : UInt8} (hd : (hexDigit d).isSome = true) :
    Scanner.run ⟨.inStringEscU raw n, fs⟩ (d :: ys) =
      Scanner.run ⟨if n < 3 then .inStringEscU (raw ++ [d]) (n + 1) else .inString (raw ++ [d]), fs⟩ ys := by
  have hstep : Scanner.step ⟨.inStringEscU raw n, fs⟩ d =
      .next ⟨if n < 3 then .inStringEscU (raw ++ [d]) (n + 1) else .inString (raw ++ [d]), fs⟩ := if_pos hd
  rw [Scanner.run, hstep]

/-- An escape by code. -/
theorem run_hex {d₁ d₂ d₃ d₄ : UInt8} (h : [d₁, d₂, d₃, d₄].all fun d => (hexDigit d).isSome) :
    Scanner.run ⟨.inString raw, fs⟩ ([ascii '\\', ascii 'u', d₁, d₂, d₃, d₄] ++ ys) =
      Scanner.run ⟨.inString (raw ++ [ascii '\\', ascii 'u', d₁, d₂, d₃, d₄]), fs⟩ ys := by
  simp only [List.all_cons, List.all_nil, Bool.and_true, Bool.and_eq_true] at h
  obtain ⟨h₁, h₂, h₃, h₄⟩ := h
  have hstep : Scanner.step ⟨.inString raw, fs⟩ (ascii '\\') = .next ⟨.inStringEsc (raw ++ [ascii '\\']), fs⟩ := rfl
  have hstep' : Scanner.step ⟨.inStringEsc (raw ++ [ascii '\\']), fs⟩ (ascii 'u') =
      .next ⟨.inStringEscU (raw ++ [ascii '\\'] ++ [ascii 'u']) 0, fs⟩ := rfl
  simp only [List.cons_append, List.nil_append]
  rw [Scanner.run, hstep]
  dsimp only
  rw [Scanner.run, hstep']
  dsimp only
  rw [run_hexDigit h₁, if_pos (by decide), run_hexDigit h₂, if_pos (by decide), run_hexDigit h₃, if_pos (by decide),
    run_hexDigit h₄, if_neg (by decide)]
  simp only [List.append_assoc, List.cons_append, List.nil_append]

theorem run_escapeByte {b : UInt8} (hb : b.toNat < 128) :
    Scanner.run ⟨.inString raw, fs⟩ (escapeByte b ++ ys) = Scanner.run ⟨.inString (raw ++ escapeByte b), fs⟩ ys := by
  rw [escapeByte]
  split
  · refine run_plain ?_
    intro c hc
    rw [List.mem_singleton.mp hc]
    exact isPlain_of_htmlSafe (by assumption)
  split
  · rename_i hq
    refine run_letter ?_
    rcases hq with rfl | rfl <;> decide
  iterate 5
    split
    · exact run_letter (by decide)
  · have hhex : ∀ n < 128, [ascii '0', ascii '0', hex (n / 16), hex (n % 16)].all fun d => (hexDigit d).isSome := by
      decide +kernel
    exact run_hex (hhex _ hb)

theorem run_escapeRune (hc : 128 ≤ c.toNat) :
    Scanner.run ⟨.inString raw, fs⟩ (escapeRune c ++ ys) = Scanner.run ⟨.inString (raw ++ escapeRune c), fs⟩ ys := by
  rw [escapeRune]
  split
  · rename_i h
    refine run_hex ?_
    rcases h with h | h <;> rw [h] <;> decide
  · refine run_plain fun b hb => isPlain_of_le ?_
    rcases mem_utf8EncodeChar hb with ⟨hlt, -⟩ | ⟨-, hle⟩
    · omega
    · exact hle

/-- **The text of a string** is read to its end. -/
theorem run_escape : Scanner.run ⟨.inString raw, fs⟩ (escape bs ++ ys) =
    Scanner.run ⟨.inString (raw ++ escape bs), fs⟩ ys := by
  induction bs using runes_induction generalizing raw with
  | nil => rw [escape, escapeAux, List.append_nil, List.nil_append]
  | rune c bs ih =>
    rw [escape_rune, List.append_assoc, escapeChar, ← List.append_assoc raw]
    split
    · rename_i hc
      rw [run_escapeByte, ih]
      rw [UInt8.toNat_ofNat']
      omega
    · rw [run_escapeRune (by omega), ih]
  | invalid b bs hd ih =>
    rw [escape_invalid hd, List.append_assoc, ← List.append_assoc raw, escapedReplacement, run_hex (by decide), ih]

end Escape

/-! ## Strings and maps -/

section Encode

variable {fs : List Frame} {ys : List UInt8} {members : List (String × Value)} {m : List UInt8 × List UInt8}

theorem run_inString (bs : List UInt8) : Scanner.run ⟨.inString [], fs⟩ (escape bs ++ ([ascii '"'] ++ ys)) =
    Scanner.run ⟨endString (escape bs) fs, fs⟩ ys := by
  rw [run_escape, List.nil_append]
  rfl

/-- **A string** is read where a value begins. -/
theorem run_quote {key : String} (bs : List UInt8) :
    Scanner.run ⟨.beginValue, .objectValue members key :: fs⟩ (quote bs ++ ys) =
      Scanner.run ⟨.endValue (.string (decodeUtf8 bs)), .objectValue members key :: fs⟩ ys := by
  rw [← unquote_escape, quote, List.cons_append, List.cons_append, List.append_assoc]
  exact run_inString bs

/-- **A string** is read where a key begins. -/
theorem run_quoteKey {pc : Pc} (hpc : pc = .beginString ∨ pc = .beginStringOrEmpty) (bs : List UInt8) :
    Scanner.run ⟨pc, .objectKey members :: fs⟩ (quote bs ++ ys) =
      Scanner.run ⟨.endKey (decodeUtf8 bs), .objectKey members :: fs⟩ ys := by
  rw [← unquote_escape, quote, List.cons_append, List.cons_append, List.append_assoc]
  rcases hpc with rfl | rfl <;> exact run_inString bs

theorem run_member {pc : Pc} (hpc : pc = .beginString ∨ pc = .beginStringOrEmpty) :
    Scanner.run ⟨pc, .objectKey members :: fs⟩ (encodeMember m ++ ys) =
      Scanner.run ⟨.endValue (decodeMember m).2, .objectValue members (decodeMember m).1 :: fs⟩ ys := by
  rw [encodeMember, List.append_assoc, run_quoteKey hpc, List.cons_append]
  exact run_quote m.2

theorem run_encodeMembers {v : Value} {key : String} {f : Frame} (ms : List (List UInt8 × List UInt8)) :
    Scanner.run ⟨.endValue v, .objectValue members key :: f :: fs⟩ (encodeMembers ms ++ ys) =
      Scanner.run ⟨.endValue (.object (members ++ (key, v) :: ms.map decodeMember)), f :: fs⟩ ys := by
  induction ms generalizing members key v with
  | nil => rfl
  | cons m ms ih =>
    have hcomma : Scanner.run ⟨.endValue v, .objectValue members key :: f :: fs⟩
        (ascii ',' :: (encodeMember m ++ (encodeMembers ms ++ ys))) =
        Scanner.run ⟨.beginString, .objectKey (members ++ [(key, v)]) :: f :: fs⟩
          (encodeMember m ++ (encodeMembers ms ++ ys)) := rfl
    rw [encodeMembers, List.cons_append, List.cons_append, List.append_assoc, hcomma, run_member (Or.inl rfl), ih,
      List.map_cons, List.append_assoc]
    rfl

/-- **A map** is read as an object, inside an object. -/
theorem run_encodeMap {key : String} (hd : fs.length + 2 ≤ maxNestingDepth) (ms : List (List UInt8 × List UInt8)) :
    Scanner.run ⟨.beginValue, .objectValue members key :: fs⟩ (encodeMap ms ++ ys) =
      Scanner.run ⟨.endValue (.object (ms.map decodeMember)), .objectValue members key :: fs⟩ ys := by
  have hopen : Scanner.step ⟨.beginValue, .objectValue members key :: fs⟩ (ascii '{') =
      .next ⟨.beginStringOrEmpty, .objectKey [] :: .objectValue members key :: fs⟩ := if_pos hd
  cases ms with
  | nil =>
    rw [encodeMap, List.cons_append, Scanner.run, hopen]
    rfl
  | cons m ms =>
    rw [encodeMap, List.cons_append, List.cons_append, List.append_assoc, Scanner.run, hopen]
    dsimp only
    rw [run_member (Or.inr rfl), run_encodeMembers]
    rfl

end Encode

/-! ## Lengths -/

theorem length_le_escape (bs : List UInt8) : bs.length ≤ (escape bs).length := by
  induction bs using runes_induction with
  | nil => exact Nat.zero_le _
  | rune c bs ih =>
    have hchar : (String.utf8EncodeChar c).length ≤ (escapeChar c).length := by
      rw [escapeChar]
      split
      · rename_i hc
        rw [utf8EncodeChar_ascii hc, escapeByte]
        repeat' split
        all_goals simp
      · rw [escapeRune]
        split
        · rw [String.length_utf8EncodeChar]
          have := c.utf8Size_le_four
          simp
          omega
        · exact Nat.le_refl _
    rw [escape_rune, List.length_append, List.length_append]
    omega
  | invalid b bs hd ih =>
    rw [escape_invalid hd, List.length_append, List.length_cons]
    simp only [escapedReplacement, List.length_cons, List.length_nil]
    omega

theorem length_le_encodeMember (m : List UInt8 × List UInt8) : m.2.length ≤ (encodeMember m).length := by
  have h := length_le_escape m.2
  simp only [encodeMember, quote, List.length_append, List.length_cons]
  omega

/-- **No value gets shorter.** -/
theorem length_le_encodeMap (ms : List (List UInt8 × List UInt8)) :
    (ms.map fun m => m.2.length).sum ≤ (encodeMap ms).length := by
  have hmembers : ∀ ms : List (List UInt8 × List UInt8),
      (ms.map fun m => m.2.length).sum ≤ (encodeMembers ms).length := by
    intro ms
    induction ms with
    | nil => exact Nat.zero_le _
    | cons m ms ih =>
      have h := length_le_encodeMember m
      simp only [encodeMembers, List.map_cons, List.sum_cons, List.length_append, List.length_cons]
      omega
  cases ms with
  | nil => exact Nat.zero_le _
  | cons m ms =>
    have h := length_le_encodeMember m
    have h' := hmembers ms
    simp only [encodeMap, List.map_cons, List.sum_cons, List.length_append, List.length_cons]
    omega

end Talk2Text.Json
