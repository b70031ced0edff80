import Mathlib.Algebra.Group.Nat.Defs
import Mathlib.Algebra.Ring.Int.Defs
import Talk2Text.Format.Utf8

/-!
# Decimal numbers

`Atoi` of Go's `strconv`, over the bytes of a string, with 64-bit integers. It returns a value also with an error: zero
if the text is no number, the nearest `int` if the number is out of range. The scan stops when the number gets too
large, so what follows then is never looked at.

- `atoi_digits`: digits are read as their value, or as the largest `int`;
- `atoi_repr`: the decimal text of an `int` that is not negative is read back.
-/

namespace Talk2Text.Format

/-- `math.MaxInt`. -/
def maxInt : Nat := 2 ^ 63 - 1

inductive NumError
  | errSyntax
  | errRange
  deriving DecidableEq, Repr

def isDigit (c : UInt8) : Bool := 48 ≤ c && c ≤ 57

def digitValue (c : UInt8) : Nat := c.toNat - 48

/-! ## `Atoi` -/

def maxUint64 : Nat := 2 ^ 64 - 1

/-- The loop of `ParseUint`, in base ten. -/
def parseUintLoop (n : Nat) : List UInt8 → Nat × Option NumError
  | [] => (n, none)
  | c :: s =>
    if !isDigit c then (0, some .errSyntax)
    else if maxUint64 / 10 + 1 ≤ n then (maxUint64, some .errRange)
    else
      let n10 := n * 10 % 2 ^ 64
      let n1 := (n10 + digitValue c) % 2 ^ 64
      if n1 < n10 then (maxUint64, some .errRange) else parseUintLoop n1 s

/-- `ParseUint`. -/
def parseUint (s : List UInt8) : Nat × Option NumError :=
  if s = [] then (0, some .errSyntax) else parseUintLoop 0 s

/-- `ParseInt` after the sign. -/
def parseSigned (neg : Bool) (s : List UInt8) : Int × Option NumError :=
  let (un, err) := parseUint s
  if err = some .errSyntax then (0, err)
  else if !neg && 2 ^ 63 ≤ un then (2 ^ 63 - 1, some .errRange)
  else if neg && 2 ^ 63 < un then (-2 ^ 63, some .errRange)
  else (if neg then -un else un, none)

/-- `ParseInt`. -/
def parseInt : List UInt8 → Int × Option NumError
  | [] => (0, some .errSyntax)
  | 43 :: s => parseSigned false s
  | 45 :: s => parseSigned true s
  | s => parseSigned false s

/-- The loop of `Atoi` over a short text. -/
def atoiLoop (n : Nat) : List UInt8 → Option Nat
  | [] => some n
  | c :: s => if isDigit c then atoiLoop (n * 10 + digitValue c) s else none

/-- The fast path of `Atoi` after the sign. -/
def atoiShort (neg : Bool) (s : List UInt8) : Int × Option NumError :=
  if s = [] then (0, some .errSyntax)
  else
    match atoiLoop 0 s with
    | none => (0, some .errSyntax)
    | some n => (if neg then -n else n, none)

/-- `Atoi`. -/
def atoi (s : List UInt8) : Int × Option NumError :=
  if 0 < s.length ∧ s.length < 19 then
    match s with
    | 43 :: s => atoiShort false s
    | 45 :: s => atoiShort true s
    | s => atoiShort false s
  else parseInt s

/-! ## Values -/

/-- The value of digits. -/
def ofDigits (n : Nat) (s : List UInt8) : Nat := s.foldl (fun n c => n * 10 + digitValue c) n

section Digits

variable {n : Nat} {s : List UInt8}

theorem le_ofDigits (n : Nat) (s : List UInt8) : n ≤ ofDigits n s := by
  induction s generalizing n with
  | nil => exact Nat.le_refl n
  | cons c s ih => exact Nat.le_trans (by omega) (ih (n * 10 + digitValue c))

theorem atoiLoop_digits (h : ∀ c ∈ s, isDigit c = true) : atoiLoop n s = some (ofDigits n s) := by
  induction s generalizing n with
  | nil => rfl
  | cons c s ih =>
    obtain ⟨hc, hs⟩ := List.forall_mem_cons.mp h
    rw [atoiLoop, if_pos hc, ih hs]
    rfl

theorem digitValue_le {c : UInt8} (h : isDigit c = true) : digitValue c ≤ 9 := by
  simp only [isDigit, Bool.and_eq_true, decide_eq_true_eq, UInt8.le_iff_toNat_le] at h
  unfold digitValue
  have : (57 : UInt8).toNat = 57 := rfl
  omega

/-- **The scan** gives the value of the digits, or the largest number with a range error. -/
theorem parseUintLoop_digits (hn : n ≤ maxUint64) (h : ∀ c ∈ s, isDigit c = true) :
    parseUintLoop n s =
      if ofDigits n s ≤ maxUint64 then (ofDigits n s, none) else (maxUint64, some .errRange) := by
  induction s generalizing n with
  | nil => exact (if_pos hn).symm
  | cons c s ih =>
    obtain ⟨hc, hs⟩ := List.forall_mem_cons.mp h
    have hd := digitValue_le hc
    have hle : n * 10 + digitValue c ≤ ofDigits n (c :: s) := le_ofDigits _ s
    have hc' : ¬(!isDigit c) = true := by simp [hc]
    have hmax : maxUint64 = 2 ^ 64 - 1 := rfl
    rw [parseUintLoop, if_neg hc']
    by_cases hcut : maxUint64 / 10 + 1 ≤ n
    · rw [if_pos hcut, if_neg (by omega)]
    · have hten : n * 10 % 2 ^ 64 = n * 10 := Nat.mod_eq_of_lt (by omega)
      rw [if_neg hcut, hten]
      dsimp only
      by_cases hover : n * 10 + digitValue c ≤ maxUint64
      · have hsum : (n * 10 + digitValue c) % 2 ^ 64 = n * 10 + digitValue c := Nat.mod_eq_of_lt (by omega)
        rw [hsum, if_neg (by omega)]
        exact ih hover hs
      · -- the sum wraps
        rw [if_pos (by omega), if_neg (by omega)]

theorem parseUint_digits (hne : s ≠ []) (h : ∀ c ∈ s, isDigit c = true) : parseUint s =
    if ofDigits 0 s ≤ maxUint64 then (ofDigits 0 s, none) else (maxUint64, some .errRange) := by
  rw [parseUint, if_neg hne]
  exact parseUintLoop_digits (Nat.zero_le _) h

theorem parseSigned_digits (hne : s ≠ []) (h : ∀ c ∈ s, isDigit c = true) :
    (parseSigned false s).1 = min (ofDigits 0 s) maxInt := by
  have hint : maxInt = 2 ^ 63 - 1 := rfl
  have hmax : maxUint64 = 2 ^ 64 - 1 := rfl
  by_cases hbig : ofDigits 0 s ≤ maxUint64
  · have hu : parseUint s = (ofDigits 0 s, none) := by rw [parseUint_digits hne h, if_pos hbig]
    by_cases hrange : 2 ^ 63 ≤ ofDigits 0 s
    · have hval : parseSigned false s = (2 ^ 63 - 1, some .errRange) := by
        rw [parseSigned, hu]
        exact (if_neg (by decide)).trans (if_pos (decide_eq_true hrange))
      rw [hval]
      omega
    · have hval : parseSigned false s = ((ofDigits 0 s : Int), none) := by
        have hno : ¬decide (2 ^ 63 ≤ ofDigits 0 s) = true := fun h => hrange (of_decide_eq_true h)
        rw [parseSigned, hu]
        exact (if_neg (by decide)).trans ((if_neg hno).trans (if_neg Bool.false_ne_true))
      rw [hval]
      omega
  · have hu : parseUint s = (maxUint64, some .errRange) := by rw [parseUint_digits hne h, if_neg hbig]
    have hval : parseSigned false s = (2 ^ 63 - 1, some .errRange) := by
      rw [parseSigned, hu]
      exact (if_neg (by decide)).trans (if_pos (by decide))
    rw [hval]
    omega

/-- No sign comes before digits. -/
theorem parseInt_digits (hne : s ≠ []) (h : ∀ c ∈ s, isDigit c = true) : parseInt s = parseSigned false s := by
  unfold parseInt
  split
  · exact absurd rfl hne
  · exact absurd (h 43 List.mem_cons_self) (by decide)
  · exact absurd (h 45 List.mem_cons_self) (by decide)
  · rfl

theorem atoiShort_digits (hne : s ≠ []) (h : ∀ c ∈ s, isDigit c = true) :
    atoiShort false s = ((ofDigits 0 s : Int), none) := by
  rw [atoiShort, if_neg hne, atoiLoop_digits h]
  rfl

theorem ofDigits_lt (h : ∀ c ∈ s, isDigit c = true) : ofDigits n s < (n + 1) * 10 ^ s.length := by
  induction s generalizing n with
  | nil => simp [ofDigits]
  | cons c s ih =>
    obtain ⟨hc, hs⟩ := List.forall_mem_cons.mp h
    have hd := digitValue_le hc
    calc ofDigits n (c :: s) = ofDigits (n * 10 + digitValue c) s := rfl
      _ < (n * 10 + digitValue c + 1) * 10 ^ s.length := ih hs
      _ ≤ ((n + 1) * 10) * 10 ^ s.length := Nat.mul_le_mul_right _ (by omega)
      _ = (n + 1) * 10 ^ (c :: s).length := by rw [List.length_cons, Nat.pow_succ, Nat.mul_assoc, Nat.mul_comm 10]

/-- **Digits are read as their value, or as the largest `int`.** -/
theorem atoi_digits (hne : s ≠ []) (h : ∀ c ∈ s, isDigit c = true) : (atoi s).1 = min (ofDigits 0 s) maxInt := by
  unfold atoi
  split
  · rename_i hlen
    have hlt := ofDigits_lt (n := 0) h
    have hpow : 10 ^ s.length ≤ 10 ^ 18 := Nat.pow_le_pow_right (by decide) (by omega)
    have hshort : (atoiShort false s).1 = min (ofDigits 0 s) maxInt := by
      rw [atoiShort_digits hne h]
      have hint : maxInt = 2 ^ 63 - 1 := rfl
      omega
    split
    · exact absurd (h 43 List.mem_cons_self) (by decide)
    · exact absurd (h 45 List.mem_cons_self) (by decide)
    · exact hshort
  · rw [parseInt_digits hne h]
    exact parseSigned_digits hne h

example : atoi (utf8 "99999999999999999999x") = (9223372036854775807, some .errRange) := by decide +kernel

theorem digits_of_atoiLoop {m : Nat} (h : atoiLoop n s = some m) : ∀ c ∈ s, isDigit c = true := by
  induction s generalizing n with
  | nil => exact List.forall_mem_nil _
  | cons c s ih =>
    rw [atoiLoop] at h
    split at h
    · rename_i hc
      exact List.forall_mem_cons.mpr ⟨hc, ih h⟩
    · cases h

theorem atoiShort_le (neg : Bool) (hlen : s.length < 19) : (atoiShort neg s).1 ≤ maxInt := by
  have hint : maxInt = 2 ^ 63 - 1 := rfl
  unfold atoiShort
  split
  · exact Int.natCast_nonneg _
  · split
    · exact Int.natCast_nonneg _
    · rename_i m hm
      have hdigits := digits_of_atoiLoop hm
      have hlt := ofDigits_lt (n := 0) hdigits
      have hpow : 10 ^ s.length ≤ 10 ^ 18 := Nat.pow_le_pow_right (by decide) (by omega)
      obtain rfl : ofDigits 0 s = m := Option.some.inj ((atoiLoop_digits hdigits).symm.trans hm)
      cases neg
      · show ((ofDigits 0 s : Nat) : Int) ≤ maxInt
        omega
      · show -((ofDigits 0 s : Nat) : Int) ≤ maxInt
        omega

theorem parseSigned_le (neg : Bool) : (parseSigned neg s).1 ≤ maxInt := by
  have hint : maxInt = 2 ^ 63 - 1 := rfl
  unfold parseSigned
  dsimp only
  cases neg with
  | false =>
    simp only [Bool.not_false, Bool.true_and, Bool.false_and, decide_eq_true_eq, Bool.false_eq_true, if_false]
    split_ifs with herr hlarge
    · exact Int.natCast_nonneg _
    · show (2 ^ 63 - 1 : Int) ≤ maxInt
      omega
    · show ((parseUint s).1 : Int) ≤ maxInt
      omega
  | true =>
    simp only [Bool.not_true, Bool.true_and, Bool.false_and, decide_eq_true_eq, Bool.false_eq_true, if_false, if_true]
    split_ifs with herr hlarge
    · exact Int.natCast_nonneg _
    · show (-2 ^ 63 : Int) ≤ maxInt
      omega
    · show -((parseUint s).1 : Int) ≤ maxInt
      omega

/-- No text is read as more than the largest `int`. -/
theorem atoi_le (s : List UInt8) : (atoi s).1 ≤ maxInt := by
  unfold atoi
  split
  · rename_i hlen
    split
    · exact atoiShort_le false (Nat.lt_of_succ_lt hlen.2)
    · exact atoiShort_le true (Nat.lt_of_succ_lt hlen.2)
    · exact atoiShort_le false hlen.2
  · unfold parseInt
    split
    · exact Int.natCast_nonneg _
    · exact parseSigned_le false
    · exact parseSigned_le true
    · exact parseSigned_le false

end Digits

/-! ## Numbers that are written -/

section Repr

variable {cs : List Char}

theorem utf8EncodeChar_digit {c : Char} (h : c.isDigit = true) :
    String.utf8EncodeChar c = [UInt8.ofNat c.toNat] ∧ isDigit (UInt8.ofNat c.toNat) = true ∧
      digitValue (UInt8.ofNat c.toNat) = c.toNat - 48 := by
  have hrange : 48 ≤ c.toNat ∧ c.toNat ≤ 57 := by simpa [Char.isDigit, UInt32.le_iff_toNat_le] using h
  have hbyte : (UInt8.ofNat c.toNat).toNat = c.toNat := UInt8.toNat_ofNat_of_lt' (show c.toNat < 256 by omega)
  refine ⟨utf8EncodeChar_ascii (by omega), ?_, by rw [digitValue, hbyte]⟩
  simp only [isDigit, Bool.and_eq_true, decide_eq_true_eq, UInt8.le_iff_toNat_le, hbyte]
  exact hrange

theorem isDigit_encodeRunes (h : ∀ c ∈ cs, c.isDigit = true) : ∀ b ∈ encodeRunes cs, isDigit b = true := by
  intro b hb
  obtain ⟨c, hc, hb⟩ := List.mem_flatMap.mp hb
  obtain ⟨henc, hdigit, -⟩ := utf8EncodeChar_digit (h c hc)
  rw [henc] at hb
  exact List.mem_singleton.mp hb ▸ hdigit

theorem ofDigits_encodeRunes (h : ∀ c ∈ cs, c.isDigit = true) (n : Nat) :
    ofDigits n (encodeRunes cs) = Nat.ofDigitChars 10 cs n := by
  induction cs generalizing n with
  | nil => rfl
  | cons c cs ih =>
    obtain ⟨hc, hcs⟩ := List.forall_mem_cons.mp h
    obtain ⟨henc, -, hvalue⟩ := utf8EncodeChar_digit hc
    rw [encodeRunes_cons, henc, Nat.ofDigitChars_cons, ← ih hcs, List.singleton_append]
    show ofDigits (n * 10 + digitValue _) _ = _
    rw [hvalue, Nat.mul_comm]
    rfl

theorem isDigit_repr (n : Nat) : ∀ c ∈ n.repr.toList, c.isDigit = true := by
  rw [Nat.toList_repr]
  exact fun c hc => Nat.isDigit_of_mem_toDigits (by decide) (by decide) hc

theorem ofDigits_repr (n : Nat) : ofDigits 0 (utf8 n.repr) = n := by
  rw [utf8, ofDigits_encodeRunes (isDigit_repr n), Nat.toList_repr, Nat.ofDigitChars_ten_toDigits]

theorem utf8_repr_ne_nil (n : Nat) : utf8 n.repr ≠ [] := by
  have hne : n.repr.toList ≠ [] := by
    rw [Nat.toList_repr]
    exact Nat.toDigits_ne_nil
  intro h
  obtain ⟨c, cs, hcs⟩ := List.exists_cons_of_ne_nil hne
  have hc := (utf8EncodeChar_digit (isDigit_repr n c (hcs ▸ List.mem_cons_self))).1
  rw [utf8, hcs, encodeRunes_cons, hc] at h
  cases h

/-- **A number is read back.** -/
theorem atoi_repr {n : Nat} (h : n ≤ maxInt) : (atoi (utf8 n.repr)).1 = n := by
  rw [atoi_digits (utf8_repr_ne_nil n) (isDigit_encodeRunes (isDigit_repr n)), ofDigits_repr, Nat.min_eq_left h]

end Repr

end Talk2Text.Format
