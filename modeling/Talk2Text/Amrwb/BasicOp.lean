import Mathlib.Algebra.Divisibility.Basic
import Mathlib.Algebra.Ring.Int.Defs
import Mathlib.Algebra.Ring.Nat
import Mathlib.Order.Lattice
import Mathlib.Data.Int.Order.Basic

/-!
# Basic operators

`native/pvamrwbdecoder_basic_op_cequivalent.h`: the arithmetic of the decoder on 16-bit numbers, which saturates where
the result does not fit, and the conversion to 16 bits, which wraps around. Numbers are integers here, within their
types (`IsInt16`).

- `saturate_eq`: the overflow test by shifts is a clamp;
- `addInt16_eq`, `subInt16_eq`, `multInt16_eq`, `shlInt16_eq`: what the operators compute.
-/

namespace Talk2Text.Amrwb

/-- `MAX_16`. -/
def max16 : Int := 0x7fff

/-- `MIN_16`. -/
def min16 : Int := -0x8000

def IsInt16 (x : Int) : Prop := min16 ≤ x ∧ x ≤ max16

instance (x : Int) : Decidable (IsInt16 x) := inferInstanceAs (Decidable (_ ∧ _))

/-- The conversion `(int16) x`. -/
def toInt16 (x : Int) : Int := Int.bmod x (2 ^ 16)

/-- The end of the operators: the 32-bit result, or `(result >> 31) ^ MAX_16`, which is `MAX_16` or `MIN_16`. -/
def saturate (result : Int) : Int :=
  if result >>> (15 : Nat) ≠ result >>> (31 : Nat) then if result >>> (31 : Nat) = 0 then max16 else min16 else result

def addInt16 (var1 var2 : Int) : Int := saturate (var1 + var2)

def subInt16 (var1 var2 : Int) : Int := saturate (var1 - var2)

def multInt16 (var1 var2 : Int) : Int := saturate ((var1 * var2) >>> (15 : Nat))

/-- `shl_int16` for a shift to the left. -/
def shlInt16 (var1 : Int) (var2 : Nat) : Int :=
  let var2 := var2 &&& 0xf
  let varOut := toInt16 (var1 <<< var2)
  if varOut >>> var2 ≠ var1 then if var1 >>> (15 : Nat) = 0 then max16 else min16 else varOut

/-- The nearest 16-bit number. -/
def clamp16 (x : Int) : Int := max min16 (min max16 x)

section Operators

variable {a b x : Int}

theorem isInt16_clamp16 (x : Int) : IsInt16 (clamp16 x) :=
  ⟨le_max_left _ _, max_le (by decide) (min_le_left _ _)⟩

theorem clamp16_of_isInt16 (h : IsInt16 x) : clamp16 x = x := by rw [clamp16, min_eq_right h.2, max_eq_right h.1]

theorem shiftRight_eq (x : Int) (k : Nat) : x >>> k = x / 2 ^ k := by
  rw [Int.shiftRight_eq_div_pow]
  norm_cast

theorem toInt16_of_isInt16 (h : IsInt16 x) : toInt16 x = x := by
  obtain ⟨hlo, hhi⟩ := h
  simp only [min16, max16] at hlo hhi
  rw [toInt16, Int.bmod_eq_of_le (by omega) (by omega)]

theorem isInt16_toInt16 (x : Int) : IsInt16 (toInt16 x) := by
  have hlo := @Int.le_bmod x (2 ^ 16) (by decide)
  have hhi := @Int.bmod_lt x (2 ^ 16) (by decide)
  simp only [IsInt16, min16, max16, toInt16]
  omega

/-- **The overflow test** finds what does not fit into 16 bits. -/
theorem saturate_eq (hlo : -2 ^ 31 ≤ x) (hhi : x < 2 ^ 31) : saturate x = clamp16 x := by
  rw [saturate, shiftRight_eq, shiftRight_eq, clamp16]
  simp only [max16, min16]
  split
  · split <;> omega
  · omega

theorem addInt16_eq (ha : IsInt16 a) (hb : IsInt16 b) : addInt16 a b = clamp16 (a + b) := by
  simp only [IsInt16, min16, max16] at ha hb
  exact saturate_eq (by omega) (by omega)

theorem subInt16_eq (ha : IsInt16 a) (hb : IsInt16 b) : subInt16 a b = clamp16 (a - b) := by
  simp only [IsInt16, min16, max16] at ha hb
  exact saturate_eq (by omega) (by omega)

theorem mul_bounds (ha : IsInt16 a) (hb : IsInt16 b) : -2 ^ 30 ≤ a * b ∧ a * b ≤ 2 ^ 30 := by
  simp only [IsInt16, min16, max16] at ha hb
  have hna : a.natAbs ≤ 2 ^ 15 := by omega
  have hnb : b.natAbs ≤ 2 ^ 15 := by omega
  have hmul := Nat.mul_le_mul hna hnb
  rw [← Int.natAbs_mul] at hmul
  omega

theorem multInt16_eq (ha : IsInt16 a) (hb : IsInt16 b) : multInt16 a b = clamp16 (a * b / 2 ^ 15) := by
  obtain ⟨hlo, hhi⟩ := mul_bounds ha hb
  rw [multInt16, shiftRight_eq]
  exact saturate_eq (by omega) (by omega)

/-- The conversion changes a number by a multiple of `2 ^ 16`, so no power of two that divides the number is lost. -/
theorem dvd_toInt16 {k : Nat} (hk : k ≤ 16) (h : 2 ^ k ∣ x) : 2 ^ k ∣ toInt16 x := by
  have hq : ∃ q, toInt16 x = x - 2 ^ 16 * q := by
    rw [toInt16, Int.bmod]
    split
    · exact ⟨x / 2 ^ 16, by omega⟩
    · exact ⟨x / 2 ^ 16 + 1, by omega⟩
  obtain ⟨q, hq⟩ := hq
  rw [hq]
  exact Int.dvd_sub h ((pow_dvd_pow 2 hk).mul_right q)

/-- **The shift to the left** saturates. -/
theorem shlInt16_eq (ha : IsInt16 a) {k : Nat} (hk : k ≤ 15) : shlInt16 a k = clamp16 (a * 2 ^ k) := by
  have hmask : k &&& 0xf = k := by
    have hmod : k &&& 0xf = k % 2 ^ 4 := Nat.and_two_pow_sub_one_eq_mod k 4
    omega
  have hpos : (0 : Int) < 2 ^ k := Int.pow_pos (by decide)
  have hone : (1 : Int) ≤ 2 ^ k := hpos
  have hshift : a <<< k = a * 2 ^ k := Int.shiftLeft_eq a k
  rw [shlInt16, hmask, hshift, shiftRight_eq, shiftRight_eq]
  by_cases hin : IsInt16 (a * 2 ^ k)
  · rw [toInt16_of_isInt16 hin, if_neg (not_not.mpr (Int.mul_ediv_cancel a (Int.ne_of_gt hpos))), clamp16_of_isInt16 hin]
  · have hne : toInt16 (a * 2 ^ k) / 2 ^ k ≠ a := by
      intro he
      have hback := Int.ediv_mul_cancel (dvd_toInt16 (Nat.le_succ_of_le hk) (Int.dvd_mul_left a (2 ^ k)))
      rw [he] at hback
      exact hin (hback ▸ isInt16_toInt16 _)
    have hnonneg : 0 ≤ a → 0 ≤ a * 2 ^ k := fun h => Int.mul_nonneg h (Int.le_of_lt hpos)
    have hneg : a < 0 → a * 2 ^ k < 0 := fun h => Int.mul_neg_of_neg_of_pos h hpos
    rw [if_pos hne]
    simp only [IsInt16, min16, max16, clamp16] at ha hin ⊢
    split <;> omega

end Operators

end Talk2Text.Amrwb
