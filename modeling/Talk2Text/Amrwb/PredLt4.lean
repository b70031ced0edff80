import Mathlib.Algebra.BigOperators.Fin
import Mathlib.Algebra.Order.BigOperators.Group.Finset
import Talk2Text.Amrwb.Lag

/-!
# The adaptive codebook

`native/pred_lt4.c`: the excitation of a subframe is predicted from the excitation one pitch lag earlier, interpolated
by a filter of 32 taps. `Pred_lt4` works in place and computes four samples at a time. An access outside of the array
and a sum that does not fit into 32 bits are `none` here.

- `accumulate_round`: one round of the unrolled loop;
- `predGroup_eq`: four samples at a time are four samples one after the other, as long as the lag is not too short;
- `predLt4_eq`: for the lags that are decoded, `Pred_lt4` stays within the excitation, does not overflow, and computes
  sample after sample the interpolation of what precedes it.
-/

namespace Talk2Text.Amrwb

/-! ## `Pred_lt4` -/

/-- `inter4_2`, in Q14. -/
def inter4_2 : List (List Int) :=
  [[0, -2, 4, -2, -10, 38, -88, 165, -275, 424, -619, 871, -1207, 1699, -2598, 5531, 14031, -2147, 780, -249, -16, 153,
      -213, 226, -209, 175, -133, 91, -55, 28, -10, 2],
    [1, -7, 19, -33, 47, -52, 43, -9, -60, 175, -355, 626, -1044, 1749, -3267, 10359, 10359, -3267, 1749, -1044, 626,
      -355, 175, -60, -9, 43, -52, 47, -33, 19, -7, 1],
    [2, -10, 28, -55, 91, -133, 175, -209, 226, -213, 153, -16, -249, 780, -2147, 14031, 5531, -2598, 1699, -1207, 871,
      -619, 424, -275, 165, -88, 38, -10, -2, 4, -2, 0],
    [1, -7, 22, -49, 92, -153, 231, -325, 431, -544, 656, -762, 853, -923, 968, 15401, 968, -923, 853, -762, 656, -544,
      431, -325, 231, -153, 92, -49, 22, -7, 1, 0]]

/-- `array[p]`. -/
def load (array : List Int) (p : Int) : Option Int := if 0 ≤ p then array[p.toNat]? else none

/-- `array[p] = v`. -/
def store (array : List Int) (p v : Int) : Option (List Int) :=
  if 0 ≤ p ∧ p.toNat < array.length then some (array.set p.toNat v) else none

/-- `fxp_mac_16by16`. -/
def fxpMac16by16 (var1 var2 lAdd : Int) : Option Int :=
  let sum := lAdd + var1 * var2
  if -2 ^ 31 ≤ sum ∧ sum < 2 ^ 31 then some sum else none

/-- `L_sum1` to `L_sum4`. -/
structure Sums where
  lSum1 : Int
  lSum2 : Int
  lSum3 : Int
  lSum4 : Int
  deriving DecidableEq, Repr

/-- The body of the inner loop. -/
def accumulate (array : List Int) (ptExc : Int) (ptInter : List Int) (s : Sums) (i : Nat) : Option Sums := do
  let tmp1 ← load array (ptExc + i)
  let tmp2 ← load array (ptExc + i + 1)
  let tmp3 ← load array (ptExc + i + 2)
  let lSum1 ← fxpMac16by16 tmp1 (ptInter.getD i 0) s.lSum1
  let lSum2 ← fxpMac16by16 tmp2 (ptInter.getD i 0) s.lSum2
  let lSum1 ← fxpMac16by16 tmp2 (ptInter.getD (i + 1) 0) lSum1
  let lSum2 ← fxpMac16by16 tmp3 (ptInter.getD (i + 1) 0) lSum2
  let lSum3 ← fxpMac16by16 tmp3 (ptInter.getD i 0) s.lSum3
  let lSum1 ← fxpMac16by16 tmp3 (ptInter.getD (i + 2) 0) lSum1
  let tmp1 ← load array (ptExc + i + 3)
  let tmp2 ← load array (ptExc + i + 4)
  let lSum4 ← fxpMac16by16 tmp1 (ptInter.getD i 0) s.lSum4
  let lSum3 ← fxpMac16by16 tmp1 (ptInter.getD (i + 1) 0) lSum3
  let lSum2 ← fxpMac16by16 tmp1 (ptInter.getD (i + 2) 0) lSum2
  let lSum1 ← fxpMac16by16 tmp1 (ptInter.getD (i + 3) 0) lSum1
  let lSum4 ← fxpMac16by16 tmp2 (ptInter.getD (i + 1) 0) lSum4
  let lSum2 ← fxpMac16by16 tmp2 (ptInter.getD (i + 3) 0) lSum2
  let lSum3 ← fxpMac16by16 tmp2 (ptInter.getD (i + 2) 0) lSum3
  let tmp1 ← load array (ptExc + i + 5)
  let tmp2 ← load array (ptExc + i + 6)
  let lSum4 ← fxpMac16by16 tmp1 (ptInter.getD (i + 2) 0) lSum4
  let lSum3 ← fxpMac16by16 tmp1 (ptInter.getD (i + 3) 0) lSum3
  let lSum4 ← fxpMac16by16 tmp2 (ptInter.getD (i + 3) 0) lSum4
  pure ⟨lSum1, lSum2, lSum3, lSum4⟩

/-- One round of the outer loop: four samples from `exc` on. -/
def predGroup (array : List Int) (exc ptExc : Int) (ptInter : List Int) : Option (List Int) := do
  let s ← (List.range 8).foldlM (fun s k => accumulate array ptExc ptInter s (4 * k)) ⟨0x2000, 0x2000, 0x2000, 0x2000⟩
  let array ← store array exc (toInt16 (s.lSum1 >>> (14 : Nat)))
  let array ← store array (exc + 1) (toInt16 (s.lSum2 >>> (14 : Nat)))
  let array ← store array (exc + 2) (toInt16 (s.lSum3 >>> (14 : Nat)))
  store array (exc + 3) (toInt16 (s.lSum4 >>> (14 : Nat)))

/-- The body of the loop for one more sample. -/
def accumulateLast (array : List Int) (ptExc : Int) (ptInter : List Int) (lSum1 : Int) (i : Nat) : Option Int := do
  let tmp1 ← load array (ptExc + i)
  let tmp2 ← load array (ptExc + i + 1)
  let lSum1 ← fxpMac16by16 tmp1 (ptInter.getD i 0) lSum1
  let lSum1 ← fxpMac16by16 tmp2 (ptInter.getD (i + 1) 0) lSum1
  let tmp1 ← load array (ptExc + i + 2)
  let tmp2 ← load array (ptExc + i + 3)
  let lSum1 ← fxpMac16by16 tmp1 (ptInter.getD (i + 2) 0) lSum1
  fxpMac16by16 tmp2 (ptInter.getD (i + 3) 0) lSum1

/-- `Pred_lt4`, where `exc` is the place of the subframe in the array. -/
def predLt4 (array : List Int) (exc t0 frac : Int) (lSubfr : Nat) : Option (List Int) := do
  let ptExc := exc - t0
  let frac := -frac
  let (frac, ptExc) := if frac < 0 then (frac + 4, ptExc - 1) else (frac, ptExc)
  let ptExc := ptExc - 15
  let ptInter ← inter4_2[(3 - frac).toNat]?
  let n := lSubfr >>> 2
  let array ← (List.range n).foldlM (fun array (j : Nat) => predGroup array (exc + 4 * j) (ptExc + 4 * j) ptInter) array
  if lSubfr &&& 1 ≠ 0 then
    let lSum1 ← (List.range 8).foldlM (fun lSum1 k => accumulateLast array (ptExc + 4 * n) ptInter lSum1 (4 * k)) 0x2000
    store array (exc + 4 * n) (toInt16 (lSum1 >>> (14 : Nat)))
  else pure array

/-! ## Sums -/

/-- The sum over the first `n` taps, from `q` on, with the rounding. -/
def partialSum (array : List Int) (q : Nat) (h : List Int) (n : Nat) : Int :=
  0x2000 + ∑ i ∈ Finset.range n, array.getD (q + i) 0 * h.getD i 0

/-- The interpolated sample. -/
def interpolated (array : List Int) (q : Nat) (h : List Int) : Int := toInt16 (partialSum array q h 32 >>> (14 : Nat))

section Sums

theorem bind_eq {α β : Type} {x : Option α} {a : α} (h : x = some a) (f : α → Option β) : (x >>= f) = f a := by
  rw [h]
  rfl

variable {array array' h : List Int} {q : Nat}

theorem partialSum_succ (n : Nat) : partialSum array q h (n + 1) =
    partialSum array q h n + array.getD (q + n) 0 * h.getD n 0 := by
  rw [partialSum, partialSum, Finset.sum_range_succ, Int.add_assoc]

theorem load_eq {p : Nat} (hp : p < array.length) : load array p = some (array.getD p 0) := by
  rw [load, if_pos (by omega), Int.toNat_natCast, List.getD_eq_getElem?_getD, List.getElem?_eq_getElem hp]
  rfl

theorem store_eq {p : Nat} (hp : p < array.length) (v : Int) : store array p v = some (array.set p v) := by
  rw [store, if_pos ⟨by omega, by rwa [Int.toNat_natCast]⟩, Int.toNat_natCast]

/-- The taps of a filter whose sums fit into 32 bits. -/
def Taps (h : List Int) : Prop := ∑ i ∈ Finset.range 32, (h.getD i 0).natAbs ≤ 36000

instance (h : List Int) : Decidable (Taps h) := inferInstanceAs (Decidable (_ ≤ _))

theorem taps_inter4_2 : ∀ h ∈ inter4_2, Taps h := by decide +kernel

theorem getD_isInt16 (harr : ∀ v ∈ array, IsInt16 v) (p : Nat) : IsInt16 (array.getD p 0) := by
  rw [List.getD_eq_getElem?_getD]
  cases hp : array[p]? with
  | none => decide
  | some v => exact harr v (List.mem_of_getElem? hp)

/-- **No sum overflows.** -/
theorem partialSum_range (harr : ∀ v ∈ array, IsInt16 v) (hh : Taps h) {n : Nat} (hn : n ≤ 32) :
    -2 ^ 31 ≤ partialSum array q h n ∧ partialSum array q h n < 2 ^ 31 := by
  have hbound : ∀ n, (∑ i ∈ Finset.range n, array.getD (q + i) 0 * h.getD i 0).natAbs ≤
      2 ^ 15 * ∑ i ∈ Finset.range n, (h.getD i 0).natAbs := by
    intro n
    induction n with
    | zero => simp
    | succ n ih =>
      have hv := getD_isInt16 harr (q + n)
      simp only [IsInt16, min16, max16] at hv
      have hmul : (array.getD (q + n) 0 * h.getD n 0).natAbs ≤ 2 ^ 15 * (h.getD n 0).natAbs := by
        rw [Int.natAbs_mul]
        exact Nat.mul_le_mul_right _ (by omega)
      rw [Finset.sum_range_succ, Finset.sum_range_succ, Nat.mul_add]
      exact (Int.natAbs_add_le _ _).trans (Nat.add_le_add ih hmul)
  have hmono : ∑ i ∈ Finset.range n, (h.getD i 0).natAbs ≤ ∑ i ∈ Finset.range 32, (h.getD i 0).natAbs :=
    Finset.sum_le_sum_of_subset (Finset.range_mono hn)
  have hall : ∑ i ∈ Finset.range 32, (h.getD i 0).natAbs ≤ 36000 := hh
  have := hbound n
  rw [partialSum]
  omega

theorem fxpMac_eq (harr : ∀ v ∈ array, IsInt16 v) (hh : Taps h) {n : Nat} (hn : n < 32) :
    fxpMac16by16 (array.getD (q + n) 0) (h.getD n 0) (partialSum array q h n) = some (partialSum array q h (n + 1)) := by
  have hrange := @partialSum_range array h q harr hh (n + 1) hn
  rw [partialSum_succ] at hrange ⊢
  exact if_pos hrange

/-- **One round of the unrolled loop** adds four taps to each of four sums. -/
theorem accumulate_round (harr : ∀ v ∈ array, IsInt16 v) (hh : Taps h) {i : Nat} (hi : i + 4 ≤ 32)
    (hq : q + 35 ≤ array.length) :
    accumulate array q h ⟨partialSum array q h i, partialSum array (q + 1) h i, partialSum array (q + 2) h i,
      partialSum array (q + 3) h i⟩ i =
    some ⟨partialSum array q h (i + 4), partialSum array (q + 1) h (i + 4), partialSum array (q + 2) h (i + 4),
      partialSum array (q + 3) h (i + 4)⟩ := by
  have hload : ∀ (p : Int) (p' : Nat), p = p' → p' < array.length → load array p = some (array.getD p' 0) :=
    fun p p' he hp => he ▸ load_eq hp
  have hmac : ∀ p n n' q' : Nat, p = q' + n → n < 32 → n' = n + 1 → fxpMac16by16 (array.getD p 0) (h.getD n 0)
      (partialSum array q' h n) = some (partialSum array q' h n') := fun p n n' q' hp hn hn' => by
    rw [hp, hn']
    exact fxpMac_eq harr hh hn
  have l0 := hload (q + i) (q + i) (by omega) (by omega)
  have l1 := hload (q + i + 1) (q + i + 1) (by omega) (by omega)
  have l2 := hload (q + i + 2) (q + i + 2) (by omega) (by omega)
  have l3 := hload (q + i + 3) (q + i + 3) (by omega) (by omega)
  have l4 := hload (q + i + 4) (q + i + 4) (by omega) (by omega)
  have l5 := hload (q + i + 5) (q + i + 5) (by omega) (by omega)
  have l6 := hload (q + i + 6) (q + i + 6) (by omega) (by omega)
  -- the sum of sample `k` and its tap `d`
  have m00 := hmac (q + i) i (i + 1) q (by omega) (by omega) (by omega)
  have m01 := hmac (q + i + 1) (i + 1) (i + 2) q (by omega) (by omega) (by omega)
  have m02 := hmac (q + i + 2) (i + 2) (i + 3) q (by omega) (by omega) (by omega)
  have m03 := hmac (q + i + 3) (i + 3) (i + 4) q (by omega) (by omega) (by omega)
  have m10 := hmac (q + i + 1) i (i + 1) (q + 1) (by omega) (by omega) (by omega)
  have m11 := hmac (q + i + 2) (i + 1) (i + 2) (q + 1) (by omega) (by omega) (by omega)
  have m12 := hmac (q + i + 3) (i + 2) (i + 3) (q + 1) (by omega) (by omega) (by omega)
  have m13 := hmac (q + i + 4) (i + 3) (i + 4) (q + 1) (by omega) (by omega) (by omega)
  have m20 := hmac (q + i + 2) i (i + 1) (q + 2) (by omega) (by omega) (by omega)
  have m21 := hmac (q + i + 3) (i + 1) (i + 2) (q + 2) (by omega) (by omega) (by omega)
  have m22 := hmac (q + i + 4) (i + 2) (i + 3) (q + 2) (by omega) (by omega) (by omega)
  have m23 := hmac (q + i + 5) (i + 3) (i + 4) (q + 2) (by omega) (by omega) (by omega)
  have m30 := hmac (q + i + 3) i (i + 1) (q + 3) (by omega) (by omega) (by omega)
  have m31 := hmac (q + i + 4) (i + 1) (i + 2) (q + 3) (by omega) (by omega) (by omega)
  have m32 := hmac (q + i + 5) (i + 2) (i + 3) (q + 3) (by omega) (by omega) (by omega)
  have m33 := hmac (q + i + 6) (i + 3) (i + 4) (q + 3) (by omega) (by omega) (by omega)
  rw [accumulate, bind_eq l0, bind_eq l1, bind_eq l2, bind_eq m00, bind_eq m10, bind_eq m01, bind_eq m11, bind_eq m20,
    bind_eq m02, bind_eq l3, bind_eq l4, bind_eq m30, bind_eq m21, bind_eq m12, bind_eq m03, bind_eq m31, bind_eq m13,
    bind_eq m22, bind_eq l5, bind_eq l6, bind_eq m32, bind_eq m23, bind_eq m33]
  rfl

theorem accumulate_rounds (harr : ∀ v ∈ array, IsInt16 v) (hh : Taps h) (hq : q + 35 ≤ array.length) {m : Nat}
    (hm : m ≤ 8) :
    (List.range m).foldlM (fun s k => accumulate array q h s (4 * k)) ⟨0x2000, 0x2000, 0x2000, 0x2000⟩ =
      some ⟨partialSum array q h (4 * m), partialSum array (q + 1) h (4 * m), partialSum array (q + 2) h (4 * m),
        partialSum array (q + 3) h (4 * m)⟩ := by
  induction m with
  | zero => rfl
  | succ m ih =>
    rw [List.range_succ, List.foldlM_append, bind_eq (ih (by omega)), List.foldlM_cons,
      bind_eq (accumulate_round harr hh (by omega) hq)]
    rfl

theorem accumulateLast_rounds (harr : ∀ v ∈ array, IsInt16 v) (hh : Taps h) (hq : q + 32 ≤ array.length) {m : Nat}
    (hm : m ≤ 8) :
    (List.range m).foldlM (fun lSum1 k => accumulateLast array q h lSum1 (4 * k)) 0x2000 =
      some (partialSum array q h (4 * m)) := by
  induction m with
  | zero => rfl
  | succ m ih =>
    have hload : ∀ (p : Int) (p' : Nat), p = p' → p' < array.length → load array p = some (array.getD p' 0) :=
      fun p p' he hp => he ▸ load_eq hp
    have hmac : ∀ p n n', p = q + n → n < 32 → n' = n + 1 → fxpMac16by16 (array.getD p 0) (h.getD n 0)
        (partialSum array q h n) = some (partialSum array q h n') := fun p n n' hp hn hn' => by
      rw [hp, hn']
      exact fxpMac_eq harr hh hn
    have l0 := hload (q + (4 * m : Nat)) (q + 4 * m) (by omega) (by omega)
    have l1 := hload (q + (4 * m : Nat) + 1) (q + 4 * m + 1) (by omega) (by omega)
    have l2 := hload (q + (4 * m : Nat) + 2) (q + 4 * m + 2) (by omega) (by omega)
    have l3 := hload (q + (4 * m : Nat) + 3) (q + 4 * m + 3) (by omega) (by omega)
    have m0 := hmac (q + 4 * m) (4 * m) (4 * m + 1) (by omega) (by omega) (by omega)
    have m1 := hmac (q + 4 * m + 1) (4 * m + 1) (4 * m + 2) (by omega) (by omega) (by omega)
    have m2 := hmac (q + 4 * m + 2) (4 * m + 2) (4 * m + 3) (by omega) (by omega) (by omega)
    have m3 := hmac (q + 4 * m + 3) (4 * m + 3) (4 * (m + 1)) (by omega) (by omega) (by omega)
    rw [List.range_succ, List.foldlM_append, bind_eq (ih (by omega)), List.foldlM_cons, accumulateLast, bind_eq l0,
      bind_eq l1, bind_eq m0, bind_eq m1, bind_eq l2, bind_eq l3, bind_eq m2, bind_eq m3]
    rfl

/-- Samples after the first tap of a sum have no part in it. -/
theorem interpolated_set {p : Nat} (hp : q + 32 ≤ p) (v : Int) :
    interpolated (array.set p v) q h = interpolated array q h := by
  have hsum : partialSum (array.set p v) q h 32 = partialSum array q h 32 := by
    rw [partialSum, partialSum]
    refine congrArg _ (Finset.sum_congr rfl fun i hi => ?_)
    rw [Finset.mem_range] at hi
    have hget : (array.set p v)[q + i]? = array[q + i]? := List.getElem?_set_ne (by omega)
    rw [List.getD_eq_getElem?_getD, hget, ← List.getD_eq_getElem?_getD]
  rw [interpolated, interpolated, hsum]

end Sums

/-! ## One sample after the other -/

/-- `n` samples from `p` on, each interpolated from the array as it is then. -/
def predicted (array : List Int) (p q : Nat) (h : List Int) (n : Nat) : List Int :=
  (List.range n).foldl (fun array i => array.set (p + i) (interpolated array (q + i) h)) array

section Samples

variable {array h : List Int} {p q : Nat}

theorem predicted_succ (n : Nat) : predicted array p q h (n + 1) =
    (predicted array p q h n).set (p + n) (interpolated (predicted array p q h n) (q + n) h) := by
  rw [predicted, List.range_succ, List.foldl_append]
  rfl

@[simp] theorem length_predicted (n : Nat) : (predicted array p q h n).length = array.length := by
  induction n with
  | zero => rfl
  | succ n ih => rw [predicted_succ, List.length_set, ih]

theorem predicted_isInt16 (harr : ∀ v ∈ array, IsInt16 v) (n : Nat) : ∀ v ∈ predicted array p q h n, IsInt16 v := by
  induction n with
  | zero => exact harr
  | succ n ih =>
    intro v hv
    rw [predicted_succ] at hv
    rcases List.mem_or_eq_of_mem_set hv with hv | rfl
    · exact ih v hv
    · exact isInt16_toInt16 _

theorem predicted_add (n m : Nat) : predicted array p q h (n + m) =
    predicted (predicted array p q h n) (p + n) (q + n) h m := by
  induction m with
  | zero => rfl
  | succ m ih => rw [← Nat.add_assoc, predicted_succ, predicted_succ, ih, Nat.add_assoc, Nat.add_assoc]

theorem interpolated_predicted {q' : Nat} (hq : q' + 32 ≤ p) (n : Nat) :
    interpolated (predicted array p q h n) q' h = interpolated array q' h := by
  induction n with
  | zero => rfl
  | succ n ih => rw [predicted_succ, interpolated_set (by omega), ih]

/-- **Four samples at a time** are four samples one after the other, if the lag is not too short. -/
theorem predGroup_eq (harr : ∀ v ∈ array, IsInt16 v) (hh : Taps h) (hq : q + 35 ≤ p) (hp : p + 4 ≤ array.length) :
    predGroup array p q h = some (predicted array p q h 4) := by
  have hstore : ∀ (a : List Int) (p' : Int) (n : Nat) (v : Int), p' = n → n < a.length →
      store a p' v = some (a.set n v) := fun a p' n v he hn => he ▸ store_eq hn v
  have hfour : predicted array p q h 4 = (((array.set p (interpolated array q h)).set (p + 1)
      (interpolated array (q + 1) h)).set (p + 2) (interpolated array (q + 2) h)).set (p + 3)
      (interpolated array (q + 3) h) := by
    rw [predicted_succ, interpolated_predicted (by omega), predicted_succ, interpolated_predicted (by omega),
      predicted_succ, interpolated_predicted (by omega), predicted_succ, interpolated_predicted (by omega)]
    rfl
  rw [predGroup, bind_eq (accumulate_rounds harr hh (by omega) (Nat.le_refl 8)),
    bind_eq (hstore array p p _ rfl (by omega)),
    bind_eq (hstore _ (p + 1) (p + 1) _ (by omega) (by rw [List.length_set]; omega)),
    bind_eq (hstore _ (p + 2) (p + 2) _ (by omega) (by rw [List.length_set, List.length_set]; omega)),
    hstore _ (p + 3) (p + 3) _ (by omega) (by rw [List.length_set, List.length_set, List.length_set]; omega), hfour]
  rfl

theorem predGroups_eq (harr : ∀ v ∈ array, IsInt16 v) (hh : Taps h) (hq : q + 35 ≤ p) {n : Nat}
    (hp : p + 4 * n ≤ array.length) :
    (List.range n).foldlM (fun array (j : Nat) => predGroup array ((p : Int) + 4 * j) ((q : Int) + 4 * j) h) array =
      some (predicted array p q h (4 * n)) := by
  induction n with
  | zero => rfl
  | succ n ih =>
    have hgroup := @predGroup_eq (predicted array p q h (4 * n)) h (p + 4 * n) (q + 4 * n)
      (predicted_isInt16 harr _) hh (by omega) (by rw [length_predicted]; omega)
    push_cast at hgroup
    rw [List.range_succ, List.foldlM_append, bind_eq (ih (by omega)), List.foldlM_cons, bind_eq hgroup, Nat.mul_succ,
      predicted_add]
    rfl

end Samples

/-! ## Lags -/

def lInterpol : Nat := 17

/-- The samples that are kept of the excitation: `PIT_MAX + L_INTERPOL`. -/
def excHistory : Nat := 231 + lInterpol

/-- The first sample that is needed for a sample, back from it. -/
def Lag.reach (lag : Lag) : Nat := lag.t0.toNat + 15 + if lag.t0Frac = 0 then 0 else 1

/-- The filter for a fraction. -/
def Lag.taps (lag : Lag) : List Int := inter4_2.getD (if lag.t0Frac = 0 then 3 else lag.t0Frac.toNat - 1) []

/-- **`Pred_lt4`** for a lag that is decoded: all its accesses are to the excitation of the last samples and of the
subframe so far, no sum overflows, and the result is that of interpolating one sample after the other. -/
theorem predLt4_eq {array : List Int} {exc : Nat} {lag : Lag} (hlag : lag.InRange) (hexc : excHistory ≤ exc)
    (hlen : exc + (lSubfr + 1) ≤ array.length) (harr : ∀ v ∈ array, IsInt16 v) :
    predLt4 array exc lag.t0 lag.t0Frac (lSubfr + 1) =
      some (predicted array exc (exc - lag.reach) lag.taps (lSubfr + 1)) := by
  obtain ⟨hmin, hmax, hf₀, hf₁⟩ := hlag
  simp only [pitMin, pitMax] at hmin hmax
  simp only [excHistory, lInterpol] at hexc
  have hreach : lag.reach ≤ exc ∧ 49 ≤ lag.reach := by
    simp only [Lag.reach]
    split <;> omega
  -- the fraction in the source's terms, with the place of the first tap
  have hstart : (let frac := -lag.t0Frac
      if frac < 0 then (frac + 4, (exc : Int) - lag.t0 - 1) else (frac, exc - lag.t0)) =
      (if lag.t0Frac = 0 then 0 else 4 - lag.t0Frac, ((exc - lag.reach : Nat) : Int) + 15) := by
    simp only [Lag.reach] at hreach ⊢
    by_cases h : lag.t0Frac = 0
    · rw [if_pos h] at hreach
      rw [if_neg (by omega), if_pos h, if_pos h]
      exact Prod.ext (by dsimp only; omega) (by dsimp only; omega)
    · rw [if_neg h] at hreach
      rw [if_pos (by omega), if_neg h, if_neg h]
      exact Prod.ext (by dsimp only; omega) (by dsimp only; omega)
  have htaps : inter4_2[(3 - (if lag.t0Frac = 0 then 0 else 4 - lag.t0Frac)).toNat]? = some lag.taps := by
    rw [Lag.taps, List.getD_eq_getElem?_getD]
    by_cases h : lag.t0Frac = 0
    · rw [if_pos h, if_pos h]
      rfl
    · have hrow : (3 - (4 - lag.t0Frac)).toNat = lag.t0Frac.toNat - 1 := by omega
      have hlt : lag.t0Frac.toNat - 1 < inter4_2.length := by simp only [inter4_2, List.length_cons]; omega
      rw [if_neg h, if_neg h, hrow, List.getElem?_eq_getElem hlt]
      rfl
  have hmem : Taps lag.taps := taps_inter4_2 _ (List.mem_of_getElem? htaps)
  have hgroups := @predGroups_eq array lag.taps exc (exc - lag.reach) harr hmem (by omega) 16
    (by simp only [lSubfr] at hlen; omega)
  rw [predLt4]
  simp only at hstart
  rw [hstart]
  simp only [Int.add_sub_cancel]
  rw [bind_eq htaps]
  have h16 : (lSubfr + 1) >>> 2 = 16 := rfl
  have h1 : (lSubfr + 1) &&& 1 = 1 := rfl
  have hlast := @accumulateLast_rounds (predicted array exc (exc - lag.reach) lag.taps 64) lag.taps
    (exc - lag.reach + 64) (predicted_isInt16 harr _) hmem (by rw [length_predicted]; simp only [lSubfr] at hlen; omega) 8
    (Nat.le_refl 8)
  push_cast at hlast
  have hstore := @store_eq (predicted array exc (exc - lag.reach) lag.taps 64) (exc + 64)
    (by rw [length_predicted]; simp only [lSubfr] at hlen; omega)
  push_cast at hstore
  rw [h16, h1, bind_eq hgroups, if_pos Nat.one_ne_zero]
  show (List.foldlM (fun lSum1 k => accumulateLast _ (((exc - lag.reach : Nat) : Int) + 64) lag.taps lSum1 (4 * k)) 0x2000
    (List.range 8) >>= fun lSum1 => store _ ((exc : Int) + 64) (toInt16 (lSum1 >>> (14 : Nat)))) = _
  rw [bind_eq hlast, hstore]
  exact congrArg some (predicted_succ 64).symm

end Talk2Text.Amrwb
