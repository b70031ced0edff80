import Talk2Text.Amrwb.Dtx
import Talk2Text.Amrwb.Gains

/-!
# Excitation

The end of a subframe in `native/pvamrwbdecoder.c`: the excitation is the pitch vector and the code, each with its gain;
what the synthesis filter gets is made of the same pitch vector and the enhanced code, and at the lower rates a strong
pitch is sharpened (`native/agc2_amr_wb.c`). The vectors and the factors that come from the rest of the decoder are
parameters (`Vectors`).

- `excitation_silent`: without gains there is nothing left of either vector.
-/

namespace Talk2Text.Amrwb

/-! ## 32-bit operators -/

/-- `add_int32`, which saturates. -/
def addInt32 (lVar1 lVar2 : Int) : Int :=
  let lVarOut := toInt32 (lVar1 + lVar2)
  if (lVar1 < 0 ↔ lVar2 < 0) ∧ ¬(lVarOut < 0 ↔ lVar1 < 0) then
    if lVar1 >>> (31 : Nat) = 0 then max32 else min32
  else lVarOut

/-- `sub_int32`, which saturates. -/
def subInt32 (lVar1 lVar2 : Int) : Int :=
  let lVarOut := toInt32 (lVar1 - lVar2)
  if ¬(lVar1 < 0 ↔ lVar2 < 0) ∧ ¬(lVarOut < 0 ↔ lVar1 < 0) then
    if lVar1 >>> (31 : Nat) = 0 then max32 else min32
  else lVarOut

def mac16by16ToInt32 (lVar3 var1 var2 : Int) : Int := addInt32 lVar3 (mul16by16ToInt32 var1 var2)

def msu16by16FromInt32 (lVar3 var1 var2 : Int) : Int := subInt32 lVar3 (mul16by16ToInt32 var1 var2)

/-- `fxp_mul32_by_16b`. -/
def fxpMul32By16b (lVar1 lVar2 : Int) : Int := toInt32 ((lVar1 * toInt32 (lVar2 <<< (16 : Nat))) >>> (32 : Nat))

/-- `shr_int32`, which saturates where it shifts to the left. -/
def shrInt32 (lVar1 var2 : Int) : Int :=
  if var2 ≥ 0 then lVar1 >>> (var2.toNat &&& 0x1f)
  else
    let var2 := (-var2).toNat &&& 0x1f
    let lVarOut := toInt32 (lVar1 <<< var2)
    if lVarOut >>> var2 ≠ lVar1 then if lVar1 >>> (31 : Nat) = 0 then max32 else min32 else lVarOut

def negateInt16 (var1 : Int) : Int := if var1 = min16 then max16 else -var1

/-- `normalize_amr_wb`; the `switch` is over bits 27 to 30. -/
def normalizeAmrWb (x : Int) : Nat :=
  let i : Nat :=
    if x > 0x0FFFFFFF then 0
    else if x > 0x00FFFFFF then 3
    else if x > 0x0000FFFF then if x > 0x000FFFFF then 7 else 11
    else if x > 0x000000FF then if x > 0x00000FFF then 15 else 19
    else if x > 0x0000000F then 23 else 27
  let bits := toInt32 (x <<< i) >>> (27 : Nat) % 16
  if bits = 1 then i + 3
  else if bits = 2 ∨ bits = 3 then i + 2
  else if 4 ≤ bits ∧ bits ≤ 7 then i + 1
  else i

/-! ## `one_ov_sqrt` -/

def tableIsqrt : List Int :=
  [32767, 31790, 30894, 30070, 29309, 28602, 27945, 27330, 26755, 26214, 25705, 25225, 24770, 24339, 23930, 23541,
    23170, 22817, 22479, 22155, 21845, 21548, 21263, 20988, 20724, 20470, 20225, 19988, 19760, 19539, 19326, 19119,
    18919, 18725, 18536, 18354, 18176, 18004, 17837, 17674, 17515, 17361, 17211, 17064, 16921, 16782, 16646, 16514,
    16384]

/-- `one_ov_sqrt_norm`: the fraction and the exponent. -/
def oneOvSqrtNorm (frac exp : Int) : Int × Int :=
  if frac ≤ 0 then (max32, 0)
  else
    let frac := if exp % 2 = 1 then frac >>> (1 : Nat) else frac
    let exp := negateInt16 ((exp - 1) >>> (1 : Nat))
    let frac := frac >>> (9 : Nat)
    let i := (toInt16 (frac >>> (16 : Nat)) - 16).toNat
    let a := toInt16 (frac >>> (1 : Nat)) % 0x8000
    let tmp := tableIsqrt.getD i 0 - tableIsqrt.getD (i + 1) 0
    (msu16by16FromInt32 (tableIsqrt.getD i 0 <<< (16 : Nat)) tmp a, exp)

def oneOvSqrt (lX : Int) : Int :=
  let exp := normalizeAmrWb lX
  let (lX, exp) := oneOvSqrtNorm (toInt32 (lX <<< exp)) (31 - exp)
  shlInt32 lX exp

/-! ## `agc2_amr_wb` -/

/-- The energy of a signal, from the square of its first sample on. -/
def energy (first : Int) (sig : List Int) : Int :=
  sig.tail.foldl (fun s (x : Int) => mac16by16ToInt32 s (x >>> (2 : Nat)) (x >>> (2 : Nat))) first

/-- `agc2_amr_wb`: `sig_out` with the energy of `sig_in`; `none` where the source shifts by a negative number, which is
undefined. -/
def agc2AmrWb (sigIn sigOut : List Int) : Option (List Int) :=
  let temp := sigOut.getD 0 0 >>> (2 : Nat)
  let s := energy ((temp * temp) <<< (1 : Nat)) sigOut
  if s = 0 then some sigOut
  else
    let exp : Int := normalizeAmrWb s - 1
    if exp < 0 then none
    else
      let gainOut := amrWbRound (toInt32 (s <<< exp.toNat))
      let temp := sigIn.getD 0 0 >>> (2 : Nat)
      let s := energy (mul16by16ToInt32 temp temp) sigIn
      let g0 :=
        if s = 0 then 0
        else
          let i := normalizeAmrWb s
          let gainIn := amrWbRound (toInt32 (s <<< i))
          let s := shrInt32 (shlInt32 (div16by16 gainOut gainIn) 7) (exp - i)
          amrWbRound (shlInt32 (oneOvSqrt s) 9)
      some (sigOut.map fun x => toInt16 (shlInt32 (x * g0) 3 >>> (16 : Nat)))

/-! ## The end of a subframe -/

/-- `Q_MAX`. -/
def qMax : Int := 8

/-- The loop that scales the gain of the code up, with the rounds that are left. -/
def scaleLoop : Nat → Int → Nat → Int × Nat
  | 0, lTmp, qNew => (lTmp, qNew)
  | n + 1, lTmp, qNew =>
    if lTmp < 0x08000000 then scaleLoop n (toInt32 (lTmp <<< (1 : Nat))) (qNew + 1) else (lTmp, qNew)

/-- One sample: the code and another vector, each with its gain. -/
def mixSample (codeTerm gainCode exc gainPit : Int) : Int :=
  let lTmp := mul16by16ToInt32 codeTerm gainCode
  let lTmp := shlInt32 lTmp 5
  let lTmp := mac16by16ToInt32 lTmp exc gainPit
  let lTmp := shlInt32 lTmp 1
  amrWbRound lTmp

/-- What the rest of the decoder has for the excitation of a subframe. -/
structure Vectors where
  /-- The smallest of `Qsubfr`. -/
  qsubfr : Int
  code : List Int
  /-- The code after `phase_dispersion`. -/
  dispersed : List Int
  /-- The pitch vector, in the scale of this subframe. -/
  exc : List Int
  voiceFac : Int
  stabFac : Int
  lGcThres : Int

/-- The noise enhancer: the gain of the code, and the next threshold. -/
def noiseEnhancer (lGainCode : Int) (v : Vectors) : Int × Int :=
  let fac := multInt16 v.stabFac (16384 - v.voiceFac >>> (1 : Nat))
  let lTmp :=
    if lGainCode < v.lGcThres then
      let lTmp := lGainCode + fxpMul32By16b lGainCode 6226 <<< (1 : Nat)
      if lTmp > v.lGcThres then v.lGcThres else lTmp
    else
      let lTmp := fxpMul32By16b lGainCode 27536 <<< (1 : Nat)
      if lTmp < v.lGcThres then v.lGcThres else lTmp
  let lGainCode := fxpMul32By16b lGainCode (32767 - fac) <<< (1 : Nat)
  (addInt32 lGainCode (fxpMul32By16b lTmp fac <<< (1 : Nat)), lTmp)

/-- The neighbours of a sample of the code, added. -/
def neighbours (code : List Int) (i : Nat) : Int :=
  if i = 0 then code.getD 1 0
  else if i = lSubfr - 1 then code.getD (lSubfr - 2) 0
  else toInt16 (code.getD (i + 1) 0 + code.getD (i - 1) 0)

/-- The sample of the code that the pitch enhancer uses. -/
def filteredCode (code : List Int) (tmp : Int) (i : Nat) : Int :=
  amrWbRound (msu16by16FromInt32 (code.getD i 0 <<< (16 : Nat)) (neighbours code i) tmp)

/-- The pitch vector by 1/8, rounded. -/
def scaleDown (x : Int) : Int := (x + if x ≠ max16 then 4 else 0) >>> (3 : Nat)

/-- `pit_sharp`. -/
def pitSharp (nbBits : Nat) (gainPit : Int) : Int := if nbBits ≤ nbbits9k then shlInt16 gainPit 1 else 0

/-- A sample of `excp`. -/
def sharpSample (sharp gainPit x : Int) : Int :=
  amrWbRound (mul16by16ToInt32 (multInt16 (scaleDown x) sharp) gainPit >>> (1 : Nat))

/-- The excitation of a subframe with these gains, and what the synthesis filter gets. Both are made of the pitch
vector, which is copied before the excitation takes its place. -/
def excitation (nbBits : Nat) (gainPit lGainCode : Int) (v : Vectors) : Option (List Int × List Int) :=
  let (lTmp, qNew) := scaleLoop (min v.qsubfr qMax).toNat lGainCode 0
  let gainCode := amrWbRound lTmp
  let sharp := pitSharp nbBits gainPit
  let exc := List.zipWith (fun code exc => mixSample code gainCode exc gainPit) v.code v.exc
  let gainCode := amrWbRound (shlInt32 (noiseEnhancer lGainCode v).1 qNew)
  let tmp := v.voiceFac >>> (3 : Nat) + 4096
  let exc2 := v.exc.mapIdx fun i x => mixSample (filteredCode v.dispersed tmp i) gainCode x gainPit
  if sharp > 16384 then
    let excp := List.zipWith (fun x e => addInt16 (sharpSample sharp gainPit x) e) v.exc exc2
    (agc2AmrWb exc2 excp).map fun exc2 => (exc, exc2)
  else some (exc, exc2)

/-- Half of the pitch vector, in both. -/
example : excitation 253 8192 0 ⟨8, [0], [0], [1000], 0, 0, 0⟩ = some ([500], [500]) := by decide

section Silence

theorem scaleLoop_zero (n q : Nat) : (scaleLoop n 0 q).1 = 0 := by
  induction n generalizing q with
  | zero => rfl
  | succ n ih =>
    rw [scaleLoop, if_pos (by decide)]
    exact ih _

theorem fxpMul32By16b_zero (x : Int) : fxpMul32By16b 0 x = 0 := by
  rw [fxpMul32By16b, Int.zero_mul]
  rfl

theorem mixSample_zero (c x : Int) : mixSample c 0 x 0 = 0 := by
  rw [mixSample, mac16by16ToInt32, mul16by16ToInt32, mul16by16ToInt32, Int.mul_zero, Int.mul_zero]
  rfl

/-- The noise enhancer moves the gain by a part of itself only. -/
theorem noiseEnhancer_zero (v : Vectors) : (noiseEnhancer 0 v).1 = 0 := by
  have hshift : (0 : Int) <<< (1 : Nat) = 0 := rfl
  have hadd : addInt32 0 0 = 0 := rfl
  by_cases h : 0 < v.lGcThres
  · simp only [noiseEnhancer, fxpMul32By16b_zero, hshift, if_pos h, Int.add_zero, if_neg (not_lt_of_gt h), hadd,
      gt_iff_lt]
  · simp only [noiseEnhancer, fxpMul32By16b_zero, hshift, if_neg h, hadd]

theorem pitSharp_zero (nbBits : Nat) : pitSharp nbBits 0 = 0 := by
  rw [pitSharp]
  split <;> rfl

/-- **Without gains** there is no excitation, neither for the next subframes nor for the synthesis. -/
theorem excitation_silent (nbBits : Nat) (v : Vectors) : ∃ exc exc2, excitation nbBits 0 0 v = some (exc, exc2) ∧
    (∀ x ∈ exc, x = 0) ∧ ∀ x ∈ exc2, x = 0 := by
  have hround : amrWbRound 0 = 0 := rfl
  have hsharp : ¬(0 : Int) > 16384 := by decide
  have hshl : ∀ n : Nat, shlInt32 0 n = 0 := fun n => by
    rw [shlInt32]
    split
    · have hzero : toInt32 ((0 : Int) <<< (n : Int).toNat) = 0 := by rw [Int.zero_shiftLeft]; rfl
      rw [hzero, if_neg (by rw [Int.zero_shiftRight]; exact not_not.mpr rfl)]
    · exact Int.zero_shiftRight _
  simp only [excitation, scaleLoop_zero, hround, noiseEnhancer_zero, hshl, pitSharp_zero, if_neg hsharp]
  refine ⟨_, _, rfl, fun x hx => ?_, fun x hx => ?_⟩
  · obtain ⟨i, hi⟩ := List.mem_iff_getElem?.mp hx
    obtain ⟨c, y, -, -, rfl⟩ := List.getElem?_zipWith_eq_some.mp hi
    exact mixSample_zero c y
  · obtain ⟨i, hi, rfl⟩ := List.mem_mapIdx.mp hx
    exact mixSample_zero _ _

end Silence

end Talk2Text.Amrwb
