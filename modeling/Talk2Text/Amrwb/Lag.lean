import Talk2Text.Amrwb.BasicOp
import Talk2Text.Amrwb.Params

/-!
# Pitch lags

The pitch lag of a subframe, in whole samples `T0` and quarters `T0_frac`: the decoding of its index in
`native/pvamrwbdecoder.c`, and `native/lagconceal.c`, which replaces the lag of a bad frame by one that the last lags
suggest, with some noise (`native/noise_gen_amrwb.c`).

- `decodeLag_range`: a decoded lag is between `PIT_MIN` and `PIT_MAX`;
- `absoluteLag_strictMono`: no two indices mean the same lag;
- `insertionSort_eq`: `insertion_sort` sorts;
- `lagconceal_range`: a lag in place of a lost one is between the smallest and the largest of the last lags.
-/

namespace Talk2Text.Amrwb

/-! ## Decoding -/

def pitMin : Int := 34
def pitFr2 : Int := 128
def pitFr1_9b : Int := 160
def pitFr1_8b : Int := 92
def pitMax : Int := 231

/-- A lag in whole samples and quarters of a sample. -/
structure Lag where
  t0 : Int
  t0Frac : Int
  deriving DecidableEq, Repr

/-- The lag of a subframe with `pit_flag` zero. -/
def absoluteLag (nbBits : Nat) (index : Int) : Lag :=
  if nbBits ≤ nbbits9k then
    if index < (pitFr1_8b - pitMin) * 2 then
      let t0 := pitMin + (index >>> (1 : Nat))
      let t0Frac := subInt16 index (shlInt16 (subInt16 t0 pitMin) 1)
      ⟨t0, shlInt16 t0Frac 1⟩
    else ⟨addInt16 index (pitFr1_8b - (pitFr1_8b - pitMin) * 2), 0⟩
  else if index < (pitFr2 - pitMin) * 4 then
    let t0 := pitMin + (index >>> (2 : Nat))
    ⟨t0, subInt16 index (shlInt16 (subInt16 t0 pitMin) 2)⟩
  else if index < (pitFr2 - pitMin) * 4 + (pitFr1_9b - pitFr2) * 2 then
    let index := index - (pitFr2 - pitMin) * 4
    let t0 := pitFr2 + (index >>> (1 : Nat))
    let t0Frac := subInt16 index (shlInt16 (subInt16 t0 pitFr2) 1)
    ⟨t0, shlInt16 t0Frac 1⟩
  else ⟨addInt16 index (pitFr1_9b - (pitFr2 - pitMin) * 4 - (pitFr1_9b - pitFr2) * 2), 0⟩

/-- `T0_min`, from which the lags of the next subframe are counted. -/
def lagWindow (t0 : Int) : Int :=
  let t0Min := t0 - 8
  let t0Min := if t0Min < pitMin then pitMin else t0Min
  let t0Max := t0Min + 15
  if t0Max > pitMax then pitMax - 15 else t0Min

/-- The lag of a subframe with another `pit_flag`. -/
def relativeLag (nbBits : Nat) (t0Min index : Int) : Lag :=
  if nbBits ≤ nbbits9k then
    let t0 := t0Min + (index >>> (1 : Nat))
    let t0Frac := subInt16 index (shlInt16 (t0 - t0Min) 1)
    ⟨t0, shlInt16 t0Frac 1⟩
  else
    let t0 := t0Min + (index >>> (2 : Nat))
    ⟨t0, subInt16 index (shlInt16 (t0 - t0Min) 2)⟩

/-- The lag of a subframe, and `T0_min` after it. -/
def decodeLag (nbBits iSubfr : Nat) (t0Min index : Int) : Lag × Int :=
  if pitFlag nbBits iSubfr = 0 then
    let lag := absoluteLag nbBits index
    (lag, lagWindow lag.t0)
  else (relativeLag nbBits t0Min index, t0Min)

/-- In quarters of a sample. -/
def Lag.quarters (lag : Lag) : Int := 4 * lag.t0 + lag.t0Frac

/-- A lag that the excitation buffer has room for. -/
def Lag.InRange (lag : Lag) : Prop := pitMin ≤ lag.t0 ∧ lag.t0 ≤ pitMax ∧ 0 ≤ lag.t0Frac ∧ lag.t0Frac < 4

section Decoding

variable {nbBits : Nat} {a b index : Int}

/-- The operators do not saturate on numbers of this size. -/
theorem subInt16_small (ha : 0 ≤ a) (ha' : a < 1024) (hb : 0 ≤ b) (hb' : b < 1024) : subInt16 a b = a - b := by
  rw [subInt16_eq (by simp only [IsInt16, min16, max16]; omega) (by simp only [IsInt16, min16, max16]; omega)]
  exact clamp16_of_isInt16 (by simp only [IsInt16, min16, max16]; omega)

theorem addInt16_small (ha : 0 ≤ a) (ha' : a < 1024) (hb : -1024 < b) (hb' : b < 1024) : addInt16 a b = a + b := by
  rw [addInt16_eq (by simp only [IsInt16, min16, max16]; omega) (by simp only [IsInt16, min16, max16]; omega)]
  exact clamp16_of_isInt16 (by simp only [IsInt16, min16, max16]; omega)

theorem shlInt16_one (ha : 0 ≤ a) (ha' : a < 1024) : shlInt16 a 1 = a * 2 := by
  rw [shlInt16_eq (by simp only [IsInt16, min16, max16]; omega) (by decide)]
  exact clamp16_of_isInt16 (by simp only [IsInt16, min16, max16]; omega)

theorem shlInt16_two (ha : 0 ≤ a) (ha' : a < 1024) : shlInt16 a 2 = a * 4 := by
  rw [shlInt16_eq (by simp only [IsInt16, min16, max16]; omega) (by decide)]
  exact clamp16_of_isInt16 (by simp only [IsInt16, min16, max16]; omega)

/-- A lag in halves of a sample. -/
theorem halves (h₀ : 0 ≤ index) (h₁ : index < 1024) :
    shlInt16 (subInt16 index (shlInt16 (index / 2) 1)) 1 = 2 * (index % 2) := by
  have hshl : shlInt16 (index / 2) 1 = index / 2 * 2 := shlInt16_one (by omega) (by omega)
  have hsub : subInt16 index (index / 2 * 2) = index % 2 := by
    rw [subInt16_small h₀ h₁ (by omega) (by omega)]
    omega
  rw [hshl, hsub, shlInt16_one (by omega) (by omega), Int.mul_comm]

/-- A lag in quarters of a sample. -/
theorem quarters (h₀ : 0 ≤ index) (h₁ : index < 1024) :
    subInt16 index (shlInt16 (index / 4) 2) = index % 4 := by
  have hshl : shlInt16 (index / 4) 2 = index / 4 * 4 := shlInt16_two (by omega) (by omega)
  rw [hshl, subInt16_small h₀ h₁ (by omega) (by omega)]
  omega

/-- The lags of the lower rates: halves of a sample, and from `PIT_FR1_8b` on whole ones. -/
theorem absoluteLag_low (hn : nbBits ≤ nbbits9k) (h₀ : 0 ≤ index) (h₁ : index < 2 ^ 8) : absoluteLag nbBits index =
    if index < 116 then ⟨34 + index / 2, 2 * (index % 2)⟩ else ⟨index - 24, 0⟩ := by
  have hshift : index >>> (1 : Nat) = index / 2 := shiftRight_eq index 1
  rw [absoluteLag, if_pos hn, hshift]
  by_cases h : index < 116
  · have hsub : subInt16 (34 + index / 2) 34 = index / 2 := by
      rw [subInt16_small (by omega) (by omega) (by omega) (by omega)]
      omega
    rw [if_pos h, if_pos (show index < (pitFr1_8b - pitMin) * 2 from h)]
    simp only [pitMin, hsub, halves h₀ (by omega : index < 1024)]
  · rw [if_neg h, if_neg (show ¬index < (pitFr1_8b - pitMin) * 2 from h)]
    show Lag.mk (addInt16 index (-24)) 0 = _
    rw [addInt16_small h₀ (by omega) (by omega) (by omega)]
    rfl

/-- The lags of the higher rates: quarters of a sample, from `PIT_FR2` on halves, and from `PIT_FR1_9b` on whole ones. -/
theorem absoluteLag_high (hn : ¬nbBits ≤ nbbits9k) (h₀ : 0 ≤ index) (h₁ : index < 2 ^ 9) :
    absoluteLag nbBits index =
      if index < 376 then ⟨34 + index / 4, index % 4⟩
      else if index < 440 then ⟨128 + (index - 376) / 2, 2 * ((index - 376) % 2)⟩ else ⟨index - 280, 0⟩ := by
  have hshift : index >>> (2 : Nat) = index / 4 := shiftRight_eq index 2
  have hshift' : (index - 376) >>> (1 : Nat) = (index - 376) / 2 := shiftRight_eq _ 1
  rw [absoluteLag, if_neg hn, hshift]
  by_cases h : index < 376
  · have hsub : subInt16 (34 + index / 4) 34 = index / 4 := by
      rw [subInt16_small (by omega) (by omega) (by omega) (by omega)]
      omega
    rw [if_pos h, if_pos (show index < (pitFr2 - pitMin) * 4 from h)]
    simp only [pitMin, hsub, quarters h₀ (by omega : index < 1024)]
  · rw [if_neg h, if_neg (show ¬index < (pitFr2 - pitMin) * 4 from h)]
    by_cases h' : index < 440
    · have hsub : subInt16 (128 + (index - 376) / 2) 128 = (index - 376) / 2 := by
        rw [subInt16_small (by omega) (by omega) (by omega) (by omega)]
        omega
      rw [if_pos h', if_pos (show index < (pitFr2 - pitMin) * 4 + (pitFr1_9b - pitFr2) * 2 from h')]
      have hindex : index - (pitFr2 - pitMin) * 4 = index - 376 := rfl
      simp only [hindex, hshift']
      simp only [pitFr2, hsub, halves (by omega : 0 ≤ index - 376) (by omega : index - 376 < 1024)]
    · rw [if_neg h', if_neg (show ¬index < (pitFr2 - pitMin) * 4 + (pitFr1_9b - pitFr2) * 2 from h')]
      show Lag.mk (addInt16 index (-280)) 0 = _
      rw [addInt16_small h₀ (by omega) (by omega) (by omega)]
      rfl

/-- **No two indices mean the same lag**; the larger index is the longer lag. -/
theorem absoluteLag_strictMono {index' : Int} (h₀ : 0 ≤ index) (h : index < index')
    (h₁ : index' < if nbBits ≤ nbbits9k then 2 ^ 8 else 2 ^ 9) :
    (absoluteLag nbBits index).quarters < (absoluteLag nbBits index').quarters := by
  by_cases hn : nbBits ≤ nbbits9k
  · rw [if_pos hn] at h₁
    rw [absoluteLag_low hn h₀ (by omega), absoluteLag_low hn (by omega) h₁]
    simp only [Lag.quarters]
    split <;> split <;> dsimp only <;> omega
  · rw [if_neg hn] at h₁
    rw [absoluteLag_high hn h₀ (by omega), absoluteLag_high hn (by omega) h₁]
    simp only [Lag.quarters]
    repeat' split
    all_goals
      dsimp only
      omega

/-- An index of that many bits. -/
theorem absoluteLag_inRange (h₀ : 0 ≤ index) (h₁ : index < if nbBits ≤ nbbits9k then 2 ^ 8 else 2 ^ 9) :
    (absoluteLag nbBits index).InRange := by
  by_cases hn : nbBits ≤ nbbits9k
  · rw [if_pos hn] at h₁
    rw [absoluteLag_low hn h₀ h₁]
    simp only [Lag.InRange, pitMin, pitMax]
    split <;> dsimp only <;> omega
  · rw [if_neg hn] at h₁
    rw [absoluteLag_high hn h₀ h₁]
    simp only [Lag.InRange, pitMin, pitMax]
    repeat' split
    all_goals
      dsimp only
      omega

/-- The sixteen lags of the window are in range. -/
theorem lagWindow_range {t0 : Int} (h : pitMin ≤ t0 ∧ t0 ≤ pitMax) :
    pitMin ≤ lagWindow t0 ∧ lagWindow t0 + 15 ≤ pitMax := by
  simp only [lagWindow, pitMin, pitMax] at h ⊢
  omega

theorem relativeLag_inRange {t0Min : Int} (hlo : pitMin ≤ t0Min) (hhi : t0Min + 15 ≤ pitMax) (h₀ : 0 ≤ index)
    (h₁ : index < if nbBits ≤ nbbits9k then 2 ^ 5 else 2 ^ 6) : (relativeLag nbBits t0Min index).InRange := by
  have hshift : index >>> (1 : Nat) = index / 2 := shiftRight_eq index 1
  have hshift' : index >>> (2 : Nat) = index / 4 := shiftRight_eq index 2
  have hcancel : ∀ x : Int, t0Min + x - t0Min = x := fun x => by omega
  simp only [relativeLag, Lag.InRange, hshift, hshift', hcancel]
  by_cases hn : nbBits ≤ nbbits9k
  · rw [if_pos hn] at h₁
    simp only [if_pos hn, halves h₀ (by omega : index < 1024)]
    omega
  · rw [if_neg hn] at h₁
    simp only [if_neg hn, quarters h₀ (by omega : index < 1024)]
    omega

/-- **A decoded lag** is one that the buffer has room for; the window of the subframes after it stays within the
range. -/
theorem decodeLag_range {iSubfr : Nat} {t0Min : Int}
    (hwin : pitFlag nbBits iSubfr ≠ 0 → pitMin ≤ t0Min ∧ t0Min + 15 ≤ pitMax) {index : Nat}
    (hi : index < 2 ^ lagWidth nbBits iSubfr) :
    (decodeLag nbBits iSubfr t0Min index).1.InRange ∧
      pitMin ≤ (decodeLag nbBits iSubfr t0Min index).2 ∧ (decodeLag nbBits iSubfr t0Min index).2 + 15 ≤ pitMax := by
  simp only [lagWidth] at hi
  simp only [decodeLag]
  by_cases hp : pitFlag nbBits iSubfr = 0
  · rw [if_pos hp] at hi
    have h := @absoluteLag_inRange nbBits index (by omega) (by split at hi <;> omega)
    simp only [if_pos hp]
    exact ⟨h, lagWindow_range ⟨h.1, h.2.1⟩⟩
  · rw [if_neg hp] at hi
    obtain ⟨hlo, hhi⟩ := hwin hp
    simp only [if_neg hp]
    exact ⟨relativeLag_inRange hlo hhi (by omega) (by split at hi <;> omega), hlo, hhi⟩

end Decoding

/-! ## Sorting -/

/-- The loop of `insert`, which moves the larger numbers up; the counter is `i + 1`. -/
def insertLoop (array : List Int) (x : Int) : Nat → List Int
  | 0 => array.set 0 x
  | i + 1 => if x < array.getD i 0 then insertLoop (array.set (i + 1) (array.getD i 0)) x i else array.set (i + 1) x

/-- `insertion_sort`. -/
def insertionSort (array : List Int) (n : Nat) : List Int :=
  (List.range n).foldl (fun array i => insertLoop array (array.getD i 0) i) array

section Sorting

/-- A number goes to its place in front of the others. -/
theorem insertLoop_eq (pre : List Int) (y : Int) (post : List Int) (x : Int) (hs : pre.Pairwise (· ≤ ·)) :
    ∃ l, insertLoop (pre ++ y :: post) x pre.length = l ++ post ∧ l.Perm (x :: pre) ∧ l.Pairwise (· ≤ ·) := by
  induction pre using List.reverseRecOn generalizing y post with
  | nil => exact ⟨[x], rfl, .refl _, List.pairwise_singleton _ _⟩
  | append_singleton pre a ih =>
    obtain ⟨hpre, -, hle⟩ := List.pairwise_append.mp hs
    have hlen : (pre ++ [a]).length = pre.length + 1 := List.length_append
    have hget : (pre ++ [a] ++ y :: post).getD pre.length 0 = a := by simp
    have hset : ∀ v, (pre ++ [a] ++ y :: post).set (pre.length + 1) v = pre ++ a :: v :: post := fun v => by
      rw [List.set_append_right _ _ (by rw [hlen]), hlen, Nat.sub_self, List.set_cons_zero, List.append_assoc]
      rfl
    rw [hlen, insertLoop, hget, hset, hset]
    by_cases hx : x < a
    · rw [if_pos hx]
      obtain ⟨l, hl, hperm, hsorted⟩ := ih a (a :: post) hpre
      refine ⟨l ++ [a], ?_, hperm.append_right [a], ?_⟩
      · rw [hl, List.append_assoc]
        rfl
      · refine List.pairwise_append.mpr ⟨hsorted, List.pairwise_singleton _ _, fun b hb c hc => ?_⟩
        rw [List.mem_singleton.mp hc]
        rcases List.mem_cons.mp (hperm.mem_iff.mp hb) with rfl | hb
        · exact Int.le_of_lt hx
        · exact hle b hb a List.mem_cons_self
    · rw [if_neg hx]
      refine ⟨pre ++ [a] ++ [x], ?_, List.perm_append_singleton x (pre ++ [a]), ?_⟩
      · rw [List.append_assoc, List.append_assoc]
        rfl
      · refine List.pairwise_append.mpr ⟨hs, List.pairwise_singleton _ _, fun b hb c hc => ?_⟩
        have hax : a ≤ x := Int.not_lt.mp hx
        rw [List.mem_singleton.mp hc]
        rcases List.mem_append.mp hb with hb | hb
        · exact Int.le_trans (hle b hb a List.mem_cons_self) hax
        · exact List.mem_singleton.mp hb ▸ hax

/-- **`insertion_sort`** sorts the first `n` numbers. -/
theorem insertionSort_eq (array : List Int) {n : Nat} (hn : n ≤ array.length) :
    ∃ l, insertionSort array n = l ++ array.drop n ∧ l.Perm (array.take n) ∧ l.Pairwise (· ≤ ·) := by
  induction n with
  | zero => exact ⟨[], rfl, .refl _, .nil⟩
  | succ n ih =>
    obtain ⟨l, hl, hperm, hsorted⟩ := ih (Nat.le_of_succ_le hn)
    have hlen : l.length = n := by rw [hperm.length_eq, List.length_take]; omega
    have hdrop : array.drop n = array[n] :: array.drop (n + 1) := List.drop_eq_getElem_cons hn
    have hget : (insertionSort array n).getD n 0 = array[n] := by
      rw [hl, hdrop, List.getD_eq_getElem?_getD, List.getElem?_append_right (by omega), hlen, Nat.sub_self]
      rfl
    obtain ⟨l', hl', hperm', hsorted'⟩ := insertLoop_eq l array[n] (array.drop (n + 1)) array[n] hsorted
    refine ⟨l', ?_, hperm'.trans ?_, hsorted'⟩
    · rw [insertionSort, List.range_succ, List.foldl_append, List.foldl_cons, List.foldl_nil]
      show insertLoop (insertionSort array n) ((insertionSort array n).getD n 0) n = _
      rw [hget, hl, hdrop]
      conv_lhs => arg 3; rw [← hlen]
      exact hl'
    · rw [List.take_succ_eq_append_getElem hn]
      exact (hperm.cons _).trans (List.perm_append_singleton _ _).symm

end Sorting

/-! ## Concealment -/

/-- `noise_gen_amrwb`: the next seed, which is the noise. -/
def noiseGen (seed : Int) : Int := toInt16 (seed * 31821 + 13849)

def lLtphist : Nat := 5

/-- `ONE_PER_3`, in Q15. -/
def onePer3 : Int := 10923

/-- `ONE_PER_LTPHIST`, in Q15. -/
def onePerLtphist : Int := 6554

/-- The smallest number of the history. -/
def minHist (hist : List Int) : Int :=
  (List.range' 1 4).foldl (fun m i => if hist.getD i 0 < m then hist.getD i 0 else m) (hist.getD 0 0)

/-- The largest number of the history. -/
def maxHist (hist : List Int) : Int :=
  (List.range' 1 4).foldl (fun m i => if hist.getD i 0 > m then hist.getD i 0 else m) (hist.getD 0 0)

/-- A lag weighted towards the longer ones of the history, with some noise, and the new seed. -/
def randomLag (lagHist : List Int) (seed : Int) : Int × Int :=
  let lagHist2 := insertionSort lagHist lLtphist
  let lagDif := subInt16 (lagHist2.getD 4 0) (lagHist2.getD 2 0)
  let lagDif := if lagDif > 40 then 40 else lagDif
  let d := noiseGen seed
  let d2 := multInt16 (lagDif >>> (1 : Nat)) d
  let tmp := addInt16 (addInt16 (lagHist2.getD 2 0) (lagHist2.getD 3 0)) (lagHist2.getD 4 0)
  (addInt16 (multInt16 tmp onePer3) d2, d)

/-- New lags are not allowed to be bigger or smaller than the last lags. -/
def limitLag (lagHist : List Int) (t0 : Int) : Int :=
  let t0 := if t0 > maxHist lagHist then maxHist lagHist else t0
  if t0 < minHist lagHist then minHist lagHist else t0

/-- `lagconceal`: the lag and the seed. -/
def lagconceal (gainHist lagHist : List Int) (t0 oldT0 seed : Int) (unusableFrame : Bool) : Int × Int :=
  let lastGain := gainHist.getD 4 0
  let secLastGain := gainHist.getD 3 0
  let lastLag := lagHist.getD 0 0
  let minLag := minHist lagHist
  let maxLag := maxHist lagHist
  let minGain := minHist gainHist
  let lagDif := subInt16 maxLag minLag
  if unusableFrame then
    let (t0, seed) :=
      if minGain > 8192 ∧ lagDif < 10 then (oldT0, seed)
      else if lastGain > 8192 ∧ secLastGain > 8192 then (lagHist.getD 0 0, seed)
      else randomLag lagHist seed
    (limitLag lagHist t0, seed)
  else
    let meanLag := (List.range lLtphist).foldl (fun meanLag i => addInt16 meanLag (lagHist.getD i 0)) 0
    let meanLag := multInt16 meanLag onePerLtphist
    let tmp := t0 - maxLag
    let tmp2 := t0 - lastLag
    if lagDif < 10 ∧ t0 > minLag - 5 ∧ tmp < 5 then (t0, seed)
    else if lastGain > 8192 ∧ secLastGain > 8192 ∧ tmp2 + 10 > 0 ∧ tmp2 < 10 then (t0, seed)
    else if minGain < 6554 ∧ lastGain = minGain ∧ t0 > minLag ∧ t0 < maxLag then (t0, seed)
    else if lagDif < 70 ∧ t0 > minLag ∧ t0 < maxLag then (t0, seed)
    else if t0 > meanLag ∧ t0 < maxLag then (t0, seed)
    else
      let (t0, seed) :=
        if minGain > 8192 ∧ lagDif < 10 then (lagHist.getD 0 0, seed)
        else if lastGain > 8192 ∧ secLastGain > 8192 then (lagHist.getD 0 0, seed)
        else randomLag lagHist seed
      (limitLag lagHist t0, seed)

section Concealment

variable {gainHist lagHist : List Int} {t0 oldT0 seed lo hi : Int}

/-- The history is within the bounds. -/
def HistIn (lo hi : Int) (hist : List Int) : Prop := ∀ i < lLtphist, lo ≤ hist.getD i 0 ∧ hist.getD i 0 ≤ hi

/-- Where a loop that replaces a number by the smaller, or the larger, ones ends. -/
theorem foldl_range (f : Nat → Int) (is : List Nat) (hf : ∀ i ∈ is, lo ≤ f i ∧ f i ≤ hi) (m : Int) (hlo : lo ≤ m)
    (hhi : m ≤ hi) :
    (lo ≤ is.foldl (fun m i => if f i < m then f i else m) m ∧ is.foldl (fun m i => if f i < m then f i else m) m ≤ m) ∧
    m ≤ is.foldl (fun m i => if f i > m then f i else m) m ∧
      is.foldl (fun m i => if f i > m then f i else m) m ≤ hi := by
  induction is generalizing m with
  | nil => exact ⟨⟨hlo, Int.le_refl m⟩, Int.le_refl m, hhi⟩
  | cons i is ih =>
    obtain ⟨hi₀, hi₁⟩ := hf i List.mem_cons_self
    have ih := ih fun j hj => hf j (List.mem_cons_of_mem _ hj)
    have hmin := (ih (if f i < m then f i else m) (by omega) (by omega)).1
    have hmax := (ih (if f i > m then f i else m) (by omega) (by omega)).2
    simp only [List.foldl_cons]
    omega

theorem hist_range (h : HistIn lo hi lagHist) : lo ≤ minHist lagHist ∧ minHist lagHist ≤ maxHist lagHist ∧
    maxHist lagHist ≤ hi := by
  obtain ⟨hlo, hhi⟩ := h 0 (by decide)
  obtain ⟨⟨hmin, hmin'⟩, hmax, hmax'⟩ := foldl_range (fun i => lagHist.getD i 0) (List.range' 1 4)
    (fun i hi => h i (by rw [List.mem_range'_1] at hi; exact hi.2)) _ hlo hhi
  exact ⟨hmin, Int.le_trans hmin' hmax, hmax'⟩

theorem limitLag_range (h : HistIn lo hi lagHist) (t : Int) : lo ≤ limitLag lagHist t ∧ limitLag lagHist t ≤ hi := by
  have := hist_range h
  simp only [limitLag]
  omega

/-- **A lag in place of a lost one** is between the smallest and the largest of the last lags, and a bad one is too,
unless it is used as it is. -/
theorem lagconceal_range (h : HistIn lo hi lagHist) {unusableFrame : Bool}
    (ht : unusableFrame = false → lo ≤ t0 ∧ t0 ≤ hi) :
    lo ≤ (lagconceal gainHist lagHist t0 oldT0 seed unusableFrame).1 ∧
      (lagconceal gainHist lagHist t0 oldT0 seed unusableFrame).1 ≤ hi := by
  cases unusableFrame with
  | true => exact limitLag_range h _
  | false =>
    have ht := ht rfl
    simp only [lagconceal, Bool.false_eq_true, if_false]
    repeat' split
    all_goals first | exact ht | exact limitLag_range h _

end Concealment

end Talk2Text.Amrwb
