import Mathlib.Data.Nat.Bitwise
import Talk2Text.Amrwb.Params

/-!
# Homing frames

`native/homing_amr_wb_dec.c`: in every mode one frame, the decoder homing frame, sets the decoder back. `dhf_test`
compares the bits of a frame, or of its first subframe, with that frame, in words of 15 bits.

- `dhfTest_congr`, `homingFrameTest_congr`: the tests are made on the bits of the mode only, all in the buffer;
- `dhfTest_eq`: they accept the bits of the homing frame only;
- `homingFrameTestFirst_of`: so a homing frame is one by its first subframe, too.
-/

namespace Talk2Text.Amrwb

open Format

/-! ## Tables -/

/-- The number of bits up to the end of the first subframe. -/
def prmnofsf : List Nat := [63, 81, 100, 108, 116, 128, 136, 152, 156]

def dfhM7k : List Nat := [3168, 29954, 29213, 16121, 64, 13440, 30624, 16430, 19008]
def dfhM9k : List Nat := [3168, 31665, 9943, 9123, 15599, 4358, 20248, 2048, 17040, 27787, 16816, 13888]
def dfhM12k : List Nat :=
  [3168, 31665, 9943, 9128, 3647, 8129, 30930, 27926, 18880, 12319, 496, 1042, 4061, 20446, 25629, 28069, 13948]
def dfhM14k : List Nat :=
  [3168, 31665, 9943, 9131, 24815, 655, 26616, 26764, 7238, 19136, 6144, 88, 4158, 25733, 30567, 30494, 221, 20321,
    17823]
def dfhM16k : List Nat :=
  [3168, 31665, 9943, 9131, 24815, 700, 3824, 7271, 26400, 9528, 6594, 26112, 108, 2068, 12867, 16317, 23035, 24632,
    7528, 1752, 6759, 24576]
def dfhM18k : List Nat :=
  [3168, 31665, 9943, 9135, 14787, 14423, 30477, 24927, 25345, 30154, 916, 5728, 18978, 2048, 528, 16449, 2436, 3581,
    23527, 29479, 8237, 16810, 27091, 19052, 0]
def dfhM20k : List Nat :=
  [3168, 31665, 9943, 9129, 8637, 31807, 24646, 736, 28643, 2977, 2566, 25564, 12930, 13960, 2048, 834, 3270, 4100,
    26920, 16237, 31227, 17667, 15059, 20589, 30249, 29123, 0]
def dfhM23k : List Nat :=
  [3168, 31665, 9943, 9132, 16748, 3202, 28179, 16317, 30590, 15857, 19960, 8818, 21711, 21538, 4260, 16690, 20224,
    3666, 4194, 9497, 16320, 15388, 5755, 31551, 14080, 3574, 15932, 50, 23392, 26053, 31216]
def dfhM24k : List Nat :=
  [3168, 31665, 9943, 9134, 24776, 5857, 18475, 28535, 29662, 14321, 16725, 4396, 29353, 10003, 17068, 20504, 720, 0,
    8465, 12581, 28863, 24774, 9709, 26043, 7941, 27649, 13965, 15236, 18026, 22047, 16681, 3968]

/-- `dhf`: the homing frames of the modes. -/
def dhf : List (List Nat) :=
  [dfhM7k, dfhM9k, dfhM12k, dfhM14k, dfhM16k, dfhM18k, dfhM20k, dfhM23k, dfhM24k, dfhM24k]

def mode24k : Nat := 8

/-- `MRDTX`. -/
def mrdtx : Nat := 9

/-! ## The test -/

/-- The widths of the words: 15 bits while more than 15 are left. The highest mode has words of its own. -/
def wordWidths (mode nparms : Nat) : List Nat :=
  if mode ≠ mode24k then
    let j := (nparms - 1) / 15 * 15
    List.replicate ((nparms - 1) / 15) 15 ++ [nparms - j]
  else List.replicate 31 15 ++ [8]

/-- The words as they are compared, and the shift of the last one. In the highest mode the bits of the high band energy
are removed. -/
def wordParams (mode : Nat) (words : List Nat) (nparms : Nat) : List Nat × Nat :=
  let i := words.length - 1
  if mode ≠ mode24k then
    let shift := 15 - (nparms - i * 15)
    (words.set i (words.getD i 0 <<< shift), shift)
  else
    let param := words.set 10 (words.getD 10 0 &&& 0x61FF)
    let param := param.set 17 (param.getD 17 0 &&& 0xE0FF)
    let param := param.set 24 (param.getD 24 0 &&& 0x7F0F)
    (param.set 31 (param.getD 31 0 <<< 7), 0)

/-- The loop that looks for a difference, with the rounds that are left: where it stops, and the difference. -/
def firstDifference (param table : List Nat) : Nat → Nat → Nat × Nat
  | 0, i => (i, 0)
  | n + 1, i =>
    let j := param.getD i 0 ^^^ table.getD i 0
    if j ≠ 0 then (i, j) else firstDifference param table n (i + 1)

/-- The comparison; the bits below the shift do not count in the word where it stops. -/
def compareWords (param table : List Nat) (shift : Nat) : Bool :=
  let (i, j) := firstDifference param table (param.length - 1) 0
  let tmp := (0x7fff >>> shift) <<< shift
  let tmp := table.getD i 0 &&& tmp
  let tmp := param.getD i 0 ^^^ tmp
  j ||| tmp = 0

/-- `dhf_test`. -/
def dhfTest (inputFrame : List Bool) (mode nparms : Nat) : Option Bool :=
  if mode ≠ mrdtx then do
    let (words, _) ← ((wordWidths mode nparms).mapM serialParm).run inputFrame
    let (param, shift) := wordParams mode words nparms
    some (compareWords param (dhf.getD mode []) shift)
  else some false

/-- `pvDecoder_AmrWb_homing_frame_test`. -/
def homingFrameTest (inputFrame : List Bool) (mode : Nat) : Option Bool :=
  dhfTest inputFrame mode (amrWbCompressed.getD mode 0)

/-- `pvDecoder_AmrWb_homing_frame_test_first`. -/
def homingFrameTestFirst (inputFrame : List Bool) (mode : Nat) : Option Bool :=
  dhfTest inputFrame mode (prmnofsf.getD mode 0)

section Tests

variable {mode nparms : Nat} {bits bits' : List Bool}

/-- **The test** is made on the bits that the words take. -/
theorem dhfTest_congr (h : (wordWidths mode nparms).sum ≤ bits.length)
    (hb : bits.take (wordWidths mode nparms).sum = bits'.take (wordWidths mode nparms).sum) :
    ∃ b, dhfTest bits mode nparms = some b ∧ dhfTest bits' mode nparms = some b := by
  obtain ⟨words, -, hr, hr'⟩ := (reads_fields (wordWidths mode nparms)).run_congr h hb
  by_cases hm : mode ≠ mrdtx
  · rw [dhfTest, dhfTest, if_pos hm, if_pos hm, hr, hr']
    exact ⟨_, rfl, rfl⟩
  · rw [dhfTest, dhfTest, if_neg hm, if_neg hm]
    exact ⟨false, rfl, rfl⟩

/-- The words of a frame are bits of its mode. -/
theorem sum_wordWidths (hm : mode < numOfSpmodes) :
    (wordWidths mode (amrWbCompressed.getD mode 0)).sum ≤ unpackedSize.getD mode 0 ∧
      (wordWidths mode (prmnofsf.getD mode 0)).sum ≤ unpackedSize.getD mode 0 := by
  revert mode
  decide

theorem take_congr {n m : Nat} (h : n ≤ m) (hb : bits.take m = bits'.take m) : bits.take n = bits'.take n := by
  have := congrArg (List.take n) hb
  rwa [List.take_take, List.take_take, Nat.min_eq_left h] at this

theorem homingFrameTest_congr (hm : mode < numOfSpmodes) (h : unpackedSize.getD mode 0 ≤ bits.length)
    (hb : bits.take (unpackedSize.getD mode 0) = bits'.take (unpackedSize.getD mode 0)) :
    (∃ b, homingFrameTest bits mode = some b ∧ homingFrameTest bits' mode = some b) ∧
      ∃ b, homingFrameTestFirst bits mode = some b ∧ homingFrameTestFirst bits' mode = some b := by
  obtain ⟨hw, hf⟩ := sum_wordWidths hm
  exact ⟨dhfTest_congr (Nat.le_trans hw h) (take_congr hw hb), dhfTest_congr (Nat.le_trans hf h) (take_congr hf hb)⟩

end Tests

/-! ## The homing frame -/

/-- The bits of the homing frame of a mode. -/
def homingBits (mode : Nat) : List Bool := (dhf.getD mode []).flatMap (toBits 15)

section Pattern

variable {mode nparms : Nat} {bits : List Bool}

theorem dhf_lt (mode : Nat) : ∀ v ∈ dhf.getD mode [], v < 2 ^ 15 := by
  have hall : ∀ l ∈ dhf, ∀ v ∈ l, v < 2 ^ 15 := by decide +kernel
  rw [List.getD_eq_getElem?_getD]
  cases hl : dhf[mode]? with
  | none => simp
  | some l => exact hall l (List.mem_of_getElem? hl)

/-- Where the loop stops. -/
theorem firstDifference_spec (param table : List Nat) (n i : Nat) :
    ((firstDifference param table n i).2 = 0 ↔ ∀ k, i ≤ k → k < i + n → param.getD k 0 = table.getD k 0) ∧
      ((firstDifference param table n i).2 = 0 → (firstDifference param table n i).1 = i + n) := by
  induction n generalizing i with
  | zero => exact ⟨iff_of_true rfl fun k h h' => by omega, fun _ => rfl⟩
  | succ n ih =>
    have hxor : param.getD i 0 ^^^ table.getD i 0 = 0 ↔ param.getD i 0 = table.getD i 0 := Nat.xor_eq_zero_iff
    rw [firstDifference]
    by_cases h : param.getD i 0 = table.getD i 0
    · rw [if_neg (not_not.mpr (hxor.mpr h))]
      obtain ⟨hiff, hpos⟩ := ih (i + 1)
      refine ⟨hiff.trans ⟨fun hall k hk hk' => ?_, fun hall k hk hk' => hall k (by omega) (by omega)⟩,
        fun hz => (hpos hz).trans (by omega)⟩
      rcases Nat.eq_or_lt_of_le hk with rfl | hk
      · exact h
      · exact hall k hk (by omega)
    · rw [if_pos (mt hxor.mp h)]
      exact ⟨iff_of_false (mt hxor.mp h) fun hall => h (hall i (Nat.le_refl i) (by omega)),
        fun hz => absurd hz (mt hxor.mp h)⟩

/-- The bits of a word that remain when the shift takes the lower ones away. -/
theorem and_mask {v s : Nat} (hv : v < 2 ^ 15) : v &&& ((0x7fff >>> s) <<< s) = (v >>> s) <<< s := by
  refine Nat.eq_of_testBit_eq fun i => ?_
  have hone : (0x7fff : Nat) = 2 ^ 15 - 1 := rfl
  simp only [Nat.testBit_and, Nat.testBit_shiftLeft, Nat.testBit_shiftRight, hone, Nat.testBit_two_pow_sub_one]
  by_cases hi : i ≥ s
  · have hs : s + (i - s) = i := by omega
    simp only [hi, hs, decide_true, Bool.true_and]
    by_cases h15 : i < 15
    · simp [h15]
    · rw [Nat.testBit_lt_two_pow (Nat.lt_of_lt_of_le hv (Nat.pow_le_pow_right (by decide) (Nat.not_lt.mp h15)))]
      rfl
  · simp [hi]

/-- The first bits of a word are the word without the lower ones. -/
theorem take_toBits {v t : Nat} (ht : t ≤ 15) : (toBits 15 v).take t = toBits t (v >>> (15 - t)) := by
  have hsplit : toBits (t + (15 - t)) (v / 2 ^ (15 - t) * 2 ^ (15 - t) + v % 2 ^ (15 - t)) = _ :=
    toBits_add (Nat.mod_lt v (Nat.two_pow_pos (15 - t)))
  rw [Nat.add_sub_cancel' ht, Nat.div_add_mod'] at hsplit
  rw [hsplit, List.take_append_of_le_length (by simp), List.take_of_length_le (by simp), Nat.shiftRight_eq_div_pow]

/-- The first bits of some words are whole words and the first bits of another one. -/
theorem take_flatMap (table : List Nat) {m t : Nat} (hm : m < table.length) (ht : t ≤ 15) :
    (table.flatMap (toBits 15)).take (15 * m + t) =
      fieldBits (List.replicate m 15 ++ [t]) (table.take m ++ [table.getD m 0 >>> (15 - t)]) := by
  induction m generalizing table with
  | zero =>
    match table, hm with
    | v :: table, _ =>
      rw [Nat.mul_zero, Nat.zero_add, List.flatMap_cons, List.take_append_of_le_length (by rw [length_toBits]; exact ht),
        take_toBits ht]
      exact (List.append_nil _).symm
  | succ m ih =>
    match table, hm with
    | v :: table, hm =>
      have hlen : 15 * (m + 1) + t = (toBits 15 v).length + (15 * m + t) := by
        rw [length_toBits]
        omega
      rw [List.flatMap_cons, hlen, List.take_length_add_append, ih table (Nat.lt_of_succ_lt_succ hm)]
      rfl

/-- What the comparison finds out. -/
theorem compare_iff {words table : List Nat} {m s : Nat} (hw : words.length = m + 1) (hm : m < table.length) :
    ((∀ k < m, words.getD k 0 = table.getD k 0) ∧ words.getD m 0 <<< s = (table.getD m 0 >>> s) <<< s) ↔
      words = table.take m ++ [table.getD m 0 >>> s] := by
  have hshift : ∀ {a b : Nat}, a <<< s = b <<< s ↔ a = b := fun {a b} => by
    rw [Nat.shiftLeft_eq, Nat.shiftLeft_eq]
    exact Nat.mul_left_inj (Nat.pos_iff_ne_zero.mp (Nat.two_pow_pos s))
  rw [hshift]
  constructor
  · rintro ⟨hall, hlast⟩
    refine List.ext_getElem (by rw [hw, List.length_append, List.length_take]; simp; omega) fun k hk hk' => ?_
    have hget := List.getD_eq_getElem words 0 hk
    by_cases hkm : k < m
    · rw [← hget, hall k hkm, List.getElem_append_left (by rw [List.length_take]; omega), List.getElem_take,
        List.getD_eq_getElem _ 0 (by omega)]
    · have hkm : k = m := by omega
      subst hkm
      rw [← hget, hlast, List.getElem_append_right (by rw [List.length_take]; omega)]
      simp
  · intro he
    have hlen : (table.take m).length = m := by rw [List.length_take]; omega
    refine ⟨fun k hk => ?_, ?_⟩
    · rw [he, List.getD_append _ _ _ _ (hlen.symm ▸ hk), List.getD_eq_getElem?_getD, List.getElem?_take_of_lt hk,
        ← List.getD_eq_getElem?_getD]
    · rw [he, List.getD_append_right _ _ _ _ (Nat.le_of_eq hlen), hlen, Nat.sub_self]
      rfl

theorem fits_replicate {l : List Nat} {w : Nat} (h : ∀ v ∈ l, v < 2 ^ w) :
    List.Forall₂ (fun w v => v < 2 ^ w) (List.replicate l.length w) l := by
  induction l with
  | nil => exact .nil
  | cons v l ih => exact .cons (h v List.mem_cons_self) (ih fun v hv => h v (List.mem_cons_of_mem _ hv))

/-- **The test** accepts the homing frame only. -/
theorem dhfTest_eq (hm : mode < mode24k) (hn : 0 < nparms) (hlen : nparms ≤ bits.length)
    (htab : nparms ≤ 15 * (dhf.getD mode []).length) :
    dhfTest bits mode nparms = some (decide (bits.take nparms = (homingBits mode).take nparms)) := by
  have hne : mode ≠ mode24k := Nat.ne_of_lt hm
  have hmr : mode ≠ mrdtx := Nat.ne_of_lt (Nat.lt_trans hm (by decide))
  obtain ⟨m, t, rfl, ht, ht'⟩ : ∃ m t, nparms = 15 * m + t ∧ 0 < t ∧ t ≤ 15 :=
    ⟨(nparms - 1) / 15, nparms - 15 * ((nparms - 1) / 15), by omega, by omega, by omega⟩
  have hdiv : (15 * m + t - 1) / 15 = m := by omega
  have hsub : 15 * m + t - m * 15 = t := by omega
  have hwidths : wordWidths mode (15 * m + t) = List.replicate m 15 ++ [t] := by
    rw [wordWidths, if_pos hne]
    simp only [hdiv, hsub]
  have hsum : (List.replicate m 15 ++ [t]).sum = 15 * m + t := by simp [Nat.mul_comm]
  rw [← hsum] at hlen
  obtain ⟨words, hfits, hbits, hr⟩ := (reads_fields (List.replicate m 15 ++ [t])).exists_read hlen
  rw [hsum] at hbits
  have hw : words.length = m + 1 := by
    rw [← hfits.length_eq]
    simp
  have hmt : m < (dhf.getD mode []).length := by omega
  -- the comparison in terms of the words
  have hlast : words.length - 1 = m := by omega
  have hshift : 15 - (15 * m + t - m * 15) = 15 - t := by omega
  have hset : (words.set m (words.getD m 0 <<< (15 - t))).length - 1 = m := by rw [List.length_set, hlast]
  have hbefore : ∀ k < m, (words.set m (words.getD m 0 <<< (15 - t))).getD k 0 = words.getD k 0 := fun k hk => by
    rw [List.getD_eq_getElem?_getD, List.getElem?_set_ne (Nat.ne_of_gt hk), ← List.getD_eq_getElem?_getD]
  have hat : (words.set m (words.getD m 0 <<< (15 - t))).getD m 0 = words.getD m 0 <<< (15 - t) := by
    rw [List.getD_eq_getElem?_getD, List.getElem?_set_self (by omega)]
    rfl
  have hmask : (dhf.getD mode []).getD m 0 &&& ((0x7fff >>> (15 - t)) <<< (15 - t)) =
      ((dhf.getD mode []).getD m 0 >>> (15 - t)) <<< (15 - t) :=
    and_mask (dhf_lt mode _ (by rw [List.getD_eq_getElem _ 0 hmt]; exact List.getElem_mem hmt))
  have hparams : wordParams mode words (15 * m + t) = (words.set m (words.getD m 0 <<< (15 - t)), 15 - t) := by
    simp only [wordParams, if_pos hne, hlast, hshift]
  obtain ⟨hdiff, hstop⟩ := firstDifference_spec (words.set m (words.getD m 0 <<< (15 - t))) (dhf.getD mode []) m 0
  have htest : dhfTest bits mode (15 * m + t) = some (decide (words =
      (dhf.getD mode []).take m ++ [(dhf.getD mode []).getD m 0 >>> (15 - t)])) := by
    rw [dhfTest, if_pos hmr, hwidths, hr]
    show some (compareWords (wordParams mode words (15 * m + t)).1 _ (wordParams mode words (15 * m + t)).2) = _
    rw [hparams, compareWords]
    refine congrArg some (decide_eq_decide.mpr ?_)
    simp only [hset]
    rw [Nat.or_eq_zero_iff, ← compare_iff hw hmt]
    constructor
    · rintro ⟨hj, hx⟩
      rw [hstop hj, Nat.zero_add, hat, hmask, Nat.xor_eq_zero_iff] at hx
      exact ⟨fun k hk => hbefore k hk ▸ hdiff.mp hj k (Nat.zero_le k) (by omega), hx⟩
    · rintro ⟨hall, hx⟩
      have hj := hdiff.mpr fun k _ hk => (hbefore k (by omega)).trans (hall k (by omega))
      rw [hstop hj, Nat.zero_add, hat, hmask, Nat.xor_eq_zero_iff]
      exact ⟨hj, hx⟩
  rw [htest, homingBits, take_flatMap _ hmt ht', ← hbits]
  refine congrArg some (decide_eq_decide.mpr ⟨congrArg _, fun he => ?_⟩)
  have hwhole := @fits_replicate ((dhf.getD mode []).take m) 15 fun v hv => dhf_lt mode v (List.mem_of_mem_take hv)
  rw [List.length_take, Nat.min_eq_left (Nat.le_of_lt hmt)] at hwhole
  refine (reads_fields _).enc_injective hfits (List.rel_append hwhole (.cons ?_ .nil)) he
  have hv := dhf_lt mode _ (List.getElem_mem hmt)
  rw [List.getD_eq_getElem _ 0 hmt, Nat.shiftRight_eq_div_pow]
  refine Nat.div_lt_of_lt_mul ?_
  rw [← Nat.pow_add, Nat.sub_add_cancel ht']
  exact hv

theorem homing_lengths (hm : mode < mode24k) : 0 < prmnofsf.getD mode 0 ∧
    prmnofsf.getD mode 0 ≤ amrWbCompressed.getD mode 0 ∧
    amrWbCompressed.getD mode 0 ≤ 15 * (dhf.getD mode []).length ∧ amrWbCompressed.getD mode 0 ≤ kamrwbNbBitsMax := by
  revert mode
  decide

/-- **A homing frame** passes the test of its first subframe too. -/
theorem homingFrameTestFirst_of (hm : mode < numOfSpmodes) (hbits : bits.length = kamrwbNbBitsMax)
    (h : homingFrameTest bits mode = some true) : homingFrameTestFirst bits mode = some true := by
  rcases Nat.lt_or_ge mode mode24k with hlt | hge
  · obtain ⟨hpos, hle, htab, hbuf⟩ := homing_lengths hlt
    rw [← hbits] at hbuf
    rw [homingFrameTest, dhfTest_eq hlt (Nat.lt_of_lt_of_le hpos hle) hbuf htab] at h
    rw [homingFrameTestFirst, dhfTest_eq hlt hpos (Nat.le_trans hle hbuf) (Nat.le_trans hle htab)]
    exact congrArg some (decide_eq_true (take_congr hle (of_decide_eq_true (Option.some.inj h))))
  · -- the highest mode has one test
    have hm : mode = mode24k := Nat.le_antisymm (Nat.le_of_lt_succ hm) hge
    subst hm
    exact h

end Pattern

end Talk2Text.Amrwb
