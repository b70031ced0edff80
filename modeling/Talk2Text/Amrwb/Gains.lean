import Talk2Text.Amrwb.Lag
import Mathlib.Data.List.Count

/-!
# Gains

`native/dec_gain2_amr_wb.c`: the gains of the pitch and of the code. A good subframe reads them from a table and puts
them into the histories; a bad one takes the median (`native/median5.c`) of a history in place of what was lost. The
prediction of the code gain and the energy of the code are parameters (`CodeGain`).

- `median5_eq`: `median5` is the third of five numbers in order;
- `shiftLoop_eq`: the loop that is meant to shift the histories of a good subframe moves one number only;
- `faded_good`, `faded_bad`: so three numbers of a history are zero at every frame, and the median is zero.
-/

namespace Talk2Text.Amrwb

/-! ## 32-bit numbers -/

/-- `MAX_32`. -/
def max32 : Int := 0x7fffffff

/-- `MIN_32`. -/
def min32 : Int := -0x80000000

/-- The conversion to 32 bits. -/
def toInt32 (x : Int) : Int := Int.bmod x (2 ^ 32)

def mul16by16ToInt32 (var1 var2 : Int) : Int :=
  if var1 * var2 ≠ 0x40000000 then (var1 * var2) <<< (1 : Nat) else max32

/-- `amr_wb_round`. -/
def amrWbRound (lVar1 : Int) : Int :=
  if lVar1 ≠ max32 then toInt16 (toInt32 (lVar1 + 0x8000) >>> (16 : Nat)) else toInt16 (lVar1 >>> (16 : Nat))

def shlInt32 (lVar1 var2 : Int) : Int :=
  if var2 > 0 then
    let lVarOut := toInt32 (lVar1 <<< var2.toNat)
    if lVarOut >>> var2.toNat ≠ lVar1 then if lVar1 >>> (31 : Nat) = 0 then max32 else min32 else lVarOut
  else lVar1 >>> ((-var2).toNat &&& 0xf)

/-- `int32_to_dpf`: the upper and the lower half. -/
def int32ToDpf (l32 : Int) : Int × Int :=
  let hi := toInt16 (l32 >>> (16 : Nat))
  (hi, toInt16 ((l32 - hi <<< (16 : Nat)) >>> (1 : Nat)))

/-- `mul_32by16`. -/
def mul32by16 (hi lo n : Int) : Int := toInt32 ((hi * n + (lo * n) >>> (15 : Nat)) <<< (1 : Nat))

/-! ## `median5` -/

/-- Two numbers, exchanged unless they are in order. -/
def inOrder (a b : Int) : Int × Int := if b < a then (b, a) else (a, b)

/-- `median5`; the pointer is at the third of the numbers. -/
def median5 (x : List Int) : Int :=
  let (x1, x2) := inOrder (x.getD 0 0) (x.getD 1 0)
  let (x1, x3) := inOrder x1 (x.getD 2 0)
  let (x1, x4) := inOrder x1 (x.getD 3 0)
  let x5 := if x.getD 4 0 < x1 then x1 else x.getD 4 0
  let (x2, x3) := inOrder x2 x3
  let (x2, x4) := inOrder x2 x4
  let x5 := if x5 < x2 then x2 else x5
  let x3 := if x4 < x3 then x4 else x3
  if x5 < x3 then x5 else x3

section Median

variable {a b z : Int}

theorem inOrder_sum (f : Int → Nat) (a b : Int) : f (inOrder a b).1 + f (inOrder a b).2 = f a + f b := by
  rw [inOrder]
  split
  · exact Nat.add_comm _ _
  · rfl

theorem inOrder_le (a b : Int) : (inOrder a b).1 ≤ (inOrder a b).2 ∧ (inOrder a b).1 ≤ a ∧ (inOrder a b).1 ≤ b := by
  rw [inOrder]
  split <;> dsimp only <;> omega

theorem le_inOrder (ha : z ≤ a) (hb : z ≤ b) : z ≤ (inOrder a b).1 ∧ z ≤ (inOrder a b).2 := by
  rw [inOrder]
  split
  · exact ⟨hb, ha⟩
  · exact ⟨ha, hb⟩

theorem inOrder_snd (a b : Int) : (if b < a then a else b) = (inOrder a b).2 := by
  rw [inOrder]
  split <;> rfl

theorem inOrder_fst (a b : Int) : (if b < a then b else a) = (inOrder a b).1 := by
  rw [inOrder]
  split <;> rfl

/-- **`median5`** is the third number in order. -/
theorem median5_eq (a b c d e : Int) : ∃ m n p q, [m, n, median5 [a, b, c, d, e], p, q].Perm [a, b, c, d, e] ∧
    m ≤ n ∧ n ≤ median5 [a, b, c, d, e] ∧ median5 [a, b, c, d, e] ≤ p ∧ median5 [a, b, c, d, e] ≤ q := by
  have hmed : ∃ m n p q, (∀ f : Int → Nat, f m + f n + f (median5 [a, b, c, d, e]) + f p + f q =
      f a + f b + f c + f d + f e) ∧ m ≤ n ∧ n ≤ median5 [a, b, c, d, e] ∧ median5 [a, b, c, d, e] ≤ p ∧
      median5 [a, b, c, d, e] ≤ q := by
    simp only [median5, inOrder_snd, inOrder_fst, List.getD_cons_zero, List.getD_cons_succ]
    -- the smallest number
    have s1 := fun f => inOrder_sum f a b
    have l1 := inOrder_le a b
    generalize inOrder a b = r1 at *
    have s2 := fun f => inOrder_sum f r1.1 c
    have l2 := inOrder_le r1.1 c
    generalize inOrder r1.1 c = r2 at *
    have s3 := fun f => inOrder_sum f r2.1 d
    have l3 := inOrder_le r2.1 d
    generalize inOrder r2.1 d = r3 at *
    have s4 := fun f => inOrder_sum f r3.1 e
    have l4 := inOrder_le r3.1 e
    generalize inOrder r3.1 e = r4 at *
    -- the smallest of the other four
    have s5 := fun f => inOrder_sum f r1.2 r2.2
    have l5 := inOrder_le r1.2 r2.2
    have g5 := @le_inOrder r1.2 r2.2 r4.1 (by omega) (by omega)
    generalize inOrder r1.2 r2.2 = r5 at *
    have s6 := fun f => inOrder_sum f r5.1 r3.2
    have l6 := inOrder_le r5.1 r3.2
    have g6 := @le_inOrder r5.1 r3.2 r4.1 g5.1 (by omega)
    generalize inOrder r5.1 r3.2 = r6 at *
    have s7 := fun f => inOrder_sum f r6.1 r4.2
    have l7 := inOrder_le r6.1 r4.2
    have g7 := @le_inOrder r6.1 r4.2 r4.1 g6.1 l4.1
    generalize inOrder r6.1 r4.2 = r7 at *
    -- and of the other three
    have s8 := fun f => inOrder_sum f r5.2 r6.2
    have l8 := inOrder_le r5.2 r6.2
    have g8 := @le_inOrder r5.2 r6.2 r7.1 (by omega) (by omega)
    generalize inOrder r5.2 r6.2 = r8 at *
    have s9 := fun f => inOrder_sum f r8.1 r7.2
    have l9 := inOrder_le r8.1 r7.2
    have g9 := @le_inOrder r8.1 r7.2 r7.1 g8.1 l7.1
    generalize inOrder r8.1 r7.2 = r9 at *
    refine ⟨r4.1, r7.1, r8.2, r9.2, fun f => ?_, g7.1, g9.1, by omega, l9.1⟩
    have := s1 f
    have := s2 f
    have := s3 f
    have := s4 f
    have := s5 f
    have := s6 f
    have := s7 f
    have := s8 f
    have := s9 f
    omega
  obtain ⟨m, n, p, q, hsum, hle⟩ := hmed
  refine ⟨m, n, p, q, List.perm_iff_count.mpr fun z => ?_, hle⟩
  have := hsum fun x => if x == z then 1 else 0
  simp only [List.count_cons, List.count_nil]
  omega

/-- A number that is there three times is the median. -/
theorem median5_of_count {a b c d e z : Int} (h : 3 ≤ [a, b, c, d, e].count z) : median5 [a, b, c, d, e] = z := by
  obtain ⟨m, n, p, q, hperm, hmn, hn, hp, hq⟩ := median5_eq a b c d e
  rw [← hperm.count_eq] at h
  generalize median5 [a, b, c, d, e] = x at *
  simp only [List.count_cons, List.count_nil, beq_iff_eq] at h
  split at h <;> split at h <;> split at h <;> split at h <;> split at h <;> omega

end Median

/-! ## `dec_gain2_amr_wb` -/

/-- The pitch gain in Q14 and the gain of the code in Q11. -/
def tQuaGain6b : List (Int × Int) :=
  [(1566, 1332), (1577, 3557), (3071, 6490), (4193, 10163), (4496, 2534), (5019, 4488), (5586, 15614), (5725, 1422),
    (6453, 580), (6724, 6831), (7657, 3527), (8072, 2099), (8232, 5319), (8827, 8775), (9740, 2868), (9856, 1465),
    (10087, 12488), (10241, 4453), (10859, 6618), (11321, 3587), (11417, 1800), (11643, 2428), (11718, 988),
    (12312, 5093), (12523, 8413), (12574, 26214), (12601, 3396), (13172, 1623), (13285, 2423), (13418, 6087),
    (13459, 12810), (13656, 3607), (14111, 4521), (14144, 1229), (14425, 1871), (14431, 7234), (14445, 2834),
    (14628, 10036), (14860, 17496), (15161, 3629), (15209, 5819), (15299, 2256), (15518, 4722), (15663, 1060),
    (15759, 7972), (15939, 11964), (16020, 2996), (16086, 1707), (16521, 4254), (16576, 6224), (16894, 2380),
    (16906, 681), (17213, 8406), (17610, 3418), (17895, 5269), (18168, 11748), (18230, 1575), (18607, 32767),
    (18728, 21684), (19137, 2543), (19422, 6577), (19446, 4097), (19450, 9056), (20371, 14885)]

def tQuaGain7b : List (Int × Int) :=
  [(204, 441), (464, 1977), (869, 1077), (1072, 3062), (1281, 4759), (1647, 1539), (1845, 7020), (1853, 634),
    (1995, 2336), (2351, 15400), (2661, 1165), (2702, 3900), (2710, 10133), (3195, 1752), (3498, 2624), (3663, 849),
    (3984, 5697), (4214, 3399), (4415, 1304), (4695, 2056), (5376, 4558), (5386, 676), (5518, 23554), (5567, 7794),
    (5644, 3061), (5672, 1513), (5957, 2338), (6533, 1060), (6804, 5998), (6820, 1767), (6937, 3837), (7277, 414),
    (7305, 2665), (7466, 11304), (7942, 794), (8007, 1982), (8007, 1366), (8326, 3105), (8336, 4810), (8708, 7954),
    (8989, 2279), (9031, 1055), (9247, 3568), (9283, 1631), (9654, 6311), (9811, 2605), (10120, 683), (10143, 4179),
    (10245, 1946), (10335, 1218), (10468, 9960), (10651, 3000), (10951, 1530), (10969, 5290), (11203, 2305),
    (11325, 3562), (11771, 6754), (11839, 1849), (11941, 4495), (11954, 1298), (11975, 15223), (11977, 883),
    (11986, 2842), (12438, 2141), (12593, 3665), (12636, 8367), (12658, 1594), (12886, 2628), (12984, 4942),
    (13146, 1115), (13224, 524), (13341, 3163), (13399, 1923), (13549, 5961), (13606, 1401), (13655, 2399),
    (13782, 3909), (13868, 10923), (14226, 1723), (14232, 2939), (14278, 7528), (14439, 4598), (14451, 984),
    (14458, 2265), (14792, 1403), (14818, 3445), (14899, 5709), (15017, 15362), (15048, 1946), (15069, 2655),
    (15405, 9591), (15405, 4079), (15570, 7183), (15687, 2286), (15691, 1624), (15699, 3068), (15772, 5149),
    (15868, 1205), (15970, 696), (16249, 3584), (16338, 1917), (16424, 2560), (16483, 4438), (16529, 6410),
    (16620, 11966), (16839, 8780), (17030, 3050), (17033, 18325), (17092, 1568), (17123, 5197), (17351, 2113),
    (17374, 980), (17566, 26214), (17609, 3912), (17639, 32767), (18151, 7871), (18197, 2516), (18202, 5649),
    (18679, 3283), (18930, 1370), (19271, 13757), (19317, 4120), (19460, 1973), (19654, 10018), (19764, 6792),
    (19912, 5135), (20040, 2841), (21234, 19833)]

def pdownUnusable : List Int := [32767, 31130, 29491, 24576, 7537, 1638, 328]
def cdownUnusable : List Int := [32767, 16384, 8192, 8192, 8192, 4915, 3277]
def pdownUsable : List Int := [32767, 32113, 31457, 24576, 7537, 1638, 328]
def cdownUsable : List Int := [32767, 32113, 32113, 32113, 32113, 32113, 22938]

/-- `dec_gain`, without the energies of the prediction. -/
structure DecGain where
  pastGainPit : Int
  pastGainCode : Int
  prevGc : Int
  pbuf : List Int
  gbuf : List Int
  pbuf2 : List Int
  deriving DecidableEq, Repr

def decGain2AmrWbInit : DecGain := ⟨0, 0, 0, List.replicate 5 0, List.replicate 5 0, List.replicate 5 0⟩

/-- What the prediction makes of the gain in the table, in Q16, and the gain that the energy of the code asks for, in
Q12. -/
structure CodeGain where
  gainCod : Int
  gcodeInov : Int
  deriving DecidableEq, Repr

/-- The loop over a history in a bad subframe. -/
def shiftHist (buf : List Int) : List Int :=
  (List.range' 1 4).foldl (fun buf i => buf.set (i - 1) (buf.getD i 0)) buf

/-- The loop over a history in a good subframe, with the number that it has read ahead. -/
def shiftLoop (buf : List Int) : List Int :=
  ((List.range' 1 4).foldl (fun (s : List Int × Int) i =>
    let buf := s.1.set (i - 1) s.2
    (buf, buf.getD i 0)) (buf, buf.getD 1 0)).1

/-- `dec_gain2_amr_wb`: the gain of the pitch in Q14 and of the code in Q16. -/
def decGain2AmrWb (index nbits : Nat) (code : CodeGain) (bfi prevBfi : Bool) (state : Nat) (unusableFrame : Bool)
    (vadHist : Int) (mem : DecGain) : (Int × Int) × DecGain :=
  if bfi then
    let pastGainPit := median5 mem.pbuf
    let pastGainPit := if pastGainPit > 15565 then 15565 else pastGainPit
    let gainPit := multInt16 ((if unusableFrame then pdownUnusable else pdownUsable).getD state 0) pastGainPit
    let tmp := median5 mem.gbuf
    let pastGainCode :=
      if vadHist > 2 then tmp
      else multInt16 ((if unusableFrame then cdownUnusable else cdownUsable).getD state 0) tmp
    ((gainPit, mul16by16ToInt32 pastGainCode code.gcodeInov),
      { mem with
        pastGainPit, pastGainCode
        gbuf := (shiftHist mem.gbuf).set 4 pastGainCode
        pbuf := (shiftHist mem.pbuf).set 4 pastGainPit })
  else
    let gainPit := ((if nbits = 6 then tQuaGain6b else tQuaGain7b).getD index (0, 0)).1
    let lTmp := mul16by16ToInt32 mem.prevGc 5120
    let gainCod := if prevBfi ∧ code.gainCod > lTmp ∧ code.gainCod > 6553600 then lTmp else code.gainCod
    let pastGainCode := amrWbRound (shlInt32 gainCod 3)
    let (exp, frac) := int32ToDpf gainCod
    ((gainPit, shlInt32 (mul32by16 exp frac code.gcodeInov) 3),
      { pastGainPit := gainPit, pastGainCode, prevGc := pastGainCode
        gbuf := (shiftLoop mem.gbuf).set 4 pastGainCode
        pbuf := (shiftLoop mem.pbuf).set 4 gainPit
        pbuf2 := (shiftLoop mem.pbuf2).set 4 gainPit })

section Histories

variable {mem : DecGain} {index nbits k state : Nat} {code : CodeGain} {prevBfi unusableFrame : Bool} {vadHist : Int}

/-- **The loop of a good subframe** writes back what it has read: only the first number is replaced. -/
theorem shiftLoop_eq (a b c d e : Int) : shiftLoop [a, b, c, d, e] = [b, b, c, d, e] := rfl

/-- What a history can hold after `k` bad subframes: the number of the last good subframe, which moves to the front, and
at the start one in front. -/
def Faded (k : Nat) (buf : List Int) : Prop :=
  ∃ a e, buf = match k with
    | 0 => [a, 0, 0, 0, e]
    | 1 => [0, 0, 0, e, 0]
    | 2 => [0, 0, e, 0, 0]
    | 3 => [0, e, 0, 0, 0]
    | _ => [e, 0, 0, 0, 0]

theorem count_faded {buf : List Int} (h : Faded k buf) : 3 ≤ buf.count 0 := by
  obtain ⟨a, e, rfl⟩ := h
  split <;> simp only [List.count_cons, List.count_nil, beq_self_eq_true, if_true] <;> omega

theorem length_faded {buf : List Int} (h : Faded k buf) : buf.length = 5 := by
  obtain ⟨a, e, rfl⟩ := h
  split <;> rfl

theorem median5_faded {buf : List Int} (h : Faded k buf) : median5 buf = 0 := by
  have hcount := count_faded h
  obtain ⟨a, b, c, d, e, rfl⟩ : ∃ a b c d e, buf = [a, b, c, d, e] := by
    match buf, length_faded h with
    | [a, b, c, d, e], _ => exact ⟨a, b, c, d, e, rfl⟩
  exact median5_of_count hcount

/-- At most two gains are left. -/
theorem countP_faded {buf : List Int} (h : Faded k buf) : buf.countP (· ≠ 0) ≤ 2 := by
  have hlen := List.length_eq_countP_add_countP (fun x : Int => x == 0) (l := buf)
  have hne : (fun x : Int => decide ¬(x == 0) = true) = fun x => decide (x ≠ 0) := by
    funext x
    simp
  rw [length_faded h, hne] at hlen
  have hcount := count_faded h
  rw [List.count] at hcount
  omega

theorem faded_shift {buf : List Int} (h : Faded k buf) (hk : k < 4) : Faded (k + 1) ((shiftHist buf).set 4 0) := by
  obtain ⟨a, e, rfl⟩ := h
  match k, hk with
  | 0, _ => exact ⟨0, e, rfl⟩
  | 1, _ => exact ⟨0, e, rfl⟩
  | 2, _ => exact ⟨0, e, rfl⟩
  | 3, _ => exact ⟨0, e, rfl⟩

theorem faded_four {buf : List Int} (h : Faded 4 buf) : Faded 0 buf := by
  obtain ⟨-, e, rfl⟩ := h
  exact ⟨e, 0, rfl⟩

theorem faded_loop {buf : List Int} (h : Faded 0 buf) (g : Int) : Faded 0 ((shiftLoop buf).set 4 g) := by
  obtain ⟨a, e, rfl⟩ := h
  have hloop := shiftLoop_eq a 0 0 0 e
  exact ⟨0, g, congrArg (fun buf => buf.set 4 g) hloop⟩

/-- The histories of the gains after `k` bad subframes. The third one is not changed by bad subframes. -/
structure GainOk (k : Nat) (mem : DecGain) : Prop where
  pbuf : Faded k mem.pbuf
  gbuf : Faded k mem.gbuf
  pbuf2 : ∃ g, mem.pbuf2 = [0, 0, 0, 0, g] ∧ 0 ≤ g

theorem gainOk_init : GainOk 0 decGain2AmrWbInit := ⟨⟨0, 0, rfl⟩, ⟨0, 0, rfl⟩, 0, rfl, Int.le_refl 0⟩

theorem gainOk_four (h : GainOk 4 mem) : GainOk 0 mem := ⟨faded_four h.pbuf, faded_four h.gbuf, h.pbuf2⟩

theorem multInt16_zero (a : Int) : multInt16 a 0 = 0 := by
  rw [multInt16, Int.mul_zero]
  rfl

theorem mul16by16ToInt32_zero (a : Int) : mul16by16ToInt32 0 a = 0 := by
  rw [mul16by16ToInt32, Int.zero_mul]
  rfl

/-- **A bad subframe** has no gains. -/
theorem faded_bad (h : GainOk k mem) (hk : k < 4) :
    (decGain2AmrWb index nbits code true prevBfi state unusableFrame vadHist mem).1 = (0, 0) ∧
      GainOk (k + 1) (decGain2AmrWb index nbits code true prevBfi state unusableFrame vadHist mem).2 := by
  have hzero : ¬(0 : Int) > 15565 := by decide
  simp only [decGain2AmrWb, if_true, median5_faded h.pbuf, median5_faded h.gbuf, if_neg hzero, multInt16_zero, ite_self,
    mul16by16ToInt32_zero]
  exact ⟨trivial, faded_shift h.pbuf hk, faded_shift h.gbuf hk, h.pbuf2⟩

theorem tQuaGain_nonneg (nbits index : Nat) :
    0 ≤ ((if nbits = 6 then tQuaGain6b else tQuaGain7b).getD index (0, 0)).1 := by
  have htables : ∀ p ∈ tQuaGain6b ++ tQuaGain7b, 0 ≤ p.1 := by decide +kernel
  rw [List.getD_eq_getElem?_getD]
  cases hp : (if nbits = 6 then tQuaGain6b else tQuaGain7b)[index]? with
  | none => exact Int.le_refl 0
  | some p =>
    refine htables p (List.mem_append.mpr ?_)
    have hmem := List.mem_of_getElem? hp
    split at hmem
    · exact .inl hmem
    · exact .inr hmem

/-- A good subframe leaves all but the ends of the histories at zero. -/
theorem faded_good (h : GainOk 0 mem) :
    GainOk 0 (decGain2AmrWb index nbits code false prevBfi state unusableFrame vadHist mem).2 := by
  obtain ⟨g, hg, -⟩ := h.pbuf2
  refine ⟨faded_loop h.pbuf _, faded_loop h.gbuf _, _, ?_, tQuaGain_nonneg nbits index⟩
  simp only [decGain2AmrWb, Bool.false_eq_true, if_false, hg]
  rfl

end Histories

end Talk2Text.Amrwb
