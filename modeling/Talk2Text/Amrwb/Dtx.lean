import Talk2Text.Amrwb.BasicOp
import Talk2Text.Amrwb.Params

/-!
# Discontinuous transmission

`native/dtx_decoder_amr_wb.c`: what a frame type does to the state of the synthesis, which is speech, comfort noise, or
comfort noise that is muted because its parameters are too old, and to the counters behind it; and `div_16by16` of
`native/pvamrwb_math_op.c`, with which the noise is interpolated. The parameters of the noise themselves are left out.

- `div16by16_eq`: `div_16by16` is the quotient in Q15;
- `handler_table`: the next state is the one of the table in the source, and where it is not;
- `DtxOk`: what holds of the counters, kept by every frame (`dtxOk_noise`, `dtxOk_speech`).
-/

namespace Talk2Text.Amrwb

open Format

/-! ## `div_16by16` -/

/-- One of the three steps of a round: the denominator times a power of two, and the bit of the quotient. -/
def divStep (denom bit : Nat) (s : Nat × Nat) : Nat × Nat :=
  if s.1 ≥ denom then (s.1 - denom, s.2 ||| bit) else s

/-- A round, which makes three bits of the quotient; the numerator comes first. -/
def divRound (denom : Nat) (s : Nat × Nat) : Nat × Nat :=
  let s := (s.1 <<< 3, s.2 <<< 3)
  divStep denom 1 (divStep (denom <<< 1) 2 (divStep (denom <<< 2) 4 s))

/-- `div_16by16`. -/
def div16by16 (var1 var2 : Int) : Int :=
  if var1 > var2 ∨ var1 < 0 then 0
  else if var1 ≠ 0 then
    if var1 ≠ var2 then ((List.range 5).foldl (fun s _ => divRound var2.toNat s) (var1.toNat, 0)).2 else max16
  else 0

section Division

/-- A bit that is added below the others. -/
theorem divStep_eq {denom num quot k : Nat} :
    divStep denom (2 ^ k) (num, quot * 2 ^ (k + 1)) =
      if denom ≤ num then (num - denom, (quot * 2 + 1) * 2 ^ k) else (num, quot * 2 * 2 ^ k) := by
  have hpow : quot * 2 ^ (k + 1) = quot * 2 * 2 ^ k := by rw [Nat.pow_succ, Nat.mul_assoc, Nat.mul_comm 2]
  have hor : quot * 2 ^ (k + 1) ||| 2 ^ k = (quot * 2 + 1) * 2 ^ k := by
    rw [← Nat.shiftLeft_eq, shiftLeft_lor (Nat.pow_lt_pow_succ (by decide)), hpow, Nat.add_mul, Nat.one_mul]
  by_cases h : denom ≤ num
  · rw [divStep, if_pos h, if_pos h, hor]
  · rw [divStep, if_neg h, if_neg h, hpow]

/-- **A round** is a step of a long division in base eight. -/
theorem divRound_eq {denom num quot : Nat} (hn : num < denom) :
    divRound denom (num, quot) = (num * 8 % denom, quot * 8 + num * 8 / denom) := by
  have hquot : ∀ r q k, q = quot * 8 + k → r + denom * k = num * 8 → r < denom →
      (r, q) = (num * 8 % denom, quot * 8 + num * 8 / denom) := fun r q k hq he hr => by
    obtain ⟨hdiv, hmod⟩ := (Nat.div_mod_unique (by omega)).mpr ⟨he, hr⟩
    rw [hq, hdiv, hmod]
  have h1 : denom <<< 1 = denom * 2 := Nat.shiftLeft_eq denom 1
  have h2 : denom <<< 2 = denom * 4 := Nat.shiftLeft_eq denom 2
  have h3 : ∀ x, x <<< 3 = x * 8 := fun x => Nat.shiftLeft_eq x 3
  have step4 := @divStep_eq (denom * 4) (num * 8) quot 2
  have step2 := fun n q => @divStep_eq (denom * 2) n q 1
  have step1 := fun n q => @divStep_eq denom n q 0
  simp only [Nat.reducePow, Nat.reduceAdd, Nat.mul_one] at step4 step2 step1
  simp only [divRound, h1, h2, h3, step4]
  -- the three bits of the quotient
  split <;> simp only [step2] <;> split <;> simp only [step1] <;> split
  · exact hquot _ _ 7 (by omega) (by omega) (by omega)
  · exact hquot _ _ 6 (by omega) (by omega) (by omega)
  · exact hquot _ _ 5 (by omega) (by omega) (by omega)
  · exact hquot _ _ 4 (by omega) (by omega) (by omega)
  · exact hquot _ _ 3 (by omega) (by omega) (by omega)
  · exact hquot _ _ 2 (by omega) (by omega) (by omega)
  · exact hquot _ _ 1 (by omega) (by omega) (by omega)
  · exact hquot _ _ 0 (by omega) (by omega) (by omega)

theorem divRounds_eq {denom num : Nat} (hn : num < denom) (n : Nat) :
    (List.range n).foldl (fun s _ => divRound denom s) (num, 0) = (num * 8 ^ n % denom, num * 8 ^ n / denom) := by
  have hpos : 0 < denom := by omega
  induction n with
  | zero => simp [Nat.mod_eq_of_lt hn, Nat.div_eq_of_lt hn]
  | succ n ih =>
    rw [List.range_succ, List.foldl_append, ih, List.foldl_cons, List.foldl_nil, divRound_eq (Nat.mod_lt _ hpos),
      Nat.pow_succ, ← Nat.mul_assoc]
    generalize num * 8 ^ n = x
    have hx : x * 8 = x % denom * 8 + denom * (x / denom * 8) := by
      conv_lhs => rw [← Nat.mod_add_div x denom, Nat.add_mul, Nat.mul_assoc]
    rw [hx, Nat.add_mul_mod_self_left, Nat.add_mul_div_left _ _ hpos, Nat.add_comm (x / denom * 8)]

/-- **`div_16by16`** is the quotient in Q15, if the first number is not the larger one. -/
theorem div16by16_eq {a b : Int} (ha : 0 ≤ a) (hab : a < b) : div16by16 a b = a * 2 ^ 15 / b := by
  obtain ⟨m, rfl⟩ := Int.eq_ofNat_of_zero_le ha
  obtain ⟨n, rfl⟩ := Int.eq_ofNat_of_zero_le (Int.le_of_lt (Int.lt_of_le_of_lt ha hab))
  rw [div16by16, if_neg (by omega)]
  by_cases hm : m = 0
  · simp [hm]
  · rw [if_pos (by omega), if_pos (by omega)]
    simp only [Int.toNat_natCast]
    rw [divRounds_eq (by omega)]
    norm_cast

end Division

/-! ## State -/

/-- The state of the synthesis: `SPEECH`, `DTX` and `DTX_MUTE`. -/
inductive SynState
  | speech
  | dtx
  | dtxMute
  deriving DecidableEq, Repr

def dtxMaxEmptyThresh : Int := 50

def dtxHistSize : Int := 8

def dtxElapsedFramesThresh : Int := 24 + 7 - 1

def dtxHangConst : Int := 7

/-- `dtx_decState`, without the parameters of the noise. -/
structure DtxState where
  sinceLastSid : Int
  trueSidPeriodInv : Int
  histPtr : Int
  dtxHangoverCount : Int
  decAnaElapsedCount : Int
  sidFrame : Bool
  validData : Bool
  dtxHangoverAdded : Bool
  dtxGlobalState : SynState
  dataUpdated : Bool
  cnDith : Nat
  deriving DecidableEq, Repr

/-- `dtx_dec_amr_wb_reset`. -/
def dtxReset : DtxState where
  sinceLastSid := 0
  trueSidPeriodInv := 0x2000
  histPtr := 0
  dtxHangoverCount := dtxHangConst
  decAnaElapsedCount := 32767
  sidFrame := false
  validData := false
  dtxHangoverAdded := false
  dtxGlobalState := .speech
  dataUpdated := false
  cnDith := 0

/-- The first half of `rx_amr_wb_dtx_handler`: the new state and `since_last_sid`. -/
def newSynState (st : DtxState) (frameType : FrameType) : SynState × Int :=
  if frameType = .sidFirst ∨ frameType = .sidUpdate ∨ frameType = .sidBad ∨
      ((st.dtxGlobalState = .dtx ∨ st.dtxGlobalState = .dtxMute) ∧
        (frameType = .noData ∨ frameType = .speechBad ∨ frameType = .speechLost)) then
    let newState :=
      if st.dtxGlobalState = .dtxMute ∧ (frameType = .sidBad ∨ frameType = .sidFirst ∨ frameType = .speechLost ∨
          frameType = .noData) then .dtxMute
      else SynState.dtx
    let sinceLastSid := addInt16 st.sinceLastSid 1
    (if sinceLastSid > dtxMaxEmptyThresh then .dtxMute else newState, sinceLastSid)
  else (.speech, 0)

/-- The hangover of the encoder: `dtxHangoverAdded`, `dtxHangoverCount` and `decAnaElapsedCount`. -/
def hangover (st : DtxState) (frameType : FrameType) : Bool × Int × Int :=
  let decAnaElapsedCount := if st.dataUpdated = false ∧ frameType = .sidUpdate then 0 else st.decAnaElapsedCount
  let decAnaElapsedCount := addInt16 decAnaElapsedCount 1
  let encDtx := frameType = .sidFirst ∨ frameType = .sidUpdate ∨ frameType = .sidBad ∨ frameType = .noData
  if ¬encDtx then (false, dtxHangConst, decAnaElapsedCount)
  else if decAnaElapsedCount > dtxElapsedFramesThresh then (true, 0, 0)
  else if st.dtxHangoverCount = 0 then (false, 0, 0)
  else (false, st.dtxHangoverCount - 1, decAnaElapsedCount)

/-- `rx_amr_wb_dtx_handler`. -/
def rxAmrWbDtxHandler (st : DtxState) (frameType : FrameType) : SynState × DtxState :=
  let (newState, sinceLastSid) := newSynState st frameType
  let (dtxHangoverAdded, dtxHangoverCount, decAnaElapsedCount) := hangover st frameType
  let st := { st with sinceLastSid, dtxHangoverAdded, dtxHangoverCount, decAnaElapsedCount }
  if newState ≠ .speech then
    if frameType = .sidFirst then (newState, { st with sidFrame := true, validData := false })
    else if frameType = .sidUpdate then (newState, { st with sidFrame := true, validData := true })
    else if frameType = .sidBad then
      (newState, { st with sidFrame := true, validData := false, dtxHangoverAdded := false })
    else (newState, { st with sidFrame := false, validData := false })
  else (newState, st)

/-- What `dtx_dec_amr_wb` computes to interpolate the noise: the factor in Q10, and the arguments of its calls of
`div_16by16`. -/
structure Interpolation where
  intFac : Int
  divisions : List (Int × Int)
  deriving DecidableEq, Repr

/-- The reciprocal of an interval, with the arguments of the division. -/
def periodInv (sinceLastSid : Int) : Int × Int :=
  let tmpIntLength := if sinceLastSid > 32 then 32 else sinceLastSid
  (1 <<< (10 : Nat), shlInt16 tmpIntLength 10)

/-- The branch of `dtx_dec_amr_wb` for new parameters. -/
def newSid (st : DtxState) (sid : Sid) : DtxState × List (Int × Int) :=
  let args := periodInv st.sinceLastSid
  let (trueSidPeriodInv, divisions) :=
    if st.sinceLastSid ≥ 2 then (div16by16 args.1 args.2, [args]) else (0x4000, [])
  ({ st with trueSidPeriodInv, cnDith := sid.cnDith, sinceLastSid := 0 }, divisions)

/-- `dtx_dec_amr_wb` from the interpolation on. -/
def interpolate (st : DtxState) (newState : SynState) (divisions : List (Int × Int)) : DtxState × Interpolation :=
  let intFac := multInt16 (shlInt16 st.sinceLastSid 10) st.trueSidPeriodInv
  let intFac := if intFac > 1024 then 1024 else intFac
  let args := periodInv st.sinceLastSid
  let (st, divisions) :=
    if newState = .dtxMute then
      ({ st with trueSidPeriodInv := div16by16 args.1 args.2, sinceLastSid := 0 }, divisions ++ [args])
    else (st, divisions)
  let st :=
    if st.sidFrame ∧ (st.validData ∨ (¬st.validData ∧ st.dtxHangoverAdded)) then
      { st with sinceLastSid := 0, dataUpdated := true }
    else st
  (st, ⟨intFac, divisions⟩)

/-- `dtx_dec_amr_wb`. -/
def dtxDecAmrWb (st : DtxState) (newState : SynState) : BitReader (DtxState × Interpolation) := do
  if st.sidFrame ∧ st.validData then
    let sid ← readSid
    let (st, divisions) := newSid st sid
    pure (interpolate st newState divisions)
  else pure (interpolate st newState [])

/-- The pointer into the history that `dtx_dec_amr_wb_activity_update` moves. -/
def activityUpdate (st : DtxState) : DtxState :=
  let histPtr := st.histPtr + 1
  { st with histPtr := if histPtr = dtxHistSize then 0 else histPtr }

/-! ## Invariants -/

/-- The counters are within their bounds, and the time since the last parameters is counted in comfort noise only. -/
structure DtxOk (st : DtxState) : Prop where
  since : 0 ≤ st.sinceLastSid ∧ st.sinceLastSid ≤ dtxMaxEmptyThresh
  counted : st.dtxGlobalState ≠ .dtx → st.sinceLastSid = 0
  inv : 0 ≤ st.trueSidPeriodInv ∧ st.trueSidPeriodInv ≤ max16
  hist : 0 ≤ st.histPtr ∧ st.histPtr < dtxHistSize
  hangover : 0 ≤ st.dtxHangoverCount ∧ st.dtxHangoverCount ≤ dtxHangConst
  elapsed : 0 ≤ st.decAnaElapsedCount ∧ st.decAnaElapsedCount ≤ max16

/-- What `div_16by16` asks for. -/
def Divides (args : Int × Int) : Prop := 0 ≤ args.1 ∧ args.1 ≤ args.2 ∧ args.2 ≠ 0

instance (args : Int × Int) : Decidable (Divides args) := inferInstanceAs (Decidable (_ ∧ _))

/-- The frame types that keep the synthesis in comfort noise. -/
def SilentType (st : DtxState) (frameType : FrameType) : Prop :=
  frameType = .sidFirst ∨ frameType = .sidUpdate ∨ frameType = .sidBad ∨
    ((st.dtxGlobalState = .dtx ∨ st.dtxGlobalState = .dtxMute) ∧
      (frameType = .noData ∨ frameType = .speechBad ∨ frameType = .speechLost))

instance (st : DtxState) (frameType : FrameType) : Decidable (SilentType st frameType) :=
  inferInstanceAs (Decidable (_ ∨ _))

section Invariants

variable {st : DtxState} {frameType : FrameType}

theorem dtxOk_reset : DtxOk dtxReset where
  since := by decide
  counted := fun _ => rfl
  inv := by decide
  hist := by decide
  hangover := by decide
  elapsed := by decide

theorem addInt16_one {x : Int} (h₀ : 0 ≤ x) (h₁ : x ≤ max16) : addInt16 x 1 = min (x + 1) max16 := by
  simp only [max16] at h₁
  rw [addInt16_eq (by simp only [IsInt16, min16, max16]; omega) (by decide), clamp16]
  simp only [min16, max16]
  omega

/-- **The new state**, and the time since the last parameters. -/
theorem newSynState_eq (h : DtxOk st) : newSynState st frameType =
    if SilentType st frameType then
      (if st.sinceLastSid = dtxMaxEmptyThresh ∨ (st.dtxGlobalState = .dtxMute ∧ (frameType = .sidBad ∨
          frameType = .sidFirst ∨ frameType = .speechLost ∨ frameType = .noData)) then .dtxMute else .dtx,
        st.sinceLastSid + 1)
    else (.speech, 0) := by
  obtain ⟨h₀, h₁⟩ := h.since
  simp only [dtxMaxEmptyThresh] at h₁
  have hadd : addInt16 st.sinceLastSid 1 = st.sinceLastSid + 1 := by
    rw [addInt16_one h₀ (by simp only [max16]; omega)]
    simp only [max16]
    omega
  have hgt : st.sinceLastSid + 1 > dtxMaxEmptyThresh ↔ st.sinceLastSid = dtxMaxEmptyThresh := by
    simp only [dtxMaxEmptyThresh]
    omega
  simp only [newSynState, hadd]
  by_cases hs : SilentType st frameType
  · refine (if_pos hs).trans (Eq.trans (congrArg (·, _) ?_) (if_pos hs).symm)
    by_cases hold : st.sinceLastSid = dtxMaxEmptyThresh
    · exact (if_pos (hgt.mpr hold)).trans (if_pos (.inl hold)).symm
    · rw [if_neg (mt hgt.mp hold)]
      simp only [hold, false_or]
  · exact (if_neg hs).trans (if_neg hs).symm

theorem hangover_range (h : DtxOk st) :
    (0 ≤ (hangover st frameType).2.1 ∧ (hangover st frameType).2.1 ≤ dtxHangConst) ∧
      0 ≤ (hangover st frameType).2.2 ∧ (hangover st frameType).2.2 ≤ max16 := by
  obtain ⟨hc₀, hc₁⟩ := h.hangover
  obtain ⟨he₀, he₁⟩ := h.elapsed
  have hadd : ∀ x, 0 ≤ x → x ≤ max16 → 0 ≤ addInt16 x 1 ∧ addInt16 x 1 ≤ max16 := fun x hx hx' => by
    rw [addInt16_one hx hx']
    omega
  simp only [dtxHangConst] at hc₁ ⊢
  simp only [hangover]
  have helapsed : 0 ≤ addInt16 (if st.dataUpdated = false ∧ frameType = .sidUpdate then 0 else st.decAnaElapsedCount) 1 ∧
      addInt16 (if st.dataUpdated = false ∧ frameType = .sidUpdate then 0 else st.decAnaElapsedCount) 1 ≤ max16 := by
    split
    · exact hadd 0 (by decide) (by decide)
    · exact hadd _ he₀ he₁
  generalize addInt16 (if st.dataUpdated = false ∧ frameType = .sidUpdate then 0 else st.decAnaElapsedCount) 1 = e at *
  simp only [max16, dtxHangConst] at helapsed ⊢
  repeat' split
  all_goals
    dsimp only
    omega

/-- What the handler leaves. -/
theorem handler_fields : (rxAmrWbDtxHandler st frameType).1 = (newSynState st frameType).1 ∧
    (rxAmrWbDtxHandler st frameType).2.sinceLastSid = (newSynState st frameType).2 ∧
    (rxAmrWbDtxHandler st frameType).2.trueSidPeriodInv = st.trueSidPeriodInv ∧
    (rxAmrWbDtxHandler st frameType).2.histPtr = st.histPtr ∧
    (rxAmrWbDtxHandler st frameType).2.dtxHangoverCount = (hangover st frameType).2.1 ∧
    (rxAmrWbDtxHandler st frameType).2.decAnaElapsedCount = (hangover st frameType).2.2 ∧
    ((newSynState st frameType).1 ≠ .speech →
      ((rxAmrWbDtxHandler st frameType).2.sidFrame = true ∧ (rxAmrWbDtxHandler st frameType).2.validData = true ↔
        frameType = .sidUpdate)) := by
  simp only [rxAmrWbDtxHandler]
  split
  · split
    · next hft => simp [hft]
    · split
      · next hft => simp [hft]
      · split
        · next hft => simp [hft]
        · next h₁ h₂ h₃ => simp [h₂]
  · next hns => exact ⟨rfl, rfl, rfl, rfl, rfl, rfl, fun h => absurd h hns⟩

theorem div16by16_range (a b : Int) : 0 ≤ div16by16 a b ∧ div16by16 a b ≤ max16 := by
  by_cases h : a > b ∨ a < 0
  · rw [div16by16, if_pos h]
    decide
  · by_cases hab : a < b
    · have ha : 0 ≤ a := by omega
      rw [div16by16_eq ha hab]
      have hb : 0 < b := by omega
      have hlt : a * 2 ^ 15 / b < 2 ^ 15 := Int.ediv_lt_of_lt_mul hb (by omega)
      exact ⟨Int.ediv_nonneg (by omega) (by omega), by simp only [max16]; omega⟩
    · have heq : a = b := by omega
      rw [div16by16, if_neg h, heq, if_neg (not_not.mpr rfl)]
      split <;> decide

theorem periodInv_divides {x : Int} (h₀ : 0 ≤ x) (h₁ : x < 1024) : Divides (periodInv x) ↔ x ≠ 0 := by
  have hlen : 0 ≤ (if x > 32 then 32 else x) ∧ (if x > 32 then 32 else x) ≤ 32 := by split <;> omega
  have hshl : shlInt16 (if x > 32 then 32 else x) 10 = clamp16 ((if x > 32 then 32 else x) * 2 ^ 10) :=
    shlInt16_eq (by simp only [IsInt16, min16, max16]; omega) (by decide)
  have hone : (1 : Int) <<< (10 : Nat) = 1024 := rfl
  simp only [Divides, periodInv, hshl, clamp16, min16, max16]
  split <;> omega

/-- The factor is at most one, in Q10. -/
theorem intFac_range {x y : Int} (hx : 0 ≤ x ∧ x < 1024) (hy : 0 ≤ y ∧ y ≤ max16) :
    0 ≤ (if multInt16 (shlInt16 x 10) y > 1024 then 1024 else multInt16 (shlInt16 x 10) y) ∧
      (if multInt16 (shlInt16 x 10) y > 1024 then 1024 else multInt16 (shlInt16 x 10) y) ≤ 1024 := by
  have hshl : shlInt16 x 10 = clamp16 (x * 2 ^ 10) :=
    shlInt16_eq (by simp only [IsInt16, min16, max16]; omega) (by decide)
  have hpos : 0 ≤ clamp16 (x * 2 ^ 10) := by
    simp only [clamp16, min16, max16]
    omega
  have hmul : 0 ≤ multInt16 (shlInt16 x 10) y := by
    rw [hshl, multInt16_eq (isInt16_clamp16 _) ⟨by simp only [min16]; omega, hy.2⟩, clamp16]
    have := Int.ediv_nonneg (Int.mul_nonneg hpos hy.1) (by decide : (0 : Int) ≤ 2 ^ 15)
    simp only [min16, max16]
    omega
  omega

/-- New parameters: the division is one that `div_16by16` makes. -/
theorem newSid_spec {sid : Sid} (hs : 0 ≤ st.sinceLastSid ∧ st.sinceLastSid ≤ dtxMaxEmptyThresh + 1) :
    (newSid st sid).1.sinceLastSid = 0 ∧
      (0 ≤ (newSid st sid).1.trueSidPeriodInv ∧ (newSid st sid).1.trueSidPeriodInv ≤ max16) ∧
      ∀ d ∈ (newSid st sid).2, Divides d := by
  obtain ⟨hs₀, hs₁⟩ := hs
  simp only [dtxMaxEmptyThresh] at hs₁
  refine ⟨rfl, ?_⟩
  simp only [newSid]
  split
  · have hdiv := (periodInv_divides hs₀ (by omega)).mpr (by omega)
    exact ⟨div16by16_range _ _, by simpa using hdiv⟩
  · exact ⟨by decide, by simp⟩

/-- The noise is interpolated between the old and the new parameters, and a muted frame starts the count again. -/
theorem interpolate_spec (newState : SynState) (divisions : List (Int × Int)) (hs : 0 ≤ st.sinceLastSid)
    (hs' : st.sinceLastSid ≤ dtxMaxEmptyThresh + 1) (hi : 0 ≤ st.trueSidPeriodInv ∧ st.trueSidPeriodInv ≤ max16) :
    (0 ≤ (interpolate st newState divisions).2.intFac ∧ (interpolate st newState divisions).2.intFac ≤ 1024) ∧
    (interpolate st newState divisions).2.divisions =
      divisions ++ (if newState = .dtxMute then [periodInv st.sinceLastSid] else []) ∧
    (0 ≤ (interpolate st newState divisions).1.trueSidPeriodInv ∧
      (interpolate st newState divisions).1.trueSidPeriodInv ≤ max16) ∧
    (interpolate st newState divisions).1.histPtr = st.histPtr ∧
    (interpolate st newState divisions).1.dtxHangoverCount = st.dtxHangoverCount ∧
    (interpolate st newState divisions).1.decAnaElapsedCount = st.decAnaElapsedCount ∧
    (0 ≤ (interpolate st newState divisions).1.sinceLastSid ∧
      (interpolate st newState divisions).1.sinceLastSid ≤ st.sinceLastSid) ∧
    (newState = .dtxMute → (interpolate st newState divisions).1.sinceLastSid = 0) := by
  simp only [dtxMaxEmptyThresh] at hs'
  refine ⟨intFac_range ⟨hs, by omega⟩ hi, ?_⟩
  have hdiv := div16by16_range (periodInv st.sinceLastSid).1 (periodInv st.sinceLastSid).2
  simp only [interpolate]
  by_cases hm : newState = .dtxMute
  · simp only [if_pos hm]
    split <;> simp [hdiv, hs]
  · simp only [if_neg hm]
    split <;> simp [hi, hs, hm]

/-- The state after a frame of comfort noise, from the interpolation on. -/
theorem dtxOk_interpolate (h : DtxOk st) {st₁ : DtxState} {newState : SynState} {divisions : List (Int × Int)}
    (hn : newState ≠ .speech) (hs : 0 ≤ st₁.sinceLastSid ∧ st₁.sinceLastSid ≤ dtxMaxEmptyThresh + 1)
    (hd : newState = .dtx → st₁.sinceLastSid ≤ dtxMaxEmptyThresh)
    (hi : 0 ≤ st₁.trueSidPeriodInv ∧ st₁.trueSidPeriodInv ≤ max16) (hh : st₁.histPtr = st.histPtr)
    (hc : st₁.dtxHangoverCount = (hangover st frameType).2.1)
    (he : st₁.decAnaElapsedCount = (hangover st frameType).2.2) :
    DtxOk { (interpolate st₁ newState divisions).1 with dtxGlobalState := newState } ∧
      0 ≤ (interpolate st₁ newState divisions).2.intFac ∧ (interpolate st₁ newState divisions).2.intFac ≤ 1024 := by
  obtain ⟨hfac, -, hinv, hhist, hcount, hel, hsince, hmute⟩ := interpolate_spec newState divisions hs.1 hs.2 hi
  obtain ⟨hrange, hrange'⟩ := @hangover_range st frameType h
  refine ⟨⟨⟨hsince.1, ?_⟩, fun hne => ?_, hinv, ?_, ?_, ?_⟩, hfac⟩
  · show (interpolate st₁ newState divisions).1.sinceLastSid ≤ dtxMaxEmptyThresh
    cases newState with
    | speech => exact absurd rfl hn
    | dtx => exact Int.le_trans hsince.2 (hd rfl)
    | dtxMute => rw [hmute rfl]; decide
  · show (interpolate st₁ newState divisions).1.sinceLastSid = 0
    cases newState with
    | speech => exact absurd rfl hn
    | dtx => exact absurd rfl hne
    | dtxMute => exact hmute rfl
  · show 0 ≤ (interpolate st₁ newState divisions).1.histPtr ∧ (interpolate st₁ newState divisions).1.histPtr < _
    rw [hhist, hh]
    exact h.hist
  · show 0 ≤ (interpolate st₁ newState divisions).1.dtxHangoverCount ∧
      (interpolate st₁ newState divisions).1.dtxHangoverCount ≤ _
    rw [hcount, hc]
    exact hrange
  · show 0 ≤ (interpolate st₁ newState divisions).1.decAnaElapsedCount ∧
      (interpolate st₁ newState divisions).1.decAnaElapsedCount ≤ _
    rw [hel, he]
    exact hrange'

/-- **A frame of comfort noise** keeps the counters within their bounds. The argument of a division is out of range
exactly when new parameters arrive just as the old ones have become too old. -/
theorem dtxOk_noise (h : DtxOk st) (hn : (rxAmrWbDtxHandler st frameType).1 ≠ .speech) {bits rest : List Bool}
    {st' : DtxState} {out : Interpolation}
    (hr : (dtxDecAmrWb (rxAmrWbDtxHandler st frameType).2 (rxAmrWbDtxHandler st frameType).1).run bits =
      some ((st', out), rest)) :
    DtxOk { st' with dtxGlobalState := (rxAmrWbDtxHandler st frameType).1 } ∧ (0 ≤ out.intFac ∧ out.intFac ≤ 1024) ∧
      ((∀ d ∈ out.divisions, Divides d) ↔ ¬(frameType = .sidUpdate ∧ st.sinceLastSid = dtxMaxEmptyThresh)) := by
  obtain ⟨hstate, hsince, hinv, hhist, hcount, helapsed, hupdate⟩ := @handler_fields st frameType
  have hupdate := hupdate (hstate ▸ hn)
  obtain ⟨h₀, h₁⟩ := h.since
  rw [newSynState_eq h] at hstate hsince
  generalize hns : (rxAmrWbDtxHandler st frameType).1 = newState at *
  generalize (rxAmrWbDtxHandler st frameType).2 = st₁ at *
  by_cases hs : SilentType st frameType
  · rw [if_pos hs] at hstate hsince
    dsimp only at hstate hsince
    have hmute : newState = .dtxMute → frameType = .sidUpdate → st.sinceLastSid = dtxMaxEmptyThresh := by
      intro hm hu
      rw [hstate] at hm
      by_contra hne
      rw [if_neg (by simp [hne, hu])] at hm
      cases hm
    have hdtx : newState = .dtx → st.sinceLastSid ≠ dtxMaxEmptyThresh := by
      rintro hd he
      rw [hstate, if_pos (.inl he)] at hd
      cases hd
    obtain ⟨hrange, -⟩ := @hangover_range st frameType h
    have hlim : (0 : Int) ≤ st.sinceLastSid + 1 ∧ st.sinceLastSid + 1 ≤ dtxMaxEmptyThresh + 1 := by omega
    by_cases hu : frameType = .sidUpdate
    · -- new parameters: the count starts again before the interpolation
      rw [dtxDecAmrWb, if_pos (hupdate.mpr hu), StateT.run_bind, Option.bind_eq_bind] at hr
      obtain ⟨⟨sid, rest'⟩, -, hr⟩ := Option.bind_eq_some_iff.mp hr
      obtain ⟨hzero, hinv', hdivs⟩ := @newSid_spec st₁ sid (hsince ▸ hlim)
      obtain ⟨rfl, rfl⟩ : (interpolate (newSid st₁ sid).1 newState (newSid st₁ sid).2).1 = st' ∧
          (interpolate (newSid st₁ sid).1 newState (newSid st₁ sid).2).2 = out := by
        cases hr
        exact ⟨rfl, rfl⟩
      obtain ⟨hok, hfac⟩ := @dtxOk_interpolate st frameType h (newSid st₁ sid).1 newState (newSid st₁ sid).2 hn
        (by rw [hzero]; decide) (fun _ => by rw [hzero]; decide) hinv' hhist hcount helapsed
      refine ⟨hok, hfac, ?_⟩
      rw [(interpolate_spec newState _ (by rw [hzero]) (by rw [hzero]; decide) hinv').2.1, hzero]
      have hold : newState = .dtxMute ↔ st.sinceLastSid = dtxMaxEmptyThresh :=
        ⟨fun hm => hmute hm hu, fun he => by rw [hstate, if_pos (.inl he)]⟩
      by_cases hm : newState = .dtxMute
      · have hno : ¬Divides (periodInv 0) := by decide
        refine iff_of_false (fun hall => hno (hall _ ?_)) (not_not.mpr ⟨hu, hold.mp hm⟩)
        rw [if_pos hm]
        simp
      · simpa [hm, hu, mt hold.mpr hm] using hdivs
    · have hnot : ¬(st₁.sidFrame ∧ st₁.validData) := fun hv => hu (hupdate.mp hv)
      rw [dtxDecAmrWb, if_neg hnot] at hr
      obtain ⟨rfl, rfl⟩ : (interpolate st₁ newState []).1 = st' ∧ (interpolate st₁ newState []).2 = out := by
        cases hr
        exact ⟨rfl, rfl⟩
      have hinv' : 0 ≤ st₁.trueSidPeriodInv ∧ st₁.trueSidPeriodInv ≤ max16 := hinv ▸ h.inv
      obtain ⟨hok, hfac⟩ := @dtxOk_interpolate st frameType h st₁ newState [] hn (hsince ▸ hlim)
        (fun hd => by have := hdtx hd; omega) hinv' hhist hcount helapsed
      refine ⟨hok, hfac, iff_of_true ?_ (fun hv => hu hv.1)⟩
      rw [(interpolate_spec newState _ (hsince ▸ hlim.1) (hsince ▸ hlim.2) hinv').2.1, hsince]
      have hdiv : Divides (periodInv (st.sinceLastSid + 1)) := by
        have hbound : st.sinceLastSid + 1 < 1024 := by simp only [dtxMaxEmptyThresh] at h₁; omega
        exact (periodInv_divides hlim.1 hbound).mpr (by omega)
      split <;> simp [hdiv]
  · rw [if_neg hs] at hstate
    exact absurd hstate hn

/-- **A frame of speech** keeps the counters within their bounds. -/
theorem dtxOk_speech (h : DtxOk st) (hn : (rxAmrWbDtxHandler st frameType).1 = .speech) :
    DtxOk { activityUpdate (rxAmrWbDtxHandler st frameType).2 with dtxGlobalState := .speech } := by
  obtain ⟨hstate, hsince, hinv, hhist, hcount, helapsed, -⟩ := @handler_fields st frameType
  obtain ⟨hrange, hrange'⟩ := @hangover_range st frameType h
  rw [newSynState_eq h] at hstate hsince
  have hs : ¬SilentType st frameType := fun hs => by
    rw [if_pos hs, hn] at hstate
    dsimp only at hstate
    split at hstate <;> cases hstate
  rw [if_neg hs] at hsince
  obtain ⟨hh₀, hh₁⟩ := h.hist
  refine ⟨?_, fun _ => hsince, hinv ▸ h.inv, ?_, hcount ▸ hrange, helapsed ▸ hrange'⟩
  · show 0 ≤ (rxAmrWbDtxHandler st frameType).2.sinceLastSid ∧ (rxAmrWbDtxHandler st frameType).2.sinceLastSid ≤ _
    rw [hsince]
    decide
  · simp only [activityUpdate, hhist, dtxHistSize] at hh₁ ⊢
    omega

/-- The table of new synthesis states in the source; where it has two, the second one is for parameters that are too
old. `RX_SPEECH_LOST`, which the source's table does not list, is in the row of `RX_NO_DATA`. -/
def newStateTable (tooOld : Bool) : SynState → FrameType → SynState
  | _, .speechGood | _, .speechProbablyDegraded => .speech
  | previous, .speechBad => previous
  | .speech, .sidFirst | .speech, .sidBad => .dtx
  | .dtx, .sidFirst | .dtx, .sidBad => if tooOld then .dtxMute else .dtx
  | .dtxMute, .sidFirst | .dtxMute, .sidBad => .dtxMute
  | _, .sidUpdate => .dtx
  | .speech, .noData | .speech, .speechLost => .speech
  | .dtx, .noData | .dtx, .speechLost => if tooOld then .dtxMute else .dtx
  | .dtxMute, .noData | .dtxMute, .speechLost => .dtxMute

/-- **The handler follows the table** with two exceptions: new parameters mute the noise if the old ones become too old
with them, and a bad frame of speech counts like a missing one, but lets muted noise be heard again. -/
theorem handler_table (h : DtxOk st) : (rxAmrWbDtxHandler st frameType).1 =
      newStateTable (st.sinceLastSid = dtxMaxEmptyThresh) st.dtxGlobalState frameType ↔
    ¬((frameType = .sidUpdate ∨ frameType = .speechBad) ∧ st.sinceLastSid = dtxMaxEmptyThresh) ∧
      ¬(frameType = .speechBad ∧ st.dtxGlobalState = .dtxMute) := by
  have hcounted : st.sinceLastSid = dtxMaxEmptyThresh → st.dtxGlobalState = .dtx := fun he => by
    by_contra hne
    rw [h.counted hne] at he
    cases he
  rw [handler_fields.1, newSynState_eq h]
  by_cases hold : st.sinceLastSid = dtxMaxEmptyThresh
  · have hg := hcounted hold
    cases frameType <;> simp [SilentType, newStateTable, hold, hg]
  · cases hg : st.dtxGlobalState <;> cases frameType <;> simp [SilentType, newStateTable, hold, hg]

end Invariants

end Talk2Text.Amrwb
