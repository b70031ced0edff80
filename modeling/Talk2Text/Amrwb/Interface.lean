import Talk2Text.Amrwb.Dtx
import Talk2Text.Amrwb.Excitation
import Talk2Text.Amrwb.Homing
import Talk2Text.Amrwb.PredLt4
import Talk2Text.Sys.Basic

/-!
# The vendored decoder

`native/wrapper.c` and the control of `native/pvamrwbdecoder.c`: what a frame does to the state that decides how the next
frames are decoded. A frame that is there is decoded from its parameters; in place of a lost one the lags and the gains
are made up from those of the last frames, or the decoder goes on with comfort noise. The filters are left out; what they
contribute to the gain of the code is part of the label.

- `decoderSystem`: the decoder, frame by frame;
- `DecoderOk`: what holds of its state, kept by every frame (`decoderOk_decode`).
-/

namespace Talk2Text.Amrwb

open Format Sys

/-! ## State -/

/-- `Decoder_State`, without the memories of the filters. -/
structure DecoderState where
  dtx : DtxState
  /-- The state of the bad frame handler. -/
  state : Nat
  prevBfi : Bool
  vadHist : Int
  decGain : DecGain
  lagHist : List Int
  oldT0 : Int
  seed3 : Int
  deriving DecidableEq, Repr

/-- `pvDecoder_AmrWb_Reset` with `reset_all`. -/
def pvDecoderAmrWbReset : DecoderState where
  dtx := dtxReset
  state := 0
  prevBfi := false
  vadHist := 0
  decGain := decGain2AmrWbInit
  lagHist := List.replicate 5 64
  oldT0 := 64
  seed3 := 21845

/-! ## Speech -/

/-- The lag and the gains of a subframe. -/
structure SubframeOut where
  lag : Lag
  gainPit : Int
  gainCod : Int
  deriving DecidableEq, Repr

/-- The state in the loop over the subframes. -/
structure SubframeLoop where
  st : DecoderState
  t0Min : Int
  out : List SubframeOut

/-- The lag of a subframe: one that was sent is decoded also in a bad frame, for the lags after it. -/
def subframeLag (nbBits iSubfr : Nat) (bfi unusableFrame : Bool) (st : DecoderState) (t0Min : Int) (index : Nat) :
    Lag × Int × DecoderState :=
  let (lag, t0Min) := decodeLag nbBits iSubfr t0Min index
  if bfi then
    let (t0, seed3) := lagconceal st.decGain.pbuf2 st.lagHist lag.t0 st.oldT0 st.seed3 unusableFrame
    (⟨t0, 0⟩, t0Min, { st with seed3 })
  else (lag, t0Min, st)

/-- One round of the loop over the subframes. -/
def decodeSubframe (nbBits : Nat) (bfi unusableFrame : Bool) (codes : Nat → CodeGain) (s : SubframeLoop)
    (x : Nat × Subframe) : SubframeLoop :=
  let (lag, t0Min, st) := subframeLag nbBits x.1 bfi unusableFrame s.st s.t0Min x.2.index
  let (gains, decGain) := decGain2AmrWb x.2.gainIndex (if nbBits ≤ nbbits9k then 6 else 7) (codes x.1) bfi st.prevBfi
    st.state unusableFrame st.vadHist st.decGain
  let st := { st with decGain }
  let st := if bfi then st else { st with lagHist := lag.t0 :: st.lagHist.take 4, oldT0 := lag.t0 }
  ⟨st, t0Min, s.out ++ [⟨lag, gains.1, gains.2⟩]⟩

/-- The loop over the subframes. -/
def decodeSubframes (nbBits : Nat) (bfi unusableFrame : Bool) (codes : Nat → CodeGain) (st : DecoderState)
    (subframes : List Subframe) : SubframeLoop :=
  (subframeStarts.zip subframes).foldl (decodeSubframe nbBits bfi unusableFrame codes) ⟨st, 0, []⟩

/-! ## `pvDecoder_AmrWb` -/

/-- What a frame is decoded to. -/
inductive Sound
  /-- The fixed samples of the encoder homing frame. -/
  | homing
  | noise (newState : SynState) (out : Interpolation)
  | speech (nbBits : Nat) (bfi : Bool) (params : Params) (out : List SubframeOut)
  deriving DecidableEq, Repr

/-- `bfi` and `unusable_frame`. -/
def frameFlags (frameType : FrameType) : Bool × Bool :=
  if frameType = .speechBad ∨ frameType = .speechProbablyDegraded then (true, false)
  else if frameType = .noData ∨ frameType = .speechLost then (true, true)
  else (false, false)

/-- The state of the bad frame handler and `prev_bfi`, which are set after comfort noise. -/
def badFrameState (st : DecoderState) (bfi : Bool) : Nat × Bool :=
  let state := if bfi then if st.state + 1 > 6 then 6 else st.state + 1 else st.state >>> 1
  match st.dtx.dtxGlobalState with
  | .speech => (state, st.prevBfi)
  | .dtx => (5, false)
  | .dtxMute => (5, true)

/-- The branch of `pvDecoder_AmrWb` for comfort noise, after the parameters are read. -/
def decodeNoise (frameType : FrameType) (st : DecoderState) (dtx : DtxState) (out : Interpolation) :
    Sound × DecoderState :=
  let newDTXState := (rxAmrWbDtxHandler st.dtx frameType).1
  let bfi := (frameFlags frameType).1
  let state := (badFrameState st bfi).1
  (.noise newDTXState out,
    { st with dtx := { dtx with dtxGlobalState := newDTXState }, state, prevBfi := bfi, oldT0 := 64 })

/-- The branch of `pvDecoder_AmrWb` for speech, with the parameters that are read. -/
def decodeSpeech (mode : Nat) (frameType : FrameType) (codes : Nat → CodeGain) (st : DecoderState) (params : Params) :
    Sound × DecoderState :=
  let nbBits := amrWbCompressed.getD mode 0
  let (newDTXState, dtx) := rxAmrWbDtxHandler st.dtx frameType
  let (bfi, unusableFrame) := frameFlags frameType
  let (state, prevBfi) := badFrameState st bfi
  let vadHist := if bfi then st.vadHist else if params.vadFlag = 0 then addInt16 st.vadHist 1 else 0
  let s := decodeSubframes nbBits bfi unusableFrame codes { st with state, prevBfi, vadHist } params.subframes
  (.speech nbBits bfi params s.out,
    { s.st with dtx := { activityUpdate dtx with dtxGlobalState := newDTXState }, prevBfi := bfi })

/-- `pvDecoder_AmrWb`; `none` if it reads past the end of the buffer. -/
def pvDecoderAmrWb (mode : Nat) (prms : List Bool) (frameType : FrameType) (codes : Nat → CodeGain)
    (st : DecoderState) : Option (Sound × DecoderState) :=
  let (newDTXState, dtx) := rxAmrWbDtxHandler st.dtx frameType
  if newDTXState ≠ .speech then
    ((dtxDecAmrWb dtx newDTXState).run prms).map fun (x, _) => decodeNoise frameType st x.1 x.2
  else
    ((readFrame (nbBitsOf mode) (frameFlags frameType).2).run prms).map fun (params, _) =>
      decodeSpeech mode frameType codes st params

/-! ## `D_IF_decode` -/

/-- The state of the interface. -/
structure Interface where
  st : DecoderState
  iInputSampleBuf : List Bool
  /-- `rx_state.prev_mode`. -/
  prevMode : Nat
  modeOld : Nat
  resetFlag : Bool
  resetFlagOld : Bool
  deriving DecidableEq, Repr

/-- `D_IF_init`; the buffer is not cleared. -/
def dIfInit (iInputSampleBuf : List Bool) : Interface := ⟨pvDecoderAmrWbReset, iInputSampleBuf, 0, 0, false, true⟩

/-- A call of `D_IF_decode`: the frame with its header, what is in memory after it, whether it is marked as bad, and what
the filters contribute to the gain of the code in each subframe. -/
structure Received where
  header : UInt8
  data : List UInt8
  after : Nat → UInt8
  bfi : Bool
  codes : Nat → CodeGain

/-- The buffer, the frame type and the mode after `mime_unsorting`. -/
def unsorted (s : Interface) (r : Received) : Unsorted :=
  let mode := if r.bfi then 15 else frameType r.header
  mimeUnsorting (memory r.data r.after) s.iInputSampleBuf mode true s.prevMode

/-- `RX_NO_DATA` or `RX_SPEECH_LOST`. -/
def Unsorted.Lost (u : Unsorted) : Prop := u.frameType = .noData ∨ u.frameType = .speechLost

instance (u : Unsorted) : Decidable u.Lost := inferInstanceAs (Decidable (_ ∨ _))

/-- `D_IF_decode`. -/
def dIfDecode (s : Interface) (r : Received) : Option (Sound × Interface) := do
  let u := unsorted s r
  -- `mode`, which is also the new `mode_old`
  let mode := if u.Lost then s.modeOld else u.mode
  let resetFlag ← (if u.Lost then some false
    else if s.resetFlagOld then homingFrameTestFirst u.bits mode else some s.resetFlag)
  let (sound, st) ← (if resetFlag ∧ s.resetFlagOld then some (.homing, s.st)
    else pvDecoderAmrWb mode u.bits u.frameType r.codes s.st)
  let resetFlag ← (if ¬s.resetFlagOld then homingFrameTest u.bits mode else some resetFlag)
  let st := if resetFlag then pvDecoderAmrWbReset else st
  some (sound, ⟨st, u.bits, u.mode, mode, resetFlag, resetFlag⟩)

/-- The calls that `Decoder.Decode` makes: the frame has the size that its header asks for. -/
def Received.Valid (r : Received) : Prop := frameSize r.header = (r.data.length + 1, true)

instance (r : Received) : Decidable r.Valid := inferInstanceAs (Decidable (_ = _))

/-- The decoder; what is put out is the frame and what it is decoded to. -/
def decoderSystem : System Interface Received Sound where
  init s := ∃ bits, bits.length = kamrwbNbBitsMax ∧ s = dIfInit bits
  step s r := if r.Valid then (dIfDecode s r).map fun (sound, s) => (s, [sound]) else none

/-- A step is a call. -/
theorem decoderSystem_step {s s' : Interface} {r : Received} {sound : Sound} (hv : r.Valid)
    (hd : dIfDecode s r = some (sound, s')) : decoderSystem.step s r = some (s', [sound]) := by
  simp only [decoderSystem, if_pos hv, hd, Option.map_some]

/-- Frames that are not valid are no steps. -/
theorem valid_of_step {s t : Interface} {r : Received} {out : List Sound} (h : decoderSystem.step s r = some (t, out)) :
    r.Valid := by
  by_contra hv
  simp only [decoderSystem, if_neg hv, reduceCtorEq] at h

/-! ## Invariants -/

/-- What holds between two frames. -/
structure DecoderOk (st : DecoderState) : Prop where
  dtx : DtxOk st.dtx
  state : st.state ≤ 6
  vadHist : 0 ≤ st.vadHist ∧ st.vadHist ≤ max16
  decGain : GainOk 0 st.decGain
  lagHist : HistIn pitMin pitMax st.lagHist
  oldT0 : pitMin ≤ st.oldT0 ∧ st.oldT0 ≤ pitMax

/-- A subframe that the excitation buffer has room for, without gains in a bad frame. -/
def SubframeOut.Ok (bfi : Bool) (o : SubframeOut) : Prop :=
  o.lag.InRange ∧ (bfi = true → o.gainPit = 0 ∧ o.gainCod = 0)

/-- After `k` rounds of the loop over the subframes. -/
structure LoopOk (bfi : Bool) (st : DecoderState) (k : Nat) (s : SubframeLoop) : Prop where
  decGain : GainOk (if bfi then k else 0) s.st.decGain
  lagHist : HistIn pitMin pitMax s.st.lagHist
  oldT0 : pitMin ≤ s.st.oldT0 ∧ s.st.oldT0 ≤ pitMax
  window : k ≠ 0 → pitMin ≤ s.t0Min ∧ s.t0Min + 15 ≤ pitMax
  length : s.out.length = k
  out : ∀ o ∈ s.out, o.Ok bfi
  frame : s.st.dtx = st.dtx ∧ s.st.state = st.state ∧ s.st.prevBfi = st.prevBfi ∧ s.st.vadHist = st.vadHist

section Subframes

variable {nbBits : Nat} {bfi unusableFrame : Bool} {codes : Nat → CodeGain} {st : DecoderState}

theorem histIn_cons {lagHist : List Int} {lo hi t0 : Int} (h : HistIn lo hi lagHist) (ht : lo ≤ t0 ∧ t0 ≤ hi) :
    HistIn lo hi (t0 :: lagHist.take 4) := by
  intro i hi'
  cases i with
  | zero => exact ht
  | succ i =>
    have hi4 : i < 4 := Nat.lt_of_succ_lt_succ hi'
    have hget : (t0 :: lagHist.take 4).getD (i + 1) 0 = lagHist.getD i 0 := by
      rw [List.getD_cons_succ, List.getD_eq_getElem?_getD, List.getD_eq_getElem?_getD, List.getElem?_take_of_lt hi4]
    rw [hget]
    exact h i (Nat.lt_of_lt_of_le hi4 (by decide))

/-- The lag of a subframe is one that the buffer has room for, also where it is made up. -/
theorem subframeLag_spec {iSubfr index k : Nat} {s : SubframeLoop} (h : LoopOk bfi st k s)
    (hk : k = 0 → pitFlag nbBits iSubfr = 0) (hi : index < 2 ^ lagWidth nbBits iSubfr) :
    (subframeLag nbBits iSubfr bfi unusableFrame s.st s.t0Min index).1.InRange ∧
    (pitMin ≤ (subframeLag nbBits iSubfr bfi unusableFrame s.st s.t0Min index).2.1 ∧
      (subframeLag nbBits iSubfr bfi unusableFrame s.st s.t0Min index).2.1 + 15 ≤ pitMax) ∧
    ∃ seed3, (subframeLag nbBits iSubfr bfi unusableFrame s.st s.t0Min index).2.2 = { s.st with seed3 } := by
  obtain ⟨hlag, hwin⟩ := @decodeLag_range nbBits iSubfr s.t0Min
    (fun hp => h.window fun hz => hp (hk hz)) index hi
  cases bfi with
  | false => exact ⟨hlag, hwin, s.st.seed3, rfl⟩
  | true =>
    have hrange := @lagconceal_range s.st.decGain.pbuf2 s.st.lagHist _ s.st.oldT0 s.st.seed3 pitMin pitMax h.lagHist
      unusableFrame (fun _ => ⟨hlag.1, hlag.2.1⟩)
    exact ⟨⟨hrange.1, hrange.2, Int.le_refl 0, (by decide : (0 : Int) < 4)⟩, hwin, _, rfl⟩

/-- **A round of the loop.** -/
theorem loopOk_subframe {iSubfr k : Nat} {s : SubframeLoop} {p : Subframe} (h : LoopOk bfi st k s) (hk4 : k < 4)
    (hk : k = 0 → pitFlag nbBits iSubfr = 0) (hp : p.index < 2 ^ lagWidth nbBits iSubfr) :
    LoopOk bfi st (k + 1) (decodeSubframe nbBits bfi unusableFrame codes s (iSubfr, p)) := by
  obtain ⟨hlag, hwin, seed3, hst⟩ := @subframeLag_spec nbBits bfi unusableFrame st iSubfr p.index k s h hk hp
  rw [decodeSubframe]
  generalize subframeLag nbBits iSubfr bfi unusableFrame s.st s.t0Min p.index = r at *
  obtain ⟨lag, t0Min, st'⟩ := r
  dsimp only at hlag hwin hst ⊢
  subst hst
  cases bfi with
  | true =>
    obtain ⟨hzero, hgain⟩ := @faded_bad s.st.decGain p.gainIndex (if nbBits ≤ nbbits9k then 6 else 7) k s.st.state
      (codes iSubfr) s.st.prevBfi unusableFrame s.st.vadHist h.decGain hk4
    refine ⟨hgain, h.lagHist, h.oldT0, fun _ => hwin, by simp [h.length], fun o ho => ?_, h.frame⟩
    rcases List.mem_append.mp ho with ho | ho
    · exact h.out o ho
    · rw [List.mem_singleton.mp ho]
      exact ⟨hlag, fun _ => ⟨congrArg Prod.fst hzero, congrArg Prod.snd hzero⟩⟩
  | false =>
    have hgain := @faded_good s.st.decGain p.gainIndex (if nbBits ≤ nbbits9k then 6 else 7) s.st.state (codes iSubfr)
      s.st.prevBfi unusableFrame s.st.vadHist h.decGain
    refine ⟨hgain, histIn_cons h.lagHist ⟨hlag.1, hlag.2.1⟩, ⟨hlag.1, hlag.2.1⟩, fun _ => hwin, by simp [h.length],
      fun o ho => ?_, h.frame⟩
    rcases List.mem_append.mp ho with ho | ho
    · exact h.out o ho
    · rw [List.mem_singleton.mp ho]
      exact ⟨hlag, fun hb => absurd hb Bool.false_ne_true⟩

/-- After the last subframe the histories are as they were between the frames before. -/
theorem LoopOk.gainOk {s : SubframeLoop} (h : LoopOk bfi st 4 s) : GainOk 0 s.st.decGain := by
  have hgain := h.decGain
  cases bfi
  · exact hgain
  · exact gainOk_four hgain

/-- **The subframes of a frame.** -/
theorem loopOk_subframes {p : Params} (h : DecoderOk st) (hp : p.Fits nbBits unusableFrame) :
    LoopOk bfi st 4 (decodeSubframes nbBits bfi unusableFrame codes st p.subframes) := by
  have hstart : LoopOk bfi st 0 ⟨st, 0, []⟩ := by
    refine ⟨?_, h.lagHist, h.oldT0, fun hk => absurd rfl hk, rfl, fun o ho => absurd ho List.not_mem_nil,
      rfl, rfl, rfl, rfl⟩
    cases bfi
    · exact h.decGain
    · exact h.decGain
  obtain ⟨vadFlag, ind, subframes⟩ := p
  have hsub := hp.subframes
  match subframes, hsub with
  | [p0, p1, p2, p3], .cons h0 (.cons h1 (.cons h2 (.cons h3 .nil))) =>
    have hnext := fun {k iSubfr s p} (hs : LoopOk bfi st (k + 1) s) (hk : k + 1 < 4)
        (hf : Subframe.Fits nbBits unusableFrame iSubfr p) => @loopOk_subframe nbBits bfi unusableFrame codes st iSubfr
      (k + 1) s p hs hk (fun hz => absurd hz (Nat.succ_ne_zero k)) hf.index
    exact hnext (hnext (hnext (loopOk_subframe hstart (by decide) (fun _ => by simp [pitFlag]) h0.index) (by decide) h1)
      (by decide) h2) (by decide) h3

end Subframes

/-! ## Frames -/

/-- New parameters arrive just as the old ones have become too old. -/
def UpdateTooLate (st : DecoderState) (frameType : FrameType) : Prop :=
  frameType = .sidUpdate ∧ st.dtx.sinceLastSid = dtxMaxEmptyThresh

/-- What a frame is decoded to is well formed. -/
def Sound.Ok (st : DecoderState) (frameType : FrameType) : Sound → Prop
  | .homing => True
  | .noise newState out => newState = (rxAmrWbDtxHandler st.dtx frameType).1 ∧ (0 ≤ out.intFac ∧ out.intFac ≤ 1024) ∧
      ((∀ d ∈ out.divisions, Divides d) ↔ ¬UpdateTooLate st frameType)
  | .speech _ bfi _ out => out.length = 4 ∧ ∀ o ∈ out, o.Ok bfi

section Frames

variable {mode : Nat} {bits : List Bool} {frameType : FrameType} {codes : Nat → CodeGain} {st : DecoderState}

theorem decoderOk_reset : DecoderOk pvDecoderAmrWbReset where
  dtx := dtxOk_reset
  state := by decide
  vadHist := by decide
  decGain := gainOk_init
  lagHist := by
    intro i hi
    revert i
    decide
  oldT0 := by decide

theorem badFrameState_le (h : st.state ≤ 6) (bfi : Bool) : (badFrameState st bfi).1 ≤ 6 := by
  have hshift : st.state >>> 1 = st.state / 2 := Nat.shiftRight_one _
  rw [badFrameState, hshift]
  cases st.dtx.dtxGlobalState <;> dsimp only
  · split
    · split <;> omega
    · omega
  · decide
  · decide

/-- The state in which the subframes of a frame of speech are decoded. -/
theorem decoderOk_ready (h : DecoderOk st) (frameType : FrameType) (vadFlag : Nat) : DecoderOk
    { st with
      state := (badFrameState st (frameFlags frameType).1).1
      prevBfi := (badFrameState st (frameFlags frameType).1).2
      vadHist :=
        if (frameFlags frameType).1 then st.vadHist else if vadFlag = 0 then addInt16 st.vadHist 1 else 0 } := by
  refine ⟨h.dtx, badFrameState_le h.state _, ?_, h.decGain, h.lagHist, h.oldT0⟩
  dsimp only
  split
  · exact h.vadHist
  · split
    · obtain ⟨h₀, h₁⟩ := h.vadHist
      rw [addInt16_one h₀ h₁]
      simp only [max16]
      omega
    · decide

theorem sid_fits (hbits : bits.length = kamrwbNbBitsMax) : ∃ sid, readSid.run bits = some (sid, bits.drop nbbitsSID) := by
  have hlen : nbbitsSID ≤ bits.length := by rw [hbits]; decide
  obtain ⟨sid, -, -, hr⟩ := reads_sid.exists_read hlen
  exact ⟨sid, hr⟩

/-- What is read of a frame of noise is in the buffer. -/
theorem exists_dtxDec (hbits : bits.length = kamrwbNbBitsMax) (dtx : DtxState) (newState : SynState) :
    ∃ dtx' out rest, (dtxDecAmrWb dtx newState).run bits = some ((dtx', out), rest) := by
  obtain ⟨sid, hr⟩ := sid_fits hbits
  rw [dtxDecAmrWb]
  split
  · rw [StateT.run_bind, hr]
    exact ⟨_, _, _, rfl⟩
  · exact ⟨_, _, _, rfl⟩

theorem pvDecoder_speech (hn : (rxAmrWbDtxHandler st.dtx frameType).1 = .speech) :
    pvDecoderAmrWb mode bits frameType codes st = ((readFrame (nbBitsOf mode) (frameFlags frameType).2).run bits).map
      fun x => decodeSpeech mode frameType codes st x.1 :=
  if_neg (not_not.mpr hn)

theorem pvDecoder_noise (hn : (rxAmrWbDtxHandler st.dtx frameType).1 ≠ .speech) :
    pvDecoderAmrWb mode bits frameType codes st = ((dtxDecAmrWb (rxAmrWbDtxHandler st.dtx frameType).2
      (rxAmrWbDtxHandler st.dtx frameType).1).run bits).map fun x => decodeNoise frameType st x.1.1 x.1.2 :=
  if_pos hn

/-- **A frame** is decoded from the buffer only, whatever its type, and keeps the invariant. -/
theorem decoderOk_frame (h : DecoderOk st) (hm : mode < numOfSpmodes) (hbits : bits.length = kamrwbNbBitsMax) :
    ∃ sound st', pvDecoderAmrWb mode bits frameType codes st = some (sound, st') ∧ DecoderOk st' ∧
      sound.Ok st frameType := by
  have hstate := badFrameState_le h.state (frameFlags frameType).1
  by_cases hn : (rxAmrWbDtxHandler st.dtx frameType).1 = .speech
  · obtain ⟨p, rest, hp, hr⟩ := exists_readFrame hm hbits (frameFlags frameType).2
    have hready := decoderOk_ready h frameType p.vadFlag
    have hloop := @loopOk_subframes (amrWbCompressed.getD mode 0) (frameFlags frameType).1 (frameFlags frameType).2 codes
      _ p hready hp
    refine ⟨_, _, (pvDecoder_speech hn).trans (congrArg (Option.map _) hr), ?_, hloop.length, hloop.out⟩
    obtain ⟨-, hs, -, hv⟩ := hloop.frame
    have hdtx := dtxOk_speech h.dtx hn
    rw [← hn] at hdtx
    exact ⟨hdtx, hs ▸ hready.state, hv ▸ hready.vadHist, hloop.gainOk, hloop.lagHist, hloop.oldT0⟩
  · obtain ⟨dtx', out, rest, hr⟩ := exists_dtxDec hbits (rxAmrWbDtxHandler st.dtx frameType).2
      (rxAmrWbDtxHandler st.dtx frameType).1
    obtain ⟨hdtx, hfac, hdiv⟩ := dtxOk_noise h.dtx hn hr
    refine ⟨_, _, (pvDecoder_noise hn).trans (congrArg (Option.map _) hr), ?_, rfl, hfac, hdiv⟩
    have hlag : pitMin ≤ 64 ∧ (64 : Int) ≤ pitMax := by decide
    exact ⟨hdtx, hstate, h.vadHist, h.decGain, h.lagHist, hlag⟩

end Frames

/-! ## Runs -/

/-- What holds between two calls. -/
structure InterfaceOk (s : Interface) : Prop where
  st : DecoderOk s.st
  buffer : s.iInputSampleBuf.length = kamrwbNbBitsMax
  prevMode : s.prevMode < numOfSpmodes
  modeOld : s.modeOld = s.prevMode
  /-- After a homing frame the decoder is like a new one. -/
  homed : s.resetFlagOld = true → s.st = pvDecoderAmrWbReset

section Runs

variable {s : Interface} {r : Received}

theorem interfaceOk_init {bits : List Bool} (hbits : bits.length = kamrwbNbBitsMax) : InterfaceOk (dIfInit bits) :=
  ⟨decoderOk_reset, hbits, Nat.zero_lt_succ 8, rfl, fun _ => rfl⟩

/-- The frame type for a mode, which is 15 for a frame that is marked as bad. -/
theorem unsorted_type (s : Interface) (r : Received) : ((unsorted s r).frameType, (unsorted s r).mode) =
    if (if r.bfi then 15 else Amrwb.frameType r.header) < numOfSpmodes then
      (.speechGood, if r.bfi then 15 else Amrwb.frameType r.header)
    else if (if r.bfi then 15 else Amrwb.frameType r.header) = mrsid then
      (if dataBit (memory r.data r.after) 35 then .sidUpdate else .sidFirst, s.prevMode)
    else if (if r.bfi then 15 else Amrwb.frameType r.header) = 14 then (.speechLost, s.prevMode)
    else (.noData, s.prevMode) :=
  mimeUnsorting_type

/-- A frame that is not one of speech is decoded in the mode of the last frame. -/
theorem unsorted_cases (s : Interface) (r : Received) :
    ((if r.bfi then 15 else Amrwb.frameType r.header) < numOfSpmodes ∧ (unsorted s r).frameType = .speechGood ∧
      (unsorted s r).mode = if r.bfi then 15 else Amrwb.frameType r.header) ∨
    (¬(if r.bfi then 15 else Amrwb.frameType r.header) < numOfSpmodes ∧ (unsorted s r).frameType ≠ .speechGood ∧
      (unsorted s r).frameType ≠ .speechBad ∧ (unsorted s r).mode = s.prevMode) := by
  have htype := congrArg Prod.fst (unsorted_type s r)
  have hmode := congrArg Prod.snd (unsorted_type s r)
  dsimp only at htype hmode
  generalize (if r.bfi then 15 else Amrwb.frameType r.header) = m at *
  by_cases hm : m < numOfSpmodes
  · rw [if_pos hm] at htype hmode
    exact .inl ⟨hm, htype, hmode⟩
  · rw [if_neg hm] at htype hmode
    refine .inr ⟨hm, ?_, ?_, ?_⟩
    · rw [htype]
      repeat' split
      all_goals simp
    · rw [htype]
      repeat' split
      all_goals simp
    · rw [hmode]
      repeat' split
      all_goals rfl

theorem unsorted_mode (h : InterfaceOk s) : (unsorted s r).mode < numOfSpmodes := by
  rcases unsorted_cases s r with ⟨hm, -, he⟩ | ⟨-, -, -, he⟩
  · exact he ▸ hm
  · exact he ▸ h.prevMode

/-- The mode of the decoder is the one that `mime_unsorting` leaves, also for a lost frame. -/
theorem decode_mode (h : InterfaceOk s) : (if (unsorted s r).Lost then s.modeOld else (unsorted s r).mode) =
    (unsorted s r).mode := by
  split
  · next hl =>
    rcases unsorted_cases s r with ⟨-, ht, -⟩ | ⟨-, -, -, he⟩
    · rcases hl with hl | hl <;> rw [ht] at hl <;> cases hl
    · rw [he, h.modeOld]
  · rfl

theorem length_unsorted (h : InterfaceOk s) : (unsorted s r).bits.length = kamrwbNbBitsMax := length_buffer h.buffer true

/-- What a call leaves, from the outcomes of the two tests and of the decoder. -/
def decodeResult (s : Interface) (u : Unsorted) (first whole : Bool) (decoded : Sound × DecoderState) :
    Sound × Interface :=
  let resetFlag := if u.Lost then false else if s.resetFlagOld then first else s.resetFlag
  let x := if resetFlag ∧ s.resetFlagOld then (.homing, s.st) else decoded
  let resetFlag := if ¬s.resetFlagOld then whole else resetFlag
  (x.1, ⟨if resetFlag then pvDecoderAmrWbReset else x.2, u.bits, u.mode, u.mode, resetFlag, resetFlag⟩)

/-- **A call** reads the buffer only. -/
theorem decode_eq (h : InterfaceOk s) (r : Received) : ∃ first whole sound st',
    homingFrameTestFirst (unsorted s r).bits (unsorted s r).mode = some first ∧
    homingFrameTest (unsorted s r).bits (unsorted s r).mode = some whole ∧
    pvDecoderAmrWb (unsorted s r).mode (unsorted s r).bits (unsorted s r).frameType r.codes s.st = some (sound, st') ∧
    DecoderOk st' ∧ sound.Ok s.st (unsorted s r).frameType ∧
    dIfDecode s r = some (decodeResult s (unsorted s r) first whole (sound, st')) := by
  have hbits := @length_unsorted s r h
  have hm := @decode_mode s r h
  obtain ⟨⟨whole, hwhole, -⟩, first, hfirst, -⟩ := @homingFrameTest_congr (unsorted s r).mode
    (unsorted s r).bits (unsorted s r).bits (unsorted_mode h) (hbits ▸ size_le_buffer _) rfl
  obtain ⟨sound, st', hdec, hst, hsound⟩ := decoderOk_frame h.st (@unsorted_mode s r h) hbits
  refine ⟨first, whole, sound, st', hfirst, hwhole, hdec, hst, hsound, ?_⟩
  have hif : ∀ (c : Prop) [Decidable c] {α : Type} (x y : α),
      (if c then some x else some y) = some (if c then x else y) :=
    fun c _ _ x y => by split <;> rfl
  simp only [dIfDecode, hm, hfirst, hwhole, hdec, hif, bind_eq rfl]
  rfl

/-- A call keeps the invariant. -/
theorem interfaceOk_decode (h : InterfaceOk s) (r : Received) : ∃ sound s', dIfDecode s r = some (sound, s') ∧
    InterfaceOk s' ∧ sound.Ok s.st (unsorted s r).frameType := by
  obtain ⟨first, whole, sound, st', -, -, -, hst, hsound, hd⟩ := decode_eq h r
  refine ⟨(decodeResult s (unsorted s r) first whole (sound, st')).1,
    (decodeResult s (unsorted s r) first whole (sound, st')).2, hd,
    ⟨?_, length_unsorted h, unsorted_mode h, rfl, fun hf => if_pos hf⟩, ?_⟩
  · simp only [decodeResult]
    repeat' split
    all_goals first | exact decoderOk_reset | exact h.st | exact hst
  · simp only [decodeResult]
    repeat' split
    all_goals first | exact hsound | trivial

end Runs

end Talk2Text.Amrwb
