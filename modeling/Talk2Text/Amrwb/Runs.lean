import Talk2Text.Amrwb.Interface

/-!
# Runs of the vendored decoder

What holds of every call, whatever was decoded before.

- `pitch_prediction`: the pitch vectors of every subframe are interpolated within the excitation buffer;
- `lost_frame_silent`: a lost frame of speech is decoded to no excitation at all, because the medians are zero;
- `comfort_noise`: the state of the synthesis, and how the noise is interpolated;
- `homing_forgets`: after a homing frame nothing depends on what was decoded before it.
-/

namespace Talk2Text.Amrwb

open Format Sys

section Calls

variable {s : Interface} {r : Received}

theorem interfaceOk_reachable (hs : Reachable decoderSystem s) : InterfaceOk s := by
  refine hs.induction (fun s hi => ?_) (fun s r t out _ h hstep => ?_)
  · obtain ⟨bits, hbits, rfl⟩ := hi
    exact interfaceOk_init hbits
  · obtain ⟨sound, s', hd, hok, -⟩ := interfaceOk_decode h r
    rw [decoderSystem_step (valid_of_step hstep) hd] at hstep
    cases hstep
    exact hok

/-- **A call** is a step of the system, and does what it should. -/
theorem exists_step (hs : Reachable decoderSystem s) (hv : r.Valid) : ∃ sound s',
    dIfDecode s r = some (sound, s') ∧ decoderSystem.step s r = some (s', [sound]) ∧ InterfaceOk s' ∧
      sound.Ok s.st (unsorted s r).frameType := by
  obtain ⟨sound, s', hd, hok, hsound⟩ := interfaceOk_decode (interfaceOk_reachable hs) r
  exact ⟨sound, s', hd, decoderSystem_step hv hd, hok, hsound⟩

/-- What is in memory behind a frame is not used; for a frame without data its first byte is read. -/
theorem step_after (hv : r.Valid) (after : Nat → UInt8) :
    decoderSystem.step s { r with after } = decoderSystem.step s r := by
  have hu : unsorted s { r with after } = unsorted s r := by
    refine mimeUnsorting_congr fun i hi => ?_
    have hlt : i < r.data.length := by
      have hsize : r.data.length + 1 = frameBytes.getD (Amrwb.frameType r.header) 0 := (congrArg Prod.fst hv).symm
      have hbits : ∀ k < 16, (unpackedSize.getD k 0 + 7) / 8 ≤ frameBytes.getD k 0 - 1 := by decide
      have hnone : (unpackedSize.getD 15 0 + 7) / 8 = 0 := by decide
      dsimp only at hi
      split at hi
      · rw [hnone] at hi
        exact absurd hi (Nat.not_lt_zero i)
      · have := hbits _ (frameType_lt r.header)
        omega
    rw [memory, memory, List.getD_eq_getElem _ _ hlt, List.getD_eq_getElem _ _ hlt]
  have hdecode : dIfDecode s { r with after } = dIfDecode s r := by
    rw [dIfDecode, dIfDecode, hu]
  have hvalid : ({ r with after } : Received).Valid := hv
  simp only [decoderSystem, if_pos hv, if_pos hvalid, hdecode]

/-- **Pitch vectors.** A call of `D_IF_decode` reads its parameters within their buffer and does the same whatever is in
memory behind the frame, and where it decodes speech, the pitch vector of each subframe is that of interpolating one
sample after the other, whatever the excitation is: every access of `Pred_lt4` is within the excitation buffer, and no
sum overflows. -/
theorem pitch_prediction (hs : Reachable decoderSystem s) (hv : r.Valid) : ∃ sound s',
    decoderSystem.step s r = some (s', [sound]) ∧
    (∀ after, decoderSystem.step s { r with after } = some (s', [sound])) ∧
    ∀ nbBits bfi params out, sound = .speech nbBits bfi params out →
      out.length = subframeStarts.length ∧ ∀ iSubfr o, (iSubfr, o) ∈ subframeStarts.zip out → ∀ array : List Int,
        array.length = excHistory + 4 * lSubfr + 1 → (∀ v ∈ array, IsInt16 v) →
        predLt4 array (excHistory + iSubfr : Nat) o.lag.t0 o.lag.t0Frac (lSubfr + 1) =
          some (predicted array (excHistory + iSubfr) (excHistory + iSubfr - o.lag.reach) o.lag.taps (lSubfr + 1)) := by
  obtain ⟨sound, s', -, hstep, -, hsound⟩ := exists_step hs hv
  refine ⟨sound, s', hstep, fun after => (step_after hv after).trans hstep, ?_⟩
  rintro nbBits bfi params out rfl
  obtain ⟨hlen, hout⟩ := hsound
  refine ⟨hlen, fun iSubfr o ho array harr hint => ?_⟩
  obtain ⟨hstart, ho⟩ := List.of_mem_zip ho
  have hstarts : ∀ i ∈ subframeStarts, i ≤ 3 * lSubfr := by decide
  have hle := hstarts iSubfr hstart
  exact predLt4_eq (hout o ho).1 (Nat.le_add_right _ _) (by rw [harr]; omega) hint

/-- A new decoder with a cleared buffer. -/
def cleared : Interface := dIfInit (List.replicate kamrwbNbBitsMax false)

theorem reachable_cleared : Reachable decoderSystem cleared := .init ⟨_, List.length_replicate, rfl⟩

/-- A frame with zeros after it. -/
def received (header : UInt8) (data : List UInt8) : Received := ⟨header, data, fun _ => 0, false, fun _ => ⟨0, 0⟩⟩

theorem pitch_prediction_6600 : ∃ sound s',
    decoderSystem.step cleared (received 0x04 (List.replicate 17 0)) = some (s', [sound]) ∧
    (∀ after, decoderSystem.step cleared { received 0x04 (List.replicate 17 0) with after } = some (s', [sound])) ∧
    ∀ nbBits bfi params out, sound = .speech nbBits bfi params out →
      out.length = subframeStarts.length ∧ ∀ iSubfr o, (iSubfr, o) ∈ subframeStarts.zip out → ∀ array : List Int,
        array.length = excHistory + 4 * lSubfr + 1 → (∀ v ∈ array, IsInt16 v) →
        predLt4 array (excHistory + iSubfr : Nat) o.lag.t0 o.lag.t0Frac (lSubfr + 1) =
          some (predicted array (excHistory + iSubfr) (excHistory + iSubfr - o.lag.reach) o.lag.taps (lSubfr + 1)) :=
  pitch_prediction reachable_cleared (by decide)

/-- A frame that is marked as bad, or has no data, is lost. -/
theorem unsorted_lost (hl : r.bfi = true ∨ 14 ≤ Amrwb.frameType r.header) : (unsorted s r).Lost := by
  have htype := congrArg Prod.fst (unsorted_type s r)
  have hm : 14 ≤ if r.bfi then 15 else Amrwb.frameType r.header := by
    rcases hl with hb | hm
    · rw [if_pos hb]
      decide
    · split
      · decide
      · exact hm
  generalize (if r.bfi then 15 else Amrwb.frameType r.header) = m at *
  have hspeech : ¬m < numOfSpmodes := by simp only [numOfSpmodes]; omega
  have hsid : m ≠ mrsid := by simp only [mrsid]; omega
  dsimp only at htype
  rw [if_neg hspeech, if_neg hsid] at htype
  split at htype
  · exact .inr htype
  · exact .inl htype

/-- A lost frame goes to the decoder, also after a homing frame. -/
theorem decode_lost (hl : (unsorted s r).Lost) {sound : Sound} {s' : Interface}
    (hd : dIfDecode s r = some (sound, s')) :
    ∃ mode st', pvDecoderAmrWb mode (unsorted s r).bits (unsorted s r).frameType r.codes s.st = some (sound, st') := by
  rw [dIfDecode] at hd
  simp only [if_pos hl] at hd
  rw [bind_eq rfl] at hd
  obtain ⟨⟨sound', st'⟩, hdec, hd⟩ := Option.bind_eq_some_iff.mp hd
  obtain ⟨flag, -, hd⟩ := Option.bind_eq_some_iff.mp hd
  cases hd
  exact ⟨_, _, hdec⟩

/-- A frame that is decoded as speech. -/
theorem sound_speech {mode : Nat} {bits : List Bool} {frameType : FrameType} {codes : Nat → CodeGain}
    {st st' : DecoderState} {sound : Sound} (hn : (rxAmrWbDtxHandler st.dtx frameType).1 = .speech)
    (hd : pvDecoderAmrWb mode bits frameType codes st = some (sound, st')) :
    ∃ params out, sound = .speech (amrWbCompressed.getD mode 0) (frameFlags frameType).1 params out := by
  rw [pvDecoder_speech hn] at hd
  obtain ⟨⟨params, rest⟩, -, hd⟩ := Option.map_eq_some_iff.mp hd
  cases hd
  exact ⟨_, _, rfl⟩

/-- **Lost frames.** The histories of the gains hold at most two gains that are not zero, so their medians are zero; and
a frame of speech that is lost is decoded to no excitation: both gains of each of its subframes are zero, and nothing of
the pitch vector, or of the code, is left, neither for the subframes after it nor for the synthesis. -/
theorem lost_frame_silent (hs : Reachable decoderSystem s) (hv : r.Valid)
    (hl : r.bfi = true ∨ 14 ≤ Amrwb.frameType r.header) (hg : s.st.dtx.dtxGlobalState = .speech) :
    (∀ buf ∈ [s.st.decGain.pbuf, s.st.decGain.gbuf], buf.countP (· ≠ 0) ≤ 2 ∧ median5 buf = 0) ∧
    ∃ nbBits params out s', decoderSystem.step s r = some (s', [.speech nbBits true params out]) ∧
      out.length = subframeStarts.length ∧ ∀ o ∈ out, o.gainPit = 0 ∧ o.gainCod = 0 ∧ ∀ v : Vectors,
        ∃ exc exc2, excitation nbBits o.gainPit o.gainCod v = some (exc, exc2) ∧
          (∀ x ∈ exc, x = 0) ∧ ∀ x ∈ exc2, x = 0 := by
  have hgain := (interfaceOk_reachable hs).st.decGain
  refine ⟨List.forall_mem_cons.mpr ⟨⟨countP_faded hgain.pbuf, median5_faded hgain.pbuf⟩,
    List.forall_mem_singleton.mpr ⟨countP_faded hgain.gbuf, median5_faded hgain.gbuf⟩⟩, ?_⟩
  obtain ⟨sound, s', hd, hstep, -, hsound⟩ := exists_step hs hv
  have hlost := @unsorted_lost s r hl
  obtain ⟨mode, st', hdec⟩ := decode_lost hlost hd
  have hn : (rxAmrWbDtxHandler s.st.dtx (unsorted s r).frameType).1 = .speech := by
    rw [handler_fields.1, newSynState]
    rcases hlost with ht | ht <;> simp [ht, hg]
  have hbfi : (frameFlags (unsorted s r).frameType).1 = true := by
    rcases hlost with ht | ht <;> rw [ht] <;> rfl
  obtain ⟨params, out, rfl⟩ := sound_speech hn hdec
  rw [hbfi] at hstep hsound
  obtain ⟨hlen, hout⟩ := hsound
  refine ⟨_, params, out, s', hstep, hlen, fun o ho => ?_⟩
  obtain ⟨hpit, hcod⟩ := (hout o ho).2 rfl
  rw [hpit, hcod]
  exact ⟨rfl, rfl, excitation_silent _⟩

theorem lost_frame_silent_first :
    (∀ buf ∈ [cleared.st.decGain.pbuf, cleared.st.decGain.gbuf], buf.countP (· ≠ 0) ≤ 2 ∧ median5 buf = 0) ∧
    ∃ nbBits params out s',
      decoderSystem.step cleared (received 0x7C []) = some (s', [.speech nbBits true params out]) ∧
      out.length = subframeStarts.length ∧ ∀ o ∈ out, o.gainPit = 0 ∧ o.gainCod = 0 ∧ ∀ v : Vectors,
        ∃ exc exc2, excitation nbBits o.gainPit o.gainCod v = some (exc, exc2) ∧
          (∀ x ∈ exc, x = 0) ∧ ∀ x ∈ exc2, x = 0 :=
  lost_frame_silent reachable_cleared (by decide) (.inr (by decide)) rfl

/-- **Comfort noise.** A frame of noise is interpolated with a factor between zero and one. The state of the synthesis
is the one of the table in the source, where a lost frame of speech counts as one without data, and the divisions are
ones that `div_16by16` makes, unless new parameters arrive just as the old ones have become too old: then neither is
so. -/
theorem comfort_noise (hs : Reachable decoderSystem s) (hv : r.Valid) : ∃ sound s',
    decoderSystem.step s r = some (s', [sound]) ∧ ∀ newState out, sound = .noise newState out →
      (0 ≤ out.intFac ∧ out.intFac ≤ 1024) ∧
      (newState = newStateTable (s.st.dtx.sinceLastSid = dtxMaxEmptyThresh) s.st.dtx.dtxGlobalState
        (unsorted s r).frameType ↔ ¬UpdateTooLate s.st (unsorted s r).frameType) ∧
      ((∀ d ∈ out.divisions, Divides d) ↔ ¬UpdateTooLate s.st (unsorted s r).frameType) := by
  obtain ⟨sound, s', -, hstep, -, hsound⟩ := exists_step hs hv
  refine ⟨sound, s', hstep, ?_⟩
  rintro newState out rfl
  obtain ⟨hnew, hfac, hdiv⟩ := hsound
  refine ⟨hfac, ?_, hdiv⟩
  have hbad : (unsorted s r).frameType ≠ .speechBad := by
    rcases unsorted_cases s r with ⟨-, ht, -⟩ | ⟨-, -, ht, -⟩
    · rw [ht]
      decide
    · exact ht
  rw [hnew, handler_table (interfaceOk_reachable hs).st.dtx]
  simp [UpdateTooLate, hbad]

/-- The first frame of a pause is decoded to noise. -/
theorem comfort_noise_first : ∃ out s',
    decoderSystem.step cleared (received 0x4C (List.replicate 5 0)) = some (s', [.noise .dtx out]) ∧
      (0 ≤ out.intFac ∧ out.intFac ≤ 1024) ∧
      (.dtx = newStateTable (cleared.st.dtx.sinceLastSid = dtxMaxEmptyThresh) cleared.st.dtx.dtxGlobalState
          (unsorted cleared (received 0x4C (List.replicate 5 0))).frameType ↔
        ¬UpdateTooLate cleared.st (unsorted cleared (received 0x4C (List.replicate 5 0))).frameType) ∧
      ((∀ d ∈ out.divisions, Divides d) ↔
        ¬UpdateTooLate cleared.st (unsorted cleared (received 0x4C (List.replicate 5 0))).frameType) := by
  obtain ⟨sound, s', hstep, hnoise⟩ := comfort_noise (r := received 0x4C (List.replicate 5 0)) reachable_cleared
    (by decide)
  have hsound : (decoderSystem.step cleared (received 0x4C (List.replicate 5 0))).map Prod.snd =
      some [.noise .dtx ⟨256, []⟩] := by decide +kernel
  rw [hstep] at hsound
  cases hsound
  exact ⟨_, s', hstep, hnoise _ _ rfl⟩

end Calls

/-! ## Homing -/

/-- Two decoders that decode alike: the buffers may differ beyond the bits of the mode. -/
structure Alike (s s' : Interface) : Prop where
  st : s.st = s'.st
  prevMode : s.prevMode = s'.prevMode
  buffer : s.iInputSampleBuf.take (unpackedSize.getD s.prevMode 0) =
    s'.iInputSampleBuf.take (unpackedSize.getD s.prevMode 0)
  resetFlag : s.resetFlag = s'.resetFlag
  resetFlagOld : s.resetFlagOld = s'.resetFlagOld

section Alike

variable {s s' : Interface} {r : Received} {bits bits' : List Bool} {mode : Nat}

theorem getElem?_of_take {n k : Nat} (h : bits.take n = bits'.take n) (hk : k < n) : bits[k]? = bits'[k]? := by
  rw [← List.getElem?_take_of_lt hk, h, List.getElem?_take_of_lt hk]

/-- What `mime_unsorting` leaves is alike. -/
theorem unsorted_congr (hb : s.iInputSampleBuf.length = kamrwbNbBitsMax)
    (hb' : s'.iInputSampleBuf.length = kamrwbNbBitsMax) (hp : s.prevMode = s'.prevMode)
    (h : ¬(if r.bfi then 15 else Amrwb.frameType r.header) < numOfSpmodes →
      s.iInputSampleBuf.take (unpackedSize.getD s.prevMode 0) =
        s'.iInputSampleBuf.take (unpackedSize.getD s.prevMode 0)) :
    (unsorted s r).frameType = (unsorted s' r).frameType ∧ (unsorted s r).mode = (unsorted s' r).mode ∧
      (unsorted s r).bits.take (unpackedSize.getD (unsorted s r).mode 0) =
        (unsorted s' r).bits.take (unpackedSize.getD (unsorted s r).mode 0) := by
  have htype := (unsorted_type s r).trans (hp ▸ (unsorted_type s' r).symm)
  refine ⟨congrArg Prod.fst htype, congrArg Prod.snd htype, ?_⟩
  refine mimeUnsorting_take (hb.trans hb'.symm) (fun k hk hsize => ?_) (hb ▸ size_le_buffer _)
  rcases unsorted_cases s r with ⟨-, -, hmode⟩ | ⟨hm, -, -, hmode⟩
  · -- all these bits are of the frame
    rw [hmode] at hk
    exact absurd hk (Nat.not_lt.mpr hsize)
  · rw [hmode] at hk
    exact getElem?_of_take (h hm) hk

/-- The decoder reads the bits of its mode only. -/
theorem pvDecoder_congr (hm : mode < numOfSpmodes) (hbits : bits.length = kamrwbNbBitsMax)
    (hb : bits.take (unpackedSize.getD mode 0) = bits'.take (unpackedSize.getD mode 0)) (frameType : FrameType)
    (codes : Nat → CodeGain) (st : DecoderState) :
    pvDecoderAmrWb mode bits frameType codes st = pvDecoderAmrWb mode bits' frameType codes st := by
  have hsize := size_le_buffer mode
  rw [← hbits] at hsize
  obtain ⟨hspeech, hlost, hnb⟩ := size_speech hm
  have hsid : nbbitsSID ≤ unpackedSize.getD mode 0 := by
    clear hb hsize hspeech hlost hnb
    revert mode
    decide
  by_cases hn : (rxAmrWbDtxHandler st.dtx frameType).1 = .speech
  · have hle : frameSizeBits (nbBitsOf mode) (frameFlags frameType).2 ≤ unpackedSize.getD mode 0 := by
      cases (frameFlags frameType).2 <;> omega
    obtain ⟨p, -, hr, hr'⟩ := (reads_frame (nbBitsOf mode) (frameFlags frameType).2).run_congr
      (Nat.le_trans hle hsize) (take_congr hle hb)
    rw [pvDecoder_speech hn, pvDecoder_speech hn, hr, hr']
    rfl
  · obtain ⟨sid, -, hr, hr'⟩ := reads_sid.run_congr (Nat.le_trans hsid hsize) (take_congr hsid hb)
    rw [pvDecoder_noise hn, pvDecoder_noise hn, dtxDecAmrWb]
    by_cases hread : (rxAmrWbDtxHandler st.dtx frameType).2.sidFrame ∧ (rxAmrWbDtxHandler st.dtx frameType).2.validData
    · rw [if_pos hread, StateT.run_bind, StateT.run_bind, hr, hr']
      rfl
    · rw [if_neg hread]
      rfl

/-- **Alike decoders** decode a call alike, and are alike after it. -/
theorem alike_decode (ha : Alike s s') (h : InterfaceOk s) (h' : InterfaceOk s') (r : Received) :
    ∃ sound t t', dIfDecode s r = some (sound, t) ∧ dIfDecode s' r = some (sound, t') ∧ Alike t t' := by
  obtain ⟨htype, hmode, hbits⟩ := @unsorted_congr s s' r h.buffer h'.buffer ha.prevMode fun _ => ha.buffer
  obtain ⟨first, whole, sound, st', hfirst, hwhole, hdec, -, -, hd⟩ := decode_eq h r
  obtain ⟨first', whole', sound', st'', hfirst', hwhole', hdec', -, -, hd'⟩ := decode_eq h' r
  have hsize := size_le_buffer (unsorted s r).mode
  rw [← length_unsorted h (r := r)] at hsize
  obtain ⟨⟨w, hw, hw'⟩, f, hf, hf'⟩ := homingFrameTest_congr (unsorted_mode h) hsize hbits
  rw [← hmode] at hfirst' hwhole' hdec'
  rw [← htype, ← ha.st, ← pvDecoder_congr (unsorted_mode h) (length_unsorted h) hbits] at hdec'
  cases hfirst.symm.trans (hf.trans (hf'.symm.trans hfirst'))
  cases hwhole.symm.trans (hw.trans (hw'.symm.trans hwhole'))
  cases hdec.symm.trans hdec'
  have hlost : (unsorted s r).Lost ↔ (unsorted s' r).Lost := by rw [Unsorted.Lost, Unsorted.Lost, htype]
  have hsound : (decodeResult s' (unsorted s' r) first whole (sound, st')).1 =
      (decodeResult s (unsorted s r) first whole (sound, st')).1 := by
    simp only [decodeResult, hlost, ← ha.resetFlag, ← ha.resetFlagOld, ← ha.st]
  refine ⟨(decodeResult s (unsorted s r) first whole (sound, st')).1,
    (decodeResult s (unsorted s r) first whole (sound, st')).2,
    (decodeResult s' (unsorted s' r) first whole (sound, st')).2, hd, hd'.trans ?_, ?_, hmode, hbits, ?_, ?_⟩
  · rw [← hsound]
  all_goals simp only [decodeResult, hlost, ← ha.resetFlag, ← ha.resetFlagOld, ← ha.st]

end Alike

/-- The frames that are decoded from a state on. -/
def decodeAll (s : Interface) : List Received → Option (List Sound)
  | [] => some []
  | r :: rs => do
    let (s, out) ← decoderSystem.step s r
    let outs ← decodeAll s rs
    some (out ++ outs)

/-- The bits of a frame of speech, in an empty buffer. -/
def Received.bits (r : Received) : List Bool :=
  (mimeUnsorting (memory r.data r.after) (List.replicate kamrwbNbBitsMax false) (frameType r.header) true 0).bits

/-- A homing frame of its mode that is not marked as bad. -/
def Received.Homing (r : Received) : Prop :=
  r.bfi = false ∧ frameType r.header < numOfSpmodes ∧ homingFrameTest r.bits (frameType r.header) = some true

section Homing

variable {s₁ s₂ : Interface} {r : Received}

/-- Alike decoders decode the same from there on. -/
theorem decodeAll_congr {s s' : Interface} (ha : Alike s s') (h : InterfaceOk s) (h' : InterfaceOk s')
    (rs : List Received) (hv : ∀ r ∈ rs, r.Valid) :
    ∃ outs, decodeAll s rs = some outs ∧ decodeAll s' rs = some outs := by
  induction rs generalizing s s' with
  | nil => exact ⟨[], rfl, rfl⟩
  | cons r rs ih =>
    obtain ⟨sound, t, t', hd, hd', hat⟩ := alike_decode ha h h' r
    have hok : ∀ {s t}, InterfaceOk s → dIfDecode s r = some (sound, t) → InterfaceOk t := by
      intro s t h hd
      obtain ⟨_, _, hd₁, hok, -⟩ := interfaceOk_decode h r
      cases hd.symm.trans hd₁
      exact hok
    obtain ⟨outs, ho, ho'⟩ := ih hat (hok h hd) (hok h' hd') fun r hr => hv r (List.mem_cons_of_mem _ hr)
    have hvr := hv r List.mem_cons_self
    refine ⟨[sound] ++ outs, ?_, ?_⟩
    · rw [decodeAll, bind_eq (decoderSystem_step hvr hd)]
      exact bind_eq ho _
    · rw [decodeAll, bind_eq (decoderSystem_step hvr hd')]
      exact bind_eq ho' _

/-- A homing frame sets the decoder back. -/
theorem homing_resets (h : InterfaceOk s₁) (hh : r.Homing) : ∃ sound t, dIfDecode s₁ r = some (sound, t) ∧
    InterfaceOk t ∧ t.st = pvDecoderAmrWbReset ∧ t.prevMode = frameType r.header ∧
    t.iInputSampleBuf.take (unpackedSize.getD t.prevMode 0) = r.bits.take (unpackedSize.getD t.prevMode 0) ∧
    t.resetFlag = true ∧ t.resetFlagOld = true := by
  obtain ⟨hbfi, hlt, htest⟩ := hh
  have hm : (if r.bfi then 15 else frameType r.header) = frameType r.header := by rw [hbfi]; rfl
  obtain ⟨hgood, hmode⟩ : (unsorted s₁ r).frameType = .speechGood ∧ (unsorted s₁ r).mode = frameType r.header := by
    rcases unsorted_cases s₁ r with ⟨-, hg, hmode⟩ | ⟨hno, -⟩
    · exact ⟨hg, hmode.trans hm⟩
    · exact absurd (by rw [hm]; exact hlt) hno
  have hlen := @length_unsorted s₁ r h
  have htake : (unsorted s₁ r).bits.take (unpackedSize.getD (frameType r.header) 0) =
      r.bits.take (unpackedSize.getD (frameType r.header) 0) := by
    have hprev : r.bits = (mimeUnsorting (memory r.data r.after) (List.replicate kamrwbNbBitsMax false)
        (frameType r.header) true s₁.prevMode).bits := by rw [Received.bits, mimeUnsorting_scatter, mimeUnsorting_scatter]
    show (mimeUnsorting (memory r.data r.after) s₁.iInputSampleBuf (if r.bfi then 15 else frameType r.header) true
      s₁.prevMode).bits.take _ = _
    rw [hm, hprev]
    exact mimeUnsorting_take (h.buffer.trans List.length_replicate.symm) (fun k hk hs => absurd hk (Nat.not_lt.mpr hs))
      (h.buffer ▸ size_le_buffer _)
  have hwhole : homingFrameTest (unsorted s₁ r).bits (frameType r.header) = some true := by
    obtain ⟨⟨b, hb, hb'⟩, -⟩ := homingFrameTest_congr hlt (hlen ▸ size_le_buffer _) htake
    rw [hb, ← hb', htest]
  have hfirst := homingFrameTestFirst_of hlt hlen hwhole
  obtain ⟨first', whole', sound, st', hf, hw, -, -, -, hd⟩ := decode_eq h r
  rw [hmode] at hf hw
  cases hf.symm.trans hfirst
  cases hw.symm.trans hwhole
  obtain ⟨_, _, hd', hok, -⟩ := interfaceOk_decode h r
  cases hd.symm.trans hd'
  have hlost : ¬(unsorted s₁ r).Lost := by
    rintro (hl | hl) <;> rw [hgood] at hl <;> cases hl
  have hflag : (if ¬s₁.resetFlagOld then true
      else if (unsorted s₁ r).Lost then false else if s₁.resetFlagOld then true else s₁.resetFlag) = true := by
    rw [if_neg hlost]
    cases s₁.resetFlagOld <;> rfl
  exact ⟨_, _, hd, hok, if_pos hflag, hmode, by rw [← hmode] at htake; exact htake, hflag, hflag⟩

/-- **Homing.** After a homing frame the decoder is like a new one, and what it decodes from there on does not depend on
anything that it has decoded before. What the filters, which are left out, contribute to the gain of the code is part
of the frames and so the same for both. -/
theorem homing_forgets (h₁ : Reachable decoderSystem s₁) (h₂ : Reachable decoderSystem s₂) (hv : r.Valid)
    (hh : r.Homing) : ∃ t₁ out₁ t₂ out₂, decoderSystem.step s₁ r = some (t₁, out₁) ∧
      decoderSystem.step s₂ r = some (t₂, out₂) ∧ t₁.st = pvDecoderAmrWbReset ∧
      ∀ rs : List Received, (∀ r ∈ rs, r.Valid) → ∃ outs, decodeAll t₁ rs = some outs ∧ decodeAll t₂ rs = some outs := by
  obtain ⟨_, t₁, hd₁, hok₁, hst₁, hmode₁, hbuf₁, hf₁, ho₁⟩ := homing_resets (interfaceOk_reachable h₁) hh
  obtain ⟨_, t₂, hd₂, hok₂, hst₂, hmode₂, hbuf₂, hf₂, ho₂⟩ := homing_resets (interfaceOk_reachable h₂) hh
  obtain ⟨_, _, he₁, hstep₁, -⟩ := exists_step h₁ hv
  obtain ⟨_, _, he₂, hstep₂, -⟩ := exists_step h₂ hv
  cases hd₁.symm.trans he₁
  cases hd₂.symm.trans he₂
  refine ⟨t₁, _, t₂, _, hstep₁, hstep₂, hst₁, fun rs hrs => ?_⟩
  refine decodeAll_congr ⟨hst₁.trans hst₂.symm, hmode₁.trans hmode₂.symm, ?_, hf₁.trans hf₂.symm, ho₁.trans ho₂.symm⟩
    hok₁ hok₂ rs hrs
  rw [hmode₂, ← hmode₁] at hbuf₂
  exact hbuf₁.trans hbuf₂.symm

theorem homing_forgets_6600 : ∃ t₁ out₁ t₂ out₂,
    decoderSystem.step cleared (received 0x04 (pack 0 ((homingBits 0).take nbbits7k))) = some (t₁, out₁) ∧
      decoderSystem.step (dIfInit (List.replicate kamrwbNbBitsMax true))
        (received 0x04 (pack 0 ((homingBits 0).take nbbits7k))) = some (t₂, out₂) ∧
      t₁.st = pvDecoderAmrWbReset ∧
      ∀ rs : List Received, (∀ r ∈ rs, r.Valid) → ∃ outs, decodeAll t₁ rs = some outs ∧ decodeAll t₂ rs = some outs :=
  homing_forgets reachable_cleared (.init ⟨_, List.length_replicate, rfl⟩) (by decide) ⟨rfl, by decide, by decide +kernel⟩

end Homing

end Talk2Text.Amrwb
