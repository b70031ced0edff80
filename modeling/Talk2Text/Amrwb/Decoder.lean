import Mathlib.Algebra.Group.Nat.Defs
import Talk2Text.Format.Framing

/-!
# Decoding AMR-WB audio

`amrwb/decoder.go` and `amrwb/native/cgo.go`: `Decode` turns a single-channel storage stream into PCM. One loop
validates the frames and counts them, a second one cuts the frames again and decodes them. The vendored decoder is a
parameter (`Native`). A loop has fuel, and `none` means that it has run out of it.

- `decode_grammar`: `Decode` accepts exactly the streams of the storage format (`IsStorage`) within its limits, decodes
  their frames in order and terminates; what it rejects with which error;
- `length_of_decode`: the PCM has 640 bytes a frame;
- `accepted_of_decode`, `decode_tooMany`: what is accepted and what is too long, also when the vendored decoder cannot
  be initialised.
-/

namespace Talk2Text.Amrwb

open Format

/-! ## The vendored decoder -/

def samplesPerFrame : Nat := 320

/-- `D_IF_init`, `none` for NULL, and `D_IF_decode`, which fills the samples of one frame. -/
structure Native where
  State : Type
  init : Option State
  decode : State → List UInt8 → Bool → State × Vector Int16 samplesPerFrame

def frameBytes : List Nat := [18, 24, 33, 37, 41, 47, 51, 59, 61, 6, 0, 0, 0, 0, 1, 1]

/-- The type bits of a frame header. -/
def frameType (header : UInt8) : Nat := (header.toNat >>> 3) &&& 0x0f

/-- `FrameSize`: the size of a frame with its header, and whether the type is not reserved. -/
def frameSize (header : UInt8) : Nat × Bool :=
  let size := frameBytes.getD (frameType header) 0
  (size, size ≠ 0)

/-- `native.Decoder`; the state is `none` once it is closed. -/
structure Decoder (n : Native) where
  state : Option n.State

/-- `NewDecoder`. -/
def newDecoder (n : Native) : Except String (Decoder n) :=
  match n.init with
  | none => .error "initialize AMR-WB decoder"
  | some state => .ok ⟨some state⟩

/-- `Decoder.Decode`. -/
def Decoder.decode {n : Native} (d : Decoder n) (frame : List UInt8) (badFrame : Bool) :
    Except String (Decoder n × Vector Int16 samplesPerFrame) :=
  match d.state with
  | none => .error "AMR-WB decoder is closed"
  | some state =>
    match frame with
    | [] => .error "invalid AMR-WB frame size"
    | header :: _ =>
      let (want, valid) := frameSize header
      if !valid || frame.length ≠ want then .error "invalid AMR-WB frame size"
      else
        let (state, pcm) := n.decode state frame badFrame
        .ok (⟨some state⟩, pcm)

/-! ## `Decode` -/

/-- `Magic`. -/
def magic : List UInt8 := [0x23, 0x21, 0x41, 0x4D, 0x52, 0x2D, 0x57, 0x42, 0x0A]

def bytesPerSample : Nat := 2

def pcmBytesPerFrame : Nat := samplesPerFrame * bytesPerSample

/-- `math.MaxInt`. -/
def maxInt : Nat := 2 ^ 63 - 1

/-- The errors that callers of `Decode` look for. -/
inductive Sentinel
  | errInvalidHeader
  | errInvalidFrame
  | errTooLong
  deriving DecidableEq, Repr

/-- The errors of `Decode`. -/
inductive Error
  | header
  | reserved (offset : Nat)
  | truncated (offset need got : Nat)
  | tooManyFrames (maxFrames : Int)
  | tooLarge
  /-- The error of `NewDecoder`. -/
  | init (err : String)
  /-- The error of `Decoder.Decode`. -/
  | frame (offset : Nat) (err : String)
  deriving DecidableEq, Repr

/-- `errors.Is`. -/
def Error.sentinel : Error → Option Sentinel
  | .header => some .errInvalidHeader
  | .reserved _ | .truncated _ _ _ | .frame _ _ => some .errInvalidFrame
  | .tooManyFrames _ | .tooLarge => some .errTooLong
  | .init _ => none

def Error.text : Error → String
  | .header => "invalid AMR-WB header"
  | .reserved offset => s!"invalid AMR-WB frame at byte {offset}: reserved frame type"
  | .truncated offset need got => s!"invalid AMR-WB frame at byte {offset}: need {need} bytes, have {got}"
  | .tooManyFrames maxFrames => s!"AMR-WB audio is too long: limit is {maxFrames} frames"
  | .tooLarge => "AMR-WB audio is too long: decoded audio is too large"
  | .init err => err
  | .frame offset err => s!"invalid AMR-WB frame at byte {offset}: {err}"

/-- How a call of `Decode` ends; `outOfRange` is the panic of a slice expression. -/
inductive Result
  | ok (pcm : List UInt8)
  | error (e : Error)
  | outOfRange
  deriving DecidableEq, Repr

/-- `data[low:high]`. -/
def slice (data : List UInt8) (low high : Nat) : Option (List UInt8) :=
  if low ≤ high ∧ high ≤ data.length then some ((data.take high).drop low) else none

/-- The samples, little-endian. -/
def pcmBytes (samples : Vector Int16 samplesPerFrame) : List UInt8 :=
  samples.toList.flatMap fun (sample : Int16) => [sample.toUInt16.toUInt8, (sample.toUInt16 >>> 8).toUInt8]

/-- The loop of `validateFrames`. -/
def validateLoop (frames : List UInt8) (maxFrames : Int) : Nat → Nat → Nat → Option (Except Error Nat)
  | 0, _, _ => none
  | fuel + 1, offset, count =>
    match frames[offset]? with
    | none => some (.ok count)
    | some header =>
      let (size, valid) := frameSize header
      if !valid then some (.error (.reserved (magic.length + offset)))
      else if frames.length - offset < size then
        some (.error (.truncated (magic.length + offset) size (frames.length - offset)))
      else if maxFrames < (count + 1 : Nat) then some (.error (.tooManyFrames maxFrames))
      else validateLoop frames maxFrames fuel (offset + size) (count + 1)

def validateFrames (fuel : Nat) (frames : List UInt8) (maxFrames : Int) : Option (Except Error Nat) :=
  validateLoop frames maxFrames fuel 0 0

/-- The loop of `Decode`; it ignores whether a frame type is reserved. -/
def decodeLoop {n : Native} (frames : List UInt8) : Nat → Nat → Decoder n → List UInt8 → Option Result
  | 0, _, _, _ => none
  | fuel + 1, offset, decoder, pcm =>
    match frames[offset]? with
    | none => some (.ok pcm)
    | some header =>
      let (size, _) := frameSize header
      match slice frames offset (offset + size) with
      | none => some .outOfRange
      | some frame =>
        match decoder.decode frame (header &&& 0x04 = 0) with
        | .error err => some (.error (.frame (magic.length + offset) err))
        | .ok (decoder, samples) => decodeLoop frames fuel (offset + size) decoder (pcm ++ pcmBytes samples)

/-- `Decode`. -/
def decode (n : Native) (fuel : Nat) (data : List UInt8) (maxFrames : Int) : Option Result :=
  if !magic.isPrefixOf data then some (.error .header)
  else
    let frames := data.drop magic.length
    match validateFrames fuel frames maxFrames with
    | none => none
    | some (.error e) => some (.error e)
    | some (.ok frameCount) =>
      if frameCount = 0 then some (.ok [])
      else if maxInt / pcmBytesPerFrame < frameCount then some (.error .tooLarge)
      else
        match newDecoder n with
        | .error err => some (.error (.init err))
        | .ok decoder => decodeLoop frames fuel 0 decoder []

/-! ## The storage format -/

/-- The size of a frame with this header, zero for a reserved type. -/
def size (header : UInt8) : Nat := (frameSize header).1

/-- A frame: a header whose type is not reserved, and as many bytes as the type asks for. -/
def IsStorageFrame : List UInt8 → Prop
  | [] => False
  | header :: t => ¬(10 ≤ frameType header ∧ frameType header ≤ 13) ∧ t.length = size header - 1

instance : DecidablePred IsStorageFrame := fun f =>
  match f with
  | [] => .isFalse id
  | _ :: _ => inferInstanceAs (Decidable (_ ∧ _))

/-- A storage stream: the magic number, and frames. -/
def IsStorage (data : List UInt8) (fs : List (List UInt8)) : Prop :=
  data = magic ++ fs.flatten ∧ ∀ f ∈ fs, IsStorageFrame f

/-- The header announces a bad frame. -/
def badFrame (frame : List UInt8) : Bool := frame.head?.any fun header => header &&& 0x04 = 0

/-- What the vendored decoder makes of frames, one after the other. -/
def decodeFrames (n : Native) : n.State → List (List UInt8) → List (Vector Int16 samplesPerFrame)
  | _, [] => []
  | state, f :: fs => (n.decode state f (badFrame f)).2 :: decodeFrames n (n.decode state f (badFrame f)).1 fs

/-- The PCM of frames. -/
def framesPCM (n : Native) (state : n.State) (fs : List (List UInt8)) : List UInt8 :=
  (decodeFrames n state fs).flatMap pcmBytes

theorem frameType_lt (header : UInt8) : frameType header < 16 :=
  Nat.lt_of_le_of_lt Nat.and_le_right (by decide)

/-- The reserved types are 10 to 13. -/
theorem size_eq_zero_iff (header : UInt8) : size header = 0 ↔ 10 ≤ frameType header ∧ frameType header ≤ 13 := by
  have h : ∀ k < 16, frameBytes.getD k 0 = 0 ↔ 10 ≤ k ∧ k ≤ 13 := by decide
  exact h _ (frameType_lt header)

/-- The largest frame has 61 bytes. -/
theorem size_le (header : UInt8) : size header ≤ 61 := by
  have h : ∀ k < 16, frameBytes.getD k 0 ≤ 61 := by decide
  exact h _ (frameType_lt header)

theorem snd_frameSize (header : UInt8) : (frameSize header).2 = decide (size header ≠ 0) := rfl

/-- The header of a frame has a valid type. -/
theorem snd_frameSize_of_isFrame {header : UInt8} {t : List UInt8} (h : IsFrame size (header :: t)) :
    (frameSize header).2 = true := by
  have hs : size header = t.length + 1 := h
  rw [snd_frameSize, hs]
  exact decide_eq_true (Nat.succ_ne_zero _)

/-- The frames of the storage format are delimited by their headers. -/
theorem isStorageFrame_iff (f : List UInt8) : IsStorageFrame f ↔ IsFrame size f := by
  cases f with
  | nil => rfl
  | cons header t =>
    simp only [IsStorageFrame, IsFrame, ← size_eq_zero_iff]
    omega

theorem isStorage_iff {data : List UInt8} {fs : List (List UInt8)} :
    IsStorage data fs ↔ data = magic ++ fs.flatten ∧ Frames size fs := by
  simp only [IsStorage, Frames, isStorageFrame_iff]

/-- The frames of a storage stream are determined by it. -/
theorem storage_unique {data : List UInt8} {fs gs : List (List UInt8)} (hf : IsStorage data fs)
    (hg : IsStorage data gs) : fs = gs := by
  rw [isStorage_iff] at hf hg
  exact frames_unique hf.2 hg.2 (List.append_cancel_left (hf.1.symm.trans hg.1))

/-- A stream has at most as many frames as bytes. -/
theorem length_le_length_flatten {fs : List (List UInt8)} (hf : Frames size fs) : fs.length ≤ fs.flatten.length := by
  induction fs with
  | nil => exact Nat.le_refl _
  | cons f fs ih =>
    obtain ⟨hf1, hfs⟩ := frames_cons.mp hf
    have := hf1.length_pos
    have := ih hfs
    simp only [List.length_cons, List.flatten_cons, List.length_append]
    omega

theorem length_flatten_le {fs : List (List UInt8)} (hf : Frames size fs) : fs.flatten.length ≤ 61 * fs.length := by
  induction fs with
  | nil => exact Nat.le_refl _
  | cons f fs ih =>
    obtain ⟨hf1, hfs⟩ := frames_cons.mp hf
    have hlen : f.length ≤ 61 := by
      cases f with
      | nil => exact hf1.elim
      | cons header t =>
        have hs : size header = t.length + 1 := hf1
        rw [List.length_cons, ← hs]
        exact size_le header
    have := ih hfs
    simp only [List.length_cons, List.flatten_cons, List.length_append]
    omega

theorem length_pcmBytes (samples : Vector Int16 samplesPerFrame) :
    (pcmBytes samples).length = pcmBytesPerFrame := by
  rw [pcmBytes, List.length_flatMap]
  simp only [List.length_cons, List.length_nil, List.map_const', List.sum_replicate_nat, Vector.length_toList]
  rfl

theorem length_framesPCM (n : Native) : ∀ (state : n.State) (fs : List (List UInt8)),
    (framesPCM n state fs).length = pcmBytesPerFrame * fs.length
  | _, [] => rfl
  | state, f :: fs => by
    have := length_framesPCM n (n.decode state f (badFrame f)).1 fs
    simp only [framesPCM, decodeFrames, List.flatMap_cons, List.length_append, length_pcmBytes, List.length_cons]
      at this ⊢
    rw [this, Nat.mul_succ, Nat.add_comm]

/-! ## The loops -/

section Loops

variable {frames r f : List UInt8} {fs : List (List UInt8)} {maxFrames : Int} {fuel offset count : Nat}

/-- What a header at the offset says about the rest of the stream. -/
theorem getElem?_of_drop {header : UInt8} {t : List UInt8} (h : frames.drop offset = header :: t) :
    frames[offset]? = some header ∧ frames.length - offset = t.length + 1 := by
  constructor
  · have := congrArg List.head? h
    rwa [List.head?_drop, List.head?_cons] at this
  · have := congrArg List.length h
    rwa [List.length_drop, List.length_cons] at this

theorem getElem?_of_drop_nil (h : frames.drop offset = []) : frames[offset]? = none := by
  rw [List.getElem?_eq_none_iff]
  exact List.drop_eq_nil_iff.mp h

/-- A pass of the loop of `validateFrames` over a frame. -/
theorem validateLoop_frame (hf : IsFrame size f) (h : frames.drop offset = f ++ r) :
    validateLoop frames maxFrames (fuel + 1) offset count =
      if maxFrames < (count + 1 : Nat) then some (.error (.tooManyFrames maxFrames))
      else validateLoop frames maxFrames fuel (offset + f.length) (count + 1) := by
  cases f with
  | nil => exact hf.elim
  | cons header t =>
    obtain ⟨hget, hlen⟩ := getElem?_of_drop h
    have hsize : (frameSize header).1 = t.length + 1 := hf
    have hvalid : (frameSize header).2 = true := snd_frameSize_of_isFrame hf
    have hshort : ¬frames.length - offset < t.length + 1 := by
      rw [hlen]
      show ¬(t ++ r).length + 1 < t.length + 1
      rw [List.length_append]
      omega
    simp only [validateLoop, hget, hvalid, hsize, Bool.not_true, Bool.false_eq_true, if_false, if_neg hshort,
      List.length_cons]

/-- The rest of the stream after the frames at an offset. -/
theorem drop_add_of_drop (h : frames.drop offset = f ++ r) : frames.drop (offset + f.length) = r := by
  rw [← List.drop_drop, h, List.drop_left]

/-- The loop of `validateFrames` passes over the frames within the limit. -/
theorem validateLoop_frames (hf : Frames size fs) (h : frames.drop offset = fs.flatten ++ r)
    (hmax : (count + fs.length : Nat) ≤ maxFrames) :
    validateLoop frames maxFrames (fuel + fs.length) offset count =
      validateLoop frames maxFrames fuel (offset + fs.flatten.length) (count + fs.length) := by
  induction fs generalizing offset count with
  | nil => rfl
  | cons f fs ih =>
    obtain ⟨hf1, hfs⟩ := frames_cons.mp hf
    rw [List.flatten_cons, List.append_assoc] at h
    rw [List.length_cons] at hmax
    have hlim : ¬maxFrames < (count + 1 : Nat) := by omega
    rw [List.length_cons, ← Nat.add_assoc, validateLoop_frame hf1 h, if_neg hlim,
      ih hfs (drop_add_of_drop h) (by omega), List.flatten_cons, List.length_append]
    congr 1 <;> omega

/-- The loop of `validateFrames` stops at the end of the stream. -/
theorem validateLoop_end (h : frames.drop offset = []) :
    validateLoop frames maxFrames (fuel + 1) offset count = some (.ok count) := by
  simp only [validateLoop, getElem?_of_drop_nil h]

/-- The loop of `validateFrames` stops where no frame can be cut. -/
theorem validateLoop_stuck (hr : Stuck size r) (hne : r ≠ []) (h : frames.drop offset = r) :
    ∃ e : Error, e.sentinel = some .errInvalidFrame ∧
      validateLoop frames maxFrames (fuel + 1) offset count = some (.error e) := by
  cases r with
  | nil => exact absurd rfl hne
  | cons header t =>
    obtain ⟨hget, hlen⟩ := getElem?_of_drop h
    by_cases h0 : size header = 0
    · refine ⟨.reserved (magic.length + offset), rfl, ?_⟩
      have hvalid : (frameSize header).2 = false := by simp [snd_frameSize, h0]
      simp only [validateLoop, hget, hvalid, Bool.not_false, if_true]
    · refine ⟨.truncated (magic.length + offset) (size header) (frames.length - offset), rfl, ?_⟩
      have hvalid : (frameSize header).2 = true := by simp [snd_frameSize, h0]
      have hshort : frames.length - offset < size header := by
        rw [hlen]
        exact hr.resolve_left h0
      have hshort' : frames.length - offset < (frameSize header).1 := hshort
      simp only [validateLoop, hget, hvalid, Bool.not_true, Bool.false_eq_true, if_false, if_pos hshort']
      rfl

/-- The vendored decoder gets every well-formed frame. -/
theorem Decoder.decode_frame {n : Native} (hf : IsFrame size f) (state : n.State) (bad : Bool) :
    (⟨some state⟩ : Decoder n).decode f bad =
      .ok (⟨some (n.decode state f bad).1⟩, (n.decode state f bad).2) := by
  cases f with
  | nil => exact hf.elim
  | cons header t =>
    have hsize : (frameSize header).1 = (header :: t).length := hf
    simp [Decoder.decode, snd_frameSize_of_isFrame hf, hsize]

/-- A frame at an offset is the slice of its length. -/
theorem slice_of_drop (h : frames.drop offset = f ++ r) (hf : f ≠ []) :
    slice frames offset (offset + f.length) = some f := by
  have hlen := congrArg List.length h
  have hpos := List.length_pos_of_ne_nil hf
  rw [List.length_drop, List.length_append] at hlen
  unfold slice
  rw [if_pos (by omega), List.drop_take, h]
  simp

/-- A pass of the loop of `Decode` over a frame. -/
theorem decodeLoop_frame {n : Native} (hf : IsFrame size f) (h : frames.drop offset = f ++ r) (state : n.State)
    (pcm : List UInt8) :
    decodeLoop frames (fuel + 1) offset ⟨some state⟩ pcm =
      decodeLoop frames fuel (offset + f.length) ⟨some (n.decode state f (badFrame f)).1⟩
        (pcm ++ pcmBytes (n.decode state f (badFrame f)).2) := by
  cases f with
  | nil => exact hf.elim
  | cons header t =>
    obtain ⟨hget, -⟩ := getElem?_of_drop h
    have hsize : (frameSize header).1 = (header :: t).length := hf
    have hbad : (decide (header &&& 0x04 = 0)) = badFrame (header :: t) := rfl
    rw [decodeLoop]
    simp only [hget, hsize, slice_of_drop h hf.ne_nil, Decoder.decode_frame hf, hbad]

/-- **The loop of `Decode`** over frames decodes them in order, and has no slice out of range. -/
theorem decodeLoop_frames {n : Native} (hf : Frames size fs) (h : frames.drop offset = fs.flatten)
    (state : n.State) (pcm : List UInt8) :
    decodeLoop frames (fuel + fs.length + 1) offset ⟨some state⟩ pcm =
      some (.ok (pcm ++ framesPCM n state fs)) := by
  induction fs generalizing offset state pcm with
  | nil => simp [decodeLoop, getElem?_of_drop_nil h, framesPCM, decodeFrames]
  | cons f fs ih =>
    obtain ⟨hf1, hfs⟩ := frames_cons.mp hf
    rw [List.flatten_cons] at h
    rw [List.length_cons, ← Nat.add_assoc, decodeLoop_frame hf1 h, ih hfs (drop_add_of_drop h)]
    simp only [framesPCM, decodeFrames, List.flatMap_cons, List.append_assoc]

/-- A stream of too many frames. -/
theorem validateFrames_tooMany {maxFrames : Nat} (hf : Frames size fs) (hlt : maxFrames < fs.length)
    (hfuel : (fs.flatten ++ r).length < fuel) :
    validateFrames fuel (fs.flatten ++ r) maxFrames = some (.error (.tooManyFrames maxFrames)) := by
  obtain ⟨f, gs, hd⟩ := List.exists_cons_of_ne_nil (List.drop_eq_nil_iff.not.mpr (Nat.not_le.mpr hlt))
  have hsplit : fs = fs.take maxFrames ++ f :: gs := by rw [← hd, List.take_append_drop]
  have hlen : (fs.take maxFrames).length = maxFrames := List.length_take_of_le (Nat.le_of_lt hlt)
  have hf1 : IsFrame size f := hf f (List.mem_of_mem_drop (hd ▸ List.mem_cons_self))
  have hdata : fs.flatten ++ r = (fs.take maxFrames).flatten ++ (f ++ (gs.flatten ++ r)) := by
    conv_lhs => rw [hsplit]
    simp
  obtain ⟨k, hk⟩ : ∃ k, fuel = k + 1 + (fs.take maxFrames).length := by
    have := length_le_length_flatten hf
    rw [List.length_append] at hfuel
    exact ⟨fuel - 1 - maxFrames, by omega⟩
  unfold validateFrames
  rw [hk, validateLoop_frames (hf.take _) (r := f ++ (gs.flatten ++ r)) (by rw [hdata]; rfl) (by omega),
    validateLoop_frame hf1 (r := gs.flatten ++ r) (by rw [hdata]; simp), if_pos (by omega)]

/-- A stream within the limit. -/
theorem validateFrames_ok {maxFrames : Nat} (hf : Frames size fs) (hle : fs.length ≤ maxFrames)
    (hfuel : fs.flatten.length < fuel) : validateFrames fuel fs.flatten maxFrames = some (.ok fs.length) := by
  obtain ⟨k, hk⟩ : ∃ k, fuel = k + 1 + fs.length := by
    have := length_le_length_flatten hf
    exact ⟨fuel - 1 - fs.length, by omega⟩
  unfold validateFrames
  rw [hk, validateLoop_frames hf (r := []) (by simp) (by omega), validateLoop_end (by simp), Nat.zero_add]

/-- A stream whose rest is no frame. -/
theorem validateFrames_stuck {maxFrames : Nat} (hf : Frames size fs) (hr : Stuck size r) (hne : r ≠ [])
    (hle : fs.length ≤ maxFrames) (hfuel : (fs.flatten ++ r).length < fuel) :
    ∃ e : Error, e.sentinel = some .errInvalidFrame ∧
      validateFrames fuel (fs.flatten ++ r) maxFrames = some (.error e) := by
  obtain ⟨k, hk⟩ : ∃ k, fuel = k + 1 + fs.length := by
    have := length_le_length_flatten hf
    rw [List.length_append] at hfuel
    exact ⟨fuel - 1 - fs.length, by omega⟩
  obtain ⟨e, he, hv⟩ : ∃ e : Error, e.sentinel = some .errInvalidFrame ∧
      validateLoop (fs.flatten ++ r) maxFrames (k + 1) (0 + fs.flatten.length) (0 + fs.length) =
        some (.error e) := validateLoop_stuck hr hne (by simp)
  refine ⟨e, he, ?_⟩
  unfold validateFrames
  rw [hk, validateLoop_frames hf (r := r) (by simp) (by omega), hv]

/-- The PCM of the loop of `Decode` has whole frames. -/
theorem decodeLoop_length {n : Native} {decoder : Decoder n} {pcm pcm' : List UInt8}
    (h : decodeLoop frames fuel offset decoder pcm = some (.ok pcm')) (hd : pcmBytesPerFrame ∣ pcm.length) :
    pcmBytesPerFrame ∣ pcm'.length := by
  induction fuel generalizing offset decoder pcm with
  | zero => cases h
  | succ fuel ih =>
    rw [decodeLoop] at h
    split at h
    · cases h; exact hd
    · dsimp only at h
      split at h
      · cases h
      · split at h
        · cases h
        · refine ih h ?_
          rw [List.length_append, length_pcmBytes]
          exact Nat.dvd_add hd (Nat.dvd_refl _)

end Loops

/-! ## `Decode` against the format -/

/-- A storage stream within the limits. -/
def Accepted (data : List UInt8) (maxFrames : Nat) (fs : List (List UInt8)) : Prop :=
  IsStorage data fs ∧ fs.length ≤ maxFrames ∧ fs.length ≤ maxInt / pcmBytesPerFrame

/-- The first `maxFrames + 1` frames are well formed, or a storage stream has too many frames for its PCM. -/
def TooLong (data : List UInt8) (maxFrames : Nat) : Prop :=
  (∃ (fs : List (List UInt8)) (r : List UInt8), data = magic ++ (fs.flatten ++ r) ∧ (∀ f ∈ fs, IsStorageFrame f) ∧
    fs.length = maxFrames + 1) ∨
    ∃ fs, IsStorage data fs ∧ maxInt / pcmBytesPerFrame < fs.length

/-- **The PCM of `Decode` has 640 bytes a frame.** -/
theorem length_of_decode {n : Native} {fuel : Nat} {data pcm : List UInt8} {maxFrames : Int}
    (h : decode n fuel data maxFrames = some (.ok pcm)) : pcmBytesPerFrame ∣ pcm.length := by
  unfold decode at h
  split at h
  · cases h
  · dsimp only at h
    split at h
    · cases h
    · cases h
    · split at h
      · cases h; exact Nat.dvd_zero _
      · split at h
        · cases h
        · split at h
          · cases h
          · exact decodeLoop_length h (Nat.dvd_zero _)

section Decode

variable {n : Native} {state : n.State} {data r : List UInt8} {maxFrames fuel : Nat} {fs : List (List UInt8)}

theorem decode_header (h : ¬magic <+: data) : decode n fuel data maxFrames = some (.error .header) := by
  unfold decode
  rw [if_pos]
  rw [Bool.not_eq_true', ← Bool.not_eq_true, List.isPrefixOf_iff_prefix]
  exact h

/-- `Decode` after the magic number. -/
theorem decode_magic (rest : List UInt8) :
    decode n fuel (magic ++ rest) maxFrames =
      match validateFrames fuel rest maxFrames with
      | none => none
      | some (.error e) => some (.error e)
      | some (.ok frameCount) =>
        if frameCount = 0 then some (.ok [])
        else if maxInt / pcmBytesPerFrame < frameCount then some (.error .tooLarge)
        else
          match newDecoder n with
          | .error err => some (.error (.init err))
          | .ok decoder => decodeLoop rest fuel 0 decoder [] := by
  unfold decode
  rw [if_neg]
  · simp only [List.drop_left]
  · rw [Bool.not_eq_true', Bool.not_eq_false, List.isPrefixOf_iff_prefix]
    exact List.prefix_append _ _

/-- `Decode` of a storage stream within the limits. -/
theorem decode_accepted (hinit : n.init = some state) (hf : Frames size fs) (hle : fs.length ≤ maxFrames)
    (hmax : fs.length ≤ maxInt / pcmBytesPerFrame) (hfuel : fs.flatten.length < fuel) :
    decode n fuel (magic ++ fs.flatten) maxFrames = some (.ok (framesPCM n state fs)) := by
  rw [decode_magic, validateFrames_ok hf hle hfuel]
  dsimp only
  by_cases h0 : fs.length = 0
  · rw [if_pos h0, List.length_eq_zero_iff.mp h0]
    rfl
  · have hk : fuel = fuel - fs.length - 1 + fs.length + 1 := by
      have := length_le_length_flatten hf
      omega
    have hloop : decodeLoop fs.flatten fuel 0 ⟨some state⟩ [] = some (.ok ([] ++ framesPCM n state fs)) := by
      rw [hk]
      exact decodeLoop_frames hf rfl state []
    simp only [h0, if_false, Nat.not_lt.mpr hmax, newDecoder, hinit, hloop, List.nil_append]

/-- `Decode` of a storage stream with too many frames for its PCM. -/
theorem decode_tooLarge (hf : Frames size fs) (hle : fs.length ≤ maxFrames)
    (hmax : maxInt / pcmBytesPerFrame < fs.length) (hfuel : fs.flatten.length < fuel) :
    decode n fuel (magic ++ fs.flatten) maxFrames = some (.error .tooLarge) := by
  rw [decode_magic, validateFrames_ok hf hle hfuel]
  dsimp only
  rw [if_neg (Nat.ne_of_gt (Nat.zero_lt_of_lt hmax)), if_pos hmax]

/-- The storage streams among the cuts of a stream. -/
theorem isStorage_cut_iff {gs : List (List UInt8)} (hd : data = magic ++ (fs.flatten ++ r)) (hf : Frames size fs)
    (hr : Stuck size r) : IsStorage data gs ↔ gs = fs ∧ r = [] := by
  rw [isStorage_iff, hd]
  constructor
  · rintro ⟨he, hg⟩
    have he : fs.flatten ++ r = gs.flatten ++ [] := by rw [List.append_cancel_left he, List.append_nil]
    obtain ⟨rfl, rfl⟩ := @cut_unique _ _ r [] fs gs hf hg hr trivial he
    exact ⟨rfl, rfl⟩
  · rintro ⟨rfl, rfl⟩
    exact ⟨by rw [List.append_nil], hf⟩

/-- When a stream is too long, by its cut. -/
theorem tooLong_cut_iff (hd : data = magic ++ (fs.flatten ++ r)) (hf : Frames size fs) (hr : Stuck size r) :
    TooLong data maxFrames ↔ maxFrames < fs.length ∨ (r = [] ∧ maxInt / pcmBytesPerFrame < fs.length) := by
  constructor
  · rintro (⟨gs, r', he, hg, hlen⟩ | ⟨gs, hg, hlt⟩)
    · rw [hd] at he
      have hg' : Frames size gs := fun g hm => (isStorageFrame_iff g).mp (hg g hm)
      have := length_le_of_stuck hf hg' hr (List.append_cancel_left he)
      exact Or.inl (by omega)
    · obtain ⟨rfl, hr⟩ := (isStorage_cut_iff hd hf hr).mp hg
      exact Or.inr ⟨hr, hlt⟩
  · rintro (hlt | ⟨hr', hlt⟩)
    · refine Or.inl ⟨fs.take (maxFrames + 1), (fs.drop (maxFrames + 1)).flatten ++ r, ?_, ?_, ?_⟩
      · rw [hd, ← List.append_assoc (fs.take _).flatten, ← List.flatten_append, List.take_append_drop]
      · exact fun f hm => (isStorageFrame_iff f).mpr (hf f (List.mem_of_mem_take hm))
      · exact List.length_take_of_le hlt
    · exact Or.inr ⟨fs, (isStorage_cut_iff hd hf hr).mpr ⟨rfl, hr'⟩, hlt⟩

/-- **The outcomes of `Decode`**, by the cut of the stream. -/
theorem decode_cases (hinit : n.init = some state) (hfuel : data.length < fuel) (maxFrames : Nat) :
    (¬magic <+: data ∧ decode n fuel data maxFrames = some (.error .header)) ∨
    ∃ (fs : List (List UInt8)) (r : List UInt8), data = magic ++ (fs.flatten ++ r) ∧ Frames size fs ∧
      Stuck size r ∧
      ((maxFrames < fs.length ∧ decode n fuel data maxFrames = some (.error (.tooManyFrames maxFrames))) ∨
        (fs.length ≤ maxFrames ∧ r ≠ [] ∧ ∃ e : Error, e.sentinel = some .errInvalidFrame ∧
          decode n fuel data maxFrames = some (.error e)) ∨
        (fs.length ≤ maxFrames ∧ r = [] ∧ maxInt / pcmBytesPerFrame < fs.length ∧
          decode n fuel data maxFrames = some (.error .tooLarge)) ∨
        (fs.length ≤ maxFrames ∧ r = [] ∧ fs.length ≤ maxInt / pcmBytesPerFrame ∧
          decode n fuel data maxFrames = some (.ok (framesPCM n state fs)))) := by
  by_cases hm : magic <+: data
  · right
    obtain ⟨rest, rfl⟩ := hm
    obtain ⟨fs, r, rfl, hf, hr⟩ := exists_cut size rest
    refine ⟨fs, r, rfl, hf, hr, ?_⟩
    rw [List.length_append] at hfuel
    have hlen : (fs.flatten ++ r).length < fuel := by omega
    rcases Nat.lt_or_ge maxFrames fs.length with hlt | hle
    · exact Or.inl ⟨hlt, by rw [decode_magic, validateFrames_tooMany hf hlt hlen]⟩
    · by_cases hne : r = []
      · subst hne
        rw [List.append_nil] at hlen ⊢
        rcases Nat.lt_or_ge (maxInt / pcmBytesPerFrame) fs.length with hmax | hmax
        · exact Or.inr (Or.inr (Or.inl ⟨hle, rfl, hmax, decode_tooLarge hf hle hmax hlen⟩))
        · exact Or.inr (Or.inr (Or.inr ⟨hle, rfl, hmax, decode_accepted hinit hf hle hmax hlen⟩))
      · obtain ⟨e, he, hv⟩ := validateFrames_stuck hf hr hne hle hlen
        exact Or.inr (Or.inl ⟨hle, hne, e, he, by rw [decode_magic, hv]⟩)
  · exact Or.inl ⟨hm, decode_header hm⟩

/-- What is accepted, by the cut of the stream. -/
theorem accepted_cut_iff {gs : List (List UInt8)} (hd : data = magic ++ (fs.flatten ++ r)) (hf : Frames size fs)
    (hr : Stuck size r) :
    Accepted data maxFrames gs ↔
      gs = fs ∧ r = [] ∧ fs.length ≤ maxFrames ∧ fs.length ≤ maxInt / pcmBytesPerFrame := by
  unfold Accepted
  rw [isStorage_cut_iff hd hf hr]
  constructor
  · rintro ⟨⟨rfl, h⟩, hle⟩
    exact ⟨rfl, h, hle⟩
  · rintro ⟨rfl, h, hle⟩
    exact ⟨⟨rfl, h⟩, hle⟩

/-- **`Decode` accepts exactly the storage format.** With enough fuel it accepts the storage streams within the limits
and no others, the frames of a stream are unique, and the PCM is what the vendored decoder makes of exactly these
frames, in order. Otherwise it reports `ErrInvalidHeader` when the magic number is missing, `ErrTooLong` when the
stream is too long, and `ErrInvalidFrame` in the remaining cases; it ends, and no slice is out of range. -/
theorem decode_grammar (hinit : n.init = some state) (data : List UInt8) (maxFrames : Nat)
    (hfuel : data.length < fuel) :
    (∀ pcm, decode n fuel data maxFrames = some (.ok pcm) ↔
      ∃ fs, Accepted data maxFrames fs ∧ pcm = framesPCM n state fs) ∧
    (∀ fs gs, IsStorage data fs → IsStorage data gs → fs = gs) ∧
    (∀ fs, (framesPCM n state fs).length = 640 * fs.length) ∧
    ((∃ e : Error, decode n fuel data maxFrames = some (.error e) ∧ e.sentinel = some .errInvalidHeader) ↔
      ¬magic <+: data) ∧
    ((∃ e : Error, decode n fuel data maxFrames = some (.error e) ∧ e.sentinel = some .errTooLong) ↔
      TooLong data maxFrames) ∧
    ((∃ e : Error, decode n fuel data maxFrames = some (.error e) ∧ e.sentinel = some .errInvalidFrame) ↔
      magic <+: data ∧ ¬TooLong data maxFrames ∧ ∀ fs, ¬Accepted data maxFrames fs) ∧
    ∃ result, decode n fuel data maxFrames = some result ∧ result ≠ .outOfRange := by
  have huniq : ∀ fs gs, IsStorage data fs → IsStorage data gs → fs = gs := fun _ _ => storage_unique
  have hlen : ∀ fs, (framesPCM n state fs).length = 640 * fs.length := fun fs => length_framesPCM n state fs
  rcases decode_cases hinit hfuel maxFrames with ⟨hm, hd⟩ | ⟨fs, r, hdata, hf, hr, hcase⟩
  · have hno : ∀ fs, ¬Accepted data maxFrames fs := fun fs h => hm ⟨_, h.1.1.symm⟩
    have hshort : ¬TooLong data maxFrames := by
      rintro (⟨fs, r, he, -⟩ | ⟨fs, h, -⟩)
      · exact hm ⟨_, he.symm⟩
      · exact hm ⟨_, h.1.symm⟩
    refine ⟨?_, huniq, hlen, ?_⟩ <;> simp [hd, hno, hshort, hm, Error.sentinel]
  · have hm : magic <+: data := ⟨_, hdata.symm⟩
    have hacc : ∀ gs, Accepted data maxFrames gs ↔
        gs = fs ∧ r = [] ∧ fs.length ≤ maxFrames ∧ fs.length ≤ maxInt / pcmBytesPerFrame :=
      fun _ => accepted_cut_iff hdata hf hr
    have hlong : TooLong data maxFrames ↔
        maxFrames < fs.length ∨ (r = [] ∧ maxInt / pcmBytesPerFrame < fs.length) := tooLong_cut_iff hdata hf hr
    rcases hcase with ⟨hlt, hd⟩ | ⟨hle, hne, e, he, hd⟩ | ⟨hle, rfl, hlt, hd⟩ | ⟨hle, rfl, hmax, hd⟩
    · refine ⟨?_, huniq, hlen, ?_⟩ <;>
        simp [hd, hm, hlt, hacc, hlong, Nat.not_le.mpr hlt, Error.sentinel]
    · refine ⟨?_, huniq, hlen, ?_⟩ <;>
        simp [hd, hm, hne, he, hacc, hlong, Nat.not_lt.mpr hle]
    · refine ⟨?_, huniq, hlen, ?_⟩ <;>
        simp [hd, hm, hlt, hacc, hlong, Nat.not_le.mpr hlt, Error.sentinel]
    · refine ⟨?_, huniq, hlen, ?_⟩ <;>
        simp [hd, hm, hle, hmax, hacc, hlong, Nat.not_lt.mpr hle, Nat.not_lt.mpr hmax, eq_comm]

end Decode

/-- A vendored decoder that hears silence. -/
def silence : Native := ⟨Unit, some (), fun _ _ _ => ((), Vector.replicate _ 0)⟩

section Accepted

variable {n : Native} {data pcm : List UInt8} {maxFrames fuel : Nat} {fs : List (List UInt8)}

/-- Without a vendored decoder only a stream without frames is accepted. -/
theorem decode_init_none (hinit : n.init = none) (h : decode n fuel data maxFrames = some (.ok pcm)) :
    decode silence fuel data maxFrames = some (.ok pcm) := by
  unfold decode at h ⊢
  dsimp only at h ⊢
  split
  · rename_i hm
    rw [if_pos hm] at h
    cases h
  · rename_i hm
    rw [if_neg hm] at h
    cases hv : validateFrames fuel (data.drop magic.length) maxFrames with
    | none =>
      rw [hv] at h
      cases h
    | some r =>
      rw [hv] at h
      cases r with
      | error e => cases h
      | ok count =>
        by_cases h0 : count = 0
        · simp only [h0, if_true] at h ⊢
          exact h
        · simp only [h0, if_false, newDecoder, hinit] at h
          split at h <;> cases h

/-- **What `Decode` accepts** is a storage stream within the limits, and its PCM has 640 bytes a frame. -/
theorem accepted_of_decode (hfuel : data.length < fuel) (h : decode n fuel data maxFrames = some (.ok pcm)) :
    ∃ fs, Accepted data maxFrames fs ∧ pcm.length = pcmBytesPerFrame * fs.length := by
  have hsome : ∀ {n : Native} {state : n.State}, n.init = some state →
      decode n fuel data maxFrames = some (.ok pcm) →
      ∃ fs, Accepted data maxFrames fs ∧ pcm.length = pcmBytesPerFrame * fs.length := by
    intro n state hinit h
    rcases decode_cases hinit hfuel maxFrames with ⟨-, hd⟩ | ⟨fs, r, hdata, hf, hr, hcase⟩
    · rw [hd] at h
      cases h
    · rcases hcase with ⟨-, hd⟩ | ⟨-, -, e, -, hd⟩ | ⟨-, -, -, hd⟩ | ⟨hle, rfl, hmax, hd⟩
      · rw [hd] at h
        cases h
      · rw [hd] at h
        cases h
      · rw [hd] at h
        cases h
      · rw [hd] at h
        cases h
        exact ⟨fs, (accepted_cut_iff hdata hf hr).mpr ⟨rfl, rfl, hle, hmax⟩, length_framesPCM n state fs⟩
  cases hinit : n.init with
  | none => exact @hsome silence () rfl (decode_init_none hinit h)
  | some state => exact hsome hinit h

/-- A storage stream with too many frames is rejected before the vendored decoder is initialised. -/
theorem decode_tooMany (hs : IsStorage data fs) (hlt : maxFrames < fs.length) (hfuel : data.length < fuel) :
    decode n fuel data maxFrames = some (.error (.tooManyFrames maxFrames)) := by
  obtain ⟨rfl, hf⟩ := isStorage_iff.mp hs
  rw [List.length_append] at hfuel
  have hv := @validateFrames_tooMany [] fs fuel maxFrames hf hlt (by rw [List.append_nil]; omega)
  rw [List.append_nil] at hv
  rw [decode_magic, hv]

end Accepted

/-- One frame without data is 20 ms of silence; two are too many for a limit of one. -/
theorem decode_grammar_frame :
    (∃ fs, Accepted (magic ++ [0x7C]) 1 fs ∧ List.replicate 640 0 = framesPCM silence () fs) ∧
      TooLong (magic ++ [0x7C, 0x7C]) 1 := by
  constructor
  · exact ((decode_grammar (n := silence) rfl (magic ++ [0x7C]) 1 (show _ < 11 by decide)).1 _).mp
      (by decide +kernel)
  · exact (decode_grammar (n := silence) rfl (magic ++ [0x7C, 0x7C]) 1 (show _ < 12 by decide)).2.2.2.2.1.mp
      ⟨.tooManyFrames 1, by decide +kernel, rfl⟩

end Talk2Text.Amrwb
