import Talk2Text.Daemon.Session

/-!
# The playing time of audio

`pcmDuration` forms `samples * 1e9` as an int64 and then divides by the sample rate. A sample of 16-bit mono audio at
16 kHz lasts 62500 ns (`exactDuration`).

- `pcmDuration_eq_iff`: the computed duration is exact iff the product does not wrap (`Fits`), which is for less than
  about 160 hours of audio;
- `onPCM_ok`, `onPCM_chunks`: `OnPCM` appends and adds up exactly, however the audio is split, as long as each chunk
  fits and the whole duration is an int64.
-/

namespace Talk2Text

/-! ## Go's int64 -/

theorem int64_of_lt {x : Int} (h : -(2 ^ 63) ≤ x) (h' : x < 2 ^ 63) : int64 x = x := by
  unfold int64
  rw [Int.bmod_eq_of_le] <;> omega

theorem int64_lt (x : Int) : int64 x < 2 ^ 63 := by
  have := @Int.bmod_lt x (2 ^ 64) (by decide)
  unfold int64
  omega

/-- A positive quotient bounds the dividend. -/
theorem mul_le_of_tdiv {x d q : Int} (hd : 0 < d) (hq : 0 < q) (h : x.tdiv d = q) : q * d ≤ x := by
  have hx : 0 ≤ x := by
    by_contra hneg
    have hle : 0 ≤ (-x).tdiv d := Int.tdiv_nonneg (by omega) (Int.le_of_lt hd)
    rw [Int.neg_tdiv, h] at hle
    omega
  rw [Int.tdiv_eq_ediv_of_nonneg hx] at h
  rw [← h]
  exact Int.ediv_mul_le x (Int.ne_of_gt hd)

/-! ## The duration of PCM -/

/-- The playing time of one sample, in nanoseconds. -/
def sampleDuration : Int := 62500

/-- The playing time of 16-bit PCM at 16 kHz. -/
def exactDuration (pcm : List UInt8) : Int := (pcm.length / 2 : Nat) * sampleDuration

/-- The product that `pcmDuration` forms is an int64. -/
def Fits (pcm : List UInt8) : Prop := (pcm.length / 2 : Nat) * second < 2 ^ 63

instance (pcm : List UInt8) : Decidable (Fits pcm) := inferInstanceAs (Decidable (_ < _))

section Duration

variable {pcm : List UInt8}

theorem exactDuration_nonneg (pcm : List UInt8) : 0 ≤ exactDuration pcm :=
  Int.mul_nonneg (Int.natCast_nonneg _) (by decide)

theorem exactDuration_mono {pcm' : List UInt8} (h : pcm.length ≤ pcm'.length) :
    exactDuration pcm ≤ exactDuration pcm' := by
  unfold exactDuration sampleDuration
  omega

theorem exactDuration_append {pcm' : List UInt8} (h : pcm.length % 2 = 0) :
    exactDuration (pcm ++ pcm') = exactDuration pcm + exactDuration pcm' := by
  have hlen : (pcm ++ pcm').length / 2 = pcm.length / 2 + pcm'.length / 2 := by
    rw [List.length_append]
    omega
  rw [exactDuration, hlen, Int.natCast_add, Int.add_mul]
  rfl

theorem pcmDuration_odd (h : pcm.length % 2 ≠ 0) :
    pcmDuration pcm = .error s!"invalid pcm data: byte length {pcm.length} is not a multiple of 2" := if_pos h

/-- The samples in nanoseconds are a multiple of the sample rate. -/
theorem mul_second (pcm : List UInt8) : ((pcm.length / 2 : Nat) : Int) * second = exactDuration pcm * sampleRateHz := by
  rw [exactDuration, Int.mul_assoc]
  rfl

/-- **The computed duration is exact** iff the product does not wrap. -/
theorem pcmDuration_eq_iff (h : pcm.length % 2 = 0) : pcmDuration pcm = .ok (exactDuration pcm) ↔ Fits pcm := by
  have hpcm : pcmDuration pcm = .ok ((int64 (exactDuration pcm * sampleRateHz)).tdiv sampleRateHz) := by
    rw [← mul_second]
    exact if_neg (not_not_intro h)
  have hnonneg := exactDuration_nonneg pcm
  rw [hpcm, Except.ok.injEq, Fits, mul_second]
  constructor
  · intro he
    by_contra hwrap
    rw [Int.not_lt] at hwrap
    have hpos : 0 < exactDuration pcm := by
      by_contra hz
      rw [show exactDuration pcm = 0 by omega] at hwrap
      exact absurd hwrap (by decide)
    have hle := mul_le_of_tdiv (by decide) hpos he
    have := int64_lt (exactDuration pcm * sampleRateHz)
    omega
  · intro hlt
    have hge : -(2 ^ 63) ≤ exactDuration pcm * sampleRateHz :=
      Int.le_trans (by decide) (Int.mul_nonneg hnonneg (by decide))
    rw [int64_of_lt hge hlt, Int.mul_tdiv_cancel _ (by decide)]

/-- What is at most `2^32 - 1` samples fits. -/
theorem fits_of_length_le (h : pcm.length ≤ 2 * (2 ^ 32 - 1)) : Fits pcm := by
  unfold Fits second
  omega

end Duration

/-! ## `OnPCM` -/

namespace Session

variable {tooLarge : Nat → Bool} {s : Session} {pcm : List UInt8} {chunks : List (List UInt8)}

/-- An odd chunk clears the session. -/
theorem onPCM_odd (h : pcm.length % 2 ≠ 0) :
    s.onPCM tooLarge pcm =
      (s.clear, some s!"invalid pcm data: byte length {pcm.length} is not a multiple of 2") := by
  rw [onPCM, pcmDuration_odd h]

/-- **A chunk is appended**, and its duration is added. -/
theorem onPCM_ok (h : pcm.length % 2 = 0) (hfits : Fits pcm)
    (hlarge : tooLarge (s.buffer.length + pcm.length) = false) (hs : 0 ≤ s.duration)
    (hlt : s.duration + exactDuration pcm < 2 ^ 63) :
    s.onPCM tooLarge pcm =
      ({ s with buffer := s.buffer ++ pcm, duration := s.duration + exactDuration pcm }, none) := by
  have hd := (pcmDuration_eq_iff h).mpr hfits
  have hnonneg := exactDuration_nonneg pcm
  rw [onPCM, hd]
  dsimp only
  rw [hlarge, int64_of_lt (by omega) hlt]
  rfl

/-- **However the audio is split** into even chunks that fit, the session gets all of it and its exact duration. -/
theorem onPCM_chunks (heven : ∀ c ∈ chunks, c.length % 2 = 0) (hfits : ∀ c ∈ chunks, Fits c)
    (hlarge : ∀ k ≤ s.buffer.length + chunks.flatten.length, tooLarge k = false) (hs : 0 ≤ s.duration)
    (hlt : s.duration + exactDuration chunks.flatten < 2 ^ 63) :
    chunks.foldl (fun s c => (s.onPCM tooLarge c).1) s =
      { s with buffer := s.buffer ++ chunks.flatten, duration := s.duration + exactDuration chunks.flatten } := by
  induction chunks generalizing s with
  | nil => simp [exactDuration]
  | cons c chunks ih =>
    rw [List.forall_mem_cons] at heven hfits
    rw [List.flatten_cons, exactDuration_append heven.1] at hlt ⊢
    rw [List.flatten_cons, List.length_append] at hlarge
    have hc := exactDuration_nonneg c
    have hrest := exactDuration_nonneg chunks.flatten
    have hone : s.onPCM tooLarge c = _ :=
      onPCM_ok heven.1 hfits.1 (hlarge _ (by omega)) hs (by omega)
    rw [List.foldl_cons, hone, ih heven.2 hfits.2]
    · simp only [List.append_assoc, Int.add_assoc]
    · intro k hk
      rw [List.length_append] at hk
      exact hlarge k (by omega)
    · exact Int.add_nonneg hs hc
    · rw [Int.add_assoc]
      exact hlt

end Session

end Talk2Text
