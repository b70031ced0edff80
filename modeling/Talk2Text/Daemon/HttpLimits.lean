import Talk2Text.Daemon.Duration
import Talk2Text.Daemon.System

/-!
# What the daemon admits over HTTP

`handleHTTP` has three limits, all computed from the maximum duration: the declared length of the body, the length of
what is read, and the number of frames. `audio_limits_agree`: they never contradict each other.

The session of an admitted clip gets its duration from `pcmDuration`. `http_duration_exact_iff`: the duration is exact
iff the clip has at most 28823037 frames, about 160 hours; `http_duration_wraps`: a longer maximum duration admits clips
whose duration wraps.
-/

namespace Talk2Text.Daemon

/-! ## The limits -/

section Limits

variable {d : Int}

/-- The limits are computed without overflow. -/
theorem httpAudioLimits_eq (hpos : 0 ≤ d) (hint : d < 2 ^ 63) :
    httpAudioLimits d = (d / amrwbFrameDuration, 9 + 61 * (d / amrwbFrameDuration)) := by
  have hdiv : d.tdiv amrwbFrameDuration = d / amrwbFrameDuration := Int.tdiv_eq_ediv_of_nonneg hpos
  have hle : 0 ≤ d / amrwbFrameDuration ∧ d / amrwbFrameDuration ≤ 2 ^ 40 := by
    unfold amrwbFrameDuration
    omega
  have hmin : min (d / amrwbFrameDuration) (2 ^ 63 - 1) = d / amrwbFrameDuration := by omega
  have hmagic : (amrwbMagic.utf8ByteSize : Int) = 9 := by decide
  have hproduct : int64 (d / amrwbFrameDuration * 61) = 61 * (d / amrwbFrameDuration) := by
    rw [int64_of_lt (by omega) (by omega), Int.mul_comm]
  simp only [httpAudioLimits, hdiv, hmin, hmagic, amrwbMaxEncodedFrameSize, hproduct]
  rw [int64_of_lt (by omega) (by omega)]

/-- A number of frames is within the limit iff they play for at most the maximum duration. -/
theorem le_frameLimit_iff (k : Nat) : (k : Int) ≤ d / amrwbFrameDuration ↔ k * amrwbFrameDuration ≤ d :=
  Int.le_ediv_iff_mul_le (by decide)

/-- What `amrwbDecode` accepts. -/
theorem accepted_of_amrwbDecode {n : Amrwb.Native} {data pcm : List UInt8} {maxFrames : Nat}
    (h : amrwbDecode n data maxFrames = .ok pcm) :
    ∃ fs, Amrwb.Accepted data maxFrames fs ∧ pcm.length = 640 * fs.length := by
  refine @Amrwb.accepted_of_decode n data pcm maxFrames _ (Nat.lt_succ_self _) ?_
  unfold amrwbDecode at h
  split at h
  · cases h
    assumption
  · split at h <;> cases h
  · cases h
  · cases h

/-- A stream with too many frames is too long. -/
theorem amrwbDecode_tooMany {n : Amrwb.Native} {data : List UInt8} {fs : List (List UInt8)} {maxFrames : Nat}
    (hs : Amrwb.IsStorage data fs) (hlt : maxFrames < fs.length) :
    ∃ err, amrwbDecode n data maxFrames = .error (.tooLong err) := by
  refine ⟨(Amrwb.Error.tooManyFrames maxFrames).text, ?_⟩
  rw [amrwbDecode, Amrwb.decode_tooMany hs hlt (Nat.lt_succ_self _)]
  rfl

/-- The playing time of whole frames. -/
theorem exactDuration_frames {pcm : List UInt8} {k : Nat} (h : pcm.length = 640 * k) :
    exactDuration pcm = k * amrwbFrameDuration := by
  rw [exactDuration, h, sampleDuration, amrwbFrameDuration]
  omega

/-- A storage stream with `k` frames has at most `9 + 61 * k` bytes. -/
theorem length_le_of_isStorage {data : List UInt8} {fs : List (List UInt8)} (h : Amrwb.IsStorage data fs) :
    data.length ≤ 9 + 61 * fs.length := by
  obtain ⟨rfl, hf⟩ := Amrwb.isStorage_iff.mp h
  have := Amrwb.length_flatten_le hf
  have hmagic : Amrwb.magic.length = 9 := rfl
  rw [List.length_append, hmagic]
  omega

end Limits

/-- The body arrives in full, and `net/http` reports its length, or -1 when it was not declared. -/
def HttpRequest.Complete (r : HttpRequest) : Prop :=
  r.broken = false ∧ (r.contentLength = -1 ∨ r.contentLength = r.body.length)

section ReadAudio

variable {host : HttpHost} {r : HttpRequest} {F B : Int}

/-- A complete body within the size limits is accepted exactly when it can be decoded. -/
theorem readAudio_within {pcm : List UInt8} (hl : httpAudioLimits host.cfg.maxDuration = (F, B))
    (htype : r.contentType = some "audio/amr-wb") (hr : r.Complete) (hlen : (r.body.length : Int) ≤ B) :
    readAudio host r = .ok pcm ↔ host.decode r.body F = .ok pcm := by
  obtain ⟨hbroken, hdeclared⟩ := hr
  have hdecl : ¬B < r.contentLength := by omega
  have hread : ¬max B 0 < (r.body.length : Int) := by omega
  simp only [readAudio, hl, htype, hbroken, ne_eq, not_true, if_false, hdecl, hread, Bool.false_eq_true]
  cases host.decode r.body F with
  | ok pcm' => simp only [Except.ok.injEq]
  | error e => cases e <;> exact ⟨nofun, nofun⟩

/-- A body beyond one of the size limits is too large. -/
theorem readAudio_large (hl : httpAudioLimits host.cfg.maxDuration = (F, B))
    (htype : r.contentType = some "audio/amr-wb")
    (hlarge : B < r.contentLength ∨ max B 0 < (r.body.length : Int)) :
    readAudio host r = .error ({ status := 413, error := "body too large" }, []) := by
  simp only [readAudio, hl, htype, ne_eq, not_true, if_false]
  split
  · rfl
  · rename_i hdecl
    rw [if_pos (hlarge.resolve_left hdecl)]

/-- `readAudio` of a body that was read in full. -/
theorem readAudio_tooLong {err : String} (hl : httpAudioLimits host.cfg.maxDuration = (F, B))
    (htype : r.contentType = some "audio/amr-wb") (hbroken : r.broken = false)
    (hdec : host.decode r.body F = .error (.tooLong err)) :
    ∃ err, readAudio host r = .error ({ status := 413, error := err }, []) := by
  by_cases hlarge : B < r.contentLength ∨ max B 0 < (r.body.length : Int)
  · exact ⟨_, readAudio_large hl htype hlarge⟩
  · rw [not_or] at hlarge
    refine ⟨err, ?_⟩
    simp only [readAudio, hl, htype, hbroken, ne_eq, not_true, if_false, hlarge.1, hlarge.2, Bool.false_eq_true, hdec]

end ReadAudio

/-- **The three limits agree.** For every positive maximum duration the frame limit `F` and the size limit `9 + 61 * F`
are computed without overflow. What `Decode` accepts is within the size limit and plays for at most the maximum
duration, so the handler accepts a complete body exactly when `Decode` does. A well-formed stream that plays longer is
rejected as too large. -/
theorem audio_limits_agree {host : DaemonHost} (hpos : 0 < host.cfg.maxDuration)
    (hint : host.cfg.maxDuration < 2 ^ 63) :
    ∃ F : Nat, httpAudioLimits host.cfg.maxDuration = (↑F, ↑(9 + 61 * F)) ∧
      (F * amrwbFrameDuration ≤ host.cfg.maxDuration ∧ host.cfg.maxDuration < (F + 1) * amrwbFrameDuration) ∧
      (∀ data pcm, amrwbDecode host.native data F = .ok pcm →
        data.length ≤ 9 + 61 * F ∧ pcm.length % 2 = 0 ∧ exactDuration pcm ≤ host.cfg.maxDuration) ∧
      (∀ r pcm, r.contentType = some "audio/amr-wb" → r.Complete →
        (readAudio host.httpHost r = .ok pcm ↔ amrwbDecode host.native r.body F = .ok pcm)) ∧
      ∀ r fs, r.contentType = some "audio/amr-wb" → r.broken = false → Amrwb.IsStorage r.body fs →
        host.cfg.maxDuration < fs.length * amrwbFrameDuration →
        ∃ err, readAudio host.httpHost r = .error ({ status := 413, error := err }, []) := by
  obtain ⟨F, hF⟩ : ∃ F : Nat, (F : Int) = host.cfg.maxDuration / amrwbFrameDuration :=
    ⟨_, Int.toNat_of_nonneg (Int.ediv_nonneg (Int.le_of_lt hpos) (by decide))⟩
  have hl : httpAudioLimits host.cfg.maxDuration = (↑F, ↑(9 + 61 * F)) := by
    rw [httpAudioLimits_eq (Int.le_of_lt hpos) hint, ← hF]
    rfl
  have hwithin : ∀ k : Nat, k ≤ F ↔ k * amrwbFrameDuration ≤ host.cfg.maxDuration := by
    intro k
    rw [← le_frameLimit_iff, ← hF]
    omega
  have haccept : ∀ data pcm, amrwbDecode host.native data F = .ok pcm →
      data.length ≤ 9 + 61 * F ∧ pcm.length % 2 = 0 ∧ exactDuration pcm ≤ host.cfg.maxDuration := by
    intro data pcm h
    obtain ⟨fs, ⟨hs, hle, -⟩, hlen⟩ := accepted_of_amrwbDecode h
    refine ⟨Nat.le_trans (length_le_of_isStorage hs) (by omega), by omega, ?_⟩
    rw [exactDuration_frames hlen]
    exact (hwithin _).mp hle
  refine ⟨F, hl, ⟨(hwithin F).mp (Nat.le_refl F), ?_⟩, haccept, fun r pcm htype hr => ?_,
    fun r fs htype hbroken hs hlt => ?_⟩
  · have := (hwithin (F + 1)).not.mp (by omega)
    push_cast at this
    omega
  · by_cases hlen : r.body.length ≤ 9 + 61 * F
    · exact @readAudio_within host.httpHost r F _ pcm hl htype hr (Int.ofNat_le.mpr hlen)
    · rw [readAudio_large hl htype (Or.inr (by omega))]
      exact ⟨nofun, fun h => absurd (haccept _ _ h).1 hlen⟩
  · have hmany : F < fs.length := Nat.lt_of_not_le fun hle => absurd ((hwithin _).mp hle) (Int.not_le.mpr hlt)
    obtain ⟨err, herr⟩ := @amrwbDecode_tooMany host.native _ _ _ hs hmany
    exact readAudio_tooLong hl htype hbroken herr

/-- A daemon on a decoder that hears silence, with this maximum duration. -/
def silentDaemon (maxDuration : Int) : DaemonHost where
  cfg := { whisperEndpoint := "http://127.0.0.1:8080", httpListen := "127.0.0.1:8081", maxDuration := maxDuration }
  tooLarge := fun _ => false
  native := Amrwb.silence
  decodeEnvironment := fun _ => .ok []

/-- A limit of 20 ms admits one frame and not two. -/
theorem audio_limits_agree_frame :
    readAudio (silentDaemon amrwbFrameDuration).httpHost silentRequest = .ok (List.replicate 640 0) ∧
      ∃ err, readAudio (silentDaemon amrwbFrameDuration).httpHost
        { silentRequest with contentLength := -1, body := Amrwb.magic ++ [0x7C, 0x7C] } =
          .error ({ status := 413, error := err }, []) := by
  obtain ⟨F, hl, -, -, haccept, hreject⟩ :=
    @audio_limits_agree (silentDaemon amrwbFrameDuration) (by decide) (by decide)
  have hF : F = 1 := by
    have hone : httpAudioLimits amrwbFrameDuration = (1, 70) := by decide
    have hfst : (1 : Int) = F := congrArg Prod.fst (hone.symm.trans hl)
    omega
  subst hF
  refine ⟨(haccept _ _ rfl ⟨rfl, Or.inr rfl⟩).mpr (by decide +kernel), ?_⟩
  exact hreject _ [[0x7C], [0x7C]] rfl rfl ⟨rfl, by decide⟩ (by decide)

/-! ## The duration of an admitted clip -/

/-- The duration of a clip with this number of frames is exact: it is 20 ms a frame, it is what `OnPCM` would add up if
the PCM came in even chunks that fit, and the clip is short exactly when it plays for no time or for less than the
minimum duration. -/
def DurationExact (cfg : Config) (id : Nat) (environment : Environment) (pcm : List UInt8) (frames : Nat) : Prop :=
  ∃ s, newRecordedSession id environment pcm = .ok s ∧ s.duration = frames * amrwbFrameDuration ∧
    (∀ (tooLarge : Nat → Bool) (o : String) (chunks : List (List UInt8)), chunks.flatten = pcm →
      (∀ c ∈ chunks, c.length % 2 = 0 ∧ Fits c) → (∀ k ≤ pcm.length, tooLarge k = false) →
      (chunks.foldl (fun s c => (s.onPCM tooLarge c).1) (newSession id o environment)).duration = s.duration) ∧
    (isShortSession cfg s = true ↔
      frames * amrwbFrameDuration = 0 ∨ frames * amrwbFrameDuration < cfg.minDuration)

section Exact

variable {cfg : Config} {id : Nat} {environment : Environment} {pcm : List UInt8} {frames : Nat}

/-- The product for whole frames is an int64. -/
theorem fits_frames_iff (hlen : pcm.length = 640 * frames) : Fits pcm ↔ frames ≤ 28823037 := by
  rw [Fits, hlen, second]
  omega

/-- What is short, by the exact duration. -/
theorem isShortSession_iff {s : Session} (h : 0 ≤ s.duration) :
    isShortSession cfg s = true ↔ s.duration = 0 ∨ s.duration < cfg.minDuration := by
  simp only [isShortSession, Bool.or_eq_true, Bool.and_eq_true, decide_eq_true_eq]
  omega

theorem durationExact_iff (hlen : pcm.length = 640 * frames) (hint : frames * amrwbFrameDuration < 2 ^ 63) :
    DurationExact cfg id environment pcm frames ↔ frames ≤ 28823037 := by
  have heven : pcm.length % 2 = 0 := by omega
  rw [← fits_frames_iff hlen, ← pcmDuration_eq_iff heven, DurationExact, newRecordedSession]
  have hexact := exactDuration_frames hlen
  constructor
  · rintro ⟨s, hs, hd, -⟩
    cases hp : pcmDuration pcm with
    | error err =>
      rw [hp] at hs
      cases hs
    | ok duration =>
      rw [hp] at hs
      cases hs
      rw [hexact, ← hd]
  · intro hp
    rw [hp]
    refine ⟨_, rfl, hexact, fun tooLarge o chunks he hc hlarge => ?_, ?_⟩
    · have hsum := @Session.onPCM_chunks tooLarge (newSession id o environment) chunks
        (fun c hm => (hc c hm).1) (fun c hm => (hc c hm).2)
      rw [he] at hsum
      rw [hsum (by simpa [newSession] using hlarge) (Int.le_refl _) (by rw [hexact]; simpa [newSession] using hint)]
      exact Int.zero_add _
    · rw [isShortSession_iff (exactDuration_nonneg pcm), hexact]

end Exact

/-- **The duration of an HTTP clip is exact** iff the clip has at most 28823037 frames. For every valid configuration,
and every body that is decoded under its frame limit. -/
theorem http_duration_exact_iff {host : DaemonHost} (hcfg : validateConfig host.cfg = none)
    (hint : host.cfg.maxDuration < 2 ^ 63) {body pcm : List UInt8}
    (hdec : amrwbDecode host.native body (httpAudioLimits host.cfg.maxDuration).1 = .ok pcm) :
    ∃ fs, Amrwb.IsStorage body fs ∧ pcm.length = 640 * fs.length ∧
      ∀ id environment, DurationExact host.cfg id environment pcm fs.length ↔ fs.length ≤ 28823037 := by
  have hpos : 0 ≤ host.cfg.maxDuration := (durations_of_validateConfig hcfg).1
  obtain ⟨F, hF⟩ : ∃ F : Nat, (F : Int) = host.cfg.maxDuration / amrwbFrameDuration :=
    ⟨_, Int.toNat_of_nonneg (Int.ediv_nonneg hpos (by decide))⟩
  rw [httpAudioLimits_eq hpos hint, ← hF] at hdec
  obtain ⟨fs, ⟨hs, hle, -⟩, hlen⟩ := accepted_of_amrwbDecode hdec
  refine ⟨fs, hs, hlen, fun id environment => durationExact_iff hlen ?_⟩
  have hmax := (@le_frameLimit_iff host.cfg.maxDuration fs.length).mp (by omega)
  exact Int.lt_of_le_of_lt hmax hint

/-- A clip of one frame. -/
theorem http_duration_exact_iff_frame :
    DurationExact (silentDaemon amrwbFrameDuration).cfg 1 [] (List.replicate 640 0) 1 := by
  obtain ⟨fs, -, hlen, hexact⟩ := @http_duration_exact_iff (silentDaemon amrwbFrameDuration) (by decide +kernel)
    (by decide) (Amrwb.magic ++ [0x7C]) (List.replicate 640 0) (by decide +kernel)
  have hone : fs.length = 1 := by
    rw [List.length_replicate] at hlen
    omega
  rw [hone] at hexact
  exact (hexact 1 []).mpr (by decide)

/-- Frames without data within the limits are decoded. -/
theorem amrwbDecode_noData {k F : Nat} (hle : k ≤ F) (hmax : k ≤ Amrwb.maxInt / Amrwb.pcmBytesPerFrame) :
    ∃ pcm, amrwbDecode Amrwb.silence (Amrwb.magic ++ (List.replicate k [0x7C]).flatten) F = .ok pcm := by
  have hf : Format.Frames Amrwb.size (List.replicate k [0x7C]) := fun f hm => by
    rw [List.eq_of_mem_replicate hm]
    rfl
  rw [← @List.length_replicate _ k [(0x7C : UInt8)]] at hle hmax
  have hfuel : (List.replicate k [(0x7C : UInt8)]).flatten.length <
      (Amrwb.magic ++ (List.replicate k [0x7C]).flatten).length + 1 := by
    rw [List.length_append]
    omega
  have hdec := Amrwb.decode_accepted (n := Amrwb.silence) rfl hf hle hmax hfuel
  rw [amrwbDecode, hdec]
  exact ⟨_, rfl⟩

/-- **The duration wraps** for 28823038 frames without data, which a maximum duration of 200 hours admits. -/
theorem http_duration_wraps : ¬∀ (host : DaemonHost) (body pcm : List UInt8), validateConfig host.cfg = none →
    host.cfg.maxDuration < 2 ^ 63 →
    amrwbDecode host.native body (httpAudioLimits host.cfg.maxDuration).1 = .ok pcm →
    ∃ fs, Amrwb.IsStorage body fs ∧ ∀ id environment, DurationExact host.cfg id environment pcm fs.length := by
  intro hall
  have hcfg : validateConfig (silentDaemon (720000 * second)).cfg = none := by decide +kernel
  have hlimit : (httpAudioLimits (720000 * second)).1 = ((36000000 : Nat) : Int) := by decide +kernel
  obtain ⟨k, hk⟩ : ∃ k, k = 28823038 := ⟨_, rfl⟩
  obtain ⟨pcm, hdec⟩ := @amrwbDecode_noData k 36000000 (by omega) (by rw [hk]; decide)
  have hdec' : amrwbDecode (silentDaemon (720000 * second)).native _
    (httpAudioLimits (silentDaemon (720000 * second)).cfg.maxDuration).1 = .ok pcm := hlimit.symm ▸ hdec
  obtain ⟨fs, hs, hexact⟩ := hall (silentDaemon (720000 * second)) _ pcm hcfg (by decide) hdec'
  obtain ⟨gs, ⟨hg, hle, -⟩, hlen⟩ := accepted_of_amrwbDecode hdec
  have hgs : gs = List.replicate k [0x7C] := by
    have hf : Amrwb.IsStorage (Amrwb.magic ++ (List.replicate k [0x7C]).flatten) (List.replicate k [0x7C]) :=
      ⟨rfl, fun f hm => by rw [List.eq_of_mem_replicate hm]; decide⟩
    exact Amrwb.storage_unique hg hf
  rw [Amrwb.storage_unique hs hg] at hexact
  have hcount : gs.length = k := by rw [hgs, List.length_replicate]
  have hbound : (gs.length : Int) * amrwbFrameDuration < 2 ^ 63 := by
    rw [amrwbFrameDuration]
    omega
  have := (durationExact_iff hlen hbound).mp (hexact 1 [])
  omega

end Talk2Text.Daemon
