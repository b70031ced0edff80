import Talk2Text.RequestEnv

/-!
# Daemon configuration

`daemon/config`: the settings that the modelled parts of the daemon read, and `ValidateConfig`. Durations are
nanoseconds.
-/

namespace Talk2Text

/-- The effective daemon configuration. -/
structure Config where
  /-- Stores the transcripts. -/
  runtimeDir : String := ""
  whisperEndpoint : String := ""
  /-- The command run after each completed clip; empty for none. -/
  outCmd : String := ""
  /-- The command used for notifications; empty for none. -/
  notifyCmd : String := ""
  /-- The address for HTTP requests; empty for none. -/
  httpListen : String := ""
  /-- Additional environment variables accepted from local and HTTP requests. -/
  allowClientEnv : List String := []
  /-- Clips shorter than this are not transcribed; zero transcribes every clip with audio. -/
  minDuration : Int := 0
  /-- The longest active recording; zero disables the automatic stop. -/
  maxDuration : Int := 0
  /-- How long recording continues after a stop request; zero stops immediately. -/
  stopDelay : Int := 0
  /-- How long the idle daemon keeps the audio stream open; zero closes it immediately. -/
  warmRetention : Int := 0
  /-- How many recent clip IDs keep their transcripts; zero disables the cleanup. -/
  transcriptRetentionWindow : Int := 0
  whisperConnectTimeout : Int := 0
  whisperRequestTimeout : Int := 0
  deriving DecidableEq, Repr

/-- `minConfigDuration`, 10 ms. -/
def minConfigDuration : Int := 10000000

/-- The error of `validateConfigDuration`. -/
def validateConfigDuration (name : String) (duration : Int) : Option String :=
  if duration < 0 then some (name ++ " must not be negative")
  else if 0 < duration ∧ duration < minConfigDuration then some (name ++ " must be 0s or at least 10ms")
  else none

/-- The error of the loop of `ValidateConfig` over the additional names. -/
def validateAllowClientEnv : List String → Option String
  | [] => none
  | name :: names =>
    match RequestEnv.validateName name with
    | some err => some ("invalid allowed client environment variable " ++ name ++ ": " ++ err)
    | none => validateAllowClientEnv names

/-- The error of `ValidateConfig`. -/
def validateConfig (cfg : Config) : Option String :=
  if cfg.whisperEndpoint = "" then some "whisper endpoint must not be empty"
  else if cfg.httpListen ≠ "" ∧ cfg.maxDuration = 0 then
    some "maximum duration must be nonzero when HTTP input is enabled"
  else
    (validateAllowClientEnv cfg.allowClientEnv).or <|
    (validateConfigDuration "minimum duration" cfg.minDuration).or <|
    (validateConfigDuration "maximum duration" cfg.maxDuration).or <|
    (validateConfigDuration "stop delay" cfg.stopDelay).or <|
    (validateConfigDuration "warm retention" cfg.warmRetention).or <|
    (if cfg.transcriptRetentionWindow < 0 then some "transcript retention window must not be negative" else none).or <|
    (validateConfigDuration "whisper connect timeout" cfg.whisperConnectTimeout).or <|
    (validateConfigDuration "whisper request timeout" cfg.whisperRequestTimeout).or <|
    if 0 < cfg.maxDuration ∧ cfg.maxDuration ≤ cfg.minDuration then
      some "maximum duration must be greater than minimum duration"
    else none

theorem validateAllowClientEnv_eq_none {names : List String} :
    validateAllowClientEnv names = none ↔ ∀ name ∈ names, RequestEnv.validateName name = none := by
  induction names with
  | nil => simp [validateAllowClientEnv]
  | cons name names ih =>
    rw [List.forall_mem_cons, ← ih, validateAllowClientEnv]
    cases RequestEnv.validateName name <;> simp

/-- **A validated configuration** allows only names that can stand in an environment. -/
theorem validateName_of_validateConfig {cfg : Config} (h : validateConfig cfg = none) {name : String}
    (hm : name ∈ cfg.allowClientEnv) : RequestEnv.validateName name = none := by
  unfold validateConfig at h
  split at h
  · cases h
  · split at h
    · cases h
    · exact validateAllowClientEnv_eq_none.mp (Option.or_eq_none_iff.mp h).1 name hm

/-- The names that a validated configuration allows in a request can stand in an environment. -/
theorem validateName_of_allowed {cfg : Config} (h : validateConfig cfg = none) {name : String}
    (hm : name ∈ RequestEnv.predefinedNames ++ cfg.allowClientEnv) : RequestEnv.validateName name = none := by
  rcases List.mem_append.mp hm with hm | hm
  · exact RequestEnv.validateName_predefined name hm
  · exact validateName_of_validateConfig h hm

theorem nonneg_of_validateConfigDuration {name : String} {duration : Int}
    (h : validateConfigDuration name duration = none) : 0 ≤ duration := by
  unfold validateConfigDuration at h
  split at h
  · cases h
  · rename_i hneg
    exact Int.not_lt.mp hneg

/-- A validated configuration has durations that are not negative, and a maximum duration above the minimum. -/
theorem durations_of_validateConfig {cfg : Config} (h : validateConfig cfg = none) :
    0 ≤ cfg.maxDuration ∧ 0 ≤ cfg.minDuration ∧ (0 < cfg.maxDuration → cfg.minDuration < cfg.maxDuration) := by
  unfold validateConfig at h
  split at h
  · cases h
  · split at h
    · cases h
    · simp only [Option.or_eq_none_iff] at h
      obtain ⟨-, hmin, hmax, -, -, -, -, -, hlt⟩ := h
      refine ⟨nonneg_of_validateConfigDuration hmax, nonneg_of_validateConfigDuration hmin, fun hpos => ?_⟩
      split at hlt
      · cases hlt
      · rename_i hle
        exact Int.not_le.mp fun hge => hle ⟨hpos, hge⟩

end Talk2Text
