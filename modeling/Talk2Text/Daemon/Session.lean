import Mathlib.Algebra.Group.Nat.Defs
import Mathlib.Algebra.Ring.Int.Defs
import Talk2Text.RequestEnv

/-!
# Recording sessions

`daemon/session`: the PCM of one clip, its duration and the environment of the request that started it. Durations are
`time.Duration`, int64 nanoseconds with wrap-around (`int64`).
-/

namespace Talk2Text

/-- Go's int64: the representative of an integer modulo `2^64`. -/
def int64 (x : Int) : Int := x.bmod (2 ^ 64)

/-- `time.Second`. -/
def second : Int := 1000000000

/-- `whisper.SampleRateHz`. -/
def sampleRateHz : Int := 16000

/-- One recording session. -/
structure Session where
  id : Nat
  buffer : List UInt8
  duration : Int
  originID : String
  environment : List String
  deriving DecidableEq, Repr

/-- `NewSession`: an empty session that captures the request environment. -/
def newSession (id : Nat) (originID : String) (environment : Environment) : Session where
  id := id
  buffer := []
  duration := 0
  originID := originID
  environment := environment.map fun (name, value) => name ++ "=" ++ value

/-- `pcmDuration`: the playing time of 16-bit mono PCM, or an error for an odd number of bytes. -/
def pcmDuration (pcm : List UInt8) : Except String Int :=
  let l := pcm.length
  if l % 2 ≠ 0 then .error s!"invalid pcm data: byte length {l} is not a multiple of 2"
  else .ok ((int64 ((l / 2 : Nat) * second)).tdiv sampleRateHz)

/-- `NewRecordedSession`: a session with all its audio, or an error for an odd number of bytes. -/
def newRecordedSession (id : Nat) (environment : Environment) (pcm : List UInt8) : Except String Session :=
  match pcmDuration pcm with
  | .error err => .error err
  | .ok duration =>
    .ok { newSession id (RequestEnv.originID environment) environment with buffer := pcm, duration := duration }

namespace Session

/-- The request with this session identifier comes from the owner of the recording. -/
def OwnedBy (s : Session) (originID : String) : Prop := originID ≠ "" ∧ s.originID = originID

/-- `clear`. -/
def clear (s : Session) : Session := { s with buffer := [], duration := 0 }

/-- `OnPCM`: append a chunk, or clear the session and return an error. `tooLarge n` says that `bytes.Buffer.Write`
panics when the buffer would grow to `n` bytes. -/
def onPCM (tooLarge : Nat → Bool) (s : Session) (pcm : List UInt8) : Session × Option String :=
  match pcmDuration pcm with
  | .error err => (s.clear, some err)
  | .ok delta =>
    if tooLarge (s.buffer.length + pcm.length) then
      (s.clear, some "failed to receive pcm data: bytes.Buffer: too large")
    else ({ s with buffer := s.buffer ++ pcm, duration := int64 (s.duration + delta) }, none)

variable (tooLarge : Nat → Bool) (s : Session) (pcm : List UInt8)

@[simp] theorem id_newSession (id : Nat) (o : String) (env : Environment) : (newSession id o env).id = id := rfl

@[simp] theorem originID_newSession (id : Nat) (o : String) (env : Environment) :
    (newSession id o env).originID = o := rfl

/-- Audio never changes whose recording a session is. -/
@[simp] theorem id_onPCM : (s.onPCM tooLarge pcm).1.id = s.id := by
  unfold onPCM clear
  split
  · rfl
  · split <;> rfl

@[simp] theorem originID_onPCM : (s.onPCM tooLarge pcm).1.originID = s.originID := by
  unfold onPCM clear
  split
  · rfl
  · split <;> rfl

@[simp] theorem environment_onPCM : (s.onPCM tooLarge pcm).1.environment = s.environment := by
  unfold onPCM clear
  split
  · rfl
  · split <;> rfl

end Session

end Talk2Text
