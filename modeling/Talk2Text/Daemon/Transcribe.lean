import Talk2Text.Sys.Gate
import Talk2Text.Daemon.Config
import Talk2Text.Daemon.Session

/-!
# Transcribing a clip

`daemon/transcribe.go`, up to the output of the transcript: a short clip goes to `processTranscript` at once; any
other one is counted in `ongoingTranscriptions`, sent to Whisper, and uncounted when the request returns. Whoever
uncounts the last clip sends on `transcriptionIdle`.

The goroutines share the counter and the channel (`Transcriptions`); every operation on them is a step of its own
(`longStep`, `localStep`). The counter is an integer: the daemon never has 2^31 clips in flight.

`longStep_gate` and `localStep_gate` say what the steps are to the gate of `Sys.Gate`.
-/

namespace Talk2Text.Daemon

open Sys

/-- What Whisper makes of a clip. -/
inductive WhisperResult
  | text (text : String)
  | error (err : String)
  deriving DecidableEq, Repr

/-- Effects of processing a clip. -/
inductive ClipEvent
  | notify (environment : List String) (level code message : String)
  | log (message : String)
  /-- `processTranscript` is called. -/
  | processTranscript (s : Session) (text : String) (transcribed : Bool)
  deriving DecidableEq, Repr

/-- What the transcribing goroutines share. -/
structure Transcriptions where
  /-- `ongoingTranscriptions`. -/
  ongoing : Int
  /-- The slot of `transcriptionIdle` is full. -/
  idle : Bool
  deriving DecidableEq, Repr

def Transcriptions.counter (t : Transcriptions) : Gate.Counter := ⟨t.ongoing, t.idle⟩

/-- `isShortSession`. -/
def isShortSession (cfg : Config) (s : Session) : Bool :=
  s.duration ≤ 0 || (0 < cfg.minDuration && s.duration < cfg.minDuration)

/-- A choice in a step of a clip. -/
inductive ClipMove
  | next
  /-- The Whisper request returns. -/
  | whisper (r : WhisperResult)
  /-- `select` receives from `transcriptionIdle`. -/
  | token
  /-- `select` sees that the context is done. -/
  | done
  deriving DecidableEq, Repr

/-! ## `processLongSession` -/

/-- The next action of `processLongSession`. -/
inductive LongPc
  /-- The notification, and the call of Whisper. -/
  | start
  /-- The Whisper request is running. -/
  | whisper
  /-- `ongoingTranscriptions.Add(-1)`. -/
  | subtract (r : WhisperResult)
  /-- The send on `transcriptionIdle`. -/
  | signal (r : WhisperResult)
  /-- The rest, with the result. -/
  | finish (r : WhisperResult)
  deriving DecidableEq, Repr

/-- `unicode.ToLower`, as far as it tells whether a text is the blank marker: besides the ASCII letters, `U+0130` and
`U+212A` have an ASCII lower case. -/
def lowerRune (c : Char) : Char :=
  if c = Char.ofNat 0x130 then 'i' else if c = Char.ofNat 0x212A then 'k' else c.toLower

/-- `strings.ToLower(text) == "[blank_audio]"`. -/
def isBlank (text : String) : Bool := text.toList.map lowerRune = "[blank_audio]".toList

/-- `processLongSession` after the clip is uncounted. -/
def finishLong (cancelled : Bool) (s : Session) : WhisperResult → List ClipEvent
  | .error err =>
    if cancelled then []
    else [.log s!"whisper server failed to transcribe clip {s.id}: {err}",
      .notify s.environment "error" "whisper" s!"Transcribing clip {s.id} failed"]
  | .text text =>
    [.notify s.environment "info" "transcribe-stop" s!"Finished transcript {s.id}",
      .processTranscript s (if isBlank text then "" else text) true]

/-- One step of `processLongSession`; the next action is `none` when it returns. -/
def longStep (cancelled : Bool) (t : Transcriptions) (s : Session) (pc : LongPc) (m : ClipMove) :
    Option (Transcriptions × Option LongPc × List ClipEvent) :=
  match pc, m with
  | .start, .next =>
    some (t, some .whisper, [.notify s.environment "info" "transcribe-start" s!"Transcribing clip {s.id}"])
  | .whisper, .whisper r => some (t, some (.subtract r), [])
  | .subtract r, .next =>
    if t.ongoing - 1 ≤ 0 then some ({ t with ongoing := t.ongoing - 1 }, some (.signal r), [])
    else some ({ t with ongoing := t.ongoing - 1 }, some (.finish r), [])
  | .signal r, .next => some ({ t with idle := true }, some (.finish r), [])
  | .finish r, .next => some (t, none, finishLong cancelled s r)
  | _, _ => none

/-! ## `transcribe` -/

/-- The next action of a local clip. -/
inductive LocalPc
  | transcribe
  /-- `ongoingTranscriptions.Add(1)`. -/
  | add
  | long (pc : LongPc)
  | returned
  deriving DecidableEq, Repr

/-- One step of `transcribe`. -/
def localStep (cfg : Config) (cancelled : Bool) (t : Transcriptions) (s : Session) (pc : LocalPc) (m : ClipMove) :
    Option (Transcriptions × LocalPc × List ClipEvent) :=
  match pc, m with
  | .transcribe, .next =>
    if isShortSession cfg s then some (t, .returned, [.processTranscript s "" false]) else some (t, .add, [])
  | .add, .next => some ({ t with ongoing := t.ongoing + 1 }, .long .start, [])
  | .long pc, m => (longStep cancelled t s pc m).map fun (t, pc, es) => (t, pc.elim .returned .long, es)
  | _, _ => none

/-! ## The gate -/

/-- Counted from the increment to the decrement; `reserved` for a clip that waited for its turn. -/
def LongPc.role (reserved : Bool) : LongPc → Gate.Role
  | .start | .whisper | .subtract _ => .inside reserved
  | .signal _ => .signalling
  | .finish _ => .outside

def LocalPc.role : LocalPc → Gate.Role
  | .transcribe | .add | .returned => .outside
  | .long pc => pc.role false

section Gate

variable {cfg : Config} {cancelled : Bool} {t t' : Transcriptions} {s : Session} {m : ClipMove} {es : List ClipEvent}

/-- **`processLongSession` at the gate.** -/
theorem longStep_gate {pc : LongPc} {pc' : Option LongPc} (b : Bool)
    (h : longStep cancelled t s pc m = some (t', pc', es)) :
    Gate.Acts t.counter (pc.role b) t'.counter (pc'.elim .outside (LongPc.role b)) := by
  unfold longStep at h
  split at h
  · cases h; exact .stay _ _
  · cases h; exact .stay _ _
  · split at h
    · rename_i hn
      cases h; exact .leaveLast _ b hn
    · rename_i hn
      cases h; exact .leave _ b (Int.not_le.mp hn)
  · cases h; exact .signal _
  · cases h; exact .stay _ _
  · cases h

/-- **A local clip at the gate.** -/
theorem localStep_gate {pc pc' : LocalPc} (h : localStep cfg cancelled t s pc m = some (t', pc', es)) :
    Gate.Acts t.counter pc.role t'.counter pc'.role := by
  unfold localStep at h
  split at h
  · split at h <;> cases h <;> exact .stay _ _
  · cases h; exact .enter _
  · obtain ⟨⟨t₁, p₁, es₁⟩, hl, h⟩ := Option.map_eq_some_iff.mp h
    cases h
    have := longStep_gate false hl
    cases p₁ <;> exact this
  · cases h

end Gate

end Talk2Text.Daemon
