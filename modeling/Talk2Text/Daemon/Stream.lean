import Talk2Text.Sys.Basic
import Talk2Text.Daemon.Session

/-!
# The stream manager

`daemon/stream.go`: the desired state of the microphone stream, the one-slot signal channel, and the goroutine
`streamManager` that opens, starts, stops and closes the stream.

`Control` holds what the manager and the other goroutines share (`desiredStreamState`, `desiredStreamEnvironment`, the
signal), the manager's own `d.stream`, and the point where the manager stands (`ManagerPc`). A section under
`muCapture`, the beginning and the return of a call of the audio backend, and an operation on the signal channel are
steps of their own (`managerStep`), so the other goroutines may act between any two of them. `Moves` lists what a step
of the manager can do, case by case (`managerStep_moves`).

The results of the backend calls are free: `Move.ret ok` says whether the call in progress succeeded.
-/

namespace Talk2Text.Daemon

/-- `streamState`. -/
inductive StreamState
  | off
  | warm
  | recording
  deriving DecidableEq, Repr

/-- The desired states that need an open stream. -/
inductive OpenState
  | warm
  | recording
  deriving DecidableEq, Repr

/-- `Start` and `Stop` of `audiocapture.Stream`. -/
inductive StreamCall
  | start
  | stop
  deriving DecidableEq, Repr

namespace OpenState

def state : OpenState → StreamState
  | .warm => .warm
  | .recording => .recording

/-- The call that puts an open stream into the state. -/
def call : OpenState → StreamCall
  | .warm => .stop
  | .recording => .start

@[simp] theorem state_ne_off (d : OpenState) : d.state ≠ .off := by cases d <;> simp [state]

end OpenState

/-- An open `audiocapture.Stream` and its last successful call. -/
structure Stream where
  id : Nat
  last : Option StreamCall
  deriving DecidableEq, Repr

/-- The call that failed: `openStream`, or `Start`/`Stop` on the open stream. -/
inductive FailedOp
  | openStream
  | call
  deriving DecidableEq, Repr

/-- What `logNotifyError` is about to be called with. In the recording branches the session is `d.active`, which the
code dereferences without a check. -/
inductive Report
  | warm (op : FailedOp) (environment : List String)
  | recording (op : FailedOp) (s : Option Session)
  deriving DecidableEq, Repr

/-- Where the manager goes on after `stream.Close` returns. -/
inductive AfterClose
  | select
  | report (r : Report)
  | exit
  deriving DecidableEq, Repr

/-- The point where `streamManager` stands. -/
inductive ManagerPc
  /-- Blocked in the `select` of the loop. -/
  | select
  /-- The signal is received, `muCapture` not yet taken. -/
  | received
  /-- The desired state is read, `muCapture` released. -/
  | decided (desired : StreamState)
  /-- `newAudio` is running. -/
  | opening (d : OpenState)
  /-- `openStream` returned an error, `muCapture` not yet taken. -/
  | openFailed (d : OpenState)
  /-- `openStream` returned nil. -/
  | opened (d : OpenState)
  /-- `stream.Stop` or `stream.Start` is running. -/
  | calling (d : OpenState)
  /-- That call returned an error, `muCapture` not yet taken. -/
  | callFailed (d : OpenState)
  /-- The desired state was given up, `closeStream` comes next. -/
  | mustClose (r : Report)
  /-- `stream.Close` is running. -/
  | closing (k : AfterClose)
  /-- `logNotifyError` comes next. -/
  | reporting (r : Report)
  /-- The deferred functions run. -/
  | exiting
  /-- `streamManagerDone` is closed. -/
  | returned
  /-- A nil pointer was dereferenced. -/
  | crashed
  deriving DecidableEq, Repr

def AfterClose.pc : AfterClose → ManagerPc
  | .select => .select
  | .report r => .reporting r
  | .exit => .returned

/-- The manager stands before the section that handles the failure of `op`. -/
def FailedOp.pc (d : OpenState) : FailedOp → ManagerPc
  | .openStream => .openFailed d
  | .call => .callFailed d

/-- The point after that section when the desired state was given up. -/
def FailedOp.givenUp (r : Report) : FailedOp → ManagerPc
  | .openStream => .reporting r
  | .call => .mustClose r

/-- The shared and the manager's own state of the microphone stream. -/
structure Control where
  desiredStreamState : StreamState
  desiredStreamEnvironment : List String
  /-- The slot of `desiredStreamStateSignal` is full. -/
  signal : Bool
  pc : ManagerPc
  /-- `d.stream`. -/
  stream : Option Stream
  /-- How many streams `newAudio` has returned. -/
  nextStream : Nat
  deriving DecidableEq, Repr

/-- Effects of the manager. -/
inductive StreamEvent
  | opened (id : Nat)
  | call (id : Nat) (c : StreamCall)
  | close (id : Nat)
  | logNotifyError (environment : List String) (code msg : String)
  | nilDeref
  deriving DecidableEq, Repr

/-! ## Desired states -/

namespace Control

def initial : Control := ⟨.off, [], false, .select, none, 0⟩

/-- `signalStreamManager`: a send that is dropped when the slot is full. -/
def signalStreamManager (c : Control) : Control := { c with signal := true }

def desireStreamOff (c : Control) : Control :=
  { c with desiredStreamState := .off, desiredStreamEnvironment := [] }.signalStreamManager

def desireStreamWarm (environment : List String) (c : Control) : Control :=
  { c with desiredStreamState := .warm, desiredStreamEnvironment := environment }.signalStreamManager

def desireStreamRecording (c : Control) : Control :=
  { c with desiredStreamState := .recording, desiredStreamEnvironment := [] }.signalStreamManager

section Desire

variable (c : Control) (env : List String)

@[simp] theorem desired_off : c.desireStreamOff.desiredStreamState = .off := rfl
@[simp] theorem desired_warm : (c.desireStreamWarm env).desiredStreamState = .warm := rfl
@[simp] theorem desired_recording : c.desireStreamRecording.desiredStreamState = .recording := rfl

end Desire

end Control

/-! ## Steps of the manager -/

/-- A choice in a step of the manager. -/
inductive Move
  /-- `select` receives the signal. -/
  | receive
  /-- `select` sees that the context is done. -/
  | done
  /-- A step without a choice. -/
  | next
  /-- The running call returns. -/
  | ret (ok : Bool)
  deriving DecidableEq, Repr

/-- The new state, the effects, and whether the step discards `d.active`. -/
abbrev Moved := Control × List StreamEvent × Bool

/-- `closeStream` up to the call of `stream.Close`. -/
def closeStream (k : AfterClose) (c : Control) : Moved :=
  match c.stream with
  | some st => ({ c with stream := none, pc := .closing k }, [.close st.id], false)
  | none => ({ c with pc := .crashed }, [.nilDeref], false)

/-- `openStream` up to the call of `d.newAudio`. -/
def openStream (d : OpenState) (c : Control) : Moved :=
  if c.stream.isSome then ({ c with pc := .opened d }, [], false) else ({ c with pc := .opening d }, [], false)

/-- The section under `muCapture` after `op` failed: nothing when the desired state has changed meanwhile, otherwise
the stream is desired off and, for a recording, the active session is discarded. -/
def giveUp (d : OpenState) (op : FailedOp) (active : Option Session) (c : Control) : Moved :=
  if c.desiredStreamState ≠ d.state then ({ c with pc := .select }, [], false)
  else
    let r : Report := match d with
      | .warm => .warm op c.desiredStreamEnvironment
      | .recording => .recording op active
    ({ c with desiredStreamState := .off, desiredStreamEnvironment := [], pc := op.givenUp r }, [], d = .recording)

/-- `logNotifyError`. -/
def Report.emit : Report → List StreamEvent
  | .warm .openStream env => [.logNotifyError env "audio-capture" "failed to open audio capture to stay warm"]
  | .warm .call env => [.logNotifyError env "audio-capture" "failed to stop audio capture and stay warm"]
  | .recording _ none => [.nilDeref]
  | .recording .openStream (some s) =>
    [.logNotifyError s.environment "audio-capture" s!"failed to open audio capture for clip {s.id}"]
  | .recording .call (some s) =>
    [.logNotifyError s.environment "audio-capture" s!"failed to start audio capture for clip {s.id}"]

/-- The report does not dereference a nil session. -/
def Report.Sound : Report → Prop
  | .warm _ _ => True
  | .recording _ s => s.isSome = true

/-- One step of `streamManager`; `active` is `d.active` at that moment. -/
def managerStep (cancelled : Bool) (active : Option Session) (c : Control) (m : Move) : Option Moved :=
  match c.pc, m with
  | .select, .done => if cancelled then some ({ c with pc := .exiting }, [], false) else none
  | .select, .receive => if c.signal then some ({ c with signal := false, pc := .received }, [], false) else none
  | .received, .next => some ({ c with pc := .decided c.desiredStreamState }, [], false)
  | .decided .off, .next =>
    if c.stream.isSome then some (closeStream .select c) else some ({ c with pc := .select }, [], false)
  | .decided .warm, .next => some (openStream .warm c)
  | .decided .recording, .next => some (openStream .recording c)
  | .opening d, .ret true =>
    some ({ c with stream := some ⟨c.nextStream, none⟩, nextStream := c.nextStream + 1, pc := .opened d },
      [.opened c.nextStream], false)
  | .opening d, .ret false => some ({ c with pc := .openFailed d }, [], false)
  | .openFailed d, .next => some (giveUp d .openStream active c)
  | .opened d, .next =>
    match c.stream with
    | some st => some ({ c with pc := .calling d }, [.call st.id d.call], false)
    | none => some ({ c with pc := .crashed }, [.nilDeref], false)
  | .calling d, .ret true =>
    some ({ c with stream := c.stream.map fun st => { st with last := some d.call }, pc := .select }, [], false)
  | .calling d, .ret false => some ({ c with pc := .callFailed d }, [], false)
  | .callFailed d, .next => some (giveUp d .call active c)
  | .mustClose r, .next => some (closeStream (.report r) c)
  -- an error of `Close` is only logged
  | .closing k, .ret _ => some ({ c with pc := k.pc }, [], false)
  | .reporting (.recording _ none), .next => some ({ c with pc := .crashed }, [.nilDeref], false)
  | .reporting r, .next => some ({ c with pc := .select }, r.emit, false)
  | .exiting, .next =>
    if c.stream.isSome then some (closeStream .exit c) else some ({ c with pc := .returned }, [], false)
  | _, _ => none

/-- What a step of the manager can do: its guard, the new state, the effects, whether it discards `d.active`. -/
inductive Moves (cancelled : Bool) (active : Option Session) (c : Control) :
    Move → Control → List StreamEvent → Bool → Prop
  | done : c.pc = .select → cancelled = true → Moves cancelled active c .done { c with pc := .exiting } [] false
  | receive : c.pc = .select → c.signal = true →
      Moves cancelled active c .receive { c with signal := false, pc := .received } [] false
  | read : c.pc = .received → Moves cancelled active c .next { c with pc := .decided c.desiredStreamState } [] false
  | stayOff : c.pc = .decided .off → c.stream = none →
      Moves cancelled active c .next { c with pc := .select } [] false
  | closeOff (st : Stream) : c.pc = .decided .off → c.stream = some st →
      Moves cancelled active c .next { c with stream := none, pc := .closing .select } [.close st.id] false
  | openNew (d : OpenState) : c.pc = .decided d.state → c.stream = none →
      Moves cancelled active c .next { c with pc := .opening d } [] false
  | keepOpen (d : OpenState) : c.pc = .decided d.state → c.stream.isSome = true →
      Moves cancelled active c .next { c with pc := .opened d } [] false
  | openOk (d : OpenState) : c.pc = .opening d →
      Moves cancelled active c (.ret true)
        { c with stream := some ⟨c.nextStream, none⟩, nextStream := c.nextStream + 1, pc := .opened d }
        [.opened c.nextStream] false
  | openErr (d : OpenState) : c.pc = .opening d →
      Moves cancelled active c (.ret false) { c with pc := .openFailed d } [] false
  | call (d : OpenState) (st : Stream) : c.pc = .opened d → c.stream = some st →
      Moves cancelled active c .next { c with pc := .calling d } [.call st.id d.call] false
  | callNil (d : OpenState) : c.pc = .opened d → c.stream = none →
      Moves cancelled active c .next { c with pc := .crashed } [.nilDeref] false
  | callOk (d : OpenState) : c.pc = .calling d →
      Moves cancelled active c (.ret true)
        { c with stream := c.stream.map fun st => { st with last := some d.call }, pc := .select } [] false
  | callErr (d : OpenState) : c.pc = .calling d →
      Moves cancelled active c (.ret false) { c with pc := .callFailed d } [] false
  | changed (d : OpenState) (op : FailedOp) : c.pc = op.pc d → c.desiredStreamState ≠ d.state →
      Moves cancelled active c .next { c with pc := .select } [] false
  | giveUpWarm (op : FailedOp) : c.pc = op.pc .warm → c.desiredStreamState = .warm →
      Moves cancelled active c .next
        { c with desiredStreamState := .off, desiredStreamEnvironment := []
                 pc := op.givenUp (.warm op c.desiredStreamEnvironment) } [] false
  | giveUpRecording (op : FailedOp) : c.pc = op.pc .recording → c.desiredStreamState = .recording →
      Moves cancelled active c .next
        { c with desiredStreamState := .off, desiredStreamEnvironment := []
                 pc := op.givenUp (.recording op active) } [] true
  | close (r : Report) (st : Stream) : c.pc = .mustClose r → c.stream = some st →
      Moves cancelled active c .next { c with stream := none, pc := .closing (.report r) } [.close st.id] false
  | closeNil (r : Report) : c.pc = .mustClose r → c.stream = none →
      Moves cancelled active c .next { c with pc := .crashed } [.nilDeref] false
  | closed (k : AfterClose) (ok : Bool) : c.pc = .closing k →
      Moves cancelled active c (.ret ok) { c with pc := k.pc } [] false
  | report (r : Report) : c.pc = .reporting r → r.Sound →
      Moves cancelled active c .next { c with pc := .select } r.emit false
  | reportNil (op : FailedOp) : c.pc = .reporting (.recording op none) →
      Moves cancelled active c .next { c with pc := .crashed } [.nilDeref] false
  | exitClose (st : Stream) : c.pc = .exiting → c.stream = some st →
      Moves cancelled active c .next { c with stream := none, pc := .closing .exit } [.close st.id] false
  | exit : c.pc = .exiting → c.stream = none →
      Moves cancelled active c .next { c with pc := .returned } [] false

section Moves

variable {cancelled : Bool} {active : Option Session} {c c' : Control} {m : Move} {es : List StreamEvent} {b : Bool}

theorem openStream_moves {d : OpenState} (hpc : c.pc = .decided d.state) (h : openStream d c = (c', es, b)) :
    Moves cancelled active c .next c' es b := by
  unfold openStream at h
  split at h
  · rename_i hs
    cases h; exact .keepOpen d hpc hs
  · rename_i hs
    cases h; exact .openNew d hpc (by simpa using hs)

theorem giveUp_moves {d : OpenState} {op : FailedOp} (hpc : c.pc = op.pc d)
    (h : giveUp d op active c = (c', es, b)) : Moves cancelled active c .next c' es b := by
  unfold giveUp at h
  split at h
  · rename_i hd
    cases h; exact .changed d op hpc hd
  · rename_i hd
    rw [Decidable.not_not] at hd
    cases d with
    | warm => cases h; exact .giveUpWarm op hpc hd
    | recording => cases h; exact .giveUpRecording op hpc hd

/-- **The steps of the manager.** -/
theorem managerStep_moves (h : managerStep cancelled active c m = some (c', es, b)) :
    Moves cancelled active c m c' es b := by
  unfold managerStep at h
  split at h
  · rename_i hpc
    split at h
    · rename_i hc
      cases h; exact .done hpc hc
    · cases h
  · rename_i hpc
    split at h
    · rename_i hs
      cases h; exact .receive hpc hs
    · cases h
  · rename_i hpc
    cases h; exact .read hpc
  · rename_i hpc
    unfold closeStream at h
    split at h
    · split at h
      · rename_i st hst
        cases h; exact .closeOff st hpc hst
      · rename_i hs _ hst
        rw [hst] at hs; cases hs
    · rename_i hs
      cases h; exact .stayOff hpc (by simpa using hs)
  · rename_i hpc
    exact openStream_moves (d := .warm) hpc (Option.some.inj h)
  · rename_i hpc
    exact openStream_moves (d := .recording) hpc (Option.some.inj h)
  · rename_i d hpc
    cases h; exact .openOk d hpc
  · rename_i d hpc
    cases h; exact .openErr d hpc
  · rename_i d hpc
    exact giveUp_moves (show c.pc = FailedOp.openStream.pc d from hpc) (Option.some.inj h)
  · rename_i d hpc
    split at h
    · rename_i st hst
      cases h; exact .call d st hpc hst
    · rename_i hst
      cases h; exact .callNil d hpc hst
  · rename_i d hpc
    cases h; exact .callOk d hpc
  · rename_i d hpc
    cases h; exact .callErr d hpc
  · rename_i d hpc
    exact giveUp_moves (show c.pc = FailedOp.call.pc d from hpc) (Option.some.inj h)
  · rename_i r hpc
    unfold closeStream at h
    split at h
    · rename_i st hst
      cases h; exact .close r st hpc hst
    · rename_i hst
      cases h; exact .closeNil r hpc hst
  · rename_i k ok hpc
    cases h; exact .closed k ok hpc
  · rename_i op hpc
    cases h; exact .reportNil op hpc
  · rename_i r hr hpc
    cases h
    refine .report r hpc ?_
    cases r with
    | warm => trivial
    | recording op s =>
      cases s with
      | none => exact absurd rfl (hr op)
      | some s => rfl
  · rename_i hpc
    unfold closeStream at h
    split at h
    · split at h
      · rename_i st hst
        cases h; exact .exitClose st hpc hst
      · rename_i hs _ hst
        rw [hst] at hs; cases hs
    · rename_i hs
      cases h; exact .exit hpc (by simpa using hs)
  · cases h

end Moves

end Talk2Text.Daemon
