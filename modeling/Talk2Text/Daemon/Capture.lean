import Talk2Text.Util.Timer
import Talk2Text.Daemon.Config
import Talk2Text.Daemon.StreamSync

/-!
# Local capture

`daemon/daemon.go`: the active session, the delayed stop, the warm timer and the sections under `muCapture` that
change them. A section runs to its end before another takes the mutex, so each is one step: a function from the state
to the new state and the replies it gives.

What a goroutine does after it has released the mutex (notifications, and handing a finished session to `transcribe`)
is a `Task`: the section leaves it behind, and it runs as a step of its own, at any later time.

The delayed-stop timers are kept in the order of their creation, and `stopTimer` refers to one of them: a timer that
the daemon has forgotten may still have a released callback.
-/

namespace Talk2Text.Daemon

open Sys

/-- What the daemon runs on: its configuration, and the sizes to which `bytes.Buffer` does not grow. -/
structure Host where
  cfg : Config
  tooLarge : Nat → Bool

/-- A timer created by `stop`, with the clip ID that its callback captures. -/
structure StopTimer where
  clipID : Nat
  timer : CallbackTimer
  deriving DecidableEq, Repr

/-- What a goroutine still has to do after its section. -/
inductive Task
  /-- `processStoppedSession`. -/
  | processStoppedSession (s : Session)
  /-- The end of `onAudio` after the first chunk of a session. -/
  | recordStart (s : Session)
  /-- The end of `onAudio` after the maximum duration is reached. -/
  | maxDuration (s : Session) (wasEmpty : Bool)
  /-- The end of `onAudio` after `OnPCM` failed. -/
  | pcmError (s : Session) (err : String)
  deriving DecidableEq, Repr

/-- The state that `muCapture` protects, the goroutines past their section, and the stream manager. -/
structure Capture where
  active : Option Session
  nextClip : Nat
  /-- The index of the timer in `stopTimers`. -/
  stopTimer : Option Nat
  pendingStopClip : Nat
  /-- Every delayed-stop timer created so far. -/
  stopTimers : List StopTimer
  warmTimer : Timer
  ctl : Control
  /-- The context is cancelled. -/
  cancelled : Bool
  tasks : List Task
  deriving DecidableEq, Repr

/-- Effects of the daemon that others see. -/
inductive Event
  /-- What a request reads from `errChan`. -/
  | reply (err : Option String)
  /-- A local session is handed to `transcribe`. -/
  | transcribe (s : Session)
  | notify (environment : List String) (level code message : String)
  | log (message : String)
  | stream (e : StreamEvent)
  deriving DecidableEq, Repr

/-- The effects of a task. -/
def Task.run : Task → List Event
  | .processStoppedSession s =>
    (if 0 < s.duration then [.notify s.environment "info" "record-stop" s!"Recording clip {s.id} stopped"] else []) ++
      [.transcribe s]
  | .recordStart s => [.notify s.environment "info" "record-start" s!"Recording clip {s.id}"]
  | .maxDuration s wasEmpty =>
    (if wasEmpty then [.notify s.environment "info" "record-start" s!"Recording clip {s.id}"] else []) ++
      [.notify s.environment "info" "record-stop" s!"Recording clip {s.id} stopped with max duration", .transcribe s]
  | .pcmError s err =>
    [.log s!"failed to write PCM bytes of clip {s.id}: {err}",
      .notify s.environment "error" "audio-capture" s!"Failed to record clip {s.id}"]

namespace Capture

/-! ## Helpers that need the mutex -/

def addTask (τ : Task) (s : Capture) : Capture := { s with tasks := s.tasks ++ [τ] }

/-- `cancelPendingStop`: stop and forget the delayed-stop timer. -/
def cancelPendingStop (s : Capture) : Capture :=
  { s with
    stopTimers := match s.stopTimer with
      | some i => s.stopTimers.modify i fun t => { t with timer := t.timer.stop }
      | none => s.stopTimers
    stopTimer := none
    pendingStopClip := 0 }

/-- `d.warmTimer.Start()`: an immediate timer calls `desireStreamOff` at once. -/
def startWarmTimer (s : Capture) : Capture :=
  let started := s.warmTimer.start
  let s := { s with warmTimer := started.1 }
  if started.2 then { s with ctl := s.ctl.desireStreamOff } else s

/-- `stopActiveSession`, `a` being the active session. -/
def stopActiveSession (a : Session) (s : Capture) : Capture :=
  let s := { s with active := none }.cancelPendingStop
  { s with ctl := s.ctl.desireStreamWarm a.environment }.startWarmTimer

/-- `stopActiveSession`, and `processStoppedSession` after the section. -/
def finish (a : Session) (s : Capture) : Capture := (s.stopActiveSession a).addTask (.processStoppedSession a)

/-! ## The sections -/

/-- The transition of an accepted `start`: the warm timer and a pending stop are cancelled, a new session begins. -/
def beginSession (environment : Environment) (s : Capture) : Capture :=
  let s := { s with warmTimer := s.warmTimer.stop }.cancelPendingStop
  { s with
    active := some (newSession s.nextClip (RequestEnv.originID environment) environment)
    nextClip := s.nextClip + 1
    ctl := s.ctl.desireStreamRecording }

/-- `start`. -/
def start (environment : Environment) (s : Capture) : Capture × List Event :=
  let originID := RequestEnv.originID environment
  if originID = "" then (s, [.reply (some "start request requires a session identifier")])
  else if s.active.any fun a => a.originID ≠ originID then (s, [.reply (some "recording busy")])
  else
    match s.active.filter fun a => a.id = s.pendingStopClip with
    | some stopped => ((s.beginSession environment).addTask (.processStoppedSession stopped), [.reply none])
    | none => (s.beginSession environment, [.reply none])

/-- Schedule the delayed stop of the active session `a`. -/
def schedule (a : Session) (early : Bool) (s : Capture) : Capture :=
  { s with
    pendingStopClip := a.id
    stopTimer := some s.stopTimers.length
    stopTimers := s.stopTimers ++ [⟨a.id, (newCallbackTimer early).start⟩] }

/-- `stop`; `early` when the new timer fires inside `NewCallbackTimer`. -/
def stop (cfg : Config) (originID : String) (early : Bool) (s : Capture) : Capture × List Event :=
  match s.active with
  | none => (s, [.reply none])
  | some a =>
    if originID = "" ∨ a.originID ≠ originID then (s, [.reply none])
    else if 0 < cfg.stopDelay then
      -- a repeated stop does not extend the delay
      if s.pendingStopClip = a.id then (s, [.reply none])
      else if s.pendingStopClip = 0 then (s.schedule a early, [.reply none])
      else (s.finish a, [.reply none])
    else (s.finish a, [.reply none])

/-- The callback of a delayed-stop timer. -/
def delayedStop (clipID : Nat) (s : Capture) : Capture :=
  match s.active with
  | none => s
  | some a => if a.id ≠ clipID ∨ s.pendingStopClip ≠ clipID then s else s.finish a

/-- The callback of the warm timer. -/
def warmExpired (s : Capture) : Capture :=
  if s.active.isNone then { s with ctl := s.ctl.desireStreamOff } else s

/-- The end of a recording inside `onAudio`; the warm timer is not started. -/
def endRecording (environment : List String) (s : Capture) : Capture :=
  let s := { s.cancelPendingStop with active := none }
  { s with ctl := s.ctl.desireStreamWarm environment }

/-- `onAudio`. -/
def onAudio (host : Host) (pcm : List UInt8) (s : Capture) : Capture :=
  if pcm = [] then s
  else
    match s.active with
    | none => s
    | some a =>
      let wasEmpty : Bool := a.duration = 0
      match a.onPCM host.tooLarge pcm with
      | (a', some err) => (s.endRecording a'.environment).addTask (.pcmError a' err)
      | (a', none) =>
        if 0 < host.cfg.maxDuration ∧ host.cfg.maxDuration ≤ a'.duration then
          (s.endRecording a'.environment).addTask (.maxDuration a' wasEmpty)
        else if wasEmpty then { s with active := some a' }.addTask (.recordStart a')
        else { s with active := some a' }

/-- `shutdown`. -/
def shutdown (s : Capture) : Capture :=
  let s := { s with warmTimer := s.warmTimer.stop }.cancelPendingStop
  { s with active := none, ctl := s.ctl.desireStreamOff }

/-- The section of `handleHTTP` that allocates a clip ID. -/
def allocateClip (s : Capture) : Capture := { s with nextClip := s.nextClip + 1 }

/-- The failure sections of `streamManager` also discard the active session. -/
def discardActive (s : Capture) : Capture := { s.cancelPendingStop with active := none }

end Capture

/-! ## The system -/

/-- The atomic steps. -/
inductive Label
  | start (environment : Environment)
  | stop (originID : String) (early : Bool)
  /-- The delay of stop timer `i` elapses. -/
  | stopTimerExpires (i : Nat)
  /-- The `k`-th released callback of stop timer `i` gets the mutex. -/
  | delayedStop (i k : Nat)
  | warmTimerExpires
  /-- The `k`-th released callback of the warm timer gets the mutex. -/
  | warmCallback (k : Nat)
  | audio (pcm : List UInt8)
  | shutdown
  /-- The context is cancelled. -/
  | cancel
  /-- An HTTP submission allocates its clip ID. -/
  | allocateClip
  | manager (m : Move)
  /-- A goroutine past its section runs its task. -/
  | task (i : Nat)
  deriving DecidableEq, Repr

/-- `Run`, up to `go d.streamManager()`. -/
def Capture.initial (cfg : Config) (early : Bool) : Capture where
  active := none
  nextClip := 1
  stopTimer := none
  pendingStopClip := 0
  stopTimers := []
  warmTimer := if 0 < cfg.warmRetention then .callback (newCallbackTimer early) else .immediate
  ctl := Control.initial
  cancelled := false
  tasks := []

/-- One atomic step. -/
def captureStep (host : Host) (s : Capture) : Label → Option (Capture × List Event)
  | .start environment => some (s.start environment)
  | .stop originID early => some (s.stop host.cfg originID early)
  | .stopTimerExpires i =>
    match s.stopTimers[i]? with
    | none => none
    | some t => t.timer.expire.map fun tm => ({ s with stopTimers := s.stopTimers.set i { t with timer := tm } }, [])
  | .delayedStop i k =>
    match s.stopTimers[i]? with
    | none => none
    | some t =>
      (t.timer.take k).map fun tm =>
        ({ s with stopTimers := s.stopTimers.set i { t with timer := tm } }.delayedStop t.clipID, [])
  | .warmTimerExpires => s.warmTimer.expire.map fun tm => ({ s with warmTimer := tm }, [])
  | .warmCallback k => (s.warmTimer.take k).map fun tm => ({ s with warmTimer := tm }.warmExpired, [])
  | .audio pcm => some (s.onAudio host pcm, [])
  | .shutdown => some (s.shutdown, [])
  | .cancel => some ({ s with cancelled := true }, [])
  | .allocateClip => some (s.allocateClip, [])
  | .manager m =>
    (managerStep s.cancelled s.active s.ctl m).map fun (c, es, discard) =>
      (if discard then { s.discardActive with ctl := c } else { s with ctl := c }, es.map .stream)
  | .task i =>
    match s.tasks[i]? with
    | none => none
    | some τ => some ({ s with tasks := s.tasks.eraseIdx i }, τ.run)

/-- The daemon's capture: every interleaving of the sections, the timers, the stream manager and the tasks. -/
def captureSystem (host : Host) : System Capture Label Event where
  init s := ∃ early, s = Capture.initial host.cfg early
  step := captureStep host

/-! ## The steps, case by case -/

/-- What an atomic step can do: its guard, the new state and the effects. -/
inductive Acts (host : Host) (s : Capture) : Label → Capture → List Event → Prop
  /-- A start without session identifier, or from another session than the active one. -/
  | refuse (env : Environment) (err : String) :
      RequestEnv.originID env = "" ∨ (∃ a, s.active = some a ∧ a.originID ≠ RequestEnv.originID env) →
      Acts host s (.start env) s [.reply (some err)]
  /-- A start that discards the active session, if there is one. -/
  | beginSession (env : Environment) : RequestEnv.originID env ≠ "" →
      (∀ a, s.active = some a → a.originID = RequestEnv.originID env ∧ a.id ≠ s.pendingStopClip) →
      Acts host s (.start env) (s.beginSession env) [.reply none]
  /-- A start that finishes the active session, whose stop is pending. -/
  | finalize (env : Environment) (a : Session) : RequestEnv.originID env ≠ "" → s.active = some a →
      a.originID = RequestEnv.originID env → a.id = s.pendingStopClip →
      Acts host s (.start env) ((s.beginSession env).addTask (.processStoppedSession a)) [.reply none]
  | ignoreStop (o : String) (early : Bool) : (∀ a, s.active = some a → ¬a.OwnedBy o) →
      Acts host s (.stop o early) s [.reply none]
  | repeatStop (o : String) (early : Bool) (a : Session) : s.active = some a → a.OwnedBy o →
      0 < host.cfg.stopDelay → s.pendingStopClip = a.id → Acts host s (.stop o early) s [.reply none]
  | schedule (o : String) (early : Bool) (a : Session) : s.active = some a → a.OwnedBy o →
      0 < host.cfg.stopDelay → s.pendingStopClip ≠ a.id → s.pendingStopClip = 0 →
      Acts host s (.stop o early) (s.schedule a early) [.reply none]
  | stopNow (o : String) (early : Bool) (a : Session) : s.active = some a → a.OwnedBy o →
      (0 < host.cfg.stopDelay → s.pendingStopClip ≠ a.id ∧ s.pendingStopClip ≠ 0) →
      Acts host s (.stop o early) (s.finish a) [.reply none]
  | stopTimerExpires (i : Nat) (t : StopTimer) (tm : CallbackTimer) : s.stopTimers[i]? = some t →
      t.timer.expire = some tm →
      Acts host s (.stopTimerExpires i) { s with stopTimers := s.stopTimers.set i { t with timer := tm } } []
  /-- A callback that finds another session, or its stop cancelled. -/
  | staleStop (i k : Nat) (t : StopTimer) (tm : CallbackTimer) : s.stopTimers[i]? = some t →
      t.timer.take k = some tm → (∀ a, s.active = some a → a.id ≠ t.clipID ∨ s.pendingStopClip ≠ t.clipID) →
      Acts host s (.delayedStop i k) { s with stopTimers := s.stopTimers.set i { t with timer := tm } } []
  | delayedStop (i k : Nat) (t : StopTimer) (tm : CallbackTimer) (a : Session) : s.stopTimers[i]? = some t →
      t.timer.take k = some tm → s.active = some a → a.id = t.clipID → s.pendingStopClip = t.clipID →
      Acts host s (.delayedStop i k) ({ s with stopTimers := s.stopTimers.set i { t with timer := tm } }.finish a) []
  | warmTimerExpires (tm : Timer) : s.warmTimer.expire = some tm →
      Acts host s .warmTimerExpires { s with warmTimer := tm } []
  /-- A warm callback that finds a session. -/
  | warmBusy (k : Nat) (tm : Timer) : s.warmTimer.take k = some tm → s.active.isSome = true →
      Acts host s (.warmCallback k) { s with warmTimer := tm } []
  | warmOff (k : Nat) (tm : Timer) : s.warmTimer.take k = some tm → s.active = none →
      Acts host s (.warmCallback k) { s with warmTimer := tm, ctl := s.ctl.desireStreamOff } []
  | ignoreAudio (pcm : List UInt8) : pcm = [] ∨ s.active = none → Acts host s (.audio pcm) s []
  | pcmError (pcm : List UInt8) (a a' : Session) (err : String) : pcm ≠ [] → s.active = some a →
      a.onPCM host.tooLarge pcm = (a', some err) →
      Acts host s (.audio pcm) ((s.endRecording a'.environment).addTask (.pcmError a' err)) []
  | maxDuration (pcm : List UInt8) (a a' : Session) (wasEmpty : Bool) : pcm ≠ [] → s.active = some a →
      a.onPCM host.tooLarge pcm = (a', none) → 0 < host.cfg.maxDuration → host.cfg.maxDuration ≤ a'.duration →
      Acts host s (.audio pcm) ((s.endRecording a'.environment).addTask (.maxDuration a' wasEmpty)) []
  | append (pcm : List UInt8) (a a' : Session) (τs : List Task) : pcm ≠ [] → s.active = some a →
      a.onPCM host.tooLarge pcm = (a', none) →
      ¬(0 < host.cfg.maxDuration ∧ host.cfg.maxDuration ≤ a'.duration) → τs = [] ∨ τs = [.recordStart a'] →
      Acts host s (.audio pcm) { s with active := some a', tasks := s.tasks ++ τs } []
  | shutdown : Acts host s .shutdown s.shutdown []
  | cancel : Acts host s .cancel { s with cancelled := true } []
  | allocateClip : Acts host s .allocateClip s.allocateClip []
  | move (m : Move) (c : Control) (es : List StreamEvent) : Moves s.cancelled s.active s.ctl m c es false →
      Acts host s (.manager m) { s with ctl := c } (es.map .stream)
  /-- The section after a failure discards the active session. -/
  | discard (m : Move) (c : Control) (es : List StreamEvent) : Moves s.cancelled s.active s.ctl m c es true →
      Acts host s (.manager m) { s.discardActive with ctl := c } (es.map .stream)
  | task (i : Nat) (τ : Task) : s.tasks[i]? = some τ →
      Acts host s (.task i) { s with tasks := s.tasks.eraseIdx i } τ.run

section Acts

variable {host : Host} {s t : Capture} {out : List Event}

theorem start_acts (env : Environment) : Acts host s (.start env) (s.start env).1 (s.start env).2 := by
  unfold Capture.start
  dsimp only
  split
  · rename_i ho
    exact .refuse env _ (Or.inl ho)
  · rename_i ho
    split
    · rename_i hb
      cases ha : s.active with
      | none => simp [ha] at hb
      | some a => exact .refuse env _ (Or.inr ⟨a, ha, by simpa [ha] using hb⟩)
    · rename_i hb
      have hown : ∀ a, s.active = some a → a.originID = RequestEnv.originID env := by
        intro a ha
        rw [ha] at hb
        simpa using hb
      split
      · rename_i a ha
        obtain ⟨ha, hid⟩ := Option.filter_eq_some_iff.mp ha
        exact .finalize env a ho ha (hown a ha) (by simpa using hid)
      · rename_i hf
        refine .beginSession env ho fun a ha => ⟨hown a ha, fun hid => ?_⟩
        rw [ha] at hf
        simp [hid] at hf

theorem stop_acts (o : String) (early : Bool) :
    Acts host s (.stop o early) (s.stop host.cfg o early).1 (s.stop host.cfg o early).2 := by
  unfold Capture.stop
  split
  · rename_i ha
    exact .ignoreStop o early (by simp [ha])
  · rename_i a ha
    split
    · rename_i ho
      refine .ignoreStop o early fun b hb hown => ?_
      rw [ha] at hb
      cases hb
      exact ho.elim hown.1 fun hne => hne hown.2
    · rename_i ho
      obtain ⟨ho, hown⟩ := not_or.mp ho
      rw [Decidable.not_not] at hown
      split
      · rename_i hd
        split
        · rename_i hp
          exact .repeatStop o early a ha ⟨ho, hown⟩ hd hp
        · rename_i hp
          split
          · rename_i h0
            exact .schedule o early a ha ⟨ho, hown⟩ hd hp h0
          · rename_i h0
            exact .stopNow o early a ha ⟨ho, hown⟩ fun _ => ⟨hp, h0⟩
      · rename_i hd
        exact .stopNow o early a ha ⟨ho, hown⟩ fun h => absurd h hd

theorem onAudio_acts (pcm : List UInt8) : Acts host s (.audio pcm) (s.onAudio host pcm) [] := by
  unfold Capture.onAudio
  split
  · rename_i hp
    exact .ignoreAudio pcm (Or.inl hp)
  · rename_i hp
    split
    · rename_i ha
      exact .ignoreAudio pcm (Or.inr ha)
    · rename_i a ha
      dsimp only
      split
      · rename_i a' err hon
        exact .pcmError pcm a a' err hp ha hon
      · rename_i a' hon
        split
        · rename_i hm
          exact .maxDuration pcm a a' _ hp ha hon hm.1 hm.2
        · rename_i hm
          split
          · exact .append pcm a a' [.recordStart a'] hp ha hon hm (Or.inr rfl)
          · have := @Acts.append host s pcm a a' [] hp ha hon hm (Or.inl rfl)
            simpa using this

/-- **The steps of the capture.** -/
theorem captureStep_acts {l : Label} (h : captureStep host s l = some (t, out)) : Acts host s l t out := by
  cases l with
  | start env =>
    have := @start_acts host s env
    rwa [Option.some.inj h] at this
  | stop o early =>
    have := @stop_acts host s o early
    rwa [Option.some.inj h] at this
  | stopTimerExpires i =>
    simp only [captureStep] at h
    split at h
    · cases h
    · rename_i t' ht
      obtain ⟨tm, htm, h⟩ := Option.map_eq_some_iff.mp h
      cases h; exact .stopTimerExpires i t' tm ht htm
  | delayedStop i k =>
    simp only [captureStep] at h
    split at h
    · cases h
    · rename_i t' ht
      obtain ⟨tm, htm, h⟩ := Option.map_eq_some_iff.mp h
      cases h
      unfold Capture.delayedStop
      split
      · rename_i ha
        dsimp only at ha
        exact .staleStop i k t' tm ht htm (by simp [ha])
      · rename_i a ha
        dsimp only at ha ⊢
        split
        · rename_i hne
          refine .staleStop i k t' tm ht htm fun b hb => ?_
          rw [ha] at hb
          cases hb; exact hne
        · rename_i hne
          obtain ⟨hid, hp⟩ := not_or.mp hne
          exact .delayedStop i k t' tm a ht htm ha (Decidable.not_not.mp hid) (Decidable.not_not.mp hp)
  | warmTimerExpires =>
    obtain ⟨tm, htm, h⟩ := Option.map_eq_some_iff.mp h
    cases h; exact .warmTimerExpires tm htm
  | warmCallback k =>
    obtain ⟨tm, htm, h⟩ := Option.map_eq_some_iff.mp h
    cases h
    unfold Capture.warmExpired
    split
    · rename_i ha
      exact .warmOff k tm htm (Option.isNone_iff_eq_none.mp ha)
    · rename_i ha
      exact .warmBusy k tm htm (Option.isSome_iff_ne_none.mpr (by simpa using ha))
  | audio pcm => cases h; exact onAudio_acts pcm
  | shutdown => cases h; exact .shutdown
  | cancel => cases h; exact .cancel
  | allocateClip => cases h; exact .allocateClip
  | manager m =>
    obtain ⟨⟨c, es, b⟩, hm, h⟩ := Option.map_eq_some_iff.mp h
    cases b with
    | true => cases h; exact .discard m c es (managerStep_moves hm)
    | false => cases h; exact .move m c es (managerStep_moves hm)
  | task i =>
    simp only [captureStep] at h
    split at h
    · cases h
    · rename_i τ hτ
      cases h; exact .task i τ hτ

end Acts

/-! ## What the helpers change -/

namespace Capture

section Fields

variable (s : Capture) (a : Session) (τ : Task)

@[simp] theorem active_addTask : (s.addTask τ).active = s.active := rfl
@[simp] theorem nextClip_addTask : (s.addTask τ).nextClip = s.nextClip := rfl
@[simp] theorem stopTimer_addTask : (s.addTask τ).stopTimer = s.stopTimer := rfl
@[simp] theorem pendingStopClip_addTask : (s.addTask τ).pendingStopClip = s.pendingStopClip := rfl
@[simp] theorem warmTimer_addTask : (s.addTask τ).warmTimer = s.warmTimer := rfl
@[simp] theorem ctl_addTask : (s.addTask τ).ctl = s.ctl := rfl
@[simp] theorem cancelled_addTask : (s.addTask τ).cancelled = s.cancelled := rfl
@[simp] theorem tasks_addTask : (s.addTask τ).tasks = s.tasks ++ [τ] := rfl

@[simp] theorem active_cancelPendingStop : s.cancelPendingStop.active = s.active := rfl
@[simp] theorem nextClip_cancelPendingStop : s.cancelPendingStop.nextClip = s.nextClip := rfl
@[simp] theorem stopTimer_cancelPendingStop : s.cancelPendingStop.stopTimer = none := rfl
@[simp] theorem pendingStopClip_cancelPendingStop : s.cancelPendingStop.pendingStopClip = 0 := rfl
@[simp] theorem warmTimer_cancelPendingStop : s.cancelPendingStop.warmTimer = s.warmTimer := rfl
@[simp] theorem ctl_cancelPendingStop : s.cancelPendingStop.ctl = s.ctl := rfl
@[simp] theorem cancelled_cancelPendingStop : s.cancelPendingStop.cancelled = s.cancelled := rfl
@[simp] theorem tasks_cancelPendingStop : s.cancelPendingStop.tasks = s.tasks := rfl

/-- Starting the warm timer changes the timer and, for an immediate one, the desired stream state. -/
theorem startWarmTimer_eq :
    s.startWarmTimer = { s with
      warmTimer := s.warmTimer.start.1
      ctl := if s.warmTimer.start.2 then s.ctl.desireStreamOff else s.ctl } := by
  unfold startWarmTimer
  dsimp only
  split <;> rfl

@[simp] theorem active_finish : (s.finish a).active = none := by
  simp [finish, stopActiveSession, startWarmTimer_eq]

@[simp] theorem nextClip_finish : (s.finish a).nextClip = s.nextClip := by
  simp [finish, stopActiveSession, startWarmTimer_eq]

@[simp] theorem stopTimer_finish : (s.finish a).stopTimer = none := by
  simp [finish, stopActiveSession, startWarmTimer_eq]

@[simp] theorem pendingStopClip_finish : (s.finish a).pendingStopClip = 0 := by
  simp [finish, stopActiveSession, startWarmTimer_eq]

@[simp] theorem cancelled_finish : (s.finish a).cancelled = s.cancelled := by
  simp [finish, stopActiveSession, startWarmTimer_eq]

@[simp] theorem tasks_finish : (s.finish a).tasks = s.tasks ++ [.processStoppedSession a] := by
  simp [finish, stopActiveSession, startWarmTimer_eq]

@[simp] theorem warmTimer_finish : (s.finish a).warmTimer = s.warmTimer.start.1 := by
  simp [finish, stopActiveSession, startWarmTimer_eq]

/-- A finished session leaves the stream desired warm, or off when it is not kept warm. -/
theorem ctl_finish : (s.finish a).ctl =
    if s.warmTimer.start.2 then (s.ctl.desireStreamWarm a.environment).desireStreamOff
    else s.ctl.desireStreamWarm a.environment := by
  simp [finish, stopActiveSession, startWarmTimer_eq]

end Fields

end Capture

end Talk2Text.Daemon
