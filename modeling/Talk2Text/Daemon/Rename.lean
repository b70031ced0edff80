import Mathlib.Logic.Function.Basic
import Talk2Text.Daemon.System

/-!
# Renaming clip IDs

The capture compares clip IDs and puts them into messages, but nothing depends on which IDs they are. `Capture.rename`
gives every clip another ID; `captureStep_rename`: a renamed state does what the original does, and the result is the
renamed result. Events are compared without the texts of messages, which contain the IDs (`Event.view`).

A renamed state has a clip counter of its own: the renaming only has to give a new clip the ID that the counter says.
-/

namespace Talk2Text.Daemon

open Sys

section Definitions

variable (f : Nat → Nat)

def rename (s : Session) : Session := { s with id := f s.id }

def Task.rename : Task → Task
  | .processStoppedSession s => .processStoppedSession (Daemon.rename f s)
  | .recordStart s => .recordStart (Daemon.rename f s)
  | .maxDuration s wasEmpty => .maxDuration (Daemon.rename f s) wasEmpty
  | .pcmError s err => .pcmError (Daemon.rename f s) err

def Report.rename : Report → Report
  | .warm op environment => .warm op environment
  | .recording op s => .recording op (s.map (Daemon.rename f))

def AfterClose.rename : AfterClose → AfterClose
  | .report r => .report (r.rename f)
  | k => k

def ManagerPc.rename : ManagerPc → ManagerPc
  | .mustClose r => .mustClose (r.rename f)
  | .closing k => .closing (k.rename f)
  | .reporting r => .reporting (r.rename f)
  | pc => pc

def Control.rename (c : Control) : Control := { c with pc := c.pc.rename f }

def StopTimer.rename (t : StopTimer) : StopTimer := { t with clipID := f t.clipID }

/-- Clips have the IDs that `f` gives them, and the next one is `n`. -/
def Capture.rename (n : Nat) (s : Capture) : Capture :=
  { s with
    active := s.active.map (Daemon.rename f)
    nextClip := n
    pendingStopClip := f s.pendingStopClip
    stopTimers := s.stopTimers.map (StopTimer.rename f)
    ctl := s.ctl.rename f
    tasks := s.tasks.map (Task.rename f) }

/-- An event without the texts of messages. -/
def Event.view : Event → Event
  | .transcribe s => .transcribe (Daemon.rename f s)
  | .notify environment level code _ => .notify environment level code ""
  | .log _ => .log ""
  | .stream (.logNotifyError environment code _) => .stream (.logNotifyError environment code "")
  | e => e

end Definitions

/-- Events that differ in clip IDs only. -/
def SameEvents (f : Nat → Nat) (es es' : List Event) : Prop := es'.map (Event.view id) = es.map (Event.view f)

section Rename

variable {f : Nat → Nat} {n : Nat} {s : Capture} {a : Session}

@[simp] theorem id_rename : (rename f a).id = f a.id := rfl
@[simp] theorem buffer_rename : (rename f a).buffer = a.buffer := rfl
@[simp] theorem duration_rename : (rename f a).duration = a.duration := rfl
@[simp] theorem originID_rename : (rename f a).originID = a.originID := rfl
@[simp] theorem environment_rename : (rename f a).environment = a.environment := rfl
@[simp] theorem rename_id : rename id a = a := rfl

theorem onPCM_rename (tooLarge : Nat → Bool) (pcm : List UInt8) :
    (rename f a).onPCM tooLarge pcm = (rename f (a.onPCM tooLarge pcm).1, (a.onPCM tooLarge pcm).2) := by
  cases hp : pcmDuration pcm with
  | error err => simp [Session.onPCM, hp, Session.clear, rename]
  | ok delta =>
    by_cases ht : tooLarge (a.buffer.length + pcm.length) = true <;>
      simp [Session.onPCM, hp, ht, Session.clear, rename]

theorem sameEvents_task (τ : Task) : SameEvents f τ.run (τ.rename f).run := by
  cases τ with
  | processStoppedSession s =>
    by_cases hd : 0 < s.duration <;> simp [SameEvents, Task.run, Task.rename, hd, Event.view]
  | recordStart s => rfl
  | maxDuration s w => cases w <;> rfl
  | pcmError s err => rfl

theorem sameEvents_nil : SameEvents f [] [] := rfl

/-! ## Helpers -/

theorem map_modify_comm {α : Type} (g h : α → α) (hc : ∀ x, g (h x) = h (g x)) (i : Nat) (l : List α) :
    (l.map g).modify i h = (l.modify i h).map g := by
  apply List.ext_getElem?
  intro j
  rw [List.getElem?_map, List.getElem?_modify, List.getElem?_modify, List.getElem?_map]
  cases l[j]? with
  | none => simp
  | some x => by_cases hij : i = j <;> simp [hij, hc]

theorem addTask_rename (τ : Task) : (s.rename f n).addTask (τ.rename f) = (s.addTask τ).rename f n := by
  simp [Capture.addTask, Capture.rename]

theorem cancelPendingStop_rename (h0 : f 0 = 0) :
    (s.rename f n).cancelPendingStop = s.cancelPendingStop.rename f n := by
  unfold Capture.cancelPendingStop Capture.rename
  cases hs : s.stopTimer with
  | none => simp [h0]
  | some i =>
    simp only [h0]
    rw [map_modify_comm]
    intro x
    rfl

theorem startWarmTimer_rename : (s.rename f n).startWarmTimer = s.startWarmTimer.rename f n := by
  simp only [Capture.startWarmTimer_eq]
  unfold Capture.rename
  dsimp only
  split <;> rfl

theorem finish_rename (h0 : f 0 = 0) : (s.rename f n).finish (rename f a) = (s.finish a).rename f n := by
  unfold Capture.finish Capture.stopActiveSession
  have hcancel : ({ s.rename f n with active := none }).cancelPendingStop =
      ({ s with active := none }).cancelPendingStop.rename f n :=
    cancelPendingStop_rename (s := { s with active := none }) h0
  rw [hcancel, ← addTask_rename, ← startWarmTimer_rename]
  rfl

theorem endRecording_rename (h0 : f 0 = 0) (env : List String) :
    (s.rename f n).endRecording env = (s.endRecording env).rename f n := by
  unfold Capture.endRecording
  rw [cancelPendingStop_rename h0]
  rfl

theorem shutdown_rename (h0 : f 0 = 0) : (s.rename f n).shutdown = s.shutdown.rename f n := by
  unfold Capture.shutdown
  have hcancel : ({ s.rename f n with warmTimer := s.warmTimer.stop }).cancelPendingStop =
      ({ s with warmTimer := s.warmTimer.stop }).cancelPendingStop.rename f n :=
    cancelPendingStop_rename (s := { s with warmTimer := s.warmTimer.stop }) h0
  dsimp only
  rw [show (s.rename f n).warmTimer = s.warmTimer from rfl, hcancel]
  rfl

theorem beginSession_rename (h0 : f 0 = 0) (hn : f s.nextClip = n) (env : Environment) :
    (s.rename f n).beginSession env = (s.beginSession env).rename f (n + 1) := by
  unfold Capture.beginSession
  have hcancel : ({ s.rename f n with warmTimer := s.warmTimer.stop }).cancelPendingStop =
      ({ s with warmTimer := s.warmTimer.stop }).cancelPendingStop.rename f n :=
    cancelPendingStop_rename (s := { s with warmTimer := s.warmTimer.stop }) h0
  dsimp only
  rw [show (s.rename f n).warmTimer = s.warmTimer from rfl, hcancel]
  unfold Capture.rename
  simp [rename, newSession, hn]
  rfl

theorem schedule_rename (early : Bool) :
    (s.rename f n).schedule (rename f a) early = (s.schedule a early).rename f n := by
  simp [Capture.schedule, Capture.rename, StopTimer.rename]

theorem discardActive_rename (h0 : f 0 = 0) : (s.rename f n).discardActive = s.discardActive.rename f n := by
  unfold Capture.discardActive
  rw [cancelPendingStop_rename h0]
  rfl

/-! ## The stream manager -/

theorem sameEvents_report (r : Report) : SameEvents f (r.emit.map .stream) ((r.rename f).emit.map .stream) := by
  cases r with
  | warm op env => cases op <;> rfl
  | recording op s => cases op <;> cases s <;> rfl

/-- **The stream manager** does not depend on clip IDs. -/
theorem managerStep_rename {cancelled : Bool} {active : Option Session} {c c' : Control} {m : Move}
    {es : List StreamEvent} {b : Bool} (h : managerStep cancelled active c m = some (c', es, b)) :
    ∃ es', managerStep cancelled (active.map (rename f)) (c.rename f) m = some (c'.rename f, es', b) ∧
      SameEvents f (es.map .stream) (es'.map .stream) := by
  cases managerStep_moves h with
  | done hpc hc => exact ⟨[], by simp [managerStep, Control.rename, ManagerPc.rename, hpc, hc], rfl⟩
  | receive hpc hc => exact ⟨[], by simp [managerStep, Control.rename, ManagerPc.rename, hpc, hc], rfl⟩
  | read hpc => exact ⟨[], by simp [managerStep, Control.rename, ManagerPc.rename, hpc], rfl⟩
  | stayOff hpc hs => exact ⟨[], by simp [managerStep, Control.rename, ManagerPc.rename, hpc, hs], rfl⟩
  | closeOff st hpc hs =>
    exact ⟨[.close st.id], by
      simp [managerStep, closeStream, Control.rename, ManagerPc.rename, AfterClose.rename, hpc, hs], rfl⟩
  | openNew d hpc hs =>
    refine ⟨[], ?_, rfl⟩
    cases d <;> simp_all [managerStep, openStream, Control.rename, ManagerPc.rename, OpenState.state]
  | keepOpen d hpc hs =>
    refine ⟨[], ?_, rfl⟩
    cases d <;> simp_all [managerStep, openStream, Control.rename, ManagerPc.rename, OpenState.state]
  | openOk d hpc =>
    exact ⟨[.opened c.nextStream], by simp [managerStep, Control.rename, ManagerPc.rename, hpc], rfl⟩
  | openErr d hpc => exact ⟨[], by simp [managerStep, Control.rename, ManagerPc.rename, hpc], rfl⟩
  | call d st hpc hs =>
    exact ⟨[.call st.id d.call], by simp [managerStep, Control.rename, ManagerPc.rename, hpc, hs], rfl⟩
  | callNil d hpc hs =>
    exact ⟨[.nilDeref], by simp [managerStep, Control.rename, ManagerPc.rename, hpc, hs], rfl⟩
  | callOk d hpc => exact ⟨[], by simp [managerStep, Control.rename, ManagerPc.rename, hpc], rfl⟩
  | callErr d hpc => exact ⟨[], by simp [managerStep, Control.rename, ManagerPc.rename, hpc], rfl⟩
  | changed d op hpc hd =>
    refine ⟨[], ?_, rfl⟩
    cases op <;> simp_all [managerStep, giveUp, Control.rename, ManagerPc.rename, FailedOp.pc]
  | giveUpWarm op hpc hd =>
    refine ⟨[], ?_, rfl⟩
    cases op <;>
      simp_all [managerStep, giveUp, Control.rename, ManagerPc.rename, Report.rename, FailedOp.pc, FailedOp.givenUp,
        OpenState.state]
  | giveUpRecording op hpc hd =>
    refine ⟨[], ?_, rfl⟩
    cases op <;>
      simp_all [managerStep, giveUp, Control.rename, ManagerPc.rename, Report.rename, FailedOp.pc, FailedOp.givenUp,
        OpenState.state]
  | close r st hpc hs =>
    exact ⟨[.close st.id], by
      simp [managerStep, closeStream, Control.rename, ManagerPc.rename, AfterClose.rename, hpc, hs], rfl⟩
  | closeNil r hpc hs =>
    exact ⟨[.nilDeref], by simp [managerStep, closeStream, Control.rename, ManagerPc.rename, hpc, hs], rfl⟩
  | closed k ok hpc =>
    refine ⟨[], ?_, rfl⟩
    cases k <;> simp [managerStep, Control.rename, ManagerPc.rename, AfterClose.rename, AfterClose.pc, hpc]
  | report r hpc hs =>
    refine ⟨(r.rename f).emit, ?_, sameEvents_report r⟩
    cases r with
    | warm op env => simp [managerStep, Control.rename, ManagerPc.rename, Report.rename, hpc]
    | recording op s =>
      obtain ⟨a, rfl⟩ := Option.isSome_iff_exists.mp hs
      simp [managerStep, Control.rename, ManagerPc.rename, Report.rename, hpc]
  | reportNil op hpc =>
    exact ⟨[.nilDeref], by simp [managerStep, Control.rename, ManagerPc.rename, Report.rename, hpc], rfl⟩
  | exitClose st hpc hs =>
    exact ⟨[.close st.id], by
      simp [managerStep, closeStream, Control.rename, ManagerPc.rename, AfterClose.rename, hpc, hs], rfl⟩
  | exit hpc hs => exact ⟨[], by simp [managerStep, Control.rename, ManagerPc.rename, hpc, hs], rfl⟩

/-! ## The sections -/

theorem any_rename (p : Session → Bool) (hp : ∀ a, p (rename f a) = p a) (o : Option Session) :
    (o.map (rename f)).any p = o.any p := by
  cases o with
  | none => rfl
  | some a => exact hp a

/-- A start that is refused stays refused. -/
theorem start_rename_refused {env : Environment} {err : String} (h : s.start env = (s, [.reply (some err)])) :
    (s.rename f n).start env = (s.rename f n, [.reply (some err)]) := by
  have hany : (s.rename f n).active.any (fun a => a.originID ≠ RequestEnv.originID env) =
      s.active.any fun a => a.originID ≠ RequestEnv.originID env := any_rename _ (fun _ => rfl) _
  unfold Capture.start at h ⊢
  dsimp only at h ⊢
  rw [hany]
  split at h
  · rename_i ho
    rw [if_pos ho]
    cases h; rfl
  · rename_i ho
    rw [if_neg ho]
    split at h
    · rename_i hb
      rw [if_pos hb]
      cases h; rfl
    · split at h <;> exact absurd (congrArg Prod.snd h) (by simp)

/-- A start that is accepted stays accepted; the new clip is the next one. -/
theorem start_rename_accepted (hf : Function.Injective f) (h0 : f 0 = 0) (hn : f s.nextClip = n) {env : Environment}
    {t : Capture} (h : s.start env = (t, [.reply none])) :
    (s.rename f n).start env = (t.rename f (n + 1), [.reply none]) := by
  have hany : (s.rename f n).active.any (fun a => a.originID ≠ RequestEnv.originID env) =
      s.active.any fun a => a.originID ≠ RequestEnv.originID env := any_rename _ (fun _ => rfl) _
  have hfilter : (s.rename f n).active.filter (fun a => a.id = (s.rename f n).pendingStopClip) =
      (s.active.filter fun a => a.id = s.pendingStopClip).map (rename f) := by
    unfold Capture.rename
    cases s.active with
    | none => rfl
    | some a => by_cases hid : a.id = s.pendingStopClip <;> simp [Option.filter, hid, hf.eq_iff]
  unfold Capture.start at h ⊢
  dsimp only at h ⊢
  rw [hany, hfilter]
  split at h
  · cases h
  · rename_i ho
    rw [if_neg ho]
    split at h
    · cases h
    · rename_i hb
      rw [if_neg hb]
      split at h
      · rename_i stopped hs
        cases h
        rw [hs, Option.map_some]
        dsimp only
        rw [beginSession_rename h0 hn, ← addTask_rename]
        rfl
      · rename_i hs
        cases h
        rw [hs, Option.map_none]
        dsimp only
        rw [beginSession_rename h0 hn]

theorem stop_rename (hf : Function.Injective f) (h0 : f 0 = 0) (cfg : Config) (o : String) (early : Bool) :
    (s.rename f n).stop cfg o early = ((s.stop cfg o early).1.rename f n, (s.stop cfg o early).2) := by
  have hp0 : f s.pendingStopClip = 0 ↔ s.pendingStopClip = 0 := by rw [← h0, hf.eq_iff, h0]
  cases ha : s.active with
  | none =>
    have ha' : (s.rename f n).active = none := by simp [Capture.rename, ha]
    simp [Capture.stop, ha, ha']
  | some a =>
    have ha' : (s.rename f n).active = some (rename f a) := by simp [Capture.rename, ha]
    have hpend : (s.rename f n).pendingStopClip = f s.pendingStopClip := rfl
    simp only [Capture.stop, ha, ha', hpend, originID_rename, id_rename, hf.eq_iff, hp0, finish_rename h0,
      schedule_rename]
    split
    · rfl
    · split
      · split
        · rfl
        · split <;> rfl
      · rfl

theorem delayedStop_rename (hf : Function.Injective f) (h0 : f 0 = 0) (clipID : Nat) :
    (s.rename f n).delayedStop (f clipID) = (s.delayedStop clipID).rename f n := by
  cases ha : s.active with
  | none =>
    have ha' : (s.rename f n).active = none := by simp [Capture.rename, ha]
    simp [Capture.delayedStop, ha, ha']
  | some a =>
    have ha' : (s.rename f n).active = some (rename f a) := by simp [Capture.rename, ha]
    have hpend : (s.rename f n).pendingStopClip = f s.pendingStopClip := rfl
    simp only [Capture.delayedStop, ha, ha', hpend, id_rename, ne_eq, hf.eq_iff, finish_rename h0]
    split <;> rfl

theorem warmExpired_rename : (s.rename f n).warmExpired = s.warmExpired.rename f n := by
  cases ha : s.active <;> simp [Capture.warmExpired, Capture.rename, ha, Control.rename, Control.desireStreamOff,
    Control.signalStreamManager]

theorem onAudio_rename (h0 : f 0 = 0) (ch : Host) (pcm : List UInt8) :
    (s.rename f n).onAudio ch pcm = (s.onAudio ch pcm).rename f n := by
  by_cases hp : pcm = []
  · simp [Capture.onAudio, hp]
  · cases ha : s.active with
    | none =>
      have ha' : (s.rename f n).active = none := by simp [Capture.rename, ha]
      simp [Capture.onAudio, hp, ha, ha']
    | some a =>
      have ha' : (s.rename f n).active = some (rename f a) := by simp [Capture.rename, ha]
      have hactive : ∀ a', { s.rename f n with active := some (rename f a') } =
          ({ s with active := some a' } : Capture).rename f n := fun a' => rfl
      have hon := onPCM_rename (f := f) (a := a) ch.tooLarge pcm
      cases ho : a.onPCM ch.tooLarge pcm with
      | mk a' err =>
        rw [ho] at hon
        cases err with
        | some err =>
          simp only [Capture.onAudio, if_neg hp, ha, ha', hon, ho, environment_rename, endRecording_rename h0,
            ← addTask_rename]
          rfl
        | none =>
          have hstart : (({ s with active := some a' } : Capture).rename f n).addTask (.recordStart (rename f a')) =
              (({ s with active := some a' } : Capture).addTask (.recordStart a')).rename f n :=
            addTask_rename (.recordStart a')
          have hend : ∀ w, (((s.endRecording a'.environment).rename f n).addTask (.maxDuration (rename f a') w)) =
              ((s.endRecording a'.environment).addTask (.maxDuration a' w)).rename f n :=
            fun w => addTask_rename (.maxDuration a' w)
          simp only [Capture.onAudio, if_neg hp, ha, ha', hon, ho, environment_rename, duration_rename,
            endRecording_rename h0, hactive, hstart, hend]
          by_cases hm : 0 < ch.cfg.maxDuration ∧ ch.cfg.maxDuration ≤ a'.duration
          · simp only [if_pos hm]
            rfl
          · by_cases hd : a.duration = 0 <;> simp [hm, hd]

theorem stopTimers_rename {i : Nat} {x : StopTimer} (h : s.stopTimers[i]? = some x) :
    (s.rename f n).stopTimers[i]? = some (x.rename f) := by
  simp [Capture.rename, h]

theorem setTimer_rename {i : Nat} {x : StopTimer} {tm : CallbackTimer} :
    ({ s.rename f n with stopTimers := (s.rename f n).stopTimers.set i { x.rename f with timer := tm } } : Capture) =
      ({ s with stopTimers := s.stopTimers.set i { x with timer := tm } } : Capture).rename f n := by
  simp [Capture.rename, StopTimer.rename, List.map_set]

/-- **Clip IDs are only names.** A step of the capture that no request brings about is a step of the renamed capture,
with the renamed result. -/
theorem captureStep_rename {ch : Host} {t : Capture} {l : Label} {es : List Event} (hf : Function.Injective f)
    (h0 : f 0 = 0) (hl : l.ofRequest = false) (h : captureStep ch s l = some (t, es)) :
    ∃ es', captureStep ch (s.rename f n) l = some (t.rename f n, es') ∧ SameEvents f es es' := by
  cases l with
  | start | stop | allocateClip => cases hl
  | stopTimerExpires i =>
    cases captureStep_acts h with
    | stopTimerExpires i x tm hx htm =>
      refine ⟨[], ?_, sameEvents_nil⟩
      simp only [captureStep, stopTimers_rename hx, Option.map_some,
        show (x.rename f).timer = x.timer from rfl, htm, setTimer_rename]
  | delayedStop i k =>
    simp only [captureStep] at h
    cases hx : s.stopTimers[i]? with
    | none => simp [hx] at h
    | some x =>
      rw [hx] at h
      obtain ⟨tm, htm, h⟩ := Option.map_eq_some_iff.mp h
      cases h
      refine ⟨[], ?_, sameEvents_nil⟩
      simp only [captureStep, stopTimers_rename hx, Option.map_some,
        show (x.rename f).timer = x.timer from rfl, htm, setTimer_rename]
      rw [show (x.rename f).clipID = f x.clipID from rfl, delayedStop_rename hf h0]
  | warmTimerExpires =>
    cases captureStep_acts h with
    | warmTimerExpires tm htm =>
      refine ⟨[], ?_, sameEvents_nil⟩
      simp only [captureStep, show (s.rename f n).warmTimer = s.warmTimer from rfl, htm, Option.map_some]
      rfl
  | warmCallback k =>
    obtain ⟨tm, htm, h⟩ := Option.map_eq_some_iff.mp h
    cases h
    have hw : Capture.rename f n _ = _ := (@warmExpired_rename f n { s with warmTimer := tm }).symm
    refine ⟨[], ?_, sameEvents_nil⟩
    rw [hw]
    simp only [captureStep, show (s.rename f n).warmTimer = s.warmTimer from rfl, htm, Option.map_some]
    rfl
  | audio pcm =>
    cases h
    refine ⟨[], ?_, sameEvents_nil⟩
    rw [← onAudio_rename h0]
    rfl
  | shutdown =>
    cases h
    refine ⟨[], ?_, sameEvents_nil⟩
    rw [← shutdown_rename h0]
    rfl
  | cancel =>
    cases h
    exact ⟨[], rfl, sameEvents_nil⟩
  | manager m =>
    obtain ⟨⟨c, es, b⟩, hm, h⟩ := Option.map_eq_some_iff.mp h
    obtain ⟨es', hm', hsame⟩ := managerStep_rename (f := f) hm
    have hm' : managerStep (s.rename f n).cancelled (s.rename f n).active (s.rename f n).ctl m =
        some (c.rename f, es', b) := hm'
    cases b with
    | true =>
      cases h
      refine ⟨es'.map .stream, ?_, hsame⟩
      simp only [captureStep, hm', Option.map_some, if_true, discardActive_rename h0]
      rfl
    | false =>
      cases h
      refine ⟨es'.map .stream, ?_, hsame⟩
      simp only [captureStep, hm', Option.map_some, Bool.false_eq_true, if_false]
      rfl
  | task i =>
    cases captureStep_acts h with
    | task i τ hτ =>
      refine ⟨_, ?_, sameEvents_task τ⟩
      have hτ' : (s.rename f n).tasks[i]? = some (τ.rename f) := by simp [Capture.rename, hτ]
      simp only [captureStep, hτ']
      simp [Capture.rename, List.eraseIdx_eq_take_drop_succ, List.map_take, List.map_drop]

end Rename

end Talk2Text.Daemon
