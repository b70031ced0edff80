import Talk2Text.Daemon.Capture

/-!
# The capture state is consistent

`CaptureOk` couples the four fields that every section restores by hand: the active session, the desired stream state,
the pending stop and its timer. Every step keeps it (`captureOk_acts`), so it holds in every reachable state.

With it the stream manager never reports a failure for a nil session: the report is built in the section that finds
the desired state to be recording (`soundPc_acts`), and the stream is open wherever it is used (`synced_of_capture`).
-/

namespace Talk2Text.Daemon

open Sys

/-- The coupled fields of the capture state. -/
structure CaptureOk (s : Capture) : Prop where
  active_iff : s.active.isSome = true ↔ s.ctl.desiredStreamState = .recording
  pending_iff : s.pendingStopClip = 0 ↔ s.stopTimer = none
  pending_active : s.pendingStopClip ≠ 0 → ∃ a, s.active = some a ∧ a.id = s.pendingStopClip
  active_pos : ∀ a, s.active = some a → 0 < a.id
  active_lt : ∀ a, s.active = some a → a.id < s.nextClip
  nextClip_pos : 0 < s.nextClip

namespace CaptureOk

variable {s t : Capture}

/-- A state without active session, pending stop and recording. -/
theorem idle (ha : s.active = none) (hp : s.pendingStopClip = 0) (ht : s.stopTimer = none)
    (hd : s.ctl.desiredStreamState ≠ .recording) (hn : 0 < s.nextClip) : CaptureOk s where
  active_iff := by simp [ha, hd]
  pending_iff := by simp [hp, ht]
  pending_active := fun h => absurd hp h
  active_pos := by simp [ha]
  active_lt := by simp [ha]
  nextClip_pos := hn

/-- Only the coupled fields matter; of the active session, only its clip ID. -/
theorem congr (h : CaptureOk s) (ha : t.active.map Session.id = s.active.map Session.id)
    (hp : t.pendingStopClip = s.pendingStopClip) (ht : t.stopTimer = s.stopTimer)
    (hd : t.ctl.desiredStreamState = .recording ↔ s.ctl.desiredStreamState = .recording)
    (hn : s.nextClip ≤ t.nextClip) : CaptureOk t := by
  have hid : ∀ a, t.active = some a → ∃ b, s.active = some b ∧ b.id = a.id := by
    intro a h'
    rw [h', Option.map_some] at ha
    exact Option.map_eq_some_iff.mp ha.symm
  have hid' : ∀ b, s.active = some b → ∃ a, t.active = some a ∧ a.id = b.id := by
    intro b h'
    rw [h', Option.map_some] at ha
    exact Option.map_eq_some_iff.mp ha
  constructor
  · rw [hd, ← h.active_iff, ← Option.isSome_map (f := Session.id), ha, Option.isSome_map]
  · rw [hp, ht]; exact h.pending_iff
  · rw [hp]
    intro h0
    obtain ⟨b, hb, he⟩ := h.pending_active h0
    obtain ⟨a, ha, hab⟩ := hid' b hb
    exact ⟨a, ha, hab.trans he⟩
  · intro a h'
    obtain ⟨b, hb, he⟩ := hid a h'
    exact he ▸ h.active_pos b hb
  · intro a h'
    obtain ⟨b, hb, he⟩ := hid a h'
    exact Nat.lt_of_lt_of_le (he ▸ h.active_lt b hb) hn
  · exact Nat.lt_of_lt_of_le h.nextClip_pos hn

/-- The pending clip is the active one. -/
theorem pending_eq (h : CaptureOk s) {a : Session} (ha : s.active = some a) :
    s.pendingStopClip = 0 ∨ s.pendingStopClip = a.id := by
  by_cases h0 : s.pendingStopClip = 0
  · exact Or.inl h0
  · obtain ⟨b, hb, he⟩ := h.pending_active h0
    rw [ha] at hb
    cases hb; exact Or.inr he.symm

/-- Without an active session no stop is pending. -/
theorem pending_none (h : CaptureOk s) (ha : s.active = none) : s.pendingStopClip = 0 := by
  by_cases h0 : s.pendingStopClip = 0
  · exact h0
  · obtain ⟨b, hb, _⟩ := h.pending_active h0
    rw [ha] at hb; cases hb

end CaptureOk

/-! ## One step -/

section Step

variable {s t : Capture}

/-- Finishing a session does not leave the stream recording. -/
theorem desired_finish_ne (a : Session) (s : Capture) : (s.finish a).ctl.desiredStreamState ≠ .recording := by
  rw [Capture.ctl_finish]
  split <;> simp

theorem captureOk_finish (h : CaptureOk s) (a : Session) : CaptureOk (s.finish a) :=
  .idle (by simp) (by simp) (by simp) (desired_finish_ne a s) (by simpa using h.nextClip_pos)

/-- A new session has the next clip ID and no pending stop. -/
theorem captureOk_beginSession (h : CaptureOk s) (env : Environment) : CaptureOk (s.beginSession env) where
  active_iff := by simp [Capture.beginSession]
  pending_iff := by simp [Capture.beginSession]
  pending_active := fun h0 => absurd rfl h0
  active_pos := by rintro a ⟨⟩; exact h.nextClip_pos
  active_lt := by rintro a ⟨⟩; exact Nat.lt_succ_self _
  nextClip_pos := Nat.succ_pos _

/-- The delayed stop is scheduled for the active clip. -/
theorem captureOk_schedule (h : CaptureOk s) {a : Session} (ha : s.active = some a) (early : Bool) :
    CaptureOk (s.schedule a early) where
  active_iff := h.active_iff
  pending_iff := by
    have := h.active_pos a ha
    simp only [Capture.schedule, reduceCtorEq, iff_false]; omega
  pending_active := fun _ => ⟨a, ha, rfl⟩
  active_pos := h.active_pos
  active_lt := h.active_lt
  nextClip_pos := h.nextClip_pos

/-- A step of the manager changes the desired state only from warm to off, or, discarding the active session, from
recording to off. -/
theorem moves_desired {cancelled : Bool} {active : Option Session} {c c' : Control} {m : Move}
    {es : List StreamEvent} {b : Bool} (h : Moves cancelled active c m c' es b) :
    if b then c.desiredStreamState = .recording ∧ c'.desiredStreamState = .off
    else c'.desiredStreamState = c.desiredStreamState ∨
      c.desiredStreamState = .warm ∧ c'.desiredStreamState = .off := by
  cases h with
  | giveUpWarm op _ hd => exact Or.inr ⟨hd, rfl⟩
  | giveUpRecording op _ hd => exact ⟨hd, rfl⟩
  | _ => exact Or.inl rfl

/-- **One step** keeps the coupled fields consistent. -/
theorem captureOk_acts {host : Host} {l : Label} {out : List Event} (h : CaptureOk s) (ha : Acts host s l t out) :
    CaptureOk t := by
  have hsame : ∀ t : Capture, t.active = s.active → t.pendingStopClip = s.pendingStopClip →
      t.stopTimer = s.stopTimer → t.ctl = s.ctl → s.nextClip ≤ t.nextClip → CaptureOk t :=
    fun t ha hp ht hc => h.congr (by rw [ha]) hp ht (by rw [hc])
  cases ha with
  | refuse | ignoreStop | repeatStop | ignoreAudio => exact h
  | beginSession env => exact captureOk_beginSession h env
  | finalize env a => exact (captureOk_beginSession h env).congr rfl rfl rfl Iff.rfl (Nat.le_refl _)
  | schedule o early a ha => exact captureOk_schedule h ha early
  | stopNow o early a => exact captureOk_finish h a
  | stopTimerExpires | staleStop | warmTimerExpires | warmBusy | cancel | task =>
    exact hsame _ rfl rfl rfl rfl (Nat.le_refl _)
  | delayedStop i k t' tm a =>
    apply captureOk_finish
    exact hsame _ rfl rfl rfl rfl (Nat.le_refl _)
  | warmOff k tm _ ha =>
    have hp := h.pending_none ha
    exact .idle ha hp (h.pending_iff.mp hp) (by simp) h.nextClip_pos
  | pcmError | maxDuration => exact .idle rfl rfl rfl (by simp [Capture.endRecording]) h.nextClip_pos
  | append pcm a a' τs _ ha hon =>
    have hid : a'.id = a.id := by rw [← Session.id_onPCM host.tooLarge a pcm, hon]
    exact h.congr (by simp [ha, hid]) rfl rfl Iff.rfl (Nat.le_refl _)
  | shutdown => exact .idle rfl rfl rfl (by simp [Capture.shutdown]) h.nextClip_pos
  | allocateClip => exact hsame _ rfl rfl rfl rfl (Nat.le_succ _)
  | move m c es hm =>
    refine h.congr rfl rfl rfl ?_ (Nat.le_refl _)
    rcases moves_desired hm with hd | hd <;> simp [hd]
  | discard m c es hm => exact .idle rfl rfl rfl (by simp [(moves_desired hm).2]) h.nextClip_pos

end Step

theorem captureOk_initial (cfg : Config) (early : Bool) : CaptureOk (Capture.initial cfg early) :=
  .idle rfl rfl rfl (by simp [Capture.initial, Control.initial]) Nat.one_pos

theorem captureOk_of_reachable {host : Host} {s : Capture} (hs : Reachable (captureSystem host) s) :
    CaptureOk s := by
  refine hs.induction (P := CaptureOk) ?_ fun s l t out _ h hst => captureOk_acts h (captureStep_acts hst)
  rintro s ⟨early, rfl⟩
  exact captureOk_initial host.cfg early

/-! ## The stream manager of the capture -/

/-- What a section outside the manager does to the desired stream state. -/
inductive Desires (c : Control) : Control → Prop
  | same : Desires c c
  | off : Desires c c.desireStreamOff
  | warm (env : List String) : Desires c (c.desireStreamWarm env)
  /-- A session ends and the stream is not kept warm. -/
  | warmOff (env : List String) : Desires c (c.desireStreamWarm env).desireStreamOff
  | recording : Desires c c.desireStreamRecording

theorem Desires.pc {c c' : Control} (h : Desires c c') : c'.pc = c.pc := by cases h <;> rfl

theorem desires_finish (a : Session) (s : Capture) : Desires s.ctl (s.finish a).ctl := by
  rw [Capture.ctl_finish]
  split
  · exact .warmOff _
  · exact .warm _

/-- A task emits no stream event. -/
theorem stream_not_mem_run (τ : Task) (e : StreamEvent) : .stream e ∉ τ.run := by
  cases τ with
  | processStoppedSession s => simp only [Task.run]; split <;> simp
  | recordStart s => simp [Task.run]
  | maxDuration s b => cases b <;> simp [Task.run]
  | pcmError s err => simp [Task.run]

/-- **The sections** only set desired states and emit no stream event: the rest belongs to the manager. -/
theorem desires_acts {host : Host} {s t : Capture} {l : Label} {out : List Event} (hl : ∀ m, l ≠ .manager m)
    (h : Acts host s l t out) :
    Desires s.ctl t.ctl ∧ (t.cancelled = s.cancelled ∨ l = .cancel) ∧ ∀ e, .stream e ∉ out := by
  cases h with
  | refuse | ignoreStop | repeatStop | schedule | stopTimerExpires | staleStop | warmTimerExpires | warmBusy |
    ignoreAudio | append | allocateClip => exact ⟨.same, Or.inl rfl, by simp⟩
  | beginSession | finalize => exact ⟨.recording, Or.inl rfl, by simp⟩
  | stopNow o early a => exact ⟨desires_finish a s, by simp, by simp⟩
  | delayedStop i k t' tm a =>
    exact ⟨desires_finish a { s with stopTimers := s.stopTimers.set i { t' with timer := tm } }, by simp, by simp⟩
  | warmOff | shutdown => exact ⟨.off, Or.inl rfl, by simp⟩
  | pcmError | maxDuration => exact ⟨.warm _, Or.inl rfl, by simp⟩
  | cancel => exact ⟨.same, Or.inr rfl, by simp⟩
  | move m => exact absurd rfl (hl m)
  | discard m => exact absurd rfl (hl m)
  | task i τ => exact ⟨.same, Or.inl rfl, stream_not_mem_run τ⟩

/-- The stream part of the capture state. -/
def Capture.streamSys (s : Capture) : StreamSys := ⟨s.ctl, s.cancelled⟩

theorem Desires.steps {c c' : Control} (h : Desires c c') (b : Bool) : Steps streamSystem ⟨c, b⟩ ⟨c', b⟩ := by
  cases h with
  | same => exact .refl _
  | off => exact .single (l := .desireOff) rfl
  | warm env => exact .single (l := .desireWarm env) rfl
  | warmOff env => exact .trans (.single (l := .desireWarm env) rfl) (.single (l := .desireOff) rfl)
  | recording => exact .single (l := .desireRecording) rfl

/-- The capture system is the stream manager in one particular environment. -/
theorem streamSys_of_reachable {host : Host} {s : Capture} (hs : Reachable (captureSystem host) s) :
    Reachable streamSystem s.streamSys := by
  refine hs.map Capture.streamSys ?_ fun s l t out hst => ?_
  · rintro s ⟨early, rfl⟩
    exact .init rfl
  · by_cases hl : ∃ m, l = .manager m
    · obtain ⟨m, rfl⟩ := hl
      obtain ⟨⟨c, es, b⟩, hm, hst⟩ := Option.map_eq_some_iff.mp hst
      cases hst
      refine @Steps.single _ _ _ _ _ _ (.manager s.active m) es ?_
      simp only [streamSystem, Capture.streamSys, hm, Option.map_some, Option.some.injEq, Prod.mk.injEq, and_true]
      cases b <;> rfl
    · obtain ⟨hd, hc | rfl, _⟩ := desires_acts (fun m e => hl ⟨m, e⟩) (captureStep_acts hst)
      · simp only [Capture.streamSys, hc]
        exact hd.steps s.cancelled
      · cases hst
        exact .single (l := .cancel) rfl

/-! ## No failure is reported for a nil session -/

/-- No nil pointer was dereferenced, and the report that is on its way has a session. -/
def Control.SoundPc (c : Control) : Prop :=
  match c.pc with
  | .mustClose r | .closing (.report r) | .reporting r => r.Sound
  | .crashed => False
  | _ => True

/-- A step of the manager from a state with a sound point and an open stream where it needs one keeps the point sound
and dereferences no nil pointer, provided a recording has a session. -/
theorem soundPc_moves {cancelled : Bool} {active : Option Session} {c c' : Control} {m : Move}
    {es : List StreamEvent} {b : Bool} (hp : c.SoundPc) (hs : c.Synced)
    (ha : c.desiredStreamState = .recording → active.isSome = true) (h : Moves cancelled active c m c' es b) :
    c'.SoundPc ∧ .nilDeref ∉ es := by
  unfold Control.SoundPc at hp
  unfold Control.Synced at hs
  cases h with
  | callNil d hpc hst => rw [hpc, hst] at hs; cases hs.1
  | closeNil r hpc hst => rw [hpc, hst] at hs; cases hs.1
  | reportNil op hpc => rw [hpc] at hp; cases hp
  | giveUpWarm op hpc hd => cases op <;> exact ⟨trivial, by simp⟩
  | giveUpRecording op hpc hd => cases op <;> exact ⟨ha hd, by simp⟩
  | close r st hpc hst => rw [hpc] at hp; exact ⟨hp, by simp⟩
  | closed k ok hpc =>
    rw [hpc] at hp
    cases k with
    | report r => exact ⟨hp, by simp⟩
    | _ => exact ⟨trivial, by simp⟩
  | report r hpc hr =>
    refine ⟨trivial, ?_⟩
    cases r with
    | warm op env => cases op <;> simp [Report.emit]
    | recording op s =>
      obtain ⟨a, rfl⟩ := Option.isSome_iff_exists.mp hr
      cases op <;> simp [Report.emit]
  | _ => exact ⟨trivial, by simp⟩

/-- What every reachable state has and every step from it keeps. -/
theorem soundPc_acts {host : Host} {s t : Capture} {l : Label} {out : List Event} (hok : CaptureOk s)
    (hs : s.ctl.Synced) (hp : s.ctl.SoundPc) (h : Acts host s l t out) :
    t.ctl.SoundPc ∧ .stream .nilDeref ∉ out := by
  have hrec : s.ctl.desiredStreamState = .recording → s.active.isSome = true := hok.active_iff.mpr
  by_cases hl : ∃ m, l = .manager m
  · obtain ⟨m, rfl⟩ := hl
    cases h with
    | move m c es hm =>
      obtain ⟨hp', he⟩ := soundPc_moves hp hs hrec hm
      exact ⟨hp', by simpa using he⟩
    | discard m c es hm =>
      obtain ⟨hp', he⟩ := soundPc_moves hp hs hrec hm
      exact ⟨hp', by simpa using he⟩
  · obtain ⟨hd, _, he⟩ := desires_acts (fun m e => hl ⟨m, e⟩) h
    refine ⟨?_, he _⟩
    unfold Control.SoundPc at hp ⊢
    rwa [hd.pc]

theorem synced_of_capture {host : Host} {s : Capture} (hs : Reachable (captureSystem host) s) : s.ctl.Synced :=
  synced_of_reachable (streamSys_of_reachable hs)

theorem soundPc_of_reachable {host : Host} {s : Capture} (hs : Reachable (captureSystem host) s) :
    s.ctl.SoundPc := by
  refine hs.induction (P := fun s => s.ctl.SoundPc) ?_ fun s l t out hr h hst => ?_
  · rintro s ⟨early, rfl⟩
    trivial
  · exact (soundPc_acts (captureOk_of_reachable hr) (synced_of_capture hr) h (captureStep_acts hst)).1

/-- **The capture state is consistent** after any interleaving: a session is active exactly when the stream is desired
recording, a stop is pending exactly when there is a timer for it and then for the active clip, and clip IDs are
fresh. Hence no nil session is ever dereferenced, and a stop finds either no pending stop or one of its own clip. -/
theorem capture_consistent {host : Host} {h : List (Step Capture Label Event)} {s : Capture}
    (r : Run (captureSystem host) h s) :
    (s.active.isSome = true ↔ s.ctl.desiredStreamState = .recording) ∧
    (s.pendingStopClip = 0 ↔ s.stopTimer = none) ∧
    (s.pendingStopClip ≠ 0 → ∃ a, s.active = some a ∧ a.id = s.pendingStopClip) ∧
    (∀ a, s.active = some a → a.id < s.nextClip) ∧
    .stream .nilDeref ∉ outputs h ∧
    (∀ a, s.active = some a → s.pendingStopClip = 0 ∨ s.pendingStopClip = a.id) := by
  have hok := captureOk_of_reachable r.reachable
  refine ⟨hok.active_iff, hok.pending_iff, hok.pending_active, hok.active_lt, ?_, fun a ha => hok.pending_eq ha⟩
  intro hm
  obtain ⟨st, hst, hm⟩ := List.mem_flatMap.mp hm
  obtain ⟨hr, hstep⟩ := r.mem_step hst
  exact (soundPc_acts (captureOk_of_reachable hr) (synced_of_capture hr) (soundPc_of_reachable hr)
    (captureStep_acts hstep)).2 hm

/-- A start and an accepted stop: the stop is pending for the active clip. -/
theorem capture_consistent_stop : ∃ h s,
    Run (captureSystem ⟨{ stopDelay := second }, fun _ => false⟩) h s ∧ s.pendingStopClip = 1 ∧
    ∃ a, s.active = some a ∧ a.id = s.pendingStopClip := by
  obtain ⟨h, s, r, hq⟩ := Run.exists_of_exec
    (M := captureSystem ⟨{ stopDelay := second }, fun _ => false⟩) ⟨false, rfl⟩
    [.start [(RequestEnv.xdgSessionIDName, "3")], .stop "3" false] (fun _ s => s.pendingStopClip = 1) (by decide)
  have hp : s.pendingStopClip = 1 := of_decide_eq_true hq
  exact ⟨h, s, r, hp, (capture_consistent r).2.2.1 (by omega)⟩

end Talk2Text.Daemon
