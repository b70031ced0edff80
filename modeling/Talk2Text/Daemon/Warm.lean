import Talk2Text.Daemon.CaptureInv

/-!
# The warm stream and its timer

After a recording the stream stays open and warm until the warm timer expires. A recording that ends in
`stopActiveSession` starts the timer; one that ends in `onAudio` (an error of `OnPCM`, or the maximum duration) leaves
the stream warm without starting it.

`WarmScheduled` says that a warm stream has its close scheduled. It holds all along a run exactly when no chunk ends a
recording inside `onAudio`, unless the callback of an earlier warm period is still to run (`warm_scheduled_iff`).
-/

namespace Talk2Text.Daemon

open Sys

/-- When no session is active and the stream is desired warm, the daemon keeps streams warm, and the warm timer is
armed or one of its callbacks is still to run. -/
def WarmScheduled (host : Host) (s : Capture) : Prop :=
  s.active = none → s.ctl.desiredStreamState = .warm →
    0 < host.cfg.warmRetention ∧ (s.warmTimer.armed.isSome = true ∨ s.warmTimer.released ≠ [])

/-- The chunk ends the recording of the active session `a`: its length is odd, the buffer cannot take it, or it
reaches the maximum duration. -/
def EndsRecording (host : Host) (a : Session) (pcm : List UInt8) : Prop :=
  pcm.length % 2 = 1 ∨ host.tooLarge (a.buffer.length + pcm.length) = true ∨
  (0 < host.cfg.maxDuration ∧
    host.cfg.maxDuration ≤ int64 (a.duration + (int64 ((pcm.length / 2 : Nat) * second)).tdiv sampleRateHz))

/-- The step is not a chunk that ends a recording, or the callback of an earlier warm period is still to run. -/
def KeepsWarmScheduled (host : Host) (s : Capture) (l : Label) : Prop :=
  ∀ pcm a, l = .audio pcm → pcm ≠ [] → s.active = some a → EndsRecording host a pcm →
    0 < host.cfg.warmRetention ∧ s.warmTimer.released ≠ []

/-! ## Chunks -/

section Chunks

variable {host : Host} {a a' : Session} {pcm : List UInt8}

/-- `OnPCM` fails exactly on an odd length or a full buffer. -/
theorem onPCM_error {err : String} (h : a.onPCM host.tooLarge pcm = (a', some err)) : EndsRecording host a pcm := by
  unfold Session.onPCM pcmDuration at h
  dsimp only at h
  split at h
  · rename_i he
    split at he
    · rename_i hodd
      exact Or.inl (by omega)
    · cases he
  · split at h
    · rename_i hl
      exact Or.inr (Or.inl hl)
    · cases h

/-- A chunk that `OnPCM` takes ends the recording exactly when the new duration reaches the maximum. -/
theorem onPCM_ok (h : a.onPCM host.tooLarge pcm = (a', none)) :
    EndsRecording host a pcm ↔ 0 < host.cfg.maxDuration ∧ host.cfg.maxDuration ≤ a'.duration := by
  unfold Session.onPCM pcmDuration at h
  dsimp only at h
  split at h
  · cases h
  · rename_i delta he
    split at he
    · cases he
    · rename_i heven
      obtain rfl := Except.ok.inj he
      split at h
      · cases h
      · rename_i hl
        obtain ⟨rfl, -⟩ := Prod.mk.inj h
        have hodd : ¬pcm.length % 2 = 1 := by omega
        refine ⟨fun hend => ?_, fun hend => Or.inr (Or.inr hend)⟩
        rcases hend with ho | ht | hm
        · exact absurd ho hodd
        · exact absurd ht hl
        · exact hm

end Chunks

/-! ## The timer -/

/-- The warm timer is of the configured kind, and armed only while no session is active. -/
structure WarmTimerOk (host : Host) (s : Capture) : Prop where
  started : s.warmTimer.start.2 = true ↔ ¬0 < host.cfg.warmRetention
  armed : s.warmTimer.armed.isSome = true → s.active = none

theorem start_snd_of_expire {tm tm' : Timer} (h : tm.expire = some tm') :
    tm'.start.2 = tm.start.2 ∧ tm.armed.isSome = true ∧ tm'.released ≠ [] := by
  cases tm with
  | immediate => cases h
  | callback t =>
    obtain ⟨t', ht, rfl⟩ := Option.map_eq_some_iff.mp h
    have := CallbackTimer.expire_eq_some ht
    exact ⟨rfl, this.1, this.2.2⟩

theorem start_snd_of_take {tm tm' : Timer} {k : Nat} (h : tm.take k = some tm') :
    tm'.start.2 = tm.start.2 ∧ tm'.armed = tm.armed := by
  cases tm with
  | immediate => cases h
  | callback t =>
    obtain ⟨t', ht, rfl⟩ := Option.map_eq_some_iff.mp h
    exact ⟨rfl, (CallbackTimer.take_eq_some ht).2⟩

@[simp] theorem start_snd_stop (tm : Timer) : tm.stop.start.2 = tm.start.2 := by cases tm <;> rfl

@[simp] theorem start_snd_start (tm : Timer) : tm.start.1.start.2 = tm.start.2 := by cases tm <;> rfl

/-- A started timer runs its function at once or is armed. -/
theorem armed_start {tm : Timer} (h : tm.start.2 = false) : tm.start.1.armed.isSome = true := by
  cases tm with
  | immediate => cases h
  | callback t => rfl

theorem expire_armed {tm tm' : Timer} (h : tm.expire = some tm') : tm'.armed = none := by
  cases tm with
  | immediate => cases h
  | callback t =>
    obtain ⟨t', ht, rfl⟩ := Option.map_eq_some_iff.mp h
    exact (CallbackTimer.expire_eq_some ht).2.1

section Step

variable {host : Host} {s t : Capture} {l : Label} {out : List Event}

theorem warmTimerOk_finish (h : WarmTimerOk host s) (a : Session) : WarmTimerOk host (s.finish a) where
  started := by rw [Capture.warmTimer_finish, start_snd_start]; exact h.started
  armed := fun _ => Capture.active_finish s a

/-- **One step** keeps the timer. -/
theorem warmTimerOk_acts (h : WarmTimerOk host s) (ha : Acts host s l t out) : WarmTimerOk host t := by
  have hsame : ∀ t : Capture, t.active = s.active → t.warmTimer = s.warmTimer → WarmTimerOk host t :=
    fun t ha ht => ⟨ht ▸ h.started, by rw [ht, ha]; exact h.armed⟩
  have hnone : ∀ t : Capture, t.active = none → t.warmTimer = s.warmTimer → WarmTimerOk host t :=
    fun t ha ht => ⟨ht ▸ h.started, fun _ => ha⟩
  have hstop : ∀ t : Capture, t.warmTimer = s.warmTimer.stop → WarmTimerOk host t :=
    fun t ht => ⟨by rw [ht, start_snd_stop]; exact h.started, by rw [ht, Timer.armed_stop]; simp⟩
  cases ha with
  | refuse | ignoreStop | repeatStop | ignoreAudio => exact h
  | beginSession | finalize | shutdown => exact hstop _ rfl
  | schedule | stopTimerExpires | staleStop | cancel | allocateClip | move | task => exact hsame _ rfl rfl
  | stopNow o early a => exact warmTimerOk_finish h a
  | delayedStop =>
    apply warmTimerOk_finish
    exact hsame _ rfl rfl
  | warmTimerExpires tm htm =>
    exact ⟨by rw [(start_snd_of_expire htm).1]; exact h.started, by simp [expire_armed htm]⟩
  | warmBusy k tm htm | warmOff k tm htm =>
    obtain ⟨hs, harm⟩ := start_snd_of_take htm
    exact ⟨by dsimp only; rw [hs]; exact h.started, by dsimp only; rw [harm]; exact h.armed⟩
  | pcmError | maxDuration | discard => exact hnone _ rfl rfl
  | append pcm a a' τs hp hact =>
    refine ⟨h.started, fun harm => ?_⟩
    have hnone := h.armed harm
    rw [hact] at hnone
    cases hnone

theorem warmTimerOk_of_reachable (hs : Reachable (captureSystem host) s) : WarmTimerOk host s := by
  refine hs.induction (P := WarmTimerOk host) ?_ fun s l t out _ h hst => warmTimerOk_acts h (captureStep_acts hst)
  rintro s ⟨early, rfl⟩
  refine ⟨?_, fun _ => rfl⟩
  simp only [Capture.initial]
  split <;> simp_all [Timer.start]

/-- A recording that ends inside `onAudio` leaves the warm timer as it is: stopped. -/
theorem warmScheduled_endRecording (h : WarmTimerOk host s) {a : Session} (ha : s.active = some a)
    (env : List String) (τ : Task) :
    WarmScheduled host ((s.endRecording env).addTask τ) ↔
      0 < host.cfg.warmRetention ∧ s.warmTimer.released ≠ [] := by
  have harm : s.warmTimer.armed.isSome ≠ true := fun e => by simp [h.armed e] at ha
  have hw : ((s.endRecording env).addTask τ).warmTimer = s.warmTimer := rfl
  unfold WarmScheduled
  rw [hw]
  refine ⟨fun hs => ?_, fun hs _ _ => ⟨hs.1, Or.inr hs.2⟩⟩
  obtain ⟨hpos, he | he⟩ := hs rfl rfl
  · exact absurd he harm
  · exact ⟨hpos, he⟩

/-- **One step** from a state whose warm stream has its close scheduled. -/
theorem warmScheduled_acts (h : WarmTimerOk host s) (hw : WarmScheduled host s) (ha : Acts host s l t out) :
    WarmScheduled host t ↔ KeepsWarmScheduled host s l := by
  have hother : (∀ pcm, l ≠ .audio pcm) → KeepsWarmScheduled host s l := fun hl pcm _ e => absurd e (hl pcm)
  have hsame : ∀ t : Capture, t.active = s.active → t.warmTimer = s.warmTimer → t.ctl = s.ctl →
      WarmScheduled host t := fun t ha ht hc => by
    unfold WarmScheduled
    rw [ha, ht, hc]; exact hw
  have hactive : ∀ t : Capture, t.active ≠ none → WarmScheduled host t := fun t ha hn => absurd hn ha
  have hcold : ∀ t : Capture, t.ctl.desiredStreamState ≠ .warm → WarmScheduled host t :=
    fun t hd _ hwarm => absurd hwarm hd
  have hends : ∀ {pcm : List UInt8} {a : Session}, pcm ≠ [] → s.active = some a → EndsRecording host a pcm →
      (KeepsWarmScheduled host s (.audio pcm) ↔ 0 < host.cfg.warmRetention ∧ s.warmTimer.released ≠ []) := by
    intro pcm a hp hact hend
    refine ⟨fun hk => hk pcm a rfl hp hact hend, fun hk _ _ _ _ _ _ => hk⟩
  -- a session that is finished starts the timer, or turns the stream off at once
  have hfinish : ∀ (s' : Capture) (a : Session), s'.warmTimer = s.warmTimer →
      WarmScheduled host (s'.finish a) := by
    intro s' a hs' _ hd
    rw [Capture.ctl_finish, hs'] at hd
    rw [Capture.warmTimer_finish, hs']
    cases hi : s.warmTimer.start.2 with
    | true => simp [hi] at hd
    | false =>
      have hpos : ¬¬0 < host.cfg.warmRetention := fun hn => by rw [h.started.mpr hn] at hi; cases hi
      exact ⟨Decidable.not_not.mp hpos, Or.inl (armed_start hi)⟩
  cases ha with
  | refuse | ignoreStop | repeatStop => exact ⟨fun _ => hother (by simp), fun _ => hw⟩
  | beginSession | finalize => exact ⟨fun _ => hother (by simp), fun _ => hactive _ (by simp [Capture.beginSession])⟩
  | schedule | stopTimerExpires | staleStop | cancel | allocateClip | task =>
    exact ⟨fun _ => hother (by simp), fun _ => hsame _ rfl rfl rfl⟩
  | stopNow o early a => exact ⟨fun _ => hother (by simp), fun _ => hfinish s a rfl⟩
  | delayedStop => exact ⟨fun _ => hother (by simp), fun _ => hfinish _ _ rfl⟩
  | warmTimerExpires tm htm =>
    refine ⟨fun _ => hother (by simp), fun _ hn hd => ?_⟩
    exact ⟨(hw hn hd).1, Or.inr (start_snd_of_expire htm).2.2⟩
  | warmBusy k tm _ hact =>
    exact ⟨fun _ => hother (by simp), fun _ => hactive _ (Option.isSome_iff_ne_none.mp hact)⟩
  | warmOff | shutdown => exact ⟨fun _ => hother (by simp), fun _ => hcold _ (by simp [Capture.shutdown])⟩
  | ignoreAudio pcm hno =>
    refine ⟨fun _ pcm' a e hp hact => ?_, fun _ => hw⟩
    cases e
    rcases hno with rfl | hnone
    · exact absurd rfl hp
    · rw [hnone] at hact; cases hact
  | pcmError pcm a a' err hp hact hon =>
    rw [hends hp hact (onPCM_error hon)]
    exact warmScheduled_endRecording h hact _ _
  | maxDuration pcm a a' b hp hact hon hm hle =>
    rw [hends hp hact ((onPCM_ok hon).mpr ⟨hm, hle⟩)]
    exact warmScheduled_endRecording h hact _ _
  | append pcm a a' τs hp hact hon hm =>
    refine ⟨fun _ pcm' b e hp' hb hend => ?_, fun _ => hactive _ (by simp)⟩
    cases e
    rw [hact] at hb
    cases hb
    exact absurd ((onPCM_ok hon).mp hend) hm
  | move m c es hm =>
    refine ⟨fun _ => hother (by simp), fun _ hn hd => hw hn ?_⟩
    rcases moves_desired hm with he | he
    · rw [← he]; exact hd
    · exact he.1
  | discard m c es hm =>
    exact ⟨fun _ => hother (by simp), fun _ => hcold _ (by simp [(moves_desired hm).2])⟩

end Step

/-- **When a warm stream has its close scheduled.** Along a run, every state without an active session and with the
stream desired warm has the warm timer armed or a callback still to run, exactly when no chunk of the run ends a
recording inside `onAudio`, except while the callback of an earlier warm period is still to run. -/
theorem warm_scheduled_iff {host : Host} {h : List (Step Capture Label Event)} {s : Capture}
    (r : Run (captureSystem host) h s) :
    (∀ st ∈ h, WarmScheduled host st.post) ↔ ∀ st ∈ h, KeepsWarmScheduled host st.pre st.label := by
  refine r.forall_post_iff (P := WarmScheduled host) (C := KeepsWarmScheduled host) ?_ ?_
  · rintro s ⟨early, rfl⟩ _ hd
    cases hd
  · intro s l t out hr hw hst
    exact warmScheduled_acts (warmTimerOk_of_reachable hr) hw (captureStep_acts hst)

/-- A recording that its owner stops: the stream is warm and the timer armed. -/
theorem warm_scheduled_stop : ∃ h s,
    Run (captureSystem ⟨{ warmRetention := second }, fun _ => false⟩) h s ∧ s.ctl.desiredStreamState = .warm ∧
    ∀ st ∈ h, WarmScheduled ⟨{ warmRetention := second }, fun _ => false⟩ st.post := by
  obtain ⟨h, s, r, hq⟩ := Run.exists_of_exec
    (M := captureSystem ⟨{ warmRetention := second }, fun _ => false⟩) ⟨false, rfl⟩
    [.start [(RequestEnv.xdgSessionIDName, "3")], .stop "3" false]
    (fun h s => s.ctl.desiredStreamState = .warm ∧
      h.map Step.label = [.start [(RequestEnv.xdgSessionIDName, "3")], .stop "3" false]) (by decide)
  obtain ⟨hd, hl⟩ := of_decide_eq_true hq
  refine ⟨h, s, r, hd, (warm_scheduled_iff r).mpr fun st hst pcm a he => ?_⟩
  have hm := List.mem_map_of_mem (f := Step.label) hst
  rw [hl, he] at hm
  simp at hm

/-- **A recording that reaches the maximum duration** leaves the stream warm without a scheduled close: when streams
are kept warm the timer is neither armed nor has a callback to run, and when they are not the stream is still desired
warm. -/
theorem maxDuration_not_scheduled :
    (∃ s, Reachable (captureSystem ⟨{ maxDuration := 10000000, warmRetention := second }, fun _ => false⟩) s ∧
      s.active = none ∧ s.ctl.desiredStreamState = .warm ∧ s.warmTimer.armed = none ∧ s.warmTimer.released = []) ∧
    ∃ s, Reachable (captureSystem ⟨{ maxDuration := 10000000 }, fun _ => false⟩) s ∧
      s.active = none ∧ s.ctl.desiredStreamState = .warm := by
  constructor
  · obtain ⟨_, s, r, hq⟩ := Run.exists_of_exec
      (M := captureSystem ⟨{ maxDuration := 10000000, warmRetention := second }, fun _ => false⟩) ⟨false, rfl⟩
      [.start [(RequestEnv.xdgSessionIDName, "3")], .audio (List.replicate 320 0)]
      (fun _ s => s.active = none ∧ s.ctl.desiredStreamState = .warm ∧ s.warmTimer.armed = none ∧
        s.warmTimer.released = []) (by decide +kernel)
    exact ⟨s, r.reachable, of_decide_eq_true hq⟩
  · obtain ⟨_, s, r, hq⟩ := Run.exists_of_exec
      (M := captureSystem ⟨{ maxDuration := 10000000 }, fun _ => false⟩) ⟨false, rfl⟩
      [.start [(RequestEnv.xdgSessionIDName, "3")], .audio (List.replicate 320 0)]
      (fun _ s => s.active = none ∧ s.ctl.desiredStreamState = .warm) (by decide +kernel)
    exact ⟨s, r.reachable, of_decide_eq_true hq⟩

end Talk2Text.Daemon
