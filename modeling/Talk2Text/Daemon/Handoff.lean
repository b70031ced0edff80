import Talk2Text.Daemon.Lifecycle

/-!
# Every stopped clip is processed once

Five finishers race for the active session: an immediate stop, the callback of a delayed stop, a new start, the
maximum duration, and the failures and the shutdown that discard it. `HandoffOk` follows every clip through the
history of a run: how often it was handed over, and how often some goroutine is about to.

`handed_exactly_once` is the result. A clip is handed over at most once. A clip whose stop was accepted is still
active with its delayed stop to come (`StopScheduled`), or was detached by one step of the run: handed over exactly
once unless that step was a capture failure or the shutdown. A delayed stop detaches no other clip than its own.
-/

namespace Talk2Text.Daemon

open Sys

/-- A history of the capture. -/
abbrev History := List (Step Capture Label Event)

/-- What a history says about the clips. -/
structure HandoffOk (host : Host) (h : History) (s : Capture) : Prop where
  /-- A clip that is active or still to come was never handed over. -/
  fresh : ∀ c, s.nextClip ≤ c ∨ s.activeID = some c → handed c (outputs h) + s.waiting c = 0
  once : ∀ c, handed c (outputs h) + s.waiting c ≤ 1
  /-- A detached clip does not come back. -/
  gone : ∀ st ∈ h, ∀ c, Detaches c st.pre st.post → c < s.nextClip ∧ s.activeID ≠ some c
  accepted : ∀ st ∈ h, ∀ c, AcceptsStop c st.pre st.label →
    s.phase = .stopping c ∨
    ∃ st' ∈ h, Detaches c st'.pre st'.post ∧
      (Aborts host st'.pre st'.label → handed c (outputs h) + s.waiting c = 0) ∧
      (¬Aborts host st'.pre st'.label → handed c (outputs h) + s.waiting c = 1)

section Step

variable {host : Host} {h : History} {s t : Capture} {l : Label} {out : List Event} {o : Option Nat}

/-- The count of a clip grows exactly when the step hands it over. -/
theorem count_snoc (hl : Lives host s l t out o) (c : Nat) :
    handed c (outputs (h ++ [⟨s, l, out, t⟩])) + t.waiting c =
      handed c (outputs h) + s.waiting c + if o = some c then 1 else 0 := by
  rw [outputs_snoc, handed_append]
  have := hl.effect.2 c
  dsimp only
  omega

/-- A clip that was active before and is not afterwards, and the clip that is handed over, are the same, if any. -/
theorem Lives.activeID_of_out (hl : Lives host s l t out o) {c : Nat} (ho : o = some c) : s.activeID = some c := by
  rw [← Capture.clip_phase]
  exact hl.effect.1.out_clip ho

/-- A clip that is neither active nor to come stays so, and its count stays. -/
theorem count_of_gone (hl : Lives host s l t out o) {c : Nat} (hlt : c < s.nextClip) (hne : s.activeID ≠ some c) :
    (c < t.nextClip ∧ t.activeID ≠ some c) ∧
    handed c (outputs (h ++ [⟨s, l, out, t⟩])) + t.waiting c = handed c (outputs h) + s.waiting c := by
  have ho : o ≠ some c := fun e => hne (hl.activeID_of_out e)
  refine ⟨⟨Nat.lt_of_lt_of_le hlt hl.nextClip_le, ?_⟩, by rw [count_snoc hl, if_neg ho, Nat.add_zero]⟩
  rw [← Capture.clip_phase] at hne ⊢
  rcases hl.effect.1.clip_cases with hc | hc | hc <;> rw [hc]
  · exact hne
  · simp
  · intro e
    cases e; exact Nat.lt_irrefl _ hlt

/-- The clip that is handed over is detached by the step. -/
theorem detaches_of_out (hok : CaptureOk s) (hl : Lives host s l t out o) {c : Nat} (ho : o = some c) :
    Detaches c s t := by
  have hact := hl.activeID_of_out ho
  refine ⟨hact, ?_⟩
  obtain ⟨a, ha, rfl⟩ := Option.map_eq_some_iff.mp hact
  rw [← Capture.clip_phase]
  exact hl.effect.1.out_detached ho (Nat.ne_of_lt (hok.active_lt a ha))

/-- **One step** keeps what the history says about the clips. -/
theorem handoffOk_step (hok : CaptureOk s) (hh : HandoffOk host h s)
    (hl : Lives host s l t out o) : HandoffOk host (h ++ [⟨s, l, out, t⟩]) t := by
  have hlast : ∀ {st : Step Capture Label Event}, st ∈ h ++ [⟨s, l, out, t⟩] →
      st ∈ h ∨ st = ⟨s, l, out, t⟩ := fun hm => (List.mem_append.mp hm).imp id List.mem_singleton.mp
  have hnew : (⟨s, l, out, t⟩ : Step Capture Label Event) ∈ h ++ [⟨s, l, out, t⟩] := by simp
  constructor
  · -- a fresh clip is not the one handed over
    intro c hc
    have ho : o ≠ some c := by
      intro e
      obtain ⟨hact, hne⟩ := detaches_of_out hok hl e
      obtain ⟨a, ha, rfl⟩ := Option.map_eq_some_iff.mp hact
      have := hok.active_lt a ha
      have := hl.nextClip_le
      rcases hc with hc | hc
      · omega
      · exact hne hc
    have hfresh : s.nextClip ≤ c ∨ s.activeID = some c := by
      rcases hc with hc | hc
      · exact Or.inl (Nat.le_trans hl.nextClip_le hc)
      · rw [← Capture.clip_phase] at hc ⊢
        rcases hl.effect.1.clip_cases with h' | h' | h' <;> rw [h'] at hc
        · exact Or.inr hc
        · cases hc
        · cases hc; exact Or.inl (Nat.le_refl _)
    rw [count_snoc hl, hh.fresh c hfresh, if_neg ho]
  · intro c
    rw [count_snoc hl]
    split
    · rename_i ho
      have := hh.fresh c (Or.inr (hl.activeID_of_out ho))
      omega
    · exact hh.once c
  · intro st hm c hd
    rcases hlast hm with hm | rfl
    · obtain ⟨hlt, hne⟩ := hh.gone st hm c hd
      exact (count_of_gone (h := h) hl hlt hne).1
    · obtain ⟨a, ha, rfl⟩ := Option.map_eq_some_iff.mp hd.1
      exact ⟨Nat.lt_of_lt_of_le (hok.active_lt a ha) hl.nextClip_le, hd.2⟩
  · -- a clip handed over by this step is detached by it, without abortion
    have hout : ∀ c, o = some c → ∃ st' ∈ h ++ [⟨s, l, out, t⟩], Detaches c st'.pre st'.post ∧
        (Aborts host st'.pre st'.label →
          handed c (outputs (h ++ [⟨s, l, out, t⟩])) + t.waiting c = 0) ∧
        (¬Aborts host st'.pre st'.label →
          handed c (outputs (h ++ [⟨s, l, out, t⟩])) + t.waiting c = 1) := by
      intro c ho
      refine ⟨_, hnew, detaches_of_out hok hl ho, fun hab => absurd hab (hl.handed_ok (by simp [ho])), fun _ => ?_⟩
      rw [count_snoc hl, if_pos ho, hh.fresh c (Or.inr (hl.activeID_of_out ho))]
    intro st hm c hacc
    rcases hlast hm with hm | rfl
    · rcases hh.accepted st hm c hacc with hp | ⟨st', hm', hd, h0, h1⟩
      · have hact : s.activeID = some c := by rw [← Capture.clip_phase, hp]; rfl
        rcases (hp ▸ hl.effect.1).of_stopping with hp' | ho | ⟨hp', ho⟩
        · exact Or.inl hp'
        · exact Or.inr (hout c ho)
        · -- dropped: only by a failure or the shutdown
          have ht : t.activeID = none := by rw [← Capture.clip_phase, hp']; rfl
          have hab : Aborts host s l := by
            refine hl.dropped ?_ (Option.map_eq_none_iff.mp ht) ho
            rw [Capture.activeID] at hact
            rw [← Option.isSome_map (f := Session.id), hact]; rfl
          refine Or.inr ⟨_, hnew, ⟨hact, by rw [ht]; simp⟩, fun _ => ?_, fun hn => absurd hab hn⟩
          rw [count_snoc hl, hh.fresh c (Or.inr hact), ho]; rfl
      · obtain ⟨hlt, hne⟩ := hh.gone st' hm' c hd
        have hcount := (count_of_gone (h := h) hl hlt hne).2
        exact Or.inr ⟨st', List.mem_append_left _ hm', hd, fun hab => hcount.trans (h0 hab),
          fun hab => hcount.trans (h1 hab)⟩
    · exact (hl.accepted c hacc).imp id (hout c)

end Step

theorem handoffOk_of_run {host : Host} {h : History} {s : Capture} (r : Run (captureSystem host) h s) :
    HandoffOk host h s := by
  refine r.induction (P := HandoffOk host) ?_ fun h s l t out hr hh hst => ?_
  · rintro s ⟨early, rfl⟩
    exact ⟨fun c _ => rfl, fun c => Nat.zero_le _, by simp, by simp⟩
  · have hok := captureOk_of_reachable hr
    obtain ⟨o, hl⟩ := lifecycle_acts hok (captureStep_acts hst)
    exact handoffOk_step hok hh hl

/-! ## The delayed stop of a pending clip -/

/-- The stop timer is one for the pending clip, and armed or with a callback still to run. -/
def StopScheduled (s : Capture) : Prop :=
  ∀ i, s.stopTimer = some i →
    ∃ t, s.stopTimers[i]? = some t ∧ t.clipID = s.pendingStopClip ∧ t.timer.Pending

/-- **One step** keeps the pending stop scheduled. -/
theorem stopScheduled_acts {host : Host} {s t : Capture} {l : Label} {out : List Event} (hok : CaptureOk s)
    (h : StopScheduled s) (ha : Acts host s l t out) : StopScheduled t := by
  have hnone : ∀ t : Capture, t.stopTimer = none → StopScheduled t := fun t ht i hi => by rw [ht] at hi; cases hi
  have hsame : ∀ t : Capture, t.stopTimer = s.stopTimer → t.stopTimers = s.stopTimers →
      t.pendingStopClip = s.pendingStopClip → StopScheduled t := fun t hi ht hp => by
    unfold StopScheduled
    rw [hi, ht, hp]; exact h
  cases ha with
  | refuse | ignoreStop | repeatStop | ignoreAudio => exact h
  | beginSession | finalize | pcmError | maxDuration | shutdown | discard => exact hnone _ rfl
  | stopNow | delayedStop => exact hnone _ (Capture.stopTimer_finish ..)
  | warmTimerExpires | warmBusy | warmOff | append | cancel | allocateClip | move | task => exact hsame _ rfl rfl rfl
  | schedule o early a =>
    intro i hi
    cases hi
    exact ⟨_, List.getElem?_concat_length, rfl, CallbackTimer.pending_start _⟩
  | stopTimerExpires j t' tm ht' htm =>
    intro i hi
    obtain ⟨t₀, ht₀, hid, hp⟩ := h i hi
    by_cases hij : j = i
    · subst hij
      rw [ht'] at ht₀
      cases ht₀
      refine ⟨{ t' with timer := tm }, ?_, hid, Or.inr (CallbackTimer.expire_eq_some htm).2.2⟩
      exact List.getElem?_set_self (List.getElem?_eq_some_iff.mp ht').1
    · exact ⟨t₀, by rw [← ht₀]; exact List.getElem?_set_ne hij, hid, hp⟩
  | staleStop j k t' tm ht' htm hstale =>
    intro i hi
    obtain ⟨t₀, ht₀, hid, hp⟩ := h i hi
    by_cases hij : j = i
    · -- the callback of the pending stop is not stale
      subst hij
      rw [ht'] at ht₀
      cases ht₀
      have hne : s.pendingStopClip ≠ 0 := fun h0 => by
        have hn := hok.pending_iff.mp h0
        rw [show s.stopTimer = some j from hi] at hn
        cases hn
      obtain ⟨a, ha, hida⟩ := hok.pending_active hne
      rcases hstale a ha with hs | hs
      · exact absurd (hida.trans hid.symm) hs
      · exact absurd hid.symm hs
    · exact ⟨t₀, by rw [← ht₀]; exact List.getElem?_set_ne hij, hid, hp⟩

theorem stopScheduled_of_reachable {host : Host} {s : Capture} (hs : Reachable (captureSystem host) s) :
    StopScheduled s := by
  refine hs.induction (P := StopScheduled) ?_ fun s l t out hr h hst =>
    stopScheduled_acts (captureOk_of_reachable hr) h (captureStep_acts hst)
  rintro s ⟨early, rfl⟩ i hi
  cases hi

/-- A clip whose stop is accepted has a delayed stop that is still to come. -/
theorem delayed_of_stopping {host : Host} {s : Capture} (hs : Reachable (captureSystem host) s) {c : Nat}
    (hp : s.phase = .stopping c) :
    ∃ i t, s.stopTimer = some i ∧ s.stopTimers[i]? = some t ∧ t.clipID = c ∧ t.timer.Pending := by
  have hok := captureOk_of_reachable hs
  unfold Capture.phase at hp
  split at hp
  · cases hp
  · rename_i a ha
    split at hp
    · rename_i hpend
      obtain ⟨rfl⟩ := Phase.stopping.inj hp
      cases hi : s.stopTimer with
      | none =>
        have hpos := hok.active_pos a ha
        have h0 := hok.pending_iff.mpr hi
        omega
      | some i =>
        obtain ⟨t, ht, hid, hpt⟩ := stopScheduled_of_reachable hs i hi
        exact ⟨i, t, rfl, ht, hid.trans hpend, hpt⟩
    · cases hp

/-! ## The result -/

/-- The callback of a delayed stop detaches only the clip it was scheduled for. -/
theorem delayedStop_own_clip {host : Host} {s t : Capture} {out : List Event} {i k c : Nat} {tm : StopTimer}
    (h : Acts host s (.delayedStop i k) t out) (ht : s.stopTimers[i]? = some tm) (hd : Detaches c s t) :
    c = tm.clipID := by
  cases h with
  | staleStop => exact absurd hd.1 hd.2
  | delayedStop _ _ t' _ a ht' _ ha hid =>
    rw [ht'] at ht
    cases ht
    have := hd.1
    simp only [Capture.activeID, ha, Option.map_some, Option.some.injEq] at this
    exact this ▸ hid

/-- A goroutine that is about to hand a clip over can do so at once. -/
theorem waiting_step {host : Host} {s : Capture} {c : Nat} (h : 0 < s.waiting c) :
    ∃ i t out, captureStep host s (.task i) = some (t, out) ∧ handed c out = 1 := by
  obtain ⟨i, τ, hτ, hc⟩ := countP_pos_iff_getElem?.mp h
  refine ⟨i, { s with tasks := s.tasks.eraseIdx i }, τ.run, by simp [captureStep, hτ], ?_⟩
  rw [handed_run, if_pos hc]

/-- **Every stopped clip is processed exactly once.** In every run: a clip is handed over at most once; a clip whose
owner's stop was accepted is still recording with its delayed stop to come, or one step of the run detached it, and
then it is handed over exactly once (or a goroutine is about to, which it can do at once) unless that step was a
capture failure or the shutdown; and a delayed stop detaches no clip but the one it was scheduled for. -/
theorem handed_exactly_once {host : Host} {h : History} {s : Capture} (r : Run (captureSystem host) h s) :
    (∀ c, handed c (outputs h) + s.waiting c ≤ 1) ∧
    (∀ st ∈ h, ∀ c, AcceptsStop c st.pre st.label →
      (s.phase = .stopping c ∧ handed c (outputs h) + s.waiting c = 0 ∧
        ∃ i t, s.stopTimer = some i ∧ s.stopTimers[i]? = some t ∧ t.clipID = c ∧ t.timer.Pending) ∨
      ∃ st' ∈ h, Detaches c st'.pre st'.post ∧
        (Aborts host st'.pre st'.label → handed c (outputs h) + s.waiting c = 0) ∧
        (¬Aborts host st'.pre st'.label → handed c (outputs h) + s.waiting c = 1)) ∧
    (∀ c, 0 < s.waiting c → ∃ i t out, captureStep host s (.task i) = some (t, out) ∧ handed c out = 1) ∧
    (∀ st ∈ h, ∀ i k tm c, st.label = .delayedStop i k → st.pre.stopTimers[i]? = some tm →
      Detaches c st.pre st.post → c = tm.clipID) := by
  have hh := handoffOk_of_run r
  refine ⟨hh.once, fun st hm c hacc => ?_, fun c => waiting_step, fun st hm i k tm c hl ht hd => ?_⟩
  · refine (hh.accepted st hm c hacc).imp
      (fun hp => ⟨hp, hh.fresh c (Or.inr ?_), delayed_of_stopping r.reachable hp⟩) id
    rw [← Capture.clip_phase, hp]; rfl
  · have hacts := captureStep_acts (r.mem_step hm).2
    rw [hl] at hacts
    exact delayedStop_own_clip hacts ht hd

/-- A start, an accepted stop and the callback of its delay: the clip is handed over once. -/
theorem handed_exactly_once_delayed : ∃ h s,
    Run (captureSystem ⟨{ stopDelay := second }, fun _ => false⟩) h s ∧ s.phase = .idle ∧
    handed 1 (outputs h) + s.waiting 1 = 1 := by
  obtain ⟨h, s, r, hq⟩ := Run.exists_of_exec
    (M := captureSystem ⟨{ stopDelay := second }, fun _ => false⟩) ⟨false, rfl⟩
    [.start [(RequestEnv.xdgSessionIDName, "3")], .stop "3" false, .stopTimerExpires 0, .delayedStop 0 0]
    (fun h s => s.phase = .idle ∧ 1 ≤ handed 1 (outputs h) + s.waiting 1) (by decide)
  obtain ⟨hi, hge⟩ := of_decide_eq_true hq
  exact ⟨h, s, r, hi, Nat.le_antisymm ((handed_exactly_once r).1 1) hge⟩

end Talk2Text.Daemon
