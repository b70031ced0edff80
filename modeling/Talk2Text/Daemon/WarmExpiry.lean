import Talk2Text.Daemon.Discard
import Talk2Text.Daemon.Warm

/-!
# The expiry that ends a warm period

The callback of the warm timer looks only whether a session is active. An expiry that the runtime has released may wait
for the mutex while a recording starts and stops, and then its callback ends the warm period of that recording.

Expiries are numbered by the `Start` that armed them. `warm_expiry_current_iff`: a callback that turns the stream off
belongs to the last `Start` exactly when no session has been finished by `stopActiveSession` since the runtime released
it; `warm_expiry_stale`: a recording that starts and stops while the callback waits is left without its warm period.
-/

namespace Talk2Text

/-- How often the timer was started. -/
def Timer.starts : Timer → Nat
  | .immediate => 0
  | .callback t => t.starts

namespace Daemon

open Sys

/-- The step calls `d.warmTimer.Start()`: a stop or the callback of a delayed stop finishes the active session. -/
def startsWarm (st : CaptureStep) : Bool :=
  match st.label with
  | .stop _ _ | .delayedStop _ _ => st.pre.active.isSome && st.post.active.isNone
  | _ => false

/-- The callback of expiry `n` gets the mutex while no session is active: it turns the stream off. -/
def TurnsOff (n : Nat) (st : CaptureStep) : Prop :=
  ∃ k, st.label = .warmCallback k ∧ st.pre.warmTimer.released[k]? = some n ∧ st.pre.active = none

/-- The last step of the history releases expiry `n`; expiry 0 is released inside `NewCallbackTimer`. -/
def ReleasedIn (n : Nat) (h : History) : Prop :=
  (h = [] ∧ n = 0) ∨
    ∃ h' st, h = h' ++ [st] ∧ st.label = .warmTimerExpires ∧ st.pre.warmTimer.armed = some n

/-! ## One step -/

/-- What a step does to the warm timer, and whether it starts it. -/
inductive WarmMoves (tm : Timer) : Label → Timer → Bool → Prop
  | keep (l : Label) : WarmMoves tm l tm false
  | stop (l : Label) : WarmMoves tm l tm.stop false
  | start (l : Label) : WarmMoves tm l tm.start.1 true
  | expire (tm' : Timer) : tm.expire = some tm' → WarmMoves tm .warmTimerExpires tm' false
  | take (k : Nat) (tm' : Timer) : tm.take k = some tm' → WarmMoves tm (.warmCallback k) tm' false

section Step

variable {host : Host} {s t : Capture} {l : Label} {out : List Event} {h : History} {n : Nat}

theorem startsWarm_of_active (ha : t.active = s.active) : startsWarm ⟨s, l, out, t⟩ = false := by
  unfold startsWarm
  rw [ha]
  cases l with
  | stop | delayedStop => cases s.active <;> rfl
  | _ => rfl

theorem startsWarm_finish {s' : Capture} {a : Session}
    (hl : (∃ o early, l = .stop o early) ∨ ∃ i k, l = .delayedStop i k) (ha : s.active = some a) : startsWarm ⟨s, l, out, s'.finish a⟩ = true := by
  unfold startsWarm
  rw [Capture.active_finish, ha]
  rcases hl with ⟨o, early, rfl⟩ | ⟨i, k, rfl⟩ <;> rfl

/-- **The warm timer** is started by a finished session, and stopped by a start and by the shutdown. -/
theorem warm_moves (ha : Acts host s l t out) :
    WarmMoves s.warmTimer l t.warmTimer (startsWarm ⟨s, l, out, t⟩) := by
  have hsame : t.active = s.active → t.warmTimer = s.warmTimer →
      WarmMoves s.warmTimer l t.warmTimer (startsWarm ⟨s, l, out, t⟩) := fun hact htm => by
    rw [startsWarm_of_active hact, htm]
    exact .keep _
  cases ha with
  | beginSession | finalize | shutdown => exact .stop _
  | stopNow o early a hact =>
    rw [startsWarm_finish (Or.inl ⟨o, early, rfl⟩) hact, Capture.warmTimer_finish]
    exact .start _
  | delayedStop i k t' tm a _ _ hact =>
    rw [startsWarm_finish (Or.inr ⟨i, k, rfl⟩) hact, Capture.warmTimer_finish]
    exact .start _
  | warmTimerExpires tm htm => exact .expire tm htm
  | warmBusy k tm htm | warmOff k tm htm => exact .take k tm htm
  | ignoreStop | repeatStop | schedule | staleStop => exact hsame rfl rfl
  | _ => exact .keep _

/-- Expiry `n` was released by the history, and the timer was started once for every session finished since. -/
def ReleasedSince (n : Nat) (h : History) (starts : Nat) : Prop :=
  ∃ h₀ since, h = h₀ ++ since ∧ ReleasedIn n h₀ ∧ starts = n + since.countP startsWarm

theorem ReleasedSince.snoc {starts : Nat} (hr : ReleasedSince n h starts) (st : CaptureStep) :
    ReleasedSince n (h ++ [st]) (starts + if startsWarm st then 1 else 0) := by
  obtain ⟨h₀, since, rfl, hin, rfl⟩ := hr
  refine ⟨h₀, since ++ [st], by rw [List.append_assoc], hin, ?_⟩
  rw [List.countP_append, List.countP_singleton, Nat.add_assoc]

/-- The scheduled expiry is the last one, and where the released ones come from. -/
structure WarmHistory (h : History) (tm : Timer) : Prop where
  armed : ∀ n, tm.armed = some n → n = tm.starts
  released : ∀ n ∈ tm.released, ReleasedSince n h tm.starts

/-- **One step** keeps the origin of the expiries. -/
theorem WarmHistory.step {tm tm' : Timer} {st : CaptureStep} (hw : WarmHistory h tm) (hpre : st.pre.warmTimer = tm)
    (hm : WarmMoves tm st.label tm' (startsWarm st)) : WarmHistory (h ++ [st]) tm' := by
  have hsnoc := fun n hn => (hw.released n hn).snoc st
  generalize hl : st.label = l at hm
  generalize hb : startsWarm st = b at hm hsnoc
  cases hm with
  | keep => exact ⟨hw.armed, hsnoc⟩
  | stop =>
    refine ⟨fun n hn => ?_, fun n hn => ?_⟩
    · rw [Timer.armed_stop] at hn
      cases hn
    · rw [Timer.released_stop] at hn
      cases tm with
      | immediate => cases hn
      | callback c => exact hsnoc n hn
  | start =>
    cases tm with
    | immediate => exact ⟨nofun, nofun⟩
    | callback c => exact ⟨fun n hn => (Option.some.inj hn).symm, hsnoc⟩
  | expire _ he =>
    cases tm with
    | immediate => cases he
    | callback c =>
      obtain ⟨c', hc, rfl⟩ := Option.map_eq_some_iff.mp he
      obtain ⟨m, hm, rfl⟩ := Option.map_eq_some_iff.mp hc
      refine ⟨nofun, fun n hn => ?_⟩
      rcases List.mem_append.mp hn with hn | hn
      · exact hsnoc n hn
      · -- the expiry that is released now is the scheduled one, the last that was armed
        cases List.mem_singleton.mp hn
        refine ⟨h ++ [st], [], (List.append_nil _).symm, Or.inr ⟨h, st, rfl, hl, hpre ▸ hm⟩, ?_⟩
        exact (hw.armed m hm).symm
  | take k _ he =>
    cases tm with
    | immediate => cases he
    | callback c =>
      obtain ⟨c', hc, rfl⟩ := Option.map_eq_some_iff.mp he
      unfold CallbackTimer.take at hc
      split at hc
      · cases hc
        exact ⟨hw.armed, fun n hn => hsnoc n (List.mem_of_mem_eraseIdx hn)⟩
      · cases hc

theorem warmHistory_of_run (r : Run (captureSystem host) h s) : WarmHistory h s.warmTimer := by
  refine r.induction (P := fun h s => WarmHistory h s.warmTimer) ?_ fun h s l t out _ hw hst =>
    hw.step rfl (warm_moves (captureStep_acts hst))
  rintro s ⟨early, rfl⟩
  unfold Capture.initial
  dsimp only
  split
  · refine ⟨nofun, fun n hn => ⟨[], [], rfl, Or.inl ⟨rfl, ?_⟩, ?_⟩⟩ <;> cases early with
    | false => cases hn
    | true => cases List.mem_singleton.mp hn; rfl
  · exact ⟨nofun, nofun⟩

end Step

/-- **A warm period is ended by its own expiry** exactly when no session was finished while the callback waited. Whenever
a callback turns the stream off, its expiry `n` was released at some point of the run, and `n` is the number of the last
`d.warmTimer.Start()` iff no step since then finishes a session. -/
theorem warm_expiry_current_iff {host : Host} {h₁ h₂ : History} {st : CaptureStep} {s : Capture} {n : Nat}
    (r : Run (captureSystem host) (h₁ ++ st :: h₂) s) (hoff : TurnsOff n st) :
    ∃ h₀ since, h₁ = h₀ ++ since ∧ ReleasedIn n h₀ ∧
      (n = st.pre.warmTimer.starts ↔ ∀ st' ∈ since, startsWarm st' = false) := by
  obtain ⟨k, -, hk, -⟩ := hoff
  obtain ⟨h₀, since, he, hin, hcount⟩ := (warmHistory_of_run r.before).released n (List.mem_of_getElem? hk)
  refine ⟨h₀, since, he, hin, ?_⟩
  rw [hcount]
  constructor
  · intro hn st' hm
    have hzero : since.countP startsWarm = 0 := by omega
    exact eq_false_of_ne_true (List.countP_eq_zero.mp hzero st' hm)
  · intro hnone
    rw [List.countP_eq_zero.mpr fun st' hm => by simp [hnone st' hm], Nat.add_zero]

/-- A recording is stopped and the warm period after it expires. -/
theorem warm_expiry_current_iff_stop : ∃ h₁ st s h₀ since,
    Run (captureSystem ⟨{ warmRetention := second }, fun _ => false⟩) (h₁ ++ [st]) s ∧ TurnsOff 1 st ∧
    h₁ = h₀ ++ since ∧ ReleasedIn 1 h₀ ∧ ∀ st' ∈ since, startsWarm st' = false := by
  obtain ⟨h₁, st, s, r, hq⟩ := Run.exists_snoc_of_exec
    (M := captureSystem ⟨{ warmRetention := second }, fun _ => false⟩) ⟨false, rfl⟩
    [.start [(RequestEnv.xdgSessionIDName, "3")], .stop "3" false, .warmTimerExpires, .warmCallback 0]
    (fun _ st => st.label = .warmCallback 0 ∧ st.pre.warmTimer.released[0]? = some 1 ∧ st.pre.active = none ∧
      1 = st.pre.warmTimer.starts) (by decide)
  obtain ⟨hl, hr, ha, hn⟩ := of_decide_eq_true hq
  obtain ⟨h₀, since, he, hin, hiff⟩ := warm_expiry_current_iff r ⟨0, hl, hr, ha⟩
  exact ⟨h₁, st, s, h₀, since, r, ⟨0, hl, hr, ha⟩, he, hin, hiff.mp hn⟩

/-- **A stale expiry ends a later warm period**: its callback waits for the mutex while the next recording starts and
stops. -/
theorem warm_expiry_stale : ¬∀ (host : Host) (h₁ h₂ : History) (st : CaptureStep) (s : Capture) (n : Nat),
    Run (captureSystem host) (h₁ ++ st :: h₂) s → TurnsOff n st → st.pre.ctl.desiredStreamState = .warm →
      n = st.pre.warmTimer.starts := by
  intro hall
  obtain ⟨h₁, st, s, r, hq⟩ := Run.exists_snoc_of_exec
    (M := captureSystem ⟨{ warmRetention := second }, fun _ => false⟩) ⟨false, rfl⟩
    [.start [(RequestEnv.xdgSessionIDName, "3")], .stop "3" false, .warmTimerExpires,
      .start [(RequestEnv.xdgSessionIDName, "3")], .stop "3" false, .warmCallback 0]
    (fun _ st => st.label = .warmCallback 0 ∧ st.pre.warmTimer.released[0]? = some 1 ∧ st.pre.active = none ∧
      st.pre.ctl.desiredStreamState = .warm ∧ st.pre.warmTimer.starts = 2) (by decide)
  obtain ⟨hl, hr, ha, hd, hn⟩ := of_decide_eq_true hq
  have := hall _ h₁ [] st s 1 r ⟨0, hl, hr, ha⟩ hd
  omega

end Daemon

end Talk2Text
