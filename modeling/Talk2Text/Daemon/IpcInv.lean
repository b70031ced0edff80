import Mathlib.Tactic.ByContra
import Talk2Text.Sys.Pool
import Talk2Text.Daemon.CaptureInv
import Talk2Text.Daemon.Ipc

/-!
# The server and the mutex

What holds in every reachable state of `ipcSystem` (`Ipc.Ok`): who holds the mutex, how far each call is, and what
the server and `Run` wait for. `ok_step` is the step lemma.

With it, the acknowledgement and the transition of a call have no step between them that changes the active session,
so the two together are one request of `daemonSystem` (`request_of_acknowledged`), which `ipcSystem` refines
(`daemon_of_reachable`).
-/

namespace Talk2Text.Daemon

open Sys
open Server (Request)

/-- The program points between `Lock` and `Unlock`. -/
def CallPc.isInside : CallPc → Bool
  | .locked | .acknowledged | .leaving _ => true
  | _ => false

def MainPc.isInside : MainPc → Bool
  | .locked | .leaving => true
  | _ => false

/-- No session is active, and the stream is desired off. -/
def Capture.Stopped (s : Capture) : Prop := s.active = none ∧ s.ctl.desiredStreamState = .off

/-- What is known of a call at its program point. -/
def Call.Sound (cfg : Config) (s : Capture) (c : Call) : Prop :=
  dispatch cfg false c.request = .ok c.command ∧
  match c.pc with
  | .spawned => c.answer = none
  | .locked =>
    c.answer = none ∧ ∀ environment, c.command = .start environment → RequestEnv.originID environment ≠ ""
  | .acknowledged => c.answer.isSome = true ∧ ∀ environment, c.command = .start environment →
      RequestEnv.originID environment ≠ "" ∧ s.busy (RequestEnv.originID environment) = false
  | .leaving a => (a.or c.answer).isSome = true
  | .returned => c.answer.isSome = true

/-- What holds in every reachable state. -/
structure Ipc.Ok (cfg : Config) (s : Ipc) : Prop where
  /-- The call that holds the mutex is the one in its section. -/
  call_iff : ∀ i, (∃ c, s.calls[i]? = some c ∧ c.pc.isInside = true) ↔ s.mutex = some (.call i)
  main_iff : s.main.isInside = true ↔ s.mutex = some .shutdown
  sound : ∀ (i : Nat) (c : Call), s.calls[i]? = some c → c.Sound cfg s.daemon.capture
  /-- The server waits for the only call that is not answered, the last one. -/
  waits : ∀ (i : Nat) (c : Call), s.calls[i]? = some c → c.answer = none → s.server = .wait i
  last : ∀ i, s.server = .wait i → i + 1 = s.calls.length
  served : s.main ≠ .serving → s.server = .returned ∧ ∀ (i : Nat) (c : Call), s.calls[i]? = some c → c.pc = .returned
  stopped : s.main = .leaving ∨ s.main = .waiting → s.daemon.capture.Stopped

/-- **An accepted start** in two steps. -/
theorem Capture.start_of_accept {s : Capture} {environment : Environment}
    (ho : RequestEnv.originID environment ≠ "") (hb : s.busy (RequestEnv.originID environment) = false) :
    s.start environment = (s.accept environment, [.reply none]) := by
  unfold Capture.start Capture.accept
  unfold Capture.busy at hb
  simp only [if_neg ho, hb, Bool.false_eq_true, if_false]
  cases s.active.filter fun a => a.id = s.pendingStopClip <;> rfl

section Ok

variable {host : DaemonHost} {s t : Ipc} {out : List DaemonEvent}

theorem busy_congr {s t : Capture} (h : t.active = s.active) (o : String) : t.busy o = s.busy o := by
  unfold Capture.busy
  rw [h]

/-- A step that does not need the mutex leaves the active session. -/
theorem active_of_not_needsMutex {ch : Host} {s t : Capture} {l : Label} {es : List Event}
    (hr : l.ofRequest = false) (hl : l ≠ .shutdown) (hn : s.needsMutex l = false)
    (h : captureStep ch s l = some (t, es)) : t.active = s.active := by
  cases captureStep_acts h with
  | refuse | beginSession | finalize | ignoreStop | repeatStop | schedule | stopNow | allocateClip => cases hr
  | staleStop | delayedStop | warmBusy | warmOff => cases hn
  | shutdown => exact absurd rfl hl
  | pcmError pcm a a' err hp | maxDuration pcm a a' w hp | append pcm a a' τs hp =>
    simp [Capture.needsMutex, hp] at hn
  | discard m c es hm =>
    cases hm with
    | giveUpRecording op hpc => cases op <;> simp [Capture.needsMutex, hpc, FailedOp.pc] at hn
  | stopTimerExpires | warmTimerExpires | ignoreAudio | cancel | move | task => rfl

/-- Only a start ends the quiet after `shutdown`. -/
theorem stopped_step {ch : Host} {s t : Capture} {l : Label} {es : List Event} (hs : s.Stopped)
    (hl : ∀ environment, l ≠ .start environment) (h : captureStep ch s l = some (t, es)) : t.Stopped := by
  have ha : ∀ {a : Session} {P : Prop}, s.active = some a → P := by
    intro a P he
    rw [hs.1] at he
    cases he
  cases captureStep_acts h with
  | refuse env | beginSession env | finalize env => exact absurd rfl (hl env)
  | repeatStop o e a he | schedule o e a he | stopNow o e a he | pcmError pcm a a' err _ he
  | maxDuration pcm a a' w _ he | append pcm a a' τs _ he => exact ha he
  | delayedStop i k t tm a _ _ he => exact ha he
  | ignoreStop | stopTimerExpires | staleStop | warmTimerExpires | warmBusy | ignoreAudio | cancel | allocateClip
  | task => exact hs
  | warmOff => exact ⟨hs.1, rfl⟩
  | shutdown => exact ⟨rfl, rfl⟩
  | move m c es hm =>
    refine ⟨hs.1, ?_⟩
    rcases moves_desired hm with hd | ⟨-, hd⟩
    · exact hd.trans hs.2
    · exact hd
  | discard m c es hm => exact ⟨rfl, (moves_desired hm).2⟩

/-- Only an acknowledged call depends on the capture, by the owner of the active session. -/
theorem Call.Sound.congr {cfg : Config} {s t : Capture} {c : Call} (h : c.Sound cfg s)
    (ha : c.pc = .acknowledged → t.active = s.active) : c.Sound cfg t := by
  refine ⟨h.1, ?_⟩
  have hpc := h.2
  cases hp : c.pc with
  | acknowledged =>
    simp only [hp] at hpc ⊢
    exact ⟨hpc.1, fun env he => ⟨(hpc.2 env he).1, busy_congr (ha hp) _ ▸ (hpc.2 env he).2⟩⟩
  | spawned | locked | leaving | returned => simpa only [hp] using hpc

namespace Ipc.Ok

variable {cfg : Config} {i : Nat} {c c' : Call} {d : DaemonState} {mutex : Option Holder}

theorem mutex_of_inside (h : s.Ok cfg) (hi : s.calls[i]? = some c) (hc : c.pc.isInside = true) :
    s.mutex = some (.call i) := (h.call_iff i).mp ⟨c, hi, hc⟩

/-- While calls move, `Run` waits. -/
theorem serving (h : s.Ok cfg) (hi : s.calls[i]? = some c) (hc : c.pc ≠ .returned) : s.main = .serving := by
  by_contra hm
  exact hc ((h.served hm).2 i c hi)

/-- What is to be checked when call `i` moves. -/
theorem move (h : s.Ok cfg) (hi : s.calls[i]? = some c) (hc : c.pc ≠ .returned)
    (hin : c'.pc.isInside = true ↔ mutex = some (.call i))
    (hother : mutex = s.mutex ∨ s.mutex = none ∧ mutex = some (.call i) ∨ s.mutex = some (.call i) ∧ mutex = none)
    (hsound : c'.Sound cfg d.capture) (hact : d.capture.active = s.daemon.capture.active ∨ c.pc = .acknowledged)
    (hans : c'.answer = none → c.answer = none) :
    Ipc.Ok cfg { s with daemon := d, mutex := mutex, calls := s.calls.set i c' } where
  call_iff j := by
    by_cases hj : j = i
    · subst hj
      obtain ⟨hlt, -⟩ := List.getElem?_eq_some_iff.mp hi
      rw [← hin]
      simp [hlt]
    · have hold : s.mutex = some (.call j) ↔ mutex = some (.call j) := by
        rcases hother with rfl | ⟨h1, h2⟩ | ⟨h1, h2⟩
        · rfl
        · simp [h1, h2, Ne.symm hj]
        · simp [h1, h2, Ne.symm hj]
      rw [← hold, ← h.call_iff j]
      simp [Ne.symm hj]
  main_iff := by
    have hold : s.mutex = some .shutdown ↔ mutex = some .shutdown := by
      rcases hother with rfl | ⟨h1, h2⟩ | ⟨h1, h2⟩
      · rfl
      · simp [h1, h2]
      · simp [h1, h2]
    exact h.main_iff.trans hold
  sound j x hx := by
    rcases getElem?_set_cases hx with ⟨-, rfl⟩ | ⟨hj, hx⟩
    · exact hsound
    · refine (h.sound j x hx).congr fun hp => hact.resolve_right fun hc => hj ?_
      -- two acknowledged calls would both hold the mutex
      have hmi := h.mutex_of_inside hi (by rw [hc]; rfl)
      have hmj := h.mutex_of_inside hx (by rw [hp]; rfl)
      rw [hmi] at hmj
      cases hmj; rfl
  waits j x hx hn := by
    rcases getElem?_set_cases hx with ⟨rfl, rfl⟩ | ⟨-, hx⟩
    · exact h.waits j c hi (hans hn)
    · exact h.waits j x hx hn
  last j hj := by
    rw [List.length_set]
    exact h.last j hj
  served hm := absurd (h.serving hi hc) hm
  stopped hm := by
    rcases hm with hm | hm <;> exact absurd ((h.serving hi hc).symm.trans hm) (by simp)

end Ipc.Ok

/-- **One step of a call** keeps the invariant. -/
theorem ok_call {i : Nat} {early : Bool} {c c' : Call} {d : DaemonState} {mutex : Option Holder}
    (h : s.Ok host.cfg) (hi : s.calls[i]? = some c)
    (hst : callStep host s.daemon s.mutex i early c = some (d, mutex, c')) :
    Ipc.Ok host.cfg { s with daemon := d, mutex := mutex, calls := s.calls.set i c' } := by
  have hs := h.sound i c hi
  have hout : c.pc.isInside = false → s.mutex ≠ some (.call i) := by
    intro hc hm
    obtain ⟨x, hx, hin⟩ := (h.call_iff i).mpr hm
    rw [hi] at hx
    cases hx
    rw [hc] at hin
    cases hin
  have hin : c.pc.isInside = true → s.mutex = some (.call i) := fun hc => h.mutex_of_inside hi hc
  cases callStep_acts hst with
  | fail env a hpc hcmd ho =>
    refine h.move hi (by simp [hpc]) ?_ (Or.inl rfl) ⟨hs.1, rfl⟩ (Or.inl rfl) (by simp)
    simpa [CallPc.isInside] using hout (by rw [hpc]; rfl)
  | lock hpc hm ho =>
    have ha : c.answer = none := by simpa only [hpc] using hs.2
    exact h.move hi (by simp [hpc]) (by simp [CallPc.isInside]) (Or.inr (Or.inl ⟨hm, rfl⟩)) ⟨hs.1, ha, ho⟩
      (Or.inl rfl) id
  | read a hpc =>
    refine h.move hi (by simp [hpc]) ?_ (Or.inl rfl) ⟨hs.1, rfl⟩ (Or.inl rfl) id
    simpa [CallPc.isInside] using hin (by rw [hpc]; rfl)
  | acknowledge hpc hb _ =>
    have ho : c.answer = none ∧ ∀ env, c.command = .start env → RequestEnv.originID env ≠ "" := by
      simpa only [hpc] using hs.2
    refine h.move hi (by simp [hpc]) ?_ (Or.inl rfl) ⟨hs.1, rfl, fun env he => ⟨ho.2 env he, hb env he⟩⟩
      (Or.inl rfl) (by simp)
    simpa [CallPc.isInside] using hin (by rw [hpc]; rfl)
  | start env hpc hcmd =>
    have ha : c.answer.isSome = true := by
      have := hs.2
      simp only [hpc] at this
      exact this.1
    refine h.move hi (by simp [hpc]) ?_ (Or.inl rfl) ⟨hs.1, by simpa using ha⟩ (Or.inr hpc) id
    simpa [CallPc.isInside] using hin (by rw [hpc]; rfl)
  | stop o hpc hcmd =>
    have ha : c.answer.isSome = true := by
      have := hs.2
      simp only [hpc] at this
      exact this.1
    refine h.move hi (by simp [hpc]) ?_ (Or.inl rfl) ⟨hs.1, by simpa using ha⟩ (Or.inr hpc) id
    simpa [CallPc.isInside] using hin (by rw [hpc]; rfl)
  | leave a hpc =>
    have ha : (a.or c.answer).isSome = true := by simpa only [hpc] using hs.2
    refine h.move hi (by simp [hpc]) (by simp [CallPc.isInside])
      (Or.inr (Or.inr ⟨hin (by rw [hpc]; rfl), rfl⟩)) ⟨hs.1, ha⟩ (Or.inl rfl) fun hn => ?_
    dsimp only at hn
    rw [hn] at ha
    cases ha

/-- The start of a call. -/
theorem Ipc.Ok.spawn {cfg : Config} (h : s.Ok cfg) {r : Request} {command : Command} (hs : s.server = .request r)
    (hd : dispatch cfg false r = .ok command) :
    Ipc.Ok cfg { s with server := .wait s.calls.length, calls := s.calls ++ [⟨r, command, .spawned, none⟩] } where
  call_iff i := by
    rw [← h.call_iff i]
    constructor
    · rintro ⟨c, hc, hin⟩
      rcases getElem?_concat_cases hc with ⟨-, rfl⟩ | hc
      · cases hin
      · exact ⟨c, hc, hin⟩
    · rintro ⟨c, hc, hin⟩
      exact ⟨c, List.getElem?_append_left (List.getElem?_eq_some_iff.mp hc).1 ▸ hc, hin⟩
  main_iff := h.main_iff
  sound i c hc := by
    rcases getElem?_concat_cases hc with ⟨-, rfl⟩ | hc
    · exact ⟨hd, rfl⟩
    · exact h.sound i c hc
  waits i c hc hn := by
    rcases getElem?_concat_cases hc with ⟨rfl, -⟩ | hc
    · rfl
    · have := h.waits i c hc hn
      rw [hs] at this
      cases this
  last i hi := by
    cases hi
    simp
  served hm := by
    have := (h.served hm).1
    rw [hs] at this
    cases this
  stopped := h.stopped

/-- When the mutex is free, every answered call is over. -/
theorem Ipc.Ok.over {cfg : Config} (h : s.Ok cfg) (hm : s.mutex = none) {i : Nat} {c : Call}
    (hi : s.calls[i]? = some c) (ha : c.answer ≠ none) : c.pc = .returned := by
  have hin : c.pc.isInside ≠ true := fun hin => by
    have hc := h.mutex_of_inside hi hin
    rw [hm] at hc
    cases hc
  have hsound := (h.sound i c hi).2
  cases hpc : c.pc with
  | spawned =>
    simp only [hpc] at hsound
    exact absurd hsound ha
  | locked | acknowledged | leaving => exact absurd (by rw [hpc]; rfl) hin
  | returned => rfl

/-- The steps of the rest of the daemon leave the active session when they do not need the mutex, and the quiet after
`shutdown`. -/
theorem active_of_lets {l : DaemonLabel} {d : DaemonState} {es : List DaemonEvent} (hl : s.lets l = true)
    (hd : daemonStep host s.daemon l = some (d, es)) :
    (s.mutex.isSome = true → d.capture.active = s.daemon.capture.active) ∧
      (s.daemon.capture.Stopped → d.capture.Stopped) := by
  cases daemonStep_acts hd with
  | fail | start | stop | status => cases hl
  | capture l c es hr hc =>
    simp only [Ipc.lets, ne_eq, Bool.and_eq_true, Bool.or_eq_true, decide_eq_true_eq, Bool.not_eq_true'] at hl
    refine ⟨fun hm => active_of_not_needsMutex hr hl.1 (hl.2.resolve_left ?_) hc, fun hs => ?_⟩
    · rw [Option.isNone_iff_eq_none]
      intro hn
      rw [hn] at hm
      cases hm
    · refine stopped_step hs (fun env he => ?_) hc
      rw [he] at hr
      cases hr
  | http l c es _ hc => exact ⟨fun _ => rfl, id⟩

/-- **One step** keeps the invariant. -/
theorem ok_step {l : IpcLabel} (h : s.Ok host.cfg) (hst : ipcStep host s l = some (t, out)) : t.Ok host.cfg := by
  cases ipcStep_acts hst with
  | serve l server es _ hne hw hserver =>
    refine ⟨h.call_iff, h.main_iff, h.sound, fun i c hi hn => ?_, fun i hi => absurd hi (hserver i),
      fun hm => absurd (h.served hm).1 hne, h.stopped⟩
    exact absurd hn (hw i (h.waits i c hi hn) c hi)
  | spawn done r command hs hd => exact h.spawn hs hd
  | call i early c c' d mutex hi hc => exact ok_call h hi hc
  | httpReturn => exact ⟨h.call_iff, h.main_iff, h.sound, h.waits, h.last, h.served, h.stopped⟩
  | lockShutdown _ hs _ hm =>
    -- the server has answered every call
    have ha : ∀ (i : Nat) (c : Call), s.calls[i]? = some c → c.answer ≠ none := by
      intro i c hi hn
      have hw := h.waits i c hi hn
      rw [hs] at hw
      cases hw
    refine ⟨fun i => ?_, by simp [MainPc.isInside], h.sound, h.waits, h.last,
      fun _ => ⟨hs, fun i c hi => h.over hm hi (ha i c hi)⟩, by simp⟩
    rw [h.call_iff i, hm]
    simp
  | shutdown d es hmain hd =>
    have hserved := h.served (by simp [hmain])
    have hm : s.mutex = some .shutdown := h.main_iff.mp (by rw [hmain]; rfl)
    cases daemonStep_acts hd with
    | capture l c es _ hc =>
      cases hc
      refine ⟨h.call_iff, by simp [MainPc.isInside, hm], fun i x hx => ?_, h.waits, h.last, fun _ => hserved,
        fun _ => ⟨rfl, rfl⟩⟩
      exact (h.sound i x hx).congr fun hp => by
        rw [hserved.2 i x hx] at hp
        cases hp
  | unlockShutdown hmain =>
    have hm : s.mutex = some .shutdown := h.main_iff.mp (by rw [hmain]; rfl)
    refine ⟨fun i => ?_, by simp [MainPc.isInside], h.sound, h.waits, h.last, fun _ => h.served (by simp [hmain]),
      fun _ => h.stopped (Or.inl hmain)⟩
    rw [h.call_iff i, hm]
    simp
  | daemon l d es hl hd =>
    obtain ⟨hact, hstop⟩ := active_of_lets hl hd
    refine ⟨h.call_iff, h.main_iff, fun i c hi => (h.sound i c hi).congr fun hp => hact ?_, h.waits, h.last, h.served,
      fun hm => hstop (h.stopped hm)⟩
    rw [h.mutex_of_inside hi (by rw [hp]; rfl)]
    rfl

theorem ok_of_reachable (hs : Reachable (ipcSystem host) s) : s.Ok host.cfg := by
  refine Reachable.induction (P := fun s => s.Ok host.cfg) ?_ (fun _ _ _ _ _ h hst => ok_step h hst) hs
  rintro s ⟨early, rfl⟩
  exact ⟨by simp [Ipc.initial], by simp [Ipc.initial, MainPc.isInside], by simp [Ipc.initial],
    by simp [Ipc.initial], by simp [Ipc.initial], by simp [Ipc.initial], by simp [Ipc.initial]⟩

/-- A stop is always acknowledged. -/
theorem Capture.stop_snd (cfg : Config) (o : String) (early : Bool) (s : Capture) :
    (s.stop cfg o early).2 = [.reply none] := by
  unfold Capture.stop
  split
  · rfl
  · split
    · rfl
    · split
      · split
        · rfl
        · split <;> rfl
      · rfl

/-- **The transition of an acknowledged call** is the step of its request. -/
theorem request_of_acknowledged {i : Nat} {early : Bool} {c c' : Call} {d : DaemonState} {mutex : Option Holder}
    (h : s.Ok host.cfg) (hi : s.calls[i]? = some c) (hc : c.pc = .acknowledged)
    (hst : callStep host s.daemon s.mutex i early c = some (d, mutex, c')) :
    daemonStep host s.daemon (.request c.request false early) = some (d, [.answer none none]) := by
  obtain ⟨hd, hsound⟩ := h.sound i c hi
  simp only [hc] at hsound
  cases callStep_acts hst with
  | start env _ hcmd =>
    rw [hcmd] at hd
    obtain ⟨ho, hb⟩ := hsound.2 env hcmd
    simp only [daemonStep, hd, captureStep, Capture.start_of_accept ho hb]
    rfl
  | stop o _ hcmd =>
    rw [hcmd] at hd
    have hsnd := Capture.stop_snd host.cfg o early s.daemon.capture
    simp only [daemonStep, hd, captureStep, DaemonHost.captureHost, Option.map_some, hsnd]
    rfl
  | fail env a hpc | lock hpc | read a hpc | acknowledge hpc | leave a hpc =>
    rw [hc] at hpc
    cases hpc

/-- A step leaves the daemon or is one step of it. -/
theorem daemon_step {l : IpcLabel} (h : s.Ok host.cfg) (hst : ipcStep host s l = some (t, out)) :
    t.daemon = s.daemon ∨ ∃ l es, daemonStep host s.daemon l = some (t.daemon, es) := by
  cases ipcStep_acts hst with
  | serve | spawn | httpReturn | lockShutdown | unlockShutdown => exact Or.inl rfl
  | shutdown d es _ hd => exact Or.inr ⟨_, _, hd⟩
  | daemon l d es _ hd => exact Or.inr ⟨_, _, hd⟩
  | call i early c c' d mutex hi hc =>
    by_cases hpc : c.pc = .acknowledged
    · exact Or.inr ⟨_, _, request_of_acknowledged h hi hpc hc⟩
    · cases callStep_acts hc with
      | start env hp | stop o hp => exact absurd hp hpc
      | fail | lock | read | acknowledge | leave => exact Or.inl rfl

/-- **Refinement.** The daemon with its server does what `daemonSystem` does, where a request is one step. -/
theorem daemon_of_reachable (hs : Reachable (ipcSystem host) s) : Reachable (daemonSystem host) s.daemon := by
  refine Reachable.induction (P := fun s => Reachable (daemonSystem host) s.daemon) ?_ ?_ hs
  · rintro s ⟨early, rfl⟩
    exact .init ⟨early, rfl⟩
  · intro s l t out hr ih hst
    rcases daemon_step (ok_of_reachable hr) hst with he | ⟨l, es, hd⟩
    · rwa [he]
    · exact Reachable.step (M := daemonSystem host) ih hd

end Ok

end Talk2Text.Daemon
