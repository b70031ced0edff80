import Talk2Text.Daemon.Stream

/-!
# No change of the desired stream state is lost

The stream manager against any other goroutines: they may change the desired state at any time, any number of times,
and the backend calls may fail in any pattern (`streamSystem`). The signal channel has one slot, so signals coalesce,
and the failure branches change the desired state without a signal.

`Synced` relates the point where the manager stands, its snapshot of the desired state, the signal and the stream: a
snapshot that is out of date has a signal queued behind it. Every step keeps it (`synced_step`), and at the `select`
with an empty channel it says that the stream is in the desired state (`shows_of_reachable`).
-/

namespace Talk2Text.Daemon

open Sys

/-! ## The system -/

structure StreamSys where
  ctl : Control
  /-- The context is cancelled. -/
  cancelled : Bool

inductive StreamLabel
  | desireOff
  | desireWarm (environment : List String)
  | desireRecording
  | cancel
  /-- A step of the manager, `active` being `d.active` at that moment. -/
  | manager (active : Option Session) (m : Move)

/-- The stream manager among goroutines that set desired states. -/
def streamSystem : System StreamSys StreamLabel StreamEvent where
  init s := s = ⟨Control.initial, false⟩
  step s
    | .desireOff => some ({ s with ctl := s.ctl.desireStreamOff }, [])
    | .desireWarm env => some ({ s with ctl := s.ctl.desireStreamWarm env }, [])
    | .desireRecording => some ({ s with ctl := s.ctl.desireStreamRecording }, [])
    | .cancel => some ({ s with cancelled := true }, [])
    | .manager active m =>
      (managerStep s.cancelled active s.ctl m).map fun (c, es, _) => ({ s with ctl := c }, es)

/-! ## Agreement -/

/-- The real stream is in state `d`: off means no open stream, warm an open stream whose last successful call is
`Stop`, recording one whose last successful call is `Start`. -/
def Shows : StreamState → Option Stream → Prop
  | .off, st => st = none
  | .warm, st => ∃ x, st = some x ∧ x.last = some .stop
  | .recording, st => ∃ x, st = some x ∧ x.last = some .start

namespace Control

def Agrees (c : Control) : Prop := Shows c.desiredStreamState c.stream

/-- The snapshot `d` of the desired state is up to date, or a signal is queued. -/
def Current (c : Control) (d : StreamState) : Prop := c.desiredStreamState = d ∨ c.signal = true

/-- What holds at each point of the manager. -/
def Synced (c : Control) : Prop :=
  match c.pc with
  | .select => c.Agrees ∨ c.signal = true
  | .decided d => c.Current d
  | .opening d => c.stream = none ∧ c.Current d.state
  | .openFailed d => c.stream = none ∧ c.Current d.state
  | .opened d => c.stream.isSome = true ∧ c.Current d.state
  | .calling d => c.stream.isSome = true ∧ c.Current d.state
  | .callFailed d => c.stream.isSome = true ∧ c.Current d.state
  | .mustClose _ => c.stream.isSome = true ∧ c.Current .off
  | .closing .exit => c.stream = none
  | .closing _ => c.stream = none ∧ c.Current .off
  | .reporting _ => c.stream = none ∧ c.Current .off
  | .returned => c.stream = none
  | .received | .exiting | .crashed => True

/-- A signalled change of the desired state keeps the invariant: it touches neither the stream nor the manager. -/
theorem Synced.signalled {c c' : Control} (h : c.Synced) (hpc : c'.pc = c.pc) (hst : c'.stream = c.stream)
    (hs : c'.signal = true) : c'.Synced := by
  have hcur : ∀ d, c'.Current d := fun _ => Or.inr hs
  unfold Synced at h ⊢
  rw [hpc, hst]
  split at h <;> first | exact Or.inr hs | exact hcur _ | exact ⟨h.1, hcur _⟩ | exact h

theorem synced_initial : initial.Synced := Or.inl rfl

/-- Off and no stream, or a signal: the manager may go back to its `select`. -/
theorem agrees_or_signal {c : Control} (hst : c.stream = none) (h : c.Current .off) :
    c.Agrees ∨ c.signal = true := by
  rcases h with h | h
  · left
    unfold Agrees
    rw [h]; exact hst
  · exact Or.inr h

/-- A stream on which the call of `d` has just succeeded shows `d`. -/
theorem shows_call {st : Stream} (d : OpenState) : Shows d.state (some { st with last := some d.call }) := by
  cases d <;> exact ⟨_, rfl, rfl⟩

end Control

/-- **One step of the manager** keeps the invariant. -/
theorem synced_moves {cancelled : Bool} {active : Option Session} {c c' : Control} {m : Move}
    {es : List StreamEvent} {b : Bool} (hs : c.Synced) (h : Moves cancelled active c m c' es b) : c'.Synced := by
  unfold Control.Synced at hs
  cases h with
  | done => trivial
  | receive => trivial
  | read => exact Or.inl rfl
  | stayOff hpc hst =>
    rw [hpc] at hs
    exact Control.agrees_or_signal hst hs
  | closeOff st hpc hst =>
    rw [hpc] at hs
    exact ⟨rfl, hs⟩
  | openNew d hpc hst =>
    rw [hpc] at hs
    exact ⟨hst, hs⟩
  | keepOpen d hpc hst =>
    rw [hpc] at hs
    exact ⟨hst, hs⟩
  | openOk d hpc =>
    rw [hpc] at hs
    exact ⟨rfl, hs.2⟩
  | openErr d hpc =>
    rw [hpc] at hs
    exact hs
  | call d st hpc hst =>
    rw [hpc] at hs
    exact hs
  | callNil d hpc hst => trivial
  | callOk d hpc =>
    rw [hpc] at hs
    obtain ⟨hst, hd | hsig⟩ := hs
    · obtain ⟨st, hst⟩ := Option.isSome_iff_exists.mp hst
      left
      simp only [Control.Agrees, hd, hst, Option.map_some]
      exact Control.shows_call d
    · exact Or.inr hsig
  | callErr d hpc =>
    rw [hpc] at hs
    exact hs
  | changed d op hpc hd =>
    -- the desired state differs from the snapshot, so a signal is queued
    cases op <;> rw [hpc] at hs <;> exact Or.inr (hs.2.resolve_left hd)
  | giveUpWarm op hpc hd =>
    cases op <;> rw [hpc] at hs <;> exact ⟨hs.1, Or.inl rfl⟩
  | giveUpRecording op hpc hd =>
    cases op <;> rw [hpc] at hs <;> exact ⟨hs.1, Or.inl rfl⟩
  | close r st hpc hst =>
    rw [hpc] at hs
    exact ⟨rfl, hs.2⟩
  | closeNil r hpc hst => trivial
  | closed k ok hpc =>
    rw [hpc] at hs
    cases k with
    | select => exact Control.agrees_or_signal hs.1 hs.2
    | report r => exact hs
    | exit => exact hs
  | report r hpc =>
    rw [hpc] at hs
    exact Control.agrees_or_signal hs.1 hs.2
  | reportNil op hpc => trivial
  | exitClose st hpc hst => rfl
  | exit hpc hst => exact hst

/-- Every step keeps the invariant. -/
theorem synced_step {s t : StreamSys} {l : StreamLabel} {out : List StreamEvent} (hs : s.ctl.Synced)
    (h : streamSystem.step s l = some (t, out)) : t.ctl.Synced := by
  cases l with
  | desireOff => cases h; exact hs.signalled rfl rfl rfl
  | desireWarm env => cases h; exact hs.signalled rfl rfl rfl
  | desireRecording => cases h; exact hs.signalled rfl rfl rfl
  | cancel => cases h; exact hs
  | manager active m =>
    obtain ⟨⟨c, es, b⟩, hm, h⟩ := Option.map_eq_some_iff.mp h
    cases h; exact synced_moves hs (managerStep_moves hm)

theorem synced_of_reachable {s : StreamSys} (hs : Reachable streamSystem s) : s.ctl.Synced :=
  hs.induction (fun _ hi => hi ▸ Control.synced_initial) fun _ _ _ _ _ => synced_step

/-- At the `select` with an empty channel the stream is in the desired state. -/
theorem shows_of_reachable {s : StreamSys} (hs : Reachable streamSystem s) (hpc : s.ctl.pc = .select)
    (hsig : s.ctl.signal = false) : Shows s.ctl.desiredStreamState s.ctl.stream := by
  have h := synced_of_reachable hs
  unfold Control.Synced at h
  rw [hpc] at h
  exact h.resolve_right (by simp [hsig])

end Talk2Text.Daemon
