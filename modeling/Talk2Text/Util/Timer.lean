/-!
# Timers

`util/timer`: a `Timer` is started and stopped; an `ImmediateTimer` calls its function on every start, a
`CallbackTimer` schedules it with `time.AfterFunc`. Stopping an `AfterFunc` timer does not stop a callback that the
runtime has already released: the released callback still runs, in its own goroutine, some time later. A callback
timer therefore keeps, besides the scheduled expiry, the expiries that are released and still to run. Every expiry is
numbered by the `Start` that armed it; number `0` is the short life of the timer inside `NewCallbackTimer`, between
`time.AfterFunc` and the `Stop` right after it.
-/

namespace Talk2Text

/-- A started or stopped `time.AfterFunc` timer. -/
structure CallbackTimer where
  /-- The number of `Start` calls. -/
  starts : Nat
  /-- The `Start` whose expiry is scheduled. -/
  armed : Option Nat
  /-- Released expiries whose callbacks are still to run. -/
  released : List Nat
  deriving DecidableEq, Repr

/-- `NewCallbackTimer` with a positive duration; `early` when the timer fires before its `Stop`. -/
def newCallbackTimer (early : Bool) : CallbackTimer := ⟨0, none, if early then [0] else []⟩

namespace CallbackTimer

/-- `CallbackTimer.Start`. -/
def start (t : CallbackTimer) : CallbackTimer := { t with starts := t.starts + 1, armed := some (t.starts + 1) }

/-- `CallbackTimer.Stop`. -/
def stop (t : CallbackTimer) : CallbackTimer := { t with armed := none }

/-- The duration elapses: the runtime releases the scheduled callback. -/
def expire (t : CallbackTimer) : Option CallbackTimer :=
  t.armed.map fun n => { t with armed := none, released := t.released ++ [n] }

/-- The `k`-th released callback stops waiting and runs. -/
def take (t : CallbackTimer) (k : Nat) : Option CallbackTimer :=
  if k < t.released.length then some { t with released := t.released.eraseIdx k } else none

/-- An expiry is scheduled, or released and still to run. -/
def Pending (t : CallbackTimer) : Prop := t.armed.isSome = true ∨ t.released ≠ []

instance (t : CallbackTimer) : Decidable t.Pending := inferInstanceAs (Decidable (_ ∨ _))

@[simp] theorem armed_start (t : CallbackTimer) : t.start.armed = some (t.starts + 1) := rfl

@[simp] theorem released_start (t : CallbackTimer) : t.start.released = t.released := rfl

@[simp] theorem armed_stop (t : CallbackTimer) : t.stop.armed = none := rfl

@[simp] theorem released_stop (t : CallbackTimer) : t.stop.released = t.released := rfl

theorem pending_start (t : CallbackTimer) : t.start.Pending := Or.inl rfl

/-- An expiry leaves the timer stopped with its callback released. -/
theorem expire_eq_some {t t' : CallbackTimer} (h : t.expire = some t') :
    t.armed.isSome = true ∧ t'.armed = none ∧ t'.released ≠ [] := by
  obtain ⟨n, hn, rfl⟩ := Option.map_eq_some_iff.mp h
  simp [hn]

/-- Running a callback leaves the schedule as it is. -/
theorem take_eq_some {t t' : CallbackTimer} {k : Nat} (h : t.take k = some t') :
    t.released ≠ [] ∧ t'.armed = t.armed := by
  unfold take at h
  split at h
  · rename_i hk
    cases h
    exact ⟨List.ne_nil_of_length_pos (by omega), rfl⟩
  · cases h

end CallbackTimer

/-- A `Timer`: `ImmediateTimer` or `CallbackTimer`. -/
inductive Timer
  | immediate
  | callback (t : CallbackTimer)
  deriving DecidableEq, Repr

namespace Timer

/-- `Timer.Start`; the flag says that the function is called on the spot. -/
def start : Timer → Timer × Bool
  | .immediate => (.immediate, true)
  | .callback t => (.callback t.start, false)

/-- `Timer.Stop`; an `ImmediateTimer` does nothing. -/
def stop : Timer → Timer
  | .immediate => .immediate
  | .callback t => .callback t.stop

def expire : Timer → Option Timer
  | .immediate => none
  | .callback t => t.expire.map .callback

def take : Timer → Nat → Option Timer
  | .immediate, _ => none
  | .callback t, k => (t.take k).map .callback

/-- The scheduled expiry. -/
def armed : Timer → Option Nat
  | .immediate => none
  | .callback t => t.armed

/-- The expiries whose callbacks are still to run. -/
def released : Timer → List Nat
  | .immediate => []
  | .callback t => t.released

@[simp] theorem armed_stop (t : Timer) : t.stop.armed = none := by cases t <;> rfl

@[simp] theorem released_stop (t : Timer) : t.stop.released = t.released := by cases t <;> rfl

end Timer

end Talk2Text
