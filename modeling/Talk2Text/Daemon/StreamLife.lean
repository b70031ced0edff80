import Talk2Text.Sys.Lifetime
import Talk2Text.Daemon.CaptureInv

/-!
# Every stream is used within its life

What the stream manager does with the streams that `newAudio` returns, for any sequence of desired states, any results
of the backend calls and cancellation at any point. `Close` is not idempotent, and the manager calls it in four places.

`Handles` is what one step of the manager does to the stream it holds; with it the effects of a run follow the rules of
`Sys.Follows` (`InLife`). `streams_used_within_life`: at most one stream is open at a time, `Start`, `Stop` and `Close`
are called on it only, nothing is called on a stream after `Close`, and once the manager has returned every stream has
been closed exactly once. The same holds in the runs of the whole daemon (`usedWithinLife_of_capture`). So what
`StreamSync` says of the stream that the manager holds, it says of the only open one (`stream_agrees`).
-/

namespace Talk2Text.Daemon

open Sys

/-! ## Uses of streams -/

/-- The operation on a stream. -/
def StreamEvent.use : StreamEvent → Option (Use Nat)
  | .opened i => some (.acquire i)
  | .call i _ => some (.use i)
  | .close i => some (.release i)
  | .logNotifyError .. | .nilDeref => none

/-- The stream that is returned, used or closed. -/
def StreamEvent.stream (e : StreamEvent) : Option Nat := e.use.map Use.id

/-- The operations on streams among the effects, in order. -/
def streamUses (es : List StreamEvent) : List (Use Nat) := es.filterMap StreamEvent.use

/-- Stream `i` has been returned by `newAudio` and not been closed. -/
def IsOpen (es : List StreamEvent) (i : Nat) : Prop := .opened i ∈ es ∧ .close i ∉ es

/-- The stream that the manager holds. -/
def Control.held (c : Control) : Option Nat := c.stream.map Stream.id

section Uses

variable {es es₁ es₂ : List StreamEvent} {e : StreamEvent} {i : Nat}

theorem streamUses_append (es₁ es₂ : List StreamEvent) :
    streamUses (es₁ ++ es₂) = streamUses es₁ ++ streamUses es₂ := List.filterMap_append

theorem use_eq_acquire : e.use = some (.acquire i) ↔ e = .opened i := by
  cases e <;> simp [StreamEvent.use]

theorem use_eq_release : e.use = some (.release i) ↔ e = .close i := by
  cases e <;> simp [StreamEvent.use]

theorem acquire_mem_streamUses : .acquire i ∈ streamUses es ↔ .opened i ∈ es := by
  simp only [streamUses, List.mem_filterMap, use_eq_acquire, exists_eq_right]

theorem release_mem_streamUses : .release i ∈ streamUses es ↔ .close i ∈ es := by
  simp only [streamUses, List.mem_filterMap, use_eq_release, exists_eq_right]

theorem count_release_streamUses (es : List StreamEvent) (i : Nat) :
    (streamUses es).count (.release i) = es.count (.close i) := by
  induction es with
  | nil => rfl
  | cons e es ih =>
    rw [streamUses, List.filterMap_cons, List.count_cons, ← ih]
    cases e <;> simp [StreamEvent.use, List.count_cons, streamUses]

theorem isOpen_iff {held : Option Nat} (h : Follows (streamUses es) held) : IsOpen es i ↔ held = some i := by
  rw [h.held_iff, acquire_mem_streamUses, release_mem_streamUses, IsOpen]

end Uses

/-! ## One step of the manager -/

/-- What a step does to the stream that the manager holds, with the operations it carries out. -/
inductive Handles (c c' : Control) : List (Use Nat) → Prop
  | keep : c'.held = c.held → c'.nextStream = c.nextStream → Handles c c' []
  | opened : c.held = none → c'.held = some c.nextStream → c'.nextStream = c.nextStream + 1 →
      Handles c c' [.acquire c.nextStream]
  | call (i : Nat) : c.held = some i → c'.held = some i → c'.nextStream = c.nextStream → Handles c c' [.use i]
  | close (i : Nat) : c.held = some i → c'.held = none → c'.nextStream = c.nextStream → Handles c c' [.release i]

section Handles

variable {cancelled : Bool} {active : Option Session} {c c' : Control} {m : Move} {es : List StreamEvent} {b : Bool}

/-- A report uses no stream. -/
theorem streamUses_emit (r : Report) : streamUses r.emit = [] := by
  cases r with
  | warm op => cases op <;> rfl
  | recording op s => cases s <;> cases op <;> rfl

/-- **One step of the manager** acquires a stream only when it holds none, and uses and closes only the one it holds. -/
theorem handles_moves (hs : c.Synced) (h : Moves cancelled active c m c' es b) : Handles c c' (streamUses es) := by
  cases h with
  | openOk d hpc =>
    -- `newAudio` is called only without an open stream
    have hnone : c.stream = none := by
      unfold Control.Synced at hs
      rw [hpc] at hs
      exact hs.1
    exact .opened (by simp [Control.held, hnone]) rfl rfl
  | call d st hpc hst =>
    have hheld : c.held = some st.id := by simp [Control.held, hst]
    exact .call st.id hheld hheld rfl
  | closeOff st hpc hst | close r st hpc hst | exitClose st hpc hst =>
    exact .close st.id (by simp [Control.held, hst]) rfl rfl
  | callOk d hpc =>
    refine .keep ?_ rfl
    simp only [Control.held, Option.map_map]
    rfl
  | report r hpc hr =>
    rw [streamUses_emit]
    exact .keep rfl rfl
  | _ => exact .keep rfl rfl

/-- **A nil pointer** is dereferenced only where the manager reports the failure of a recording without a session, never
where it uses a stream. -/
theorem nilDeref_moves (hs : c.Synced) (h : Moves cancelled active c m c' es b) (hn : .nilDeref ∈ es) :
    ∃ op, c.pc = .reporting (.recording op none) := by
  unfold Control.Synced at hs
  cases h with
  | reportNil op hpc => exact ⟨op, hpc⟩
  | callNil d hpc hst | closeNil r hpc hst =>
    rw [hpc, hst] at hs
    exact absurd hs.1 (by simp)
  | report r hpc hr =>
    cases r with
    | warm op => cases op <;> simp [Report.emit] at hn
    | recording op s =>
      cases s with
      | none => cases hr
      | some s => cases op <;> simp [Report.emit] at hn
  | _ => simp at hn

end Handles

/-! ## Runs -/

/-- The effects so far follow the rules, the manager holds what they leave, and the streams are numbered. -/
structure InLife (es : List StreamEvent) (c : Control) : Prop where
  follows : Follows (streamUses es) c.held
  lt_nextStream : ∀ i, .opened i ∈ es → i < c.nextStream

namespace InLife

variable {es out : List StreamEvent} {c c' : Control}

theorem initial : InLife [] Control.initial := ⟨.nil, nofun⟩

/-- **One step** keeps to the rules. -/
theorem append (h : InLife es c) (hh : Handles c c' (streamUses out)) : InLife (es ++ out) c' := by
  have hfresh : .acquire c.nextStream ∉ streamUses es := fun hm =>
    Nat.lt_irrefl _ (h.lt_nextStream _ (acquire_mem_streamUses.mp hm))
  refine ⟨?_, fun i hi => ?_⟩
  · rw [streamUses_append]
    generalize streamUses out = uses at hh
    cases hh with
    | keep hheld =>
      rw [List.append_nil, hheld]
      exact h.follows
    | opened hnone hheld =>
      rw [hheld]
      exact h.follows.snoc ⟨hnone, hfresh⟩
    | call i hi hheld =>
      rw [hheld]
      exact h.follows.snoc hi
    | close i hi hheld =>
      rw [hheld]
      exact h.follows.snoc hi
  · have hi := acquire_mem_streamUses.mpr hi
    rw [streamUses_append, List.mem_append, acquire_mem_streamUses] at hi
    generalize streamUses out = uses at hh hi
    cases hh with
    | opened _ _ hnext =>
      rw [hnext]
      rcases hi with hi | hi
      · exact Nat.lt_succ_of_lt (h.lt_nextStream i hi)
      · cases List.mem_singleton.mp hi
        exact Nat.lt_succ_self _
    | keep _ hnext | call j _ _ hnext | close j _ _ hnext =>
      rw [hnext]
      refine h.lt_nextStream i (hi.resolve_right ?_)
      simp

end InLife

/-- **Every stream is used within its life**, in the order of the effects. -/
structure UsedWithinLife (es : List StreamEvent) : Prop where
  /-- A stream is new, and no other is open. -/
  opened : ∀ es₁ i es₂, es = es₁ ++ .opened i :: es₂ → .opened i ∉ es₁ ∧ ∀ j, ¬IsOpen es₁ j
  /-- `Start` and `Stop` are called on the open stream. -/
  called : ∀ es₁ i call es₂, es = es₁ ++ .call i call :: es₂ → IsOpen es₁ i
  /-- `Close` is called on the open stream. -/
  closed : ∀ es₁ i es₂, es = es₁ ++ .close i :: es₂ → IsOpen es₁ i
  /-- Nothing is called on a stream after `Close`. -/
  after_close : ∀ es₁ i es₂, es = es₁ ++ .close i :: es₂ → ∀ e ∈ es₂, e.stream ≠ some i
  /-- At most one stream is open. -/
  one_open : ∀ i j, IsOpen es i → IsOpen es j → i = j
  /-- No stream is closed twice. -/
  close_once : ∀ i, es.count (.close i) ≤ 1

/-- What follows the rules of `Follows` is used within its life. -/
theorem usedWithinLife_of_follows {es : List StreamEvent} {held : Option Nat} (h : Follows (streamUses es) held) :
    UsedWithinLife es := by
  have hsplit : ∀ {es₁ e es₂ o}, es = es₁ ++ e :: es₂ → e.use = some o →
      Follows (streamUses es₁ ++ o :: streamUses es₂) held := by
    rintro es₁ e es₂ o rfl ho
    rw [streamUses_append, streamUses, streamUses, List.filterMap_cons, ho] at h
    exact h
  refine ⟨fun es₁ i es₂ he => ?_, fun es₁ i call es₂ he => ?_, fun es₁ i es₂ he => ?_, fun es₁ i es₂ he e hm hi => ?_,
    fun i j hi hj => ?_, fun i => ?_⟩
  · obtain ⟨held₁, h₁, hnone, hnew⟩ := (hsplit he rfl).before
    refine ⟨fun hm => hnew (acquire_mem_streamUses.mpr hm), fun j hj => ?_⟩
    rw [isOpen_iff h₁, hnone] at hj
    cases hj
  · obtain ⟨held₁, h₁, hheld⟩ := (hsplit he rfl).before
    exact (isOpen_iff h₁).mpr hheld
  · obtain ⟨held₁, h₁, hheld⟩ := (hsplit he rfl).before
    exact (isOpen_iff h₁).mpr hheld
  · obtain ⟨o, ho, rfl⟩ := Option.map_eq_some_iff.mp hi
    exact (hsplit he rfl).not_used_after o (List.mem_filterMap.mpr ⟨e, hm, ho⟩) rfl
  · have hij := ((isOpen_iff h).mp hi).symm.trans ((isOpen_iff h).mp hj)
    exact Option.some.inj hij
  · rw [← count_release_streamUses]
    exact h.count_release_le i

section Runs

variable {h : List (Step StreamSys StreamLabel StreamEvent)} {s : StreamSys}

theorem handles_step {s t : StreamSys} {l : StreamLabel} {out : List StreamEvent} (hs : s.ctl.Synced)
    (h : streamSystem.step s l = some (t, out)) : Handles s.ctl t.ctl (streamUses out) := by
  cases l with
  | desireOff | desireWarm | desireRecording | cancel =>
    cases h
    exact .keep rfl rfl
  | manager active m =>
    obtain ⟨⟨c, es, b⟩, hm, h⟩ := Option.map_eq_some_iff.mp h
    cases h
    exact handles_moves hs (managerStep_moves hm)

theorem nilDeref_step {s t : StreamSys} {l : StreamLabel} {out : List StreamEvent} (hs : s.ctl.Synced)
    (h : streamSystem.step s l = some (t, out)) (hn : .nilDeref ∈ out) :
    ∃ op, s.ctl.pc = .reporting (.recording op none) := by
  cases l with
  | desireOff | desireWarm | desireRecording | cancel =>
    cases h
    cases hn
  | manager active m =>
    obtain ⟨⟨c, es, b⟩, hm, h⟩ := Option.map_eq_some_iff.mp h
    cases h
    exact nilDeref_moves hs (managerStep_moves hm) hn

theorem inLife_of_run (r : Run streamSystem h s) : InLife (outputs h) s.ctl := by
  refine Run.induction (P := fun h s => InLife (outputs h) s.ctl) ?_ ?_ r
  · rintro s rfl
    exact InLife.initial
  · intro h s l t out hs ih hst
    rw [outputs_snoc]
    exact ih.append (handles_step (synced_of_reachable hs) hst)

/-- The manager has closed its stream when it returns. -/
theorem held_of_returned {c : Control} (hs : c.Synced) (hpc : c.pc = .returned) : c.held = none := by
  unfold Control.Synced at hs
  rw [hpc] at hs
  rw [Control.held, hs, Option.map_none]

end Runs

/-! ## The whole daemon -/

section Capture

/-- The effects of the stream manager. -/
def streamEvents (es : List Event) : List StreamEvent :=
  es.filterMap fun | .stream e => some e | _ => none

theorem streamEvents_map (es : List StreamEvent) : streamEvents (es.map .stream) = es := by
  induction es with
  | nil => rfl
  | cons e es ih => exact congrArg (e :: ·) ih

theorem streamEvents_eq_nil {es : List Event} (h : ∀ e, .stream e ∉ es) : streamEvents es = [] := by
  rw [streamEvents, List.filterMap_eq_nil_iff]
  intro e hm
  cases e with
  | stream e => exact absurd hm (h e)
  | _ => rfl

theorem handles_acts {host : Host} {s t : Capture} {l : Label} {out : List Event} (hs : s.ctl.Synced)
    (h : Acts host s l t out) : Handles s.ctl t.ctl (streamUses (streamEvents out)) := by
  by_cases hl : ∃ m, l = .manager m
  · obtain ⟨m, rfl⟩ := hl
    cases h with
    | move m c es hm | discard m c es hm =>
      rw [streamEvents_map]
      exact handles_moves hs hm
  · obtain ⟨hd, -, hout⟩ := desires_acts (fun m e => hl ⟨m, e⟩) h
    rw [streamEvents_eq_nil hout]
    generalize t.ctl = c at hd ⊢
    cases hd <;> exact .keep rfl rfl

/-- **In every run of the daemon's capture** every stream is used within its life, and none is open once the manager has
returned. -/
theorem usedWithinLife_of_capture {host : Host} {h : List (Step Capture Label Event)} {s : Capture}
    (r : Run (captureSystem host) h s) : UsedWithinLife (streamEvents (outputs h)) ∧
      (s.ctl.pc = .returned → ∀ i, ¬IsOpen (streamEvents (outputs h)) i) := by
  have hlife : InLife (streamEvents (outputs h)) s.ctl := by
    refine Run.induction (P := fun h s => InLife (streamEvents (outputs h)) s.ctl) ?_ ?_ r
    · rintro s ⟨early, rfl⟩
      exact InLife.initial
    · intro h s l t out hs ih hst
      rw [outputs_snoc, streamEvents, List.filterMap_append]
      exact ih.append (handles_acts (synced_of_capture hs) (captureStep_acts hst))
  refine ⟨usedWithinLife_of_follows hlife.follows, fun hpc i hi => ?_⟩
  rw [isOpen_iff hlife.follows, held_of_returned (synced_of_capture r.reachable) hpc] at hi
  cases hi

end Capture

/-- **Every stream is used within its life and closed exactly once**, for any desired states, results of the backend
calls and cancellation. The open stream is the one the manager holds; it calls nothing on a nil stream; and when it has
returned no stream is open and each one it got has been closed exactly once. -/
theorem streams_used_within_life {h : List (Step StreamSys StreamLabel StreamEvent)} {s : StreamSys}
    (r : Run streamSystem h s) :
    UsedWithinLife (outputs h) ∧ (∀ i, IsOpen (outputs h) i ↔ s.ctl.held = some i) ∧
      (∀ st ∈ h, .nilDeref ∈ st.out → ∃ op, st.pre.ctl.pc = .reporting (.recording op none)) ∧
      (s.ctl.pc = .returned →
        (∀ i, ¬IsOpen (outputs h) i) ∧ ∀ i, .opened i ∈ outputs h → (outputs h).count (.close i) = 1) := by
  have hlife := inLife_of_run r
  refine ⟨usedWithinLife_of_follows hlife.follows, fun i => isOpen_iff hlife.follows, fun st hm hn => ?_,
    fun hpc => ?_⟩
  · obtain ⟨hs, hst⟩ := r.mem_step hm
    exact nilDeref_step (synced_of_reachable hs) hst hn
  · have hnone := held_of_returned (synced_of_reachable r.reachable) hpc
    refine ⟨fun i hi => ?_, fun i hi => ?_⟩
    · rw [isOpen_iff hlife.follows, hnone] at hi
      cases hi
    · rw [← count_release_streamUses]
      exact (hnone ▸ hlife.follows).count_release (acquire_mem_streamUses.mpr hi)

/-- A stream that does not start and is closed, another one that records, and a cancellation. -/
theorem streams_used_within_life_returned : ∃ h s, Run streamSystem h s ∧ s.ctl.pc = .returned ∧
    outputs h = [.opened 0, .call 0 .start, .close 0,
      .logNotifyError [] "audio-capture" "failed to start audio capture for clip 1", .opened 1, .call 1 .start,
      .close 1] ∧
    UsedWithinLife (outputs h) ∧ ∀ i, .opened i ∈ outputs h → (outputs h).count (.close i) = 1 := by
  obtain ⟨h, s, r, hq⟩ := Run.exists_of_exec (M := streamSystem) rfl
    [.desireRecording, .manager none .receive, .manager none .next, .manager none .next, .manager none (.ret true),
      .manager none .next, .manager none (.ret false), .manager (some ⟨1, [], 0, "3", []⟩) .next, .manager none .next,
      .manager none (.ret true), .manager none .next,
      .desireRecording, .manager none .receive, .manager none .next, .manager none .next, .manager none (.ret true),
      .manager none .next, .manager none (.ret true), .cancel, .manager none .done, .manager none .next,
      .manager none (.ret true)]
    (fun h s => s.ctl.pc = .returned ∧ outputs h = [.opened 0, .call 0 .start, .close 0,
      .logNotifyError [] "audio-capture" "failed to start audio capture for clip 1", .opened 1, .call 1 .start,
      .close 1]) (by decide +kernel)
  obtain ⟨hpc, hout⟩ := of_decide_eq_true hq
  obtain ⟨hlife, -, -, hret⟩ := streams_used_within_life r
  exact ⟨h, s, r, hpc, hout, hlife, (hret hpc).2⟩

/-- **No change is lost.** Whenever the manager is at its `select` and the signal channel is empty, the real stream is
in the desired state, whether the context is cancelled or not; and no stream is open but this one. -/
theorem stream_agrees {h : List (Step StreamSys StreamLabel StreamEvent)} {s : StreamSys} (r : Run streamSystem h s)
    (hpc : s.ctl.pc = .select) (hsig : s.ctl.signal = false) :
    Shows s.ctl.desiredStreamState s.ctl.stream ∧ ∀ i, IsOpen (outputs h) i ↔ s.ctl.held = some i :=
  ⟨shows_of_reachable r.reachable hpc hsig, fun _ => isOpen_iff (inLife_of_run r).follows⟩

/-- A stop and a new start while a slow `newAudio` is running: one signal for both, and a stream that records. -/
theorem stream_agrees_recording : ∃ h s, Run streamSystem h s ∧ Shows .recording s.ctl.stream ∧
    ∀ i, IsOpen (outputs h) i ↔ s.ctl.held = some i := by
  obtain ⟨h, s, r, hq⟩ := Run.exists_of_exec (M := streamSystem) rfl
    [.desireRecording, .manager none .receive, .manager none .next, .manager none .next, .desireWarm [],
      .desireRecording, .manager none (.ret true), .manager none .next, .manager none (.ret true),
      .manager none .receive, .manager none .next, .manager none .next, .manager none .next,
      .manager none (.ret true)]
    (fun _ s => s.ctl.pc = .select ∧ s.ctl.signal = false ∧ s.ctl.desiredStreamState = .recording) (by decide)
  obtain ⟨hpc, hsig, hd⟩ := of_decide_eq_true hq
  obtain ⟨hshows, hopen⟩ := stream_agrees r hpc hsig
  rw [hd] at hshows
  exact ⟨h, s, r, hshows, hopen⟩

end Talk2Text.Daemon
