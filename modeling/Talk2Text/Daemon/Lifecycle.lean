import Talk2Text.Sys.Pool
import Talk2Text.Daemon.CaptureInv

/-!
# The life of a local clip

What the capture is for, without its fields: one recorder that is idle, records a clip, or records a clip whose stop
is accepted (`Phase`). A transition may hand the clip it ends over to processing (`Transition`); a clip whose stop is
accepted is never replaced without being handed over.

`lifecycle_acts` connects it to the code: every atomic step is one transition, and the clip that the transition hands
over is the one for which the step leaves a goroutine behind that calls `transcribe`.
-/

namespace Talk2Text.Daemon

open Sys

/-! ## The abstract recorder -/

inductive Phase
  | idle
  | recording (clip : Nat)
  /-- Recording goes on, but a stop is accepted. -/
  | stopping (clip : Nat)
  deriving DecidableEq, Repr

def Phase.clip : Phase → Option Nat
  | .idle => none
  | .recording c => some c
  | .stopping c => some c

/-- `Transition next p q out`: from `p` to `q` when `next` is the next clip ID, handing `out` over. -/
inductive Transition (next : Nat) : Phase → Phase → Option Nat → Prop
  | keep (p : Phase) : Transition next p p none
  | begin : Transition next .idle (.recording next) none
  | schedule (c : Nat) : Transition next (.recording c) (.stopping c) none
  | finish (p : Phase) (c : Nat) : p.clip = some c → Transition next p .idle (some c)
  | drop (p : Phase) (c : Nat) : p.clip = some c → Transition next p .idle none
  /-- A start while recording discards the clip. -/
  | replace (c : Nat) : Transition next (.recording c) (.recording next) none
  /-- A start while a stop is pending finishes the clip. -/
  | finalize (c : Nat) : Transition next (.stopping c) (.recording next) (some c)

namespace Transition

variable {next : Nat} {p q : Phase} {out : Option Nat}

/-- Only the clip of the phase before is handed over. -/
theorem out_clip (h : Transition next p q out) {c : Nat} (ho : out = some c) : p.clip = some c := by
  cases h <;> simp_all [Phase.clip]

/-- The clip of the phase after is the old one or the new one. -/
theorem clip_cases (h : Transition next p q out) : q.clip = p.clip ∨ q.clip = none ∨ q.clip = some next := by
  cases h <;> simp [Phase.clip]

/-- A clip that is handed over is detached, unless the next clip ID is not fresh. -/
theorem out_detached (h : Transition next p q out) {c : Nat} (ho : out = some c) (hc : c ≠ next) :
    q.clip ≠ some c := by
  cases h <;> simp_all [Phase.clip]
  omega

/-- **A clip whose stop is accepted** stays so, or is handed over, or is dropped. -/
theorem of_stopping {c : Nat} (h : Transition next (.stopping c) q out) :
    q = .stopping c ∨ out = some c ∨ (q = .idle ∧ out = none) := by
  cases h with
  | keep => exact Or.inl rfl
  | finish _ c' hc => cases hc; exact Or.inr (Or.inl rfl)
  | drop => exact Or.inr (Or.inr ⟨rfl, rfl⟩)
  | finalize => exact Or.inr (Or.inl rfl)

end Transition

/-! ## The phase of the capture -/

namespace Capture

def activeID (s : Capture) : Option Nat := s.active.map Session.id

def phase (s : Capture) : Phase :=
  match s.active with
  | none => .idle
  | some a => if s.pendingStopClip = a.id then .stopping a.id else .recording a.id

theorem clip_phase (s : Capture) : s.phase.clip = s.activeID := by
  unfold phase activeID
  split
  · rename_i ha; rw [ha]; rfl
  · rename_i a ha
    rw [ha]
    split <;> rfl

theorem phase_idle {s : Capture} (ha : s.active = none) : s.phase = .idle := by simp [phase, ha]

theorem phase_recording {s : Capture} {a : Session} (ha : s.active = some a) (hp : s.pendingStopClip ≠ a.id) :
    s.phase = .recording a.id := by simp [phase, ha, hp]

theorem phase_stopping {s : Capture} {a : Session} (ha : s.active = some a) (hp : s.pendingStopClip = a.id) :
    s.phase = .stopping a.id := by simp [phase, ha, hp]

/-- The phase depends on the active clip and the pending stop. -/
theorem phase_congr {s t : Capture} (ha : t.activeID = s.activeID) (hp : t.pendingStopClip = s.pendingStopClip) :
    t.phase = s.phase := by
  unfold activeID at ha
  cases hs : s.active with
  | none =>
    rw [hs, Option.map_none, Option.map_eq_none_iff] at ha
    rw [phase_idle ha, phase_idle hs]
  | some a =>
    rw [hs, Option.map_some] at ha
    obtain ⟨b, hb, hid⟩ := Option.map_eq_some_iff.mp ha
    simp only [phase, hs, hb, hp, hid]

end Capture

/-! ## Handing over -/

/-- The session that the task hands over. -/
def Task.clip : Task → Option Nat
  | .processStoppedSession s => some s.id
  | .maxDuration s _ => some s.id
  | .recordStart _ => none
  | .pcmError _ _ => none

def Task.hands (c : Nat) (τ : Task) : Bool := τ.clip = some c

/-- The event hands clip `c` to `transcribe`. -/
def Event.hands (c : Nat) : Event → Bool
  | .transcribe s => s.id = c
  | _ => false

/-- How often clip `c` was handed over. -/
def handed (c : Nat) (es : List Event) : Nat := es.countP (Event.hands c)

/-- How many goroutines are about to hand clip `c` over. -/
def Capture.waiting (c : Nat) (s : Capture) : Nat := s.tasks.countP (Task.hands c)

@[simp] theorem handed_append (c : Nat) (es es' : List Event) :
    handed c (es ++ es') = handed c es + handed c es' := List.countP_append ..

@[simp] theorem waiting_addTask (c : Nat) (s : Capture) (τ : Task) :
    (s.addTask τ).waiting c = s.waiting c + if τ.clip = some c then 1 else 0 := by
  simp only [Capture.waiting, Capture.tasks_addTask, List.countP_append, List.countP_singleton, Task.hands,
    decide_eq_true_eq]

/-- A task hands over its session, once. -/
theorem handed_run (c : Nat) (τ : Task) : handed c τ.run = if τ.hands c then 1 else 0 := by
  cases τ with
  | processStoppedSession s =>
    simp only [Task.run, handed_append]
    split <;> simp [handed, Event.hands, Task.hands, Task.clip, List.countP_cons]
  | recordStart s => simp [Task.run, handed, Event.hands, Task.hands, Task.clip]
  | maxDuration s b =>
    cases b <;> simp [Task.run, handed, Event.hands, Task.hands, Task.clip, List.countP_cons]
  | pcmError s err => simp [Task.run, handed, Event.hands, Task.hands, Task.clip]

theorem handed_stream (c : Nat) (es : List StreamEvent) : handed c (es.map .stream) = 0 := by
  simp [handed, List.countP_eq_zero, Event.hands]

theorem handed_reply (c : Nat) (err : Option String) : handed c [.reply err] = 0 := by
  simp [handed, Event.hands]

/-! ## The steps are transitions -/

/-- What a step does to clips: the transition, and the goroutines that hand clips over. -/
def Effect (s t : Capture) (out : List Event) (o : Option Nat) : Prop :=
  Transition s.nextClip s.phase t.phase o ∧
  ∀ c, handed c out + t.waiting c = s.waiting c + if o = some c then 1 else 0

section Effect

variable {s t : Capture} {out : List Event}

/-- A step that changes neither the active clip nor the pending stop nor the tasks. -/
theorem Effect.keep (ha : t.activeID = s.activeID) (hp : t.pendingStopClip = s.pendingStopClip)
    (hw : ∀ c, handed c out + t.waiting c = s.waiting c) : Effect s t out none := by
  refine ⟨?_, fun c => by simp [hw c]⟩
  rw [Capture.phase_congr ha hp]
  exact .keep _

/-- A step that ends the active session without handing it over. -/
theorem Effect.drop {a : Session} (ha : s.active = some a) (ht : t.active = none)
    (hw : ∀ c, handed c out + t.waiting c = s.waiting c) : Effect s t out none := by
  refine ⟨?_, fun c => by simp [hw c]⟩
  rw [Capture.phase_idle ht]
  exact .drop _ a.id (by rw [Capture.clip_phase, Capture.activeID, ha]; rfl)

/-- A step that ends the active session and hands it over. -/
theorem Effect.finish {a : Session} (ha : s.active = some a) (ht : t.active = none)
    (hw : ∀ c, handed c out + t.waiting c = s.waiting c + if a.id = c then 1 else 0) :
    Effect s t out (some a.id) := by
  refine ⟨?_, fun c => by simpa using hw c⟩
  rw [Capture.phase_idle ht]
  exact .finish _ a.id (by rw [Capture.clip_phase, Capture.activeID, ha]; rfl)

theorem waiting_finish (a : Session) (s : Capture) (c : Nat) :
    (s.finish a).waiting c = s.waiting c + if a.id = c then 1 else 0 := by
  simp [Capture.waiting, List.countP_append, List.countP_singleton, Task.hands, Task.clip]

end Effect

/-- The step ends a recording without processing it: a capture failure or the shutdown. -/
def Aborts (host : Host) (s : Capture) : Label → Prop
  | .manager _ => True
  | .shutdown => True
  | .audio pcm => ∃ a err, s.active = some a ∧ (a.onPCM host.tooLarge pcm).2 = some err
  | _ => False

/-- The owner of the active clip `c` asks to stop, and the section accepts it. -/
def AcceptsStop (c : Nat) (s : Capture) (l : Label) : Prop :=
  ∃ o early a, l = .stop o early ∧ s.active = some a ∧ a.OwnedBy o ∧ a.id = c

/-- The step from `s` to `t` detaches clip `c`. -/
def Detaches (c : Nat) (s t : Capture) : Prop := s.activeID = some c ∧ t.activeID ≠ some c

/-- How a step affects clips: `o` is the clip it hands over. -/
structure Lives (host : Host) (s : Capture) (l : Label) (t : Capture) (out : List Event) (o : Option Nat) : Prop where
  effect : Effect s t out o
  nextClip_le : s.nextClip ≤ t.nextClip
  handed_ok : o.isSome = true → ¬Aborts host s l
  dropped : s.active.isSome = true → t.active = none → o = none → Aborts host s l
  accepted : ∀ c, AcceptsStop c s l → t.phase = .stopping c ∨ o = some c

section Lives

variable {host : Host} {s t : Capture} {l : Label} {out : List Event}

/-- Only a `stop` accepts a stop. -/
theorem not_accepts (hl : ∀ o early, l ≠ .stop o early) (c : Nat) : ¬AcceptsStop c s l := by
  rintro ⟨o, early, a, rfl, _⟩
  exact hl o early rfl

/-- A step other than `stop` that keeps the active clip, the pending stop and the hand-overs. -/
theorem Lives.keep (hl : ∀ o early, l ≠ .stop o early) (ha : t.activeID = s.activeID)
    (hp : t.pendingStopClip = s.pendingStopClip) (hn : s.nextClip ≤ t.nextClip)
    (hw : ∀ c, handed c out + t.waiting c = s.waiting c) : Lives host s l t out none where
  effect := .keep ha hp hw
  nextClip_le := hn
  handed_ok := fun h => by cases h
  dropped := fun hs ht => by
    obtain ⟨a, hs⟩ := Option.isSome_iff_exists.mp hs
    simp [Capture.activeID, hs, ht] at ha
  accepted := fun c h => absurd h (not_accepts hl c)

/-- A step other than `stop` that drops the active session, if there is one. -/
theorem Lives.drop (hl : ∀ o early, l ≠ .stop o early) (hab : Aborts host s l) (ht : t.active = none)
    (hn : s.nextClip ≤ t.nextClip) (hw : ∀ c, handed c out + t.waiting c = s.waiting c) :
    Lives host s l t out none where
  effect := by
    cases ha : s.active with
    | none =>
      refine ⟨?_, fun c => by simp [hw c]⟩
      rw [Capture.phase_idle ha, Capture.phase_idle ht]
      exact .keep _
    | some a => exact .drop ha ht hw
  nextClip_le := hn
  handed_ok := fun h => by cases h
  dropped := fun _ _ _ => hab
  accepted := fun c h => absurd h (not_accepts hl c)

/-- A step that ends the active session and hands it over. -/
theorem Lives.finish {a : Session} (ha : s.active = some a) (hab : ¬Aborts host s l) (ht : t.active = none)
    (hn : s.nextClip ≤ t.nextClip)
    (hw : ∀ c, handed c out + t.waiting c = s.waiting c + if a.id = c then 1 else 0) :
    Lives host s l t out (some a.id) where
  effect := .finish ha ht hw
  nextClip_le := hn
  handed_ok := fun _ => hab
  dropped := fun _ _ h => by cases h
  accepted := by
    rintro c ⟨o, early, b, _, hb, _, rfl⟩
    rw [ha] at hb
    cases hb; exact Or.inr rfl

/-- A stop that leaves the active session recording. -/
theorem Lives.stop {o : String} {early : Bool} (ha : t.active = s.active) (hn : t.nextClip = s.nextClip)
    (htr : Transition s.nextClip s.phase t.phase none) (hw : ∀ c, handed c out + t.waiting c = s.waiting c)
    (hacc : ∀ a, s.active = some a → a.OwnedBy o → t.pendingStopClip = a.id) :
    Lives host s (.stop o early) t out none where
  effect := ⟨htr, fun c => by simp [hw c]⟩
  nextClip_le := Nat.le_of_eq hn.symm
  handed_ok := fun h => by cases h
  dropped := fun hs ht => by simp [← ha, ht] at hs
  accepted := by
    rintro c ⟨o', early', a, hl, hs, hown, rfl⟩
    cases hl
    exact Or.inl (Capture.phase_stopping (ha.trans hs) (hacc a hs hown))

/-- **Every step is a transition of the recorder.** -/
theorem lifecycle_acts (hok : CaptureOk s) (h : Acts host s l t out) : ∃ o, Lives host s l t out o := by
  have hphase : ∀ a : Session, s.active = some a → a.id ≠ s.pendingStopClip → s.phase = .recording a.id :=
    fun a ha hne => Capture.phase_recording ha fun e => hne e.symm
  have hnew : ∀ env : Environment, ∀ t : Capture, t.active = (s.beginSession env).active →
      t.pendingStopClip = 0 → t.phase = .recording s.nextClip := fun env t ha hp =>
    Capture.phase_recording (a := newSession s.nextClip (RequestEnv.originID env) env) ha
      (by have := hok.nextClip_pos; simp [hp]; omega)
  cases h with
  | refuse env err =>
    exact ⟨none, .keep (by simp) rfl rfl (Nat.le_refl _) fun c => by simp [handed_reply]⟩
  | beginSession env ho hs =>
    have hw : ∀ c, handed c [.reply none] + (s.beginSession env).waiting c = s.waiting c :=
      fun c => by rw [handed_reply, Nat.zero_add]; rfl
    refine ⟨none, ⟨?_, fun c => by simp [hw c]⟩, Nat.le_succ _, fun h => (by cases h), fun _ ht => (by cases ht),
      fun c h => absurd h (not_accepts (by simp) c)⟩
    rw [hnew env _ rfl rfl]
    cases ha : s.active with
    | none => rw [Capture.phase_idle ha]; exact .begin
    | some a => rw [hphase a ha (hs a ha).2]; exact .replace _
  | finalize env a ho ha hown hid =>
    refine ⟨some a.id, ⟨?_, fun c => ?_⟩, Nat.le_succ _, fun _ => id, fun _ ht => (by cases ht),
      fun c h => absurd h (not_accepts (by simp) c)⟩
    · rw [hnew env ((s.beginSession env).addTask (.processStoppedSession a)) rfl rfl,
        Capture.phase_stopping ha hid.symm]
      exact .finalize _
    · rw [handed_reply, Nat.zero_add, waiting_addTask]; rfl
  | ignoreStop o early hno =>
    exact ⟨none, .stop rfl rfl (.keep _) (fun c => by simp [handed_reply]) fun a ha h => absurd h (hno a ha)⟩
  | repeatStop o early a ha hown hd hp =>
    refine ⟨none, .stop rfl rfl (.keep _) (fun c => by simp [handed_reply]) fun b hb _ => ?_⟩
    rw [ha] at hb
    cases hb; exact hp
  | schedule o early a ha hown hd hp h0 =>
    refine ⟨none, .stop rfl rfl ?_ (fun c => by rw [handed_reply, Nat.zero_add]; rfl) fun b hb _ => ?_⟩
    · rw [Capture.phase_recording ha hp, Capture.phase_stopping (s := s.schedule a early) ha rfl]
      exact .schedule _
    · rw [ha] at hb
      cases hb; rfl
  | stopNow o early a ha =>
    refine ⟨some a.id, .finish ha id (by simp) (by simp) fun c => ?_⟩
    rw [handed_reply, Nat.zero_add, waiting_finish]
  | stopTimerExpires => exact ⟨none, .keep (by simp) rfl rfl (Nat.le_refl _) fun c => Nat.zero_add _⟩
  | staleStop => exact ⟨none, .keep (by simp) rfl rfl (Nat.le_refl _) fun c => Nat.zero_add _⟩
  | delayedStop i k t' tm a _ _ ha =>
    refine ⟨some a.id, .finish ha id (by simp) (by simp) fun c => ?_⟩
    rw [waiting_finish]
    exact Nat.zero_add _
  | warmTimerExpires => exact ⟨none, .keep (by simp) rfl rfl (Nat.le_refl _) fun c => Nat.zero_add _⟩
  | warmBusy => exact ⟨none, .keep (by simp) rfl rfl (Nat.le_refl _) fun c => Nat.zero_add _⟩
  | warmOff => exact ⟨none, .keep (by simp) rfl rfl (Nat.le_refl _) fun c => Nat.zero_add _⟩
  | ignoreAudio => exact ⟨none, .keep (by simp) rfl rfl (Nat.le_refl _) fun c => Nat.zero_add _⟩
  | pcmError pcm a a' err hp ha hon =>
    refine ⟨none, .drop (by simp) ⟨a, err, ha, by rw [hon]⟩ rfl (Nat.le_refl _) fun c => ?_⟩
    rw [waiting_addTask]
    exact Nat.zero_add _
  | maxDuration pcm a a' b hp ha hon =>
    have hid : a'.id = a.id := by rw [← Session.id_onPCM host.tooLarge a pcm, hon]
    refine ⟨some a.id, .finish ha ?_ rfl (Nat.le_refl _) fun c => ?_⟩
    · rintro ⟨b, err, hb, herr⟩
      rw [ha] at hb
      cases hb
      simp [hon] at herr
    · rw [waiting_addTask]
      simp only [Task.clip, hid, Option.some.injEq]
      exact Nat.zero_add _
  | append pcm a a' τs hp ha hon hm hτ =>
    have hid : a'.id = a.id := by rw [← Session.id_onPCM host.tooLarge a pcm, hon]
    refine ⟨none, .keep (by simp) (by simp [Capture.activeID, ha, hid]) rfl (Nat.le_refl _) fun c => ?_⟩
    rcases hτ with rfl | rfl <;> simp [Capture.waiting, handed, List.countP_append, Task.hands, Task.clip]
  | shutdown => exact ⟨none, .drop (by simp) trivial rfl (Nat.le_refl _) fun c => Nat.zero_add _⟩
  | cancel => exact ⟨none, .keep (by simp) rfl rfl (Nat.le_refl _) fun c => Nat.zero_add _⟩
  | allocateClip => exact ⟨none, .keep (by simp) rfl rfl (Nat.le_succ _) fun c => Nat.zero_add _⟩
  | move m c es =>
    exact ⟨none, .keep (by simp) rfl rfl (Nat.le_refl _) fun c => by rw [handed_stream, Nat.zero_add]; rfl⟩
  | discard m c es =>
    exact ⟨none, .drop (by simp) trivial rfl (Nat.le_refl _) fun c => by rw [handed_stream, Nat.zero_add]; rfl⟩
  | task i τ hτ =>
    refine ⟨none, .keep (by simp) rfl rfl (Nat.le_refl _) fun c => ?_⟩
    have := countP_eraseIdx_add (Task.hands c) hτ
    rw [handed_run]
    simp only [Capture.waiting]
    omega

end Lives

end Talk2Text.Daemon
