import Mathlib.Logic.Function.Basic
import Talk2Text.Daemon.Discard
import Talk2Text.Daemon.Duration
import Talk2Text.Daemon.Transcribe

/-!
# Local audio is accounted exactly

`onAudio` appends a chunk to the session that is active when it gets the mutex, by one of several ways of detaching a
session the audio ends, and `transcribe` reads the buffer without a lock.

The sessions of the code are objects that several goroutines point to, while the model hands values around. `objects`
are the objects of a run: an accepted start makes one, and a chunk of audio is written to the one that is active. The
values are the objects at any later time (`ObjectsOk`), and an object holds exactly the non-empty chunks delivered while
it was active (`chunksOf`), with their exact duration, whatever the chunks are (`ContentOk`). `local_audio_exact` is the
account of a run (`AudioExact`).
-/

namespace Talk2Text.Daemon

open Sys

/-! ## Objects -/

/-- The session objects by clip ID. -/
abbrev Objects := Nat → Option Session

/-- What a step does to the objects: an accepted start makes one, and `onAudio` writes to the active one. -/
def Objects.step (host : Host) (H : Objects) (st : CaptureStep) : Objects :=
  match st.label with
  | .start environment =>
    if acceptsStart st then
      Function.update H st.pre.nextClip
        (some (newSession st.pre.nextClip (RequestEnv.originID environment) environment))
    else H
  | .audio pcm =>
    match st.pre.activeID with
    | some c =>
      if pcm = [] then H else Function.update H c ((H c).map fun x => (x.onPCM host.tooLarge pcm).1)
    | none => H
  | _ => H

/-- The objects after a history. -/
def objects (host : Host) (h : History) : Objects := h.foldl (Objects.step host) fun _ => none

/-- The chunk that the step delivers to clip `c`. -/
def chunkOf (c : Nat) (st : CaptureStep) : List (List UInt8) :=
  match st.label with
  | .audio pcm => if st.pre.activeID = some c ∧ pcm ≠ [] then [pcm] else []
  | _ => []

/-- The non-empty chunks that were delivered while clip `c` was active, in order. -/
def chunksOf (c : Nat) (h : History) : List (List UInt8) := h.flatMap (chunkOf c)

/-- What a step does to the object of clip `c`, with the chunk that it delivers to the clip. -/
inductive Touches (host : Host) (H : Objects) (st : CaptureStep) (c : Nat) :
    Option Session → List (List UInt8) → Prop
  | keep : Touches host H st c (H c) []
  | begin (environment : Environment) : st.label = .start environment → acceptsStart st = true →
      c = st.pre.nextClip →
      Touches host H st c (some (newSession c (RequestEnv.originID environment) environment)) []
  | write (pcm : List UInt8) : st.label = .audio pcm → pcm ≠ [] → st.pre.activeID = some c →
      Touches host H st c ((H c).map fun x => (x.onPCM host.tooLarge pcm).1) [pcm]

section Objects

variable {host : Host} {H : Objects} {st : CaptureStep} {h : History}

theorem objects_snoc (host : Host) (h : History) (st : CaptureStep) :
    objects host (h ++ [st]) = (objects host h).step host st := by
  rw [objects, List.foldl_append]
  rfl

theorem chunksOf_snoc (c : Nat) (h : History) (st : CaptureStep) :
    chunksOf c (h ++ [st]) = chunksOf c h ++ chunkOf c st := by
  rw [chunksOf, List.flatMap_append, List.flatMap_singleton]
  rfl

/-- **What a step does to an object.** -/
theorem step_touches (host : Host) (H : Objects) (st : CaptureStep) (c : Nat) :
    Touches host H st c (H.step host st c) (chunkOf c st) := by
  cases hl : st.label with
  | start environment =>
    simp only [Objects.step, chunkOf, hl]
    split
    · rename_i hacc
      by_cases hc : c = st.pre.nextClip
      · subst hc
        rw [Function.update_self]
        exact .begin environment hl hacc rfl
      · rw [Function.update_of_ne hc]
        exact .keep
    · exact .keep
  | audio pcm =>
    simp only [Objects.step, chunkOf, hl]
    by_cases hpcm : pcm = []
    · simp only [hpcm, if_true, ne_eq, not_true, and_false, if_false]
      cases st.pre.activeID <;> exact .keep
    · simp only [hpcm, if_false, ne_eq, not_false_eq_true, and_true]
      cases hact : st.pre.activeID with
      | none => exact .keep
      | some c' =>
        by_cases hc : c' = c
        · subst hc
          rw [if_pos rfl]
          simp only [Function.update_self]
          exact .write pcm hl hpcm hact
        · rw [if_neg fun he => hc (Option.some.inj he)]
          simp only [Function.update_of_ne (Ne.symm hc)]
          exact .keep
  | _ =>
    simp only [Objects.step, chunkOf, hl]
    exact .keep

/-- The object of a clip that is neither active nor to come stays. -/
theorem step_of_gone {c : Nat} (hlt : c < st.pre.nextClip) (hne : st.pre.activeID ≠ some c) :
    H.step host st c = H c := by
  have ht := step_touches host H st c
  generalize H.step host st c = x at ht ⊢
  generalize chunkOf c st = chunks at ht
  cases ht with
  | keep => rfl
  | begin _ _ _ hc => exact absurd hc (Nat.ne_of_lt hlt)
  | write _ _ _ hact => exact absurd hact hne

end Objects

/-! ## Values and objects -/

/-- The session that a task has taken out of the section; a `recordStart` names the active one only. -/
def Task.detached : Task → Option Session
  | .processStoppedSession s | .maxDuration s _ | .pcmError s _ => some s
  | .recordStart _ => none

/-- The value is the object, and the clip is neither active nor to come. -/
structure Settled (H : Objects) (s : Capture) (x : Session) : Prop where
  object : H x.id = some x
  lt : x.id < s.nextClip
  ne : s.activeID ≠ some x.id

/-- The sessions that are active, in tasks and handed to `transcribe` are the objects. -/
structure ObjectsOk (H : Objects) (s : Capture) (es : List Event) : Prop where
  active : ∀ a, s.active = some a → H a.id = some a
  tasks : ∀ τ ∈ s.tasks, ∀ x, τ.detached = some x → Settled H s x
  transcribed : ∀ x, .transcribe x ∈ es → Settled H s x

section ObjectsOk

variable {host : Host} {H : Objects} {s t : Capture} {l : Label} {out es : List Event} {x a a' : Session}
  {pcm : List UInt8} {err : Option String}

/-- The clip of a settled session stays detached. -/
theorem gone_acts {c : Nat} (ha : Acts host s l t out) (hlt : c < s.nextClip) (hne : s.activeID ≠ some c) :
    c < t.nextClip ∧ t.activeID ≠ some c := by
  have hone := activeID_acts ha
  split at hone
  · rw [hone.1, hone.2]
    exact ⟨Nat.lt_succ_of_lt hlt, fun he => Nat.ne_of_gt hlt (Option.some.inj he)⟩
  · obtain ⟨hid | hid, hle⟩ := hone
    · exact ⟨Nat.lt_of_lt_of_le hlt hle, hid ▸ hne⟩
    · exact ⟨Nat.lt_of_lt_of_le hlt hle, by rw [hid]; simp⟩

/-- **What is detached never changes.** -/
theorem Settled.step (h : Settled H s x) (ha : Acts host s l t out) :
    Settled (H.step host ⟨s, l, out, t⟩) t x := by
  obtain ⟨hlt, hne⟩ := gone_acts ha h.lt h.ne
  exact ⟨(step_of_gone h.lt h.ne).trans h.object, hlt, hne⟩

/-- The object that a chunk is written to. -/
theorem step_audio (ha : s.active = some a) (hpcm : pcm ≠ []) (hobj : H a.id = some a)
    (hon : a.onPCM host.tooLarge pcm = (a', err)) : H.step host ⟨s, .audio pcm, out, t⟩ a'.id = some a' := by
  have hid : a'.id = a.id := by rw [← Session.id_onPCM host.tooLarge a pcm, hon]
  simp only [Objects.step, Capture.activeID, ha, Option.map_some, if_neg hpcm, hid, Function.update_self, hobj, hon]

/-- The object that an accepted start makes, and the others. -/
theorem step_start (environment : Environment) (c : Nat) :
    H.step host ⟨s, .start environment, [.reply none], t⟩ c =
      if c = s.nextClip then some (newSession s.nextClip (RequestEnv.originID environment) environment)
      else H c := by
  simp only [Objects.step, acceptsStart, decide_true, if_true, Function.update_apply]

/-- The active session after a step is its object. -/
theorem active_step (ha : Acts host s l t out) (hobj : ∀ a, s.active = some a → H a.id = some a) :
    ∀ b, t.active = some b → H.step host ⟨s, l, out, t⟩ b.id = some b := by
  intro b hb
  cases ha with
  | refuse env err =>
    have hno : acceptsStart ⟨s, .start env, [.reply (some err)], s⟩ = false := rfl
    simp only [Objects.step, hno, Bool.false_eq_true, if_false]
    exact hobj b hb
  | beginSession env | finalize env =>
    cases hb
    rw [step_start]
    exact if_pos rfl
  | ignoreAudio pcm hno =>
    rcases hno with rfl | hno
    · simp only [Objects.step, if_true]
      cases s.activeID <;> exact hobj b hb
    · rw [hno] at hb
      cases hb
  | append pcm a a' τs hpcm hact hon =>
    cases hb
    exact step_audio hact hpcm (hobj a hact) hon
  | pcmError | maxDuration => cases hb
  | stopNow | delayedStop =>
    rw [Capture.active_finish] at hb
    cases hb
  | shutdown | discard => cases hb
  | _ => exact hobj b hb

/-- The active session that a step detaches is settled. -/
theorem settled_of_active (hok : CaptureOk s) (ha : s.active = some a) (hid : a'.id = a.id)
    (hn : s.nextClip ≤ t.nextClip) (hne : t.activeID ≠ some a.id) (hobj : H a'.id = some a') : Settled H t a' := by
  refine ⟨hobj, ?_, hid ▸ hne⟩
  rw [hid]
  exact Nat.lt_of_lt_of_le (hok.active_lt a ha) hn

/-- **A new task** has the session that the step detaches. -/
theorem task_step (hok : CaptureOk s) (ha : Acts host s l t out) (hobj : ∀ a, s.active = some a → H a.id = some a) :
    ∀ τ ∈ t.tasks, τ ∈ s.tasks ∨ ∀ x, τ.detached = some x → Settled (H.step host ⟨s, l, out, t⟩) t x := by
  have hadd : ∀ {τs : List Task} {τ₁ τ : Task} {x : Session}, τ₁.detached = some x →
      Settled (H.step host ⟨s, l, out, t⟩) t x → τ ∈ τs ++ [τ₁] →
      τ ∈ τs ∨ ∀ x, τ.detached = some x → Settled (H.step host ⟨s, l, out, t⟩) t x := by
    intro τs τ₁ τ x hd hx hm
    rcases List.mem_append.mp hm with hm | hm
    · exact Or.inl hm
    · rw [List.mem_singleton.mp hm, hd]
      exact Or.inr fun y hy => Option.some.inj hy ▸ hx
  intro τ hm
  cases ha with
  | finalize env a ho hact hown hid =>
    refine hadd rfl (settled_of_active hok hact rfl (Nat.le_succ _) ?_ ?_) hm
    · exact fun he => Nat.ne_of_gt (hok.active_lt a hact) (Option.some.inj he)
    · rw [step_start, if_neg (Nat.ne_of_lt (hok.active_lt a hact))]
      exact hobj a hact
  | stopNow o early a hact =>
    rw [Capture.tasks_finish] at hm
    exact hadd rfl (settled_of_active hok hact rfl (by simp) (by simp [Capture.activeID]) (hobj a hact)) hm
  | delayedStop i k t' tm a _ _ hact =>
    rw [Capture.tasks_finish] at hm
    exact hadd rfl (settled_of_active hok hact rfl (by simp) (by simp [Capture.activeID]) (hobj a hact)) hm
  | pcmError pcm a a' err hpcm hact hon | maxDuration pcm a a' wasEmpty hpcm hact hon =>
    have hid : a'.id = a.id := by rw [← Session.id_onPCM host.tooLarge a pcm, hon]
    refine hadd rfl (settled_of_active hok hact hid (Nat.le_refl _) ?_ ?_) hm
    · simp [Capture.activeID, Capture.addTask, Capture.endRecording]
    · exact step_audio hact hpcm (hobj a hact) hon
  | append pcm a a' τs _ _ _ _ hτs =>
    rcases List.mem_append.mp hm with hm | hm
    · exact Or.inl hm
    · rcases hτs with rfl | rfl
      · cases hm
      · rw [List.mem_singleton.mp hm]
        refine Or.inr fun x hx => ?_
        cases hx
  | task i τ' => exact Or.inl (List.mem_of_mem_eraseIdx hm)
  | _ => exact Or.inl hm

/-- What a step hands to `transcribe` was in a task. -/
theorem transcribe_step (ha : Acts host s l t out) (hm : .transcribe x ∈ out) :
    ∃ τ ∈ s.tasks, τ.detached = some x := by
  cases ha with
  | task i τ hτ =>
    refine ⟨τ, List.mem_of_getElem? hτ, ?_⟩
    cases τ with
    | processStoppedSession a =>
      simp only [Task.run, List.mem_append, List.mem_singleton, Event.transcribe.injEq] at hm
      rcases hm with hm | rfl
      · split at hm <;> simp at hm
      · rfl
    | recordStart a => simp [Task.run] at hm
    | maxDuration a w =>
      simp only [Task.run, List.mem_append, List.mem_cons, List.not_mem_nil, or_false, reduceCtorEq, false_or,
        Event.transcribe.injEq] at hm
      rcases hm with hm | rfl
      · split at hm <;> simp at hm
      · rfl
    | pcmError a err => simp [Task.run] at hm
  | _ => simp at hm

/-- **One step** keeps values and objects the same. -/
theorem ObjectsOk.step (h : ObjectsOk H s es) (hok : CaptureOk s) (ha : Acts host s l t out) :
    ObjectsOk (H.step host ⟨s, l, out, t⟩) t (es ++ out) := by
  refine ⟨active_step ha h.active, fun τ hm x hx => ?_, fun x hm => ?_⟩
  · rcases task_step hok ha h.active τ hm with hm | hnew
    · exact (h.tasks τ hm x hx).step ha
    · exact hnew x hx
  · rcases List.mem_append.mp hm with hm | hm
    · exact (h.transcribed x hm).step ha
    · obtain ⟨τ, hτ, hx⟩ := transcribe_step ha hm
      exact (h.tasks τ hτ x hx).step ha

theorem objectsOk_of_run {h : History} (r : Run (captureSystem host) h s) :
    ObjectsOk (objects host h) s (outputs h) := by
  refine r.induction (P := fun h s => ObjectsOk (objects host h) s (outputs h)) ?_ fun h s l t out hr hh hst => ?_
  · rintro s ⟨early, rfl⟩
    exact ⟨nofun, nofun, nofun⟩
  · rw [objects_snoc, outputs_snoc]
    exact hh.step (captureOk_of_reachable hr) (captureStep_acts hst)

end ObjectsOk

/-! ## The content of an object -/

/-- The audio is within the limits of int64 durations, chunk by chunk and in total, and of `bytes.Buffer`. -/
structure WithinLimits (host : Host) (chunks : List (List UInt8)) : Prop where
  fits : ∀ pcm ∈ chunks, Fits pcm
  total : exactDuration chunks.flatten < 2 ^ 63
  buffer : ∀ k ≤ chunks.flatten.length, host.tooLarge k = false

def EvenChunks (chunks : List (List UInt8)) : Prop := ∀ pcm ∈ chunks, pcm.length % 2 = 0

/-- The session holds these chunks and nothing else, with their duration. -/
structure Holds (x : Session) (chunks : List (List UInt8)) : Prop where
  buffer : x.buffer = chunks.flatten
  duration : x.duration = exactDuration chunks.flatten

section Content

variable {host : Host} {chunks chunks' : List (List UInt8)} {pcm : List UInt8} {x : Session}

theorem EvenChunks.left (h : EvenChunks (chunks ++ chunks')) : EvenChunks chunks :=
  fun pcm hm => h pcm (List.mem_append_left _ hm)

theorem EvenChunks.flatten (h : EvenChunks chunks) : chunks.flatten.length % 2 = 0 := by
  induction chunks with
  | nil => rfl
  | cons c chunks ih =>
    have hc := h c List.mem_cons_self
    have := ih fun pcm hm => h pcm (List.mem_cons_of_mem c hm)
    rw [List.flatten_cons, List.length_append]
    omega

theorem WithinLimits.left (h : WithinLimits host (chunks ++ chunks')) : WithinLimits host chunks := by
  have hle : chunks.flatten.length ≤ (chunks ++ chunks').flatten.length := by simp
  refine ⟨fun pcm hm => h.fits pcm (List.mem_append_left _ hm), ?_, fun k hk => h.buffer k (Nat.le_trans hk hle)⟩
  exact Int.lt_of_le_of_lt (exactDuration_mono hle) h.total

/-- **A chunk within the limits** is appended. -/
theorem Holds.write (hx : Holds x chunks) (hlim : WithinLimits host (chunks ++ [pcm]))
    (heven : EvenChunks (chunks ++ [pcm])) :
    (x.onPCM host.tooLarge pcm).2 = none ∧ Holds (x.onPCM host.tooLarge pcm).1 (chunks ++ [pcm]) := by
  have hpcm : pcm ∈ chunks ++ [pcm] := List.mem_append_right _ (List.mem_singleton_self _)
  have hflat : (chunks ++ [pcm]).flatten = chunks.flatten ++ pcm := by simp
  have htotal := hlim.total
  have hbuffer := hlim.buffer
  rw [hflat, exactDuration_append heven.left.flatten, ← hx.duration] at htotal
  rw [hflat, List.length_append, ← hx.buffer] at hbuffer
  have hon : x.onPCM host.tooLarge pcm = _ := Session.onPCM_ok (heven pcm hpcm) (hlim.fits pcm hpcm)
    (hbuffer _ (Nat.le_refl _)) (by rw [hx.duration]; exact exactDuration_nonneg _) htotal
  rw [hon]
  refine ⟨rfl, ?_, ?_⟩
  · rw [hflat, ← hx.buffer]
  · rw [hflat, exactDuration_append heven.left.flatten, ← hx.duration]

/-- Every object holds the chunks that were delivered to it. -/
structure ContentOk (host : Host) (h : History) (s : Capture) : Prop where
  fresh : ∀ c, s.nextClip ≤ c → chunksOf c h = []
  holds : ∀ c x, objects host h c = some x → WithinLimits host (chunksOf c h) → EvenChunks (chunksOf c h) →
    Holds x (chunksOf c h)

/-- **One step** keeps the account. -/
theorem ContentOk.step {h : History} {s t : Capture} {l : Label} {out : List Event} (hc : ContentOk host h s)
    (hok : CaptureOk s) (ha : Acts host s l t out) : ContentOk host (h ++ [⟨s, l, out, t⟩]) t := by
  have hle : s.nextClip ≤ t.nextClip := by
    have hone := activeID_acts ha
    split at hone
    · rw [hone.2]
      exact Nat.le_succ _
    · exact hone.2
  constructor
  · intro c hlt
    rw [chunksOf_snoc, hc.fresh c (Nat.le_trans hle hlt), List.nil_append]
    have ht := step_touches host (objects host h) ⟨s, l, out, t⟩ c
    generalize chunkOf c ⟨s, l, out, t⟩ = chunks at ht ⊢
    generalize (objects host h).step host ⟨s, l, out, t⟩ c = o at ht
    cases ht with
    | keep | begin => rfl
    | write pcm hl hpcm hact =>
      obtain ⟨a, hs, rfl⟩ := Option.map_eq_some_iff.mp hact
      exact absurd (hok.active_lt a hs) (Nat.not_lt.mpr (Nat.le_trans hle hlt))
  · intro c x hx hlim heven
    rw [objects_snoc] at hx
    rw [chunksOf_snoc] at hlim heven ⊢
    have ht := step_touches host (objects host h) ⟨s, l, out, t⟩ c
    rw [hx] at ht
    generalize chunkOf c ⟨s, l, out, t⟩ = chunks at ht hlim heven ⊢
    generalize ho : some x = o at ht
    cases ht with
    | keep =>
      rw [List.append_nil] at hlim heven ⊢
      exact hc.holds c x ho.symm hlim heven
    | begin environment hl hacc hn =>
      -- no chunk was delivered before the session began
      rw [hc.fresh c (Nat.le_of_eq hn.symm)]
      cases ho
      exact ⟨rfl, rfl⟩
    | write pcm hl hpcm hact =>
      obtain ⟨x₀, hx₀, rfl⟩ := Option.map_eq_some_iff.mp ho.symm
      exact ((hc.holds c x₀ hx₀ hlim.left heven.left).write hlim heven).2

theorem contentOk_of_run {h : History} {s : Capture} (r : Run (captureSystem host) h s) : ContentOk host h s := by
  refine r.induction (P := ContentOk host) ?_ fun h s l t out hr hh hst =>
    hh.step (captureOk_of_reachable hr) (captureStep_acts hst)
  exact fun s _ => ⟨fun _ _ => rfl, nofun⟩

end Content

/-! ## The account of a run -/

section Account

variable {host : Host} {s t : Capture} {l : Label} {out : List Event} {h h₁ h₂ : History} {st : CaptureStep} {c : Nat}
  {pcm : List UInt8}

/-- **One step** keeps the active session below the maximum duration. -/
theorem below_acts (hpos : 0 < host.cfg.maxDuration) (hs : ∀ a, s.active = some a → a.duration < host.cfg.maxDuration)
    (ha : Acts host s l t out) : ∀ a, t.active = some a → a.duration < host.cfg.maxDuration := by
  intro b hb
  cases ha with
  | beginSession | finalize =>
    cases hb
    exact hpos
  | append pcm a a' τs _ _ _ hlt =>
    cases hb
    exact Int.not_le.mp fun hle => hlt ⟨hpos, hle⟩
  | stopNow | delayedStop =>
    rw [Capture.active_finish] at hb
    cases hb
  | pcmError | maxDuration | shutdown | discard => cases hb
  | _ => exact hs b hb

theorem below_of_reachable (hpos : 0 < host.cfg.maxDuration) (hs : Reachable (captureSystem host) s) :
    ∀ a, s.active = some a → a.duration < host.cfg.maxDuration := by
  refine hs.induction (P := fun s => ∀ a, s.active = some a → a.duration < host.cfg.maxDuration) ?_
    fun s l t out _ ih hst => below_acts hpos ih (captureStep_acts hst)
  rintro s ⟨early, rfl⟩ a ha
  cases ha

/-- What a run says about the audio of its clips. -/
structure AudioExact (host : Host) (h : History) (s : Capture) : Prop where
  /-- The values that goroutines hold are the objects. -/
  objects_ok : ObjectsOk (objects host h) s (outputs h)
  /-- A session within the limits without an odd chunk holds the chunks delivered to it, with their duration. -/
  content : ∀ c x, objects host h c = some x → WithinLimits host (chunksOf c h) → EvenChunks (chunksOf c h) →
    x.buffer = (chunksOf c h).flatten ∧ x.duration = (x.buffer.length / 2 : Nat) * 62500
  below : 0 < host.cfg.maxDuration → ∀ a, s.active = some a → a.duration < host.cfg.maxDuration
  /-- The chunk that reaches the maximum duration detaches the session. -/
  reached : 0 < host.cfg.maxDuration → ∀ h₁ st h₂ pcm c, h = h₁ ++ st :: h₂ → st.label = .audio pcm →
    st.pre.activeID = some c → WithinLimits host (chunksOf c (h₁ ++ [st])) → EvenChunks (chunksOf c (h₁ ++ [st])) →
    host.cfg.maxDuration ≤ exactDuration (chunksOf c (h₁ ++ [st])).flatten →
    st.post.active = none ∧ ∃ x w, x.id = c ∧ st.post.tasks = st.pre.tasks ++ [.maxDuration x w]
  /-- An odd chunk detaches and empties the session that it hits, and no other. -/
  odd : ∀ h₁ st h₂ pcm c, h = h₁ ++ st :: h₂ → st.label = .audio pcm → pcm.length % 2 ≠ 0 →
    st.pre.activeID = some c → st.post.active = none ∧
      (∃ x, objects host (h₁ ++ [st]) c = some x ∧ x.buffer = [] ∧ x.duration = 0) ∧
      ∀ c', c' ≠ c → objects host (h₁ ++ [st]) c' = objects host h₁ c'
  /-- A detached session never changes. -/
  detached : ∀ h₁ st h₂ c, h = h₁ ++ st :: h₂ → Detaches c st.pre st.post →
    objects host h c = objects host (h₁ ++ [st]) c
  /-- A clip that the maximum duration ends is never short. -/
  not_short : ∀ st ∈ h, ∀ x w, st.post.tasks = st.pre.tasks ++ [.maxDuration x w] →
    objects host h x.id = some x ∧ isShortSession host.cfg x = false

/-- A clip that a step leaves neither active nor to come stays so, and its object stays. -/
theorem gone_since (r : Run (captureSystem host) h s) : ∀ h₁ st h₂, h = h₁ ++ st :: h₂ → ∀ c,
    c < st.post.nextClip → st.post.activeID ≠ some c → objects host h c = objects host (h₁ ++ [st]) c := by
  have hsince : ∀ h₁ st h₂, h = h₁ ++ st :: h₂ → ∀ c, c < st.post.nextClip → st.post.activeID ≠ some c →
      (c < s.nextClip ∧ s.activeID ≠ some c) ∧ ∀ H, h₂.foldl (Objects.step host) H c = H c := by
    refine r.since (Q := fun st h₂ s => ∀ c, c < st.post.nextClip → st.post.activeID ≠ some c →
      (c < s.nextClip ∧ s.activeID ≠ some c) ∧ ∀ H, h₂.foldl (Objects.step host) H c = H c) ?_ ?_
    · exact fun _ _ _ _ _ _ c hlt hne => ⟨⟨hlt, hne⟩, fun _ => rfl⟩
    · intro st h s l t out _ ih hst c hlt hne
      obtain ⟨⟨hlt', hne'⟩, hsame⟩ := ih c hlt hne
      refine ⟨gone_acts (captureStep_acts hst) hlt' hne', fun H => ?_⟩
      rw [List.foldl_append, List.foldl_cons, List.foldl_nil, step_of_gone hlt' hne', hsame]
  intro h₁ st h₂ he c hlt hne
  have hobj := (hsince h₁ st h₂ he c hlt hne).2 (objects host (h₁ ++ [st]))
  rw [he, ← hobj, objects, objects, ← List.foldl_append, List.append_assoc]
  rfl

theorem detached_of_run (r : Run (captureSystem host) h s) (he : h = h₁ ++ st :: h₂)
    (hd : Detaches c st.pre st.post) : objects host h c = objects host (h₁ ++ [st]) c := by
  subst he
  obtain ⟨hr, hst⟩ := r.mem_step (List.mem_append_right _ List.mem_cons_self)
  refine gone_since r h₁ st h₂ rfl c ?_ hd.2
  obtain ⟨a, ha, rfl⟩ := Option.map_eq_some_iff.mp hd.1
  have hlt := (captureOk_of_reachable hr).active_lt a ha
  have hone := activeID_acts (captureStep_acts hst)
  split at hone
  · rw [hone.2]
    exact Nat.lt_succ_of_lt hlt
  · exact Nat.lt_of_lt_of_le hlt hone.2

/-- The active session and what was delivered to it. -/
theorem active_holds (r : Run (captureSystem host) h s) {a : Session} (ha : s.active = some a)
    (hlim : WithinLimits host (chunksOf a.id h)) (heven : EvenChunks (chunksOf a.id h)) :
    Holds a (chunksOf a.id h) :=
  (contentOk_of_run r).holds a.id a ((objectsOk_of_run r).active a ha) hlim heven

/-- **The chunk that reaches the maximum duration** detaches the session and hands it over. -/
theorem reached_of_run (r : Run (captureSystem host) (h₁ ++ st :: h₂) s) (hpos : 0 < host.cfg.maxDuration)
    (hl : st.label = .audio pcm) (hact : st.pre.activeID = some c)
    (hlim : WithinLimits host (chunksOf c (h₁ ++ [st]))) (heven : EvenChunks (chunksOf c (h₁ ++ [st])))
    (hmax : host.cfg.maxDuration ≤ exactDuration (chunksOf c (h₁ ++ [st])).flatten) :
    st.post.active = none ∧ ∃ x w, x.id = c ∧ st.post.tasks = st.pre.tasks ++ [.maxDuration x w] := by
  obtain ⟨hr, hst⟩ := r.mem_step (List.mem_append_right _ List.mem_cons_self)
  have r₁ := r.before
  obtain ⟨s, l, out, t⟩ := st
  subst hl
  obtain ⟨a, ha, rfl⟩ := Option.map_eq_some_iff.mp hact
  have hbelow := below_of_reachable hpos hr a ha
  rw [chunksOf_snoc] at hlim heven hmax
  have hholds := active_holds r₁ ha hlim.left heven.left
  have hchunk : pcm ≠ [] → chunkOf a.id ⟨s, .audio pcm, out, t⟩ = [pcm] := fun hpcm => if_pos ⟨hact, hpcm⟩
  have hacts : Acts host s (.audio pcm) t out := captureStep_acts hst
  cases hacts with
  | ignoreAudio _ hno =>
    rcases hno with rfl | hno
    · have hnil : chunkOf a.id ⟨s, .audio [], [], s⟩ = [] := if_neg fun he => he.2 rfl
      rw [hnil, List.append_nil, ← hholds.duration] at hmax
      exact absurd hbelow (Int.not_lt.mpr hmax)
    · rw [hno] at ha
      cases ha
  | pcmError _ b b' err hpcm hb hon =>
    rw [ha] at hb
    cases hb
    rw [hchunk hpcm] at hlim heven
    have := (hholds.write hlim heven).1
    rw [hon] at this
    cases this
  | maxDuration _ b b' wasEmpty hpcm hb hon =>
    rw [ha] at hb
    cases hb
    refine ⟨rfl, b', wasEmpty, ?_, rfl⟩
    rw [← Session.id_onPCM host.tooLarge a pcm, hon]
  | append _ b b' τs hpcm hb hon hlt =>
    rw [ha] at hb
    cases hb
    rw [hchunk hpcm] at hlim heven hmax
    have hdur := (hholds.write hlim heven).2.duration
    rw [hon] at hdur
    rw [← hdur] at hmax
    exact absurd ⟨hpos, hmax⟩ hlt

/-- **An odd chunk** detaches and empties the session that it hits. -/
theorem odd_of_run (r : Run (captureSystem host) (h₁ ++ st :: h₂) s) (hl : st.label = .audio pcm)
    (hodd : pcm.length % 2 ≠ 0) (hact : st.pre.activeID = some c) :
    st.post.active = none ∧ (∃ x, objects host (h₁ ++ [st]) c = some x ∧ x.buffer = [] ∧ x.duration = 0) ∧
      ∀ c', c' ≠ c → objects host (h₁ ++ [st]) c' = objects host h₁ c' := by
  obtain ⟨hr, hst⟩ := r.mem_step (List.mem_append_right _ List.mem_cons_self)
  have hobj := (objectsOk_of_run r.before).active
  obtain ⟨s, l, out, t⟩ := st
  subst hl
  obtain ⟨a, ha, rfl⟩ := Option.map_eq_some_iff.mp hact
  have hne : pcm ≠ [] := fun he => hodd (by rw [he]; rfl)
  have hon := @Session.onPCM_odd host.tooLarge a pcm hodd
  refine ⟨?_, ⟨a.clear, ?_, rfl, rfl⟩, fun c' hc => ?_⟩
  · have hacts : Acts host s (.audio pcm) t out := captureStep_acts hst
    cases hacts with
    | ignoreAudio _ hno =>
      rcases hno with rfl | hno
      · exact absurd rfl hne
      · exact hno
    | pcmError => rfl
    | maxDuration => rfl
    | append _ b b' τs _ hb hon' =>
      rw [ha] at hb
      cases hb
      rw [hon] at hon'
      cases hon'
  · rw [objects_snoc]
    have hclear (out : _) (t : _) : (objects host h₁).step host ⟨s, .audio pcm, out, t⟩ a.clear.id = some a.clear :=
      step_audio ha hne (hobj a ha) hon
    exact hclear _ _
  · rw [objects_snoc]
    have ht := step_touches host (objects host h₁) ⟨s, .audio pcm, out, t⟩ c'
    generalize (objects host h₁).step host ⟨s, .audio pcm, out, t⟩ c' = o at ht ⊢
    generalize chunkOf c' ⟨s, .audio pcm, out, t⟩ = chunks at ht
    cases ht with
    | keep => rfl
    | begin _ hl => cases hl
    | write _ _ _ hact' => exact absurd (Option.some.inj (hact'.symm.trans hact)) hc

/-- A task for a clip that the maximum duration ends is only made when the clip has reached it. -/
theorem maxDuration_acts {x : Session} {w : Bool} (ha : Acts host s l t out) (hm : .maxDuration x w ∈ t.tasks) :
    .maxDuration x w ∈ s.tasks ∨ (0 < host.cfg.maxDuration ∧ host.cfg.maxDuration ≤ x.duration) := by
  cases ha with
  | finalize env a => exact Or.inl (by simpa [Capture.addTask, Capture.beginSession] using hm)
  | stopNow o early a => exact Or.inl (by simpa using hm)
  | delayedStop i k t' tm a => exact Or.inl (by simpa using hm)
  | pcmError pcm a a' err => exact Or.inl (by simpa [Capture.addTask, Capture.endRecording] using hm)
  | maxDuration pcm a a' wasEmpty _ _ _ hpos hle =>
    rcases List.mem_append.mp hm with hm | hm
    · exact Or.inl hm
    · cases List.mem_singleton.mp hm
      exact Or.inr ⟨hpos, hle⟩
  | append pcm a a' τs _ _ _ _ hτs =>
    rcases List.mem_append.mp hm with hm | hm
    · exact Or.inl hm
    · rcases hτs with rfl | rfl <;> simp at hm
  | task i τ => exact Or.inl (List.mem_of_mem_eraseIdx hm)
  | _ => exact Or.inl hm

theorem maxDuration_of_reachable (hs : Reachable (captureSystem host) s) :
    ∀ x w, .maxDuration x w ∈ s.tasks → 0 < host.cfg.maxDuration ∧ host.cfg.maxDuration ≤ x.duration := by
  refine hs.induction (P := fun s => ∀ x w, .maxDuration x w ∈ s.tasks →
    0 < host.cfg.maxDuration ∧ host.cfg.maxDuration ≤ x.duration) ?_ fun s l t out _ ih hst x w hm =>
      (maxDuration_acts (captureStep_acts hst) hm).elim (ih x w) id
  rintro s ⟨early, rfl⟩ x w hm
  cases hm

/-- A clip that reaches the maximum duration of a valid configuration is not short. -/
theorem not_short_of_max {x : Session} (hcfg : validateConfig host.cfg = none) (hpos : 0 < host.cfg.maxDuration)
    (hle : host.cfg.maxDuration ≤ x.duration) : isShortSession host.cfg x = false := by
  obtain ⟨-, -, hlt⟩ := durations_of_validateConfig hcfg
  have := hlt hpos
  simp only [isShortSession, Bool.or_eq_false_iff, Bool.and_eq_false_iff, decide_eq_false_iff_not]
  omega

end Account

/-- **Local audio is accounted exactly**, in every run under a valid configuration. -/
theorem local_audio_exact {host : Host} (hcfg : validateConfig host.cfg = none) {h : History} {s : Capture}
    (r : Run (captureSystem host) h s) : AudioExact host h s where
  objects_ok := objectsOk_of_run r
  content := by
    intro c x hx hlim heven
    obtain ⟨hbuffer, hduration⟩ := (contentOk_of_run r).holds c x hx hlim heven
    refine ⟨hbuffer, ?_⟩
    rw [hduration, hbuffer]
    rfl
  below := fun hpos => below_of_reachable hpos r.reachable
  reached := by
    intro hpos h₁ st h₂ pcm c he hl hact hlim heven hmax
    subst he
    exact reached_of_run r hpos hl hact hlim heven hmax
  odd := by
    intro h₁ st h₂ pcm c he hl hodd hact
    subst he
    exact odd_of_run r hl hodd hact
  detached := fun h₁ st h₂ c he hd => detached_of_run r he hd
  not_short := by
    intro st hm x w htasks
    obtain ⟨h₁, h₂, he⟩ := List.append_of_mem hm
    obtain ⟨hr, hst⟩ := r.mem_step hm
    have hτ : .maxDuration x w ∈ st.post.tasks := by
      rw [htasks]
      exact List.mem_append_right _ (List.mem_singleton_self _)
    have hpost := hr.step hst
    obtain ⟨hpos, hle⟩ := maxDuration_of_reachable hpost x w hτ
    refine ⟨?_, not_short_of_max hcfg hpos hle⟩
    have r₁ : Run (captureSystem host) (h₁ ++ [st]) st.post := by
      rw [he] at r
      exact r.before.snoc hst
    have hset := (objectsOk_of_run r₁).tasks _ hτ x rfl
    rw [gone_since r h₁ st h₂ he x.id hset.lt hset.ne]
    exact hset.object

/-- Two chunks reach a maximum duration of 10 ms: the clip is handed over with its 10 ms of audio. -/
theorem local_audio_exact_max : ∃ h s,
    Run (captureSystem ⟨{ whisperEndpoint := "http://127.0.0.1:8080", maxDuration := 10000000 }, fun _ => false⟩) h s ∧
    AudioExact ⟨{ whisperEndpoint := "http://127.0.0.1:8080", maxDuration := 10000000 }, fun _ => false⟩ h s ∧
    (chunksOf 1 h).map List.length = [120, 200] ∧ s.active = none ∧
    ∃ x, .transcribe x ∈ outputs h ∧ x.duration = 10000000 := by
  obtain ⟨h, s, r, hq⟩ := Run.exists_of_exec
    (M := captureSystem ⟨{ whisperEndpoint := "http://127.0.0.1:8080", maxDuration := 10000000 }, fun _ => false⟩)
    ⟨false, rfl⟩
    [.start [(RequestEnv.xdgSessionIDName, "3")], .audio (List.replicate 120 0), .audio (List.replicate 200 1), .task 0,
      .task 0]
    (fun h s => (chunksOf 1 h).map List.length = [120, 200] ∧ s.active = none ∧
      .transcribe ⟨1, List.replicate 120 0 ++ List.replicate 200 1, 10000000, "3", ["XDG_SESSION_ID=3"]⟩ ∈ outputs h)
    (by decide +kernel)
  obtain ⟨hchunks, hact, hm⟩ := of_decide_eq_true hq
  exact ⟨h, s, r, local_audio_exact (by decide +kernel) r, hchunks, hact, _, hm, rfl⟩

end Talk2Text.Daemon
