import Talk2Text.Daemon.Handoff

/-!
# The clip that a capture failure discards

When `newAudio` or `stream.Start` fails for a recording, the manager discards the active session. It looks whether the
desired state is still recording, but not whether the recording is still the one for which the call began: a start that
is accepted while the call is running has its clip discarded.

`lastCall` is the call that the manager makes, with the steps since it began. `discards_own_clip_iff`: the discarded
clip is the one that was active when the call began exactly when no start has been accepted since;
`replacement_discarded`: a start that replaces the recording while the device is being opened.
-/

namespace Talk2Text.Daemon

open Sys

abbrev CaptureStep := Step Capture Label Event

/-- The manager begins `newAudio` or `stream.Start` for a recording. -/
def beginsCall (st : CaptureStep) : Bool :=
  match st.label with
  | .manager _ => st.post.ctl.pc = .opening .recording || st.post.ctl.pc = .calling .recording
  | _ => false

/-- The step in which the last such call began, and the steps since. -/
def lastCall (h : History) : Option (CaptureStep × History) :=
  h.foldl (fun call st => if beginsCall st then some (st, []) else call.map fun (b, since) => (b, since ++ [st])) none

/-- A start is accepted. -/
def acceptsStart (st : CaptureStep) : Bool :=
  match st.label with
  | .start _ => st.out = [.reply none]
  | _ => false

/-- The manager discards clip `c`. -/
def Discards (c : Nat) (st : CaptureStep) : Prop := (∃ m, st.label = .manager m) ∧ Detaches c st.pre st.post

section Calls

variable {host : Host} {h : History} {s t : Capture} {l : Label} {out : List Event}

theorem lastCall_snoc (h : History) (st : CaptureStep) : lastCall (h ++ [st]) =
    if beginsCall st then some (st, []) else (lastCall h).map fun (b, since) => (b, since ++ [st]) := by
  rw [lastCall, List.foldl_append]
  rfl

/-- The manager stands in a call for a recording, or before the section that handles its failure. -/
def ManagerPc.inCall : ManagerPc → Bool
  | .opening .recording | .openFailed .recording | .calling .recording | .callFailed .recording => true
  | _ => false

/-- The manager gets into a call by beginning it. -/
theorem inCall_moves {cancelled : Bool} {active : Option Session} {c c' : Control} {m : Move} {es : List StreamEvent}
    {b : Bool} (hm : Moves cancelled active c m c' es b) (ht : c'.pc.inCall = true) :
    c.pc.inCall = true ∨ c'.pc = .opening .recording ∨ c'.pc = .calling .recording := by
  cases hm with
  | openNew d => cases d with
    | warm => cases ht
    | recording => exact Or.inr (Or.inl rfl)
  | call d => cases d with
    | warm => cases ht
    | recording => exact Or.inr (Or.inr rfl)
  | openErr d hpc | callErr d hpc => cases d with
    | warm => cases ht
    | recording => exact Or.inl (by rw [hpc]; rfl)
  | keepOpen d | openOk d => cases d <;> cases ht
  | giveUpWarm op | giveUpRecording op => cases op <;> cases ht
  | closed k => cases k <;> cases ht
  | _ => cases ht

/-- The manager discards the active session when a call for a recording has failed. -/
theorem inCall_of_discard {cancelled : Bool} {active : Option Session} {c c' : Control} {m : Move}
    {es : List StreamEvent} (hm : Moves cancelled active c m c' es true) : c.pc.inCall = true := by
  cases hm with
  | giveUpRecording op hpc => cases op <;> rw [hpc] <;> rfl

theorem inCall_acts (h : Acts host s l t out) (hb : beginsCall ⟨s, l, out, t⟩ = false) (ht : t.ctl.pc.inCall = true) :
    s.ctl.pc.inCall = true := by
  by_cases hl : ∃ m, l = .manager m
  · obtain ⟨m, rfl⟩ := hl
    have hmoves : ∃ es b, Moves s.cancelled s.active s.ctl m t.ctl es b := by
      cases h with
      | move m c es hm => exact ⟨es, false, hm⟩
      | discard m c es hm => exact ⟨es, true, hm⟩
    obtain ⟨es, b, hm⟩ := hmoves
    refine (inCall_moves hm ht).resolve_right fun hpc => ?_
    simp only [beginsCall, Bool.or_eq_false_iff, decide_eq_false_iff_not] at hb
    exact hpc.elim hb.1 hb.2
  · obtain ⟨hd, -, -⟩ := desires_acts (fun m e => hl ⟨m, e⟩) h
    rw [← hd.pc]
    exact ht

/-- **A call has begun** in the history of every state in which the manager stands in one. -/
theorem lastCall_of_run (r : Run (captureSystem host) h s) (hin : s.ctl.pc.inCall = true) :
    ∃ b since, lastCall h = some (b, since) := by
  refine Run.induction (P := fun h s => s.ctl.pc.inCall = true → ∃ b since, lastCall h = some (b, since))
    ?_ ?_ r hin
  · rintro s ⟨early, rfl⟩ hin
    cases hin
  · intro h s l t out _ ih hst hin
    rw [lastCall_snoc]
    cases hb : beginsCall ⟨s, l, out, t⟩ with
    | true => exact ⟨_, _, rfl⟩
    | false =>
      obtain ⟨b, since, hcall⟩ := ih (inCall_acts (captureStep_acts hst) hb hin)
      rw [hcall]
      exact ⟨_, _, rfl⟩

/-- **The active clip** is replaced by accepted starts only. -/
theorem activeID_acts (h : Acts host s l t out) :
    if acceptsStart ⟨s, l, out, t⟩ then t.activeID = some s.nextClip ∧ t.nextClip = s.nextClip + 1
    else (t.activeID = s.activeID ∨ t.activeID = none) ∧ s.nextClip ≤ t.nextClip := by
  cases h with
  | beginSession | finalize => exact ⟨rfl, rfl⟩
  | refuse | ignoreStop | repeatStop | schedule | stopTimerExpires | staleStop | warmTimerExpires | warmBusy | warmOff |
    ignoreAudio | cancel | move | task => exact ⟨Or.inl rfl, Nat.le_refl _⟩
  | allocateClip => exact ⟨Or.inl rfl, Nat.le_succ _⟩
  | pcmError | maxDuration | shutdown | discard => exact ⟨Or.inr rfl, Nat.le_refl _⟩
  | stopNow o early a => exact ⟨Or.inr (by simp [Capture.activeID]), by simp⟩
  | delayedStop i k t' tm a => exact ⟨Or.inr (by simp [Capture.activeID]), by simp⟩
  | append pcm a a' τs _ ha hon =>
    have hid : a'.id = a.id := by rw [← Session.id_onPCM host.tooLarge a pcm, hon]
    exact ⟨Or.inl (by simp [Capture.activeID, ha, hid]), Nat.le_refl _⟩

/-- What is active some steps after `b`: the clip that was active before, unless a start has been accepted. -/
structure ActiveSince (b : CaptureStep) (since : History) (s : Capture) : Prop where
  kept : since.any acceptsStart = false → s.activeID = b.post.activeID ∨ s.activeID = none
  replaced : since.any acceptsStart = true → ∀ c, s.activeID = some c → b.post.nextClip ≤ c
  nextClip_le : b.post.nextClip ≤ s.nextClip

theorem ActiveSince.snoc {b : CaptureStep} {since : History} (h : ActiveSince b since s) (ha : Acts host s l t out) :
    ActiveSince b (since ++ [⟨s, l, out, t⟩]) t := by
  have hone := activeID_acts ha
  have hany : ∀ st : CaptureStep, (since ++ [st]).any acceptsStart = (since.any acceptsStart || acceptsStart st) :=
    fun st => by rw [List.any_append, List.any_cons, List.any_nil, Bool.or_false]
  replace hany := hany ⟨s, l, out, t⟩
  cases hacc : acceptsStart ⟨s, l, out, t⟩ with
  | true =>
    rw [hacc] at hany hone
    rw [Bool.or_true] at hany
    refine ⟨fun hf => ?_, fun _ c hc => ?_, ?_⟩
    · rw [hany] at hf
      cases hf
    · rw [hone.1] at hc
      cases hc
      exact h.nextClip_le
    · rw [hone.2]
      exact Nat.le_succ_of_le h.nextClip_le
  | false =>
    rw [hacc] at hany hone
    rw [Bool.or_false] at hany
    obtain ⟨hid, hle⟩ := hone
    refine ⟨fun hf => ?_, fun ht c hc => ?_, Nat.le_trans h.nextClip_le hle⟩
    · rcases hid with hid | hid
      · rw [hid]
        exact h.kept (hany ▸ hf)
      · exact Or.inr hid
    · rcases hid with hid | hid
      · exact h.replaced (hany ▸ ht) c (hid ▸ hc)
      · rw [hid] at hc
        cases hc

/-- **Since the last call began.** -/
theorem activeSince_of_run (r : Run (captureSystem host) h s) :
    ∀ b since, lastCall h = some (b, since) → ActiveSince b since s ∧ beginsCall b = true ∧ b ∈ h := by
  refine Run.induction (P := fun h s => ∀ b since, lastCall h = some (b, since) →
    ActiveSince b since s ∧ beginsCall b = true ∧ b ∈ h) ?_ ?_ r
  · rintro s - b since hcall
    cases hcall
  · intro h s l t out _ ih hst b since hcall
    rw [lastCall_snoc] at hcall
    cases hb : beginsCall ⟨s, l, out, t⟩ with
    | true =>
      rw [hb] at hcall
      cases hcall
      refine ⟨⟨fun _ => Or.inl rfl, nofun, Nat.le_refl _⟩, hb, ?_⟩
      exact List.mem_append_right _ (List.mem_singleton_self _)
    | false =>
      rw [hb] at hcall
      obtain ⟨⟨b', since'⟩, hcall', he⟩ := Option.map_eq_some_iff.mp hcall
      cases he
      obtain ⟨hsince, hbegins, hm⟩ := ih b since' hcall'
      exact ⟨hsince.snoc (captureStep_acts hst), hbegins, List.mem_append_left _ hm⟩

/-- Beginning a call leaves the active session. -/
theorem active_of_beginsCall (hb : beginsCall ⟨s, l, out, t⟩ = true) (h : Acts host s l t out) :
    t.active = s.active := by
  cases h with
  | move => rfl
  | discard m c es hm =>
    -- the section after a failure begins no call
    cases hm with
    | giveUpRecording op => cases op <;> cases hb
  | _ => cases hb

/-- The manager discards a session only while it handles the failure of a call. -/
theorem inCall_of_discards {c : Nat} (hd : Discards c ⟨s, l, out, t⟩) (h : Acts host s l t out) :
    s.ctl.pc.inCall = true := by
  obtain ⟨⟨m, rfl⟩, hact, hne⟩ := hd
  cases h with
  | move => exact absurd hact hne
  | discard m c' es hm => exact inCall_of_discard hm

end Calls

/-- **A failed call discards the clip for which it began** exactly when no start has been accepted since. Whenever the
manager discards a clip, it has begun a call of `newAudio` or `stream.Start` for a recording, and the discarded clip is
the one that was active then, iff none of the steps since is an accepted start. -/
theorem discards_own_clip_iff {host : Host} {h₁ h₂ : History} {st : CaptureStep} {s : Capture} {c : Nat}
    (r : Run (captureSystem host) (h₁ ++ st :: h₂) s) (hd : Discards c st) :
    ∃ b since, lastCall h₁ = some (b, since) ∧ beginsCall b = true ∧ b ∈ h₁ ∧
      (b.pre.activeID = some c ↔ ∀ st' ∈ since, acceptsStart st' = false) := by
  have hstep := (r.mem_step (List.mem_append_right _ List.mem_cons_self)).2
  have r₁ := r.before
  obtain ⟨b, since, hcall⟩ := lastCall_of_run r₁ (inCall_of_discards hd (captureStep_acts hstep))
  obtain ⟨hsince, hbegins, hm⟩ := activeSince_of_run r₁ b since hcall
  have hbstep := r₁.mem_step hm
  have hpre : b.post.activeID = b.pre.activeID := by
    rw [Capture.activeID, active_of_beginsCall hbegins (captureStep_acts hbstep.2)]
    rfl
  refine ⟨b, since, hcall, hbegins, hm, ?_⟩
  constructor
  · intro hb st' hm'
    cases hacc : acceptsStart st' with
    | false => rfl
    | true =>
      -- the clip of that start is newer than the one for which the call began
      have hle := hsince.replaced (List.any_eq_true.mpr ⟨st', hm', hacc⟩) c hd.2.1
      have hlt : c < b.post.nextClip := by
        obtain ⟨a, ha, rfl⟩ := Option.map_eq_some_iff.mp (hpre.trans hb)
        exact (captureOk_of_reachable (hbstep.1.step hbstep.2)).active_lt a ha
      omega
  · intro hnone
    have hany : since.any acceptsStart = false := List.any_eq_false.mpr fun st' hm' => by simp [hnone st' hm']
    rcases hsince.kept hany with hkept | hkept
    · rw [← hpre, ← hkept]
      exact hd.2.1
    · rw [hd.2.1] at hkept
      cases hkept

/-- A recording for which the device cannot be opened. -/
theorem discards_own_clip_iff_open : ∃ h₁ st s b since, Run (captureSystem ⟨{}, fun _ => false⟩) (h₁ ++ [st]) s ∧
    Discards 1 st ∧ lastCall h₁ = some (b, since) ∧
    (b.pre.activeID = some 1 ↔ ∀ st' ∈ since, acceptsStart st' = false) := by
  obtain ⟨h₁, st, s, r, hq⟩ := Run.exists_snoc_of_exec (M := captureSystem ⟨{}, fun _ => false⟩) ⟨false, rfl⟩
    [.start [(RequestEnv.xdgSessionIDName, "3")], .manager .receive, .manager .next, .manager .next,
      .manager (.ret false), .manager .next]
    (fun _ st => st.label = .manager .next ∧ st.pre.activeID = some 1 ∧ st.post.activeID = none) (by decide)
  obtain ⟨hl, hpre, hpost⟩ := of_decide_eq_true hq
  have hd : Discards 1 st := ⟨⟨_, hl⟩, hpre, by simp [hpost]⟩
  obtain ⟨b, since, hcall, -, -, hiff⟩ := discards_own_clip_iff r hd
  exact ⟨h₁, st, s, b, since, r, hd, hcall, hiff⟩

/-- **A start that replaces the recording** while the device is being opened has its clip discarded, for which nothing
was attempted. -/
theorem replacement_discarded : ¬∀ (host : Host) (h₁ h₂ : History) (st : CaptureStep) (s : Capture) (c : Nat),
    Run (captureSystem host) (h₁ ++ st :: h₂) s → Discards c st →
      ∃ b since, lastCall h₁ = some (b, since) ∧ b.pre.activeID = some c := by
  intro hall
  obtain ⟨h₁, st, s, r, hq⟩ := Run.exists_snoc_of_exec (M := captureSystem ⟨{}, fun _ => false⟩) ⟨false, rfl⟩
    [.start [(RequestEnv.xdgSessionIDName, "3")], .manager .receive, .manager .next, .manager .next,
      .start [(RequestEnv.xdgSessionIDName, "3")], .manager (.ret false), .manager .next]
    (fun h₁ st => st.label = .manager .next ∧ st.pre.activeID = some 2 ∧ st.post.activeID = none ∧
      (lastCall h₁).map (fun call => call.1.pre.activeID) = some (some 1)) (by decide)
  obtain ⟨hl, hpre, hpost, hcall⟩ := of_decide_eq_true hq
  obtain ⟨b, since, hb, hact⟩ := hall _ h₁ [] st s 2 r ⟨⟨_, hl⟩, hpre, by simp [hpost]⟩
  rw [hb, Option.map_some, hact] at hcall
  cases hcall

end Talk2Text.Daemon
