import Talk2Text.Daemon.ClipIDs
import Talk2Text.Daemon.Lifecycle

/-!
# What becomes of every clip

Every clip ID that the daemon gives out is in one place at any time: it is being recorded, some goroutine is about to
hand it over, a goroutine of the HTTP side works on it, `processTranscript` was called for it, or it is lost. A clip is
lost in one of four ways (`Loss`).

- `daemonStep_fates`: one step moves a clip from one place to another, and makes a new one only with the next clip ID;
- `fates_of_run`: after a run the places hold the IDs below `nextClip`, each once;
- `clips_conserved`: so no clip is processed twice, none disappears, and what is lost has a cause.
-/

namespace Talk2Text.Daemon

open Sys
open Server (Request)

/-! ## The places -/

/-- The clip that a goroutine of the HTTP side still has to deal with. -/
def Thread.clip : Thread → Option Nat
  | .transcribe s pc => if pc = .returned then none else some s.id
  | .handling _ (.newSession _ _ clipID) => some clipID
  | .accepted _ s pc => if pc = .returned then none else some s.id
  | _ => none

/-- The clips that are recorded, about to be handed over, or worked on. -/
def DaemonState.inProgress (s : DaemonState) : List Nat :=
  s.capture.activeID.toList ++ s.capture.tasks.filterMap Task.clip ++ s.http.threads.filterMap Thread.clip

/-- The clip that the event hands to `processTranscript`. -/
def HttpEvent.processed : HttpEvent → Option Nat
  | .clip (.processTranscript s _ _) => some s.id
  | _ => none

/-- The clips for which `processTranscript` is called. -/
def processed (es : List DaemonEvent) : List Nat :=
  es.filterMap fun
    | .http e => e.processed
    | _ => none

/-- Whisper failed, and the clip is given up in the next step. -/
def LongPc.givesUp : LongPc → Bool
  | .finish (.error _) => true
  | _ => false

/-- The clip that the next step of its goroutine gives up: Whisper failed, or the context was done while the clip
waited for its turn. -/
def Thread.givesUp : Thread → Option Nat
  | .transcribe s (.long pc) => if pc.givesUp then some s.id else none
  | .accepted _ s (.long pc) => if pc.givesUp then some s.id else none
  | .accepted _ s (.release false) => some s.id
  | _ => none

/-- The recorded clip of `s`, if it is gone in `t` and no goroutine is about to hand it over. -/
def Capture.discarded (s t : Capture) : Option Nat :=
  s.activeID.filter fun c => t.activeID ≠ some c ∧ t.waiting c = 0

/-- The clip that a step loses. -/
def lostClip (st : DaemonStep) : Option Nat :=
  match st.label with
  | .http (.clip i _) => st.pre.http.threads[i]?.bind Thread.givesUp
  | _ => st.pre.capture.discarded st.post.capture

/-- The clips that a run has lost. -/
def lost (h : List DaemonStep) : List Nat := h.filterMap lostClip

/-! ## The goroutine of a clip -/

section Clip

variable {cancelled : Bool} {tr tr' : Transcriptions} {s : Session} {m : ClipMove} {es : List ClipEvent}

/-- **`processLongSession`** keeps its clip until it returns: then it hands it to `processTranscript` or gives it up. -/
theorem longStep_fate {pc : LongPc} {pc' : Option LongPc} (h : longStep cancelled tr s pc m = some (tr', pc', es)) :
    (pc'.map fun _ => s.id).toList ++ (es.map HttpEvent.clip).filterMap HttpEvent.processed ++
      (if pc.givesUp then some s.id else none).toList = [s.id] := by
  unfold longStep at h
  split at h
  · cases h; rfl
  · cases h; rfl
  · split at h <;> cases h <;> rfl
  · cases h; rfl
  · rename_i r
    cases h
    cases r with
    | text text => rfl
    | error e => cases cancelled <;> rfl
  · cases h

/-- What a step of a goroutine does to its clip: it keeps it, hands it to `processTranscript`, or gives it up. -/
def ClipFate (th th' : Thread) (es : List HttpEvent) : Prop :=
  th'.clip.toList ++ es.filterMap HttpEvent.processed ++ th.givesUp.toList = th.clip.toList

/-- **A local clip.** -/
theorem localStep_fate {cfg : Config} {pc pc' : LocalPc} (h : localStep cfg cancelled tr s pc m = some (tr', pc', es)) :
    ClipFate (.transcribe s pc) (.transcribe s pc') (es.map .clip) := by
  unfold localStep at h
  split at h
  · split at h <;> cases h <;> rfl
  · cases h; rfl
  · obtain ⟨⟨t₁, p₁, es₁⟩, hl, h⟩ := Option.map_eq_some_iff.mp h
    cases h
    have hfate := longStep_fate hl
    cases p₁ <;> exact hfate
  · cases h

/-- **The clip of an accepted submission.** -/
theorem httpClipStep_fate {cfg : Config} {n n' : Int} {i : Nat} {apc : AcceptedPc} {pc pc' : HttpClipPc}
    {out : List HttpEvent} (h : httpClipStep cfg cancelled tr n i s pc m = some (tr', n', pc', out)) :
    ClipFate (.accepted apc s pc) (.accepted apc s pc') out := by
  unfold httpClipStep at h
  split at h
  · cases h
    split <;> rfl
  · cases h; rfl
  · cases h; rfl
  · split at h <;> cases h <;> rfl
  · split at h
    · cases h; rfl
    · cases h
  · split at h
    · cases h; rfl
    · cases h
  · rename_i success
    cases h
    cases success <;> rfl
  · obtain ⟨⟨t₁, p₁, es₁⟩, hl, h⟩ := Option.map_eq_some_iff.mp h
    cases h
    have hfate := longStep_fate hl
    cases p₁ <;> exact hfate
  · cases h

end Clip

/-! ## The steps of the HTTP side -/

section Http

variable {host : HttpHost} {s t : Http}

theorem clip_set {i : Nat} {a b : Thread} (hi : s.threads[i]? = some a) :
    (a.clip.toList ++ (s.threads.set i b).filterMap Thread.clip).Perm
      (b.clip.toList ++ s.threads.filterMap Thread.clip) :=
  filterMap_set_perm Thread.clip b hi

/-- A handler takes a clip with the ID that it allocates, and keeps it. -/
theorem handlerStep_fate {cancelled : Bool} {admitted admitted' : Int} {n n' i : Nat} {r : HttpRequest}
    {pc : HandlerPc} {th : Thread} {es : List HttpEvent} (hok : (Thread.handling r pc).Ok)
    (h : handlerStep host cancelled admitted n i r pc = some (admitted', n', th, es)) :
    es.filterMap HttpEvent.processed = [] ∧ ∃ ids, Takes n n' ids ∧
      th.clip.toList = (Thread.handling r pc).clip.toList ++ ids := by
  cases pc with
  | check | increment env | checkContext env pcm | deferred u =>
    simp only [handlerStep] at h
    split at h <;> cases h <;> exact ⟨rfl, [], Or.inl ⟨rfl, rfl⟩, rfl⟩
  | readAudio env =>
    simp only [handlerStep] at h
    split at h
    · cases h
      exact ⟨by simp [List.filterMap_map, Function.comp_def, HttpEvent.processed], [], Or.inl ⟨rfl, rfl⟩, rfl⟩
    · cases h; exact ⟨rfl, [], Or.inl ⟨rfl, rfl⟩, rfl⟩
  | refuse | respond resp u => cases h; exact ⟨rfl, [], Or.inl ⟨rfl, rfl⟩, rfl⟩
  | allocate env pcm => cases h; exact ⟨rfl, [n], Or.inr ⟨rfl, rfl⟩, rfl⟩
  | newSession env pcm id =>
    obtain ⟨session, hs, hid⟩ := newRecordedSession_ok hok id env
    simp only [handlerStep, hs] at h
    cases h
    exact ⟨rfl, [], Or.inl ⟨rfl, rfl⟩, by simp [Thread.clip, hid]⟩
  | returned => cases h

/-- The clip that a step of the HTTP side gives up. -/
def Http.lost (s : Http) : HttpLabel → Option Nat
  | .clip i _ => s.threads[i]?.bind Thread.givesUp
  | _ => none

/-- **One step of the HTTP side** moves one clip. -/
theorem httpStep_fates {l : HttpLabel} {es : List HttpEvent} (hok : ∀ th ∈ s.threads, th.Ok) (hl : l.ofCapture = false)
    (h : httpStep host s l = some (t, es)) :
    ∃ ids, Takes s.nextClip t.nextClip ids ∧
      (es.filterMap HttpEvent.processed ++ (s.lost l).toList ++ t.threads.filterMap Thread.clip).Perm
        (s.threads.filterMap Thread.clip ++ ids) := by
  have hmove : ∀ {i : Nat} {th th' : Thread} {es : List HttpEvent}, s.threads[i]? = some th → ClipFate th th' es →
      (es.filterMap HttpEvent.processed ++ th.givesUp.toList ++ (s.threads.set i th').filterMap Thread.clip).Perm
        (s.threads.filterMap Thread.clip) := by
    intro i th th' es hi hfate
    have hperm := clip_set (b := th') hi
    rw [← hfate, List.append_assoc, List.append_assoc, List.perm_append_left_iff, ← List.append_assoc] at hperm
    exact hperm
  cases httpStep_acts h with
  | transcribe | allocateClip | cancel => cases hl
  | request r =>
    have hnew : [Thread.handling r .check].filterMap Thread.clip = [] := rfl
    exact ⟨[], Or.inl ⟨rfl, rfl⟩, by simp [Http.lost, hnew]⟩
  | handler i r pc admitted n th es hi hs =>
    obtain ⟨hes, ids, htake, hclip⟩ := handlerStep_fate (hok _ (List.mem_of_getElem? hi)) hs
    have hperm := clip_set (b := th) hi
    rw [hclip, List.append_assoc, List.perm_append_left_iff] at hperm
    exact ⟨ids, htake, by simpa [hes, Http.lost] using hperm.trans List.perm_append_comm⟩
  | respond i session clip pc pc' es hi hs =>
    have hperm := clip_set (b := .accepted pc' session clip) hi
    cases pc with
    | respond =>
      cases hs
      refine ⟨[], Or.inl ⟨rfl, rfl⟩, ?_⟩
      rw [List.append_nil]
      exact (List.perm_append_left_iff _).mp hperm
    | returned => cases hs
  | localClip i m session pc pc' tr es hi hs =>
    exact ⟨[], Or.inl ⟨rfl, rfl⟩, by simpa [Http.lost, hi] using hmove hi (localStep_fate hs)⟩
  | httpClip i m session pc clip clip' tr admitted es hi hs =>
    exact ⟨[], Or.inl ⟨rfl, rfl⟩, by simpa [Http.lost, hi] using hmove hi (httpClipStep_fate hs)⟩

end Http

/-! ## The steps of the capture -/

section Capture

variable {host : Host} {s t : Capture} {l : Label} {out : List Event}

/-- The recorded clip, and those that goroutines are about to hand over. -/
def Capture.places (s : Capture) : List Nat := s.activeID.toList ++ s.tasks.filterMap Task.clip

theorem count_toList (c : Nat) (o : Option Nat) : o.toList.count c = if o = some c then 1 else 0 := by
  cases o with
  | none => rfl
  | some d => simp [List.count_singleton]

theorem count_places (c : Nat) (s : Capture) :
    s.places.count c = (if s.activeID = some c then 1 else 0) + s.waiting c := by
  rw [Capture.places, List.count_append, count_toList, List.count_filterMap, Capture.waiting]
  simp only [beq_eq_decide]
  rfl

theorem count_transcribed (c : Nat) (es : List Event) : ((transcribed es).map Session.id).count c = handed c es := by
  rw [transcribed, List.map_filterMap, List.count_filterMap, handed]
  congr 1
  funext e
  cases e <;> simp [Event.hands, beq_eq_decide]

/-- A step that hands a clip over does not touch the recorded one. -/
theorem handed_or_kept (h : Acts host s l t out) : (∀ c, handed c out = 0) ∨ t.activeID = s.activeID := by
  cases h with
  | task => exact Or.inr rfl
  | move m c es | discard m c es => exact Or.inl fun c => handed_stream c es
  | refuse | beginSession | finalize | ignoreStop | repeatStop | schedule | stopNow => exact Or.inl fun _ => rfl
  | stopTimerExpires | staleStop | delayedStop | warmTimerExpires | warmBusy | warmOff | ignoreAudio | pcmError
  | maxDuration | append | shutdown | cancel | allocateClip => exact Or.inl fun _ => rfl

/-- A step takes a clip ID exactly when it begins to record that clip. -/
theorem capture_takes (hok : CaptureOk s) (hl : l ≠ .allocateClip) (h : captureStep host s l = some (t, out)) :
    t.nextClip = s.nextClip ∧ t.activeID ≠ some s.nextClip ∨
      t.nextClip = s.nextClip + 1 ∧ t.activeID = some s.nextClip := by
  rcases (captureStep_shared h).1 with hn | ⟨hr, hn⟩
  · refine Or.inl ⟨hn, fun ha => ?_⟩
    obtain ⟨a, ha, hid⟩ := Option.map_eq_some_iff.mp ha
    have := (captureOk_acts hok (captureStep_acts h)).active_lt a ha
    omega
  · cases l with
    | start env =>
      rcases start_clip h with ⟨err, rfl, -⟩ | ⟨-, -, ha⟩
      · omega
      · exact Or.inr ⟨hn, ha⟩
    | stop o early =>
      exfalso
      cases captureStep_acts h with
      | ignoreStop | repeatStop | schedule => simp [Capture.schedule] at hn
      | stopNow => simp at hn
    | allocateClip => exact absurd rfl hl
    | stopTimerExpires | delayedStop | warmTimerExpires | warmCallback | audio | shutdown | cancel | manager | task =>
      cases hr

theorem discarded_eq_some_iff {c : Nat} :
    s.discarded t = some c ↔ s.activeID = some c ∧ t.activeID ≠ some c ∧ t.waiting c = 0 := by
  simp [Capture.discarded, Option.filter_eq_some_iff]

/-- **One step of the capture** moves one clip. -/
theorem captureStep_fates (hok : CaptureOk s) (hfresh : ∀ c, s.activeID = some c → s.waiting c = 0)
    (hl : l ≠ .allocateClip) (h : captureStep host s l = some (t, out)) :
    ∃ ids, Takes s.nextClip t.nextClip ids ∧
      ((transcribed out).map Session.id ++ (s.discarded t).toList ++ t.places).Perm (s.places ++ ids) := by
  have hacts := captureStep_acts h
  obtain ⟨o, hlives⟩ := lifecycle_acts hok hacts
  obtain ⟨htr, hcount⟩ := hlives.effect
  have hlt : ∀ c, s.activeID = some c → c ≠ s.nextClip := by
    intro c hc
    obtain ⟨a, ha, rfl⟩ := Option.map_eq_some_iff.mp hc
    exact Nat.ne_of_lt (hok.active_lt a ha)
  have hids : ∃ ids, Takes s.nextClip t.nextClip ids ∧
      ∀ c, s.activeID ≠ some c → ids.count c = if t.activeID = some c then 1 else 0 := by
    have hcases := htr.clip_cases
    rw [Capture.clip_phase, Capture.clip_phase] at hcases
    rcases capture_takes hok hl h with ⟨hn, hne⟩ | ⟨hn, ha⟩
    · refine ⟨[], Or.inl ⟨rfl, hn⟩, fun c hc => ?_⟩
      rw [if_neg, List.count_nil]
      rcases hcases with hq | hq | hq <;> rw [hq]
      · exact hc
      · simp
      · exact absurd hq hne
    · refine ⟨[s.nextClip], Or.inr ⟨rfl, hn⟩, fun c hc => ?_⟩
      rw [ha, ← count_toList]
      rfl
  obtain ⟨ids, htake, hids⟩ := hids
  refine ⟨ids, htake, List.perm_iff_count.mpr fun c => ?_⟩
  simp only [List.count_append, count_transcribed, count_toList, count_places, discarded_eq_some_iff]
  have hc := hcount c
  by_cases ha : s.activeID = some c
  · -- the recorded clip is kept, handed over or discarded
    have hw := hfresh c ha
    have hid : ids.count c = 0 := by
      rcases htake with ⟨rfl, -⟩ | ⟨rfl, -⟩
      · rfl
      · exact List.count_eq_zero.mpr (by simpa using hlt c ha)
    by_cases ho : o = some c
    · have hdet : t.activeID ≠ some c := by
        rw [← Capture.clip_phase]
        exact htr.out_detached ho (hlt c ha)
      have hh : handed c out = 0 := by
        rcases handed_or_kept hacts with hh | hk
        · exact hh c
        · exact absurd (hk.trans ha) hdet
      simp only [if_pos ho] at hc
      simp only [ha, hdet, hid]
      have : t.waiting c ≠ 0 := by omega
      simp [this]
      omega
    · simp only [if_neg ho] at hc
      have : t.waiting c = 0 := by omega
      by_cases ht : t.activeID = some c <;> simp [ha, ht, this, hid] <;> omega
  · have ho : o ≠ some c := by
      intro e
      exact ha (Capture.clip_phase s ▸ htr.out_clip e)
    simp only [if_neg ho] at hc
    simp only [ha, hids c ha, false_and, if_false]
    omega

end Capture

/-! ## The steps of the daemon -/

section Daemon

variable {host : DaemonHost} {s t : DaemonState} {l : DaemonLabel} {out : List DaemonEvent}

theorem processed_daemon (es : List Event) : processed (es.map Event.daemon) = [] := by
  simp only [processed, List.filterMap_map, List.filterMap_eq_nil_iff]
  intro e _
  cases e <;> rfl

theorem processed_http (es : List HttpEvent) : processed (es.map .http) = es.filterMap HttpEvent.processed := by
  simp [processed, List.filterMap_map]

theorem inProgress_eq (s : DaemonState) :
    s.inProgress = s.capture.places ++ s.http.threads.filterMap Thread.clip := rfl

theorem discarded_self (s : Capture) : s.discarded s = none := by
  rw [Option.eq_none_iff_forall_not_mem]
  intro c hc
  obtain ⟨h, h', -⟩ := discarded_eq_some_iff.mp hc
  exact h' h

/-- The sessions that the capture hands over become goroutines of the HTTP side. -/
theorem clip_spawn (u : Http) (ss : List Session) :
    (u.spawn ss).threads.filterMap Thread.clip = u.threads.filterMap Thread.clip ++ ss.map Session.id := by
  rw [Http.spawn, List.filterMap_append, List.filterMap_map, ← List.filterMap_eq_map]
  rfl

/-- A request hands nothing over in its section. -/
theorem transcribed_of_request {ch : Host} {s c : Capture} {l : Label} {es : List Event} (hl : l.ofRequest = true)
    (h : captureStep ch s l = some (c, es)) : transcribed es = [] := by
  cases captureStep_acts h with
  | refuse | beginSession | finalize | ignoreStop | repeatStop | schedule | stopNow | allocateClip => rfl
  | stopTimerExpires | staleStop | delayedStop | warmTimerExpires | warmBusy | warmOff | ignoreAudio | pcmError
  | maxDuration | append | shutdown | cancel | move | discard | task => cases hl

/-- **One step of the daemon** moves one clip from one place to another, and takes it from the counter if it is new. -/
theorem daemonStep_fates (hok : s.Ok) (hcap : CaptureOk s.capture)
    (hfresh : ∀ c, s.capture.activeID = some c → s.capture.waiting c = 0) (h : daemonStep host s l = some (t, out)) :
    ∃ ids, Takes s.capture.nextClip t.capture.nextClip ids ∧
      (processed out ++ (lostClip ⟨s, l, out, t⟩).toList ++ t.inProgress).Perm (s.inProgress ++ ids) := by
  have hlocal : ∀ {l' : Label} {c : Capture} {es : List Event} {u : Http}, l' ≠ .allocateClip →
      captureStep host.captureHost s.capture l' = some (c, es) →
      u.threads.filterMap Thread.clip = s.http.threads.filterMap Thread.clip ++ (transcribed es).map Session.id →
      ∃ ids, Takes s.capture.nextClip c.nextClip ids ∧
        (processed (es.map Event.daemon) ++ (s.capture.discarded c).toList ++
          (DaemonState.join c u).inProgress).Perm (s.inProgress ++ ids) := by
    intro l' c es u hl hc hu
    obtain ⟨ids, htake, hperm⟩ := captureStep_fates hcap hfresh hl hc
    refine ⟨ids, htake, List.perm_iff_count.mpr fun d => ?_⟩
    have hd := hperm.count_eq d
    have hjoin : (DaemonState.join c u).inProgress = c.places ++ u.threads.filterMap Thread.clip := rfl
    rw [processed_daemon, hjoin, hu, inProgress_eq]
    simp only [List.count_append, List.count_nil] at hd ⊢
    omega
  have hstay : ∀ {es : List DaemonEvent}, processed es = [] → ∃ ids,
      Takes s.capture.nextClip s.capture.nextClip ids ∧
        (processed es ++ (s.capture.discarded s.capture).toList ++ s.inProgress).Perm (s.inProgress ++ ids) := by
    intro es hes
    exact ⟨[], Or.inl ⟨rfl, rfl⟩, by simp [hes, discarded_self]⟩
  cases daemonStep_acts h with
  | fail | status => exact hstay rfl
  | start r done early env c es _ hc =>
    exact hlocal (by simp) hc (by rw [transcribed_of_request rfl hc, List.map_nil, List.append_nil])
  | stop r done early o c es _ hc =>
    exact hlocal (by simp) hc (by rw [transcribed_of_request rfl hc, List.map_nil, List.append_nil])
  | capture l c es hl hc =>
    refine hlocal ?_ hc (clip_spawn _ _)
    rintro rfl
    cases hl
  | http l u es hl hu =>
    obtain ⟨ids, htake, hperm⟩ := httpStep_fates hok hl hu
    have hlost : lostClip ⟨s, .http l, es.map .http, .join { s.capture with nextClip := u.nextClip } u⟩ =
        s.http.lost l := by
      cases l with
      | clip i m => rfl
      | transcribe | request | allocateClip | cancel | handler => exact discarded_self s.capture
    have hjoin : (DaemonState.join { s.capture with nextClip := u.nextClip } u).inProgress =
        s.capture.places ++ u.threads.filterMap Thread.clip := rfl
    refine ⟨ids, s.nextClip_eq ▸ htake, List.perm_iff_count.mpr fun d => ?_⟩
    have hd := hperm.count_eq d
    rw [processed_http, hlost, hjoin, inProgress_eq]
    simp only [List.count_append] at hd ⊢
    omega

/-- The clips of a run: processed, lost, or in progress. -/
def DaemonState.fates (h : List DaemonStep) (s : DaemonState) : List Nat :=
  processed (outputs h) ++ lost h ++ s.inProgress

theorem count_fates_snoc {h : List DaemonStep} (c : Nat) :
    (t.fates (h ++ [⟨s, l, out, t⟩])).count c + s.inProgress.count c =
      (s.fates h).count c + (processed out ++ (lostClip ⟨s, l, out, t⟩).toList ++ t.inProgress).count c := by
  have hp : processed (outputs (h ++ [⟨s, l, out, t⟩])) = processed (outputs h) ++ processed out := by
    rw [outputs_snoc, processed, List.filterMap_append]
    rfl
  have hl : lost (h ++ [⟨s, l, out, t⟩]) = lost h ++ (lostClip ⟨s, l, out, t⟩).toList := by
    rw [lost, List.filterMap_append, filterMap_cons_toList, List.filterMap_nil, List.append_nil]
    rfl
  simp only [DaemonState.fates, hp, hl, List.count_append]
  omega

/-- A clip ID that is taken extends the IDs in use. -/
theorem Takes.range {n n' : Nat} {ids : List Nat} (h : Takes n n' ids) (hn : 1 ≤ n) :
    1 ≤ n' ∧ (List.range' 1 (n - 1) ++ ids).Perm (List.range' 1 (n' - 1)) := by
  rcases h with ⟨rfl, rfl⟩ | ⟨rfl, rfl⟩
  · exact ⟨hn, by rw [List.append_nil]⟩
  · have he : n + 1 - 1 = n - 1 + 1 := by omega
    have hlast : 1 + (n - 1) = n := by omega
    exact ⟨by omega, by rw [he, List.range'_1_concat, hlast]⟩

/-- **Every clip is in one place.** -/
theorem fates_of_run {h : List DaemonStep} (r : Run (daemonSystem host) h s) :
    s.Ok ∧ 1 ≤ s.capture.nextClip ∧ (s.fates h).Perm (List.range' 1 (s.capture.nextClip - 1)) := by
  refine Run.induction (P := fun h s => s.Ok ∧ 1 ≤ s.capture.nextClip ∧
    (s.fates h).Perm (List.range' 1 (s.capture.nextClip - 1))) ?_ ?_ r
  · rintro s ⟨early, rfl⟩
    exact ⟨fun th hth => absurd hth List.not_mem_nil, Nat.le_refl 1, .refl _⟩
  · rintro h s l t out hs ⟨hok, hpos, hperm⟩ hst
    -- the recorded clip is nowhere else
    have hfresh : ∀ c, s.capture.activeID = some c → s.capture.waiting c = 0 := by
      intro c hc
      have hone : (s.fates h).count c ≤ 1 := List.nodup_iff_count_le_one.mp (hperm.nodup_iff.mpr (List.nodup_range' ..)) c
      rw [DaemonState.fates, inProgress_eq] at hone
      simp only [List.count_append, count_places, if_pos hc] at hone
      omega
    obtain ⟨ids, htake, hone⟩ := daemonStep_fates hok (captureOk_of_reachable (capture_of_reachable hs)) hfresh hst
    obtain ⟨hpos', hrange⟩ := htake.range hpos
    refine ⟨(daemonStep_clips hok hst).1, hpos', List.perm_iff_count.mpr fun c => ?_⟩
    have hc := hperm.count_eq c
    have hc' := hone.count_eq c
    have hsnoc := @count_fates_snoc s t l out h c
    rw [← hrange.count_eq c]
    simp only [List.count_append] at hc' hsnoc ⊢
    omega

end Daemon

/-! ## Why a clip is lost -/

/-- A clip that gave up waiting for its turn saw the context done. -/
def Http.Waits (s : Http) : Prop := ∀ pc x, .accepted pc x (.release false) ∈ s.threads → s.cancelled = true

section Waits

variable {host : HttpHost} {s t : Http}

theorem httpClipStep_release {cfg : Config} {cancelled : Bool} {tr tr' : Transcriptions} {n n' : Int} {i : Nat}
    {x : Session} {pc : HttpClipPc} {m : ClipMove} {es : List HttpEvent}
    (h : httpClipStep cfg cancelled tr n i x pc m = some (tr', n', .release false, es)) : cancelled = true := by
  unfold httpClipStep at h
  split at h
  · simp only [Option.some.injEq, Prod.mk.injEq] at h
    obtain ⟨-, -, h, -⟩ := h
    split at h <;> cases h
  · cases h
  · cases h
  · split at h <;> cases h
  · split at h <;> cases h
  · split at h
    · assumption
    · cases h
  · simp only [Option.some.injEq, Prod.mk.injEq] at h
    obtain ⟨-, -, h, -⟩ := h
    split at h <;> cases h
  · obtain ⟨⟨t₁, p₁, es₁⟩, hl, h⟩ := Option.map_eq_some_iff.mp h
    cases p₁ <;> cases h
  · cases h

theorem waits_step {l : HttpLabel} {es : List HttpEvent} (hs : s.Waits) (h : httpStep host s l = some (t, es)) :
    t.Waits := by
  have hset : ∀ {i : Nat} {th : Thread}, (∀ pc x, th = .accepted pc x (.release false) → s.cancelled = true) →
      ∀ pc x, Thread.accepted pc x (.release false) ∈ s.threads.set i th → s.cancelled = true :=
    fun hth pc x hm => (List.mem_or_eq_of_mem_set hm).elim (hs pc x) fun e => hth pc x e.symm
  cases httpStep_acts h with
  | transcribe | request =>
    intro pc x hm
    rcases List.mem_append.mp hm with hm | hm
    · exact hs pc x hm
    · cases List.mem_singleton.mp hm
  | allocateClip => exact hs
  | cancel => exact fun _ _ _ => rfl
  | handler i r pc admitted n th es hi hst =>
    refine hset fun apc x e => ?_
    subst e
    cases pc with
    | newSession env pcm id =>
      simp only [handlerStep] at hst
      split at hst <;> cases hst
    | check | increment env | checkContext env pcm | deferred u | readAudio env =>
      simp only [handlerStep] at hst
      split at hst <;> cases hst
    | refuse | respond | allocate | returned => cases hst
  | respond i session clip pc pc' es hi hst =>
    exact hset fun apc x e => by
      cases e
      exact hs _ _ (List.mem_of_getElem? hi)
  | localClip i m session pc pc' tr es hi hst => exact hset fun apc x e => by cases e
  | httpClip i m session pc clip clip' tr admitted es hi hst =>
    exact hset fun apc x e => by
      cases e
      exact httpClipStep_release hst

theorem waits_of_reachable (hs : Reachable (httpSystem host) s) : s.Waits := by
  refine hs.induction (P := Http.Waits) ?_ fun s l t out _ h hst => waits_step h hst
  rintro s rfl pc x hm
  cases hm

end Waits

/-- The session that the goroutine is about to give up, with the error of Whisper. -/
def Thread.failed : Thread → Option (Session × String)
  | .transcribe s (.long (.finish (.error err))) | .accepted _ s (.long (.finish (.error err))) => some (s, err)
  | _ => none

/-- What loses clip `c`. -/
inductive Loss (host : DaemonHost) (c : Nat) (st : DaemonStep) : Prop
  /-- The owner starts again without having stopped. -/
  | replaced (r : Request) (done early : Bool) (environment : Environment) (a : Session) :
      st.label = .request r done early → dispatch host.cfg done r = .ok (.start environment) →
      st.pre.capture.active = some a → a.id = c → a.originID = RequestEnv.originID environment →
      a.id ≠ st.pre.capture.pendingStopClip → Loss host c st
  /-- The recording fails, or the daemon shuts down. -/
  | aborted (l : Label) : st.label = .capture l → st.pre.capture.activeID = some c →
      Aborts host.captureHost st.pre.capture l → Loss host c st
  /-- Whisper failed, and the goroutine of the clip moves on; a failure before the context is done is reported. -/
  | whisper (i : Nat) (m : ClipMove) (th : Thread) (s : Session) (err : String) : st.label = .http (.clip i m) →
      st.pre.http.threads[i]? = some th → th.failed = some (s, err) → s.id = c →
      st.out = (finishLong st.pre.http.cancelled s (.error err)).map (fun e => DaemonEvent.http (.clip e)) → Loss host c st
  /-- The context was done before the clip had its turn. -/
  | cancelled (i : Nat) (pc : AcceptedPc) (s : Session) :
      st.pre.http.threads[i]? = some (.accepted pc s (.release false)) → s.id = c → st.pre.http.cancelled = true →
      Loss host c st

section Cause

variable {host : Host} {s t : Capture} {l : Label} {out : List Event} {c : Nat}

/-- **The recorded clip is discarded** by a failure, by the shutdown, or by a start of its owner. -/
theorem discarded_cause (hok : CaptureOk s) (hl : l ≠ .allocateClip) (h : captureStep host s l = some (t, out))
    (hd : s.discarded t = some c) :
    Aborts host s l ∨ ∃ env a, l = .start env ∧ s.active = some a ∧ a.id = c ∧ a.originID = RequestEnv.originID env ∧
      a.id ≠ s.pendingStopClip := by
  obtain ⟨ha, hne, hw⟩ := discarded_eq_some_iff.mp hd
  obtain ⟨a, hact, rfl⟩ := Option.map_eq_some_iff.mp ha
  obtain ⟨o, hlives⟩ := lifecycle_acts hok (captureStep_acts h)
  obtain ⟨htr, hcount⟩ := hlives.effect
  by_cases ht : t.active = none
  · refine Or.inl (hlives.dropped (by rw [hact]; rfl) ht ?_)
    refine Option.eq_none_iff_forall_not_mem.mpr fun d hd' => ?_
    have hda : some a.id = some d := by
      rw [← ha, ← Capture.clip_phase]
      exact htr.out_clip hd'
    cases hda
    have ho : o = some a.id := hd'
    have hc := hcount a.id
    rw [if_pos ho, hw] at hc
    rcases handed_or_kept (captureStep_acts h) with hh | hk
    · have := hh a.id
      omega
    · exact hne (hk.trans ha)
  · right
    have hnew : t.activeID = some s.nextClip := by
      have hcases := htr.clip_cases
      rw [Capture.clip_phase, Capture.clip_phase, ha] at hcases
      rcases hcases with hq | hq | hq
      · exact absurd hq hne
      · exact absurd (Option.map_eq_none_iff.mp hq) ht
      · exact hq
    have hn : t.nextClip = s.nextClip + 1 := by
      rcases capture_takes hok hl h with ⟨-, hne'⟩ | ⟨hn, -⟩
      · exact absurd hnew hne'
      · exact hn
    cases captureStep_acts h with
    | beginSession env ho hs =>
      obtain ⟨hown, hid⟩ := hs a hact
      exact ⟨env, a, rfl, hact, rfl, hown, hid⟩
    | finalize env b ho hb =>
      rw [hact] at hb
      cases hb
      simp [Task.clip] at hw
    | allocateClip => exact absurd rfl hl
    | refuse | ignoreStop | repeatStop | schedule | stopTimerExpires | staleStop | warmTimerExpires | warmBusy | warmOff
    | ignoreAudio | append | move | task | cancel => exact absurd hn (by simp [Capture.schedule])
    | stopNow | delayedStop => exact absurd hn (by simp)
    | pcmError | maxDuration | shutdown | discard => exact absurd rfl ht

end Cause

theorem longStep_givesUp {cancelled : Bool} {tr tr' : Transcriptions} {x : Session} {m : ClipMove} {pc : LongPc}
    {pc' : Option LongPc} {es : List ClipEvent} (hg : pc.givesUp = true)
    (h : longStep cancelled tr x pc m = some (tr', pc', es)) :
    ∃ err, pc = .finish (.error err) ∧ es = finishLong cancelled x (.error err) := by
  unfold LongPc.givesUp at hg
  split at hg
  · rename_i err
    cases m with
    | next => cases h; exact ⟨err, rfl, rfl⟩
    | whisper | token | done => cases h
  · cases hg

section Loss

variable {host : DaemonHost} {s t : DaemonState} {l : DaemonLabel} {out : List DaemonEvent} {c : Nat}

/-- **Every loss has a cause.** -/
theorem loss_of_step (hcap : CaptureOk s.capture) (hwaits : s.http.Waits) (h : daemonStep host s l = some (t, out))
    (hlost : lostClip ⟨s, l, out, t⟩ = some c) : Loss host c ⟨s, l, out, t⟩ := by
  cases daemonStep_acts h with
  | fail | status =>
    simp only [lostClip, discarded_self] at hlost
    cases hlost
  | start r done early env c' es hd hc =>
    rcases discarded_cause hcap (by simp) hc hlost with hab | ⟨env', a, he, ha, hid, hown, hp⟩
    · exact hab.elim
    · cases he
      exact .replaced r done early env a rfl hd ha hid hown hp
  | stop r done early o c' es hd hc =>
    rcases discarded_cause hcap (by simp) hc hlost with hab | ⟨env', a, he, -⟩
    · exact hab.elim
    · cases he
  | capture l' c' es hl hc =>
    rcases discarded_cause hcap (by rintro rfl; cases hl) hc hlost with hab | ⟨env', a, he, -⟩
    · exact .aborted l' rfl (discarded_eq_some_iff.mp hlost).1 hab
    · subst he
      cases hl
  | http l' u es hl hu =>
    cases l' with
    | transcribe | request | allocateClip | cancel | handler =>
      have hnone : s.capture.discarded s.capture = some c := hlost
      rw [discarded_self] at hnone
      cases hnone
    | clip i m =>
      obtain ⟨th, hi, hg⟩ := Option.bind_eq_some_iff.mp hlost
      have hwhisper : ∀ {x : Session} {es' : List ClipEvent} {t : DaemonState}, x.id = c →
          (∃ err, th.failed = some (x, err) ∧ es' = finishLong s.http.cancelled x (.error err)) →
          Loss host c ⟨s, .http (.clip i m), (es'.map HttpEvent.clip).map .http, t⟩ := by
        rintro x es' t hid ⟨err, hfailed, rfl⟩
        exact .whisper i m th x err rfl hi hfailed hid (List.map_map ..)
      cases httpStep_acts hu with
      | localClip _ _ x pc pc' tr es hi' hst =>
        rw [hi] at hi'
        cases hi'
        cases pc with
        | long pc =>
          obtain ⟨⟨t₁, p₁, es₁⟩, hlong, hst⟩ := Option.map_eq_some_iff.mp hst
          cases hst
          simp only [Thread.givesUp, Option.ite_none_right_eq_some, Option.some.injEq] at hg
          obtain ⟨err, rfl, hes⟩ := longStep_givesUp hg.1 hlong
          exact hwhisper hg.2 ⟨err, rfl, hes⟩
        | transcribe | add | returned => cases hg
      | httpClip _ _ x apc pc pc' tr admitted es hi' hst =>
        rw [hi] at hi'
        cases hi'
        cases pc with
        | long pc =>
          obtain ⟨⟨t₁, p₁, es₁⟩, hlong, hst⟩ := Option.map_eq_some_iff.mp hst
          cases hst
          simp only [Thread.givesUp, Option.ite_none_right_eq_some, Option.some.injEq] at hg
          obtain ⟨err, rfl, hes⟩ := longStep_givesUp hg.1 hlong
          exact hwhisper hg.2 ⟨err, rfl, hes⟩
        | release success =>
          cases success with
          | true => cases hg
          | false =>
            cases hg
            exact .cancelled i apc x hi rfl (hwaits apc x (List.mem_of_getElem? hi))
        | transcribeHTTP | releaseShort | short | cas | select | returned => cases hg

/-- **Every clip ID is accounted for.** In every run of the daemon the clips handed to `processTranscript`, the clips
that are lost and the clips in progress are, together, the IDs below `nextClip`, each once: no clip is processed twice,
none disappears. A clip is lost only because its owner starts again without having stopped, because the recording
fails or the daemon shuts down, because Whisper failed, or because the context was done before it had its turn. -/
theorem clips_conserved {h : List DaemonStep} (r : Run (daemonSystem host) h s) :
    (processed (outputs h) ++ lost h ++ s.inProgress).Perm (List.range' 1 (s.capture.nextClip - 1)) ∧
      ∀ st ∈ h, ∀ c, lostClip st = some c → Loss host c st := by
  refine ⟨(fates_of_run r).2.2, fun st hm c hlost => ?_⟩
  obtain ⟨hreach, hst⟩ := r.mem_step hm
  exact loss_of_step (captureOk_of_reachable (capture_of_reachable hreach))
    (waits_of_reachable (http_of_reachable hreach)) hst hlost

/-- A daemon that accepts clips of at most one second, and decodes everything to silence. -/
def quietDaemon : DaemonHost := ⟨{ maxDuration := second }, fun _ => false, Amrwb.silence, fun _ => .ok []⟩

/-- A local start. -/
def localStart : DaemonLabel := .request ⟨"start", some [(RequestEnv.xdgSessionIDName, "3")]⟩ false false

/-- The clip of submission `i`, alone, is transcribed. -/
def transcribeClip (i : Nat) (text : String) : List HttpLabel :=
  List.replicate 4 (.clip i .next) ++ [.clip i (.whisper (.text text))] ++ List.replicate 3 (.clip i .next)

/-- A second start replaces the first clip, and a submission is transcribed. -/
theorem clips_conserved_replaced : ∃ h s, Run (daemonSystem quietDaemon) h s ∧
    (processed (outputs h) ++ lost h ++ s.inProgress).Perm [1, 2, 3] ∧ processed (outputs h) = [3] ∧ lost h = [1] := by
  obtain ⟨h, s, r, hq⟩ := Run.exists_of_exec (M := daemonSystem quietDaemon) ⟨false, rfl⟩
    ([localStart, localStart] ++ (submit 0 ++ transcribeClip 0 "one").map .http)
    (fun h s => s.capture.nextClip = 4 ∧ processed (outputs h) = [3] ∧ lost h = [1]) (by decide +kernel)
  obtain ⟨hn, hp, hl⟩ := of_decide_eq_true hq
  have hperm := (clips_conserved r).1
  rw [hn] at hperm
  exact ⟨h, s, r, hperm, hp, hl⟩

end Loss

end Talk2Text.Daemon
