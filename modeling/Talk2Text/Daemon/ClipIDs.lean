import Mathlib.Data.List.Range
import Talk2Text.Sys.Pool
import Talk2Text.Daemon.System

/-!
# Clip IDs

Local starts and HTTP submissions take their clip IDs from one counter. `clip_ids_gap_free`: after any run of
`daemonSystem`, the IDs below `nextClip` are those of the accepted starts, of the submissions answered 202 and of those
whose 202 is still to be written, each once; whatever is rejected, on whichever path, leaves the counter; and
`NewRecordedSession` does not fail once an ID is allocated, because `amrwb.Decode` returns whole frames.

A handler decides before it allocates: `handlerStep_clips` says what one step does to the IDs, `ClipHistory` what a
run has done to those of each request.
-/

namespace Talk2Text.Daemon

open Sys
open Server (Request)

/-! ## Accepted clips -/

/-- The clip ID of a submission whose 202 is still to be written. -/
def Thread.unanswered : Thread → Option Nat
  | .handling _ (.newSession _ _ clipID) => some clipID
  | .accepted .respond s _ => some s.id
  | _ => none

/-- The clip ID of a 202 response. -/
def HttpEvent.clipID : HttpEvent → Option Nat
  | .respond _ r => if r.status = 202 then some r.clipID else none
  | _ => none

/-- The clip IDs of the 202 responses. -/
def answered (es : List DaemonEvent) : List Nat :=
  es.filterMap fun
    | .http e => e.clipID
    | _ => none

abbrev DaemonStep := Step DaemonState DaemonLabel DaemonEvent

/-- The clip ID of an accepted start. -/
def startedClip (st : DaemonStep) : Option Nat :=
  match st.label with
  | .request r _ _ =>
    if r.command = "start" ∧ st.out = [.answer none none] then st.post.capture.active.map Session.id else none
  | _ => none

/-- The clip IDs of the accepted starts of a run. -/
def started (h : List DaemonStep) : List Nat := h.filterMap startedClip

/-- The clip IDs of the submissions whose 202 is still to be written. -/
def DaemonState.unanswered (s : DaemonState) : List Nat := s.http.threads.filterMap Thread.unanswered

/-! ## A handler -/

/-- A handler has PCM of whole samples, and responds 202 only once it has handed the clip over. -/
def Thread.Ok : Thread → Prop
  | .handling _ (.checkContext _ pcm) | .handling _ (.allocate _ pcm) | .handling _ (.newSession _ pcm _) =>
    pcm.length % 2 = 0
  | .handling _ (.respond r _) => r.status ≠ 202
  | _ => True

section Handler

variable {host : HttpHost} {cancelled : Bool} {r : HttpRequest}

theorem checkRequest_status {resp : HttpResponse} (h : checkRequest host cancelled r = .error resp) :
    resp.status ≠ 202 := by
  unfold checkRequest at h
  repeat' split at h
  all_goals cases h
  all_goals simp

theorem readAudio_status {resp : HttpResponse} {logs : List String} (h : readAudio host r = .error (resp, logs)) :
    resp.status ≠ 202 := by
  unfold readAudio at h
  dsimp only at h
  repeat' split at h
  all_goals cases h
  all_goals simp

/-- The PCM of a submission is what `amrwb.Decode` returns. -/
theorem readAudio_ok {pcm : List UInt8} (h : readAudio host r = .ok pcm) :
    ∃ maxFrames, host.decode r.body maxFrames = .ok pcm := by
  unfold readAudio at h
  dsimp only at h
  repeat' split at h
  all_goals cases h
  exact ⟨_, by assumption⟩

/-- `NewRecordedSession` accepts whole samples. -/
theorem newRecordedSession_ok {pcm : List UInt8} (h : pcm.length % 2 = 0) (id : Nat) (env : Environment) :
    ∃ s, newRecordedSession id env pcm = .ok s ∧ s.id = id := by
  simp [newRecordedSession, pcmDuration, h]

variable {admitted admitted' : Int} {n n' i : Nat} {pc : HandlerPc} {th : Thread} {es : List HttpEvent}

/-- **One step of a handler** and the clip IDs: it allocates one, or keeps the one it has; it does not respond 202. -/
theorem handlerStep_clips
    (hdec : ∀ data maxFrames pcm, host.decode data maxFrames = .ok pcm → pcm.length % 2 = 0)
    (hok : (Thread.handling r pc).Ok) (h : handlerStep host cancelled admitted n i r pc = some (admitted', n', th, es)) :
    th.Ok ∧ es.filterMap HttpEvent.clipID = [] ∧
      (n' = n ∧ th.unanswered = (Thread.handling r pc).unanswered ∨
        n' = n + 1 ∧ (Thread.handling r pc).unanswered = none ∧ th.unanswered = some n) := by
  cases pc with
  | check =>
    simp only [handlerStep] at h
    split at h
    · rename_i resp hc
      cases h; exact ⟨checkRequest_status hc, rfl, Or.inl ⟨rfl, rfl⟩⟩
    · cases h; exact ⟨trivial, rfl, Or.inl ⟨rfl, rfl⟩⟩
  | increment env =>
    simp only [handlerStep] at h
    split at h <;> cases h <;> exact ⟨trivial, rfl, Or.inl ⟨rfl, rfl⟩⟩
  | refuse =>
    cases h
    exact ⟨by simp [Thread.Ok, busy], rfl, Or.inl ⟨rfl, rfl⟩⟩
  | readAudio env =>
    simp only [handlerStep] at h
    split at h
    · rename_i resp logs hc
      cases h
      exact ⟨readAudio_status hc, by simp [List.filterMap_map, Function.comp_def, HttpEvent.clipID],
        Or.inl ⟨rfl, rfl⟩⟩
    · rename_i pcm hc
      cases h
      obtain ⟨maxFrames, hd⟩ := readAudio_ok hc
      exact ⟨hdec _ _ _ hd, rfl, Or.inl ⟨rfl, rfl⟩⟩
  | checkContext env pcm =>
    simp only [handlerStep] at h
    split at h
    · cases h; exact ⟨by simp [Thread.Ok], rfl, Or.inl ⟨rfl, rfl⟩⟩
    · cases h; exact ⟨hok, rfl, Or.inl ⟨rfl, rfl⟩⟩
  | allocate env pcm =>
    cases h
    exact ⟨hok, rfl, Or.inr ⟨rfl, rfl, rfl⟩⟩
  | newSession env pcm id =>
    obtain ⟨session, hs, hid⟩ := newRecordedSession_ok hok id env
    simp only [handlerStep, hs] at h
    cases h
    exact ⟨trivial, rfl, Or.inl ⟨rfl, by simp [Thread.unanswered, hid]⟩⟩
  | respond resp u =>
    cases h
    have hstatus : resp.status ≠ 202 := hok
    exact ⟨trivial, by simp [HttpEvent.clipID, hstatus], Or.inl ⟨rfl, rfl⟩⟩
  | deferred u =>
    simp only [handlerStep] at h
    split at h <;> cases h <;> exact ⟨trivial, rfl, Or.inl ⟨rfl, rfl⟩⟩
  | returned => cases h

end Handler

/-! ## One step -/

/-- `ids` are taken from the counter: none, or the next one. -/
def Takes (n n' : Nat) (ids : List Nat) : Prop := ids = [] ∧ n' = n ∨ ids = [n] ∧ n' = n + 1

section Step

variable {host : HttpHost} {s t : Http}

theorem unanswered_set {i : Nat} {a b : Thread} (hi : s.threads[i]? = some a) :
    (a.unanswered.toList ++ (s.threads.set i b).filterMap Thread.unanswered).Perm
      (b.unanswered.toList ++ s.threads.filterMap Thread.unanswered) :=
  filterMap_set_perm Thread.unanswered b hi

theorem clipID_of_silent {es : List HttpEvent} (h : ∀ j resp, .respond j resp ∉ es) :
    es.filterMap HttpEvent.clipID = [] := by
  rw [List.filterMap_eq_nil_iff]
  intro e he
  cases e with
  | respond j resp => exact absurd he (h j resp)
  | clip | log | acquire | release => rfl

theorem silent_clip (es : List ClipEvent) (j : Nat) (resp : HttpResponse) :
    .respond j resp ∉ es.map HttpEvent.clip := by
  simp

/-- **One step of the HTTP side** and the clip IDs. -/
theorem httpStep_clips
    (hdec : ∀ data maxFrames pcm, host.decode data maxFrames = .ok pcm → pcm.length % 2 = 0) {l : HttpLabel}
    {es : List HttpEvent} (hok : ∀ th ∈ s.threads, th.Ok) (hl : l.ofCapture = false)
    (h : httpStep host s l = some (t, es)) :
    (∀ th ∈ t.threads, th.Ok) ∧ ∃ ids, Takes s.nextClip t.nextClip ids ∧
      (es.filterMap HttpEvent.clipID ++ t.threads.filterMap Thread.unanswered).Perm
        (s.threads.filterMap Thread.unanswered ++ ids) := by
  cases httpStep_acts h with
  | transcribe | allocateClip | cancel => cases hl
  | request r =>
    have hnew : [Thread.handling r .check].filterMap Thread.unanswered = [] := rfl
    refine ⟨List.forall_mem_append.mpr ⟨hok, by simp [Thread.Ok]⟩, [], Or.inl ⟨rfl, rfl⟩, ?_⟩
    simp [hnew]
  | handler i r pc admitted n' th es hi hs =>
    obtain ⟨hth, hes, hids⟩ := handlerStep_clips hdec (hok _ (List.mem_of_getElem? hi)) hs
    have hperm := unanswered_set (b := th) hi
    refine ⟨forall_mem_set hok hth, ?_⟩
    rw [hes]
    rcases hids with ⟨hn, hu⟩ | ⟨hn, hu, hu'⟩
    · refine ⟨[], Or.inl ⟨rfl, hn⟩, ?_⟩
      rw [hu] at hperm
      simpa using (List.perm_append_left_iff _).mp hperm
    · refine ⟨[s.nextClip], Or.inr ⟨rfl, hn⟩, ?_⟩
      rw [hu, hu'] at hperm
      exact hperm.trans List.perm_append_comm
  | respond i session clip pc pc' es hi hs =>
    have hperm := unanswered_set (b := .accepted pc' session clip) hi
    refine ⟨forall_mem_set hok trivial, [], Or.inl ⟨rfl, rfl⟩, ?_⟩
    cases pc with
    | respond =>
      cases hs
      simpa [Thread.unanswered, HttpEvent.clipID] using hperm
    | returned => cases hs
  | localClip i m session pc pc' tr es hi _ =>
    have hperm := unanswered_set (b := .transcribe session pc') hi
    refine ⟨forall_mem_set hok trivial, [], Or.inl ⟨rfl, rfl⟩, ?_⟩
    rw [clipID_of_silent (silent_clip es)]
    simpa [Thread.unanswered] using hperm
  | httpClip i m session pc clip clip' tr admitted es hi hs =>
    have hperm := unanswered_set (b := .accepted pc session clip') hi
    refine ⟨forall_mem_set hok trivial, [], Or.inl ⟨rfl, rfl⟩, ?_⟩
    rw [clipID_of_silent fun _ _ => httpClipStep_silent hs]
    cases pc <;> simpa [Thread.unanswered] using hperm

end Step

section Daemon

variable {host : DaemonHost} {s t : DaemonState} {l : DaemonLabel} {out : List DaemonEvent}

/-- **`amrwb.Decode` returns whole samples.** -/
theorem amrwbDecode_even {n : Amrwb.Native} {data pcm : List UInt8} {maxFrames : Int}
    (h : amrwbDecode n data maxFrames = .ok pcm) : pcm.length % 2 = 0 := by
  unfold amrwbDecode at h
  split at h
  · rename_i pcm' hd
    cases h
    have hdvd : 2 ∣ Amrwb.pcmBytesPerFrame := by decide
    exact Nat.mod_eq_zero_of_dvd (Nat.dvd_trans hdvd (Amrwb.length_of_decode hd))
  · split at h <;> cases h
  · cases h
  · cases h

/-- What holds of the threads of every reachable state. -/
def DaemonState.Ok (s : DaemonState) : Prop := ∀ th ∈ s.http.threads, th.Ok

theorem answered_daemon (es : List Event) : answered (es.map Event.daemon) = [] := by
  simp only [answered, List.filterMap_map, List.filterMap_eq_nil_iff]
  intro e _
  cases e <;> rfl

theorem answered_http (es : List HttpEvent) : answered (es.map .http) = es.filterMap HttpEvent.clipID := by
  simp [answered, List.filterMap_map]

/-- The command of a request that `Request` hands on. -/
theorem command_of_dispatch {cfg : Config} {done : Bool} {r : Request} {command : Command}
    (h : dispatch cfg done r = .ok command) :
    (∀ env, command = .start env → r.command = "start" ∧ env = r.env.getD []) ∧
      (∀ o, command = .stop o → r.command = "stop" ∧ o = RequestEnv.originID (r.env.getD [])) ∧
      (command = .status → r.command = "status" ∧ r.env = none) := by
  unfold dispatch at h
  split at h
  · cases h
  · dsimp only at h
    split at h
    · cases h
    · split at h
      · rename_i hs
        cases h
        exact ⟨fun env he => ⟨hs, by cases he; rfl⟩, by simp, by simp⟩
      · split at h
        · rename_i hs
          cases h
          exact ⟨by simp, fun o he => ⟨hs, by cases he; rfl⟩, by simp⟩
        · split at h
          · rename_i hs
            split at h
            · cases h
            · rename_i hn
              cases h
              exact ⟨by simp, by simp, fun _ => ⟨hs, by simpa using hn⟩⟩
          · cases h

/-- A request that `Request` hands on has an allowed environment. -/
theorem allowed_of_dispatch {cfg : Config} {done : Bool} {r : Request} {command : Command}
    (h : dispatch cfg done r = .ok command) : RequestEnv.validateAllowed (r.env.getD []) cfg.allowClientEnv = none := by
  cases hv : RequestEnv.validateAllowed (r.env.getD []) cfg.allowClientEnv with
  | none => rfl
  | some err => cases done <;> simp [dispatch, hv] at h

/-- A start is refused, or takes the next clip ID. -/
theorem start_clip {ch : Host} {s c : Capture} {env : Environment} {es : List Event}
    (h : captureStep ch s (.start env) = some (c, es)) :
    (∃ err, c = s ∧ es = [.reply (some err)]) ∨
      (c.nextClip = s.nextClip + 1 ∧ es = [.reply none] ∧ c.active.map Session.id = some s.nextClip) := by
  cases captureStep_acts h with
  | refuse env err _ => exact Or.inl ⟨err, rfl, rfl⟩
  | beginSession | finalize => exact Or.inr ⟨rfl, rfl, rfl⟩

theorem startedClip_start {r : Request} {done early : Bool} {env : Environment} {c : Capture}
    (hd : dispatch host.cfg done r = .ok (.start env)) :
    startedClip ⟨s, .request r done early, [Event.reply none].map Event.daemon, .join c s.http⟩ =
      c.active.map Session.id := by
  have hcmd := ((command_of_dispatch hd).1 env rfl).1
  simp only [startedClip, hcmd, true_and, List.map_cons, List.map_nil, Event.daemon, if_true]
  rfl

/-- **One step** and the clip IDs. -/
theorem daemonStep_clips (hok : s.Ok) (h : daemonStep host s l = some (t, out)) :
    t.Ok ∧ ∃ ids, Takes s.capture.nextClip t.capture.nextClip ids ∧
      ((startedClip ⟨s, l, out, t⟩).toList ++ answered out ++ t.unanswered).Perm (s.unanswered ++ ids) := by
  have hstay : ∀ {es : List DaemonEvent}, startedClip ⟨s, l, out, t⟩ = none → answered es = [] →
      t.unanswered = s.unanswered →
      ((startedClip ⟨s, l, out, t⟩).toList ++ answered es ++ t.unanswered).Perm (s.unanswered ++ []) := by
    intro es hst hes hu
    rw [hst, hes, hu]
    simp
  cases daemonStep_acts h with
  | fail r done early err _ _ =>
    exact ⟨hok, [], Or.inl ⟨rfl, rfl⟩, hstay (by simp [startedClip]) rfl rfl⟩
  | status r done early _ =>
    exact ⟨hok, [], Or.inl ⟨rfl, rfl⟩, hstay (by simp [startedClip]) rfl rfl⟩
  | start r done early env c es hd hc =>
    rcases start_clip hc with ⟨err, rfl, rfl⟩ | ⟨hn, rfl, ha⟩
    · exact ⟨hok, [], Or.inl ⟨rfl, rfl⟩, hstay (by simp [startedClip, Event.daemon]) rfl rfl⟩
    · refine ⟨hok, [s.capture.nextClip], Or.inr ⟨rfl, hn⟩, ?_⟩
      rw [startedClip_start hd, ha, answered_daemon]
      exact List.perm_append_comm
  | stop r done early o c es hd hc =>
    have hcmd := ((command_of_dispatch hd).2.1 o rfl).1
    have hn : c.nextClip = s.capture.nextClip := by
      cases captureStep_acts hc with
      | ignoreStop | repeatStop | schedule => rfl
      | stopNow => simp
    exact ⟨hok, [], Or.inl ⟨rfl, hn⟩, hstay (by simp [startedClip, hcmd]) (answered_daemon es) rfl⟩
  | capture l c es hl hc =>
    have hn : c.nextClip = s.capture.nextClip := by
      rcases (captureStep_shared hc).1 with hn | ⟨hr, -⟩
      · exact hn
      · rw [hl] at hr
        cases hr
    refine ⟨List.forall_mem_append.mpr ⟨hok, ?_⟩, [], Or.inl ⟨rfl, hn⟩, hstay rfl (answered_daemon es) ?_⟩
    · intro th hth
      obtain ⟨x, -, rfl⟩ := List.mem_map.mp hth
      trivial
    · simp [DaemonState.unanswered, DaemonState.join, Http.spawn, List.filterMap_map, Function.comp_def,
        Thread.unanswered]
  | http l c es hl hc =>
    have hdec : ∀ data maxFrames pcm, host.httpHost.decode data maxFrames = .ok pcm → pcm.length % 2 = 0 :=
      fun _ _ _ hd => amrwbDecode_even hd
    obtain ⟨hth, ids, htake, hperm⟩ := httpStep_clips hdec hok hl hc
    refine ⟨hth, ids, ?_, ?_⟩
    · rw [← s.nextClip_eq]
      exact htake
    · rw [answered_http]
      exact hperm

/-- The clip IDs of a run: those of its accepted starts and 202 responses, and those still to be answered. -/
def DaemonState.clipIDs (h : List DaemonStep) (s : DaemonState) : List Nat :=
  started h ++ answered (outputs h) ++ s.unanswered

theorem clipIDs_of_run {h : List DaemonStep} (r : Run (daemonSystem host) h s) :
    s.Ok ∧ 1 ≤ s.capture.nextClip ∧ (s.clipIDs h).Perm (List.range' 1 (s.capture.nextClip - 1)) := by
  refine Run.induction (P := fun h s => s.Ok ∧ 1 ≤ s.capture.nextClip ∧
    (s.clipIDs h).Perm (List.range' 1 (s.capture.nextClip - 1))) ?_ ?_ r
  · rintro s ⟨early, rfl⟩
    refine ⟨?_, Nat.le_refl 1, .refl _⟩
    intro th hth
    cases hth
  · rintro h s l t out - ⟨hok, hpos, hperm⟩ hst
    obtain ⟨hok', ids, htake, hone⟩ := daemonStep_clips hok hst
    have hn : s.capture.nextClip ≤ t.capture.nextClip := by
      rcases htake with ⟨-, hn⟩ | ⟨-, hn⟩ <;> omega
    refine ⟨hok', Nat.le_trans hpos hn, ?_⟩
    have hsplit : (t.clipIDs (h ++ [⟨s, l, out, t⟩])).Perm
        (started h ++ answered (outputs h) ++
          ((startedClip ⟨s, l, out, t⟩).toList ++ answered out ++ t.unanswered)) := by
      have he : started (h ++ [⟨s, l, out, t⟩]) = started h ++ (startedClip ⟨s, l, out, t⟩).toList := by
        simp only [started, List.filterMap_append, filterMap_cons_toList, List.filterMap_nil, List.append_nil]
      have ha : answered (outputs (h ++ [⟨s, l, out, t⟩])) = answered (outputs h) ++ answered out := by
        simp [answered]
      rw [DaemonState.clipIDs, he, ha]
      simp only [List.append_assoc]
      exact (List.perm_append_comm_assoc _ _ _).append_left _
    have hrange : (List.range' 1 (s.capture.nextClip - 1) ++ ids).Perm (List.range' 1 (t.capture.nextClip - 1)) := by
      rcases htake with ⟨rfl, hn⟩ | ⟨rfl, hn⟩
      · rw [hn, List.append_nil]
      · have he : t.capture.nextClip - 1 = s.capture.nextClip - 1 + 1 := by omega
        have hlast : 1 + (s.capture.nextClip - 1) = s.capture.nextClip := by omega
        rw [he, List.range'_1_concat, hlast]
    refine hsplit.trans ((hone.append_left _).trans ?_)
    rw [← List.append_assoc]
    exact (hperm.append_right _).trans hrange

/-! ## Rejections -/

/-- The handler of request `i` takes a clip ID. -/
def Allocates (i : Nat) (st : DaemonStep) : Prop :=
  st.label = .http (.handler i) ∧ st.post.capture.nextClip ≠ st.pre.capture.nextClip

/-- The request has a clip ID. -/
def Thread.hasClip : Thread → Bool
  | .handling _ (.newSession _ _ _) | .accepted _ _ _ => true
  | _ => false

/-- The request has its response, which is not 202. -/
def Thread.isRejected : Thread → Bool
  | .handling _ (.deferred _) | .handling _ .returned => true
  | _ => false

def DaemonState.HasClip (s : DaemonState) (i : Nat) : Prop := ∃ th, s.http.threads[i]? = some th ∧ th.hasClip = true

def DaemonState.Rejected (s : DaemonState) (i : Nat) : Prop :=
  ∃ th, s.http.threads[i]? = some th ∧ th.isRejected = true

/-- What a run has done to the clip ID of each request. -/
def ClipHistory (h : List DaemonStep) (s : DaemonState) : Prop :=
  ∀ i, ((∃ st ∈ h, Allocates i st) → s.HasClip i) ∧
    ((∃ resp, .http (.respond i resp) ∈ outputs h ∧ resp.status ≠ 202) → s.Rejected i)

/-- **What a handler does for its request.** -/
theorem handlerStep_history {hh : HttpHost} {cancelled : Bool} {r : HttpRequest} {admitted admitted' : Int}
    {n n' i : Nat} {pc : HandlerPc} {th : Thread} {es : List HttpEvent} (hok : (Thread.handling r pc).Ok)
    (h : handlerStep hh cancelled admitted n i r pc = some (admitted', n', th, es)) :
    (n' ≠ n ∨ (Thread.handling r pc).hasClip = true → th.hasClip = true) ∧
      ((Thread.handling r pc).isRejected = true → th.isRejected = true) ∧
      ∀ j resp, .respond j resp ∈ es → j = i ∧ th.isRejected = true := by
  cases pc with
  | allocate env pcm =>
    cases h
    simp [Thread.hasClip, Thread.isRejected]
  | newSession env pcm id =>
    obtain ⟨session, hs, -⟩ := newRecordedSession_ok hok id env
    simp only [handlerStep, hs] at h
    cases h
    simp [Thread.hasClip, Thread.isRejected]
  | respond resp u =>
    cases h
    simp [Thread.hasClip, Thread.isRejected]
  | check | increment env | checkContext env pcm | deferred u =>
    simp only [handlerStep] at h
    split at h <;> cases h <;> simp [Thread.hasClip, Thread.isRejected]
  | readAudio env =>
    simp only [handlerStep] at h
    split at h <;> cases h <;> simp [Thread.hasClip, Thread.isRejected]
  | refuse =>
    cases h
    simp [Thread.hasClip, Thread.isRejected]
  | returned => cases h

/-- What is to be checked of a step. -/
theorem ClipHistory.snoc {h : List DaemonStep} (hh : ClipHistory h s)
    (hkeep : ∀ i, (s.HasClip i → t.HasClip i) ∧ (s.Rejected i → t.Rejected i))
    (halloc : ∀ i, Allocates i ⟨s, l, out, t⟩ → t.HasClip i)
    (hout : ∀ i resp, .http (.respond i resp) ∈ out → resp.status = 202 ∨ t.Rejected i) :
    ClipHistory (h ++ [⟨s, l, out, t⟩]) t := by
  intro i
  constructor
  · rintro ⟨st, hm, hst⟩
    rcases List.mem_append.mp hm with hm | hm
    · exact (hkeep i).1 ((hh i).1 ⟨st, hm, hst⟩)
    · rw [List.mem_singleton.mp hm] at hst
      exact halloc i hst
  · rintro ⟨resp, hm, hne⟩
    rw [outputs_snoc, List.mem_append] at hm
    rcases hm with hm | hm
    · exact (hkeep i).2 ((hh i).2 ⟨resp, hm, hne⟩)
    · exact (hout i resp hm).resolve_left hne

/-- When one thread moves, the others show what they showed. -/
theorem keep_of_set {a b : Thread} {i : Nat} (hi : s.http.threads[i]? = some a)
    (ht : t.http.threads = s.http.threads.set i b) (hc : a.hasClip = true → b.hasClip = true)
    (hr : a.isRejected = true → b.isRejected = true) (j : Nat) :
    (s.HasClip j → t.HasClip j) ∧ (s.Rejected j → t.Rejected j) := by
  obtain ⟨hlt, -⟩ := List.getElem?_eq_some_iff.mp hi
  have hmove : ∀ p : Thread → Bool, (p a = true → p b = true) →
      (∃ th, s.http.threads[j]? = some th ∧ p th = true) → ∃ th, t.http.threads[j]? = some th ∧ p th = true := by
    rintro p hp ⟨th, hth, hpt⟩
    rw [ht]
    by_cases hij : i = j
    · subst hij
      rw [hi] at hth
      cases hth
      exact ⟨b, List.getElem?_set_self hlt, hp hpt⟩
    · exact ⟨th, by rwa [List.getElem?_set_ne hij], hpt⟩
  exact ⟨hmove _ hc, hmove _ hr⟩

/-- New threads have neither. -/
theorem keep_of_append (ths : List Thread) (ht : t.http.threads = s.http.threads ++ ths) (j : Nat) :
    (s.HasClip j → t.HasClip j) ∧ (s.Rejected j → t.Rejected j) := by
  have hmove : ∀ p : Thread → Bool,
      (∃ th, s.http.threads[j]? = some th ∧ p th = true) → ∃ th, t.http.threads[j]? = some th ∧ p th = true := by
    rintro p ⟨th, hth, hpt⟩
    rw [ht]
    exact ⟨th, by rwa [List.getElem?_append_left (List.getElem?_eq_some_iff.mp hth).1], hpt⟩
  exact ⟨hmove _, hmove _⟩

/-- **One step** keeps what the history says about the requests. -/
theorem clipHistory_step {h : List DaemonStep} (hok : s.Ok) (hh : ClipHistory h s)
    (hst : daemonStep host s l = some (t, out)) : ClipHistory (h ++ [⟨s, l, out, t⟩]) t := by
  cases daemonStep_acts hst with
  | fail | status =>
    exact hh.snoc (fun _ => ⟨id, id⟩) (fun i ha => absurd rfl ha.2) (by simp)
  | start r done early env c es _ _ | stop r done early o c es _ _ =>
    refine hh.snoc (fun _ => ⟨id, id⟩) (fun i ha => ?_) fun i resp hm => ?_
    · cases ha.1
    · obtain ⟨e, -, he⟩ := List.mem_map.mp hm
      cases e <;> cases he
  | capture l c es _ _ =>
    refine hh.snoc (keep_of_append ((transcribed es).map fun x => .transcribe x .transcribe) rfl)
      (fun i ha => ?_) fun i resp hm => ?_
    · cases ha.1
    · obtain ⟨e, -, he⟩ := List.mem_map.mp hm
      cases e <;> cases he
  | http l c es hl hc =>
    have hmem : ∀ {i resp}, .http (.respond i resp) ∈ es.map DaemonEvent.http → .respond i resp ∈ es := by
      intro i resp hm
      obtain ⟨e, he, heq⟩ := List.mem_map.mp hm
      cases heq; exact he
    cases httpStep_acts hc with
    | transcribe | allocateClip | cancel => cases hl
    | request r =>
      exact hh.snoc (keep_of_append [.handling r .check] rfl) (fun i ha => by cases ha.1) (by simp)
    | handler i r pc admitted n' th es hi hs =>
      obtain ⟨hclip, hrej, hres⟩ := handlerStep_history (hok _ (List.mem_of_getElem? hi)) hs
      obtain ⟨hlt, -⟩ := List.getElem?_eq_some_iff.mp hi
      have hself : (s.http.threads.set i th)[i]? = some th := List.getElem?_set_self hlt
      refine hh.snoc (keep_of_set hi rfl (fun hc => hclip (Or.inr hc)) hrej) ?_ ?_
      · rintro j ⟨hj, hne⟩
        cases hj
        exact ⟨th, hself, hclip (Or.inl (by rw [s.nextClip_eq]; exact hne))⟩
      · intro j resp hm
        obtain ⟨rfl, hr⟩ := hres j resp (hmem hm)
        exact Or.inr ⟨th, hself, hr⟩
    | respond i session clip pc pc' es hi hs =>
      refine hh.snoc (keep_of_set hi rfl (fun _ => rfl) (fun hc => by cases hc)) ?_ ?_
      · rintro j ⟨-, hne⟩
        exact absurd s.nextClip_eq hne
      · intro j resp hm
        cases pc with
        | respond =>
          cases hs
          simp only [List.map_cons, List.map_nil, List.mem_singleton, DaemonEvent.http.injEq,
            HttpEvent.respond.injEq] at hm
          exact Or.inl (by rw [hm.2])
        | returned => cases hs
    | localClip i m session pc pc' tr es hi _ =>
      refine hh.snoc (keep_of_set hi rfl (fun hc => by cases hc) (fun hc => by cases hc)) ?_ ?_
      · rintro j ⟨-, hne⟩
        exact absurd s.nextClip_eq hne
      · intro j resp hm
        exact absurd (hmem hm) (silent_clip _ j resp)
    | httpClip i m session pc clip clip' tr admitted es hi hs =>
      refine hh.snoc (keep_of_set hi rfl (fun _ => rfl) (fun hc => by cases hc)) ?_ ?_
      · rintro j ⟨-, hne⟩
        exact absurd s.nextClip_eq hne
      · intro j resp hm
        exact absurd (hmem hm) (httpClipStep_silent hs)

theorem clipHistory_of_run {h : List DaemonStep} (r : Run (daemonSystem host) h s) : ClipHistory h s := by
  refine (Run.induction (P := fun h s => s.Ok ∧ ClipHistory h s) ?_ ?_ r).2
  · rintro s ⟨early, rfl⟩
    refine ⟨?_, ?_⟩
    · intro th hth
      cases hth
    · intro i
      simp
  · rintro h s l t out - ⟨hok, hh⟩ hst
    exact ⟨(daemonStep_clips hok hst).1, clipHistory_step hok hh hst⟩

theorem ok_of_run {h : List DaemonStep} (r : Run (daemonSystem host) h s) : s.Ok := (clipIDs_of_run r).1

/-- A clip ID is taken by an accepted start or by a handler. -/
theorem takes_of_step (h : daemonStep host s l = some (t, out)) (hn : t.capture.nextClip ≠ s.capture.nextClip) :
    startedClip ⟨s, l, out, t⟩ = some s.capture.nextClip ∨ ∃ i, l = .http (.handler i) := by
  cases daemonStep_acts h with
  | fail | status => exact absurd rfl hn
  | start r done early env c es hd hc =>
    rcases start_clip hc with ⟨err, rfl, rfl⟩ | ⟨-, rfl, ha⟩
    · exact absurd rfl hn
    · exact Or.inl ((startedClip_start hd).trans ha)
  | stop r done early o c es hd hc =>
    cases captureStep_acts hc with
    | ignoreStop | repeatStop | schedule => exact absurd rfl hn
    | stopNow => exact absurd (Capture.nextClip_finish ..) hn
  | capture l c es hl hc =>
    rcases (captureStep_shared hc).1 with he | ⟨hr, -⟩
    · exact absurd he hn
    · rw [hl] at hr
      cases hr
  | http l c es hl hc =>
    cases httpStep_acts hc with
    | handler i => exact Or.inr ⟨i, rfl⟩
    | transcribe | allocateClip | cancel => cases hl
    | request | respond | localClip | httpClip => exact absurd s.nextClip_eq hn

/-- **A start** is answered with an error and leaves the counter, or it takes the next clip ID. -/
theorem start_answered {r : Request} {done early : Bool}
    (h : daemonStep host s (.request r done early) = some (t, out)) (hcmd : r.command = "start") :
    (∃ err, out = [.answer (some err) none] ∧ t.capture.nextClip = s.capture.nextClip) ∨
      (out = [.answer none none] ∧ startedClip ⟨s, .request r done early, out, t⟩ = some s.capture.nextClip ∧
        t.capture.nextClip = s.capture.nextClip + 1) := by
  cases daemonStep_acts h with
  | fail _ _ _ err => exact Or.inl ⟨err, rfl, rfl⟩
  | start _ _ _ env c es hd hc =>
    rcases start_clip hc with ⟨err, rfl, rfl⟩ | ⟨hn, rfl, ha⟩
    · exact Or.inl ⟨err, rfl, rfl⟩
    · exact Or.inr ⟨rfl, (startedClip_start hd).trans ha, hn⟩
  | stop _ _ _ o c es hd hc =>
    rw [((command_of_dispatch hd).2.1 o rfl).1] at hcmd
    exact absurd hcmd (by decide)
  | status _ _ _ hd =>
    rw [((command_of_dispatch hd).2.2 rfl).1] at hcmd
    exact absurd hcmd (by decide)

/-- The counter is moved by an accepted start, or by the handler of a request that gets no response but 202. -/
theorem takes_of_run {h : List DaemonStep} (r : Run (daemonSystem host) h s) {st : DaemonStep} (hm : st ∈ h)
    (hne : st.post.capture.nextClip ≠ st.pre.capture.nextClip) :
    startedClip st = some st.pre.capture.nextClip ∨ ∃ i, Allocates i st ∧
      ∀ resp, .http (.respond i resp) ∈ outputs h → resp.status = 202 := by
  obtain ⟨s', l, out, t'⟩ := st
  rcases takes_of_step (r.mem_step hm).2 hne with hst | ⟨i, rfl⟩
  · exact Or.inl hst
  · refine Or.inr ⟨i, ⟨rfl, hne⟩, fun resp hresp => ?_⟩
    -- a request with a clip ID is not rejected
    by_contra hstatus
    obtain ⟨th, hth, hc⟩ := (clipHistory_of_run r i).1 ⟨_, hm, rfl, hne⟩
    obtain ⟨th', hth', hr⟩ := (clipHistory_of_run r i).2 ⟨resp, hresp, hstatus⟩
    rw [hth] at hth'
    cases hth'
    cases th with
    | transcribe => cases hc
    | handling r pc =>
      cases pc with
      | newSession => cases hr
      | check | increment | refuse | readAudio | checkContext | allocate | respond | deferred | returned => cases hc
    | accepted => cases hr

end Daemon

/-- **Clip IDs are gap-free.** After any run the IDs below `nextClip` are those of the accepted starts, of the 202
responses and of the clips whose 202 is still to be written, each once. Every start that is answered without an error
has the next ID, every other one leaves the counter. The counter is moved only by an accepted start and by the handler
of a request that gets no response but 202; once that has an ID, `NewRecordedSession` succeeds. -/
theorem clip_ids_gap_free {host : DaemonHost} {h : List DaemonStep} {s : DaemonState}
    (r : Run (daemonSystem host) h s) :
    (started h ++ answered (outputs h) ++ s.unanswered).Perm (List.range' 1 (s.capture.nextClip - 1)) ∧
    (∀ st ∈ h, ∀ r done early, st.label = .request r done early → r.command = "start" →
      (∃ err, st.out = [.answer (some err) none] ∧ st.post.capture.nextClip = st.pre.capture.nextClip) ∨
      (st.out = [.answer none none] ∧ startedClip st = some st.pre.capture.nextClip ∧
        st.post.capture.nextClip = st.pre.capture.nextClip + 1)) ∧
    (∀ st ∈ h, st.post.capture.nextClip ≠ st.pre.capture.nextClip →
      startedClip st = some st.pre.capture.nextClip ∨ ∃ i, Allocates i st ∧
        ∀ resp, .http (.respond i resp) ∈ outputs h → resp.status = 202) ∧
    (∀ (i : Nat) req env pcm id, s.http.threads[i]? = some (.handling req (.newSession env pcm id)) →
      ∃ session, newRecordedSession id env pcm = .ok session) := by
  refine ⟨(clipIDs_of_run r).2.2, fun st hm req done early hl hcmd => ?_,
    fun st hm hne => takes_of_run r hm hne, ?_⟩
  · obtain ⟨s', l, out, t'⟩ := st
    cases hl
    exact start_answered (r.mem_step hm).2 hcmd
  intro i req env pcm id hi
  have heven : pcm.length % 2 = 0 := ok_of_run r _ (List.mem_of_getElem? hi)
  obtain ⟨session, hs, -⟩ := newRecordedSession_ok heven id env
  exact ⟨session, hs⟩

/-- A start and a submission. -/
theorem clip_ids_gap_free_submit : ∃ h s,
    Run (daemonSystem ⟨{ maxDuration := second }, fun _ => false, Amrwb.silence, fun _ => .ok []⟩) h s ∧
    (started h ++ answered (outputs h) ++ s.unanswered).Perm [1, 2] ∧ started h = [1] ∧
    answered (outputs h) = [2] := by
  obtain ⟨h, s, r, hq⟩ := Run.exists_of_exec
    (M := daemonSystem ⟨{ maxDuration := second }, fun _ => false, Amrwb.silence, fun _ => .ok []⟩) ⟨false, rfl⟩
    ([.request ⟨"start", some [(RequestEnv.xdgSessionIDName, "3")]⟩ false false] ++
      (submit 0).map .http ++ [.http (.handler 0)])
    (fun h s => s.capture.nextClip = 3 ∧ started h = [1] ∧ answered (outputs h) = [2]) (by decide +kernel)
  obtain ⟨hn, hst, ha⟩ := of_decide_eq_true hq
  have hperm := (clip_ids_gap_free r).1
  rw [hn] at hperm
  exact ⟨h, s, r, hperm, hst, ha⟩

end Talk2Text.Daemon
