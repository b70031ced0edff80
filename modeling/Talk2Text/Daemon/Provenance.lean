import Talk2Text.Daemon.ClipIDs

/-!
# Where an environment comes from

A session keeps the environment of the request that took its clip ID, and so does everything that is made of it: the
tasks and the desired stream environment of the capture, the reports of the stream manager, the goroutines of the HTTP
side, and all notifications. `P id environment` says that the environment belongs to clip `id`.

- `captureStep_supplied`, `httpStep_supplied`: what a step does, when `P` holds of the clip IDs that it takes;
- `supplied_of_run`: in a run of the daemon every environment is that of a request of the run, and every session has
  that of its own request.
-/

namespace Talk2Text.Daemon

open Sys
open Server (Request)

/-- `encodedEnvironment` of `NewSession`. -/
def encodedEnvironment (environment : Environment) : List String :=
  environment.map fun (name, value) => name ++ "=" ++ value

/-! ## Supplied environments -/

section Supplied

variable (P : Nat → List String → Prop)

/-- The environment belongs to some clip. -/
def Known (environment : List String) : Prop := ∃ id, P id environment

def Report.Supplied : Report → Prop
  | .warm _ environment => Known P environment
  | .recording _ s => ∀ a, s = some a → P a.id a.environment

def ManagerPc.Supplied : ManagerPc → Prop
  | .mustClose r | .closing (.report r) | .reporting r => r.Supplied P
  | _ => True

/-- The environment counts only while the stream is desired warm. -/
structure Control.Supplied (c : Control) : Prop where
  desired : c.desiredStreamState = .warm → Known P c.desiredStreamEnvironment
  pc : c.pc.Supplied P

def Task.session : Task → Session
  | .processStoppedSession s | .recordStart s | .maxDuration s _ | .pcmError s _ => s

structure Capture.Supplied (s : Capture) : Prop where
  active : ∀ a, s.active = some a → P a.id a.environment
  tasks : ∀ τ ∈ s.tasks, P τ.session.id τ.session.environment
  ctl : s.ctl.Supplied P

/-- The environment of a submission before it has a clip ID is the one that was accepted. -/
def Thread.Supplied (host : HttpHost) : Thread → Prop
  | .transcribe s _ | .accepted _ s _ => P s.id s.environment
  | .handling r pc =>
    match pc with
    | .increment environment | .readAudio environment | .checkContext environment _ | .allocate environment _ =>
      httpRequestEnvironment host r.environment = .ok environment
    | .newSession environment _ id => P id (encodedEnvironment environment)
    | _ => True

def Http.Supplied (host : HttpHost) (t : Http) : Prop := ∀ th ∈ t.threads, th.Supplied P host

def StreamEvent.Supplied : StreamEvent → Prop
  | .logNotifyError environment _ _ => Known P environment
  | _ => True

def Event.Supplied : Event → Prop
  | .notify environment _ _ _ => Known P environment
  | .transcribe s => P s.id s.environment
  | .stream e => e.Supplied P
  | _ => True

def ClipEvent.Supplied : ClipEvent → Prop
  | .notify environment _ _ _ => Known P environment
  | .processTranscript s _ _ => P s.id s.environment
  | .log _ => True

def HttpEvent.Supplied : HttpEvent → Prop
  | .clip e => e.Supplied P
  | _ => True

def DaemonEvent.Supplied : DaemonEvent → Prop
  | .answer _ _ => True
  | .capture e => e.Supplied P
  | .http e => e.Supplied P

end Supplied

/-! ## The stream manager -/

section Manager

variable {P : Nat → List String → Prop} {cancelled : Bool} {active : Option Session} {c c' : Control} {m : Move}
  {es : List StreamEvent} {b : Bool}

theorem report_supplied {r : Report} (h : r.Supplied P) : ∀ e ∈ r.emit, e.Supplied P := by
  cases r with
  | warm op environment => cases op <;> exact List.forall_mem_singleton.mpr h
  | recording op s =>
    cases s with
    | none => exact List.forall_mem_singleton.mpr trivial
    | some a => cases op <;> exact List.forall_mem_singleton.mpr ⟨a.id, h a rfl⟩

theorem givenUp_supplied {r : Report} (op : FailedOp) (h : r.Supplied P) : (op.givenUp r).Supplied P := by
  cases op <;> exact h

/-- **The manager** reports with the environment of the session that it gives up. -/
theorem moves_supplied (hm : Moves cancelled active c m c' es b)
    (hactive : ∀ a, active = some a → P a.id a.environment) (h : c.Supplied P) :
    c'.Supplied P ∧ ∀ e ∈ es, e.Supplied P := by
  have hnil : ∀ e ∈ ([] : List StreamEvent), e.Supplied P := List.forall_mem_nil _
  cases hm with
  | done | receive | read | stayOff | openNew | keepOpen | openErr | callErr | callOk | changed | exit =>
    exact ⟨⟨h.desired, trivial⟩, hnil⟩
  | closeOff | openOk | call | callNil | closeNil | reportNil | exitClose =>
    exact ⟨⟨h.desired, trivial⟩, List.forall_mem_singleton.mpr trivial⟩
  | giveUpWarm op _ hd => exact ⟨⟨nofun, givenUp_supplied op (h.desired hd)⟩, hnil⟩
  | giveUpRecording op => exact ⟨⟨nofun, givenUp_supplied op hactive⟩, hnil⟩
  | close r st hpc =>
    have hr := h.pc
    rw [hpc] at hr
    exact ⟨⟨h.desired, hr⟩, List.forall_mem_singleton.mpr trivial⟩
  | closed k ok hpc =>
    have hk := h.pc
    rw [hpc] at hk
    refine ⟨⟨h.desired, ?_⟩, hnil⟩
    cases k with
    | select | exit => trivial
    | report r => exact hk
  | report r hpc =>
    have hr := h.pc
    rw [hpc] at hr
    exact ⟨⟨h.desired, trivial⟩, report_supplied hr⟩

end Manager

/-! ## The capture -/

section Capture

variable {P : Nat → List String → Prop} {host : Host} {s t : Capture} {l : Label} {out : List Event}

theorem task_supplied {τ : Task} (h : P τ.session.id τ.session.environment) : ∀ e ∈ τ.run, e.Supplied P := by
  have hknown : Known P τ.session.environment := ⟨_, h⟩
  cases τ with
  | processStoppedSession s =>
    simp only [Task.run, List.forall_mem_append, List.forall_mem_singleton]
    refine ⟨?_, h⟩
    split
    · exact List.forall_mem_singleton.mpr hknown
    · exact List.forall_mem_nil _
  | recordStart s => exact List.forall_mem_singleton.mpr hknown
  | maxDuration s wasEmpty =>
    simp only [Task.run, List.forall_mem_append, List.forall_mem_cons]
    refine ⟨?_, hknown, h, List.forall_mem_nil _⟩
    split
    · exact List.forall_mem_singleton.mpr hknown
    · exact List.forall_mem_nil _
  | pcmError s err =>
    exact List.forall_mem_cons.mpr ⟨trivial, List.forall_mem_singleton.mpr hknown⟩

theorem off_supplied {c : Control} (h : c.Supplied P) : c.desireStreamOff.Supplied P := ⟨nofun, h.pc⟩

theorem warm_supplied {c : Control} {environment : List String} (h : c.Supplied P) (he : Known P environment) :
    (c.desireStreamWarm environment).Supplied P := ⟨fun _ => he, h.pc⟩

theorem recording_supplied {c : Control} (h : c.Supplied P) : c.desireStreamRecording.Supplied P := ⟨nofun, h.pc⟩

theorem addTask_supplied {τ : Task} (h : s.Supplied P) (hτ : P τ.session.id τ.session.environment) :
    (s.addTask τ).Supplied P :=
  ⟨h.active, List.forall_mem_append.mpr ⟨h.tasks, List.forall_mem_singleton.mpr hτ⟩, h.ctl⟩

theorem finish_supplied {a : Session} (h : s.Supplied P) (ha : P a.id a.environment) : (s.finish a).Supplied P := by
  refine ⟨by simp, ?_, ?_⟩
  · rw [Capture.tasks_finish]
    exact List.forall_mem_append.mpr ⟨h.tasks, List.forall_mem_singleton.mpr ha⟩
  · rw [Capture.ctl_finish]
    split
    · exact off_supplied (warm_supplied h.ctl ⟨_, ha⟩)
    · exact warm_supplied h.ctl ⟨_, ha⟩

/-- A new session has the environment of its start. -/
theorem beginSession_supplied {environment : Environment} (h : s.Supplied P)
    (hP : P s.nextClip (encodedEnvironment environment)) : (s.beginSession environment).Supplied P := by
  refine ⟨fun a ha => ?_, h.tasks, recording_supplied h.ctl⟩
  cases ha
  exact hP

theorem endRecording_supplied {environment : List String} (h : s.Supplied P) (he : Known P environment) :
    (s.endRecording environment).Supplied P := ⟨nofun, h.tasks, warm_supplied h.ctl he⟩

/-- Audio leaves a session with its request. -/
theorem onPCM_supplied {tooLarge : Nat → Bool} {a a' : Session} {pcm : List UInt8} {err : Option String}
    (ha : P a.id a.environment) (hon : a.onPCM tooLarge pcm = (a', err)) : P a'.id a'.environment := by
  have hid := a.id_onPCM tooLarge pcm
  have henv := a.environment_onPCM tooLarge pcm
  rw [hon] at hid henv
  rw [hid, henv]
  exact ha

/-- **A step of the capture** adds no environment but that of an accepted start. -/
theorem captureStep_supplied (hs : captureStep host s l = some (t, out)) (h : s.Supplied P)
    (hstart : ∀ environment, l = .start environment → out = [.reply none] →
      P s.nextClip (encodedEnvironment environment)) :
    t.Supplied P ∧ ∀ e ∈ out, e.Supplied P := by
  have hnil : ∀ e ∈ ([] : List Event), e.Supplied P := List.forall_mem_nil _
  have hreply : ∀ err, ∀ e ∈ [Event.reply err], e.Supplied P := fun err => List.forall_mem_singleton.mpr trivial
  cases captureStep_acts hs with
  | refuse | ignoreStop | repeatStop => exact ⟨h, hreply _⟩
  | beginSession environment => exact ⟨beginSession_supplied h (hstart environment rfl rfl), hreply _⟩
  | finalize environment a _ ha =>
    exact ⟨addTask_supplied (beginSession_supplied h (hstart environment rfl rfl)) (h.active a ha), hreply _⟩
  | schedule => exact ⟨⟨h.active, h.tasks, h.ctl⟩, hreply _⟩
  | stopNow o early a ha => exact ⟨finish_supplied h (h.active a ha), hreply _⟩
  | stopTimerExpires | staleStop | warmTimerExpires | warmBusy | cancel | allocateClip =>
    exact ⟨⟨h.active, h.tasks, h.ctl⟩, hnil⟩
  | ignoreAudio => exact ⟨h, hnil⟩
  | delayedStop i k tm τ a _ _ ha =>
    exact ⟨finish_supplied ⟨h.active, h.tasks, h.ctl⟩ (h.active a ha), hnil⟩
  | warmOff => exact ⟨⟨h.active, h.tasks, off_supplied h.ctl⟩, hnil⟩
  | pcmError pcm a a' err _ ha hon =>
    have ha' := onPCM_supplied (h.active a ha) hon
    exact ⟨addTask_supplied (endRecording_supplied h ⟨_, ha'⟩) ha', hnil⟩
  | maxDuration pcm a a' wasEmpty _ ha hon =>
    have ha' := onPCM_supplied (h.active a ha) hon
    exact ⟨addTask_supplied (endRecording_supplied h ⟨_, ha'⟩) ha', hnil⟩
  | append pcm a a' τs _ ha hon _ hτs =>
    have ha' := onPCM_supplied (h.active a ha) hon
    refine ⟨⟨fun b hb => ?_, List.forall_mem_append.mpr ⟨h.tasks, ?_⟩, h.ctl⟩, hnil⟩
    · cases hb
      exact ha'
    · rcases hτs with rfl | rfl
      · exact List.forall_mem_nil _
      · exact List.forall_mem_singleton.mpr ha'
  | shutdown => exact ⟨⟨nofun, h.tasks, off_supplied h.ctl⟩, hnil⟩
  | move m c es hm =>
    obtain ⟨hc, hes⟩ := moves_supplied hm h.active h.ctl
    exact ⟨⟨h.active, h.tasks, hc⟩, List.forall_mem_map.mpr hes⟩
  | discard m c es hm =>
    obtain ⟨hc, hes⟩ := moves_supplied hm h.active h.ctl
    exact ⟨⟨nofun, h.tasks, hc⟩, List.forall_mem_map.mpr hes⟩
  | task i τ hτ =>
    exact ⟨⟨h.active, fun τ' hτ' => h.tasks τ' (List.mem_of_mem_eraseIdx hτ'), h.ctl⟩,
      task_supplied (h.tasks τ (List.mem_of_getElem? hτ))⟩

end Capture

/-! ## The HTTP side -/

section Http

variable {P : Nat → List String → Prop} {host : HttpHost} {s t : Http} {l : HttpLabel} {out : List HttpEvent}

theorem finishLong_supplied {cancelled : Bool} {session : Session} {result : WhisperResult}
    (h : P session.id session.environment) : ∀ e ∈ finishLong cancelled session result, e.Supplied P := by
  have hknown : Known P session.environment := ⟨_, h⟩
  cases result with
  | text text => exact List.forall_mem_cons.mpr ⟨hknown, List.forall_mem_singleton.mpr h⟩
  | error err =>
    cases cancelled with
    | true => exact List.forall_mem_nil _
    | false => exact List.forall_mem_cons.mpr ⟨trivial, List.forall_mem_singleton.mpr hknown⟩

theorem longStep_supplied {cancelled : Bool} {tr tr' : Transcriptions} {session : Session} {pc : LongPc}
    {pc' : Option LongPc} {m : ClipMove} {es : List ClipEvent} (h : P session.id session.environment)
    (hs : longStep cancelled tr session pc m = some (tr', pc', es)) : ∀ e ∈ es, e.Supplied P := by
  unfold longStep at hs
  split at hs
  · cases hs
    exact List.forall_mem_singleton.mpr ⟨session.id, h⟩
  · cases hs
    exact List.forall_mem_nil _
  · split at hs <;> cases hs <;> exact List.forall_mem_nil _
  · cases hs
    exact List.forall_mem_nil _
  · cases hs
    exact finishLong_supplied h
  · cases hs

theorem localStep_supplied {cfg : Config} {cancelled : Bool} {tr tr' : Transcriptions} {session : Session}
    {pc pc' : LocalPc} {m : ClipMove} {es : List ClipEvent} (h : P session.id session.environment)
    (hs : localStep cfg cancelled tr session pc m = some (tr', pc', es)) : ∀ e ∈ es, e.Supplied P := by
  unfold localStep at hs
  split at hs
  · split at hs
    · cases hs
      exact List.forall_mem_singleton.mpr h
    · cases hs
      exact List.forall_mem_nil _
  · cases hs
    exact List.forall_mem_nil _
  · obtain ⟨⟨tr₁, pc₁, es₁⟩, hl, hs⟩ := Option.map_eq_some_iff.mp hs
    cases hs
    exact longStep_supplied h hl
  · cases hs

theorem httpClipStep_supplied {cfg : Config} {cancelled : Bool} {tr tr' : Transcriptions} {n n' : Int} {i : Nat}
    {session : Session} {pc pc' : HttpClipPc} {m : ClipMove} {es : List HttpEvent}
    (h : P session.id session.environment)
    (hs : httpClipStep cfg cancelled tr n i session pc m = some (tr', n', pc', es)) : ∀ e ∈ es, e.Supplied P := by
  have hnil : ∀ e ∈ ([] : List HttpEvent), e.Supplied P := List.forall_mem_nil _
  unfold httpClipStep at hs
  split at hs
  · cases hs; exact hnil
  · cases hs; exact List.forall_mem_singleton.mpr trivial
  · cases hs; exact List.forall_mem_singleton.mpr h
  · split at hs <;> cases hs <;> exact hnil
  · split at hs
    · cases hs; exact hnil
    · cases hs
  · split at hs
    · cases hs; exact hnil
    · cases hs
  · cases hs; exact List.forall_mem_singleton.mpr trivial
  · obtain ⟨⟨tr₁, pc₁, es₁⟩, hl, hs⟩ := Option.map_eq_some_iff.mp hs
    cases hs
    exact List.forall_mem_map.mpr (longStep_supplied h hl)
  · cases hs

/-- What passes the checks of a handler is an accepted environment. -/
theorem environment_of_checkRequest {cancelled : Bool} {r : HttpRequest} {environment : Environment}
    (h : checkRequest host cancelled r = .ok environment) :
    httpRequestEnvironment host r.environment = .ok environment := by
  unfold checkRequest at h
  repeat' split at h
  all_goals cases h
  assumption

/-- **A handler** keeps the accepted environment for the clip ID that it takes. -/
theorem handlerStep_supplied {cancelled : Bool} {admitted admitted' : Int} {n n' i : Nat} {r : HttpRequest}
    {pc : HandlerPc} {th : Thread} {es : List HttpEvent} (h : (Thread.handling r pc).Supplied P host)
    (hP : ∀ environment pcm, pc = .allocate environment pcm → P n (encodedEnvironment environment))
    (hs : handlerStep host cancelled admitted n i r pc = some (admitted', n', th, es)) :
    th.Supplied P host ∧ ∀ e ∈ es, e.Supplied P := by
  have hnil : ∀ e ∈ ([] : List HttpEvent), e.Supplied P := List.forall_mem_nil _
  cases pc with
  | check =>
    simp only [handlerStep] at hs
    split at hs
    · cases hs; exact ⟨trivial, hnil⟩
    · rename_i environment hc
      cases hs; exact ⟨environment_of_checkRequest hc, hnil⟩
  | increment environment =>
    simp only [handlerStep] at hs
    split at hs
    · cases hs; exact ⟨trivial, hnil⟩
    · cases hs; exact ⟨h, List.forall_mem_singleton.mpr trivial⟩
  | refuse => cases hs; exact ⟨trivial, hnil⟩
  | readAudio environment =>
    simp only [handlerStep] at hs
    split at hs
    · cases hs; exact ⟨trivial, List.forall_mem_map.mpr fun _ _ => trivial⟩
    · cases hs; exact ⟨h, hnil⟩
  | checkContext environment pcm =>
    simp only [handlerStep] at hs
    split at hs
    · cases hs; exact ⟨trivial, hnil⟩
    · cases hs; exact ⟨h, hnil⟩
  | allocate environment pcm => cases hs; exact ⟨hP environment pcm rfl, hnil⟩
  | newSession environment pcm clipID =>
    simp only [handlerStep] at hs
    split at hs
    · cases hs; exact ⟨trivial, List.forall_mem_singleton.mpr trivial⟩
    · rename_i session hn
      cases hs
      refine ⟨?_, hnil⟩
      unfold newRecordedSession at hn
      split at hn
      · cases hn
      · cases hn; exact h
  | respond => cases hs; exact ⟨trivial, List.forall_mem_singleton.mpr trivial⟩
  | deferred unfinished =>
    simp only [handlerStep] at hs
    split at hs
    · cases hs; exact ⟨trivial, List.forall_mem_singleton.mpr trivial⟩
    · cases hs; exact ⟨trivial, hnil⟩
  | returned => cases hs

/-- **A step of the HTTP side** adds no environment but that of a submission that takes a clip ID. -/
theorem httpStep_supplied (hs : httpStep host s l = some (t, out)) (h : s.Supplied P host)
    (htranscribe : ∀ session, l = .transcribe session → P session.id session.environment)
    (hallocate : ∀ i r environment pcm, l = .handler i → s.threads[i]? = some (.handling r (.allocate environment pcm)) →
      P s.nextClip (encodedEnvironment environment)) :
    t.Supplied P host ∧ ∀ e ∈ out, e.Supplied P := by
  have hnil : ∀ e ∈ ([] : List HttpEvent), e.Supplied P := List.forall_mem_nil _
  cases httpStep_acts hs with
  | transcribe session =>
    exact ⟨List.forall_mem_append.mpr ⟨h, List.forall_mem_singleton.mpr (htranscribe session rfl)⟩, hnil⟩
  | request r => exact ⟨List.forall_mem_append.mpr ⟨h, List.forall_mem_singleton.mpr trivial⟩, hnil⟩
  | allocateClip | cancel => exact ⟨h, hnil⟩
  | handler i r pc admitted n th es hi hh =>
    obtain ⟨hth, hes⟩ := handlerStep_supplied (h _ (List.mem_of_getElem? hi))
      (fun environment pcm hpc => hallocate i r environment pcm rfl (hpc ▸ hi)) hh
    exact ⟨forall_mem_set h hth, hes⟩
  | respond i session clip pc pc' es hi hh =>
    have hsession : P session.id session.environment := h _ (List.mem_of_getElem? hi)
    refine ⟨forall_mem_set h hsession, ?_⟩
    unfold acceptedStep at hh
    split at hh
    · cases hh; exact List.forall_mem_singleton.mpr trivial
    · cases hh
  | localClip i m session pc pc' tr es hi hh =>
    have hsession : P session.id session.environment := h _ (List.mem_of_getElem? hi)
    exact ⟨forall_mem_set h hsession, List.forall_mem_map.mpr (localStep_supplied hsession hh)⟩
  | httpClip i m session pc clip clip' tr admitted es hi hh =>
    have hsession : P session.id session.environment := h _ (List.mem_of_getElem? hi)
    exact ⟨forall_mem_set h hsession, httpClipStep_supplied hsession hh⟩

end Http

/-! ## Requests -/

/-- Clip `id` was taken by a request of the history, with this environment: by a start, or by a submission. -/
inductive Requested (host : DaemonHost) (h : List DaemonStep) (id : Nat) (request : Environment) : Prop
  | start (st : DaemonStep) (r : Request) (done early : Bool) : st ∈ h → st.label = .request r done early →
      dispatch host.cfg done r = .ok (.start request) → startedClip st = some id → Requested host h id request
  | submission (st : DaemonStep) (i : Nat) (r : HttpRequest) (pcm : List UInt8) : st ∈ h →
      st.label = .http (.handler i) → st.pre.http.threads[i]? = some (.handling r (.allocate request pcm)) →
      httpRequestEnvironment host.httpHost r.environment = .ok request → st.pre.http.nextClip = id →
      Requested host h id request

/-- The environment is that of the request that took clip `id`. -/
def OfRequest (host : DaemonHost) (h : List DaemonStep) (id : Nat) (environment : List String) : Prop :=
  ∃ request, Requested host h id request ∧ environment = encodedEnvironment request

structure DaemonState.Supplied (P : Nat → List String → Prop) (host : DaemonHost) (s : DaemonState) : Prop where
  capture : s.capture.Supplied P
  http : s.http.Supplied P host.httpHost

section Runs

variable {host : DaemonHost} {h : List DaemonStep} {s t : DaemonState} {l : DaemonLabel} {out : List DaemonEvent}

theorem daemon_supplied {P : Nat → List String → Prop} {es : List Event} (h : ∀ e ∈ es, e.Supplied P) :
    ∀ e ∈ es.map Event.daemon, e.Supplied P := by
  refine List.forall_mem_map.mpr fun e he => ?_
  have hsupplied := h e he
  cases e with
  | reply => trivial
  | transcribe | notify | log | stream => exact hsupplied

theorem spawn_supplied {P : Nat → List String → Prop} {hh : HttpHost} {u : Http} {es : List Event}
    (h : u.Supplied P hh) (hes : ∀ e ∈ es, e.Supplied P) : (u.spawn (transcribed es)).Supplied P hh := by
  refine List.forall_mem_append.mpr ⟨h, List.forall_mem_map.mpr fun session hm => ?_⟩
  obtain ⟨e, he, hsession⟩ := List.mem_filterMap.mp hm
  have hsupplied := hes e he
  cases e with
  | transcribe => cases hsession; exact hsupplied
  | reply | notify | log | stream => cases hsession

/-- **A step of the daemon** hands on the environments of requests, and takes a clip ID only for a request. -/
theorem daemonStep_supplied (hst : daemonStep host s l = some (t, out)) (hmem : ⟨s, l, out, t⟩ ∈ h)
    (hs : s.Supplied (OfRequest host h) host) :
    t.Supplied (OfRequest host h) host ∧ ∀ e ∈ out, e.Supplied (OfRequest host h) := by
  have hanswer : ∀ err data, ∀ e ∈ [DaemonEvent.answer err data], e.Supplied (OfRequest host h) :=
    fun err data => List.forall_mem_singleton.mpr trivial
  cases daemonStep_acts hst with
  | fail | status => exact ⟨hs, hanswer _ _⟩
  | start r done early environment c es hd hc =>
    obtain ⟨ht, hes⟩ := captureStep_supplied hc hs.capture fun env hl hes => by
      cases hl
      subst hes
      obtain ⟨err, -, he⟩ | ⟨-, -, hid⟩ := start_clip hc
      · cases he
      · have hclip := (@startedClip_start host s r done early environment c hd).trans hid
        exact ⟨environment, .start _ r done early hmem rfl hd hclip, rfl⟩
    exact ⟨⟨ht, hs.http⟩, daemon_supplied hes⟩
  | stop r done early originID c es hd hc =>
    obtain ⟨ht, hes⟩ := captureStep_supplied hc hs.capture fun env hl => by cases hl
    exact ⟨⟨ht, hs.http⟩, daemon_supplied hes⟩
  | capture l c es hl hc =>
    obtain ⟨ht, hes⟩ := captureStep_supplied hc hs.capture fun env he => by
      subst he
      cases hl
    exact ⟨⟨ht, spawn_supplied hs.http hes⟩, daemon_supplied hes⟩
  | http l u es hl hu =>
    obtain ⟨hu', hes⟩ := httpStep_supplied hu hs.http
      (fun session he => by
        subst he
        cases hl)
      (fun i r environment pcm he hi => by
        subst he
        have haccepted := hs.http _ (List.mem_of_getElem? hi)
        exact ⟨environment, .submission _ i r pcm hmem rfl hi haccepted rfl, rfl⟩)
    exact ⟨⟨⟨hs.capture.active, hs.capture.tasks, hs.capture.ctl⟩, hu'⟩, List.forall_mem_map.mpr hes⟩

/-- **Every environment is that of a request**, and a session has that of the request that took its clip ID. -/
theorem supplied_of_run (r : Run (daemonSystem host) h s) :
    s.Supplied (OfRequest host h) host ∧ ∀ e ∈ outputs h, e.Supplied (OfRequest host h) := by
  refine Run.forall_outputs (M := daemonSystem host) ?_ r fun st hm hst hs => daemonStep_supplied hst hm hs
  rintro s ⟨early, rfl⟩
  refine ⟨⟨nofun, List.forall_mem_nil _, nofun, trivial⟩, ?_⟩
  exact List.forall_mem_nil _

end Runs

end Talk2Text.Daemon
