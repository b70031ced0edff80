import Talk2Text.Amrwb.Decoder
import Talk2Text.Daemon.Capture
import Talk2Text.Daemon.Http
import Talk2Text.Server.Request

/-!
# The daemon

`daemon/serveraux.go` and the whole of the running daemon: local requests (`dispatch`, `Capture.status`), the capture,
and the HTTP side, which share the clip counter and the context. A finished local session becomes a goroutine of the
HTTP side that transcribes it.

`daemonSystem` interleaves everything that can happen. A local request is one step, its section under `muCapture`.
`Request` looks at the context earlier, so a request may be served although the context is cancelled by then; seeing
the context done is a choice of the step.

`capture_of_reachable` and `http_of_reachable` project the system onto its two halves, so what holds for these holds
for the daemon.
-/

namespace Talk2Text.Daemon

open Sys
open Server (Request)

/-! ## Local requests -/

/-- The calls that `Request` makes. -/
inductive Command
  | start (environment : Environment)
  | stop (originID : String)
  | status
  deriving DecidableEq, Repr

/-- `Request` up to the call; `done` when it sees the context done. -/
def dispatch (cfg : Config) (done : Bool) (r : Request) : Except String Command :=
  if done then .error "daemon shutting down"
  else
    let environment := r.env.getD []
    match RequestEnv.validateAllowed environment cfg.allowClientEnv with
    | some err => .error err
    | none =>
      if r.command = "start" then .ok (.start environment)
      else if r.command = "stop" then .ok (.stop (RequestEnv.originID environment))
      else if r.command = "status" then
        if r.env.isSome then .error "status request must not contain an environment" else .ok .status
      else .error "unknown command"

/-- `Status`. -/
structure Status where
  state : String
  nextClipID : Nat
  activeClip : Nat
  pending : Int
  config : Config
  deriving DecidableEq, Repr

/-- The section of `status`; `pending` is read before. -/
def Capture.status (cfg : Config) (pending : Int) (s : Capture) : Status where
  state := if s.active.isSome then "active" else if s.ctl.desiredStreamState = .warm then "warm" else "off"
  nextClipID := s.nextClip
  activeClip := s.active.elim 0 Session.id
  pending := pending
  config := cfg

/-! ## The state -/

/-- The capture and the HTTP side of one daemon, which agree on what they share. -/
structure DaemonState where
  capture : Capture
  http : Http
  nextClip_eq : http.nextClip = capture.nextClip
  cancelled_eq : http.cancelled = capture.cancelled
  deriving DecidableEq, Repr

/-- The shared variables as the capture has them. -/
def DaemonState.join (c : Capture) (t : Http) : DaemonState where
  capture := c
  http := { t with nextClip := c.nextClip, cancelled := c.cancelled }
  nextClip_eq := rfl
  cancelled_eq := rfl

theorem DaemonState.join_self (s : DaemonState) : .join s.capture s.http = s := by
  obtain ⟨c, t, hn, hc⟩ := s
  simp only [DaemonState.join, ← hn, ← hc]

/-- `Run`, up to `go d.streamManager()`. -/
def DaemonState.initial (cfg : Config) (early : Bool) : DaemonState := .join (.initial cfg early) .initial

/-- What the daemon runs on. -/
structure DaemonHost where
  cfg : Config
  tooLarge : Nat → Bool
  /-- The vendored AMR-WB decoder. -/
  native : Amrwb.Native
  /-- `requestenv.Decode`. -/
  decodeEnvironment : String → Except String Environment

/-- `amrwb.Decode` for the handler, which tells its errors apart. A slice out of range does not occur. -/
def amrwbDecode (n : Amrwb.Native) (data : List UInt8) (maxFrames : Int) : Except DecodeError (List UInt8) :=
  match Amrwb.decode n (data.length + 1) data maxFrames with
  | some (.ok pcm) => .ok pcm
  | some (.error e) =>
    match e.sentinel with
    | some .errInvalidHeader => .error (.invalidHeader e.text)
    | some .errInvalidFrame => .error (.invalidFrame e.text)
    | some .errTooLong => .error (.tooLong e.text)
    | none => .error (.other e.text)
  | some .outOfRange | none => .error (.other "slice bounds out of range")

def DaemonHost.captureHost (host : DaemonHost) : Host := ⟨host.cfg, host.tooLarge⟩

def DaemonHost.httpHost (host : DaemonHost) : HttpHost where
  cfg := host.cfg
  decodeEnvironment := host.decodeEnvironment
  validateAllowed := fun environment => RequestEnv.validateAllowed environment host.cfg.allowClientEnv
  decode := amrwbDecode host.native

/-! ## The system -/

inductive DaemonEvent
  /-- What `Request` returns. -/
  | answer (err : Option String) (data : Option Status)
  | capture (e : Event)
  | http (e : HttpEvent)
  deriving DecidableEq, Repr

def Event.daemon : Event → DaemonEvent
  | .reply err => .answer err none
  | e => .capture e

inductive DaemonLabel
  /-- A local request; `done` when `Request` sees the context done, `early` when the stop timer that it creates fires
  inside `NewCallbackTimer`. -/
  | request (r : Request) (done early : Bool)
  /-- Timers, audio, the stream manager, tasks, the cancellation, and `shutdown`. -/
  | capture (l : Label)
  /-- HTTP requests, and goroutines that transcribe. -/
  | http (l : HttpLabel)
  deriving DecidableEq, Repr

/-- The steps of the capture that a request brings about. -/
def Label.ofRequest : Label → Bool
  | .start _ | .stop _ _ | .allocateClip => true
  | _ => false

/-- The steps of the HTTP side that the capture brings about. -/
def HttpLabel.ofCapture : HttpLabel → Bool
  | .transcribe _ | .allocateClip | .cancel => true
  | _ => false

/-- The sessions that are handed to `transcribe`. -/
def transcribed (es : List Event) : List Session :=
  es.filterMap fun
    | .transcribe s => some s
    | _ => none

/-- A goroutine for every session that is handed to `transcribe`. -/
def Http.spawn (t : Http) (ss : List Session) : Http :=
  { t with threads := t.threads ++ ss.map fun s => .transcribe s .transcribe }

/-- One atomic step. -/
def daemonStep (host : DaemonHost) (s : DaemonState) : DaemonLabel → Option (DaemonState × List DaemonEvent)
  | .request r done early =>
    if done && !s.capture.cancelled then none
    else
      match dispatch host.cfg done r with
      | .error err => some (s, [.answer (some err) none])
      | .ok (.start environment) =>
        (captureStep host.captureHost s.capture (.start environment)).map fun (c, es) =>
          (.join c s.http, es.map Event.daemon)
      | .ok (.stop originID) =>
        (captureStep host.captureHost s.capture (.stop originID early)).map fun (c, es) =>
          (.join c s.http, es.map Event.daemon)
      | .ok .status => some (s, [.answer none (some (s.capture.status host.cfg s.http.transcriptions.ongoing))])
  | .capture l =>
    if l.ofRequest then none
    else
      (captureStep host.captureHost s.capture l).map fun (c, es) =>
        (.join c (s.http.spawn (transcribed es)), es.map Event.daemon)
  | .http l =>
    if l.ofCapture then none
    else
      (httpStep host.httpHost s.http l).map fun (t, es) =>
        (.join { s.capture with nextClip := t.nextClip } t, es.map .http)

/-- The daemon: every interleaving of local requests, capture and HTTP requests. -/
def daemonSystem (host : DaemonHost) : System DaemonState DaemonLabel DaemonEvent where
  init s := ∃ early, s = DaemonState.initial host.cfg early
  step := daemonStep host

/-! ## The steps, case by case -/

/-- What an atomic step can do. -/
inductive DaemonActs (host : DaemonHost) (s : DaemonState) : DaemonLabel → DaemonState → List DaemonEvent → Prop
  | fail (r : Request) (done early : Bool) (err : String) : (done = true → s.capture.cancelled = true) →
      dispatch host.cfg done r = .error err →
      DaemonActs host s (.request r done early) s [.answer (some err) none]
  | start (r : Request) (done early : Bool) (environment : Environment) (c : Capture) (es : List Event) :
      dispatch host.cfg done r = .ok (.start environment) →
      captureStep host.captureHost s.capture (.start environment) = some (c, es) →
      DaemonActs host s (.request r done early) (.join c s.http) (es.map Event.daemon)
  | stop (r : Request) (done early : Bool) (originID : String) (c : Capture) (es : List Event) :
      dispatch host.cfg done r = .ok (.stop originID) →
      captureStep host.captureHost s.capture (.stop originID early) = some (c, es) →
      DaemonActs host s (.request r done early) (.join c s.http) (es.map Event.daemon)
  | status (r : Request) (done early : Bool) : dispatch host.cfg done r = .ok .status →
      DaemonActs host s (.request r done early) s
        [.answer none (some (s.capture.status host.cfg s.http.transcriptions.ongoing))]
  | capture (l : Label) (c : Capture) (es : List Event) : l.ofRequest = false →
      captureStep host.captureHost s.capture l = some (c, es) →
      DaemonActs host s (.capture l) (.join c (s.http.spawn (transcribed es))) (es.map Event.daemon)
  | http (l : HttpLabel) (t : Http) (es : List HttpEvent) : l.ofCapture = false →
      httpStep host.httpHost s.http l = some (t, es) →
      DaemonActs host s (.http l) (.join { s.capture with nextClip := t.nextClip } t) (es.map .http)

section Acts

variable {host : DaemonHost} {s t : DaemonState} {out : List DaemonEvent}

/-- **The steps of the daemon.** -/
theorem daemonStep_acts {l : DaemonLabel} (h : daemonStep host s l = some (t, out)) : DaemonActs host s l t out := by
  cases l with
  | request r done early =>
    simp only [daemonStep] at h
    split at h
    · cases h
    · rename_i hg
      split at h
      · rename_i err hd
        cases h; exact .fail r done early err (by simpa using hg) hd
      · rename_i environment hd
        obtain ⟨⟨c, es⟩, hc, h⟩ := Option.map_eq_some_iff.mp h
        cases h; exact .start r done early environment c es hd hc
      · rename_i originID hd
        obtain ⟨⟨c, es⟩, hc, h⟩ := Option.map_eq_some_iff.mp h
        cases h; exact .stop r done early originID c es hd hc
      · rename_i hd
        cases h; exact .status r done early hd
  | capture l =>
    simp only [daemonStep] at h
    split at h
    · cases h
    · rename_i hl
      obtain ⟨⟨c, es⟩, hc, h⟩ := Option.map_eq_some_iff.mp h
      cases h; exact .capture l c es (Bool.eq_false_iff.mpr hl) hc
  | http l =>
    simp only [daemonStep] at h
    split at h
    · cases h
    · rename_i hl
      obtain ⟨⟨c, es⟩, hc, h⟩ := Option.map_eq_some_iff.mp h
      cases h; exact .http l c es (Bool.eq_false_iff.mpr hl) hc

end Acts

/-! ## The two halves -/

section Halves

variable {host : DaemonHost}

/-- What a step of a handler does to the clip counter: only the section that allocates a clip ID changes it. -/
theorem handlerStep_nextClip {hh : HttpHost} {cancelled : Bool} {admitted admitted' : Int} {n n' i : Nat}
    {r : HttpRequest} {pc : HandlerPc} {th : Thread} {es : List HttpEvent}
    (h : handlerStep hh cancelled admitted n i r pc = some (admitted', n', th, es)) :
    n' = n ∨ ∃ env pcm, pc = .allocate env pcm ∧ n' = n + 1 ∧ admitted' = admitted ∧
      th = .handling r (.newSession env pcm n) ∧ es = [] := by
  cases pc with
  | allocate env pcm =>
    cases h
    exact Or.inr ⟨env, pcm, rfl, rfl, rfl, rfl, rfl⟩
  | check | increment env | readAudio env | checkContext env pcm | newSession env pcm id | deferred u =>
    left
    simp only [handlerStep] at h
    split at h <;> cases h <;> rfl
  | refuse | respond resp u => cases h; exact Or.inl rfl
  | returned => cases h

/-- The steps of the HTTP side that the capture does not bring about leave the context, and the clip counter unless
they allocate. -/
theorem httpStep_shared {hh : HttpHost} {s t : Http} {l : HttpLabel} {es : List HttpEvent}
    (hl : l.ofCapture = false) (h : httpStep hh s l = some (t, es)) :
    t.cancelled = s.cancelled ∧ (t.nextClip = s.nextClip ∨ t.nextClip = s.nextClip + 1) := by
  cases httpStep_acts h with
  | transcribe | allocateClip | cancel => cases hl
  | request | respond | localClip | httpClip => exact ⟨rfl, Or.inl rfl⟩
  | handler i r pc admitted n th es hi hs =>
    refine ⟨rfl, (handlerStep_nextClip hs).imp id ?_⟩
    rintro ⟨env, pcm, -, hn, -⟩
    exact hn

/-- What a step of the capture does to the shared variables. -/
theorem captureStep_shared {ch : Host} {s c : Capture} {l : Label} {es : List Event}
    (h : captureStep ch s l = some (c, es)) :
    (c.nextClip = s.nextClip ∨ l.ofRequest = true ∧ c.nextClip = s.nextClip + 1) ∧
      (c.cancelled = s.cancelled ∨ l = .cancel ∧ c = { s with cancelled := true } ∧ es = []) := by
  cases captureStep_acts h with
  | cancel => exact ⟨Or.inl rfl, Or.inr ⟨rfl, rfl, rfl⟩⟩
  | beginSession | finalize | allocateClip => exact ⟨Or.inr ⟨rfl, rfl⟩, Or.inl rfl⟩
  | stopNow | delayedStop => simp
  | refuse | ignoreStop | repeatStop | schedule | stopTimerExpires | staleStop | warmTimerExpires | warmBusy | warmOff
  | ignoreAudio | pcmError | maxDuration | append | shutdown | move | discard | task =>
    exact ⟨Or.inl rfl, Or.inl rfl⟩

/-- A step of the daemon is at most one step of the capture. -/
theorem capture_steps {s t : DaemonState} {l : DaemonLabel} {out : List DaemonEvent}
    (h : daemonStep host s l = some (t, out)) : Steps (captureSystem host.captureHost) s.capture t.capture := by
  have hone : ∀ {l : Label} {c : Capture} {es : List Event},
      captureStep host.captureHost s.capture l = some (c, es) →
      Steps (captureSystem host.captureHost) s.capture c := fun hc => .single (N := captureSystem _) hc
  cases daemonStep_acts h with
  | fail | status => exact .refl _
  | start r done early env c es _ hc => exact hone hc
  | stop r done early o c es _ hc => exact hone hc
  | capture l c es _ hc => exact hone hc
  | http l c es hl hc =>
    show Steps _ s.capture { s.capture with nextClip := c.nextClip }
    rcases (httpStep_shared hl hc).2 with hn | hn
    · rw [hn, s.nextClip_eq]
      exact .refl _
    · rw [hn, s.nextClip_eq]
      exact hone (l := .allocateClip) rfl

theorem spawn_steps (hh : HttpHost) (ss : List Session) (t : Http) : Steps (httpSystem hh) t (t.spawn ss) := by
  induction ss generalizing t with
  | nil =>
    have hnil : t.spawn [] = t := by simp [Http.spawn]
    rw [hnil]
    exact .refl t
  | cons x ss ih =>
    have hx : (httpSystem hh).step t (.transcribe x) =
        some ({ t with threads := t.threads ++ [.transcribe x .transcribe] }, []) := rfl
    have hcons := (Steps.single hx).trans (ih _)
    simpa [Http.spawn] using hcons

/-- A step of the daemon is zero or more steps of the HTTP side. -/
theorem http_steps {s t : DaemonState} {l : DaemonLabel} {out : List DaemonEvent}
    (h : daemonStep host s l = some (t, out)) : Steps (httpSystem host.httpHost) s.http t.http := by
  have hone : ∀ {l : HttpLabel} {t : Http} {es : List HttpEvent}, httpStep host.httpHost s.http l = some (t, es) →
      Steps (httpSystem host.httpHost) s.http t := fun ht => .single (N := httpSystem _) ht
  -- a request takes a clip ID or leaves the shared variables
  have hshare : ∀ {l : Label} {c : Capture} {es : List Event}, l ≠ .cancel →
      captureStep host.captureHost s.capture l = some (c, es) →
      Steps (httpSystem host.httpHost) s.http (DaemonState.join c s.http).http := by
    intro l c es hl hc
    obtain ⟨hn, hcan | ⟨rfl, -⟩⟩ := captureStep_shared hc
    · rcases hn with hn | ⟨-, hn⟩
      · simp only [DaemonState.join, hn, hcan, ← s.nextClip_eq, ← s.cancelled_eq]
        exact .refl _
      · simp only [DaemonState.join, hn, hcan, ← s.nextClip_eq, ← s.cancelled_eq]
        exact hone (l := .allocateClip) rfl
    · exact absurd rfl hl
  cases daemonStep_acts h with
  | fail | status => exact .refl _
  | start r done early env c es _ hc => exact hshare (by simp) hc
  | stop r done early o c es _ hc => exact hshare (by simp) hc
  | capture l c es hl hc =>
    by_cases hcl : l = .cancel
    · cases hcl
      cases hc
      have hnil : s.http.spawn (transcribed []) = s.http := by simp [Http.spawn, transcribed]
      rw [hnil]
      simp only [DaemonState.join, ← s.nextClip_eq]
      exact hone (l := .cancel) rfl
    · have hjoin : (DaemonState.join c (s.http.spawn (transcribed es))).http =
          (DaemonState.join c s.http).http.spawn (transcribed es) := rfl
      rw [hjoin]
      exact (hshare hcl hc).trans (spawn_steps _ _ _)
  | http l c es hl hc =>
    have hjoin : (DaemonState.join { s.capture with nextClip := c.nextClip } c).http = c := by
      simp only [DaemonState.join, ← s.cancelled_eq, ← (httpStep_shared hl hc).1]
    rw [hjoin]
    exact hone hc

/-- **The capture of the daemon** is a run of the capture. -/
theorem capture_of_reachable {s : DaemonState} (hs : Reachable (daemonSystem host) s) :
    Reachable (captureSystem host.captureHost) s.capture := by
  refine Reachable.map (M := daemonSystem host) DaemonState.capture ?_ (fun _ _ _ _ h => capture_steps h) hs
  rintro s ⟨early, rfl⟩
  exact .init ⟨early, rfl⟩

/-- **The HTTP side of the daemon** is a run of the HTTP side. -/
theorem http_of_reachable {s : DaemonState} (hs : Reachable (daemonSystem host) s) :
    Reachable (httpSystem host.httpHost) s.http := by
  refine Reachable.map (M := daemonSystem host) DaemonState.http ?_ (fun _ _ _ _ h => http_steps h) hs
  rintro s ⟨early, rfl⟩
  exact .init rfl

end Halves

end Talk2Text.Daemon
