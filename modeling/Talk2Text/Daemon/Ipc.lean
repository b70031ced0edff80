import Talk2Text.Daemon.System

/-!
# Serving local requests

`server.Serve`, `daemon.Request`, `start`, `stop` and `status` with `muCapture` and `errChan` in view. The server
handles one connection after the other. A start or a stop runs in a goroutine of its own, which takes the mutex,
closes `errChan` to acknowledge the request, and only then changes the capture state, still inside its section: the
server may answer, and read the next request, before that. `shutdown` comes when both servers have returned.

`ipcSystem` makes each of these moments a step; all other steps are those of `daemonSystem`, of which the ones that
need the mutex wait until it is free. `CallActs` and `IpcActs` list what a step can do.
-/

namespace Talk2Text.Daemon

open Sys
open Server (Request)

/-- Who is in its section: a call, or `shutdown`. -/
inductive Holder
  | call (i : Nat)
  | shutdown
  deriving DecidableEq, Repr

/-- What `Request` returns. -/
structure Answer where
  err : Option String
  data : Option Status
  deriving DecidableEq, Repr

/-- The next action of a call of `start`, `stop` or `status`. -/
inductive CallPc
  /-- `muCapture.Lock`. -/
  | spawned
  /-- The ownership check of `start`, and `close(errChan)`; the reading of `status`. -/
  | locked
  /-- `errChan` is closed; the transition. -/
  | acknowledged
  /-- `muCapture.Unlock`, and then the answer if it is still to come. -/
  | leaving (answer : Option Answer)
  | returned
  deriving DecidableEq, Repr

/-- A call of `start`, `stop` or `status`. -/
structure Call where
  request : Request
  command : Command
  pc : CallPc
  /-- The answer that `Request` can return. -/
  answer : Option Answer
  deriving DecidableEq, Repr

/-- The next action of `Serve`. -/
inductive ServerPc
  | accept
  /-- `handler.Request`. -/
  | request (r : Request)
  /-- `Request` waits for call `i`. -/
  | wait (i : Nat)
  | respond (a : Answer)
  | returned
  deriving DecidableEq, Repr

/-- The next action of `Run`. -/
inductive MainPc
  /-- `serve` waits for the servers, then `shutdown` takes the mutex. -/
  | serving
  | locked
  | leaving
  | waiting
  deriving DecidableEq, Repr

structure Ipc where
  daemon : DaemonState
  /-- Who holds `muCapture`; the sections of the other goroutines are single steps. -/
  mutex : Option Holder
  server : ServerPc
  calls : List Call
  /-- `serveHTTP` has returned, or is not used. -/
  httpReturned : Bool
  main : MainPc
  deriving DecidableEq, Repr

/-- The active session has another owner. -/
def Capture.busy (s : Capture) (originID : String) : Bool := s.active.any fun a => a.originID ≠ originID

/-- The transition of an acknowledged `start`. -/
def Capture.accept (environment : Environment) (s : Capture) : Capture :=
  match s.active.filter fun a => a.id = s.pendingStopClip with
  | some stopped => (s.beginSession environment).addTask (.processStoppedSession stopped)
  | none => s.beginSession environment

/-- One step of call `i`. -/
def callStep (host : DaemonHost) (d : DaemonState) (mutex : Option Holder) (i : Nat) (early : Bool) (c : Call) :
    Option (DaemonState × Option Holder × Call) :=
  match c.pc, c.command with
  | .spawned, .start environment =>
    if RequestEnv.originID environment = "" then
      let answer : Answer := ⟨some "start request requires a session identifier", none⟩
      some (d, mutex, { c with pc := .returned, answer := some answer })
    else if mutex = none then some (d, some (.call i), { c with pc := .locked })
    else none
  | .spawned, _ => if mutex = none then some (d, some (.call i), { c with pc := .locked }) else none
  | .locked, .start environment =>
    if d.capture.busy (RequestEnv.originID environment) then
      some (d, mutex, { c with pc := .leaving (some ⟨some "recording busy", none⟩) })
    else some (d, mutex, { c with pc := .acknowledged, answer := some ⟨none, none⟩ })
  | .locked, .stop _ => some (d, mutex, { c with pc := .acknowledged, answer := some ⟨none, none⟩ })
  | .locked, .status =>
    let status := d.capture.status host.cfg d.http.transcriptions.ongoing
    some (d, mutex, { c with pc := .leaving (some ⟨none, some status⟩) })
  | .acknowledged, .start environment =>
    some (.join (d.capture.accept environment) d.http, mutex, { c with pc := .leaving none })
  | .acknowledged, .stop originID =>
    some (.join (d.capture.stop host.cfg originID early).1 d.http, mutex, { c with pc := .leaving none })
  | .acknowledged, .status => none
  | .leaving answer, _ => some (d, none, { c with pc := .returned, answer := answer.or c.answer })
  | .returned, _ => none

/-- The sections of the other goroutines. -/
def Capture.needsMutex (s : Capture) : Label → Bool
  | .delayedStop _ _ | .warmCallback _ => true
  | .audio pcm => pcm ≠ []
  | .manager .next =>
    match s.ctl.pc with
    | .received | .openFailed _ | .callFailed _ => true
    | _ => false
  | _ => false

/-- The section of `handleHTTP`. -/
def Http.needsMutex (s : Http) : HttpLabel → Bool
  | .handler i =>
    match s.threads[i]? with
    | some (.handling _ (.allocate _ _)) => true
    | _ => false
  | _ => false

/-- A step of the rest of the daemon is not held up by the mutex. -/
def Ipc.lets (s : Ipc) : DaemonLabel → Bool
  | .request _ _ _ => false
  | .capture l => l ≠ .shutdown && (s.mutex.isNone || !s.daemon.capture.needsMutex l)
  | .http l => s.mutex.isNone || !s.daemon.http.needsMutex l

inductive IpcLabel
  /-- `Accept` returns a connection from which `readRequest` reads a request, or fails. -/
  | accept (r : Option Request)
  /-- `Request` up to the call. -/
  | request (done : Bool)
  | call (i : Nat) (early : Bool)
  /-- `Request` returns. -/
  | answer
  /-- The response is written. -/
  | respond
  /-- `Accept` fails and `Serve` returns. -/
  | close
  | httpReturn
  /-- `Run`. -/
  | main
  /-- The rest of the daemon. -/
  | daemon (l : DaemonLabel)
  deriving DecidableEq, Repr

/-- One atomic step. -/
def ipcStep (host : DaemonHost) (s : Ipc) : IpcLabel → Option (Ipc × List DaemonEvent)
  | .accept r => if s.server = .accept then some ({ s with server := r.elim .accept .request }, []) else none
  | .request done =>
    match s.server with
    | .request r =>
      if done && !s.daemon.capture.cancelled then none
      else
        match dispatch host.cfg done r with
        | .error err => some ({ s with server := .respond ⟨some err, none⟩ }, [])
        | .ok command =>
          some ({ s with server := .wait s.calls.length, calls := s.calls ++ [⟨r, command, .spawned, none⟩] }, [])
    | _ => none
  | .call i early =>
    match s.calls[i]? with
    | none => none
    | some c =>
      (callStep host s.daemon s.mutex i early c).map fun (d, mutex, c) =>
        ({ s with daemon := d, mutex := mutex, calls := s.calls.set i c }, [])
  | .answer =>
    match s.server with
    | .wait i => (s.calls[i]?.bind Call.answer).map fun a => ({ s with server := .respond a }, [])
    | _ => none
  | .respond =>
    match s.server with
    | .respond a => some ({ s with server := .accept }, [.answer a.err a.data])
    | _ => none
  | .close => if s.server = .accept then some ({ s with server := .returned }, []) else none
  | .httpReturn => if s.httpReturned then none else some ({ s with httpReturned := true }, [])
  | .main =>
    match s.main with
    | .serving =>
      if s.server = .returned ∧ s.httpReturned = true ∧ s.mutex = none then
        some ({ s with mutex := some .shutdown, main := .locked }, [])
      else none
    | .locked =>
      (daemonStep host s.daemon (.capture .shutdown)).map fun (d, es) =>
        ({ s with daemon := d, main := .leaving }, es)
    | .leaving => some ({ s with mutex := none, main := .waiting }, [])
    | .waiting => none
  | .daemon l =>
    if s.lets l then (daemonStep host s.daemon l).map fun (d, es) => ({ s with daemon := d }, es) else none

/-- `Run`, up to `d.serve`. -/
def Ipc.initial (cfg : Config) (early : Bool) : Ipc where
  daemon := .initial cfg early
  mutex := none
  server := .accept
  calls := []
  httpReturned := cfg.httpListen = ""
  main := .serving

/-- The daemon with its server: every interleaving of connections, calls, servers and everything else. -/
def ipcSystem (host : DaemonHost) : System Ipc IpcLabel DaemonEvent where
  init s := ∃ early, s = Ipc.initial host.cfg early
  step := ipcStep host

/-! ## The steps of a call, case by case -/

/-- What a step of a call can do. -/
inductive CallActs (host : DaemonHost) (d : DaemonState) (mutex : Option Holder) (i : Nat) (early : Bool) (c : Call) :
    DaemonState → Option Holder → Call → Prop
  /-- A start without session identifier. -/
  | fail (environment : Environment) (a : Answer) : c.pc = .spawned → c.command = .start environment →
      RequestEnv.originID environment = "" →
      CallActs host d mutex i early c d mutex { c with pc := .returned, answer := some a }
  | lock : c.pc = .spawned → mutex = none →
      (∀ environment, c.command = .start environment → RequestEnv.originID environment ≠ "") →
      CallActs host d mutex i early c d (some (.call i)) { c with pc := .locked }
  /-- A start of another owner, and `status`. -/
  | read (a : Answer) : c.pc = .locked →
      CallActs host d mutex i early c d mutex { c with pc := .leaving (some a) }
  | acknowledge : c.pc = .locked →
      (∀ environment, c.command = .start environment →
        d.capture.busy (RequestEnv.originID environment) = false) → c.command ≠ .status →
      CallActs host d mutex i early c d mutex { c with pc := .acknowledged, answer := some ⟨none, none⟩ }
  | start (environment : Environment) : c.pc = .acknowledged → c.command = .start environment →
      CallActs host d mutex i early c (.join (d.capture.accept environment) d.http) mutex
        { c with pc := .leaving none }
  | stop (originID : String) : c.pc = .acknowledged → c.command = .stop originID →
      CallActs host d mutex i early c (.join (d.capture.stop host.cfg originID early).1 d.http) mutex
        { c with pc := .leaving none }
  | leave (a : Option Answer) : c.pc = .leaving a →
      CallActs host d mutex i early c d none { c with pc := .returned, answer := a.or c.answer }

section Acts

variable {host : DaemonHost} {d d' : DaemonState} {mutex mutex' : Option Holder} {i : Nat} {early : Bool}
  {c c' : Call}

theorem callStep_acts (h : callStep host d mutex i early c = some (d', mutex', c')) :
    CallActs host d mutex i early c d' mutex' c' := by
  unfold callStep at h
  split at h
  · rename_i env hpc hcmd
    split at h
    · rename_i ho
      cases h; exact .fail env _ hpc hcmd ho
    · rename_i ho
      split at h
      · rename_i hm
        cases h
        refine .lock hpc hm fun env' he => ?_
        rw [hcmd] at he
        cases he; exact ho
      · cases h
  · rename_i hpc hne
    split at h
    · rename_i hm
      cases h; exact .lock hpc hm fun env he => absurd he (hne env)
    · cases h
  · rename_i env hpc hcmd
    split at h
    · cases h; exact .read _ hpc
    · rename_i hb
      cases h
      refine .acknowledge hpc (fun env' he => ?_) (by simp [hcmd])
      rw [hcmd] at he
      cases he; exact Bool.eq_false_iff.mpr hb
  · rename_i o hpc hcmd
    cases h; exact .acknowledge hpc (by simp [hcmd]) (by simp [hcmd])
  · rename_i hpc hcmd
    cases h; exact .read _ hpc
  · rename_i env hpc hcmd
    cases h; exact .start env hpc hcmd
  · rename_i o hpc hcmd
    cases h; exact .stop o hpc hcmd
  · cases h
  · rename_i a hpc
    cases h; exact .leave a hpc
  · cases h

end Acts

/-! ## The steps, case by case -/

/-- A step of the server. -/
def IpcLabel.ofServer : IpcLabel → Bool
  | .accept _ | .request _ | .answer | .respond | .close => true
  | _ => false

/-- What an atomic step can do. -/
inductive IpcActs (host : DaemonHost) (s : Ipc) : IpcLabel → Ipc → List DaemonEvent → Prop
  /-- The server goes on; if it waits for a call, the call is answered. -/
  | serve (l : IpcLabel) (server : ServerPc) (es : List DaemonEvent) : l.ofServer = true → s.server ≠ .returned →
      (∀ i, s.server = .wait i → ∀ c, s.calls[i]? = some c → c.answer ≠ none) → (∀ i, server ≠ .wait i) →
      IpcActs host s l { s with server := server } es
  | spawn (done : Bool) (r : Request) (command : Command) : s.server = .request r →
      dispatch host.cfg false r = .ok command →
      IpcActs host s (.request done)
        { s with server := .wait s.calls.length, calls := s.calls ++ [⟨r, command, .spawned, none⟩] } []
  | call (i : Nat) (early : Bool) (c c' : Call) (d : DaemonState) (mutex : Option Holder) : s.calls[i]? = some c →
      callStep host s.daemon s.mutex i early c = some (d, mutex, c') →
      IpcActs host s (.call i early) { s with daemon := d, mutex := mutex, calls := s.calls.set i c' } []
  | httpReturn : IpcActs host s .httpReturn { s with httpReturned := true } []
  | lockShutdown : s.main = .serving → s.server = .returned → s.httpReturned = true → s.mutex = none →
      IpcActs host s .main { s with mutex := some .shutdown, main := .locked } []
  | shutdown (d : DaemonState) (es : List DaemonEvent) : s.main = .locked →
      daemonStep host s.daemon (.capture .shutdown) = some (d, es) →
      IpcActs host s .main { s with daemon := d, main := .leaving } es
  | unlockShutdown : s.main = .leaving → IpcActs host s .main { s with mutex := none, main := .waiting } []
  | daemon (l : DaemonLabel) (d : DaemonState) (es : List DaemonEvent) : s.lets l = true →
      daemonStep host s.daemon l = some (d, es) → IpcActs host s (.daemon l) { s with daemon := d } es

section IpcActs

variable {host : DaemonHost} {s t : Ipc} {out : List DaemonEvent}

/-- **The steps of the daemon with its server.** -/
theorem ipcStep_acts {l : IpcLabel} (h : ipcStep host s l = some (t, out)) : IpcActs host s l t out := by
  -- a server that does not wait
  have hidle : ∀ {l : IpcLabel} (server : ServerPc) (es : List DaemonEvent), l.ofServer = true →
      s.server ≠ .returned → (∀ i, s.server ≠ .wait i) → (∀ i, server ≠ .wait i) →
      IpcActs host s l { s with server := server } es :=
    fun server es hl hr hw hn => .serve _ server es hl hr (fun i hi => absurd hi (hw i)) hn
  cases l with
  | accept r =>
    simp only [ipcStep] at h
    split at h
    · rename_i hs
      cases h; exact hidle _ _ rfl (by simp [hs]) (by simp [hs]) (by cases r <;> simp)
    · cases h
  | request done =>
    simp only [ipcStep] at h
    split at h
    · rename_i r hs
      split at h
      · cases h
      · split at h
        · cases h; exact hidle _ _ rfl (by simp [hs]) (by simp [hs]) (by simp)
        · rename_i command hd
          cases h
          cases done with
          | false => exact .spawn false r command hs hd
          | true => simp [dispatch] at hd
    · cases h
  | call i early =>
    simp only [ipcStep] at h
    split at h
    · cases h
    · rename_i c hi
      obtain ⟨⟨d, mutex, c'⟩, hc, h⟩ := Option.map_eq_some_iff.mp h
      cases h; exact .call i early c c' d mutex hi hc
  | answer =>
    simp only [ipcStep] at h
    split at h
    · rename_i i hs
      obtain ⟨a, ha, h⟩ := Option.map_eq_some_iff.mp h
      cases h
      refine .serve _ _ _ rfl (by simp [hs]) (fun j hj c hc => ?_) (by simp)
      rw [hs] at hj
      cases hj
      rw [hc, Option.bind_some] at ha
      simp [ha]
    · cases h
  | respond =>
    simp only [ipcStep] at h
    split at h
    · rename_i a hs
      cases h; exact hidle _ _ rfl (by simp [hs]) (by simp [hs]) (by simp)
    · cases h
  | close =>
    simp only [ipcStep] at h
    split at h
    · rename_i hs
      cases h; exact hidle _ _ rfl (by simp [hs]) (by simp [hs]) (by simp)
    · cases h
  | httpReturn =>
    simp only [ipcStep] at h
    split at h <;> cases h
    exact .httpReturn
  | main =>
    simp only [ipcStep] at h
    split at h
    · rename_i hm
      split at h
      · rename_i hg
        cases h; exact .lockShutdown hm hg.1 hg.2.1 hg.2.2
      · cases h
    · rename_i hm
      obtain ⟨⟨d, es⟩, hd, h⟩ := Option.map_eq_some_iff.mp h
      cases h; exact .shutdown d es hm hd
    · rename_i hm
      cases h; exact .unlockShutdown hm
    · cases h
  | daemon l =>
    simp only [ipcStep] at h
    split at h
    · rename_i hl
      obtain ⟨⟨d, es⟩, hd, h⟩ := Option.map_eq_some_iff.mp h
      cases h; exact .daemon l d es hl hd
    · cases h

end IpcActs

end Talk2Text.Daemon
