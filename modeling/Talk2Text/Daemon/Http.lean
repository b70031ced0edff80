import Talk2Text.Sys.Basic
import Talk2Text.Sys.Slots
import Talk2Text.Daemon.Transcribe

/-!
# HTTP submissions

`daemon/http.go`: `handleHTTP` admits a request, reads and decodes its audio and hands the clip to a goroutine that
runs `transcribeHTTP`; that one waits for its turn and gives the admission slot back before it transcribes.

`httpSystem` runs any number of requests and of local clips. An operation on a shared variable is a step of its own
(`handlerStep`, `httpClipStep`, `localStep`); what a goroutine does between two of them with its own data is part of a
step. What a request sends is free, and so is what the AMR-WB decoder and the environment decoder make of it
(`HttpHost`).

A request keeps its index in `threads` for ever, so the events of a run tell which request took or gave back a slot.
-/

namespace Talk2Text.Daemon

open Sys

/-! ## Requests and responses -/

def maxHTTPAdmitted : Nat := 2

/-- 20 ms, in nanoseconds. -/
def amrwbFrameDuration : Int := 20000000

def amrwbMaxEncodedFrameSize : Int := 61

/-- `amrwb.Magic`. -/
def amrwbMagic : String := "#!AMR-WB\n"

/-- The errors of `amrwb.Decode`, with their texts. -/
inductive DecodeError
  | invalidHeader (err : String)
  | invalidFrame (err : String)
  | tooLong (err : String)
  | other (err : String)
  deriving DecidableEq, Repr

/-- What the handler uses of the rest of the daemon. -/
structure HttpHost where
  cfg : Config
  /-- `requestenv.Decode`. -/
  decodeEnvironment : String → Except String Environment
  /-- The error of `requestenv.ValidateAllowed`. -/
  validateAllowed : Environment → Option String
  /-- `amrwb.Decode`. -/
  decode : List UInt8 → Int → Except DecodeError (List UInt8)

/-- What a client sends. -/
structure HttpRequest where
  path : String
  method : String
  /-- The values of the `Talk2Text-Env` header. -/
  environment : List String
  /-- The media type of the `Content-Type` header, if it parses. -/
  contentType : Option String
  /-- `-1` when unknown. -/
  contentLength : Int
  body : List UInt8
  /-- Reading fails after the bytes of `body`. -/
  broken : Bool
  deriving DecidableEq, Repr

/-- A status and an `httpResponse`. -/
structure HttpResponse where
  status : Nat
  ok : Bool := false
  clipID : Nat := 0
  error : String := ""
  /-- The `Allow` header. -/
  allow : String := ""
  deriving DecidableEq, Repr

/-- The response to a request that is not admitted. -/
def busy : HttpResponse := { status := 503, error := "busy" }

/-- Who gives an admission slot back. -/
inductive Releaser
  /-- The deferred function of `handleHTTP`. -/
  | handler
  | transcribeHTTP
  deriving DecidableEq, Repr

/-- Effects; `i` is the index of the request. -/
inductive HttpEvent
  | clip (e : ClipEvent)
  | log (message : String)
  | respond (i : Nat) (r : HttpResponse)
  /-- The request is admitted. -/
  | acquire (i : Nat)
  | release (i : Nat) (by' : Releaser)
  deriving DecidableEq, Repr

/-! ## Checks -/

/-- `httpRequestEnvironment`. -/
def httpRequestEnvironment (host : HttpHost) : List String → Except String Environment
  | [] => .ok []
  | [value] =>
    match host.decodeEnvironment value with
    | .error e => .error ("invalid Talk2Text-Env header: " ++ e)
    | .ok environment =>
      match host.validateAllowed environment with
      | some e => .error e
      | none => .ok environment
  | _ => .error "duplicate Talk2Text-Env header"

/-- `httpAudioLimits`: the frame limit, and the limit of the encoded size. -/
def httpAudioLimits (maxDuration : Int) : Int × Int :=
  let frameCount := min (maxDuration.tdiv amrwbFrameDuration) (2 ^ 63 - 1)
  (frameCount, int64 (amrwbMagic.utf8ByteSize + int64 (frameCount * amrwbMaxEncodedFrameSize)))

/-- The checks of `handleHTTP` before the admission: a response, or the environment of the clip. -/
def checkRequest (host : HttpHost) (cancelled : Bool) (r : HttpRequest) : Except HttpResponse Environment :=
  if r.path ≠ "/transcribe" then .error { status := 404, error := "not found" }
  else if r.method ≠ "POST" then .error { status := 405, error := "method not allowed", allow := "POST" }
  else if cancelled then .error { status := 503, error := "shutting down" }
  else
    match httpRequestEnvironment host r.environment with
    | .error e => .error { status := 400, error := e }
    | .ok environment => .ok environment

/-- The part of `handleHTTP` that reads and decodes the audio: a response and what is logged, or the PCM. -/
def readAudio (host : HttpHost) (r : HttpRequest) : Except (HttpResponse × List String) (List UInt8) :=
  let (maxFrames, maxBodyBytes) := httpAudioLimits host.cfg.maxDuration
  if r.contentType ≠ some "audio/amr-wb" then
    .error ({ status := 415, error := "content type must be audio/amr-wb" }, [])
  else if maxBodyBytes < r.contentLength then .error ({ status := 413, error := "body too large" }, [])
  -- `http.MaxBytesReader`
  else if max maxBodyBytes 0 < r.body.length then .error ({ status := 413, error := "body too large" }, [])
  else if r.broken then .error ({ status := 400, error := "failed to read request body" }, [])
  else
    match host.decode r.body maxFrames with
    | .ok pcm => .ok pcm
    | .error (.tooLong e) => .error ({ status := 413, error := e }, [])
    | .error (.invalidHeader e) | .error (.invalidFrame e) => .error ({ status := 400, error := e }, [])
    | .error (.other e) =>
      .error ({ status := 500, error := "failed to decode audio" }, [s!"failed to decode HTTP audio: {e}"])

/-! ## `transcribeHTTP` -/

/-- The next action of an accepted clip. -/
inductive HttpClipPc
  | transcribeHTTP
  /-- `httpAdmitted.Add(-1)` for a short clip. -/
  | releaseShort
  /-- `processTranscript` of a short clip. -/
  | short
  /-- The `CompareAndSwap` of `waitForLocalTranscriptions`; `retry` after a wake-up. -/
  | cas (retry : Bool)
  /-- Blocked in the `select` of `waitForLocalTranscriptions`. -/
  | select
  /-- `httpAdmitted.Add(-1)` after `waitForLocalTranscriptions` returned. -/
  | release (success : Bool)
  | long (pc : LongPc)
  | returned
  deriving DecidableEq, Repr

/-- One step of `transcribeHTTP`, for the clip of request `i`. -/
def httpClipStep (cfg : Config) (cancelled : Bool) (t : Transcriptions) (admitted : Int) (i : Nat) (s : Session)
    (pc : HttpClipPc) (m : ClipMove) : Option (Transcriptions × Int × HttpClipPc × List HttpEvent) :=
  match pc, m with
  | .transcribeHTTP, .next =>
    some (t, admitted, if isShortSession cfg s then .releaseShort else .cas false, [])
  | .releaseShort, .next => some (t, admitted - 1, .short, [.release i .transcribeHTTP])
  | .short, .next => some (t, admitted, .returned, [.clip (.processTranscript s "" false)])
  | .cas _, .next =>
    if t.ongoing = 0 then some ({ t with ongoing := 1 }, admitted, .release true, [])
    else some (t, admitted, .select, [])
  | .select, .token => if t.idle then some ({ t with idle := false }, admitted, .cas true, []) else none
  | .select, .done => if cancelled then some (t, admitted, .release false, []) else none
  | .release success, .next =>
    some (t, admitted - 1, if success then .long .start else .returned, [.release i .transcribeHTTP])
  | .long pc, m =>
    (longStep cancelled t s pc m).map fun (t, pc, es) =>
      (t, admitted, pc.elim .returned .long, es.map .clip)
  | _, _ => none

/-- `transcribeHTTP` sends no response. -/
theorem httpClipStep_silent {cfg : Config} {cancelled : Bool} {tr tr' : Transcriptions} {n n' : Int}
    {session : Session} {m : ClipMove} {pc pc' : HttpClipPc} {es : List HttpEvent} {j : Nat} {resp : HttpResponse}
    (h : httpClipStep cfg cancelled tr n i session pc m = some (tr', n', pc', es)) : .respond j resp ∉ es := by
  unfold httpClipStep at h
  split at h
  · cases h; simp
  · cases h; simp
  · cases h; simp
  · split at h <;> cases h <;> simp
  · split at h
    · cases h; simp
    · cases h
  · split at h
    · cases h; simp
    · cases h
  · cases h; simp
  · obtain ⟨⟨t₁, p₁, es₁⟩, hl, h⟩ := Option.map_eq_some_iff.mp h
    cases h; simp
  · cases h

/-! ## `handleHTTP` -/

/-- The next action of `handleHTTP` up to the acceptance. -/
inductive HandlerPc
  | check
  /-- `httpAdmitted.Add(1)`. -/
  | increment (environment : Environment)
  /-- `httpAdmitted.Add(-1)` after the increment went above the limit. -/
  | refuse
  | readAudio (environment : Environment)
  /-- The second look at the context. -/
  | checkContext (environment : Environment) (pcm : List UInt8)
  /-- The section that allocates the clip ID. -/
  | allocate (environment : Environment) (pcm : List UInt8)
  | newSession (environment : Environment) (pcm : List UInt8) (clipID : Nat)
  /-- `writeHTTPJSON`; `unfinished` when the deferred function is registered. -/
  | respond (r : HttpResponse) (unfinished : Bool)
  /-- The deferred function, if registered. -/
  | deferred (unfinished : Bool)
  | returned
  deriving DecidableEq, Repr

/-- The rest of `handleHTTP` after `go d.transcribeHTTP(s)`; its deferred function does nothing. -/
inductive AcceptedPc
  | respond
  | returned
  deriving DecidableEq, Repr

/-- A goroutine. -/
inductive Thread
  /-- A local clip in `transcribe`. -/
  | transcribe (s : Session) (pc : LocalPc)
  | handling (r : HttpRequest) (pc : HandlerPc)
  /-- An accepted request: the handler, and the goroutine of its clip. -/
  | accepted (pc : AcceptedPc) (s : Session) (clip : HttpClipPc)
  deriving DecidableEq, Repr

/-- The daemon as far as HTTP and transcription go. -/
structure Http where
  cancelled : Bool
  transcriptions : Transcriptions
  /-- `httpAdmitted`. -/
  admitted : Int
  nextClip : Nat
  threads : List Thread
  deriving DecidableEq, Repr

/-- One step of `handleHTTP` for request `i`: the counter, the next clip ID, the request, the effects. -/
def handlerStep (host : HttpHost) (cancelled : Bool) (admitted : Int) (nextClip i : Nat) (r : HttpRequest)
    (pc : HandlerPc) : Option (Int × Nat × Thread × List HttpEvent) :=
  match pc with
  | .check =>
    match checkRequest host cancelled r with
    | .error resp => some (admitted, nextClip, .handling r (.respond resp false), [])
    | .ok environment => some (admitted, nextClip, .handling r (.increment environment), [])
  | .increment environment =>
    if (maxHTTPAdmitted : Int) < admitted + 1 then some (admitted + 1, nextClip, .handling r .refuse, [])
    else some (admitted + 1, nextClip, .handling r (.readAudio environment), [.acquire i])
  | .refuse => some (admitted - 1, nextClip, .handling r (.respond busy false), [])
  | .readAudio environment =>
    match Daemon.readAudio host r with
    | .error (resp, logs) => some (admitted, nextClip, .handling r (.respond resp true), logs.map .log)
    | .ok pcm => some (admitted, nextClip, .handling r (.checkContext environment pcm), [])
  | .checkContext environment pcm =>
    if cancelled then
      some (admitted, nextClip, .handling r (.respond { status := 503, error := "daemon shutting down" } true), [])
    else some (admitted, nextClip, .handling r (.allocate environment pcm), [])
  | .allocate environment pcm =>
    some (admitted, nextClip + 1, .handling r (.newSession environment pcm nextClip), [])
  | .newSession environment pcm clipID =>
    match newRecordedSession clipID environment pcm with
    | .error e =>
      some (admitted, nextClip, .handling r (.respond { status := 500, error := "failed to accept audio" } true),
        [.log s!"failed to accept HTTP audio for clip {clipID}: {e}"])
    | .ok s => some (admitted, nextClip, .accepted .respond s .transcribeHTTP, [])
  | .respond resp unfinished => some (admitted, nextClip, .handling r (.deferred unfinished), [.respond i resp])
  | .deferred unfinished =>
    if unfinished then some (admitted - 1, nextClip, .handling r .returned, [.release i .handler])
    else some (admitted, nextClip, .handling r .returned, [])
  | .returned => none

/-- One step of the handler of an accepted request. -/
def acceptedStep (i : Nat) (s : Session) : AcceptedPc → Option (AcceptedPc × List HttpEvent)
  | .respond => some (.returned, [.respond i { status := 202, ok := true, clipID := s.id }])
  | .returned => none

/-! ## The system -/

inductive HttpLabel
  /-- A local session is handed to `transcribe`. -/
  | transcribe (s : Session)
  /-- A request arrives. -/
  | request (r : HttpRequest)
  /-- A local start takes a clip ID. -/
  | allocateClip
  /-- The context is cancelled. -/
  | cancel
  /-- The handler of request `i`. -/
  | handler (i : Nat)
  /-- The goroutine that transcribes the clip of thread `i`. -/
  | clip (i : Nat) (m : ClipMove)
  deriving DecidableEq, Repr

def Http.initial : Http := ⟨false, ⟨0, false⟩, 0, 1, []⟩

/-- One atomic step. -/
def httpStep (host : HttpHost) (s : Http) : HttpLabel → Option (Http × List HttpEvent)
  | .transcribe session => some ({ s with threads := s.threads ++ [.transcribe session .transcribe] }, [])
  | .request r => some ({ s with threads := s.threads ++ [.handling r .check] }, [])
  | .allocateClip => some ({ s with nextClip := s.nextClip + 1 }, [])
  | .cancel => some ({ s with cancelled := true }, [])
  | .handler i =>
    match s.threads[i]? with
    | some (.handling r pc) =>
      (handlerStep host s.cancelled s.admitted s.nextClip i r pc).map fun (admitted, nextClip, t, es) =>
        ({ s with admitted := admitted, nextClip := nextClip, threads := s.threads.set i t }, es)
    | some (.accepted pc session clip) =>
      (acceptedStep i session pc).map fun (pc, es) =>
        ({ s with threads := s.threads.set i (.accepted pc session clip) }, es)
    | _ => none
  | .clip i m =>
    match s.threads[i]? with
    | some (.transcribe session pc) =>
      (localStep host.cfg s.cancelled s.transcriptions session pc m).map fun (t, pc, es) =>
        ({ s with transcriptions := t, threads := s.threads.set i (.transcribe session pc) }, es.map .clip)
    | some (.accepted pc session clip) =>
      (httpClipStep host.cfg s.cancelled s.transcriptions s.admitted i session clip m).map
        fun (t, admitted, clip, es) =>
          ({ s with transcriptions := t, admitted := admitted
                    threads := s.threads.set i (.accepted pc session clip) }, es)
    | _ => none

/-- Any number of HTTP requests and local clips, in any interleaving. -/
def httpSystem (host : HttpHost) : System Http HttpLabel HttpEvent where
  init s := s = Http.initial
  step := httpStep host

/-! ## The steps, case by case -/

/-- What an atomic step can do: which goroutine acts, and how. -/
inductive HttpActs (host : HttpHost) (s : Http) : HttpLabel → Http → List HttpEvent → Prop
  | transcribe (session : Session) :
      HttpActs host s (.transcribe session) { s with threads := s.threads ++ [.transcribe session .transcribe] } []
  | request (r : HttpRequest) :
      HttpActs host s (.request r) { s with threads := s.threads ++ [.handling r .check] } []
  | allocateClip : HttpActs host s .allocateClip { s with nextClip := s.nextClip + 1 } []
  | cancel : HttpActs host s .cancel { s with cancelled := true } []
  | handler (i : Nat) (r : HttpRequest) (pc : HandlerPc) (admitted : Int) (nextClip : Nat) (t : Thread)
      (es : List HttpEvent) : s.threads[i]? = some (.handling r pc) →
      handlerStep host s.cancelled s.admitted s.nextClip i r pc = some (admitted, nextClip, t, es) →
      HttpActs host s (.handler i)
        { s with admitted := admitted, nextClip := nextClip, threads := s.threads.set i t } es
  | respond (i : Nat) (session : Session) (clip : HttpClipPc) (pc pc' : AcceptedPc) (es : List HttpEvent) :
      s.threads[i]? = some (.accepted pc session clip) → acceptedStep i session pc = some (pc', es) →
      HttpActs host s (.handler i) { s with threads := s.threads.set i (.accepted pc' session clip) } es
  | localClip (i : Nat) (m : ClipMove) (session : Session) (pc pc' : LocalPc) (t : Transcriptions)
      (es : List ClipEvent) : s.threads[i]? = some (.transcribe session pc) →
      localStep host.cfg s.cancelled s.transcriptions session pc m = some (t, pc', es) →
      HttpActs host s (.clip i m)
        { s with transcriptions := t, threads := s.threads.set i (.transcribe session pc') } (es.map .clip)
  | httpClip (i : Nat) (m : ClipMove) (session : Session) (pc : AcceptedPc) (clip clip' : HttpClipPc)
      (t : Transcriptions) (admitted : Int) (es : List HttpEvent) :
      s.threads[i]? = some (.accepted pc session clip) →
      httpClipStep host.cfg s.cancelled s.transcriptions s.admitted i session clip m =
        some (t, admitted, clip', es) →
      HttpActs host s (.clip i m)
        { s with transcriptions := t, admitted := admitted
                 threads := s.threads.set i (.accepted pc session clip') } es

/-- **The steps of the system.** -/
theorem httpStep_acts {host : HttpHost} {s t : Http} {l : HttpLabel} {out : List HttpEvent}
    (h : httpStep host s l = some (t, out)) : HttpActs host s l t out := by
  cases l with
  | transcribe session => cases h; exact .transcribe session
  | request r => cases h; exact .request r
  | allocateClip => cases h; exact .allocateClip
  | cancel => cases h; exact .cancel
  | handler i =>
    simp only [httpStep] at h
    split at h
    · rename_i r pc hi
      obtain ⟨⟨admitted, nextClip, t, es⟩, hs, h⟩ := Option.map_eq_some_iff.mp h
      cases h; exact .handler i r pc _ _ _ _ hi hs
    · rename_i pc session clip hi
      obtain ⟨⟨pc', es⟩, hs, h⟩ := Option.map_eq_some_iff.mp h
      cases h; exact .respond i session clip pc _ _ hi hs
    · cases h
  | clip i m =>
    simp only [httpStep] at h
    split at h
    · rename_i session pc hi
      obtain ⟨⟨t, pc', es⟩, hs, h⟩ := Option.map_eq_some_iff.mp h
      cases h; exact .localClip i m session pc _ _ _ hi hs
    · rename_i pc session clip hi
      obtain ⟨⟨t, admitted, clip', es⟩, hs, h⟩ := Option.map_eq_some_iff.mp h
      cases h; exact .httpClip i m session pc clip _ _ _ _ hi hs
    · cases h

/-! ## A request -/

/-- A daemon that accepts clips of at most one second, and decodes everything to 20 ms of silence. -/
def silentHost : HttpHost where
  cfg := { maxDuration := second }
  decodeEnvironment := fun _ => .ok []
  validateAllowed := fun _ => none
  decode := fun _ _ => .ok (List.replicate 640 0)

/-- A submission of one frame without data. -/
def silentRequest : HttpRequest where
  path := "/transcribe"
  method := "POST"
  environment := []
  contentType := some "audio/amr-wb"
  contentLength := 10
  body := [0x23, 0x21, 0x41, 0x4D, 0x52, 0x2D, 0x57, 0x42, 0x0A, 0x7C]
  broken := false

/-- The request is the next goroutine, `i`, and is accepted. -/
def submit (i : Nat) : List HttpLabel := .request silentRequest :: List.replicate 6 (.handler i)

/-- A local clip of 20 ms. -/
def localClip (id : Nat) : Session :=
  { newSession id "3" [] with buffer := List.replicate 640 0, duration := 20000000 }

end Talk2Text.Daemon
