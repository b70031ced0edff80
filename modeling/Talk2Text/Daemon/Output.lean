import Talk2Text.Sys.Basic
import Talk2Text.Sys.Pool
import Talk2Text.Format.Utf8
import Talk2Text.RuntimeDir.Transcripts
import Talk2Text.Daemon.Transcribe

/-!
# Output of a transcript

`processTranscript` of `daemon/transcribe.go` and `daemon/retention.go`: the transcript of a clip is written, the
output command is run on it, and when the clip is released, the transcripts outside the retention window are listed
under `muTranscripts` and removed after it is unlocked.

`outputSystem` runs any number of clips, each with an ID of its own, over one directory. Every system call and every
section under `muTranscripts` is a step of its own; the listing is one step for `os.ReadDir` and one for the `Info` of
each entry, with the mutex held in between. What the system calls return is free (`OutputMove`).
-/

namespace Talk2Text.Daemon

open Sys RuntimeDir Format

/-! ## The environment of the commands -/

def outputKindEnv : String := "TALK2TEXT_OUTPUT_KIND"

def notifyCmdEnv : String := "TALK2TEXT_NOTIFY_CMD"

/-- The environment of a command, in precedence order: that of the daemon, that of the request, and metadata. -/
def commandEnvironment (environ : List (List UInt8)) (environment : List String)
    (metadata : List (String × String)) : List (List UInt8) :=
  environ ++ environment.map utf8 ++ metadata.map fun (name, value) => utf8 (name ++ "=" ++ value)

/-- The environment of the output command. -/
def outputEnvironment (cfg : Config) (environ : List (List UInt8)) (environment : List String) (kind : String) :
    List (List UInt8) :=
  commandEnvironment environ environment [(outputKindEnv, kind), (notifyCmdEnv, cfg.notifyCmd)]

/-- The value of `TALK2TEXT_OUTPUT_KIND`. -/
def outputKind (text : String) (transcribed : Bool) : String :=
  if text = "" then if transcribed then "blank" else "short" else "text"

/-! ## State -/

/-- The configuration, and what `os.Environ` returns. -/
structure OutputHost where
  cfg : Config
  environ : List (List UInt8)

/-- The next action of `processTranscript`. -/
inductive OutputPc
  | begin
  /-- `protectTranscript`. -/
  | protect
  /-- `os.WriteFile` opens the file, and writes it. -/
  | open
  | write
  /-- `unprotectTranscript` after the file could not be written. -/
  | unprotect (err : String)
  /-- The look at the context before the output command is started. -/
  | checkContext
  | start
  /-- The output command is running. -/
  | wait
  /-- The section of the deferred `releaseTranscript`. -/
  | release
  /-- `os.ReadDir` in `getTranscriptNamesToPrune`. -/
  | readDir (cutoff : Int)
  /-- The loop of `ProcessTranscriptFiles` over the entries. -/
  | listing (cutoff : Int) (entries files : List String)
  /-- The loop of `releaseTranscript` over the names to prune. -/
  | removing (files : List String)
  | returned
  deriving DecidableEq, Repr

/-- A goroutine in `processTranscript`; `path` is its local variable. -/
structure OutputThread where
  session : Session
  text : String
  transcribed : Bool
  path : String
  pc : OutputPc
  deriving DecidableEq, Repr

/-- What the goroutines share. -/
structure Output where
  cancelled : Bool
  /-- The transcript directory. -/
  dir : List Entry
  protectedTranscripts : List Nat
  transcriptRetentionHighWatermark : Nat
  /-- The goroutine that holds `muTranscripts` between its steps. -/
  muTranscripts : Option Nat
  threads : List OutputThread
  deriving DecidableEq, Repr

inductive OutputEvent
  | notify (environment : List String) (level code message : String)
  | log (message : String)
  /-- The output command is started. -/
  | start (outCmd path : String) (environment : List (List UInt8))
  /-- `os.Remove` is executed. -/
  | remove (name : String)
  deriving DecidableEq, Repr

/-- A choice in a step. -/
inductive OutputMove
  | next
  /-- The error of a system call. -/
  | call (err : Option String)
  /-- Writing fails after `n` bytes. -/
  | writeError (n : Nat) (err : String)
  deriving DecidableEq, Repr

/-! ## Steps -/

/-- There is a map of protected transcripts. -/
def retains (cfg : Config) : Bool := 0 < cfg.transcriptRetentionWindow

/-- The callback of `getTranscriptNamesToPrune`, for a regular file: whether its name is picked. -/
def prunes (cutoff : Int) (protectedTranscripts : List Nat) (name : String) : Bool :=
  let clipID := transcriptClipID name
  clipID ≠ 0 && (clipID : Int) ≤ cutoff && !protectedTranscripts.contains clipID

/-- `lstat` of a name. -/
def lstat (dir : List Entry) (name : String) : Option Entry := dir.find? fun e => e.name = name

/-- One step of `processTranscript` in goroutine `i`: the shared state, the goroutine, the effects. -/
def outputStep (host : OutputHost) (s : Output) (i : Nat) (t : OutputThread) (m : OutputMove) :
    Option (Output × OutputThread × List OutputEvent) :=
  let clipID := t.session.id
  match t.pc, m with
  | .begin, .next =>
    some (s, { t with pc := if t.text ≠ "" ∨ host.cfg.outCmd ≠ "" then .protect else .returned }, [])
  | .protect, .next =>
    if !retains host.cfg then some (s, { t with pc := .open }, [])
    else if s.muTranscripts = none then
      some ({ s with protectedTranscripts := s.protectedTranscripts.insert clipID }, { t with pc := .open }, [])
    else none
  | .open, .call none =>
    if (lstat s.dir (itoa clipID)).any fun e => e.type = .directory then none
    else some ({ s with dir := openEntry s.dir (itoa clipID) }, { t with pc := .write }, [])
  | .open, .call (some err) => some (s, { t with pc := .unprotect err }, [])
  | .write, .call none =>
    some ({ s with dir := writeEntry s.dir (itoa clipID) (utf8 t.text) },
      { t with
        path := transcriptPath host.cfg.runtimeDir clipID
        pc := if host.cfg.outCmd = "" then .release else .checkContext }, [])
  | .write, .writeError n err =>
    some ({ s with dir := writeEntry s.dir (itoa clipID) ((utf8 t.text).take n) }, { t with pc := .unprotect err }, [])
  | .unprotect err, .next =>
    let logs := [.log s!"failed to write transcript {clipID}: {err}",
      .notify t.session.environment "error" "runtime" s!"Output transcript {clipID} failed"]
    if !retains host.cfg then some (s, { t with pc := .returned }, logs)
    else if s.muTranscripts = none then
      some ({ s with protectedTranscripts := s.protectedTranscripts.filter (· ≠ clipID) }, { t with pc := .returned },
        logs)
    else none
  | .checkContext, .next => some (s, { t with pc := if s.cancelled then .release else .start }, [])
  | .start, .call none =>
    some (s, { t with pc := .wait },
      [.start host.cfg.outCmd t.path
        (outputEnvironment host.cfg host.environ t.session.environment (outputKind t.text t.transcribed)),
        .notify t.session.environment "info" "output-start" s!"Processing transcript {clipID}"])
  | .start, .call (some err) =>
    some (s, { t with pc := .release },
      [.log s!"failed to start output command for transcript {clipID}: {err}",
        .notify t.session.environment "error" "output-command" s!"Processing transcript {clipID} failed"])
  | .wait, .next => some (s, { t with pc := .release }, [])
  | .release, .next =>
    if !retains host.cfg then some (s, { t with pc := .returned }, [])
    else if s.muTranscripts = none then
      let high := max clipID s.transcriptRetentionHighWatermark
      let cutoff := (high : Int) - host.cfg.transcriptRetentionWindow
      let s := { s with
        protectedTranscripts := s.protectedTranscripts.filter (· ≠ clipID)
        transcriptRetentionHighWatermark := high }
      if cutoff < 1 then some (s, { t with pc := .removing [] }, [])
      else some ({ s with muTranscripts := some i }, { t with pc := .readDir cutoff }, [])
    else none
  | .readDir cutoff, .call none => some (s, { t with pc := .listing cutoff (s.dir.map Entry.name) [] }, [])
  | .readDir _, .call (some err) =>
    some ({ s with muTranscripts := none }, { t with pc := .removing [] },
      [.log s!"failed to prune transcripts: failed to read transcript directory: {err}"])
  | .listing cutoff (name :: entries) files, .call none =>
    match lstat s.dir name with
    -- the entry is gone
    | none => some (s, { t with pc := .listing cutoff entries files }, [])
    | some e =>
      if e.type = .regular ∧ prunes cutoff s.protectedTranscripts name = true then
        some (s, { t with pc := .listing cutoff entries (files ++ [name]) }, [])
      else some (s, { t with pc := .listing cutoff entries files }, [])
  | .listing _ (name :: _) files, .call (some err) =>
    some ({ s with muTranscripts := none }, { t with pc := .removing files },
      [.log s!"failed to prune transcripts: failed to inspect transcript file {name}: {err}"])
  | .listing _ [] files, .next => some ({ s with muTranscripts := none }, { t with pc := .removing files }, [])
  | .removing (name :: files), .call none =>
    some ({ s with dir := removeEntry s.dir name }, { t with pc := .removing files }, [.remove name])
  | .removing (name :: files), .call (some err) =>
    some (s, { t with pc := .removing files },
      [.remove name, .log s!"failed to prune transcript file {name}: {err}"])
  | .removing [], .next => some (s, { t with pc := .returned }, [])
  | _, _ => none

inductive OutputLabel
  /-- `processTranscript` is called. -/
  | processTranscript (s : Session) (text : String) (transcribed : Bool)
  /-- The context is cancelled. -/
  | cancel
  /-- Somebody else removes an entry of the directory. -/
  | unlink (name : String)
  | thread (i : Nat) (m : OutputMove)
  deriving DecidableEq, Repr

/-- The start of the daemon, with what is left in the directory. -/
def Output.initial (dir : List Entry) : Output := ⟨false, dir, [], 0, none, []⟩

/-- One atomic step. A clip ID is used once. -/
def outputSystemStep (host : OutputHost) (s : Output) : OutputLabel → Option (Output × List OutputEvent)
  | .processTranscript session text transcribed =>
    if 0 < session.id ∧ session.id ≤ maxClipID ∧ s.threads.all fun t => t.session.id ≠ session.id then
      some ({ s with threads := s.threads ++ [⟨session, text, transcribed, "", .begin⟩] }, [])
    else none
  | .cancel => some ({ s with cancelled := true }, [])
  | .unlink name => some ({ s with dir := removeEntry s.dir name }, [])
  | .thread i m =>
    match s.threads[i]? with
    | none => none
    | some t => (outputStep host s i t m).map fun (s', t', es) => ({ s' with threads := s.threads.set i t' }, es)

/-- Any number of clips, over what is left in the directory at the start. -/
def outputSystem (host : OutputHost) (dir : List Entry) : System Output OutputLabel OutputEvent where
  init s := s = Output.initial dir
  step := outputSystemStep host

end Talk2Text.Daemon
