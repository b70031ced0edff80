import Talk2Text.Util.Exec
import Talk2Text.RequestEnv.Decode
import Talk2Text.Daemon.Output
import Talk2Text.Daemon.Provenance

/-!
# The environments of the commands

`emit` of `daemon/notifier` and the output command of `processTranscript`. Both append the environment of the request
to that of the daemon, and their own metadata behind it; the child takes the last entry of each name.

- `layered_of_accepted`: an accepted environment gives every name the value of the metadata, else that of the request,
  else the inherited one, and has allowed names only;
- `accepted_of_requested`: what a local request or a submission is accepted with;
- `command_environment`: the commands that are started along a run.
-/

namespace Talk2Text.Daemon

open Sys RuntimeDir Format
open Server (Request)

/-! ## Notifications -/

def notifyLevelEnv : String := "TALK2TEXT_NOTIFY_LEVEL"

def notifyCodeEnv : String := "TALK2TEXT_NOTIFY_CODE"

/-- A call of `Info` or `Error`, without the message. -/
structure Notification where
  environment : List String
  level : String
  code : String
  deriving DecidableEq, Repr

def notifyMetadata (n : Notification) : List (String × String) := [(notifyLevelEnv, n.level), (notifyCodeEnv, n.code)]

def outputMetadata (cfg : Config) (kind : String) : List (String × String) :=
  [(outputKindEnv, kind), (notifyCmdEnv, cfg.notifyCmd)]

/-- `emit`: the environment of the notification command, if there is one. -/
def emit (cfg : Config) (environ : List (List UInt8)) (n : Notification) : Option (List (List UInt8)) :=
  if cfg.notifyCmd = "" then none else some (commandEnvironment environ n.environment (notifyMetadata n))

def DaemonEvent.notification : DaemonEvent → Option Notification
  | .capture (.notify environment level code _) => some ⟨environment, level, code⟩
  | .capture (.stream (.logNotifyError environment code _)) => some ⟨environment, "error", code⟩
  | .http (.clip (.notify environment level code _)) => some ⟨environment, level, code⟩
  | _ => none

def OutputEvent.notification : OutputEvent → Option Notification
  | .notify environment level code _ => some ⟨environment, level, code⟩
  | _ => none

/-! ## Precedence -/

/-- The value that a map has for a name. -/
def valueOf (members : List (String × String)) (name : List UInt8) : Option (List UInt8) :=
  (members.map fun m => (utf8 m.1, utf8 m.2)).lookup name

/-- The names are distinct and free of `=`. -/
structure Separable (members : List (String × String)) : Prop where
  nodup : (members.map Prod.fst).Nodup
  free : ∀ m ∈ members, '=' ∉ m.1.toList

/-- What the daemon accepts from a request: distinct names that are allowed, with valid values. -/
structure Accepted (cfg : Config) (request : Environment) : Prop where
  nodup : (request.map Prod.fst).Nodup
  allowed : ∀ m ∈ request, m.1 ∈ RequestEnv.predefinedNames ++ cfg.allowClientEnv
  values : ∀ m ∈ request, RequestEnv.validateValue m.2 = none

/-- Every name has the value of the metadata, else that of the request, else the inherited one; the request has only
allowed names, and its entries can stand in an environment. -/
structure Layered (cfg : Config) (environ : List (List UInt8)) (request : Environment)
    (metadata : List (String × String)) (entries : List (List UInt8)) : Prop where
  value : ∀ name, Exec.effective entries name =
    (valueOf metadata name).or ((valueOf request name).or (Exec.effective environ name))
  allowed : ∀ name, (valueOf request name).isSome = true →
    ∃ n ∈ RequestEnv.predefinedNames ++ cfg.allowClientEnv, name = utf8 n
  names : ∀ m ∈ request, RequestEnv.validateName m.1 = none
  values : ∀ m ∈ request, RequestEnv.validateValue m.2 = none

section Precedence

variable {cfg : Config} {environ : List (List UInt8)} {request : Environment} {members metadata : List (String × String)}
  {name : List UInt8}

theorem equals_notMem_utf8 {s : String} (h : '=' ∉ s.toList) : Exec.equals ∉ utf8 s := by
  intro hm
  obtain ⟨c, hc, hn⟩ := (mem_encodeRunes_ascii (by decide)).mp hm
  have he : c = '=' := Char.toNat_inj.mp hn
  exact h (he ▸ hc)

/-- The entries of separable members give back the members. -/
theorem effective_members (h : Separable members) :
    Exec.effective (members.map fun m => utf8 (m.1 ++ "=" ++ m.2)) name = valueOf members name := by
  have hpair : ∀ m : String × String, utf8 (m.1 ++ "=" ++ m.2) = Exec.pair (utf8 m.1) (utf8 m.2) := by
    intro m
    have hequals : utf8 "=" = [Exec.equals] := by decide
    rw [utf8_append, utf8_append, hequals, List.append_assoc]
    rfl
  have hnodup : ((members.map fun m => (utf8 m.1, utf8 m.2)).map Prod.fst).Nodup := by
    have hmap := h.nodup.map fun a b hab => utf8_inj.mp hab
    rw [List.map_map] at hmap ⊢
    exact hmap
  have hfree : ∀ m ∈ members.map fun m => (utf8 m.1, utf8 m.2), Exec.equals ∉ m.1 :=
    List.forall_mem_map.mpr fun m hm => equals_notMem_utf8 (h.free m hm)
  simp only [hpair]
  rw [valueOf, ← Exec.effective_pairs hnodup hfree, List.map_map]
  rfl

/-- **Precedence.** -/
theorem effective_commandEnvironment (hrequest : Separable request) (hmetadata : Separable metadata) :
    Exec.effective (commandEnvironment environ (encodedEnvironment request) metadata) name =
      (valueOf metadata name).or ((valueOf request name).or (Exec.effective environ name)) := by
  have hentries : (encodedEnvironment request).map utf8 = request.map fun m => utf8 (m.1 ++ "=" ++ m.2) := List.map_map
  rw [commandEnvironment, Exec.effective_append, Exec.effective_append, hentries, effective_members hrequest,
    effective_members hmetadata]

/-- A valid name is free of `=`. -/
theorem free_of_validateName {n : String} (h : RequestEnv.validateName n = none) : '=' ∉ n.toList := by
  unfold RequestEnv.validateName at h
  split at h
  · cases h
  · split at h
    · cases h
    · split at h
      · cases h
      · rename_i hany
        intro hm
        exact hany (List.any_eq_true.mpr ⟨'=', hm, by decide⟩)

theorem mem_of_valueOf (h : (valueOf members name).isSome = true) : ∃ m ∈ members, name = utf8 m.1 := by
  obtain ⟨value, hv⟩ := Option.isSome_iff_exists.mp h
  obtain ⟨l, l', hl, -⟩ := List.lookup_eq_some_iff.mp hv
  have hmem : (name, value) ∈ members.map fun m => (utf8 m.1, utf8 m.2) := by
    rw [hl]
    exact List.mem_append_right _ List.mem_cons_self
  obtain ⟨m, hm, he⟩ := List.mem_map.mp hmem
  exact ⟨m, hm, (congrArg Prod.fst he).symm⟩

/-- **An accepted environment** does not reach beyond its names. -/
theorem layered_of_accepted (hcfg : validateConfig cfg = none) (h : Accepted cfg request)
    (hmetadata : Separable metadata) :
    Layered cfg environ request metadata (commandEnvironment environ (encodedEnvironment request) metadata) := by
  have hnames : ∀ m ∈ request, RequestEnv.validateName m.1 = none := fun m hm =>
    validateName_of_allowed hcfg (h.allowed m hm)
  refine ⟨fun name => ?_, fun name hsome => ?_, hnames, h.values⟩
  · exact effective_commandEnvironment ⟨h.nodup, fun m hm => free_of_validateName (hnames m hm)⟩ hmetadata
  · obtain ⟨m, hm, he⟩ := mem_of_valueOf hsome
    exact ⟨m.1, h.allowed m hm, he⟩

theorem separable_notifyMetadata (n : Notification) : Separable (notifyMetadata n) := by
  refine ⟨?_, ?_⟩
  · show [notifyLevelEnv, notifyCodeEnv].Nodup
    decide
  · refine List.forall_mem_cons.mpr ⟨?_, List.forall_mem_singleton.mpr ?_⟩
    · show '=' ∉ notifyLevelEnv.toList
      decide
    · show '=' ∉ notifyCodeEnv.toList
      decide

theorem separable_outputMetadata (cfg : Config) (kind : String) : Separable (outputMetadata cfg kind) := by
  refine ⟨?_, ?_⟩
  · show [outputKindEnv, notifyCmdEnv].Nodup
    decide
  · refine List.forall_mem_cons.mpr ⟨?_, List.forall_mem_singleton.mpr ?_⟩
    · show '=' ∉ outputKindEnv.toList
      decide
    · show '=' ∉ notifyCmdEnv.toList
      decide

end Precedence

/-! ## Accepted requests -/

/-- A local request is what `readRequest` makes of some input, with the map in any order. -/
def DaemonLabel.Received : DaemonLabel → Prop
  | .request r _ _ => ∃ reader r', Server.readRequest reader = .ok r' ∧ r.command = r'.command ∧
      Option.Rel List.Perm r'.env r.env
  | _ => True

/-- The host decodes environments with `requestenv.Decode`, with the map in any order. -/
def DaemonHost.Decodes (host : DaemonHost) (jsonText : Json.Error → String) : Prop :=
  ∀ value environment, host.decodeEnvironment value = .ok environment →
    ∃ raw environment', RequestEnv.decode jsonText raw = .ok environment' ∧ environment'.Perm environment

section Requests

variable {host : DaemonHost} {jsonText : Json.Error → String} {h : List DaemonStep} {id : Nat} {request : Environment}

theorem accepted_of_validateAllowed {cfg : Config} (hnodup : (request.map Prod.fst).Nodup)
    (h : RequestEnv.validateAllowed request cfg.allowClientEnv = none) : Accepted cfg request :=
  have hall := RequestEnv.validateAllowed_eq_none.mp h
  ⟨hnodup, fun m hm => (hall m hm).1, fun m hm => (hall m hm).2⟩

/-- The names of a received environment are distinct. -/
theorem nodup_of_received {r : Request} {done early : Bool} (h : (DaemonLabel.request r done early).Received) :
    ((r.env.getD []).map Prod.fst).Nodup := by
  obtain ⟨reader, r', hread, -, hperm⟩ := h
  have hnodup := Server.nodup_of_readRequest hread
  cases he : r.env with
  | none => exact List.nodup_nil
  | some environment =>
    rw [he] at hperm
    cases he' : r'.env with
    | none =>
      rw [he'] at hperm
      cases hperm
    | some environment' =>
      rw [he'] at hperm hnodup
      cases hperm with
      | some hperm => exact (hperm.map Prod.fst).nodup_iff.mp hnodup

/-- **What a submission is accepted with.** -/
theorem accepted_of_httpRequestEnvironment (hdecode : host.Decodes jsonText) {header : List String}
    (h : httpRequestEnvironment host.httpHost header = .ok request) : Accepted host.cfg request := by
  unfold httpRequestEnvironment at h
  split at h
  · cases h
    exact accepted_of_validateAllowed List.nodup_nil rfl
  · split at h
    · cases h
    · rename_i environment hd
      split at h
      · cases h
      · rename_i hallowed
        cases h
        obtain ⟨raw, environment', hraw, hperm⟩ := hdecode _ request hd
        have hnodup := (RequestEnv.of_decode hraw).1
        exact accepted_of_validateAllowed ((hperm.map Prod.fst).nodup_iff.mp hnodup) hallowed
  · cases h

/-- **What a request is accepted with**, on either path. -/
theorem accepted_of_requested (hdecode : host.Decodes jsonText) (hreceived : ∀ st ∈ h, st.label.Received)
    (hr : Requested host h id request) : Accepted host.cfg request := by
  cases hr with
  | start st r done early hm hl hd _ =>
    have hrec := hreceived st hm
    rw [hl] at hrec
    obtain ⟨-, rfl⟩ := (command_of_dispatch hd).1 request rfl
    exact accepted_of_validateAllowed (nodup_of_received hrec) (allowed_of_dispatch hd)
  | submission st i r pcm _ _ _ hok _ => exact accepted_of_httpRequestEnvironment hdecode hok

end Requests

/-! ## Commands -/

/-- A notification of the daemon has the environment of a clip. -/
theorem known_of_notification {P : Nat → List String → Prop} {e : DaemonEvent} {n : Notification} (h : e.Supplied P)
    (hn : e.notification = some n) : Known P n.environment := by
  cases e with
  | answer => cases hn
  | capture e =>
    cases e with
    | notify => cases hn; exact h
    | stream e =>
      cases e with
      | logNotifyError => cases hn; exact h
      | opened | call | close | nilDeref => cases hn
    | reply | transcribe | log => cases hn
  | http e =>
    cases e with
    | clip e =>
      cases e with
      | notify => cases hn; exact h
      | log | processTranscript => cases hn
    | log | respond | acquire | release => cases hn

/-- The transcripts that are processed are those that the daemon run hands over. -/
def OutputLabel.HandedOver (h : List DaemonStep) : OutputLabel → Prop
  | .processTranscript s text transcribed => .http (.clip (.processTranscript s text transcribed)) ∈ outputs h
  | _ => True

section Output

variable {host : OutputHost} {s s' : Output} {i : Nat} {t t' : OutputThread} {m : OutputMove} {es : List OutputEvent}

/-- **Processing a transcript** starts commands with the environment of the session. -/
theorem outputStep_commands (h : outputStep host s i t m = some (s', t', es)) :
    t'.session = t.session ∧
      (∀ outCmd path entries, .start outCmd path entries ∈ es →
        entries = outputEnvironment host.cfg host.environ t.session.environment (outputKind t.text t.transcribed)) ∧
      ∀ e ∈ es, ∀ n, e.notification = some n → n.environment = t.session.environment := by
  unfold outputStep at h
  dsimp only at h
  split at h
  all_goals (repeat' split at h) <;> cases h <;> simp [OutputEvent.notification]

theorem outputSystemStep_sessions {P : Session → Prop} {l : OutputLabel} (h : outputSystemStep host s l = some (s', es))
    (hP : ∀ session text transcribed, l = .processTranscript session text transcribed → P session)
    (hs : ∀ t ∈ s.threads, P t.session) : ∀ t ∈ s'.threads, P t.session := by
  cases l with
  | processTranscript session text transcribed =>
    simp only [outputSystemStep] at h
    split at h
    · cases h
      exact List.forall_mem_append.mpr ⟨hs, List.forall_mem_singleton.mpr (hP session text transcribed rfl)⟩
    · cases h
  | cancel | unlink => cases h; exact hs
  | thread i m =>
    simp only [outputSystemStep] at h
    split at h
    · cases h
    · rename_i t hi
      obtain ⟨⟨u, t', es'⟩, ho, h⟩ := Option.map_eq_some_iff.mp h
      cases h
      obtain ⟨hsession, -⟩ := outputStep_commands ho
      refine forall_mem_set hs ?_
      rw [hsession]
      exact hs t (List.mem_of_getElem? hi)

/-- The commands of a goroutine. -/
theorem commands_of_thread (h : outputSystemStep host s (.thread i m) = some (s', es)) (hi : s.threads[i]? = some t) :
    (∀ outCmd path entries, .start outCmd path entries ∈ es →
      entries = outputEnvironment host.cfg host.environ t.session.environment (outputKind t.text t.transcribed)) ∧
    ∀ e ∈ es, ∀ n, e.notification = some n → n.environment = t.session.environment := by
  simp only [outputSystemStep, hi] at h
  obtain ⟨⟨u, t', es'⟩, ho, h⟩ := Option.map_eq_some_iff.mp h
  cases h
  exact (outputStep_commands ho).2

/-- **Every goroutine** processes a transcript that was handed over. -/
theorem sessions_of_run {dir : List Entry} {P : Session → Prop} {ho : List (Step Output OutputLabel OutputEvent)}
    (r : Run (outputSystem host dir) ho s)
    (hP : ∀ st ∈ ho, ∀ session text transcribed, st.label = .processTranscript session text transcribed → P session) :
    ∀ t ∈ s.threads, P t.session := by
  refine (Run.forall_outputs (M := outputSystem host dir) (P := fun s => ∀ t ∈ s.threads, P t.session)
    (Q := fun _ => True) ?_ r fun st hm hst hs => ?_).1
  · rintro s rfl t ht
    cases ht
  · exact ⟨outputSystemStep_sessions hst (hP st hm) hs, fun _ _ => trivial⟩

end Output

/-- **A request influences allowed variables only.** In the environment of every notification command and every output
command that a daemon with a validated configuration starts, a name has the value of the command's metadata, else that
of the request which took the clip ID, else the inherited one; and the names of the request are allowed. -/
theorem command_environment {host : DaemonHost} {environ : List (List UInt8)} {dir : List Entry}
    {jsonText : Json.Error → String} (hcfg : validateConfig host.cfg = none) (hdecode : host.Decodes jsonText)
    {h : List DaemonStep} {s : DaemonState} (r : Run (daemonSystem host) h s)
    (hreceived : ∀ st ∈ h, st.label.Received) {ho : List (Step Output OutputLabel OutputEvent)} {o : Output}
    (ro : Run (outputSystem ⟨host.cfg, environ⟩ dir) ho o) (hclips : ∀ st ∈ ho, st.label.HandedOver h) :
    (∀ e ∈ outputs h, ∀ n entries, e.notification = some n → emit host.cfg environ n = some entries →
      ∃ id request, Requested host h id request ∧ Layered host.cfg environ request (notifyMetadata n) entries) ∧
    ∀ st ∈ ho, ∀ i m t, st.label = .thread i m → st.pre.threads[i]? = some t →
      ∃ request, Requested host h t.session.id request ∧
        (∀ outCmd path entries, .start outCmd path entries ∈ st.out →
          Layered host.cfg environ request (outputMetadata host.cfg (outputKind t.text t.transcribed)) entries) ∧
        ∀ e ∈ st.out, ∀ n entries, e.notification = some n → emit host.cfg environ n = some entries →
          Layered host.cfg environ request (notifyMetadata n) entries := by
  have hsupplied := (supplied_of_run r).2
  -- a notification with the environment of a request
  have hnotify : ∀ {id : Nat} {request : Environment} {n : Notification} {entries : List (List UInt8)},
      Requested host h id request → n.environment = encodedEnvironment request →
      emit host.cfg environ n = some entries → Layered host.cfg environ request (notifyMetadata n) entries := by
    intro id request n entries hr hn he
    unfold emit at he
    split at he
    · cases he
    · cases he
      rw [hn]
      exact layered_of_accepted hcfg (accepted_of_requested hdecode hreceived hr) (separable_notifyMetadata n)
  constructor
  · intro e hm n entries hn he
    obtain ⟨id, request, hr, henv⟩ := known_of_notification (hsupplied e hm) hn
    exact ⟨id, request, hr, hnotify hr henv he⟩
  · intro st hm i m t hl hi
    obtain ⟨h₁, h₂, rfl⟩ := List.append_of_mem hm
    have hsessions := sessions_of_run (P := fun session => OfRequest host h session.id session.environment) ro.before
      fun st' hm' session text transcribed hl' => by
        have hover := hclips st' (List.mem_append_left _ hm')
        rw [hl'] at hover
        exact hsupplied _ hover
    obtain ⟨request, hr, henv⟩ := hsessions t (List.mem_of_getElem? hi)
    have hst := (ro.mem_step hm).2
    rw [hl] at hst
    obtain ⟨hstart, hnotified⟩ := commands_of_thread hst hi
    rw [henv] at hstart hnotified
    refine ⟨request, hr, fun outCmd path entries he => ?_, fun e he n entries hn hemit => ?_⟩
    · rw [hstart outCmd path entries he]
      exact layered_of_accepted hcfg (accepted_of_requested hdecode hreceived hr) (separable_outputMetadata _ _)
    · exact hnotify hr (hnotified e he n hn) hemit

/-- A daemon with both commands, for which a clip of less than a second is short. -/
def displayHost : DaemonHost where
  cfg := { whisperEndpoint := "http://localhost", outCmd := "out", notifyCmd := "notify", minDuration := second }
  tooLarge := fun _ => false
  native := Amrwb.silence
  decodeEnvironment := fun value => RequestEnv.decode (fun _ => "") (utf8 value)

/-- The environment of a session with a display. -/
def displayEnvironment : Environment := [("DISPLAY", ":0"), ("XDG_SESSION_ID", "3")]

/-- A recorded sample of that session. -/
def displayClip : Session := { newSession 1 "3" displayEnvironment with buffer := [0, 0], duration := 62500 }

/-- A start, a sample, a stop, and the goroutines of the clip. -/
def displayLabels : List DaemonLabel :=
  [.request ⟨"start", some displayEnvironment⟩ false false, .capture (.audio [0, 0]), .capture (.task 0),
    .request ⟨"stop", some displayEnvironment⟩ false false, .capture (.task 0), .http (.clip 0 .next)]

/-- Its transcript, up to the output command. -/
def displayOutput : List OutputLabel :=
  .processTranscript displayClip "" false ::
    [.next, .next, .call none, .call none, .next, .call none].map (.thread 0)

/-- A client changes the display of the daemon, for both commands. -/
theorem command_environment_display : ∃ h s ho o, Run (daemonSystem displayHost) h s ∧
    Run (outputSystem ⟨displayHost.cfg, [utf8 "DISPLAY=:9"]⟩ []) ho o ∧
    (∃ e ∈ outputs h, ∃ n, e.notification = some n ∧ ∃ request entries, emit displayHost.cfg [utf8 "DISPLAY=:9"] n =
      some entries ∧ Layered displayHost.cfg [utf8 "DISPLAY=:9"] request (notifyMetadata n) entries) ∧
    ∃ outCmd path entries request, .start outCmd path entries ∈ outputs ho ∧
      Layered displayHost.cfg [utf8 "DISPLAY=:9"] request (outputMetadata displayHost.cfg "short") entries ∧
      Exec.effective entries (utf8 "DISPLAY") = some (utf8 ":0") := by
  obtain ⟨h, s, r, hq⟩ := Run.exists_of_exec (M := daemonSystem displayHost) ⟨false, rfl⟩ displayLabels
    (fun h _ => h.map Step.label = displayLabels ∧ .http (.clip (.processTranscript displayClip "" false)) ∈ outputs h ∧
      .capture (.notify displayClip.environment "info" "record-start" "Recording clip 1") ∈ outputs h)
    (by decide +kernel)
  obtain ⟨hlabels, hclip, hnotify⟩ := of_decide_eq_true hq
  obtain ⟨ho, o, ro, hqo⟩ := Run.exists_of_exec (M := outputSystem ⟨displayHost.cfg, [utf8 "DISPLAY=:9"]⟩ []) rfl
    displayOutput
    (fun ho _ => ho.map Step.label = displayOutput ∧ ho.any fun st => st.label = .thread 0 (.call none) ∧
      st.pre.threads[0]? = some ⟨displayClip, "", false, "/transcripts/1", .start⟩ ∧
      .start "out" "/transcripts/1"
        (outputEnvironment displayHost.cfg [utf8 "DISPLAY=:9"] displayClip.environment "short") ∈ st.out)
    (by decide +kernel)
  obtain ⟨hsteps, hany⟩ := of_decide_eq_true hqo
  obtain ⟨st, hst, hstart⟩ := List.any_eq_true.mp hany
  obtain ⟨hlabel, hthread, hout⟩ := of_decide_eq_true hstart
  have hlocal : ∀ l ∈ displayLabels, l.Received := by
    simp only [displayLabels, List.forall_mem_cons]
    refine ⟨⟨⟨utf8 "\x7b\"command\":\"start\",\"env\":\x7b\"DISPLAY\":\":0\",\"XDG_SESSION_ID\":\"3\"\x7d\x7d", .eof⟩,
        ⟨"start", some displayEnvironment⟩, by decide +kernel, rfl, .some (.refl _)⟩, trivial, trivial,
      ⟨⟨utf8 "\x7b\"command\":\"stop\",\"env\":\x7b\"DISPLAY\":\":0\",\"XDG_SESSION_ID\":\"3\"\x7d\x7d", .eof⟩,
        ⟨"stop", some displayEnvironment⟩, by decide +kernel, rfl, .some (.refl _)⟩, trivial, trivial, nofun⟩
  have hover : ∀ l ∈ displayOutput, l.HandedOver h := by simp [displayOutput, OutputLabel.HandedOver, hclip]
  obtain ⟨hnotified, hstarted⟩ := command_environment (by decide +kernel)
    (fun value environment hd => ⟨utf8 value, environment, hd, .refl _⟩) r
    (fun st hm => hlocal _ (hlabels ▸ List.mem_map_of_mem hm)) ro
    (fun st hm => hover _ (hsteps ▸ List.mem_map_of_mem hm))
  obtain ⟨id, request, -, hlayered⟩ := hnotified _ hnotify _ _ rfl rfl
  obtain ⟨request', -, hentries, -⟩ := hstarted st hst 0 _ _ hlabel hthread
  exact ⟨h, s, ho, o, r, ro, ⟨_, hnotify, _, rfl, request, _, rfl, hlayered⟩, "out", "/transcripts/1", _, request',
    List.mem_flatMap.mpr ⟨st, hst, hout⟩, hentries _ _ _ hout, by decide +kernel⟩

end Talk2Text.Daemon
