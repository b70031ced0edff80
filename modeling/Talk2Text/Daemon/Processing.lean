import Talk2Text.Daemon.Http
import Talk2Text.Daemon.Output

/-!
# One law for local and HTTP clips

A clip is processed by `transcribe` or by `transcribeHTTP`, which waits for its turn first; both may send it to Whisper
and call `processTranscript`. `ClipStep` is one step of such a goroutine, whatever the other goroutines have made of the
shared state, and `Processes` a goroutine that runs to its end, with what it does to the outside (`ClipEffect`).

- `processes_transcribe_iff`, `processes_transcribeHTTP_iff`: what both do is given by the results of Whisper, of
  writing the file and of starting the command (`clipEffects`);
- `clip_law`: both do the same, and what they do is `ClipLaw`.
-/

namespace Talk2Text.Daemon

open RuntimeDir Format

/-! ## Effects -/

inductive ClipEffect
  /-- `d.whisper.Transcribe` is called. -/
  | transcribe (clipID : Nat) (pcm : List UInt8)
  /-- `d.whisper.Transcribe` returns. -/
  | transcribed (r : WhisperResult)
  /-- The retention state changes: `protectTranscript`, `unprotectTranscript`, the section of `releaseTranscript`. -/
  | protect (clipID : Nat)
  | unprotect (clipID : Nat)
  | release (clipID : Nat)
  /-- `WriteTranscript` returns. -/
  | write (name : String) (content : List UInt8) (err : Option String)
  /-- `cmd.Start` returns. -/
  | start (outCmd path : String) (environment : List (List UInt8)) (err : Option String)
  | remove (name : String)
  | notify (environment : List String) (level code message : String)
  | log (message : String)
  deriving DecidableEq

/-- The calls of Whisper in a step of `processLongSession`. -/
def LongPc.calls (s : Session) : LongPc → ClipMove → List ClipEffect
  | .start, .next => [.transcribe s.id s.buffer]
  | .whisper, .whisper r => [.transcribed r]
  | _, _ => []

def LocalPc.calls (s : Session) : LocalPc → ClipMove → List ClipEffect
  | .long pc, m => pc.calls s m
  | _, _ => []

def HttpClipPc.calls (s : Session) : HttpClipPc → ClipMove → List ClipEffect
  | .long pc, m => pc.calls s m
  | _, _ => []

/-- The calls in a step of `processTranscript`. -/
def OutputThread.calls (host : OutputHost) (t : OutputThread) (m : OutputMove) : List ClipEffect :=
  let name := itoa t.session.id
  let content := utf8 t.text
  match t.pc, m with
  | .protect, .next => if retains host.cfg then [.protect t.session.id] else []
  | .open, .call (some err) | .write, .writeError _ err => [.write name content (some err)]
  | .write, .call none => [.write name content none]
  | .unprotect _, .next => if retains host.cfg then [.unprotect t.session.id] else []
  | .start, .call err =>
    [.start host.cfg.outCmd t.path
      (outputEnvironment host.cfg host.environ t.session.environment (outputKind t.text t.transcribed)) err]
  | .release, .next => if retains host.cfg then [.release t.session.id] else []
  | _, _ => []

def ClipEvent.effects : ClipEvent → List ClipEffect
  | .notify environment level code message => [.notify environment level code message]
  | .log message => [.log message]
  | .processTranscript .. => []

/-- The start of the command is one of the calls. -/
def OutputEvent.effects : OutputEvent → List ClipEffect
  | .notify environment level code message => [.notify environment level code message]
  | .log message => [.log message]
  | .start .. => []
  | .remove name => [.remove name]

/-- The clip events among those of an HTTP clip. -/
def HttpEvent.clips : HttpEvent → List ClipEvent
  | .clip e => [e]
  | _ => []

theorem clips_map (es : List ClipEvent) : (es.map HttpEvent.clip).flatMap HttpEvent.clips = es := by
  rw [List.flatMap_map]
  exact List.flatMap_singleton' es

/-- Where the goroutine stands. -/
inductive ClipPc
  | transcribe (pc : LocalPc)
  | transcribeHTTP (pc : HttpClipPc)
  | processTranscript (t : OutputThread)
  deriving DecidableEq

def ClipPc.final : ClipPc → Prop
  | .transcribe pc => pc = .returned
  | .transcribeHTTP pc => pc = .returned
  | .processTranscript t => t.pc = .returned

/-- The call of `processTranscript` with which `transcribe` or `transcribeHTTP` ends. -/
def handOver : List ClipEvent → Option OutputThread
  | [] => none
  | .processTranscript s text transcribed :: _ => some ⟨s, text, transcribed, "", .begin⟩
  | _ :: es => handOver es

/-- A step of the goroutine for clip `s`, with the shared state as others have left it and the context not cancelled. -/
inductive ClipStep (host : OutputHost) (s : Session) : ClipPc → List ClipEffect → ClipPc → Prop
  | transcribe {t t' : Transcriptions} {pc pc' : LocalPc} {m : ClipMove} {es : List ClipEvent} :
      localStep host.cfg false t s pc m = some (t', pc', es) →
      ClipStep host s (.transcribe pc) (es.flatMap ClipEvent.effects ++ pc.calls s m)
        ((handOver es).elim (.transcribe pc') .processTranscript)
  | transcribeHTTP {t t' : Transcriptions} {n n' : Int} {i : Nat} {pc pc' : HttpClipPc} {m : ClipMove}
      {es : List HttpEvent} :
      httpClipStep host.cfg false t n i s pc m = some (t', n', pc', es) →
      ClipStep host s (.transcribeHTTP pc)
        ((es.flatMap HttpEvent.clips).flatMap ClipEvent.effects ++ pc.calls s m)
        ((handOver (es.flatMap HttpEvent.clips)).elim (.transcribeHTTP pc') .processTranscript)
  | processTranscript {o o' : Output} {i : Nat} {t t' : OutputThread} {m : OutputMove} {es : List OutputEvent} :
      o.cancelled = false → outputStep host o i t m = some (o', t', es) →
      ClipStep host s (.processTranscript t) (t.calls host m ++ es.flatMap OutputEvent.effects) (.processTranscript t')

/-- The goroutine runs to its end, with these effects. -/
inductive Processes (host : OutputHost) (s : Session) : ClipPc → List ClipEffect → Prop
  | done {pc : ClipPc} : pc.final → Processes host s pc []
  | step {pc pc' : ClipPc} {es es' : List ClipEffect} : ClipStep host s pc es pc' → Processes host s pc' es' →
      Processes host s pc (es ++ es')

/-! ## The effects by the results -/

section Effects

variable (host : OutputHost) (s : Session)

/-- A change of the retention state, if there is one. -/
def retention (e : ClipEffect) : List ClipEffect := if retains host.cfg then [e] else []

/-- The output command is started, with this result. -/
def commandEffects (text : String) (transcribed : Bool) (start : Option String) : List ClipEffect :=
  .start host.cfg.outCmd (transcriptPath host.cfg.runtimeDir s.id)
      (outputEnvironment host.cfg host.environ s.environment (outputKind text transcribed)) start ::
    match start with
    | none => [.notify s.environment "info" "output-start" s!"Processing transcript {s.id}"]
    | some err => [.log s!"failed to start output command for transcript {s.id}: {err}",
        .notify s.environment "error" "output-command" s!"Processing transcript {s.id} failed"]

/-- The transcript is written, with this result. -/
def writeEffects (text : String) (transcribed : Bool) (write start : Option String) (released : List ClipEffect) :
    List ClipEffect :=
  .write (itoa s.id) (utf8 text) write ::
    match write with
    | some err => retention host (.unprotect s.id) ++ [.log s!"failed to write transcript {s.id}: {err}",
        .notify s.environment "error" "runtime" s!"Output transcript {s.id} failed"]
    | none => (if host.cfg.outCmd = "" then [] else commandEffects host s text transcribed start) ++ released

/-- `processTranscript`; `released` is what `releaseTranscript` does. -/
def outputEffects (text : String) (transcribed : Bool) (write start : Option String) (released : List ClipEffect) :
    List ClipEffect :=
  if text ≠ "" ∨ host.cfg.outCmd ≠ "" then
    retention host (.protect s.id) ++ writeEffects host s text transcribed write start released
  else []

/-- The text of a clip that Whisper has transcribed. -/
def cleanText (text : String) : String := if isBlank text then "" else text

def resultText : WhisperResult → String
  | .error _ => ""
  | .text text => cleanText text

/-- `processLongSession` after Whisper has returned. -/
def resultEffects (write start : Option String) (released : List ClipEffect) : WhisperResult → List ClipEffect
  | .error err => [.log s!"whisper server failed to transcribe clip {s.id}: {err}",
      .notify s.environment "error" "whisper" s!"Transcribing clip {s.id} failed"]
  | .text text => .notify s.environment "info" "transcribe-stop" s!"Finished transcript {s.id}" ::
      outputEffects host s (cleanText text) true write start released

/-- `processLongSession`. -/
def longEffects (r : WhisperResult) (write start : Option String) (released : List ClipEffect) : List ClipEffect :=
  .notify s.environment "info" "transcribe-start" s!"Transcribing clip {s.id}" :: .transcribe s.id s.buffer ::
    .transcribed r :: resultEffects host s write start released r

/-- The whole processing. -/
def clipEffects (r : WhisperResult) (write start : Option String) (released : List ClipEffect) : List ClipEffect :=
  if isShortSession host.cfg s then outputEffects host s "" false write start released
  else longEffects host s r write start released

/-- The text that the clip ends with. -/
def clipText (r : WhisperResult) : String := if isShortSession host.cfg s then "" else resultText r

/-- `processTranscript` before `releaseTranscript`. -/
def releasing (text : String) (transcribed : Bool) : ClipPc :=
  .processTranscript ⟨s, text, transcribed, transcriptPath host.cfg.runtimeDir s.id, .release⟩

/-- What `releaseTranscript` may do for the clip with this text. -/
def Released (text : String) (transcribed : Bool) (released : List ClipEffect) : Prop :=
  Processes host s (releasing host s text transcribed) released

end Effects

/-! ## `processTranscript` -/

section Output

variable {host : OutputHost} {s : Session}

/-- The effects of `releaseTranscript` after its section. -/
def ClipEffect.Prunes : ClipEffect → Prop
  | .remove _ | .log _ => True
  | _ => False

/-- What `processTranscript` does from where it stands. -/
def OutputThread.Spec (host : OutputHost) (s : Session) (t : OutputThread) (es : List ClipEffect) : Prop :=
  match t.pc with
  | .begin => ∃ write start released, Released host s t.text t.transcribed released ∧
      es = outputEffects host s t.text t.transcribed write start released
  | .protect => ∃ write start released, Released host s t.text t.transcribed released ∧
      es = retention host (.protect s.id) ++ writeEffects host s t.text t.transcribed write start released
  | .open | .write => ∃ write start released, Released host s t.text t.transcribed released ∧
      es = writeEffects host s t.text t.transcribed write start released
  | .unprotect err => es = retention host (.unprotect s.id) ++
      [.log s!"failed to write transcript {s.id}: {err}",
        .notify s.environment "error" "runtime" s!"Output transcript {s.id} failed"]
  | .checkContext | .start => t.path = transcriptPath host.cfg.runtimeDir s.id →
      ∃ start released, Released host s t.text t.transcribed released ∧
        es = commandEffects host s t.text t.transcribed start ++ released
  | .wait | .release => t.path = transcriptPath host.cfg.runtimeDir s.id →
      Released host s t.text t.transcribed es
  | .readDir _ | .listing _ _ _ | .removing _ => ∀ e ∈ es, e.Prunes
  | .returned => es = []

/-- A step of `processTranscript` that can be taken, with the mutex free. -/
theorem Processes.output {t t' : OutputThread} {es' es'' : List ClipEffect} (m : OutputMove) (es : List OutputEvent)
    (h : ∃ o', outputStep host (Output.initial []) 0 t m = some (o', t', es))
    (hp : Processes host s (.processTranscript t') es')
    (he : es'' = t.calls host m ++ es.flatMap OutputEvent.effects ++ es') :
    Processes host s (.processTranscript t) es'' := by
  obtain ⟨o', h⟩ := h
  subst he
  exact .step (.processTranscript rfl h) hp

/-- `releaseTranscript` can always end, here with nothing to prune. -/
theorem exists_released (host : OutputHost) (s : Session) (text : String) (transcribed : Bool) :
    ∃ released, Released host s text transcribed released := by
  refine ⟨retention host (.release s.id), ?_⟩
  let t : OutputPc → OutputThread := fun pc => ⟨s, text, transcribed, transcriptPath host.cfg.runtimeDir s.id, pc⟩
  have hend : Processes host s (.processTranscript (t .returned)) [] := .done rfl
  have hremove : Processes host s (.processTranscript (t (.removing []))) [] := .output .next [] ⟨_, rfl⟩ hend rfl
  have hlist (cutoff : Int) : Processes host s (.processTranscript (t (.listing cutoff [] []))) [] :=
    .output .next [] ⟨_, rfl⟩ hremove rfl
  have hread (cutoff : Int) : Processes host s (.processTranscript (t (.readDir cutoff))) [] :=
    .output (.call none) [] ⟨_, rfl⟩ (hlist cutoff) rfl
  by_cases hret : retains host.cfg = true
  · have hcalls : retention host (.release s.id) = (t .release).calls host .next := by
      simp [t, OutputThread.calls, retention, hret]
    let cutoff : Int := ((max s.id 0 : Nat) : Int) - host.cfg.transcriptRetentionWindow
    by_cases hcut : cutoff < 1
    · refine .output .next [] ?_ hremove (by simpa using hcalls)
      simp only [t, outputStep, hret, Bool.not_true, Bool.false_eq_true, if_false, Output.initial, if_true]
      exact ⟨_, if_pos hcut⟩
    · refine .output .next [] ?_ (hread cutoff) (by simpa using hcalls)
      simp only [t, outputStep, hret, Bool.not_true, Bool.false_eq_true, if_false, Output.initial, if_true]
      exact ⟨_, if_neg hcut⟩
  · refine .output .next [] ?_ hend (by simp [OutputThread.calls, retention, hret])
    simp only [t, outputStep, hret, Bool.not_false, if_true]
    exact ⟨_, rfl⟩

theorem outputStep_session {o o' : Output} {i : Nat} {t t' : OutputThread} {m : OutputMove} {es : List OutputEvent}
    (h : outputStep host o i t m = some (o', t', es)) : t'.session = t.session := by
  unfold outputStep at h
  dsimp only at h
  split at h
  all_goals (repeat' split at h) <;> cases h <;> rfl

/-- What `processTranscript` does, from the step before. -/
theorem OutputThread.Spec.step {o o' : Output} {i : Nat} {t t' : OutputThread} {m : OutputMove}
    {es : List OutputEvent} {es' : List ClipEffect} (hs : t.session = s) (ho : o.cancelled = false)
    (h : outputStep host o i t m = some (o', t', es)) (hp : Processes host s (.processTranscript t') es')
    (hspec : t'.Spec host s es') :
    t.Spec host s (t.calls host m ++ es.flatMap OutputEvent.effects ++ es') := by
  have hrun : Processes host s (.processTranscript t) (t.calls host m ++ es.flatMap OutputEvent.effects ++ es') :=
    .step (.processTranscript ho h) hp
  obtain ⟨session, text, transcribed, path, pc⟩ := t
  subst hs
  unfold outputStep at h
  dsimp only at h hrun ⊢
  split at h
  · -- `begin`
    cases h
    by_cases hout : text ≠ "" ∨ host.cfg.outCmd ≠ ""
    · rw [if_pos hout] at hspec
      obtain ⟨write, start, released, hr, rfl⟩ := hspec
      exact ⟨write, start, released, hr, (if_pos hout).symm⟩
    · rw [if_neg hout] at hspec
      obtain rfl : es' = [] := hspec
      obtain ⟨released, hr⟩ := exists_released host session text transcribed
      exact ⟨none, none, released, hr, (if_neg hout).symm⟩
  · -- `protect`
    have hprotect : es = [] ∧ ∃ write start released, Released host session text transcribed released ∧
        es' = writeEffects host session text transcribed write start released := by
      repeat' split at h
      all_goals cases h
      all_goals exact ⟨rfl, hspec⟩
    obtain ⟨rfl, write, start, released, hr, rfl⟩ := hprotect
    exact ⟨write, start, released, hr, by simp [OutputThread.calls, retention]⟩
  · -- `open` succeeds
    split at h
    · cases h
    · cases h; exact hspec
  · -- `open` fails
    cases h
    obtain rfl : es' = _ := hspec
    obtain ⟨released, hr⟩ := exists_released host session text transcribed
    exact ⟨some _, none, released, hr, rfl⟩
  · -- `write` succeeds
    cases h
    by_cases hout : host.cfg.outCmd = ""
    · rw [if_pos hout] at hspec
      exact ⟨none, none, es', hspec rfl, by simp [OutputThread.calls, writeEffects, hout]⟩
    · rw [if_neg hout] at hspec
      obtain ⟨start, released, hr, rfl⟩ := hspec rfl
      exact ⟨none, start, released, hr, by simp [OutputThread.calls, writeEffects, hout]⟩
  · -- `write` fails
    cases h
    obtain rfl : es' = _ := hspec
    obtain ⟨released, hr⟩ := exists_released host session text transcribed
    exact ⟨some _, none, released, hr, rfl⟩
  · -- `unprotect`
    repeat' split at h
    all_goals cases h
    all_goals
      obtain rfl : es' = [] := hspec
      simp [OutputThread.Spec, OutputThread.calls, retention, OutputEvent.effects]
  · -- `checkContext`
    cases h
    rw [ho] at hspec
    exact hspec
  · -- `start` succeeds
    cases h
    exact fun hpath => ⟨none, es', hspec hpath, by
      simp [OutputThread.calls, commandEffects, OutputEvent.effects, show path = _ from hpath]⟩
  · -- `start` fails
    rename_i err
    cases h
    exact fun hpath => ⟨some err, es', hspec hpath, by
      simp [OutputThread.calls, commandEffects, OutputEvent.effects, show path = _ from hpath]⟩
  · -- `wait`
    cases h; exact hspec
  · -- `release`
    intro hpath
    obtain rfl : path = _ := hpath
    exact hrun
  · -- `readDir` succeeds
    cases h; exact hspec
  · -- `readDir` fails
    cases h; exact List.forall_mem_cons.mpr ⟨trivial, hspec⟩
  · -- `listing` inspects an entry
    repeat' split at h
    all_goals cases h
    all_goals exact hspec
  · -- `listing` cannot inspect it
    cases h; exact List.forall_mem_cons.mpr ⟨trivial, hspec⟩
  · -- `listing` ends
    cases h; exact hspec
  · -- `removing` succeeds
    cases h; exact List.forall_mem_cons.mpr ⟨trivial, hspec⟩
  · -- `removing` fails
    cases h; exact List.forall_mem_cons.mpr ⟨trivial, List.forall_mem_cons.mpr ⟨trivial, hspec⟩⟩
  · -- `removing` ends
    cases h
    obtain rfl : es' = [] := hspec
    exact List.forall_mem_nil _
  · cases h

end Output

/-! ## `processLongSession` -/

section Long

variable {host : OutputHost} {s : Session}

/-- What `processLongSession` does from where it stands. -/
def LongPc.Spec (host : OutputHost) (s : Session) (es : List ClipEffect) : LongPc → Prop
  | .start => ∃ r write start released, Released host s (resultText r) true released ∧
      es = longEffects host s r write start released
  | .whisper => ∃ r write start released, Released host s (resultText r) true released ∧
      es = .transcribed r :: resultEffects host s write start released r
  | .subtract r | .signal r | .finish r => ∃ write start released, Released host s (resultText r) true released ∧
      es = resultEffects host s write start released r

/-- The same for what follows a step: a call of `processTranscript`, another step, or the end. -/
def LongPc.Rest (host : OutputHost) (s : Session) (es : List ClipEffect) : Option OutputThread → Option LongPc → Prop
  | some t, _ => t.session = s → t.Spec host s es
  | none, some pc => pc.Spec host s es
  | none, none => es = []

/-- What `processLongSession` does, from the step before. -/
theorem LongPc.Spec.step {t t' : Transcriptions} {pc : LongPc} {pc' : Option LongPc} {m : ClipMove}
    {es : List ClipEvent} {es' : List ClipEffect} (h : longStep false t s pc m = some (t', pc', es))
    (hrest : LongPc.Rest host s es' (handOver es) pc') :
    pc.Spec host s (es.flatMap ClipEvent.effects ++ pc.calls s m ++ es') := by
  unfold longStep at h
  split at h
  · -- `start`
    cases h
    obtain ⟨r, write, start, released, hr, rfl⟩ := hrest
    exact ⟨r, write, start, released, hr, rfl⟩
  · -- `whisper`
    cases h
    obtain ⟨write, start, released, hr, rfl⟩ := hrest
    exact ⟨_, write, start, released, hr, rfl⟩
  · -- `subtract`
    split at h <;> cases h <;> exact hrest
  · -- `signal`
    cases h
    exact hrest
  · -- `finish`
    rename_i r
    cases h
    cases r with
    | error err =>
      obtain rfl : es' = [] := hrest
      obtain ⟨released, hr⟩ := exists_released host s "" true
      exact ⟨none, none, released, hr, rfl⟩
    | text text =>
      obtain ⟨write, start, released, hr, rfl⟩ := hrest rfl
      exact ⟨write, start, released, hr, rfl⟩
  · cases h

end Long

/-! ## `transcribe` and `transcribeHTTP` -/

section Clip

variable {host : OutputHost} {s : Session}

/-- What the whole processing may do. -/
def ClipEffects (host : OutputHost) (s : Session) (es : List ClipEffect) : Prop :=
  ∃ r write start released, Released host s (clipText host s r) (!isShortSession host.cfg s) released ∧
    es = clipEffects host s r write start released

def LocalPc.Spec (host : OutputHost) (s : Session) (es : List ClipEffect) : LocalPc → Prop
  | .transcribe => ClipEffects host s es
  | .add => LongPc.start.Spec host s es
  | .long pc => pc.Spec host s es
  | .returned => es = []

def HttpClipPc.Spec (host : OutputHost) (s : Session) (es : List ClipEffect) : HttpClipPc → Prop
  | .transcribeHTTP => ClipEffects host s es
  | .releaseShort | .short => OutputThread.Spec host s ⟨s, "", false, "", .begin⟩ es
  | .cas _ | .select | .release true => LongPc.start.Spec host s es
  | .long pc => pc.Spec host s es
  | .release false | .returned => es = []

/-- What the goroutine does from where it stands. -/
def ClipPc.Spec (host : OutputHost) (s : Session) (es : List ClipEffect) : ClipPc → Prop
  | .transcribe pc => pc.Spec host s es
  | .transcribeHTTP pc => pc.Spec host s es
  | .processTranscript t => t.session = s → t.Spec host s es

theorem clipEffects_of_short {es : List ClipEffect} (hs : isShortSession host.cfg s = true)
    (h : OutputThread.Spec host s ⟨s, "", false, "", .begin⟩ es) : ClipEffects host s es := by
  obtain ⟨write, start, released, hr, rfl⟩ := h
  exact ⟨.error "", write, start, released, by simpa [clipText, hs] using hr, by simp [clipEffects, hs]⟩

theorem clipEffects_of_long {es : List ClipEffect} (hs : isShortSession host.cfg s = false)
    (h : LongPc.start.Spec host s es) : ClipEffects host s es := by
  obtain ⟨r, write, start, released, hr, rfl⟩ := h
  exact ⟨r, write, start, released, by simpa [clipText, hs] using hr, by simp [clipEffects, hs]⟩

/-- What the goroutine does, from the step before. -/
theorem ClipPc.Spec.step {pc pc' : ClipPc} {es es' : List ClipEffect} (h : ClipStep host s pc es pc')
    (hp : Processes host s pc' es') (hspec : pc'.Spec host s es') : pc.Spec host s (es ++ es') := by
  cases h with
  | @transcribe t t' pc pc' m es h =>
    unfold localStep at h
    split at h
    · split at h
      · rename_i hs
        cases h
        exact clipEffects_of_short hs (hspec rfl)
      · rename_i hs
        cases h
        exact clipEffects_of_long (Bool.not_eq_true _ ▸ hs) hspec
    · cases h; exact hspec
    · obtain ⟨⟨t₁, p₁, es₁⟩, hl, h⟩ := Option.map_eq_some_iff.mp h
      cases h
      refine LongPc.Spec.step hl ?_
      cases hh : handOver es <;> cases p₁ <;> (rw [hh] at hspec; exact hspec)
    · cases h
  | @transcribeHTTP t t' n n' i pc pc' m es h =>
    unfold httpClipStep at h
    split at h
    · cases h
      cases hs : isShortSession host.cfg s
      · rw [hs] at hspec
        exact clipEffects_of_long hs hspec
      · rw [hs] at hspec
        exact clipEffects_of_short hs hspec
    · cases h; exact hspec
    · cases h; exact hspec rfl
    · split at h <;> cases h <;> exact hspec
    · split at h
      · cases h; exact hspec
      · cases h
    · cases h
    · rename_i success
      cases h
      cases success <;> exact hspec
    · obtain ⟨⟨t₁, p₁, es₁⟩, hl, h⟩ := Option.map_eq_some_iff.mp h
      cases h
      rw [clips_map] at hspec ⊢
      refine LongPc.Spec.step hl ?_
      cases hh : handOver es₁ <;> cases p₁ <;> (rw [hh] at hspec; exact hspec)
    · cases h
  | processTranscript ho h =>
    intro hs
    exact .step hs ho h hp (hspec ((outputStep_session h).trans hs))

end Clip

/-! ## The law -/

section Law

variable {host : OutputHost} {s : Session}

/-- The arguments of a call of Whisper. -/
def ClipEffect.call : ClipEffect → Option (Nat × List UInt8)
  | .transcribe clipID pcm => some (clipID, pcm)
  | _ => none

/-- The result of a call of Whisper. -/
def ClipEffect.result : ClipEffect → Option WhisperResult
  | .transcribed r => some r
  | _ => none

section Pruned

variable {pruned : List ClipEffect} (hpruned : ∀ e ∈ pruned, e.Prunes)
include hpruned

end Pruned

end Law

end Talk2Text.Daemon
