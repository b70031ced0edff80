import Talk2Text.Daemon.Fates
import Talk2Text.Whisper.Transcribe

/-!
# The texts of transcripts

What Whisper answers goes through `Transcribe` and `processLongSession` before `processTranscript` is called with it.

- `processed_texts`: in every run of the daemon, each text that is processed is empty, or a line of words that is not the
  blank marker.
-/

namespace Talk2Text.Daemon

open Sys Util

/-- The texts that Whisper has returned are collapsed. -/
def WhisperResult.Collapsed : WhisperResult → Prop
  | .text t => collapseSpace t = t
  | .error _ => True

def ClipMove.Collapsed : ClipMove → Prop
  | .whisper r => r.Collapsed
  | _ => True

def LongPc.Collapsed : LongPc → Prop
  | .subtract r | .signal r | .finish r => r.Collapsed
  | _ => True

def LocalPc.Collapsed : LocalPc → Prop
  | .long pc => pc.Collapsed
  | _ => True

def HttpClipPc.Collapsed : HttpClipPc → Prop
  | .long pc => pc.Collapsed
  | _ => True

def Thread.Collapsed : Thread → Prop
  | .transcribe _ pc => pc.Collapsed
  | .handling _ _ => True
  | .accepted _ _ clip => clip.Collapsed

/-- The text is empty, or it is collapsed and not the blank marker. -/
def ClipEvent.Clean : ClipEvent → Prop
  | .processTranscript _ text transcribed =>
    text = "" ∨ transcribed = true ∧ isBlank text = false ∧ collapseSpace text = text
  | _ => True

def HttpEvent.Clean : HttpEvent → Prop
  | .clip e => e.Clean
  | _ => True

def DaemonEvent.Clean : DaemonEvent → Prop
  | .http e => e.Clean
  | _ => True

/-- The text that Whisper returns in the step. -/
def DaemonLabel.whispered : DaemonLabel → Option String
  | .http (.clip _ (.whisper (.text text))) => some text
  | _ => none

/-- What Whisper returns is what `Transcribe` makes of some answer. -/
def DaemonLabel.Answered (l : DaemonLabel) : Prop :=
  ∀ text, l.whispered = some text → ∃ response, Whisper.transcribe response = .ok text

section Steps

variable {cfg : Config} {cancelled : Bool} {tr tr' : Transcriptions} {session : Session} {m : ClipMove}

theorem finishLong_clean {r : WhisperResult} (h : r.Collapsed) : ∀ e ∈ finishLong cancelled session r, e.Clean := by
  cases r with
  | error err =>
    cases cancelled with
    | true => exact List.forall_mem_nil _
    | false => exact List.forall_mem_cons.mpr ⟨trivial, List.forall_mem_singleton.mpr trivial⟩
  | text text =>
    refine List.forall_mem_cons.mpr ⟨trivial, List.forall_mem_singleton.mpr ?_⟩
    show (if isBlank text then "" else text) = "" ∨ _
    cases hb : isBlank text with
    | true => exact .inl rfl
    | false => exact .inr ⟨rfl, hb, h⟩

/-- **`processLongSession`** hands on what Whisper has returned. -/
theorem longStep_clean {pc : LongPc} {pc' : Option LongPc} {es : List ClipEvent} (h : pc.Collapsed)
    (hm : m.Collapsed) (hs : longStep cancelled tr session pc m = some (tr', pc', es)) :
    (∀ p, pc' = some p → p.Collapsed) ∧ ∀ e ∈ es, e.Clean := by
  have hnil : ∀ e ∈ ([] : List ClipEvent), e.Clean := List.forall_mem_nil _
  unfold longStep at hs
  split at hs
  · cases hs
    refine ⟨fun p hp => ?_, List.forall_mem_singleton.mpr trivial⟩
    cases hp
    trivial
  · cases hs
    refine ⟨fun p hp => ?_, hnil⟩
    cases hp
    exact hm
  · split at hs
    · cases hs
      refine ⟨fun p hp => ?_, hnil⟩
      cases hp
      exact h
    · cases hs
      refine ⟨fun p hp => ?_, hnil⟩
      cases hp
      exact h
  · cases hs
    refine ⟨fun p hp => ?_, hnil⟩
    cases hp
    exact h
  · cases hs
    exact ⟨fun p hp => absurd hp (Option.some_ne_none p).symm, finishLong_clean h⟩
  · cases hs

theorem localStep_clean {pc pc' : LocalPc} {es : List ClipEvent} (h : pc.Collapsed) (hm : m.Collapsed)
    (hs : localStep cfg cancelled tr session pc m = some (tr', pc', es)) : pc'.Collapsed ∧ ∀ e ∈ es, e.Clean := by
  have hnil : ∀ e ∈ ([] : List ClipEvent), e.Clean := List.forall_mem_nil _
  unfold localStep at hs
  split at hs
  · split at hs
    · cases hs
      exact ⟨trivial, List.forall_mem_singleton.mpr (.inl rfl)⟩
    · cases hs
      exact ⟨trivial, hnil⟩
  · cases hs
    exact ⟨trivial, hnil⟩
  · obtain ⟨⟨tr₁, pc₁, es₁⟩, hl, hs⟩ := Option.map_eq_some_iff.mp hs
    cases hs
    obtain ⟨hpc, hes⟩ := longStep_clean h hm hl
    refine ⟨?_, hes⟩
    cases pc₁ with
    | none => trivial
    | some p => exact hpc p rfl
  · cases hs

theorem httpClipStep_clean {n n' : Int} {i : Nat} {pc pc' : HttpClipPc} {es : List HttpEvent} (h : pc.Collapsed)
    (hm : m.Collapsed) (hs : httpClipStep cfg cancelled tr n i session pc m = some (tr', n', pc', es)) :
    pc'.Collapsed ∧ ∀ e ∈ es, e.Clean := by
  have hnil : ∀ e ∈ ([] : List HttpEvent), e.Clean := List.forall_mem_nil _
  unfold httpClipStep at hs
  split at hs
  · cases hs
    refine ⟨?_, hnil⟩
    split <;> trivial
  · cases hs
    exact ⟨trivial, List.forall_mem_singleton.mpr trivial⟩
  · cases hs
    exact ⟨trivial, List.forall_mem_singleton.mpr (.inl rfl)⟩
  · split at hs
    · cases hs
      exact ⟨trivial, hnil⟩
    · cases hs
      exact ⟨trivial, hnil⟩
  · split at hs
    · cases hs
      exact ⟨trivial, hnil⟩
    · cases hs
  · split at hs
    · cases hs
      exact ⟨trivial, hnil⟩
    · cases hs
  · cases hs
    refine ⟨?_, List.forall_mem_singleton.mpr trivial⟩
    split <;> trivial
  · obtain ⟨⟨tr₁, pc₁, es₁⟩, hl, hs⟩ := Option.map_eq_some_iff.mp hs
    cases hs
    obtain ⟨hpc, hes⟩ := longStep_clean h hm hl
    refine ⟨?_, List.forall_mem_map.mpr hes⟩
    cases pc₁ with
    | none => trivial
    | some p => exact hpc p rfl
  · cases hs

theorem handlerStep_clean {host : HttpHost} {admitted admitted' : Int} {n n' i : Nat} {r : HttpRequest}
    {pc : HandlerPc} {th : Thread} {es : List HttpEvent}
    (hs : handlerStep host cancelled admitted n i r pc = some (admitted', n', th, es)) :
    th.Collapsed ∧ ∀ e ∈ es, e.Clean := by
  have hnil : ∀ e ∈ ([] : List HttpEvent), e.Clean := List.forall_mem_nil _
  cases pc with
  | check =>
    simp only [handlerStep] at hs
    split at hs <;> cases hs <;> exact ⟨trivial, hnil⟩
  | increment environment =>
    simp only [handlerStep] at hs
    split at hs
    · cases hs; exact ⟨trivial, hnil⟩
    · cases hs; exact ⟨trivial, List.forall_mem_singleton.mpr trivial⟩
  | refuse | allocate => cases hs; exact ⟨trivial, hnil⟩
  | readAudio environment =>
    simp only [handlerStep] at hs
    split at hs
    · cases hs; exact ⟨trivial, List.forall_mem_map.mpr fun _ _ => trivial⟩
    · cases hs; exact ⟨trivial, hnil⟩
  | checkContext environment pcm =>
    simp only [handlerStep] at hs
    split at hs <;> cases hs <;> exact ⟨trivial, hnil⟩
  | newSession environment pcm clipID =>
    simp only [handlerStep] at hs
    split at hs
    · cases hs; exact ⟨trivial, List.forall_mem_singleton.mpr trivial⟩
    · cases hs; exact ⟨trivial, hnil⟩
  | respond => cases hs; exact ⟨trivial, List.forall_mem_singleton.mpr trivial⟩
  | deferred unfinished =>
    simp only [handlerStep] at hs
    split at hs
    · cases hs; exact ⟨trivial, List.forall_mem_singleton.mpr trivial⟩
    · cases hs; exact ⟨trivial, hnil⟩
  | returned => cases hs

/-- **A step of the HTTP side** processes what Whisper has returned. -/
theorem httpStep_clean {host : HttpHost} {s t : Http} {l : HttpLabel} {out : List HttpEvent}
    (hs : httpStep host s l = some (t, out)) (h : ∀ th ∈ s.threads, th.Collapsed)
    (hm : ∀ i m, l = .clip i m → m.Collapsed) :
    (∀ th ∈ t.threads, th.Collapsed) ∧ ∀ e ∈ out, e.Clean := by
  have hnil : ∀ e ∈ ([] : List HttpEvent), e.Clean := List.forall_mem_nil _
  cases httpStep_acts hs with
  | transcribe | request => exact ⟨List.forall_mem_append.mpr ⟨h, List.forall_mem_singleton.mpr trivial⟩, hnil⟩
  | allocateClip | cancel => exact ⟨h, hnil⟩
  | handler i r pc admitted n th es hi hh =>
    obtain ⟨hth, hes⟩ := handlerStep_clean hh
    exact ⟨forall_mem_set h hth, hes⟩
  | respond i session clip pc pc' es hi hh =>
    have hclip : clip.Collapsed := h _ (List.mem_of_getElem? hi)
    refine ⟨forall_mem_set h hclip, ?_⟩
    unfold acceptedStep at hh
    split at hh
    · cases hh; exact List.forall_mem_singleton.mpr trivial
    · cases hh
  | localClip i m session pc pc' tr es hi hh =>
    obtain ⟨hpc, hes⟩ := localStep_clean (h _ (List.mem_of_getElem? hi)) (hm i m rfl) hh
    exact ⟨forall_mem_set h hpc, List.forall_mem_map.mpr hes⟩
  | httpClip i m session pc clip clip' tr admitted es hi hh =>
    obtain ⟨hpc, hes⟩ := httpClipStep_clean (h _ (List.mem_of_getElem? hi)) (hm i m rfl) hh
    exact ⟨forall_mem_set h hpc, hes⟩

end Steps

section Runs

variable {host : DaemonHost} {h : List DaemonStep} {s t : DaemonState} {l : DaemonLabel} {out : List DaemonEvent}

theorem daemon_clean (es : List Event) : ∀ e ∈ es.map Event.daemon, e.Clean := by
  refine List.forall_mem_map.mpr fun e _ => ?_
  cases e <;> exact trivial

theorem spawn_collapsed {u : Http} (sessions : List Session) (h : ∀ th ∈ u.threads, th.Collapsed) :
    ∀ th ∈ (u.spawn sessions).threads, th.Collapsed :=
  List.forall_mem_append.mpr ⟨h, List.forall_mem_map.mpr fun _ _ => trivial⟩

/-- What `Transcribe` returns is collapsed. -/
theorem collapsed_of_answered {i : Nat} {m : ClipMove} (h : DaemonLabel.Answered (.http (.clip i m))) :
    m.Collapsed := by
  cases m with
  | whisper r =>
    cases r with
    | text text =>
      obtain ⟨response, htext⟩ := h text rfl
      exact Whisper.collapsed_of_transcribe htext
    | error => trivial
  | _ => trivial

theorem daemonStep_clean (hst : daemonStep host s l = some (t, out)) (hl : l.Answered)
    (h : ∀ th ∈ s.http.threads, th.Collapsed) :
    (∀ th ∈ t.http.threads, th.Collapsed) ∧ ∀ e ∈ out, e.Clean := by
  have hanswer : ∀ err data, ∀ e ∈ [DaemonEvent.answer err data], e.Clean :=
    fun err data => List.forall_mem_singleton.mpr trivial
  cases daemonStep_acts hst with
  | fail | status => exact ⟨h, hanswer _ _⟩
  | start | stop => exact ⟨h, daemon_clean _⟩
  | capture l c es => exact ⟨spawn_collapsed _ h, daemon_clean es⟩
  | http l u es _ hu =>
    obtain ⟨hu', hes⟩ := httpStep_clean hu h fun i m he => by
      subst he
      exact collapsed_of_answered hl
    exact ⟨hu', List.forall_mem_map.mpr hes⟩

/-- **What is processed is a line of words.** In every run of the daemon in which Whisper returns what `Transcribe`
makes of some answer, each text handed to `processTranscript` is empty, or it is not the blank marker and consists of
words with single spaces in between: no line break, no tab, no space at an end. -/
theorem processed_texts (r : Run (daemonSystem host) h s) (hw : ∀ st ∈ h, st.label.Answered) {session : Session}
    {text : String} {transcribed : Bool}
    (he : .http (.clip (.processTranscript session text transcribed)) ∈ outputs h) :
    text = "" ∨ transcribed = true ∧ isBlank text = false ∧
      ∃ words, words ≠ [] ∧ (∀ w ∈ words, IsWord w) ∧ text = String.ofList ([' '].intercalate words) := by
  have hinit : ∀ s, (daemonSystem host).init s → ∀ th ∈ s.http.threads, th.Collapsed := by
    rintro s ⟨early, rfl⟩
    exact List.forall_mem_nil _
  have hrun := Run.forall_outputs (M := daemonSystem host) (Q := DaemonEvent.Clean) hinit r
    fun st hm hst hs => daemonStep_clean hst (hw st hm) hs
  by_cases hne : text = ""
  · exact .inl hne
  · obtain ⟨htranscribed, hblank, hcollapsed⟩ := Or.resolve_left (hrun.2 _ he) hne
    exact .inr ⟨htranscribed, hblank, words_of_collapsed hcollapsed hne⟩

/-- The text of a submission, with a line break at its end in the answer. -/
theorem processed_texts_submission : ∃ h s, Run (daemonSystem quietDaemon) h s ∧
    (∃ session, .http (.clip (.processTranscript session "One two" true)) ∈ outputs h) ∧
    ∃ words, words ≠ [] ∧ (∀ w ∈ words, IsWord w) ∧ "One two" = String.ofList ([' '].intercalate words) := by
  obtain ⟨h, s, r, hq⟩ := Run.exists_of_exec (M := daemonSystem quietDaemon) ⟨false, rfl⟩
    ((submit 0 ++ transcribeClip 0 "One two").map .http)
    (fun h _ => (∀ st ∈ h, st.label.whispered.all (· = "One two")) ∧
      .http (.clip (.processTranscript { newSession 1 "" [] with buffer := List.replicate 640 0, duration := 20000000 }
        "One two" true)) ∈ outputs h) (by decide +kernel)
  obtain ⟨hlabels, he⟩ := of_decide_eq_true hq
  have hanswer : Whisper.transcribe (.ok ⟨200, "200 OK", ⟨Format.utf8 "\x7b\"text\":\" One two\\n\"\x7d", .eof⟩⟩) =
      .ok "One two" := by decide +kernel
  have hw : ∀ st ∈ h, st.label.Answered := by
    intro st hm text htext
    have hall := hlabels st hm
    rw [htext, Option.all_some, decide_eq_true_eq] at hall
    exact ⟨_, hall ▸ hanswer⟩
  rcases processed_texts r hw he with hempty | hwords
  · exact absurd hempty (by decide)
  · exact ⟨h, s, r, ⟨_, he⟩, hwords.2.2⟩

end Runs

end Talk2Text.Daemon
