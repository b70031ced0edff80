import Talk2Text.Daemon.Fates
import Talk2Text.Daemon.OutputFile

/-!
# The whole daemon

`wholeSystem` joins the daemon with the transcript directory: whenever a goroutine calls `processTranscript`, it goes
on as a goroutine of `outputSystem`. The two share the context.

What is assumed about clips in `outputSystem` (each clip ID is used once) holds here: `output_of_run` projects a run of
the whole daemon to `outputSystem`, as long as the clip IDs fit into an `int`.

- `output_sees_transcript`: an output command finds exactly its transcript, from its start to its end;
- `removed_after_use`: the pruner removes only transcripts of clips that are through, below the window.
-/

namespace Talk2Text.Daemon

open Sys RuntimeDir Format Retention
open Server (Request)

/-! ## The system -/

structure WholeHost where
  daemon : DaemonHost
  /-- `os.Environ`. -/
  environ : List (List UInt8)

def WholeHost.output (host : WholeHost) : OutputHost := ⟨host.daemon.cfg, host.environ⟩

/-- The daemon and its transcripts. -/
structure WholeState where
  daemon : DaemonState
  output : Output
  cancelled_eq : output.cancelled = daemon.capture.cancelled

/-- The context is that of the daemon. -/
def WholeState.join (d : DaemonState) (o : Output) : WholeState where
  daemon := d
  output := { o with cancelled := d.capture.cancelled }
  cancelled_eq := rfl

inductive WholeLabel
  | daemon (l : DaemonLabel)
  /-- A goroutine in `processTranscript`. -/
  | thread (i : Nat) (m : OutputMove)
  /-- Somebody else removes an entry of the directory. -/
  | unlink (name : String)
  deriving DecidableEq, Repr

inductive WholeEvent
  | daemon (e : DaemonEvent)
  | output (e : OutputEvent)
  deriving DecidableEq, Repr

/-- The goroutines that call `processTranscript`. -/
def outputThreads (es : List DaemonEvent) : List OutputThread :=
  es.filterMap fun
    | .http (.clip (.processTranscript s text transcribed)) => some ⟨s, text, transcribed, "", .begin⟩
    | _ => none

/-- One atomic step. -/
def wholeStep (host : WholeHost) (s : WholeState) : WholeLabel → Option (WholeState × List WholeEvent)
  | .daemon l =>
    (daemonStep host.daemon s.daemon l).map fun (d, es) =>
      (.join d { s.output with threads := s.output.threads ++ outputThreads es }, es.map .daemon)
  | .thread i m =>
    (outputSystemStep host.output s.output (.thread i m)).map fun (o, es) => (.join s.daemon o, es.map .output)
  | .unlink name =>
    (outputSystemStep host.output s.output (.unlink name)).map fun (o, es) => (.join s.daemon o, es.map .output)

/-- The daemon over what is left in the transcript directory at its start. -/
def wholeSystem (host : WholeHost) (dir : List Entry) : System WholeState WholeLabel WholeEvent where
  init s := ∃ early, s = ⟨.initial host.daemon.cfg early, .initial dir, rfl⟩
  step := wholeStep host

/-! ## The two parts -/

section Parts

variable {host : WholeHost} {dir : List Entry}

/-- The clips in `processTranscript`. -/
def Output.ids (o : Output) : List Nat := o.threads.map fun t => t.session.id

theorem ids_outputThreads (es : List DaemonEvent) :
    (outputThreads es).map (fun t => t.session.id) = processed es := by
  rw [outputThreads, processed, List.map_filterMap]
  congr 1
  funext e
  cases e with
  | answer | capture => rfl
  | http e =>
    cases e with
    | clip e => cases e <;> rfl
    | respond | log | acquire | release => rfl

/-- A goroutine keeps its clip, and the context is cancelled elsewhere. -/
theorem outputSystemStep_thread {oh : OutputHost} {o o' : Output} {i : Nat} {m : OutputMove} {es : List OutputEvent}
    (h : outputSystemStep oh o (.thread i m) = some (o', es)) : o'.ids = o.ids ∧ o'.cancelled = o.cancelled := by
  simp only [outputSystemStep] at h
  split at h
  · cases h
  · rename_i th hi
    obtain ⟨⟨s', th', es⟩, hstep, he⟩ := Option.map_eq_some_iff.mp h
    cases he
    obtain ⟨hs, -, -, hc⟩ := outputStep_same hstep
    refine ⟨?_, hc⟩
    obtain ⟨hlt, rfl⟩ := List.getElem?_eq_some_iff.mp hi
    show (o.threads.set i th').map _ = o.threads.map _
    rw [List.map_set, hs, ← List.getElem_map (fun t : OutputThread => t.session.id) (h := by simpa using hlt),
      List.set_getElem_self]

/-- The step of `outputSystem`. -/
def WholeLabel.output : WholeLabel → Option OutputLabel
  | .daemon _ => none
  | .thread i m => some (.thread i m)
  | .unlink name => some (.unlink name)

/-- What a step does to the transcripts: nothing, or a step of `outputSystem`, and new goroutines after it. -/
inductive WholeActs (host : WholeHost) (s : WholeState) : WholeLabel → WholeState → List WholeEvent → Prop
  | daemon (l : DaemonLabel) (d : DaemonState) (es : List DaemonEvent) :
      daemonStep host.daemon s.daemon l = some (d, es) →
      WholeActs host s (.daemon l) (.join d { s.output with threads := s.output.threads ++ outputThreads es })
        (es.map .daemon)
  | output (l : WholeLabel) (l' : OutputLabel) (t : WholeState) (es : List OutputEvent) :
      l.output = some l' → outputSystemStep host.output s.output l' = some (t.output, es) → t.daemon = s.daemon →
      t.output.ids = s.output.ids → WholeActs host s l t (es.map .output)

/-- **The steps of the whole daemon.** -/
theorem wholeStep_acts {s t : WholeState} {l : WholeLabel} {out : List WholeEvent}
    (h : wholeStep host s l = some (t, out)) : WholeActs host s l t out := by
  cases l with
  | daemon l =>
    obtain ⟨⟨d, es⟩, hd, he⟩ := Option.map_eq_some_iff.mp h
    cases he; exact .daemon l d es hd
  | thread i m =>
    obtain ⟨⟨o, es⟩, ho, he⟩ := Option.map_eq_some_iff.mp h
    cases he
    obtain ⟨hids, hc⟩ := outputSystemStep_thread ho
    have hjoin : (WholeState.join s.daemon o).output = o := by
      simp only [WholeState.join, ← s.cancelled_eq, ← hc]
    exact .output _ (.thread i m) _ es rfl (hjoin ▸ ho) rfl (hjoin ▸ hids)
  | unlink name =>
    cases h
    have hjoin : (WholeState.join s.daemon { s.output with dir := removeEntry s.output.dir name }).output =
        { s.output with dir := removeEntry s.output.dir name } := by
      simp only [WholeState.join, ← s.cancelled_eq]
    exact .output _ (.unlink name) _ [] rfl (by rw [hjoin]; rfl) rfl (by rw [hjoin]; rfl)

/-- **The daemon of the whole** is a run of the daemon, and the clips in `processTranscript` are those handed to it. -/
theorem daemon_of_run {h : List (Step WholeState WholeLabel WholeEvent)} {s : WholeState}
    (r : Run (wholeSystem host dir) h s) :
    ∃ hd, Run (daemonSystem host.daemon) hd s.daemon ∧ s.output.ids = processed (outputs hd) := by
  refine Run.induction
    (P := fun _ s => ∃ hd, Run (daemonSystem host.daemon) hd s.daemon ∧ s.output.ids = processed (outputs hd)) ?_ ?_ r
  · rintro s ⟨early, rfl⟩
    exact ⟨[], .nil ⟨early, rfl⟩, rfl⟩
  · rintro h s l t out - ⟨hd, rd, hids⟩ hst
    cases wholeStep_acts hst with
    | daemon l d es hd' =>
      refine ⟨_, rd.snoc (M := daemonSystem host.daemon) hd', ?_⟩
      have hp : processed (outputs hd ++ es) = processed (outputs hd) ++ processed es := by
        rw [processed, List.filterMap_append]
        rfl
      rw [outputs_snoc, hp, ← hids, ← ids_outputThreads]
      exact List.map_append
    | output l l' t es _ _ hd' hi => exact ⟨hd, hd' ▸ rd, hi.trans hids⟩

/-- New goroutines are steps of `outputSystem`, if their clips are new. -/
theorem spawn_output_steps {oh : OutputHost} (ts : List OutputThread) (o : Output)
    (hnew : ∀ u ∈ ts, (0 < u.session.id ∧ u.session.id ≤ maxClipID) ∧ u.path = "" ∧ u.pc = .begin)
    (hnodup : (o.ids ++ ts.map fun t => t.session.id).Nodup) :
    Steps (outputSystem oh dir) o { o with threads := o.threads ++ ts } := by
  induction ts generalizing o with
  | nil => simpa using Steps.refl (N := outputSystem oh dir) o
  | cons u ts ih =>
    obtain ⟨⟨session, text, transcribed, path, pc⟩, rfl⟩ : ∃ v, v = u := ⟨u, rfl⟩
    obtain ⟨⟨hpos, hle⟩, hpath, hpc⟩ := hnew _ List.mem_cons_self
    cases hpath
    cases hpc
    have hfresh : o.threads.all (fun t => t.session.id ≠ session.id) = true := by
      refine List.all_eq_true.mpr fun t ht => decide_eq_true fun he => ?_
      exact (List.nodup_append.mp hnodup).2.2 _ (List.mem_map_of_mem ht) session.id List.mem_cons_self he
    have hone : (outputSystem oh dir).step o (.processTranscript session text transcribed) =
        some ({ o with threads := o.threads ++ [⟨session, text, transcribed, "", .begin⟩] }, []) :=
      if_pos ⟨hpos, hle, hfresh⟩
    have hrest := (Steps.single hone).trans (ih _ (fun v hv => hnew v (List.mem_cons_of_mem _ hv)) (by
      simpa [Output.ids] using hnodup))
    simpa using hrest

/-- The context stays cancelled, and the clip counter does not go back. -/
theorem daemonStep_mono {dh : DaemonHost} {d d' : DaemonState} {l : DaemonLabel} {es : List DaemonEvent}
    (h : daemonStep dh d l = some (d', es)) :
    (d'.capture.cancelled = d.capture.cancelled ∨ d'.capture.cancelled = true) ∧
      d.capture.nextClip ≤ d'.capture.nextClip := by
  have hcap : ∀ {l : Label} {c : Capture} {es : List Event}, captureStep dh.captureHost d.capture l = some (c, es) →
      (c.cancelled = d.capture.cancelled ∨ c.cancelled = true) ∧ d.capture.nextClip ≤ c.nextClip := by
    intro l c es hc
    obtain ⟨hn, hcan⟩ := captureStep_shared hc
    refine ⟨hcan.imp id fun hc => by rw [hc.2.1], ?_⟩
    rcases hn with hn | ⟨-, hn⟩ <;> omega
  cases daemonStep_acts h with
  | fail | status => exact ⟨Or.inl rfl, Nat.le_refl _⟩
  | start r done early env c es _ hc => exact hcap hc
  | stop r done early o c es _ hc => exact hcap hc
  | capture l c es _ hc => exact hcap hc
  | http l u es hl hu =>
    refine ⟨Or.inl rfl, ?_⟩
    show d.capture.nextClip ≤ u.nextClip
    have := d.nextClip_eq
    rcases (httpStep_shared hl hu).2 with hn | hn <;> omega

/-- The clips handed to `processTranscript` have different IDs below the next one. -/
theorem processed_ids {dh : DaemonHost} {hd : List DaemonStep} {d : DaemonState} (r : Run (daemonSystem dh) hd d) :
    (processed (outputs hd)).Nodup ∧
      ∀ c ∈ processed (outputs hd), (0 < c ∧ c < d.capture.nextClip) ∧ c ∉ d.inProgress := by
  obtain ⟨-, -, hperm⟩ := fates_of_run r
  have hnodup := hperm.nodup_iff.mpr (List.nodup_range' ..)
  rw [DaemonState.fates, List.append_assoc] at hnodup
  obtain ⟨hn, -, hdis⟩ := List.nodup_append.mp hnodup
  refine ⟨hn, fun c hc => ⟨?_, fun hp => hdis c hc c (List.mem_append_right _ hp) rfl⟩⟩
  have hm : c ∈ d.fates hd := List.mem_append_left _ (List.mem_append_left _ hc)
  have := List.mem_range'_1.mp (hperm.mem_iff.mp hm)
  omega

/-- **A goroutine that calls `processTranscript`** has a clip of its own. -/
theorem outputThreads_new {h : List (Step WholeState WholeLabel WholeEvent)} {s : WholeState}
    (r : Run (wholeSystem host dir) h s) {l : DaemonLabel} {d : DaemonState} {es : List DaemonEvent}
    (hd : daemonStep host.daemon s.daemon l = some (d, es)) (hn : d.capture.nextClip ≤ 2 ^ 63) :
    (∀ u ∈ outputThreads es, (0 < u.session.id ∧ u.session.id ≤ maxClipID) ∧ u.path = "" ∧ u.pc = .begin) ∧
      (s.output.ids ++ (outputThreads es).map fun t => t.session.id).Nodup := by
  obtain ⟨hist, rd, hids⟩ := daemon_of_run r
  obtain ⟨hnodup, hrange⟩ := processed_ids (rd.snoc (M := daemonSystem host.daemon) hd)
  have hp : processed (outputs (hist ++ [⟨s.daemon, l, es, d⟩])) = s.output.ids ++ processed es := by
    rw [outputs_snoc, hids, processed, processed, List.filterMap_append]
    rfl
  rw [hp, ← ids_outputThreads] at hnodup hrange
  refine ⟨fun u hu => ?_, hnodup⟩
  obtain ⟨⟨hpos, hlt⟩, -⟩ := hrange _ (List.mem_append_right _ (List.mem_map_of_mem hu))
  have hlt : u.session.id < 2 ^ 63 := Nat.lt_of_lt_of_le hlt hn
  refine ⟨⟨hpos, Nat.le_sub_one_of_lt hlt⟩, ?_⟩
  obtain ⟨e, -, he⟩ := List.mem_filterMap.mp hu
  split at he <;> cases he
  exact ⟨rfl, rfl⟩

/-- **The transcripts of the whole** are a run of `outputSystem`, as long as the clip IDs fit into an `int`. -/
theorem output_of_run {h : List (Step WholeState WholeLabel WholeEvent)} {s : WholeState}
    (r : Run (wholeSystem host dir) h s) (hn : s.daemon.capture.nextClip ≤ 2 ^ 63) :
    Reachable (outputSystem host.output dir) s.output := by
  induction r with
  | nil hi =>
    obtain ⟨early, rfl⟩ := hi
    exact .init rfl
  | @snoc h s t l out r hst ih =>
    cases wholeStep_acts hst with
    | daemon l d es hd =>
      obtain ⟨hcan, hle⟩ := daemonStep_mono hd
      have hs := ih (Nat.le_trans hle hn)
      obtain ⟨hnew, hnodup⟩ := outputThreads_new r hd hn
      have hs' := (@spawn_output_steps dir host.output _ s.output hnew hnodup).reachable hs
      rcases hcan with hcan | hcan
      · have hsame : (WholeState.join d { s.output with threads := s.output.threads ++ outputThreads es }).output =
            { s.output with threads := s.output.threads ++ outputThreads es } := by
          simp only [WholeState.join, hcan, ← s.cancelled_eq]
        rw [hsame]
        exact hs'
      · have hdone : (outputSystem host.output dir).step
            { s.output with threads := s.output.threads ++ outputThreads es } .cancel = some
              ((WholeState.join d { s.output with threads := s.output.threads ++ outputThreads es }).output, []) := by
          simp only [WholeState.join, hcan]
          rfl
        exact hs'.step hdone
    | output l l' t es _ ho hd _ => exact (ih (hd ▸ hn)).step (M := outputSystem host.output dir) ho

end Parts

/-! ## Output commands -/

section Commands

variable {host : WholeHost} {dir : List Entry} {h : List (Step WholeState WholeLabel WholeEvent)} {s : WholeState}

/-- New goroutines leave the files that are held. -/
theorem filesOk_spawn {oh : OutputHost} (ts : List OutputThread) {o : Output} (hok : FilesOk oh o)
    (hnew : ∀ u ∈ ts, (0 < u.session.id ∧ u.session.id ≤ maxClipID) ∧ u.path = "" ∧ u.pc = .begin)
    (hnodup : (o.ids ++ ts.map fun t => t.session.id).Nodup) :
    FilesOk oh { o with threads := o.threads ++ ts } := by
  induction ts generalizing o with
  | nil => simpa using hok
  | cons u ts ih =>
    obtain ⟨⟨session, text, transcribed, path, pc⟩, rfl⟩ : ∃ v, v = u := ⟨u, rfl⟩
    obtain ⟨⟨hpos, hle⟩, hpath, hpc⟩ := hnew _ List.mem_cons_self
    cases hpath
    cases hpc
    have hone := hok.spawn hpos hle (fun t ht he =>
      (List.nodup_append.mp hnodup).2.2 _ (List.mem_map_of_mem ht) session.id List.mem_cons_self he) text transcribed
    have hrest := ih hone (fun v hv => hnew v (List.mem_cons_of_mem _ hv)) (by simpa [Output.ids] using hnodup)
    simpa using hrest

/-- **The files of a run** that nobody else touches. -/
theorem filesOk_of_run (hnames : (dir.map Entry.name).Nodup) (hfree : ∀ e ∈ dir, transcriptClipID e.name = 0)
    (r : Run (wholeSystem host dir) h s) (hno : ∀ st ∈ h, ∀ name, st.label ≠ .unlink name)
    (hn : s.daemon.capture.nextClip ≤ 2 ^ 63) : FilesOk host.output s.output := by
  induction r with
  | nil hi =>
    obtain ⟨early, rfl⟩ := hi
    exact filesOk_initial hfree
  | @snoc h s t l out r hst ih =>
    rw [List.forall_mem_append, List.forall_mem_singleton] at hno
    cases wholeStep_acts hst with
    | daemon l d es hd =>
      obtain ⟨hnew, hnodup⟩ := outputThreads_new r hd hn
      have hok := filesOk_spawn _ (ih hno.1 (Nat.le_trans (daemonStep_mono hd).2 hn)) hnew hnodup
      exact ⟨hok.ids, hok.nodup, hok.fresh, hok.held, hok.path, hok.idle⟩
    | output l l' t es hl ho hd _ =>
      have hn' : s.daemon.capture.nextClip ≤ 2 ^ 63 := hd ▸ hn
      refine filesOk_step (ih hno.1 hn') (fun hw => outputOk_of_reachable hw ⟨hnames, fun e he _ => hfree e he⟩
        (output_of_run r hn')) ?_ ho
      rintro name rfl
      cases l with
      | unlink => exact hno.2 _ rfl
      | daemon | thread => cases hl

/-- A step keeps the texts of the clips. -/
theorem calls_step {l : WholeLabel} {l' : OutputLabel} {oh : OutputHost} {o o' : Output} {es : List OutputEvent}
    (hl : l.output = some l') (h : outputSystemStep oh o l' = some (o', es)) {th' : OutputThread}
    (hth : th' ∈ o'.threads) : ∃ th ∈ o.threads, th.session = th'.session ∧ th.text = th'.text := by
  cases l with
  | daemon => cases hl
  | unlink name =>
    cases hl
    cases h
    exact ⟨th', hth, rfl, rfl⟩
  | thread i m =>
    cases hl
    simp only [outputSystemStep] at h
    split at h
    · cases h
    · rename_i th hi
      obtain ⟨⟨s', u, es⟩, hstep, he⟩ := Option.map_eq_some_iff.mp h
      cases he
      rcases List.mem_or_eq_of_mem_set hth with hth | rfl
      · exact ⟨th', hth, rfl, rfl⟩
      · obtain ⟨hs, ht, -⟩ := outputStep_same hstep
        exact ⟨th, List.mem_of_getElem? hi, hs.symm, ht.symm⟩

/-- Every goroutine in `processTranscript` was called, with its text. -/
theorem called_of_run (r : Run (wholeSystem host dir) h s) : ∀ th ∈ s.output.threads,
    ∃ b, .daemon (.http (.clip (.processTranscript th.session th.text b))) ∈ outputs h := by
  refine Run.induction (P := fun h s => ∀ th ∈ s.output.threads,
    ∃ b, .daemon (.http (.clip (.processTranscript th.session th.text b))) ∈ outputs h) ?_ ?_ r
  · rintro s ⟨early, rfl⟩ th hth
    cases hth
  · rintro h s l t out - ih hst
    have hold : ∀ {x : Session} {text : String},
        (∃ b, .daemon (.http (.clip (.processTranscript x text b))) ∈ outputs h) →
        ∃ b, .daemon (.http (.clip (.processTranscript x text b))) ∈ outputs (h ++ [⟨s, l, out, t⟩]) := by
      rintro x text ⟨b, hb⟩
      exact ⟨b, by rw [outputs_snoc]; exact List.mem_append_left _ hb⟩
    cases wholeStep_acts hst with
    | daemon l d es hd =>
      refine List.forall_mem_append.mpr ⟨fun th hth => hold (ih th hth), fun th hth => ?_⟩
      obtain ⟨e, he, hth⟩ := List.mem_filterMap.mp hth
      split at hth <;> cases hth
      rename_i b
      exact ⟨b, by rw [outputs_snoc]; exact List.mem_append_right _ (List.mem_map_of_mem he)⟩
    | output l l' t es hl ho hd _ =>
      intro th' hth'
      obtain ⟨th, hth, hs, ht⟩ := calls_step hl ho hth'
      rw [← hs, ← ht]
      exact hold (ih th hth)

/-- **An output command finds its transcript.** In every run of the whole daemon over a directory without names of clip
IDs, in which nobody else removes files and the clip IDs fit into an `int`: while an output command is being started and
until it ends, its argument is the path of the transcript of a clip that was handed to `processTranscript`, and that
file holds exactly the text of the clip. -/
theorem output_sees_transcript (hnames : (dir.map Entry.name).Nodup) (hfree : ∀ e ∈ dir, transcriptClipID e.name = 0)
    (r : Run (wholeSystem host dir) h s) (hno : ∀ st ∈ h, ∀ name, st.label ≠ .unlink name)
    (hn : s.daemon.capture.nextClip ≤ 2 ^ 63) :
    ∀ th ∈ s.output.threads, th.pc = .start ∨ th.pc = .wait →
      (∃ b, .daemon (.http (.clip (.processTranscript th.session th.text b))) ∈ outputs h) ∧
      th.path = transcriptPath host.daemon.cfg.runtimeDir th.session.id ∧
      FileHolds s.output.dir (itoa th.session.id) (utf8 th.text) := by
  intro th hth hpc
  have hok := filesOk_of_run hnames hfree r hno hn
  have hready : th.pc.isReady = true := by rcases hpc with hpc | hpc <;> rw [hpc] <;> rfl
  have hheld : th.held = some (utf8 th.text) := by
    rcases hpc with hpc | hpc <;> simp [OutputThread.held, hpc, OutputPc.isReady]
  exact ⟨called_of_run r th hth, hok.path th hth hready, hok.held th hth _ hheld⟩

/-! ## Removals -/

/-- Without a retention window nothing is pruned. -/
theorem idle_of_reachable {oh : OutputHost} {o : Output} (hr : retains oh.cfg = false)
    (hs : Reachable (outputSystem oh dir) o) : ∀ t ∈ o.threads, t.pc.isPruning = false := by
  refine hs.induction (P := fun o => ∀ t ∈ o.threads, t.pc.isPruning = false) ?_ ?_
  · rintro o rfl t ht
    cases ht
  · rintro o l o' es - hidle hst
    cases l with
    | processTranscript session text transcribed =>
      obtain ⟨-, he⟩ := Option.ite_none_right_eq_some.mp hst
      cases he
      exact List.forall_mem_append.mpr ⟨hidle, List.forall_mem_singleton.mpr rfl⟩
    | cancel | unlink name => cases hst; exact hidle
    | thread i m =>
      simp only [outputSystem, outputSystemStep] at hst
      split at hst
      · cases hst
      · rename_i th hi
        obtain ⟨⟨s', th', es⟩, hstep, he⟩ := Option.map_eq_some_iff.mp hst
        cases he
        exact forall_mem_set hidle (outputStep_keeps hr (hidle th (List.mem_of_getElem? hi)) hstep)

/-- The clip counter does not go back in a run. -/
theorem nextClip_le_of_run (r : Run (wholeSystem host dir) h s) :
    ∀ st ∈ h, st.pre.daemon.capture.nextClip ≤ s.daemon.capture.nextClip := by
  refine Run.induction
    (P := fun h s => ∀ st ∈ h, st.pre.daemon.capture.nextClip ≤ s.daemon.capture.nextClip) ?_ ?_ r
  · exact fun s _ st hm => absurd hm List.not_mem_nil
  · rintro h s l t out - ih hst
    have hle : s.daemon.capture.nextClip ≤ t.daemon.capture.nextClip := by
      cases wholeStep_acts hst with
      | daemon l d es hd => exact (daemonStep_mono hd).2
      | output _ _ _ _ _ _ hd => rw [hd]
    exact List.forall_mem_append.mpr
      ⟨fun st hm => Nat.le_trans (ih st hm) hle, List.forall_mem_singleton.mpr hle⟩

/-- **The pruner removes only what is through.** In every run of the whole daemon over a directory without names of clip
IDs, whatever is removed from it by others, as long as the clip IDs fit into an `int`: whenever `os.Remove` is called,
there is a retention window, the name is that of a clip in `processTranscript` that has released its transcript, or given
it up, so that no output command of it runs or will run, and the clip is outside the window below the high watermark. -/
theorem removed_after_use (hnames : (dir.map Entry.name).Nodup) (hfree : ∀ e ∈ dir, transcriptClipID e.name = 0)
    (r : Run (wholeSystem host dir) h s) (hn : s.daemon.capture.nextClip ≤ 2 ^ 63) :
    ∀ st ∈ h, ∀ name, .output (.remove name) ∈ st.out →
      0 < host.daemon.cfg.transcriptRetentionWindow ∧
      ∃ th ∈ st.pre.output.threads, name = itoa th.session.id ∧ th.phase.isOver = true ∧
        th.session.id ∉ st.pre.daemon.inProgress ∧
        (th.session.id : Int) ≤ st.pre.output.transcriptRetentionHighWatermark -
          host.daemon.cfg.transcriptRetentionWindow := by
  intro st hm name he
  obtain ⟨h₁, h₂, rfl⟩ := List.append_of_mem hm
  have hpre := r.before
  have hreach := output_of_run hpre (Nat.le_trans (nextClip_le_of_run r st hm) hn)
  obtain ⟨hd, rd, hids⟩ := daemon_of_run hpre
  obtain ⟨pre, l, out, post⟩ := st
  have hst : wholeStep host pre l = some (post, out) := (r.mem_step hm).2
  cases wholeStep_acts hst with
  | daemon l d es _ =>
    obtain ⟨e, -, he⟩ := List.mem_map.mp he
    cases he
  | output l l' t es _ ho _ _ =>
    obtain ⟨e, he, heq⟩ := List.mem_map.mp he
    cases heq
    obtain ⟨i, m, th, -, hi, hfile⟩ := remove_of_step ho he
    have hth := List.mem_of_getElem? hi
    have hw : 0 < host.output.cfg.transcriptRetentionWindow := by
      by_contra hw
      have hidle := idle_of_reachable (decide_eq_false hw) hreach th hth
      unfold OutputPc.isPruning at hidle
      unfold OutputPc.files at hfile
      split at hfile <;> simp_all
    have hok := outputOk_of_reachable hw ⟨hnames, fun e he _ => hfree e he⟩ hreach
    obtain ⟨c, rfl⟩ := hok.files th hth name hfile
    have hrole : th.role ∈ pre.output.roles := List.mem_map_of_mem hth
    obtain ⟨v, hv, rfl, hover⟩ := hok.safe.victims_over _ hrole c hfile
    obtain ⟨u, hu, rfl⟩ := List.mem_map.mp hv
    have hprocessed : u.session.id ∈ processed (outputs hd) := by
      rw [← hids]
      exact List.mem_map_of_mem hu
    exact ⟨hw, u, hu, rfl, hover, ((processed_ids rd).2 _ hprocessed).2, hok.safe.victims_le _ hrole _ hfile⟩

/-- A daemon that keeps one transcript, and runs an output command. -/
def commandDaemon : WholeHost where
  daemon := { quietDaemon with cfg := { maxDuration := second, outCmd := "cat", transcriptRetentionWindow := 1 } }
  environ := []

/-- Submission `i` is transcribed, and its transcript written as goroutine `i`. -/
def transcribeAndWrite (i : Nat) (text : String) : List WholeLabel :=
  (submit i ++ transcribeClip i text).map (fun l => .daemon (.http l)) ++
    [.thread i .next, .thread i .next, .thread i (.call none), .thread i (.call none), .thread i .next]

/-- The command of the first clip runs while the second is released. -/
def twoCommands : List WholeLabel :=
  transcribeAndWrite 0 "one" ++ [.thread 0 (.call none)] ++ transcribeAndWrite 1 "two" ++
    [.thread 1 (.call none), .thread 1 .next, .thread 1 .next, .thread 1 (.call none), .thread 1 (.call none),
      .thread 1 (.call none), .thread 1 .next]

/-- Somebody else removes a file. -/
def WholeLabel.isUnlink : WholeLabel → Bool
  | .unlink _ => true
  | _ => false

/-- The command of the first clip still finds its text. -/
theorem output_sees_transcript_twoCommands : ∃ h s, Run (wholeSystem commandDaemon []) h s ∧
    s.output.transcriptRetentionHighWatermark = 2 ∧ FileHolds s.output.dir (itoa 1) (utf8 "one") := by
  obtain ⟨h, s, r, hq⟩ := Run.exists_of_exec (M := wholeSystem commandDaemon []) ⟨false, rfl⟩ twoCommands
    (fun h s => (h.all fun st => !st.label.isUnlink) && s.daemon.capture.nextClip = 3 &&
      s.output.transcriptRetentionHighWatermark = 2 &&
      s.output.threads[0]?.any fun th => th.pc = .wait ∧ th.session.id = 1 ∧ th.text = "one") (by decide +kernel)
  simp only [Bool.and_eq_true, decide_eq_true_eq, List.all_eq_true] at hq
  obtain ⟨⟨⟨hno, hn⟩, hhigh⟩, hth⟩ := hq
  obtain ⟨th, hi, hth⟩ := (Option.any_eq_true ..).mp hth
  obtain ⟨hpc, hid, ht⟩ := of_decide_eq_true hth
  obtain ⟨-, -, hfile⟩ := output_sees_transcript (by simp) (by simp) r
    (fun st hm name he => by simpa [he, WholeLabel.isUnlink] using hno st hm) (by rw [hn]; decide) th
    (List.mem_of_getElem? hi) (Or.inr hpc)
  rw [hid, ht] at hfile
  exact ⟨h, s, r, hhigh, hfile⟩

/-- The first clip is released after the second, and its transcript removed. -/
theorem removed_after_use_twoCommands : ∃ h s, Run (wholeSystem commandDaemon []) h s ∧
    ∃ st ∈ h, ∃ th ∈ st.pre.output.threads, .output (.remove (itoa 1)) ∈ st.out ∧ itoa 1 = itoa th.session.id ∧
      th.phase.isOver = true ∧ th.session.id ∉ st.pre.daemon.inProgress := by
  obtain ⟨h, s, r, hq⟩ := Run.exists_of_exec (M := wholeSystem commandDaemon []) ⟨false, rfl⟩
    (twoCommands ++ [.thread 0 .next, .thread 0 .next, .thread 0 (.call none), .thread 0 (.call none),
      .thread 0 (.call none), .thread 0 .next, .thread 0 (.call none)])
    (fun h s => s.daemon.capture.nextClip = 3 && h.any fun st => st.out.contains (.output (.remove (itoa 1))))
    (by decide +kernel)
  simp only [Bool.and_eq_true, decide_eq_true_eq] at hq
  obtain ⟨hn, hany⟩ := hq
  obtain ⟨st, hm, hc⟩ := List.any_eq_true.mp hany
  have hc := List.contains_iff_mem.mp hc
  obtain ⟨-, th, hth, hname, hover, hprogress, -⟩ :=
    removed_after_use (by simp) (by simp) r (by rw [hn]; decide) st hm (itoa 1) hc
  exact ⟨h, s, r, st, hm, th, hth, hc, hname, hover, hprogress⟩

end Commands

end Talk2Text.Daemon
