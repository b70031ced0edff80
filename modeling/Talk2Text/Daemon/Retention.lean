import Mathlib.Data.List.Perm.Subperm
import Talk2Text.Daemon.Owners

/-!
# Retention of transcripts

What `releaseTranscript` leaves in the transcript directory, over whole runs of `outputSystem`.

- `retention_safe`: no transcript that is protected or inside the window is ever removed;
- `retention_complete`: when all clips are through, the transcripts are those inside the window.
-/

namespace Talk2Text.Daemon

open Sys RuntimeDir Format Retention

/-! ## Runs -/

/-- The invariant of the clips. -/
structure OutputOk (w : Int) (s : Output) : Prop where
  ids : ∀ t ∈ s.threads, 0 < t.session.id ∧ t.session.id ≤ maxClipID
  paths : ∀ t ∈ s.threads, t.path ≠ "" ↔ t.phase.stored = true
  files : ∀ t ∈ s.threads, ∀ name ∈ t.pc.files, ∃ c, name = itoa c
  names : (s.dir.map Entry.name).Nodup
  safe : Safe w s.shared s.roles

section Run

variable {host : OutputHost} {dir : List Entry} {s t : Output} {l : OutputLabel} {out : List OutputEvent}

/-- A goroutine that moves. -/
theorem roles_set (s : Output) (i : Nat) (t' : OutputThread) (s' : Output) :
    ({ s' with threads := s.threads.set i t' } : Output).roles = s.roles.set i t'.role :=
  List.map_set

theorem roles_getElem? {i : Nat} {th : OutputThread} (h : s.threads[i]? = some th) : s.roles[i]? = some th.role := by
  rw [Output.roles, List.getElem?_map, h]
  rfl

/-- What the invariant says about a goroutine and its step. -/
theorem OutputOk.effect (h : OutputOk host.cfg.transcriptRetentionWindow s)
    (hw : 0 < host.cfg.transcriptRetentionWindow) {i : Nat} {th th' : OutputThread} {m : OutputMove} {s' : Output}
    {es : List OutputEvent} (hi : s.threads[i]? = some th) (hst : outputStep host s i th m = some (s', th', es)) :
    OutputEffect host.cfg.transcriptRetentionWindow s th m s' th' :=
  have hm := List.mem_of_getElem? hi
  outputStep_effect hw (h.ids th hm) (h.paths th hm) h.names (h.files th hm) hst

/-- A removal by somebody else. -/
theorem hasTranscript_of_removeEntry {name : String} {c : Nat} (h : HasTranscript (removeEntry s.dir name) c) :
    HasTranscript s.dir c :=
  ⟨h.1, h.2.1, (hasFile_removeEntry.mp h.2.2).1⟩

/-- **One step keeps the invariant.** -/
theorem outputOk_step (hw : 0 < host.cfg.transcriptRetentionWindow)
    (h : OutputOk host.cfg.transcriptRetentionWindow s) (hst : outputSystemStep host s l = some (t, out)) :
    OutputOk host.cfg.transcriptRetentionWindow t := by
  cases l with
  | processTranscript session text transcribed =>
    simp only [outputSystemStep] at hst
    split at hst
    · rename_i hc
      cases hst
      obtain ⟨hpos, hle, hnew⟩ := hc
      have hall : ∀ {P : OutputThread → Prop}, (∀ th ∈ s.threads, P th) →
          P ⟨session, text, transcribed, "", .begin⟩ →
          ∀ th ∈ s.threads ++ [⟨session, text, transcribed, "", .begin⟩], P th := by
        intro P hold hn th hth
        rcases List.mem_append.mp hth with hth | hth
        · exact hold th hth
        · exact List.mem_singleton.mp hth ▸ hn
      refine ⟨hall h.ids ⟨hpos, hle⟩, hall h.paths ?_, hall h.files (by intro _ hm; cases hm), h.names, ?_⟩
      · simp [OutputThread.phase, Phase.stored]
      · rw [Output.roles, List.map_append, List.map_singleton]
        refine h.safe.spawn (c := session.id) ?_ rfl rfl (fun d hd => hd) (fun d hd => by cases hd)
        intro r hr
        obtain ⟨th, hth, rfl⟩ := List.mem_map.mp hr
        exact of_decide_eq_true (List.all_eq_true.mp hnew th hth)
    · cases hst
  | cancel => cases hst; exact ⟨h.ids, h.paths, h.files, h.names, h.safe⟩
  | unlink name =>
    cases hst
    exact ⟨h.ids, h.paths, h.files, nodup_removeEntry h.names, h.safe.unlink fun c => hasTranscript_of_removeEntry⟩
  | thread i m =>
    simp only [outputSystemStep] at hst
    split at hst
    · cases hst
    · rename_i th hi
      obtain ⟨⟨s', th', es⟩, hstep, he⟩ := Option.map_eq_some_iff.mp hst
      cases he
      have heff := h.effect hw hi hstep
      obtain ⟨ok, hact, -⟩ := heff.acts
      have hth := List.mem_of_getElem? hi
      refine ⟨forall_mem_set h.ids (heff.session_eq ▸ h.ids th hth), forall_mem_set h.paths heff.path_iff,
        forall_mem_set h.files heff.files, heff.names, ?_⟩
      rw [roles_set]
      exact h.safe.act (roles_getElem? hi) hact

/-- What the directory holds at the start. -/
structure StartDir (dir : List Entry) : Prop where
  names : (dir.map Entry.name).Nodup
  /-- No regular file has the name of a clip ID. -/
  noTranscripts : ∀ e ∈ dir, e.type = .regular → transcriptClipID e.name = 0

theorem StartDir.not_hasTranscript (h : StartDir dir) (c : Nat) : ¬HasTranscript dir c := by
  rintro ⟨hpos, hle, e, he, hname, ht⟩
  have := h.noTranscripts e he ht
  rw [hname, transcriptClipID_itoa hpos hle] at this
  omega

theorem outputOk_initial (w : Int) (hdir : StartDir dir) : OutputOk w (Output.initial dir) where
  ids := by simp [Output.initial]
  paths := by simp [Output.initial]
  files := by simp [Output.initial]
  names := hdir.names
  safe := safe_nil w _ (fun c hc => by cases hc) hdir.not_hasTranscript

theorem outputOk_of_reachable (hw : 0 < host.cfg.transcriptRetentionWindow) (hdir : StartDir dir)
    (hs : Reachable (outputSystem host dir) s) : OutputOk host.cfg.transcriptRetentionWindow s :=
  hs.induction (fun s hi => (show s = Output.initial dir from hi) ▸ outputOk_initial _ hdir)
    fun s l t out _ hok hst => @outputOk_step host s t l out hw hok hst

/-- The mark never goes back in a step. -/
theorem high_le_of_step (hw : 0 < host.cfg.transcriptRetentionWindow)
    (h : OutputOk host.cfg.transcriptRetentionWindow s) (hst : outputSystemStep host s l = some (t, out)) :
    s.transcriptRetentionHighWatermark ≤ t.transcriptRetentionHighWatermark := by
  cases l with
  | processTranscript session text transcribed =>
    simp only [outputSystemStep] at hst
    split at hst
    · cases hst; exact Nat.le_refl _
    · cases hst
  | cancel => cases hst; exact Nat.le_refl _
  | unlink name => cases hst; exact Nat.le_refl _
  | thread i m =>
    simp only [outputSystemStep] at hst
    split at hst
    · cases hst
    · rename_i th hi
      obtain ⟨⟨s', th', es⟩, hstep, he⟩ := Option.map_eq_some_iff.mp hst
      cases he
      obtain ⟨ok, hact, -⟩ := (h.effect hw hi hstep).acts
      exact hact.high_le

/-- Every removal is made by a goroutine that has the name in its list. -/
theorem remove_of_step {name : String} (hst : outputSystemStep host s l = some (t, out)) (hm : .remove name ∈ out) :
    ∃ i m th, l = .thread i m ∧ s.threads[i]? = some th ∧ name ∈ th.pc.files := by
  cases l with
  | processTranscript session text transcribed =>
    simp only [outputSystemStep] at hst
    split at hst
    · cases hst; cases hm
    · cases hst
  | cancel => cases hst; cases hm
  | unlink name => cases hst; cases hm
  | thread i m =>
    simp only [outputSystemStep] at hst
    split at hst
    · cases hst
    · rename_i th hi
      obtain ⟨⟨s', th', es⟩, hstep, he⟩ := Option.map_eq_some_iff.mp hst
      cases he
      exact ⟨i, m, th, rfl, hi, mem_files_of_remove hstep hm⟩

/-- **Retention never removes a transcript that may still be needed.** In every run, at every `os.Remove` of the
transcript of a clip, the clip is not protected and is outside the window; and the high watermark never decreases. -/
theorem retention_safe (hw : 0 < host.cfg.transcriptRetentionWindow) (hdir : StartDir dir)
    {h : List (Step Output OutputLabel OutputEvent)} (r : Run (outputSystem host dir) h s) :
    ∀ st ∈ h,
      (∀ c, .remove (itoa c) ∈ st.out → c ∉ st.pre.protectedTranscripts ∧
        (c : Int) ≤ st.pre.transcriptRetentionHighWatermark - host.cfg.transcriptRetentionWindow) ∧
      st.pre.transcriptRetentionHighWatermark ≤ st.post.transcriptRetentionHighWatermark := by
  intro st hm
  obtain ⟨hreach, hst⟩ := r.mem_step hm
  have hok := outputOk_of_reachable hw hdir hreach
  refine ⟨fun c hc => ?_, high_le_of_step hw hok hst⟩
  obtain ⟨i, m, th, -, hi, hv⟩ := remove_of_step hst hc
  have hrole := List.mem_of_getElem? (roles_getElem? hi)
  exact ⟨hok.safe.not_guarded hrole hv, hok.safe.victims_le _ hrole c hv⟩

/-- A daemon that keeps one transcript, and runs no output command. -/
def keepOne : OutputHost := ⟨{ transcriptRetentionWindow := 1 }, []⟩

/-- Goroutine `i` writes its transcript. -/
def writeTranscript (i : Nat) : List OutputLabel :=
  [.thread i .next, .thread i .next, .thread i (.call none), .thread i (.call none)]

/-- Goroutine `i` releases its transcript, and looks at two entries. -/
def releaseTranscript (i : Nat) : List OutputLabel :=
  [.thread i .next, .thread i (.call none), .thread i (.call none), .thread i (.call none), .thread i .next]

/-- Clips 1 and 2 are written, and released in the other order. -/
def twoClips : List OutputLabel :=
  [.processTranscript (newSession 1 "3" []) "one" true, .processTranscript (newSession 2 "3" []) "two" true] ++
    writeTranscript 0 ++ writeTranscript 1 ++ releaseTranscript 1 ++ [.thread 1 .next] ++
    releaseTranscript 0 ++ [.thread 0 (.call none), .thread 0 .next]

/-- The second release leaves clip 1 alone, which is still protected; its own release removes it. -/
theorem retention_safe_twoClips : ∃ h s, Run (outputSystem keepOne []) h s ∧
    ∃ st ∈ h, .remove (itoa 1) ∈ st.out ∧ 1 ∉ st.pre.protectedTranscripts ∧
      (1 : Int) ≤ st.pre.transcriptRetentionHighWatermark - 1 := by
  obtain ⟨h, s, r, hq⟩ := Run.exists_of_exec (M := outputSystem keepOne []) (s := Output.initial []) rfl twoClips
    (fun h _ => h.any fun st => st.out.contains (.remove (itoa 1))) (by decide +kernel)
  obtain ⟨st, hm, hc⟩ := List.any_eq_true.mp hq
  have hc := List.contains_iff_mem.mp hc
  obtain ⟨hp, hle⟩ := (retention_safe (by decide) ⟨by simp, by simp⟩ r st hm).1 1 hc
  exact ⟨h, s, r, st, hm, hc, hp, hle⟩

end Run

/-! ## When all clips are through -/

/-- Nobody else touches the directory, and no directory read, removal or write fails. -/
def undisturbed (s : Output) : OutputLabel → Bool
  | .unlink _ => false
  | .thread i m => s.threads[i]?.all fun t => m.succeeds t.pc
  | _ => true

/-- The clips whose transcripts were written. -/
def Output.written (s : Output) : List Nat := (s.threads.filter fun t => t.path ≠ "").map fun t => t.session.id

/-- The clip IDs of the regular files in the directory. -/
def Output.transcripts (s : Output) : List Nat :=
  (s.dir.filter fun e => e.type = .regular ∧ transcriptClipID e.name ≠ 0).map fun e => transcriptClipID e.name

/-- The largest of some clip IDs, zero if there is none. -/
def largest (cs : List Nat) : Nat := cs.foldr max 0

theorem le_largest {cs : List Nat} {c : Nat} (h : c ∈ cs) : c ≤ largest cs := by
  induction cs with
  | nil => cases h
  | cons d cs ih =>
    rcases List.mem_cons.mp h with rfl | h
    · exact Nat.le_max_left _ _
    · exact Nat.le_trans (ih h) (Nat.le_max_right _ _)

theorem largest_mem (cs : List Nat) : largest cs = 0 ∨ largest cs ∈ cs := by
  induction cs with
  | nil => exact Or.inl rfl
  | cons d cs ih =>
    rcases Nat.le_total d (largest cs) with hle | hle
    · rw [show largest (d :: cs) = largest cs from Nat.max_eq_right hle]
      exact ih.imp_right (List.mem_cons_of_mem _)
    · rw [show largest (d :: cs) = d from Nat.max_eq_left hle]
      exact Or.inr List.mem_cons_self

section Complete

variable {host : OutputHost} {dir : List Entry} {s t : Output} {l : OutputLabel} {out : List OutputEvent}

theorem mem_transcripts {c : Nat} : c ∈ s.transcripts ↔ HasTranscript s.dir c := by
  simp only [Output.transcripts, List.mem_map, List.mem_filter, decide_eq_true_eq]
  constructor
  · rintro ⟨e, ⟨he, ht, h0⟩, rfl⟩
    obtain ⟨hle, hname⟩ := (transcriptClipID_eq_iff h0).mp rfl
    exact ⟨Nat.pos_of_ne_zero h0, hle, e, he, hname, ht⟩
  · rintro ⟨hpos, hle, e, he, hname, ht⟩
    have hid : transcriptClipID e.name = c := by rw [hname, transcriptClipID_itoa hpos hle]
    exact ⟨e, ⟨he, ht, hid ▸ Nat.ne_of_gt hpos⟩, hid⟩

theorem mem_written {c : Nat} : c ∈ s.written ↔ ∃ th ∈ s.threads, th.session.id = c ∧ th.path ≠ "" := by
  simp only [Output.written, List.mem_map, List.mem_filter, decide_eq_true_eq]
  constructor
  · rintro ⟨th, ⟨hm, hp⟩, hid⟩
    exact ⟨th, hm, hid, hp⟩
  · rintro ⟨th, hm, hid, hp⟩
    exact ⟨th, ⟨hm, hp⟩, hid⟩

/-- No transcript has two files. -/
theorem nodup_transcripts (hn : (s.dir.map Entry.name).Nodup) : s.transcripts.Nodup := by
  have hsub : ((s.dir.filter fun e => e.type = .regular ∧ transcriptClipID e.name ≠ 0).map Entry.name).Nodup :=
    hn.sublist (List.Sublist.map _ List.filter_sublist)
  have hmap : s.transcripts =
      ((s.dir.filter fun e => e.type = .regular ∧ transcriptClipID e.name ≠ 0).map Entry.name).map
        transcriptClipID := by
    rw [List.map_map]
    rfl
  rw [hmap]
  refine hsub.map_on ?_
  intro x hx y hy he
  obtain ⟨e, hm, rfl⟩ := List.mem_map.mp hx
  have h0 : transcriptClipID e.name ≠ 0 := (of_decide_eq_true (List.mem_filter.mp hm).2).2
  obtain ⟨-, hx⟩ := (transcriptClipID_eq_iff h0).mp rfl
  obtain ⟨-, hy⟩ := (transcriptClipID_eq_iff h0).mp he.symm
  exact hx.trans hy.symm

/-- **One undisturbed step keeps the directory complete.** -/
theorem complete_step (hw : 0 < host.cfg.transcriptRetentionWindow)
    (hok : OutputOk host.cfg.transcriptRetentionWindow s)
    (h : Complete host.cfg.transcriptRetentionWindow s.shared s.roles ∧ CleanDir s.dir) (hu : undisturbed s l = true)
    (hst : outputSystemStep host s l = some (t, out)) :
    Complete host.cfg.transcriptRetentionWindow t.shared t.roles ∧ CleanDir t.dir := by
  cases l with
  | processTranscript session text transcribed =>
    simp only [outputSystemStep] at hst
    split at hst
    · cases hst
      refine ⟨?_, h.2⟩
      rw [Output.roles, List.map_append, List.map_singleton]
      exact h.1.spawn rfl
    · cases hst
  | cancel => cases hst; exact h
  | unlink name => cases hu
  | thread i m =>
    simp only [outputSystemStep] at hst
    split at hst
    · cases hst
    · rename_i th hi
      obtain ⟨⟨s', th', es⟩, hstep, he⟩ := Option.map_eq_some_iff.mp hst
      cases he
      have heff := hok.effect hw hi hstep
      obtain ⟨ok, hact, hgood⟩ := heff.acts
      have hm : m.succeeds th.pc = true := by simpa [undisturbed, hi] using hu
      refine ⟨?_, heff.clean h.2⟩
      rw [roles_set]
      exact h.1.act hok.safe (roles_getElem? hi) hact (hgood hm h.2)

/-- A run in which nothing goes wrong leaves the directory complete. -/
theorem complete_of_run (hw : 0 < host.cfg.transcriptRetentionWindow) (hdir : StartDir dir) (hclean : CleanDir dir)
    {h : List (Step Output OutputLabel OutputEvent)} (r : Run (outputSystem host dir) h s)
    (hu : ∀ st ∈ h, undisturbed st.pre st.label = true) :
    Complete host.cfg.transcriptRetentionWindow s.shared s.roles := by
  have hinit : ∀ s, (outputSystem host dir).init s →
      Complete host.cfg.transcriptRetentionWindow s.shared s.roles ∧ CleanDir s.dir := by
    intro s hi
    rw [show s = Output.initial dir from hi]
    exact ⟨complete_nil _ _ rfl, hclean⟩
  have hpost := r.forall_post hinit
    (fun s l t out hs h hu hst => complete_step hw (outputOk_of_reachable hw hdir hs) h hu hst) hu
  exact (r.last hinit hpost).1

/-- When all clips are through, what is left of the transcripts. -/
theorem transcripts_of_returned (hw : 0 < host.cfg.transcriptRetentionWindow) (hdir : StartDir dir)
    (hclean : CleanDir dir) {h : List (Step Output OutputLabel OutputEvent)} (r : Run (outputSystem host dir) h s)
    (hu : ∀ st ∈ h, undisturbed st.pre st.label = true) (hret : ∀ th ∈ s.threads, th.pc = .returned) :
    s.protectedTranscripts = [] ∧
      ∀ c, c ∈ s.transcripts ↔
        c ∈ s.written ∧ (largest s.written : Int) - host.cfg.transcriptRetentionWindow < c := by
  have hok := outputOk_of_reachable hw hdir r.reachable
  have hcomplete := complete_of_run hw hdir hclean r hu
  have hphase : ∀ th ∈ s.threads, th.phase = if th.path = "" then .dropped else .done := by
    intro th hm
    simp only [OutputThread.phase, hret th hm]
  have hover : ∀ r ∈ s.roles, r.phase.isOver = true := by
    intro r hr
    obtain ⟨th, hm, rfl⟩ := List.mem_map.mp hr
    show th.phase.isOver = true
    rw [hphase th hm]
    split <;> rfl
  have hsees : ∀ r ∈ s.roles, ∀ c, ¬r.sees c := by
    intro r hr c hc
    obtain ⟨th, hm, rfl⟩ := List.mem_map.mp hr
    have hc : th.pc.sees c := hc
    rw [hret th hm] at hc
    exact hc
  have hdone : ∀ c, (∃ r ∈ s.roles, r.id = c ∧ r.phase = .done) ↔ c ∈ s.written := by
    intro c
    rw [mem_written]
    constructor
    · rintro ⟨r, hr, hid, hd⟩
      obtain ⟨th, hm, rfl⟩ := List.mem_map.mp hr
      refine ⟨th, hm, hid, fun hp => ?_⟩
      have hd : th.phase = .done := hd
      rw [hphase th hm, if_pos hp] at hd
      cases hd
    · rintro ⟨th, hm, hid, hp⟩
      refine ⟨th.role, List.mem_map_of_mem hm, hid, ?_⟩
      show th.phase = .done
      rw [hphase th hm, if_neg hp]
  have hhigh : s.transcriptRetentionHighWatermark = largest s.written := by
    refine Nat.le_antisymm ?_ ?_
    · rcases hcomplete.high_mem with h0 | hm
      · have h0 : s.transcriptRetentionHighWatermark = 0 := h0
        omega
      · exact le_largest ((hdone _).mp hm)
    · rcases largest_mem s.written with h0 | hm
      · omega
      · obtain ⟨r, hr, hid, hd⟩ := (hdone _).mpr hm
        exact hid ▸ hcomplete.high_le r hr hd
  refine ⟨List.eq_nil_iff_forall_not_mem.mpr fun c hc => hok.safe.unguarded hover c hc, fun c => ?_⟩
  have hiff := hcomplete.files_iff hok.safe hover hsees c
  rw [hdone c] at hiff
  rw [mem_transcripts, ← hhigh]
  exact hiff.trans and_comm

theorem largest_le_of_subset {cs ds : List Nat} (h : ∀ c ∈ cs, c ∈ ds) : largest cs ≤ largest ds := by
  rcases largest_mem cs with h0 | hm
  · omega
  · exact le_largest (h _ hm)

/-- A window of `k` numbers holds at most `k` different ones. -/
theorem length_le_window {cs : List Nat} (hn : cs.Nodup) (high k : Nat)
    (h : ∀ c ∈ cs, (high : Int) - k < c ∧ c ≤ high) : cs.length ≤ k := by
  have hsub : cs ⊆ List.range' (high + 1 - k) k := by
    intro c hc
    have := h c hc
    rw [List.mem_range'_1]
    omega
  have := (hn.subperm hsub).length_le
  rwa [List.length_range'] at this

/-- The state at the end of an undisturbed run, with all clips through. -/
def Through (host : OutputHost) (dir : List Entry) (s : Output) : Prop :=
  ∃ h, Run (outputSystem host dir) h s ∧ (∀ st ∈ h, undisturbed st.pre st.label = true) ∧
    ∀ th ∈ s.threads, th.pc = .returned

/-- **Retention is complete and independent of the order.** When all clips of an undisturbed run are through, no clip is
protected, the transcripts that are left are those of the written clips with an ID above the largest one minus the
window, at most as many as the window, and any other such run that wrote the same clips leaves the same transcripts. At
the start only directories may have the name of a clip ID: a link would be written through, and never pruned. -/
theorem retention_complete (hw : 0 < host.cfg.transcriptRetentionWindow) (hnames : (dir.map Entry.name).Nodup)
    (hfree : ∀ e ∈ dir, transcriptClipID e.name ≠ 0 → e.type = .directory) (hs : Through host dir s) :
    s.protectedTranscripts = [] ∧
    (∀ c, c ∈ s.transcripts ↔
      c ∈ s.written ∧ (largest s.written : Int) - host.cfg.transcriptRetentionWindow < c) ∧
    (s.transcripts.length : Int) ≤ host.cfg.transcriptRetentionWindow ∧
    ∀ s', Through host dir s' → (∀ c, c ∈ s'.written ↔ c ∈ s.written) →
      ∀ c, c ∈ s'.transcripts ↔ c ∈ s.transcripts := by
  have hdir : StartDir dir := by
    refine ⟨hnames, fun e he hr => ?_⟩
    by_contra h0
    rw [hfree e he h0] at hr
    cases hr
  have hclean : CleanDir dir := fun e he h0 => .inr (hfree e he h0)
  obtain ⟨h, r, hu, hret⟩ := hs
  obtain ⟨hp, hleft⟩ := transcripts_of_returned hw hdir hclean r hu hret
  refine ⟨hp, hleft, ?_, ?_⟩
  · have hn := (outputOk_of_reachable hw hdir r.reachable).names
    have := length_le_window (nodup_transcripts hn) (largest s.written) host.cfg.transcriptRetentionWindow.toNat ?_
    · omega
    · intro c hc
      obtain ⟨hwr, hlt⟩ := (hleft c).mp hc
      exact ⟨by omega, le_largest hwr⟩
  · rintro s' ⟨h', r', hu', hret'⟩ hsame c
    obtain ⟨-, hleft'⟩ := transcripts_of_returned hw hdir hclean r' hu' hret'
    have hmax : largest s'.written = largest s.written :=
      Nat.le_antisymm (largest_le_of_subset fun c hc => (hsame c).mp hc)
        (largest_le_of_subset fun c hc => (hsame c).mpr hc)
    rw [hleft, hleft', hsame, hmax]

/-- Of the two clips only the second is left, in whatever order they are released. -/
theorem retention_complete_twoClips : ∃ s, Through keepOne [] s ∧ s.written = [1, 2] ∧
    s.protectedTranscripts = [] ∧ (∀ c, c ∈ s.transcripts ↔ c ∈ [1, 2] ∧ (largest [1, 2] : Int) - 1 < c) := by
  obtain ⟨h, s, r, hq⟩ := Run.exists_of_exec (M := outputSystem keepOne []) (s := Output.initial []) rfl twoClips
    (fun h s => (h.all fun st => undisturbed st.pre st.label) && (s.threads.all fun th => th.pc = .returned) &&
      s.written = [1, 2]) (by decide +kernel)
  simp only [Bool.and_eq_true, List.all_eq_true, decide_eq_true_eq] at hq
  obtain ⟨⟨hu, hret⟩, hwr⟩ := hq
  obtain ⟨hp, hleft, -⟩ := retention_complete (by decide) (by simp) (by simp) ⟨h, r, hu, hret⟩
  rw [hwr] at hleft
  exact ⟨s, ⟨h, r, hu, hret⟩, hwr, hp, hleft⟩

end Complete

end Talk2Text.Daemon
