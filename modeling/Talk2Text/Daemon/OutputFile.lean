import Talk2Text.Daemon.Retention

/-!
# The file of an output command

While a clip is between writing its transcript and the section of `releaseTranscript`, the file with its ID as name
holds exactly the text: no other goroutine writes to it, and the pruner leaves it alone although it looks at the
protected clips only under `muTranscripts`, and removes after that.

- `lstat_openEntry_self` and what follows it: the directory as a map from names to entries;
- `outputStep_file`: what a step of a goroutine does to the directory;
- `filesOk_step`: every step keeps the files that are held, whatever the retention window is.
-/

namespace Talk2Text.Daemon

open Sys RuntimeDir Format Retention

/-! ## The directory as a map -/

section Dir

variable {dir : List Entry} {name name' : String} {content content' : List UInt8}

/-- The file with this name and content. -/
def FileHolds (dir : List Entry) (name : String) (content : List UInt8) : Prop :=
  lstat dir name = some ⟨name, .regular, content⟩

/-- A change of contents, seen through the map. -/
theorem lstat_map (dir : List Entry) (f : Entry → Entry) (hf : ∀ e, (f e).name = e.name) (name : String) :
    lstat (dir.map f) name = (lstat dir name).map f := by
  simp only [lstat, List.find?_map, Function.comp_def, hf]

theorem lstat_openEntry_self (h : lstat dir name = none) : FileHolds (openEntry dir name) name [] := by
  have hany : (dir.any fun e => e.name = name) = false := by
    simpa [lstat, List.find?_eq_none] using h
  have hfind : dir.find? (fun e => e.name = name) = none := h
  simp [FileHolds, openEntry, hany, lstat, List.find?_append, hfind]

theorem lstat_openEntry_ne (hne : name' ≠ name) : lstat (openEntry dir name) name' = lstat dir name' := by
  unfold openEntry
  split
  · rw [lstat_map _ _ fun e => by split <;> rfl]
    cases h : lstat dir name' with
    | none => rfl
    | some e =>
      have hn : e.name = name' := by simpa using List.find?_some h
      simp [hn, hne]
  · simp [lstat, List.find?_append, hne.symm]

theorem FileHolds.writeEntry (h : FileHolds dir name content') :
    FileHolds (writeEntry dir name content) name (content' ++ content) := by
  unfold FileHolds at h ⊢
  rw [RuntimeDir.writeEntry, lstat_map _ _ fun e => by split <;> rfl, h]
  simp

theorem lstat_writeEntry_ne (hne : name' ≠ name) : lstat (writeEntry dir name content) name' = lstat dir name' := by
  rw [writeEntry, lstat_map _ _ fun e => by split <;> rfl]
  cases h : lstat dir name' with
  | none => rfl
  | some e =>
    have hn : e.name = name' := by simpa using List.find?_some h
    simp [hn, hne]

theorem lstat_removeEntry_ne (hne : name' ≠ name) : lstat (removeEntry dir name) name' = lstat dir name' := by
  rw [lstat, removeEntry, List.find?_filter]
  congr 1
  funext e
  by_cases he : e.name = name' <;> simp [he, hne]

theorem lstat_removeEntry_none (h : lstat dir name' = none) : lstat (removeEntry dir name) name' = none := by
  by_cases he : name' = name
  · subst he
    simp [lstat, removeEntry, List.find?_filter]
  · rwa [lstat_removeEntry_ne he]

end Dir

/-! ## Where a goroutine stands -/

/-- The goroutine has not opened its file. -/
def OutputPc.isFresh : OutputPc → Bool
  | .begin | .protect | .open => true
  | _ => false

/-- The transcript is written, and not yet released. -/
def OutputPc.isReady : OutputPc → Bool
  | .checkContext | .start | .wait | .release => true
  | _ => false

/-- The goroutine is past its release. -/
def OutputPc.isPruning : OutputPc → Bool
  | .readDir _ | .listing _ _ _ | .removing _ => true
  | _ => false

/-- What the file of a goroutine is meant to hold. -/
def OutputThread.held (t : OutputThread) : Option (List UInt8) :=
  if t.pc = .write then some [] else if t.pc.isReady then some (utf8 t.text) else none

/-- What a step of a goroutine from `t` to `t'` does to its file and to the directory. -/
inductive FileStep (host : OutputHost) (dir : List Entry) (t : OutputThread) : List Entry → OutputThread → Prop
  | stay (t' : OutputThread) : t'.held = t.held ∨ t'.held = none →
      (t'.pc.isFresh = true → t.pc.isFresh = true) → (t'.pc.isReady = true → t'.path = t.path ∧ t.pc.isReady = true) →
      FileStep host dir t dir t'
  | open : t.pc = .open → FileStep host dir t (openEntry dir (itoa t.session.id)) { t with pc := .write }
  | write (t' : OutputThread) : t.pc = .write → t'.held = some (utf8 t.text) → t'.pc.isFresh = false →
      t'.path = transcriptPath host.cfg.runtimeDir t.session.id →
      FileStep host dir t (writeEntry dir (itoa t.session.id) (utf8 t.text)) t'
  | writeError (t' : OutputThread) (content : List UInt8) : t.pc = .write → t'.held = none →
      t'.pc.isFresh = false → t'.pc.isReady = false →
      FileStep host dir t (writeEntry dir (itoa t.session.id) content) t'
  | remove (t' : OutputThread) (name : String) : name ∈ t.pc.files → t'.held = none → t'.pc.isFresh = false →
      t'.pc.isReady = false → FileStep host dir t (removeEntry dir name) t'

section Step

variable {host : OutputHost} {s s' : Output} {i : Nat} {t t' : OutputThread} {m : OutputMove} {es : List OutputEvent}

theorem outputStep_same (h : outputStep host s i t m = some (s', t', es)) :
    t'.session = t.session ∧ t'.text = t.text ∧ s'.threads = s.threads ∧ s'.cancelled = s.cancelled := by
  unfold outputStep at h
  dsimp only at h
  split at h
  all_goals first
    | (cases h; exact ⟨rfl, rfl, rfl, rfl⟩)
    | cases h
    | ((repeat' split at h) <;> cases h <;> exact ⟨rfl, rfl, rfl, rfl⟩)

/-- A step to a point that neither holds the file nor is ready. -/
theorem FileStep.leave {dir : List Entry} (pc : OutputPc) (hw : pc ≠ .write) (hr : pc.isReady = false)
    (hf : pc.isFresh = true → t.pc.isFresh = true) : FileStep host dir t dir { t with pc := pc } := by
  refine .stay _ (Or.inr ?_) hf fun h => ?_
  · simp [OutputThread.held, hw, hr]
  · rw [hr] at h
    cases h

/-- A step from one point at which the file is ready to another. -/
theorem FileStep.ready {dir : List Entry} (pc : OutputPc) (ht : t.pc.isReady = true) (hr : pc.isReady = true) :
    FileStep host dir t dir { t with pc := pc } := by
  have hw : ∀ pc : OutputPc, pc.isReady = true → pc ≠ .write := by rintro _ h rfl; cases h
  have hf : pc.isFresh = false := by cases pc <;> first | rfl | cases hr
  refine .stay _ (Or.inl ?_) (fun h => ?_) fun _ => ⟨rfl, ht⟩
  · simp [OutputThread.held, hw _ ht, hw _ hr, ht, hr]
  · rw [hf] at h
    cases h

/-- **What a step does to the directory.** -/
theorem outputStep_file (h : outputStep host s i t m = some (s', t', es)) : FileStep host s.dir t s'.dir t' := by
  obtain ⟨session, text, transcribed, path, pc⟩ := t
  cases pc with
  | begin =>
    cases m with
    | next =>
      cases h
      split
      · exact .leave .protect (by simp) rfl fun _ => rfl
      · exact .leave .returned (by simp) rfl fun _ => rfl
    | _ => cases h
  | protect =>
    cases m with
    | next =>
      simp only [outputStep] at h
      split at h
      · cases h; exact .leave .open (by simp) rfl fun _ => rfl
      · split at h
        · cases h; exact .leave .open (by simp) rfl fun _ => rfl
        · cases h
    | _ => cases h
  | «open» =>
    cases m with
    | call err =>
      cases err with
      | none =>
        simp only [outputStep] at h
        split at h
        · cases h
        · cases h; exact .open rfl
      | some err => cases h; exact .leave _ (by simp) rfl fun h => by cases h
    | _ => cases h
  | write =>
    cases m with
    | call err =>
      cases err with
      | none =>
        cases h
        refine .write _ rfl ?_ ?_ rfl <;> split <;> rfl
      | some err => cases h
    | writeError n err => cases h; exact .writeError _ _ rfl rfl rfl rfl
    | next => cases h
  | unprotect err =>
    cases m with
    | next =>
      simp only [outputStep] at h
      split at h
      · cases h; exact .leave .returned (by simp) rfl fun h => by cases h
      · split at h
        · cases h; exact .leave .returned (by simp) rfl fun h => by cases h
        · cases h
    | _ => cases h
  | checkContext =>
    cases m with
    | next =>
      cases h
      split
      · exact .ready .release rfl rfl
      · exact .ready .start rfl rfl
    | _ => cases h
  | start =>
    cases m with
    | call err =>
      cases err with
      | none => cases h; exact .ready .wait rfl rfl
      | some err => cases h; exact .ready .release rfl rfl
    | _ => cases h
  | wait =>
    cases m with
    | next => cases h; exact .ready .release rfl rfl
    | _ => cases h
  | release =>
    cases m with
    | next =>
      simp only [outputStep] at h
      split at h
      · cases h; exact .leave .returned (by simp) rfl fun h => by cases h
      · split at h
        · split at h
          · cases h; exact .leave (.removing []) (by simp) rfl fun h => by cases h
          · cases h; exact .leave (.readDir _) (by simp) rfl fun h => by cases h
        · cases h
    | _ => cases h
  | readDir cutoff =>
    cases m with
    | call err => cases err <;> cases h <;> exact .leave _ (by simp) rfl fun h => by cases h
    | _ => cases h
  | listing cutoff entries files =>
    cases entries with
    | nil =>
      cases m with
      | next => cases h; exact .leave _ (by simp) rfl fun h => by cases h
      | _ => cases h
    | cons name entries =>
      cases m with
      | call err =>
        cases err with
        | none =>
          simp only [outputStep] at h
          split at h
          · cases h; exact .leave _ (by simp) rfl fun h => by cases h
          · split at h <;> cases h <;> exact .leave _ (by simp) rfl fun h => by cases h
        | some err => cases h; exact .leave _ (by simp) rfl fun h => by cases h
      | _ => cases h
  | removing files =>
    cases files with
    | nil =>
      cases m with
      | next => cases h; exact .leave _ (by simp) rfl fun h => by cases h
      | _ => cases h
    | cons name files =>
      cases m with
      | call err =>
        cases err with
        | none => cases h; exact .remove _ name List.mem_cons_self rfl rfl rfl
        | some err => cases h; exact .leave _ (by simp) rfl fun h => by cases h
      | _ => cases h
  | returned => cases m <;> cases h

/-- Without a map of protected transcripts nothing is pruned. -/
theorem outputStep_keeps (hr : retains host.cfg = false) (hp : t.pc.isPruning = false)
    (h : outputStep host s i t m = some (s', t', es)) : t'.pc.isPruning = false := by
  obtain ⟨session, text, transcribed, path, pc⟩ := t
  cases pc with
  | readDir | listing | removing => cases hp
  | begin | checkContext =>
    cases m with
    | next => cases h; dsimp only; split <;> rfl
    | _ => cases h
  | protect | unprotect | release =>
    cases m with
    | next => simp only [outputStep, hr, Bool.not_false, if_true] at h; cases h; rfl
    | _ => cases h
  | «open» =>
    cases m with
    | call err =>
      cases err with
      | none =>
        simp only [outputStep] at h
        split at h <;> cases h
        rfl
      | some err => cases h; rfl
    | _ => cases h
  | write =>
    cases m with
    | call err => cases err <;> cases h; dsimp only; split <;> rfl
    | writeError => cases h; rfl
    | next => cases h
  | start =>
    cases m with
    | call err => cases err <;> cases h <;> rfl
    | _ => cases h
  | wait =>
    cases m with
    | next => cases h; rfl
    | _ => cases h
  | returned => cases m <;> cases h

end Step

/-! ## The files that are held -/

/-- The invariant of the files. -/
structure FilesOk (host : OutputHost) (s : Output) : Prop where
  ids : ∀ t ∈ s.threads, 0 < t.session.id ∧ t.session.id ≤ maxClipID
  nodup : (s.threads.map fun t => t.session.id).Nodup
  /-- Only its own goroutine makes a file for a clip. -/
  fresh : ∀ c, 0 < c → c ≤ maxClipID → (∀ t ∈ s.threads, t.session.id = c → t.pc.isFresh = true) →
    lstat s.dir (itoa c) = none
  held : ∀ t ∈ s.threads, ∀ content, t.held = some content → FileHolds s.dir (itoa t.session.id) content
  path : ∀ t ∈ s.threads, t.pc.isReady = true → t.path = transcriptPath host.cfg.runtimeDir t.session.id
  idle : retains host.cfg = false → ∀ t ∈ s.threads, t.pc.isPruning = false

section Files

variable {host : OutputHost} {s t : Output} {l : OutputLabel} {out : List OutputEvent}

theorem held_of_isOver {u : OutputThread} (h : u.phase.isOver = true) : u.held = none := by
  unfold OutputThread.held
  unfold OutputThread.phase at h
  split at h <;> rename_i hpc <;> simp_all [OutputPc.isReady, Phase.isOver]

theorem FilesOk.inj (h : FilesOk host s) {t u : OutputThread} (ht : t ∈ s.threads) (hu : u ∈ s.threads)
    (he : t.session.id = u.session.id) : t = u :=
  List.inj_on_of_nodup_map h.nodup ht hu he

/-- **A file that is about to be removed is not held.** -/
theorem FilesOk.not_held (h : FilesOk host s)
    (hok : 0 < host.cfg.transcriptRetentionWindow → OutputOk host.cfg.transcriptRetentionWindow s) {t u : OutputThread}
    (ht : t ∈ s.threads) (hu : u ∈ s.threads) {name : String} (hn : name ∈ t.pc.files) (hh : u.held ≠ none) :
    itoa u.session.id ≠ name := by
  rintro rfl
  by_cases hw : 0 < host.cfg.transcriptRetentionWindow
  · have hsafe := (hok hw).safe
    obtain ⟨v, hv, hid, hover⟩ := hsafe.victims_over _ (List.mem_map_of_mem ht) u.session.id hn
    rw [hsafe.inj hv (List.mem_map_of_mem hu) hid] at hover
    exact hh (held_of_isOver hover)
  · have hr : retains host.cfg = false := decide_eq_false hw
    have := h.idle hr t ht
    unfold OutputPc.isPruning at this
    unfold OutputPc.files at hn
    split at hn <;> simp_all

/-- Another goroutine has another clip. -/
theorem FilesOk.other (h : FilesOk host s) {i j : Nat} {t u : OutputThread} (ht : s.threads[i]? = some t)
    (hu : s.threads[j]? = some u) (hne : j ≠ i) : u.session.id ≠ t.session.id := by
  intro he
  have hlt : j < (s.threads.map fun t => t.session.id).length := by
    rw [List.length_map]
    exact (List.getElem?_eq_some_iff.mp hu).1
  refine hne ((List.getElem?_inj hlt h.nodup).mp ?_)
  rw [List.getElem?_map, List.getElem?_map, ht, hu, Option.map_some, Option.map_some, he]

/-- The goroutine that has not opened its file finds none. -/
theorem FilesOk.own_fresh (h : FilesOk host s) {t : OutputThread} (ht : t ∈ s.threads) (hf : t.pc.isFresh = true) :
    lstat s.dir (itoa t.session.id) = none := by
  obtain ⟨hpos, hle⟩ := h.ids t ht
  refine h.fresh _ hpos hle fun u hu hid => ?_
  rw [h.inj hu ht hid]
  exact hf

/-- What a step of goroutine `t` to `t'` leaves of the entry with the name of another clip. -/
theorem lstat_other {dir dir' : List Entry} {t t' : OutputThread} {c : Nat} (h : FileStep host dir t dir' t')
    (hc : c ≠ t.session.id) (hfiles : itoa c ∉ t.pc.files) : lstat dir' (itoa c) = lstat dir (itoa c) := by
  have hne : itoa c ≠ itoa t.session.id := fun he => hc (itoa_inj.mp he)
  cases h with
  | stay => rfl
  | «open» => exact lstat_openEntry_ne hne
  | write | writeError => exact lstat_writeEntry_ne hne
  | remove t' name hname =>
    refine lstat_removeEntry_ne ?_
    rintro rfl
    exact hfiles hname

/-- What a goroutine holds after its step. -/
theorem held_step (h : FilesOk host s) {dir' : List Entry} {t t' : OutputThread} (ht : t ∈ s.threads)
    (hfile : FileStep host s.dir t dir' t') {content : List UInt8} (hheld : t'.held = some content) :
    FileHolds dir' (itoa t.session.id) content := by
  cases hfile with
  | stay _ hk =>
    rcases hk with hk | hk
    · exact h.held t ht content (hk ▸ hheld)
    · rw [hk] at hheld
      cases hheld
  | «open» hpc =>
    cases hheld
    exact lstat_openEntry_self (h.own_fresh ht (by rw [hpc]; rfl))
  | write _ hpc hk =>
    rw [hk] at hheld
    cases hheld
    have hempty : t.held = some [] := by simp [OutputThread.held, hpc]
    exact (h.held t ht [] hempty).writeEntry
  | writeError _ _ _ hk | remove _ _ _ hk =>
    rw [hk] at hheld
    cases hheld

/-- **A step of a goroutine** keeps the files. -/
theorem filesOk_thread (h : FilesOk host s)
    (hok : 0 < host.cfg.transcriptRetentionWindow → OutputOk host.cfg.transcriptRetentionWindow s) {i : Nat}
    {th th' : OutputThread} {m : OutputMove} {s' : Output} {es : List OutputEvent} (hi : s.threads[i]? = some th)
    (hst : outputStep host s i th m = some (s', th', es)) :
    FilesOk host { s' with threads := s.threads.set i th' } := by
  obtain ⟨hsession, -⟩ := outputStep_same hst
  have hfile := outputStep_file hst
  have hth := List.mem_of_getElem? hi
  have hnew : th' ∈ s.threads.set i th' := List.mem_set (List.getElem?_eq_some_iff.mp hi).1 _
  constructor
  · exact forall_mem_set h.ids (hsession ▸ h.ids th hth)
  · show ((s.threads.set i th').map _).Nodup
    obtain ⟨hlt, rfl⟩ := List.getElem?_eq_some_iff.mp hi
    have hsame : (s.threads.set i th').map (fun t => t.session.id) = s.threads.map fun t => t.session.id := by
      rw [List.map_set, hsession, ← List.getElem_map (fun t : OutputThread => t.session.id) (h := by simpa using hlt),
        List.set_getElem_self]
    exact hsame ▸ h.nodup
  · intro c hpos hle hfresh
    show lstat s'.dir (itoa c) = none
    generalize s'.dir = dir' at hfile
    by_cases hc : c = th.session.id
    · subst hc
      have hf := hfresh th' hnew (by rw [hsession])
      cases hfile with
      | stay _ _ hk => exact h.own_fresh hth (hk hf)
      | «open» => cases hf
      | write _ _ _ hk | writeError _ _ _ _ hk | remove _ _ _ _ hk =>
        rw [hk] at hf
        cases hf
    · -- the goroutines of clip `c` have not moved
      have hnone : lstat s.dir (itoa c) = none := by
        refine h.fresh c hpos hle fun u hu hid => hfresh u ?_ hid
        obtain ⟨j, hj⟩ := List.getElem?_of_mem hu
        have hne : i ≠ j := by
          rintro rfl
          rw [hi] at hj
          cases hj
          exact hc hid.symm
        exact List.mem_of_getElem? ((List.getElem?_set_ne hne).trans hj)
      cases hfile with
      | remove => exact lstat_removeEntry_none hnone
      | stay => exact hnone
      | «open» => exact (lstat_openEntry_ne fun he => hc (itoa_inj.mp he)).trans hnone
      | write | writeError => exact (lstat_writeEntry_ne fun he => hc (itoa_inj.mp he)).trans hnone
  · intro u hu content hheld
    obtain ⟨j, hj⟩ := List.getElem?_of_mem hu
    rcases getElem?_set_cases hj with ⟨-, rfl⟩ | ⟨hne, hj⟩
    · rw [hsession]
      exact held_step h hth hfile hheld
    · have hid := h.other hi hj hne
      have hu := List.mem_of_getElem? hj
      have hfiles : itoa u.session.id ∉ th.pc.files := fun hm =>
        h.not_held hok hth hu hm (by rw [hheld]; simp) rfl
      exact (lstat_other hfile hid hfiles).trans (h.held u hu content hheld)
  · refine forall_mem_set h.path fun hready => ?_
    rw [hsession]
    generalize s'.dir = dir' at hfile
    cases hfile with
    | stay _ _ _ hp =>
      obtain ⟨hpath, ht⟩ := hp hready
      exact hpath.trans (h.path th hth ht)
    | «open» => cases hready
    | write _ _ _ _ hp => exact hp
    | writeError _ _ _ _ _ hp | remove _ _ _ _ _ hp =>
      rw [hp] at hready
      cases hready
  · exact fun hr => forall_mem_set (h.idle hr) (outputStep_keeps hr (h.idle hr th hth) hst)

/-- A new goroutine has no file. -/
theorem FilesOk.spawn (h : FilesOk host s) {session : Session} (hpos : 0 < session.id) (hle : session.id ≤ maxClipID)
    (hnew : ∀ u ∈ s.threads, u.session.id ≠ session.id) (text : String) (transcribed : Bool) :
    FilesOk host { s with threads := s.threads ++ [⟨session, text, transcribed, "", .begin⟩] } := by
  have hall : ∀ {P : OutputThread → Prop}, (∀ u ∈ s.threads, P u) → P ⟨session, text, transcribed, "", .begin⟩ →
      ∀ u ∈ s.threads ++ [⟨session, text, transcribed, "", .begin⟩], P u :=
    fun hold hn => List.forall_mem_append.mpr ⟨hold, List.forall_mem_singleton.mpr hn⟩
  refine ⟨hall h.ids ⟨hpos, hle⟩, ?_, fun c hpos hle hf => ?_, hall h.held ?_, hall h.path ?_,
    fun hr => hall (h.idle hr) rfl⟩
  · rw [List.map_append, List.map_singleton]
    refine List.nodup_append.mpr ⟨h.nodup, List.nodup_singleton _, ?_⟩
    rintro a ha b hb rfl
    obtain ⟨u, hu, rfl⟩ := List.mem_map.mp ha
    exact hnew u hu (List.mem_singleton.mp hb)
  · exact h.fresh c hpos hle fun u hu => hf u (List.mem_append_left _ hu)
  · intro content hheld
    cases hheld
  · intro hready
    cases hready

/-- **One step** keeps the files, unless somebody else removes one. -/
theorem filesOk_step (h : FilesOk host s)
    (hok : 0 < host.cfg.transcriptRetentionWindow → OutputOk host.cfg.transcriptRetentionWindow s)
    (hl : ∀ name, l ≠ .unlink name) (hst : outputSystemStep host s l = some (t, out)) : FilesOk host t := by
  cases l with
  | processTranscript session text transcribed =>
    simp only [outputSystemStep] at hst
    split at hst
    · rename_i hc
      cases hst
      obtain ⟨hpos, hle, hnew⟩ := hc
      exact h.spawn hpos hle (fun u hu => of_decide_eq_true (List.all_eq_true.mp hnew u hu)) text transcribed
    · cases hst
  | cancel => cases hst; exact ⟨h.ids, h.nodup, h.fresh, h.held, h.path, h.idle⟩
  | unlink name => exact absurd rfl (hl name)
  | thread i m =>
    simp only [outputSystemStep] at hst
    split at hst
    · cases hst
    · rename_i th hi
      obtain ⟨⟨s', th', es⟩, hstep, he⟩ := Option.map_eq_some_iff.mp hst
      cases he
      exact filesOk_thread h hok hi hstep

/-- A directory without names of clip IDs. -/
theorem filesOk_initial {dir : List Entry} (hfree : ∀ e ∈ dir, transcriptClipID e.name = 0) :
    FilesOk host (Output.initial dir) where
  ids := by simp [Output.initial]
  nodup := by simp [Output.initial]
  fresh := by
    intro c hpos hle _
    refine List.find?_eq_none.mpr fun e he => ?_
    have h0 := hfree e he
    simp only [decide_eq_true_eq]
    intro hn
    rw [hn, transcriptClipID_itoa hpos hle] at h0
    omega
  held := by simp [Output.initial]
  path := by simp [Output.initial]
  idle := by simp [Output.initial]

end Files

end Talk2Text.Daemon
