import Mathlib.Data.List.Nodup
import Talk2Text.Sys.Retention
import Talk2Text.Daemon.Output

/-!
# The owners of transcripts

The clips of `outputSystem` as the owners of `Sys.Retention`: a clip is guarded while it is in `protectedTranscripts`,
the mark is `transcriptRetentionHighWatermark`, and a goroutine that releases its clip collects the names outside the
window. Every step of a goroutine is an action of its owner (`outputStep_effect`).
-/

namespace Talk2Text.Daemon

open Sys RuntimeDir Format Retention

/-! ## Owners -/

/-- Where the owner of a clip is. -/
def OutputThread.phase (t : OutputThread) : Phase :=
  match t.pc with
  | .begin | .protect => .fresh
  | .open => .holding false false
  | .write => .holding true false
  | .unprotect _ => .failing
  | .checkContext | .start | .wait | .release => .holding true true
  | .readDir _ | .listing _ _ _ | .removing _ => .done
  | .returned => if t.path = "" then .dropped else .done

/-- The clips whose transcripts a goroutine still has to deal with. -/
def OutputPc.sees (pc : OutputPc) (c : Nat) : Prop :=
  match pc with
  | .readDir cutoff => (c : Int) ≤ cutoff
  | .listing cutoff entries files => ((c : Int) ≤ cutoff ∧ itoa c ∈ entries) ∨ itoa c ∈ files
  | .removing files => itoa c ∈ files
  | _ => False

/-- The names that a goroutine is going to remove. -/
def OutputPc.files : OutputPc → List String
  | .listing _ _ files | .removing files => files
  | _ => []

/-- The clips whose transcripts a goroutine is going to remove. -/
def OutputPc.victims (pc : OutputPc) (c : Nat) : Prop := itoa c ∈ pc.files

def OutputThread.role (t : OutputThread) : Role := ⟨t.session.id, t.phase, t.pc.sees, t.pc.victims⟩

/-- The transcript of a clip is in the directory. -/
def HasTranscript (dir : List Entry) (c : Nat) : Prop := 0 < c ∧ c ≤ maxClipID ∧ HasFile dir (itoa c)

def Output.shared (s : Output) : Shared where
  high := s.transcriptRetentionHighWatermark
  guarded := fun c => c ∈ s.protectedTranscripts
  files := HasTranscript s.dir

def Output.roles (s : Output) : List Role := s.threads.map OutputThread.role

/-- The names of clip IDs belong to regular files, or to directories, which cannot be written. -/
def CleanDir (dir : List Entry) : Prop :=
  ∀ e ∈ dir, transcriptClipID e.name ≠ 0 → e.type = .regular ∨ e.type = .directory

/-- Nothing goes wrong in a step: no error of a directory read, a removal or a write. -/
def OutputMove.succeeds (pc : OutputPc) (m : OutputMove) : Bool :=
  match pc, m with
  | .readDir _, .call (some _) | .listing _ _ _, .call (some _) | .removing _, .call (some _) => false
  | .write, .writeError _ _ => false
  | _, _ => true

/-! ## Lists of names -/

section Names

variable {dir : List Entry} {name : String} {c : Nat} {content : List UInt8}

theorem hasTranscript_openEntry_iff (hpos : 0 < c) (hle : c ≤ maxClipID)
    (hself : HasFile (openEntry dir (itoa c)) (itoa c)) (d : Nat) :
    HasTranscript (openEntry dir (itoa c)) d ↔ HasTranscript dir d ∨ d = c := by
  constructor
  · rintro ⟨hd, hd', hf⟩
    rcases hasFile_openEntry hf with he | hf
    · exact Or.inr (itoa_inj.mp he)
    · exact Or.inl ⟨hd, hd', hf⟩
  · rintro (⟨hd, hd', hf⟩ | rfl)
    · exact ⟨hd, hd', hf.openEntry⟩
    · exact ⟨hpos, hle, hself⟩

/-- Opening something that is not a regular file creates no transcript. -/
theorem hasTranscript_openEntry_other (hself : ¬HasFile (openEntry dir (itoa c)) (itoa c)) (d : Nat) :
    HasTranscript (openEntry dir (itoa c)) d ↔ HasTranscript dir d := by
  constructor
  · rintro ⟨hd, hd', hf⟩
    rcases hasFile_openEntry hf with he | hf'
    · exact absurd (he ▸ hf) hself
    · exact ⟨hd, hd', hf'⟩
  · rintro ⟨hd, hd', hf⟩
    exact ⟨hd, hd', hf.openEntry⟩

/-- Changing the contents of files changes no name. -/
theorem map_name_content (dir : List Entry) (p : Entry → Prop) [DecidablePred p] (f : Entry → List UInt8) :
    (dir.map fun e => if p e then { e with content := f e } else e).map Entry.name = dir.map Entry.name := by
  rw [List.map_map]
  refine List.map_congr_left fun e _ => ?_
  dsimp only [Function.comp_apply]
  split <;> rfl

theorem nodup_openEntry (h : (dir.map Entry.name).Nodup) : ((openEntry dir name).map Entry.name).Nodup := by
  unfold openEntry
  split
  · rwa [map_name_content]
  · rename_i hany
    rw [List.map_append, List.map_singleton]
    refine List.nodup_append.mpr ⟨h, List.nodup_singleton _, ?_⟩
    rintro a ha b hb rfl
    obtain ⟨e, he, rfl⟩ := List.mem_map.mp ha
    exact hany (List.any_eq_true.mpr ⟨e, he, decide_eq_true (List.mem_singleton.mp hb)⟩)

theorem nodup_writeEntry (h : (dir.map Entry.name).Nodup) :
    ((writeEntry dir name content).map Entry.name).Nodup := by
  unfold writeEntry
  rwa [map_name_content]

theorem nodup_removeEntry (h : (dir.map Entry.name).Nodup) : ((removeEntry dir name).map Entry.name).Nodup :=
  h.sublist (List.Sublist.map _ List.filter_sublist)

/-- `lstat` finds the entry of a name. -/
theorem lstat_of_mem (hn : (dir.map Entry.name).Nodup) {e : Entry} (he : e ∈ dir) : lstat dir e.name = some e := by
  cases hl : lstat dir e.name with
  | none =>
    have := List.find?_eq_none.mp hl e he
    simp at this
  | some e' =>
    have hm := List.mem_of_find?_eq_some hl
    have hname : e'.name = e.name := by simpa using List.find?_some hl
    exact congrArg some (List.inj_on_of_nodup_map hn hm he hname)

theorem lstat_of_hasFile (hn : (dir.map Entry.name).Nodup) (h : HasFile dir name) :
    ∃ e, lstat dir name = some e ∧ e.type = .regular := by
  obtain ⟨e, he, rfl, ht⟩ := h
  exact ⟨e, lstat_of_mem hn he, ht⟩

/-- What is picked is the transcript of a clip. -/
theorem prunes_iff {cutoff : Int} {protectedTranscripts : List Nat} :
    prunes cutoff protectedTranscripts name = true ↔
      ∃ c, 0 < c ∧ c ≤ maxClipID ∧ name = itoa c ∧ (c : Int) ≤ cutoff ∧ c ∉ protectedTranscripts := by
  unfold prunes
  simp only [Bool.and_eq_true, decide_eq_true_eq, Bool.not_eq_true', ← Bool.not_eq_true, List.contains_iff_mem]
  constructor
  · rintro ⟨⟨h0, hle⟩, hp⟩
    obtain ⟨hmax, hname⟩ := (transcriptClipID_eq_iff h0).mp rfl
    exact ⟨_, Nat.pos_of_ne_zero h0, hmax, hname, hle, hp⟩
  · rintro ⟨c, hpos, hmax, rfl, hle, hp⟩
    rw [transcriptClipID_itoa hpos hmax]
    exact ⟨⟨Nat.ne_of_gt hpos, hle⟩, hp⟩

/-- The names of the entries that are there after opening a file. -/
theorem cleanDir_openEntry (h : CleanDir dir) : CleanDir (openEntry dir name) := by
  unfold openEntry
  split
  · intro e he
    obtain ⟨x, hx, rfl⟩ := List.mem_map.mp he
    split <;> exact h x hx
  · intro e he hc
    rcases List.mem_append.mp he with he | he
    · exact h e he hc
    · rw [List.mem_singleton.mp he]
      exact .inl rfl

theorem cleanDir_writeEntry (h : CleanDir dir) : CleanDir (writeEntry dir name content) := by
  intro e he
  obtain ⟨x, hx, rfl⟩ := List.mem_map.mp he
  split <;> exact h x hx

theorem cleanDir_removeEntry (h : CleanDir dir) : CleanDir (removeEntry dir name) :=
  fun e he => h e (List.mem_of_mem_filter he)

/-- In a clean directory opening the transcript of a clip leaves a regular file. -/
theorem hasFile_openEntry_clean (h : CleanDir dir) (hn : (dir.map Entry.name).Nodup) (hpos : 0 < c)
    (hle : c ≤ maxClipID) (hopen : ¬(lstat dir (itoa c)).any fun e => e.type = .directory) :
    HasFile (openEntry dir (itoa c)) (itoa c) := by
  refine hasFile_openEntry_self fun e he hname => (h e he ?_).resolve_right fun hd => hopen ?_
  · rw [hname, transcriptClipID_itoa hpos hle]
    exact Nat.ne_of_gt hpos
  · rw [← hname, lstat_of_mem hn he, Option.any_some]
    exact decide_eq_true hd

end Names

/-! ## Steps -/

/-- What a step of a goroutine from `t` to `t'` does to the owners. -/
structure OutputEffect (w : Int) (s : Output) (t : OutputThread) (m : OutputMove) (s' : Output)
    (t' : OutputThread) : Prop where
  acts : ∃ ok, Acts w s.shared t.role ok s'.shared t'.role ∧
    (m.succeeds t.pc = true → CleanDir s.dir → ok = true)
  session_eq : t'.session = t.session
  path_iff : t'.path ≠ "" ↔ t'.phase.stored = true
  files : ∀ name ∈ t'.pc.files, ∃ c, name = itoa c
  names : (s'.dir.map Entry.name).Nodup
  clean : CleanDir s.dir → CleanDir s'.dir

section Effect

variable {host : OutputHost} {s s' : Output} {i : Nat} {t t' : OutputThread} {m : OutputMove} {es : List OutputEvent}
  {w : Int}

/-- The owner of a goroutine that moves on without a change of its phase or of what is shared. -/
theorem effect_stay (hn : (s.dir.map Entry.name).Nodup) (hpath : t.path ≠ "" ↔ t.phase.stored = true) (pc : OutputPc)
    (hphase : ({ t with pc := pc } : OutputThread).phase = t.phase) (hs : ∀ c, pc.sees c → t.pc.sees c)
    (hs' : ∀ c, t.pc.sees c → s.shared.files c → ¬s.shared.guarded c → pc.sees c)
    (hv : ∀ c, pc.victims c → t.pc.victims c ∨ (t.pc.sees c ∧ s.shared.files c ∧ ¬s.shared.guarded c))
    (hfiles : ∀ name ∈ pc.files, ∃ c, name = itoa c) (mu : Option Nat) :
    OutputEffect w s t m { s with muTranscripts := mu } { t with pc := pc } where
  acts := ⟨true, .work _ rfl hphase hs hs' hv, fun _ _ => rfl⟩
  session_eq := rfl
  path_iff := by rw [hphase]; exact hpath
  files := hfiles
  names := hn
  clean := id

theorem no_files {pc : OutputPc} (h : pc.files = []) : ∀ name ∈ pc.files, ∃ c, name = itoa c := by
  intro name hm
  rw [h] at hm
  cases hm

/-- The owner of a goroutine that moves on between places where it has no transcript to deal with. -/
theorem effect_quiet (hn : (s.dir.map Entry.name).Nodup) (hpath : t.path ≠ "" ↔ t.phase.stored = true) (pc : OutputPc)
    (hphase : ({ t with pc := pc } : OutputThread).phase = t.phase) (hs : ∀ c, ¬pc.sees c) (ht : ∀ c, ¬t.pc.sees c)
    (hfiles : pc.files = []) : OutputEffect w s t m s { t with pc := pc } := by
  refine effect_stay hn hpath pc hphase (fun c hc => absurd hc (hs c)) (fun c hc _ _ => absurd hc (ht c)) ?_
    (no_files hfiles) s.muTranscripts
  intro c hc
  have hc : itoa c ∈ pc.files := hc
  rw [hfiles] at hc
  cases hc

/-- A goroutine that has not stored its transcript has no path. -/
theorem path_eq_empty {path : String} {phase : Phase} (hpath : path ≠ "" ↔ phase.stored = true)
    (h : phase.stored = false) : path = "" := by
  by_contra hne
  have := hpath.mp hne
  rw [h] at this
  cases this

/-- A file that is opened or written. -/
theorem effect_open (hid : 0 < t.session.id ∧ t.session.id ≤ maxClipID) (hn : (s.dir.map Entry.name).Nodup)
    (hpath : t.path ≠ "" ↔ t.phase.stored = true) (hpc : t.pc = .open)
    (hopen : ¬(lstat s.dir (itoa t.session.id)).any fun e => e.type = .directory) :
    OutputEffect w s t m { s with dir := openEntry s.dir (itoa t.session.id) } { t with pc := .write } := by
  obtain ⟨session, text, transcribed, path, pc⟩ := t
  cases hpc
  refine ⟨?_, rfl, hpath, (fun _ hm => by cases hm), nodup_openEntry hn, cleanDir_openEntry⟩
  by_cases hself : HasFile (openEntry s.dir (itoa session.id)) (itoa session.id)
  · have hfiles : HasTranscript (openEntry s.dir (itoa session.id)) = fun d => s.shared.files d ∨ d = session.id :=
      funext fun d => propext (hasTranscript_openEntry_iff hid.1 hid.2 hself d)
    refine ⟨true, ?_, fun _ _ => rfl⟩
    show Acts w s.shared _ true ⟨_, _, HasTranscript (openEntry s.dir (itoa session.id))⟩ _
    rw [hfiles]
    exact .create rfl
  · have hfiles : HasTranscript (openEntry s.dir (itoa session.id)) = s.shared.files :=
      funext fun d => propext (hasTranscript_openEntry_other hself d)
    refine ⟨false, ?_, fun _ hc => absurd (hasFile_openEntry_clean hc hn hid.1 hid.2 hopen) hself⟩
    show Acts w s.shared _ false ⟨_, _, HasTranscript (openEntry s.dir (itoa session.id))⟩ _
    rw [hfiles]
    exact .open rfl

/-- Writing changes no name. -/
theorem shared_writeEntry (s : Output) (name : String) (content : List UInt8) :
    ({ s with dir := writeEntry s.dir name content } : Output).shared = s.shared := by
  have : HasTranscript (writeEntry s.dir name content) = HasTranscript s.dir :=
    funext fun d => propext (and_congr_right fun _ => and_congr_right fun _ => hasFile_writeEntry)
  simp only [Output.shared, this]

/-- A removal. -/
theorem shared_removeEntry (s : Output) {name : String} {c : Nat} (hc : name = itoa c) :
    ({ s with dir := removeEntry s.dir name } : Output).shared =
      { s.shared with files := fun d => s.shared.files d ∧ d ≠ c } := by
  have : HasTranscript (removeEntry s.dir name) = fun d => s.shared.files d ∧ d ≠ c := by
    funext d
    simp only [HasTranscript, hasFile_removeEntry, Output.shared, hc, ne_eq, itoa_inj, and_assoc]
  simp only [Output.shared, this]

/-- A guard that is given up. -/
theorem guarded_filter (l : List Nat) (c : Nat) :
    (fun d => d ∈ l.filter (· ≠ c)) = fun d => d ∈ l ∧ d ≠ c := by
  funext d
  simp only [List.mem_filter, decide_eq_true_eq]

/-- The section of `releaseTranscript`. -/
theorem effect_release (hn : (s.dir.map Entry.name).Nodup) (hpath : t.path ≠ "" ↔ t.phase.stored = true)
    (hpc : t.pc = .release) (pc : OutputPc) (mu : Option Nat)
    (hphase : ({ t with pc := pc } : OutputThread).phase = .done) (hfiles : pc.files = [])
    (hsees : ∀ c, pc.sees c → (c : Int) ≤ (max t.session.id s.transcriptRetentionHighWatermark : Nat) - w)
    (hall : ∀ c : Nat, 0 < c → (c : Int) ≤ (max t.session.id s.transcriptRetentionHighWatermark : Nat) - w → pc.sees c) :
    OutputEffect w s t m
      { s with
        protectedTranscripts := s.protectedTranscripts.filter (· ≠ t.session.id)
        transcriptRetentionHighWatermark := max t.session.id s.transcriptRetentionHighWatermark
        muTranscripts := mu }
      { t with pc := pc } := by
  obtain ⟨session, text, transcribed, path, pc₀⟩ := t
  cases hpc
  refine ⟨⟨true, ?_, fun _ _ => rfl⟩, rfl, ?_, (fun _ hm => by rw [hfiles] at hm; cases hm), hn, id⟩
  · show Acts w s.shared _ true
      ⟨_, fun d => d ∈ s.protectedTranscripts.filter (· ≠ session.id), HasTranscript s.dir⟩ _
    rw [guarded_filter]
    refine .release _ rfl rfl hphase hsees (fun c hf hle => hall c hf.1 hle) fun c hc => ?_
    have hc : itoa c ∈ pc.files := hc
    rw [hfiles] at hc; cases hc
  · rw [hphase]
    exact hpath

/-- The `Info` of an entry. -/
theorem effect_info {cutoff : Int} {name : String} {entries files : List String} {session : Session} {text path : String}
    {transcribed : Bool} (hn : (s.dir.map Entry.name).Nodup)
    (hpath : path ≠ "" ↔
      (⟨session, text, transcribed, path, .listing cutoff (name :: entries) files⟩ : OutputThread).phase.stored = true)
    (hfiles : ∀ name ∈ files, ∃ c, name = itoa c)
    (h : outputStep host s i ⟨session, text, transcribed, path, .listing cutoff (name :: entries) files⟩ (.call none) =
      some (s', t', es)) :
    OutputEffect w s ⟨session, text, transcribed, path, .listing cutoff (name :: entries) files⟩ (.call none) s' t' := by
  -- what is lost from sight is the entry itself
  have hsub : ∀ c, (OutputPc.listing cutoff entries files).sees c →
      (OutputPc.listing cutoff (name :: entries) files).sees c := by
    rintro c (⟨hle, hc⟩ | hc)
    · exact Or.inl ⟨hle, List.mem_cons_of_mem _ hc⟩
    · exact Or.inr hc
  have hskip : (∀ c, name = itoa c → (c : Int) ≤ cutoff → s.shared.files c → ¬s.shared.guarded c → False) →
      ∀ c, (OutputPc.listing cutoff (name :: entries) files).sees c → s.shared.files c → ¬s.shared.guarded c →
        (OutputPc.listing cutoff entries files).sees c := by
    rintro hgone c (⟨hle, hc⟩ | hc) hf hg
    · rcases List.mem_cons.mp hc with he | hc
      · exact absurd (hgone c he.symm hle hf hg) id
      · exact Or.inl ⟨hle, hc⟩
    · exact Or.inr hc
  simp only [outputStep] at h
  split at h
  · rename_i hl
    cases h
    refine effect_stay hn hpath (.listing cutoff entries files) rfl hsub (hskip ?_) (fun c hc => Or.inl hc) hfiles _
    rintro c rfl - ⟨-, -, hf⟩ -
    obtain ⟨e, he, -⟩ := lstat_of_hasFile hn hf
    rw [hl] at he; cases he
  · rename_i e hl
    have hmem := List.mem_of_find?_eq_some hl
    have hname : e.name = name := by simpa using List.find?_some hl
    split at h
    · rename_i hpick
      cases h
      obtain ⟨c, hpos, hmax, hc, hle, hp⟩ := prunes_iff.mp hpick.2
      refine effect_stay hn hpath (.listing cutoff entries (files ++ [name])) rfl ?_ ?_ ?_ ?_ _
      · rintro d (⟨hd, hm⟩ | hm)
        · exact Or.inl ⟨hd, List.mem_cons_of_mem _ hm⟩
        · rcases List.mem_append.mp hm with hm | hm
          · exact Or.inr hm
          · have hdc : d = c := itoa_inj.mp ((List.mem_singleton.mp hm).trans hc)
            exact Or.inl ⟨hdc ▸ hle, List.mem_singleton.mp hm ▸ List.mem_cons_self⟩
      · rintro d (⟨hd, hm⟩ | hm) - -
        · rcases List.mem_cons.mp hm with hm | hm
          · exact Or.inr (List.mem_append_right _ (hm ▸ List.mem_singleton_self _))
          · exact Or.inl ⟨hd, hm⟩
        · exact Or.inr (List.mem_append_left _ hm)
      · intro d hm
        rcases List.mem_append.mp hm with hm | hm
        · exact Or.inl hm
        · have hdc : d = c := itoa_inj.mp ((List.mem_singleton.mp hm).trans hc)
          subst hdc
          exact Or.inr ⟨Or.inl ⟨hle, hc ▸ List.mem_cons_self⟩,
            ⟨hpos, hmax, e, hmem, hname.trans hc, hpick.1⟩, hp⟩
      · intro n hm
        rcases List.mem_append.mp hm with hm | hm
        · exact hfiles n hm
        · exact ⟨c, (List.mem_singleton.mp hm).trans hc⟩
    · rename_i hpick
      cases h
      refine effect_stay hn hpath (.listing cutoff entries files) rfl hsub (hskip ?_) (fun c hc => Or.inl hc) hfiles _
      rintro c rfl hle ⟨hpos, hmax, hf⟩ hg
      obtain ⟨e', he', ht⟩ := lstat_of_hasFile hn hf
      rw [hl] at he'
      cases he'
      exact hpick ⟨ht, prunes_iff.mpr ⟨c, hpos, hmax, rfl, hle, hg⟩⟩

section Stages

variable {session : Session} {text path : String} {transcribed : Bool}

/-- The start of `processTranscript`. -/
theorem effect_begin (hn : (s.dir.map Entry.name).Nodup)
    (hpath : path ≠ "" ↔ (⟨session, text, transcribed, path, .begin⟩ : OutputThread).phase.stored = true)
    (h : outputStep host s i ⟨session, text, transcribed, path, .begin⟩ .next = some (s', t', es)) :
    OutputEffect w s ⟨session, text, transcribed, path, .begin⟩ .next s' t' := by
  cases h
  split
  · exact effect_quiet hn hpath .protect rfl (fun _ => id) (fun _ => id) rfl
  · have hp : path = "" := path_eq_empty hpath rfl
    subst hp
    exact ⟨⟨true, .skip rfl, fun _ _ => rfl⟩, rfl, by simp [OutputThread.phase, Phase.stored], no_files rfl, hn, id⟩

/-- The section of `protectTranscript`. -/
theorem effect_protect (hr : retains host.cfg = true) (hn : (s.dir.map Entry.name).Nodup)
    (hpath : path ≠ "" ↔ (⟨session, text, transcribed, path, .protect⟩ : OutputThread).phase.stored = true)
    (h : outputStep host s i ⟨session, text, transcribed, path, .protect⟩ .next = some (s', t', es)) :
    OutputEffect w s ⟨session, text, transcribed, path, .protect⟩ .next s' t' := by
  simp only [outputStep, hr, Bool.not_true, Bool.false_eq_true, if_false] at h
  split at h
  · cases h
    refine ⟨⟨true, ?_, fun _ _ => rfl⟩, rfl, hpath, no_files rfl, hn, id⟩
    have hg : (fun d => d ∈ s.protectedTranscripts.insert session.id) =
        fun d => s.shared.guarded d ∨ d = session.id := by
      funext d
      simp only [List.mem_insert_iff, Output.shared]
      exact propext or_comm
    show Acts _ s.shared _ true ⟨_, fun d => d ∈ s.protectedTranscripts.insert session.id, HasTranscript s.dir⟩ _
    rw [hg]
    exact .guard rfl
  · cases h

/-- The write, which may fail behind any byte. -/
theorem effect_write (hn : (s.dir.map Entry.name).Nodup)
    (hpath : path ≠ "" ↔ (⟨session, text, transcribed, path, .write⟩ : OutputThread).phase.stored = true)
    (h : outputStep host s i ⟨session, text, transcribed, path, .write⟩ m = some (s', t', es)) :
    OutputEffect w s ⟨session, text, transcribed, path, .write⟩ m s' t' := by
  cases m with
  | call err =>
    cases err with
    | none =>
      cases h
      refine ⟨⟨true, ?_, fun _ _ => rfl⟩, rfl, ?_, ?_, nodup_writeEntry hn, cleanDir_writeEntry⟩
      · show Acts _ s.shared _ true ({ s with dir := writeEntry s.dir _ _ } : Output).shared _
        rw [shared_writeEntry]
        split <;> exact .store rfl
      · have hne := transcriptPath_ne_empty host.cfg.runtimeDir session.id
        split <;> exact ⟨fun _ => rfl, fun _ => hne⟩
      · split <;> exact no_files rfl
    | some err => cases h
  | writeError n err =>
    cases h
    refine ⟨⟨false, ?_, fun hs => by cases hs⟩, rfl, hpath, no_files rfl, nodup_writeEntry hn, cleanDir_writeEntry⟩
    show Acts _ s.shared _ false ({ s with dir := writeEntry s.dir _ _ } : Output).shared _
    rw [shared_writeEntry]
    exact .fail true rfl
  | next => cases h

/-- The section of `unprotectTranscript`. -/
theorem effect_unprotect {err : String} (hr : retains host.cfg = true) (hn : (s.dir.map Entry.name).Nodup)
    (hpath : path ≠ "" ↔ (⟨session, text, transcribed, path, .unprotect err⟩ : OutputThread).phase.stored = true)
    (h : outputStep host s i ⟨session, text, transcribed, path, .unprotect err⟩ .next = some (s', t', es)) :
    OutputEffect w s ⟨session, text, transcribed, path, .unprotect err⟩ .next s' t' := by
  simp only [outputStep, hr, Bool.not_true, Bool.false_eq_true, if_false] at h
  split at h
  · cases h
    have hp : path = "" := path_eq_empty hpath rfl
    subst hp
    refine ⟨⟨true, ?_, fun _ _ => rfl⟩, rfl, by simp [OutputThread.phase, Phase.stored], no_files rfl, hn, id⟩
    show Acts _ s.shared _ true
      ⟨_, fun d => d ∈ s.protectedTranscripts.filter (· ≠ session.id), HasTranscript s.dir⟩ _
    rw [guarded_filter]
    exact .drop rfl
  · cases h

/-- The section of `releaseTranscript` up to the listing of the directory. -/
theorem effect_leave (hr : retains host.cfg = true) (hn : (s.dir.map Entry.name).Nodup)
    (hpath : path ≠ "" ↔ (⟨session, text, transcribed, path, .release⟩ : OutputThread).phase.stored = true)
    (h : outputStep host s i ⟨session, text, transcribed, path, .release⟩ .next = some (s', t', es)) :
    OutputEffect host.cfg.transcriptRetentionWindow s ⟨session, text, transcribed, path, .release⟩ .next s' t' := by
  simp only [outputStep, hr, Bool.not_true, Bool.false_eq_true, if_false] at h
  split at h
  · split at h
    · rename_i hcut
      cases h
      refine effect_release hn hpath rfl (.removing []) s.muTranscripts rfl rfl (fun c hc => by cases hc) ?_
      intro c hpos hle
      dsimp only at hle
      omega
    · cases h
      exact effect_release hn hpath rfl (.readDir _) (some i) rfl rfl (fun c hc => hc) fun c _ hle => hle
  · cases h

/-- `os.ReadDir`. -/
theorem effect_readDir {cutoff : Int} (hn : (s.dir.map Entry.name).Nodup)
    (hpath : path ≠ "" ↔ (⟨session, text, transcribed, path, .readDir cutoff⟩ : OutputThread).phase.stored = true)
    {err : Option String}
    (h : outputStep host s i ⟨session, text, transcribed, path, .readDir cutoff⟩ (.call err) = some (s', t', es)) :
    OutputEffect w s ⟨session, text, transcribed, path, .readDir cutoff⟩ (.call err) s' t' := by
  cases err with
  | none =>
    cases h
    refine effect_stay hn hpath (.listing cutoff _ []) rfl ?_ ?_ (fun c hc => by cases hc) (no_files rfl) _
    · rintro c (hc | hc)
      · exact hc.1
      · cases hc
    · rintro c hc ⟨-, -, e, he, hname, -⟩ -
      exact Or.inl ⟨hc, List.mem_map.mpr ⟨e, he, hname⟩⟩
  | some err =>
    cases h
    exact ⟨⟨false, .abort _ rfl rfl (fun c hc => by cases hc) (fun c hc => by cases hc), fun hs => by cases hs⟩,
      rfl, hpath, no_files rfl, hn, id⟩

/-- The loop over the entries of the directory. -/
theorem effect_listing {cutoff : Int} {entries files : List String} (hn : (s.dir.map Entry.name).Nodup)
    (hpath : path ≠ "" ↔
      (⟨session, text, transcribed, path, .listing cutoff entries files⟩ : OutputThread).phase.stored = true)
    (hfiles : ∀ name ∈ files, ∃ c, name = itoa c)
    (h : outputStep host s i ⟨session, text, transcribed, path, .listing cutoff entries files⟩ m = some (s', t', es)) :
    OutputEffect w s ⟨session, text, transcribed, path, .listing cutoff entries files⟩ m s' t' := by
  cases entries with
  | nil =>
    cases m with
    | next =>
      cases h
      refine effect_stay hn hpath (.removing files) rfl ?_ ?_ (fun c hc => Or.inl hc) hfiles _
      · exact fun c hc => Or.inr hc
      · rintro c (⟨-, hc⟩ | hc) - -
        · cases hc
        · exact hc
    | _ => cases h
  | cons name entries =>
    cases m with
    | call err =>
      cases err with
      | none => exact effect_info hn hpath hfiles h
      | some err =>
        cases h
        exact ⟨⟨false, .abort _ rfl rfl (fun c hc => Or.inr hc) (fun c hc => hc), fun hs => by cases hs⟩, rfl, hpath,
          hfiles, hn, id⟩
    | _ => cases h

/-- The loop over the picked names. -/
theorem effect_removing {files : List String} (hn : (s.dir.map Entry.name).Nodup)
    (hpath : path ≠ "" ↔ (⟨session, text, transcribed, path, .removing files⟩ : OutputThread).phase.stored = true)
    (hfiles : ∀ name ∈ files, ∃ c, name = itoa c)
    (h : outputStep host s i ⟨session, text, transcribed, path, .removing files⟩ m = some (s', t', es)) :
    OutputEffect w s ⟨session, text, transcribed, path, .removing files⟩ m s' t' := by
  cases files with
  | nil =>
    cases m with
    | next =>
      cases h
      have hp : path ≠ "" := hpath.mpr rfl
      have hphase : (⟨session, text, transcribed, path, .returned⟩ : OutputThread).phase = .done := if_neg hp
      exact effect_quiet hn hpath .returned hphase (fun _ => id) (fun c hc => by cases hc) rfl
    | _ => cases h
  | cons name files =>
    obtain ⟨c, hc⟩ := hfiles name List.mem_cons_self
    have hrest : ∀ name ∈ files, ∃ c, name = itoa c := fun n hm => hfiles n (List.mem_cons_of_mem _ hm)
    cases m with
    | call err =>
      cases err with
      | none =>
        cases h
        refine ⟨⟨true, ?_, fun _ _ => rfl⟩, rfl, hpath, hrest, nodup_removeEntry hn, cleanDir_removeEntry⟩
        show Acts _ s.shared _ true ({ s with dir := removeEntry s.dir name } : Output).shared _
        rw [shared_removeEntry s hc]
        refine .remove c _ rfl rfl (hc ▸ List.mem_cons_self) (fun d hd => List.mem_cons_of_mem _ hd) ?_
          fun d hd => List.mem_cons_of_mem _ hd
        intro d hd hne
        rcases List.mem_cons.mp hd with he | hd
        · exact absurd (itoa_inj.mp (he.trans hc)) hne
        · exact hd
      | some err =>
        cases h
        exact ⟨⟨false, .abort _ rfl rfl (fun d hd => List.mem_cons_of_mem _ hd)
          (fun d hd => List.mem_cons_of_mem _ hd), fun hs => by cases hs⟩, rfl, hpath, hrest, hn, id⟩
    | _ => cases h

end Stages

/-- **Every step of a goroutine is an action of its owner.** -/
theorem outputStep_effect (hw : 0 < host.cfg.transcriptRetentionWindow)
    (hid : 0 < t.session.id ∧ t.session.id ≤ maxClipID) (hpath : t.path ≠ "" ↔ t.phase.stored = true)
    (hn : (s.dir.map Entry.name).Nodup) (hfiles : ∀ name ∈ t.pc.files, ∃ c, name = itoa c)
    (h : outputStep host s i t m = some (s', t', es)) :
    OutputEffect host.cfg.transcriptRetentionWindow s t m s' t' := by
  have hr : retains host.cfg = true := decide_eq_true hw
  obtain ⟨session, text, transcribed, path, pc⟩ := t
  cases pc with
  | begin =>
    cases m with
    | next => exact effect_begin hn hpath h
    | _ => cases h
  | protect =>
    cases m with
    | next => exact effect_protect hr hn hpath h
    | _ => cases h
  | «open» =>
    cases m with
    | call err =>
      cases err with
      | none =>
        simp only [outputStep] at h
        split at h
        · cases h
        · rename_i hopen
          cases h
          exact effect_open hid hn hpath rfl hopen
      | some err =>
        cases h
        exact ⟨⟨true, .fail false rfl, fun _ _ => rfl⟩, rfl, hpath, no_files rfl, hn, id⟩
    | _ => cases h
  | write => exact effect_write hn hpath h
  | unprotect err =>
    cases m with
    | next => exact effect_unprotect hr hn hpath h
    | _ => cases h
  | checkContext =>
    cases m with
    | next =>
      cases h
      split
      · exact effect_quiet hn hpath .release rfl (fun _ => id) (fun _ => id) rfl
      · exact effect_quiet hn hpath .start rfl (fun _ => id) (fun _ => id) rfl
    | _ => cases h
  | start =>
    cases m with
    | call err =>
      cases err with
      | none =>
        cases h
        exact effect_quiet hn hpath .wait rfl (fun _ => id) (fun _ => id) rfl
      | some err =>
        cases h
        exact effect_quiet hn hpath .release rfl (fun _ => id) (fun _ => id) rfl
    | _ => cases h
  | wait =>
    cases m with
    | next =>
      cases h
      exact effect_quiet hn hpath .release rfl (fun _ => id) (fun _ => id) rfl
    | _ => cases h
  | release =>
    cases m with
    | next => exact effect_leave hr hn hpath h
    | _ => cases h
  | readDir cutoff =>
    cases m with
    | call err => exact effect_readDir hn hpath h
    | _ => cases h
  | listing cutoff entries files => exact effect_listing hn hpath hfiles h
  | removing files => exact effect_removing hn hpath hfiles h
  | returned => cases m <;> cases h

/-- Only the loop over the picked names removes. -/
theorem mem_files_of_remove {name : String} (h : outputStep host s i t m = some (s', t', es))
    (hm : .remove name ∈ es) : name ∈ t.pc.files := by
  unfold outputStep at h
  dsimp only at h
  split at h
  all_goals (repeat' split at h) <;> cases h <;> simp at hm
  all_goals
    rename_i hpc
    rw [hpc, hm]
    exact List.mem_cons_self

end Effect

end Talk2Text.Daemon
