import Talk2Text.RuntimeDir.Prepare

/-!
# Startup

The beginning of `Run` (`daemon/daemon.go`): `PrepareDir`, then `PrepareSocket`. A daemon that finds another one live,
or something else than a socket at `daemon.sock`, refuses to start. By then `PrepareDir` has cleaned the transcript
directory.

`refused_keeps_transcripts_iff`: a refused startup leaves the transcripts as they were exactly when there was nothing
to remove.
-/

namespace Talk2Text.Daemon

open RuntimeDir

/-- `Run` up to the socket: the runtime directory afterwards, what is logged, and the error that `Run` returns, if
any. -/
def startup (f : Faults) (dir : Option Dir) : Option Dir × List String × Option String :=
  match prepareDir f dir with
  | (dir', logs, .error e) => (dir', logs, some e)
  | (dir', logs, .ok ()) =>
    match prepareSocket f.socket ((dir'.map Dir.sock).getD .missing) with
    | (sock, .error e) => (dir'.map fun d => { d with sock := sock }, logs, some e)
    | (sock, .ok ()) => (dir'.map fun d => { d with sock := sock }, logs, none)

/-- The startup fails because a live daemon accepts connections, or because the path is not a socket. -/
def Refused (f : Faults) (dir : Option Dir) : Prop :=
  (startup f dir).2.2 = some "socket is in use" ∨
  (startup f dir).2.2 = some "socket path exists but is not a socket"

/-- No error of `PrepareDir` is one of these. -/
theorem prepareDir_error_ne {t : String} :
    ("not usable runtime directory: " ++ t ≠ "socket is in use" ∧
      "not usable runtime directory: " ++ t ≠ "socket path exists but is not a socket") ∧
    ("not usable transcript directory: " ++ t ≠ "socket is in use" ∧
      "not usable transcript directory: " ++ t ≠ "socket path exists but is not a socket") ∧
    ("failed to read transcript directory: " ++ t ≠ "socket is in use" ∧
      "failed to read transcript directory: " ++ t ≠ "socket path exists but is not a socket") := by
  -- the first characters differ
  have hne : ∀ a b : String, (a ++ t).toList.head? ≠ b.toList.head? → a ++ t ≠ b := fun a b h e => h (e ▸ rfl)
  refine ⟨⟨hne _ _ ?_, hne _ _ ?_⟩, ⟨hne _ _ ?_, hne _ _ ?_⟩, hne _ _ ?_, hne _ _ ?_⟩ <;>
    simp [String.toList_append]

/-- A refused startup has passed `PrepareDir`. -/
theorem Refused.prepared {f : Faults} {dir : Option Dir} (h : Refused f dir) :
    ∃ dir' logs, prepareDir f dir = (dir', logs, .ok ()) := by
  unfold Refused startup at h
  split at h
  · rename_i dir' logs e he
    obtain ⟨t, ht⟩ := prepareDir_error he
    obtain ⟨⟨h1, h2⟩, ⟨h3, h4⟩, h5, h6⟩ := @prepareDir_error_ne t
    simp only [Option.some.injEq] at h
    rcases ht with rfl | rfl | rfl
    · exact (h.elim h1 h2).elim
    · exact (h.elim h3 h4).elim
    · exact (h.elim h5 h6).elim
  · rename_i dir' logs he
    exact ⟨dir', logs, he⟩

/-- `PrepareSocket` does not touch the transcripts. -/
theorem transcriptFiles_startup {f : Faults} {dir dir' : Option Dir} {logs : List String}
    (h : prepareDir f dir = (dir', logs, .ok ())) :
    transcriptFiles (startup f dir).1 = (cleanEntries f.remove (transcriptFiles dir)).1 := by
  have hkeep : ∀ sock, transcriptFiles (dir'.map fun d => { d with sock := sock }) = transcriptFiles dir' := by
    intro sock
    cases dir' <;> rfl
  rw [← prepareDir_ok h]
  unfold startup
  rw [h]
  dsimp only
  split <;> exact hkeep _

/-- **When a refused startup leaves the transcripts alone**: no file of the transcript directory is removed or changed
exactly when none of them is a regular file that can be removed. -/
theorem refused_keeps_transcripts_iff {f : Faults} {dir : Option Dir} (h : Refused f dir) :
    transcriptFiles (startup f dir).1 = transcriptFiles dir ↔
      ∀ e ∈ transcriptFiles dir, e.type = .regular → f.remove e.name ≠ none := by
  obtain ⟨dir', logs, hp⟩ := h.prepared
  rw [transcriptFiles_startup hp, cleanEntries_fst, List.filter_eq_self]
  constructor
  · intro hk e he hreg hrem
    exact of_decide_eq_true (hk e he) ⟨hreg, hrem⟩
  · intro hk e he
    exact decide_eq_true fun hreg => hk e he hreg.1 hreg.2

/-- No system call fails, and a daemon accepts the connection. -/
def liveDaemon : Faults where
  runtimeDir := ⟨none, none, none, ⟨true, true⟩⟩
  transcriptDir := ⟨none, none, none, ⟨true, true⟩⟩
  readDir := none
  remove := fun _ => none
  socket := ⟨none, true, none⟩

/-- A second daemon is refused, and the subdirectory that it finds stays. -/
theorem refused_keeps_directory :
    let dir := some ⟨⟨true, true⟩, some ⟨⟨true, true⟩, [⟨"kept", .directory, []⟩]⟩, .socket 0⟩
    Refused liveDaemon dir ∧ transcriptFiles (startup liveDaemon dir).1 = transcriptFiles dir := by
  have h : Refused liveDaemon (some ⟨⟨true, true⟩, some ⟨⟨true, true⟩, [⟨"kept", .directory, []⟩]⟩, .socket 0⟩) :=
    Or.inl (by decide)
  exact ⟨h, (refused_keeps_transcripts_iff h).mpr (by decide)⟩

/-- **A second daemon removes the transcripts of the live one** before it finds the socket in use. -/
theorem refused_removes_transcript :
    let dir := some ⟨⟨true, true⟩, some ⟨⟨true, true⟩, [⟨"1", .regular, [104, 105]⟩]⟩, .socket 0⟩
    (startup liveDaemon dir).2.2 = some "socket is in use" ∧
    transcriptFiles dir = [⟨"1", .regular, [104, 105]⟩] ∧ transcriptFiles (startup liveDaemon dir).1 = [] := by
  decide

end Talk2Text.Daemon
