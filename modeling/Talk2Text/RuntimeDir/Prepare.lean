import Talk2Text.RuntimeDir.Socket

/-!
# Preparing the runtime directory

`runtimedir/runtimedir.go`, `cleanTranscriptDir` of `runtimedir/transcripts.go` and `PrepareSocket` of
`runtimedir/sock.go`: `PrepareDir` makes sure that the runtime directory and its transcript directory are usable and
removes the transcript files in it; `PrepareSocket` looks for a daemon that is already there. The outcomes of the
system calls are free (`Faults`).

- `prepareDir_ok`, `prepareDir_error`: what a successful `PrepareDir` leaves of the transcripts, and its error texts;
- `prepareSocket_steps`: `PrepareSocket`, when nobody else interferes, is the steps of `procStep`.
-/

namespace Talk2Text.RuntimeDir

open Sys

/-! ## Directories -/

inductive FileType
  | regular
  | directory
  | symlink
  | other
  deriving DecidableEq, Repr

/-- What `os.Lstat` says about a directory path. -/
structure FileInfo where
  isDir : Bool
  ownedByCurrentUser : Bool
  deriving DecidableEq, Repr

/-- An entry of the transcript directory. -/
structure Entry where
  name : String
  type : FileType
  content : List UInt8
  deriving DecidableEq, Repr

structure TranscriptDir where
  info : FileInfo
  entries : List Entry
  deriving DecidableEq, Repr

/-- The runtime directory, as far as startup looks at it. -/
structure Dir where
  info : FileInfo
  transcripts : Option TranscriptDir
  /-- `daemon.sock`. -/
  sock : SocketFile
  deriving DecidableEq, Repr

/-- The outcomes of the system calls of `ensureOwnedDir`; `created` is what is found after the creation. -/
structure DirFaults where
  lstat : Option String
  mkdirAll : Option String
  lstatCreated : Option String
  created : FileInfo

/-- The outcomes of the system calls of `PrepareSocket`. -/
structure SocketFaults where
  lstat : Option String
  /-- A daemon accepts the connection. -/
  connected : Bool
  remove : Option String

structure Faults where
  runtimeDir : DirFaults
  transcriptDir : DirFaults
  readDir : Option String
  /-- The error of `os.Remove` on an entry of the transcript directory. -/
  remove : String → Option String
  socket : SocketFaults

/-- `ensureOwnedDir`: what is at the path afterwards, and the result. -/
def ensureOwnedDir (f : DirFaults) (info : Option FileInfo) : Option FileInfo × Except String Unit :=
  match f.lstat with
  | some e => (info, .error ("failed to inspect: " ++ e))
  | none =>
    match info with
    | some i =>
      if !i.isDir then (info, .error "not a directory")
      else if !i.ownedByCurrentUser then (info, .error "not owned by current user")
      else (info, .ok ())
    | none =>
      match f.mkdirAll with
      | some e => (none, .error ("failed to create: " ++ e))
      | none =>
        match f.lstatCreated with
        | some e => (some f.created, .error ("created but failed to inspect: " ++ e))
        | none =>
          if !f.created.isDir then (some f.created, .error "created but not a directory")
          else if !f.created.ownedByCurrentUser then (some f.created, .error "created but not owned by current user")
          else (some f.created, .ok ())

/-- The loop of `cleanTranscriptDir`: the entries that stay, and whether none does. -/
def cleanEntries (remove : String → Option String) : List Entry → List Entry × Bool
  | [] => ([], true)
  | e :: es =>
    let (kept, empty) := cleanEntries remove es
    if e.type = .regular ∧ remove e.name = none then (kept, empty) else (e :: kept, false)

/-- `cleanTranscriptDir`. -/
def cleanTranscriptDir (f : Faults) (dir : Option TranscriptDir) : Option TranscriptDir × Except String Bool :=
  let (info, r) := ensureOwnedDir f.transcriptDir (dir.map TranscriptDir.info)
  let entries := (dir.map TranscriptDir.entries).getD []
  match r with
  | .error e => (info.map fun i => ⟨i, entries⟩, .error ("not usable transcript directory: " ++ e))
  | .ok () =>
    match f.readDir with
    | some e => (info.map fun i => ⟨i, entries⟩, .error ("failed to read transcript directory: " ++ e))
    | none =>
      let (kept, empty) := cleanEntries f.remove entries
      (info.map fun i => ⟨i, kept⟩, .ok empty)

/-- `PrepareDir`: the directory afterwards, what is logged, and the result. -/
def prepareDir (f : Faults) (dir : Option Dir) : Option Dir × List String × Except String Unit :=
  let (info, r) := ensureOwnedDir f.runtimeDir (dir.map Dir.info)
  let sock := (dir.map Dir.sock).getD .missing
  match r with
  | .error e => (info.map fun i => ⟨i, dir.bind Dir.transcripts, sock⟩, [],
      .error ("not usable runtime directory: " ++ e))
  | .ok () =>
    let (transcripts, r) := cleanTranscriptDir f (dir.bind Dir.transcripts)
    let dir' := info.map fun i => ⟨i, transcripts, sock⟩
    match r with
    | .error e => (dir', [], .error e)
    | .ok empty => (dir', if empty then [] else ["transcript directory is not empty after cleanup"], .ok ())

/-- `PrepareSocket`: the path afterwards, and the result; the path that it returns is always `daemon.sock`. -/
def prepareSocket (f : SocketFaults) (path : SocketFile) : SocketFile × Except String Unit :=
  match f.lstat with
  | some e => (path, .error ("failed to inspect socket path: " ++ e))
  | none =>
    match path with
    | .missing => (path, .ok ())
    | .notSocket => (path, .error "socket path exists but is not a socket")
    | .socket _ =>
      if f.connected then (path, .error "socket is in use")
      else
        match f.remove with
        | some e => (path, .error ("failed to remove stale socket: " ++ e))
        | none => (.missing, .ok ())

/-- Where `PrepareSocket` leaves the goroutine. -/
def preparedPc : Except String Unit → ServePc
  | .ok () => .listen
  | .error e => .returned (some e)

/-! ## What they do -/

/-- The files of the transcript directory. -/
def transcriptFiles (dir : Option Dir) : List Entry := ((dir.bind Dir.transcripts).map TranscriptDir.entries).getD []

/-- A directory that is usable is there. -/
theorem ensureOwnedDir_ok {f : DirFaults} {info info' : Option FileInfo}
    (h : ensureOwnedDir f info = (info', .ok ())) : ∃ i, info' = some i := by
  unfold ensureOwnedDir at h
  repeat' split at h
  all_goals cases h
  all_goals exact ⟨_, rfl⟩

/-- **The loop** keeps what is not a regular file or cannot be removed. -/
theorem cleanEntries_fst (remove : String → Option String) (es : List Entry) :
    (cleanEntries remove es).1 = es.filter fun e => ¬(e.type = .regular ∧ remove e.name = none) := by
  induction es with
  | nil => rfl
  | cons e es ih =>
    simp only [cleanEntries, List.filter_cons]
    split
    · rename_i h
      rw [if_neg (by simp [h]), ih]
    · rename_i h
      rw [if_pos (decide_eq_true h), ih]

/-- After a successful `PrepareDir` only the entries are left that the loop keeps. -/
theorem prepareDir_ok {f : Faults} {dir dir' : Option Dir} {logs : List String}
    (h : prepareDir f dir = (dir', logs, .ok ())) :
    transcriptFiles dir' = (cleanEntries f.remove (transcriptFiles dir)).1 := by
  unfold prepareDir at h
  cases hr : ensureOwnedDir f.runtimeDir (dir.map Dir.info) with
  | mk info r =>
    rw [hr] at h
    cases r with
    | error e => cases h
    | ok u =>
      obtain ⟨i, rfl⟩ := ensureOwnedDir_ok hr
      unfold cleanTranscriptDir at h
      cases ht : ensureOwnedDir f.transcriptDir ((dir.bind Dir.transcripts).map TranscriptDir.info) with
      | mk info r =>
        rw [ht] at h
        cases r with
        | error e => cases h
        | ok u =>
          obtain ⟨j, rfl⟩ := ensureOwnedDir_ok ht
          cases hd : f.readDir with
          | some e => simp [hd] at h
          | none =>
            simp only [hd, Option.map_some, Prod.mk.injEq] at h
            obtain ⟨rfl, -⟩ := h
            rfl

/-- The errors of `PrepareDir`. -/
theorem prepareDir_error {f : Faults} {dir dir' : Option Dir} {logs : List String} {e : String}
    (h : prepareDir f dir = (dir', logs, .error e)) :
    ∃ t, e = "not usable runtime directory: " ++ t ∨ e = "not usable transcript directory: " ++ t ∨
      e = "failed to read transcript directory: " ++ t := by
  unfold prepareDir at h
  dsimp only at h
  split at h
  · simp only [Prod.mk.injEq, Except.error.injEq] at h
    exact ⟨_, Or.inl h.2.2.symm⟩
  · split at h
    · rename_i hc
      simp only [Prod.mk.injEq, Except.error.injEq] at h
      obtain ⟨-, -, rfl⟩ := h
      unfold cleanTranscriptDir at hc
      dsimp only at hc
      split at hc
      · exact ⟨_, Or.inr (Or.inl (Except.error.inj hc).symm)⟩
      · split at hc
        · exact ⟨_, Or.inr (Or.inr (Except.error.inj hc).symm)⟩
        · cases hc
    · simp at h

section Steps

variable {s : Machine} {i : Nat} {p : Proc}

/-- An action of one daemon is a step of the machine. -/
theorem daemon_steps (hi : s.procs[i]? = some p) (m : Move) (q : Proc) (op : PathOp)
    (h : procStep s.path s.answers s.nextSock p m = some (q, op)) :
    Steps socketSystem s { s.apply op with procs := s.procs.set i q } :=
  @Steps.single _ _ _ _ _ _ (.daemon i m) [] (by simp [socketSystem, hi, h])

/-- Somebody answers when another daemon listens on the socket at the path. -/
theorem answers_of_listener {j k : Nat} {q : Proc} (hj : s.procs[j]? = some q) (hk : q.listener = some k)
    (hp : s.path = .socket k) : s.answers = true := by
  unfold Machine.answers
  rw [List.any_eq_true]
  exact ⟨q, List.mem_of_getElem? hj, by simp [hk, hp]⟩

/-- **`PrepareSocket` without interference** is the steps of the daemon that calls it, provided that a connection is
accepted only when another daemon listens. -/
theorem prepareSocket_steps {f : SocketFaults} (hi : s.procs[i]? = some p) (hpc : p.pc = .lstat)
    (hdial : f.connected = true →
      ∃ j q k, j ≠ i ∧ s.procs[j]? = some q ∧ q.listener = some k ∧ s.path = .socket k) :
    Steps socketSystem s
      { s with path := (prepareSocket f s.path).1
               procs := s.procs.set i { p with pc := preparedPc (prepareSocket f s.path).2 } } := by
  unfold prepareSocket
  cases hl : f.lstat with
  | some e =>
    exact daemon_steps hi (.lstat (some e)) { p with pc := .returned (some ("failed to inspect socket path: " ++ e)) }
      .keep (by simp [procStep, hpc])
  | none =>
    cases hpath : s.path with
    | missing =>
      have := daemon_steps hi (.lstat none) { p with pc := .listen } .keep (by simp [procStep, hpc, hpath])
      simpa [Machine.apply, hpath, preparedPc] using this
    | notSocket =>
      have := daemon_steps hi (.lstat none)
        { p with pc := .returned (some "socket path exists but is not a socket") } .keep
        (by simp [procStep, hpc, hpath])
      simpa [Machine.apply, hpath, preparedPc] using this
    | socket k =>
      have hlt : i < s.procs.length := (List.getElem?_eq_some_iff.mp hi).1
      let s₁ : Machine := { s with procs := s.procs.set i { p with pc := .dial } }
      let s₂ : Machine := { s with procs := s.procs.set i { p with pc := .remove } }
      have hi₁ : s₁.procs[i]? = some { p with pc := .dial } := List.getElem?_set_self hlt
      have hi₂ : s₂.procs[i]? = some { p with pc := .remove } := List.getElem?_set_self hlt
      have h₁ : Steps socketSystem s s₁ :=
        daemon_steps hi (.lstat none) { p with pc := .dial } .keep (by simp [procStep, hpc, hpath])
      cases hc : f.connected with
      | true =>
        obtain ⟨j, q, k', hne, hj, hk, hp⟩ := hdial hc
        have hans : s₁.answers = true :=
          answers_of_listener (by rw [← hj]; exact List.getElem?_set_ne hne.symm) hk hp
        have h₂ := daemon_steps hi₁ (.dial true) { p with pc := .returned (some "socket is in use") } .keep
          (by simp [procStep, hans])
        simpa [s₁, Machine.apply, List.set_set, hpath, preparedPc] using h₁.trans h₂
      | false =>
        have h₂ := daemon_steps hi₁ (.dial false) { p with pc := .remove } .keep (by simp [procStep])
        have h₁₂ : Steps socketSystem s s₂ := by
          simpa [s₁, s₂, Machine.apply, List.set_set] using h₁.trans h₂
        cases hr : f.remove with
        | some e =>
          have h₃ := daemon_steps hi₂ (.remove (some e))
            { p with pc := .returned (some ("failed to remove stale socket: " ++ e)) } .keep (by simp [procStep])
          simpa [s₂, Machine.apply, List.set_set, hpath, preparedPc] using h₁₂.trans h₃
        | none =>
          have h₃ := daemon_steps hi₂ (.remove none) { p with pc := .listen } .unlink
            (by simp [procStep, s₂, hpath])
          simpa [s₂, Machine.apply, List.set_set, hpath, preparedPc] using h₁₂.trans h₃

end Steps

end Talk2Text.RuntimeDir
