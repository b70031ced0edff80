import Talk2Text.Sys.Basic
import Talk2Text.Sys.Pool

/-!
# Daemons on one socket path

`runtimedir/sock.go` and `Serve` of `server/server.go`: any number of daemons that use one runtime directory. Each
inspects `daemon.sock`, dials it and removes it when nobody answers (`PrepareSocket`), listens on it, and at its end
closes the listener and removes the path once more (`Serve`). Every system call is a step of its own (`procStep`), so
the daemons interleave between any two of them.

A daemon is live while its listener is open and its context is not cancelled.

`ProcActs` says what an action can do, seen from the path (`procStep_acts`). Every step of the machine keeps the
sockets of the daemons apart (`socketsOk_acts`).
-/

namespace Talk2Text.RuntimeDir

open Sys

/-! ## One daemon -/

/-- What the path `daemon.sock` refers to. -/
inductive SocketFile
  | missing
  | notSocket
  | socket (id : Nat)
  deriving DecidableEq, Repr

/-- The next action of the goroutine that calls `PrepareSocket` and `Serve`. -/
inductive ServePc
  /-- `os.Lstat` in `PrepareSocket`. -/
  | lstat
  | dial
  /-- `os.Remove` in `PrepareSocket`. -/
  | remove
  /-- `net.Listen`, the first action of `Serve`. -/
  | listen
  | chmod
  | accept
  /-- `handleConn` is running. -/
  | handleConn
  /-- The deferred `listener.Close`; `err` is what `Serve` returns. -/
  | close (err : Option String)
  /-- The deferred `os.Remove`. -/
  | cleanup (err : Option String)
  | returned (err : Option String)
  deriving DecidableEq, Repr

structure Proc where
  pc : ServePc
  /-- The socket of the listener, until it is closed. -/
  listener : Option Nat
  /-- The goroutine that closes the listener once the context is done is running. -/
  watching : Bool
  /-- The context is cancelled. -/
  cancelled : Bool
  deriving DecidableEq, Repr

/-- A daemon before `PrepareSocket`. -/
def Proc.initial : Proc := ⟨.lstat, none, false, false⟩

/-- Listening and not cancelled. -/
def Proc.live (p : Proc) : Bool := p.listener.isSome && !p.cancelled

/-- A removal of the path is still to come although the daemon does not listen: in `PrepareSocket` after a failed
dial, or in `Serve` after the listener is closed. -/
def Proc.mayRemove (p : Proc) : Bool :=
  match p.pc with
  | .remove | .cleanup _ => true
  | .chmod | .accept | .handleConn | .close _ => p.listener.isNone
  | .lstat | .dial | .listen | .returned _ => false

/-- An action and its outcome: `fault` is the error of the system call. -/
inductive Move
  | lstat (fault : Option String)
  | dial (connected : Bool)
  | remove (fault : Option String)
  | listen (fault : Option String)
  | chmod (fault : Option String)
  | accept (fault : Option String)
  | handled
  | close
  | cleanup (fault : Option String)
  /-- The watching goroutine closes the listener. -/
  | watch
  /-- The context is cancelled. -/
  | cancel
  deriving DecidableEq, Repr

/-- What an action does to the path. -/
inductive PathOp
  | keep
  | unlink
  | bind
  deriving DecidableEq, Repr

/-- `listener.Close`: the first call unlinks the path, a second one does nothing. -/
def Proc.closeListener (p : Proc) : Proc × PathOp :=
  if p.listener.isSome then ({ p with listener := none }, .unlink) else (p, .keep)

/-- One action of a daemon. `answers` says that some daemon listens on the socket at the path, `next` names the socket
that `net.Listen` creates. A dial may also fail while somebody listens: it times out, or the backlog is full. -/
def procStep (path : SocketFile) (answers : Bool) (next : Nat) (p : Proc) (m : Move) : Option (Proc × PathOp) :=
  match p.pc, m with
  | .lstat, .lstat (some e) => some ({ p with pc := .returned (some ("failed to inspect socket path: " ++ e)) }, .keep)
  | .lstat, .lstat none =>
    match path with
    | .missing => some ({ p with pc := .listen }, .keep)
    | .notSocket => some ({ p with pc := .returned (some "socket path exists but is not a socket") }, .keep)
    | .socket _ => some ({ p with pc := .dial }, .keep)
  | .dial, .dial true =>
    if answers then some ({ p with pc := .returned (some "socket is in use") }, .keep) else none
  | .dial, .dial false => some ({ p with pc := .remove }, .keep)
  | .remove, .remove (some e) =>
    some ({ p with pc := .returned (some ("failed to remove stale socket: " ++ e)) }, .keep)
  | .remove, .remove none => if path = .missing then none else some ({ p with pc := .listen }, .unlink)
  | .listen, .listen (some e) => some ({ p with pc := .returned (some ("failed to listen: " ++ e)) }, .keep)
  | .listen, .listen none =>
    if path = .missing then some ({ p with pc := .chmod, listener := some next }, .bind) else none
  | .chmod, .chmod (some e) => some ({ p with pc := .close (some ("failed to chmod socket: " ++ e)) }, .keep)
  | .chmod, .chmod none => if path = .missing then none else some ({ p with pc := .accept, watching := true }, .keep)
  | .accept, .accept (some e) =>
    some ({ p with pc := .close (if p.cancelled then none else some ("failed to accept connection: " ++ e)) }, .keep)
  | .accept, .accept none => if p.listener.isSome then some ({ p with pc := .handleConn }, .keep) else none
  | .handleConn, .handled => some ({ p with pc := .accept }, .keep)
  | .close err, .close => some { p with pc := .cleanup err }.closeListener
  -- the error of the deferred removal is ignored
  | .cleanup err, .cleanup (some _) => some ({ p with pc := .returned err }, .keep)
  | .cleanup err, .cleanup none => if path = .missing then none else some ({ p with pc := .returned err }, .unlink)
  | _, .watch => if p.watching && p.cancelled then some { p with watching := false }.closeListener else none
  | _, .cancel => some ({ p with cancelled := true }, .keep)
  | _, _ => none

/-- The action unlinks the path. -/
def Proc.unlinks (p : Proc) : Move → Bool
  | .remove none | .cleanup none => true
  | .close | .watch => p.listener.isSome
  | _ => false

/-- Where the goroutine has no listener. -/
def Proc.Ok (p : Proc) : Prop :=
  match p.pc with
  | .lstat | .dial | .remove | .listen | .cleanup _ | .returned _ => p.listener = none
  | .chmod | .accept | .handleConn | .close _ => True

/-- What an action can do, seen from the path. -/
inductive ProcActs (path : SocketFile) (next : Nat) (p : Proc) (m : Move) : Proc → PathOp → Prop
  | keep (q : Proc) : p.unlinks m = false → m ≠ .listen none → q.listener = p.listener →
      (p.cancelled = true → q.cancelled = true) → (q.mayRemove = true → p.mayRemove = true ∨ m = .dial false) →
      ProcActs path next p m q .keep
  | unlink (q : Proc) : p.unlinks m = true → q.listener = none → p.listener.isSome = true ∨ p.mayRemove = true →
      ProcActs path next p m q .unlink
  | bind (q : Proc) : m = .listen none → path = .missing → q.listener = some next → q.mayRemove = false →
      ProcActs path next p m q .bind

section Proc

variable {path : SocketFile} {answers : Bool} {next : Nat} {p q : Proc} {m : Move} {op : PathOp}

theorem listener_closeListener (p : Proc) : p.closeListener.1.listener = none := by
  unfold Proc.closeListener
  split
  · rfl
  · rename_i h
    simpa using h

theorem ok_of_listener (h : p.listener = none) : p.Ok := by
  unfold Proc.Ok
  split <;> first | exact h | trivial

/-- Closing the listener unlinks the path if the listener is open. -/
theorem closeListener_acts {p' : Proc} (hl : p'.listener = p.listener) (hm : p.unlinks m = p.listener.isSome)
    (hne : m ≠ .listen none) (hc : p'.cancelled = p.cancelled)
    (hr : p.listener = none → p'.mayRemove = true → p.mayRemove = true) :
    ProcActs path next p m p'.closeListener.1 p'.closeListener.2 := by
  unfold Proc.closeListener
  split
  · rename_i h
    rw [hl] at h
    exact .unlink _ (by rw [hm, h]) rfl (Or.inl h)
  · rename_i h
    rw [hl, Bool.not_eq_true] at h
    exact .keep _ (by rw [hm, h]) hne hl (by rw [hc]; exact id)
      fun hr' => Or.inl (hr (Option.isNone_iff_eq_none.mp (by simpa using h)) hr')

/-- **The actions of a daemon.** -/
theorem procStep_acts (hok : p.Ok) (h : procStep path answers next p m = some (q, op)) :
    ProcActs path next p m q op ∧ q.Ok := by
  have hkeep : ∀ pc, p.unlinks m = false → m ≠ .listen none →
      ({ p with pc := pc }.mayRemove = true → p.mayRemove = true ∨ m = .dial false) → { p with pc := pc }.Ok →
      ProcActs path next p m { p with pc := pc } .keep ∧ { p with pc := pc }.Ok :=
    fun pc hu hne hr hq => ⟨.keep _ hu hne rfl id hr, hq⟩
  unfold Proc.Ok at hok
  unfold procStep at h
  split at h
  · rename_i e hpc
    rw [hpc] at hok
    cases h; exact hkeep _ rfl (by simp) (by simp [Proc.mayRemove]) hok
  · rename_i hpc
    rw [hpc] at hok
    split at h <;> cases h <;> exact hkeep _ rfl (by simp) (by simp [Proc.mayRemove]) hok
  · rename_i hpc
    rw [hpc] at hok
    split at h
    · cases h; exact hkeep _ rfl (by simp) (by simp [Proc.mayRemove]) hok
    · cases h
  · rename_i hpc
    rw [hpc] at hok
    cases h; exact hkeep _ rfl (by simp) (fun _ => Or.inr rfl) hok
  · rename_i e hpc
    rw [hpc] at hok
    cases h; exact hkeep _ rfl (by simp) (by simp [Proc.mayRemove]) hok
  · rename_i hpc
    rw [hpc] at hok
    split at h
    · cases h
    · cases h; exact ⟨.unlink _ rfl hok (Or.inr (by simp [Proc.mayRemove, hpc])), hok⟩
  · rename_i e hpc
    rw [hpc] at hok
    cases h; exact hkeep _ rfl (by simp) (by simp [Proc.mayRemove]) hok
  · rename_i hpc
    split at h
    · rename_i hpath
      cases h; exact ⟨.bind _ rfl hpath rfl rfl, trivial⟩
    · cases h
  · rename_i e hpc
    cases h; exact hkeep _ rfl (by simp) (by simp [Proc.mayRemove, hpc]) trivial
  · rename_i hpc
    split at h
    · cases h
    · cases h; exact ⟨.keep _ rfl (by simp) rfl id (by simp [Proc.mayRemove, hpc]), trivial⟩
  · rename_i e hpc
    cases h; exact hkeep _ rfl (by simp) (by simp [Proc.mayRemove, hpc]) trivial
  · rename_i hpc
    split at h
    · cases h; exact hkeep _ rfl (by simp) (by simp [Proc.mayRemove, hpc]) trivial
    · cases h
  · rename_i hpc
    cases h; exact hkeep _ rfl (by simp) (by simp [Proc.mayRemove, hpc]) trivial
  · rename_i err hpc
    obtain ⟨rfl, rfl⟩ : _ = q ∧ _ = op := Prod.ext_iff.mp (Option.some.inj h)
    exact ⟨closeListener_acts rfl rfl (by simp) rfl fun hl _ => by simp [Proc.mayRemove, hpc, hl],
      ok_of_listener (listener_closeListener _)⟩
  · rename_i err e hpc
    rw [hpc] at hok
    cases h; exact hkeep _ rfl (by simp) (by simp [Proc.mayRemove]) hok
  · rename_i err hpc
    rw [hpc] at hok
    split at h
    · cases h
    · cases h; exact ⟨.unlink _ rfl hok (Or.inr (by simp [Proc.mayRemove, hpc])), hok⟩
  · split at h
    · obtain ⟨rfl, rfl⟩ : _ = q ∧ _ = op := Prod.ext_iff.mp (Option.some.inj h)
      exact ⟨closeListener_acts rfl rfl (by simp) rfl fun _ hr => hr, ok_of_listener (listener_closeListener _)⟩
    · cases h
  · cases h; exact ⟨.keep _ rfl (by simp) rfl (fun _ => rfl) Or.inl, hok⟩
  · cases h

end Proc

/-! ## Any number of daemons -/

/-- The path and the daemons of one runtime directory. -/
structure Machine where
  path : SocketFile
  procs : List Proc
  /-- The next socket that `net.Listen` creates. -/
  nextSock : Nat
  deriving DecidableEq, Repr

inductive Label
  /-- A daemon is started. -/
  | spawn
  | daemon (i : Nat) (m : Move)
  deriving DecidableEq, Repr

namespace Machine

/-- Some daemon listens on the socket at the path. -/
def answers (s : Machine) : Bool := s.procs.any fun p => p.listener.any fun k => s.path = .socket k

def apply (s : Machine) : PathOp → Machine
  | .keep => s
  | .unlink => { s with path := .missing }
  | .bind => { s with path := .socket s.nextSock, nextSock := s.nextSock + 1 }

end Machine

/-- All interleavings of the daemons, from any file at the path. -/
def socketSystem : System Machine Label Unit where
  init s := s.procs = [] ∧ ∀ k, s.path = .socket k → k < s.nextSock
  step s
    | .spawn => some ({ s with procs := s.procs ++ [Proc.initial] }, [])
    | .daemon i m =>
      match s.procs[i]? with
      | none => none
      | some p => (procStep s.path s.answers s.nextSock p m).map fun (q, op) =>
        ({ s.apply op with procs := s.procs.set i q }, [])

/-- Each daemon has no listener where it cannot have one, and no two listeners share a socket. -/
structure SocketsOk (s : Machine) : Prop where
  ok : ∀ {i : Nat} {p : Proc}, s.procs[i]? = some p → p.Ok
  fresh : ∀ {i k : Nat} {p : Proc}, s.procs[i]? = some p → p.listener = some k → k < s.nextSock
  distinct : ∀ {i j k : Nat} {p q : Proc}, s.procs[i]? = some p → s.procs[j]? = some q →
    p.listener = some k → q.listener = some k → i = j

/-- The steps of the machine. -/
inductive MachineActs (s : Machine) : Label → Machine → Prop
  | spawn : MachineActs s .spawn { s with procs := s.procs ++ [Proc.initial] }
  | daemon (i : Nat) (m : Move) (p q : Proc) (op : PathOp) : s.procs[i]? = some p →
      ProcActs s.path s.nextSock p m q op → q.Ok →
      MachineActs s (.daemon i m) { s.apply op with procs := s.procs.set i q }

section Machine

variable {s t : Machine} {l : Label} {out : List Unit}

theorem socketSystem_acts (hs : SocketsOk s) (h : socketSystem.step s l = some (t, out)) : MachineActs s l t := by
  cases l with
  | spawn => cases h; exact .spawn
  | daemon i m =>
    simp only [socketSystem] at h
    split at h
    · cases h
    · rename_i p hp
      obtain ⟨⟨q, op⟩, hq, h⟩ := Option.map_eq_some_iff.mp h
      cases h
      obtain ⟨ha, hok⟩ := procStep_acts (hs.ok hp) hq
      exact .daemon i m p q op hp ha hok

/-- **One step** keeps the sockets distinct. -/
theorem socketsOk_acts (hs : SocketsOk s) (h : MachineActs s l t) : SocketsOk t := by
  cases h with
  | spawn =>
    constructor
    · intro i p hi
      rcases getElem?_concat_cases hi with ⟨-, rfl⟩ | hi
      · rfl
      · exact hs.ok hi
    · intro i k p hi hl
      rcases getElem?_concat_cases hi with ⟨-, rfl⟩ | hi
      · cases hl
      · exact hs.fresh hi hl
    · intro i j k p q hi hj hp hq
      rcases getElem?_concat_cases hi with ⟨-, rfl⟩ | hi
      · cases hp
      rcases getElem?_concat_cases hj with ⟨-, rfl⟩ | hj
      · cases hq
      exact hs.distinct hi hj hp hq
  | daemon i m p q op hp ha hok =>
    have hok' : ∀ {j : Nat} {p' : Proc}, (s.procs.set i q)[j]? = some p' → p'.Ok := fun hj => by
      rcases getElem?_set_cases hj with ⟨-, rfl⟩ | ⟨-, hj⟩
      · exact hok
      · exact hs.ok hj
    -- a listener that is not new was there before
    have hold : ∀ {t : Machine}, t.procs = s.procs.set i q → s.nextSock ≤ t.nextSock →
        (∀ k, q.listener = some k → p.listener = some k) → SocketsOk t := by
      intro t ht hn hl
      have hback : ∀ {j k : Nat} {p' : Proc}, t.procs[j]? = some p' → p'.listener = some k →
          ∃ p₀, s.procs[j]? = some p₀ ∧ p₀.listener = some k := by
        intro j k p' hj hk
        rw [ht] at hj
        rcases getElem?_set_cases hj with ⟨rfl, rfl⟩ | ⟨-, hj⟩
        · exact ⟨p, hp, hl k hk⟩
        · exact ⟨p', hj, hk⟩
      constructor
      · intro j p' hj
        exact hok' (ht ▸ hj)
      · intro j k p' hj hk
        obtain ⟨p₀, hj, hk⟩ := hback hj hk
        exact Nat.lt_of_lt_of_le (hs.fresh hj hk) hn
      · intro a b k p' q' ha hb hka hkb
        obtain ⟨p₀, ha, hka⟩ := hback ha hka
        obtain ⟨q₀, hb, hkb⟩ := hback hb hkb
        exact hs.distinct ha hb hka hkb
    cases ha with
    | keep _ _ hl => exact hold rfl (Nat.le_refl _) fun k hk => by rw [← hl]; exact hk
    | unlink _ hl => exact hold rfl (Nat.le_refl _) fun k hk => by rw [hl] at hk; cases hk
    | bind _ _ hl =>
      constructor
      · exact hok'
      · intro j k p' hj hk
        rcases getElem?_set_cases hj with ⟨-, rfl⟩ | ⟨-, hj⟩
        · rw [hl] at hk
          cases hk; exact Nat.lt_succ_self _
        · exact Nat.lt_succ_of_lt (hs.fresh hj hk)
      · intro a b k p' q' ha hb hka hkb
        rcases getElem?_set_cases ha with ⟨rfl, rfl⟩ | ⟨-, ha'⟩ <;>
          rcases getElem?_set_cases hb with ⟨rfl, rfl⟩ | ⟨-, hb'⟩
        · rfl
        · rw [hl] at hka
          cases hka; exact absurd (hs.fresh hb' hkb) (Nat.lt_irrefl _)
        · rw [hl] at hkb
          cases hkb; exact absurd (hs.fresh ha' hka) (Nat.lt_irrefl _)
        · exact hs.distinct ha' hb' hka hkb

end Machine

theorem socketsOk_of_reachable {s : Machine} (hs : Reachable socketSystem s) : SocketsOk s := by
  refine hs.induction (P := SocketsOk) ?_ fun s l t out _ h hst => socketsOk_acts h (socketSystem_acts h hst)
  rintro s ⟨hp, -⟩
  constructor <;> intros <;> simp_all

end Talk2Text.RuntimeDir
