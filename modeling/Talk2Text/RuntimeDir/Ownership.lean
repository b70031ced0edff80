import Talk2Text.RuntimeDir.Socket

/-!
# Who owns the daemon socket

A live daemon owns the path when the path refers to its own socket (`PathOwned`). Every removal of the path goes by
name, so it removes whatever socket is there at that moment.

- `live_daemon_owns_socket_iff`: live daemons own the path all along a run exactly when no step of the run unlinks the
  path while another daemon is live. So they do when an open listener answers a dial, and nobody listens while another
  daemon has its own removal of the path still to come (`Orderly`).
- `socket_lost`: a daemon that shuts down removes the socket of the next one, and two daemons that start together both
  become live.
-/

namespace Talk2Text.RuntimeDir

open Sys

/-- The path refers to the socket of every live daemon, and there is at most one. -/
structure PathOwned (s : Machine) : Prop where
  owned : ∀ {i k : Nat} {p : Proc}, s.procs[i]? = some p → p.live = true → p.listener = some k → s.path = .socket k
  unique : ∀ {i j : Nat} {p q : Proc}, s.procs[i]? = some p → s.procs[j]? = some q → p.live = true → q.live = true →
    i = j

/-- A step that unlinks the path is taken while no other daemon is live. -/
def UnlinksAlone (s : Machine) : Label → Prop
  | .spawn => True
  | .daemon i m => ∀ p, s.procs[i]? = some p → p.unlinks m = true →
      ∀ j q, j ≠ i → s.procs[j]? = some q → q.live = false

/-- A dial fails only when no other listener is open, and a daemon listens only when no other one has its removal of
the path still to come. -/
def Orderly (s : Machine) : Label → Prop
  | .daemon i (.dial false) => ∀ j q, j ≠ i → s.procs[j]? = some q → q.listener = none
  | .daemon i (.listen none) => ∀ j q, j ≠ i → s.procs[j]? = some q → q.mayRemove = false
  | _ => True

section Live

variable {p : Proc}

theorem listener_of_live (h : p.live = true) : ∃ k, p.listener = some k := by
  unfold Proc.live at h
  rw [Bool.and_eq_true] at h
  exact Option.isSome_iff_exists.mp h.1

/-- An action that keeps the listener and does not undo a cancellation makes no daemon live. -/
theorem live_of_live {q : Proc} (hl : q.listener = p.listener) (hc : p.cancelled = true → q.cancelled = true)
    (h : q.live = true) : p.live = true := by
  unfold Proc.live at h ⊢
  rw [hl] at h
  cases hp : p.cancelled with
  | false => simpa [hp] using And.left (by simpa using h)
  | true => simp [hc hp] at h

end Live

/-! ## The exact condition -/

section Owned

variable {s t : Machine} {l : Label}

/-- Two live daemons that own the path are one. -/
theorem PathOwned.of_owned (hs : SocketsOk s)
    (h : ∀ {i k : Nat} {p : Proc}, s.procs[i]? = some p → p.live = true → p.listener = some k → s.path = .socket k) :
    PathOwned s where
  owned := h
  unique := by
    intro i j p q hi hj hp hq
    obtain ⟨k, hk⟩ := listener_of_live hp
    obtain ⟨k', hk'⟩ := listener_of_live hq
    have := (h hi hp hk).symm.trans (h hj hq hk')
    cases this
    exact hs.distinct hi hj hk hk'

/-- Without a socket at the path, no daemon is live. -/
theorem PathOwned.not_live (h : PathOwned s) (hm : s.path = .missing) {i : Nat} {p : Proc}
    (hi : s.procs[i]? = some p) : p.live = false := by
  rw [← Bool.not_eq_true]
  intro hp
  obtain ⟨k, hk⟩ := listener_of_live hp
  have := h.owned hi hp hk
  rw [hm] at this
  cases this

/-- **One step** keeps the ownership exactly when it does not unlink the path of another live daemon. -/
theorem pathOwned_acts (hs : SocketsOk s) (h : PathOwned s) (ha : MachineActs s l t) :
    PathOwned t ↔ UnlinksAlone s l := by
  have ht := socketsOk_acts hs ha
  cases ha with
  | spawn =>
    refine ⟨fun _ => trivial, fun _ => .of_owned ht fun hi hp hk => ?_⟩
    rcases getElem?_concat_cases hi with ⟨-, rfl⟩ | hi
    · cases hk
    · exact h.owned hi hp hk
  | daemon i m p q op hi ha =>
    have halone : p.unlinks m = false → UnlinksAlone s (.daemon i m) := by
      intro hu p' hp' hu'
      rw [hi] at hp'
      cases hp'
      rw [hu] at hu'; cases hu'
    cases ha with
    | keep hu _ hl hc =>
      refine ⟨fun _ => halone hu, fun _ => .of_owned ht fun hj hp hk => ?_⟩
      rcases getElem?_set_cases hj with ⟨rfl, rfl⟩ | ⟨-, hj⟩
      · exact h.owned hi (live_of_live hl hc hp) (hl ▸ hk)
      · exact h.owned hj hp hk
    | unlink hu hl =>
      constructor
      · -- another live daemon would own the missing path
        intro ht p' _ _ j q' hne hj
        exact ht.not_live rfl (by rw [← hj]; exact List.getElem?_set_ne hne.symm)
      · intro hal
        refine .of_owned ht fun hj hp hk => ?_
        rcases getElem?_set_cases hj with ⟨-, rfl⟩ | ⟨hne, hj⟩
        · rw [hl] at hk; cases hk
        · rw [hal p hi hu _ _ hne hj] at hp; cases hp
    | bind hm hpath hl =>
      refine ⟨fun _ => halone (by rw [hm]; rfl), fun _ => .of_owned ht fun hj hp hk => ?_⟩
      rcases getElem?_set_cases hj with ⟨-, rfl⟩ | ⟨-, hj⟩
      · rw [hl] at hk
        cases hk; rfl
      · rw [h.not_live hpath hj] at hp; cases hp

end Owned

/-! ## Orderly runs -/

/-- At most one listener is open, its socket is at the path, and no other daemon has its removal still to come. -/
structure Single (s : Machine) : Prop where
  path : ∀ {i k : Nat} {p : Proc}, s.procs[i]? = some p → p.listener = some k → s.path = .socket k
  quiet : ∀ {i j : Nat} {p q : Proc}, i ≠ j → s.procs[i]? = some p → s.procs[j]? = some q →
    p.listener.isSome = true → q.mayRemove = false

section Single

variable {s t : Machine} {l : Label}

theorem Single.pathOwned (hs : SocketsOk s) (h : Single s) : PathOwned s :=
  .of_owned hs fun hi _ hk => h.path hi hk

/-- **One step** of an orderly run. -/
theorem single_acts (hs : SocketsOk s) (h : Single s) (ho : Orderly s l) (ha : MachineActs s l t) : Single t := by
  cases ha with
  | spawn =>
    constructor
    · intro i k p hi hk
      rcases getElem?_concat_cases hi with ⟨-, rfl⟩ | hi
      · cases hk
      · exact h.path hi hk
    · intro i j p q hne hi hj hl
      rcases getElem?_concat_cases hi with ⟨-, rfl⟩ | hi
      · cases hl
      rcases getElem?_concat_cases hj with ⟨-, rfl⟩ | hj
      · rfl
      · exact h.quiet hne hi hj hl
  | daemon i m p q op hi ha =>
    cases ha with
    | keep hu hml hl hc hr =>
      constructor
      · intro j k p' hj hk
        rcases getElem?_set_cases hj with ⟨rfl, rfl⟩ | ⟨-, hj⟩
        · exact h.path hi (hl ▸ hk)
        · exact h.path hj hk
      · intro a b p' q' hne ha hb hopen
        rcases getElem?_set_cases hb with ⟨rfl, rfl⟩ | ⟨-, hb'⟩
        · -- the daemon that moves: either its removal was still to come, or its dial has failed
          rcases getElem?_set_cases ha with ⟨rfl, -⟩ | ⟨-, ha⟩
          · exact absurd rfl hne
          rw [← Bool.not_eq_true]
          intro hrem
          rcases hr hrem with hrem | rfl
          · rw [h.quiet hne ha hi hopen] at hrem; cases hrem
          · rw [ho a p' hne ha] at hopen; cases hopen
        · rcases getElem?_set_cases ha with ⟨rfl, rfl⟩ | ⟨-, ha'⟩
          · exact h.quiet hne hi hb' (hl ▸ hopen)
          · exact h.quiet hne ha' hb' hopen
    | unlink hu hl hown =>
      have hclosed : ∀ {j k : Nat} {p' : Proc}, j ≠ i → s.procs[j]? = some p' → p'.listener ≠ some k := by
        intro j k p' hne hj hk
        rcases hown with hopen | hrem
        · obtain ⟨k', hk'⟩ := Option.isSome_iff_exists.mp hopen
          have := (h.path hj hk).symm.trans (h.path hi hk')
          cases this
          exact hne (hs.distinct hj hi hk hk')
        · rw [h.quiet hne hj hi (by rw [hk]; rfl)] at hrem; cases hrem
      constructor
      · intro j k p' hj hk
        rcases getElem?_set_cases hj with ⟨-, rfl⟩ | ⟨hne, hj⟩
        · rw [hl] at hk; cases hk
        · exact absurd hk (hclosed hne hj)
      · intro a b p' q' _ ha _ hopen
        rcases getElem?_set_cases ha with ⟨-, rfl⟩ | ⟨hne, ha⟩
        · rw [hl] at hopen; cases hopen
        · obtain ⟨k, hk⟩ := Option.isSome_iff_exists.mp hopen
          exact absurd hk (hclosed hne ha)
    | bind hm hpath hl hr =>
      subst hm
      have hclosed : ∀ {j k : Nat} {p' : Proc}, s.procs[j]? = some p' → p'.listener ≠ some k := by
        intro j k p' hj hk
        have := h.path hj hk
        rw [hpath] at this; cases this
      constructor
      · intro j k p' hj hk
        rcases getElem?_set_cases hj with ⟨-, rfl⟩ | ⟨-, hj⟩
        · rw [hl] at hk
          cases hk; rfl
        · exact absurd hk (hclosed hj)
      · intro a b p' q' hne ha hb hopen
        rcases getElem?_set_cases hb with ⟨rfl, rfl⟩ | ⟨hb', hb⟩
        · exact hr
        · exact ho b q' hb' hb

end Single

/-! ## The results -/

/-- **When live daemons own the socket path.** Along a run, the path refers to the socket of every live daemon, and at
most one daemon is live, exactly when each step that unlinks the path (the removal of a stale socket, the close of a
listener, the deferred removal) is taken while no other daemon is live. So it is in an orderly run. -/
theorem live_daemon_owns_socket_iff {h : List (Step Machine Label Unit)} {s : Machine} (r : Run socketSystem h s) :
    ((∀ st ∈ h, PathOwned st.post) ↔ ∀ st ∈ h, UnlinksAlone st.pre st.label) ∧
    ((∀ st ∈ h, Orderly st.pre st.label) → ∀ st ∈ h, PathOwned st.post) := by
  constructor
  · refine r.forall_post_iff (P := PathOwned) (C := UnlinksAlone) ?_ fun s l t out hr hp hst => ?_
    · rintro s ⟨hp, -⟩
      constructor <;> intros <;> simp_all
    · have hok := socketsOk_of_reachable hr
      exact pathOwned_acts hok hp (socketSystem_acts hok hst)
  · intro ho st hm
    have hsingle := r.forall_post (P := Single) (C := Orderly) ?_ (fun s l t out hr hp hc hst => ?_) ho st hm
    · obtain ⟨hr, hst⟩ := r.mem_step hm
      exact hsingle.pathOwned (socketsOk_of_reachable (hr.step hst))
    · rintro s ⟨hp, -⟩
      constructor <;> intros <;> simp_all
    · have hok := socketsOk_of_reachable hr
      exact single_acts hok hp hc (socketSystem_acts hok hst)

/-- A daemon alone, from a stale socket to the end of `Serve`. -/
theorem live_daemon_owns_socket_alone : ∃ h s, Run socketSystem h s ∧ h.length = 10 ∧
    ∀ st ∈ h, PathOwned st.post := by
  obtain ⟨h, s, r, hq⟩ := Run.exists_of_exec (M := socketSystem) (s := ⟨.socket 0, [], 1⟩) ⟨rfl, by simp⟩
    [.spawn, .daemon 0 (.lstat none), .daemon 0 (.dial false), .daemon 0 (.remove none), .daemon 0 (.listen none),
      .daemon 0 (.chmod none), .daemon 0 .cancel, .daemon 0 .watch, .daemon 0 (.accept (some "closed")),
      .daemon 0 .close]
    (fun h _ => h.length = 10 ∧ ∀ st ∈ h, st.pre.procs.length ≤ 1) (by decide)
  obtain ⟨hlen, hone⟩ := of_decide_eq_true hq
  refine ⟨h, s, r, hlen, (live_daemon_owns_socket_iff r).1.mpr fun st hst => ?_⟩
  cases hl : st.label with
  | spawn => trivial
  | daemon i m =>
    intro p hp _ j q hne hj
    have hi := (List.getElem?_eq_some_iff.mp hp).1
    have hj := (List.getElem?_eq_some_iff.mp hj).1
    have := hone st hst
    omega

/-- **The socket of a live daemon is removed.** A daemon that shuts down removes the path after the next one listens
on it; and of two daemons that find a stale socket, the slower one removes the socket of the faster one, and both are
live. -/
theorem socket_lost :
    (∃ s, Reachable socketSystem s ∧ s.path = .missing ∧ ∃ p, s.procs[1]? = some p ∧ p.live = true) ∧
    ∃ s, Reachable socketSystem s ∧
      ∃ p q, s.procs[0]? = some p ∧ s.procs[1]? = some q ∧ p.live = true ∧ q.live = true := by
  constructor
  · obtain ⟨_, s, r, hq⟩ := Run.exists_of_exec (M := socketSystem) (s := ⟨.missing, [], 0⟩) ⟨rfl, by simp⟩
      [.spawn, .daemon 0 (.lstat none), .daemon 0 (.listen none), .daemon 0 (.chmod none), .daemon 0 .cancel,
        .daemon 0 .watch, .spawn, .daemon 1 (.lstat none), .daemon 1 (.listen none), .daemon 1 (.chmod none),
        .daemon 0 (.accept (some "closed")), .daemon 0 .close, .daemon 0 (.cleanup none)]
      (fun _ s => s.path = .missing ∧ s.procs[1]?.any Proc.live) (by decide)
    obtain ⟨hp, hl⟩ := of_decide_eq_true hq
    exact ⟨s, r.reachable, hp, (Option.any_eq_true ..).mp hl⟩
  · obtain ⟨_, s, r, hq⟩ := Run.exists_of_exec (M := socketSystem) (s := ⟨.socket 0, [], 1⟩) ⟨rfl, by simp⟩
      [.spawn, .spawn, .daemon 0 (.lstat none), .daemon 1 (.lstat none), .daemon 0 (.dial false),
        .daemon 1 (.dial false), .daemon 0 (.remove none), .daemon 0 (.listen none), .daemon 0 (.chmod none),
        .daemon 1 (.remove none), .daemon 1 (.listen none), .daemon 1 (.chmod none)]
      (fun _ s => s.procs[0]?.any Proc.live ∧ s.procs[1]?.any Proc.live) (by decide)
    obtain ⟨h0, h1⟩ := of_decide_eq_true hq
    obtain ⟨p, hp, hpl⟩ := (Option.any_eq_true ..).mp h0
    obtain ⟨q, hq', hql⟩ := (Option.any_eq_true ..).mp h1
    exact ⟨s, r.reachable, p, q, hp, hq', hpl, hql⟩

end Talk2Text.RuntimeDir
