import Talk2Text.Daemon.IpcInv

/-!
# Requests take effect in order

`served_in_order`: over whole runs of `ipcSystem`, an acknowledged start or stop changes the capture state before the
next request is acknowledged, before any later request reads or changes the capture state, and before `shutdown` does;
after `shutdown` no session becomes active and the stream stays desired off.

The mutex orders what is acknowledged (`applied_of_acknowledged`); that nothing is acknowledged late, after a later
request has come or after `shutdown`, is due to the server, which waits for the answer to a request before it accepts
the next connection, and to `Run`, which waits for the server (`no_late_acknowledgement`, `no_acknowledgement`).
-/

namespace Talk2Text.Daemon

open Sys

abbrev IpcStep := Step Ipc IpcLabel DaemonEvent

/-- Call `i` closes `errChan`. -/
def Acknowledges (i : Nat) (st : IpcStep) : Prop :=
  (∃ early, st.label = .call i early) ∧ ∃ c, st.post.calls[i]? = some c ∧ c.pc = .acknowledged

/-- The transition of call `i`. -/
def Applies (i : Nat) (st : IpcStep) : Prop :=
  (∃ early, st.label = .call i early) ∧ ∃ c, st.pre.calls[i]? = some c ∧ c.pc = .acknowledged

/-- Call `i` takes the mutex. -/
def TakesMutex (i : Nat) (st : IpcStep) : Prop :=
  (∃ early, st.label = .call i early) ∧ (∃ c, st.pre.calls[i]? = some c ∧ c.pc = .spawned) ∧
    st.post.mutex = some (.call i)

/-- The section of `shutdown`. -/
def Shuts (st : IpcStep) : Prop := st.label = .main ∧ st.pre.main = .locked

section Order

variable {host : DaemonHost} {s t : Ipc} {l : IpcLabel} {out : List DaemonEvent} {i : Nat} {c : Call}
  {h h₁ h₂ : List IpcStep} {st : IpcStep}

/-! ## What one step leaves -/

/-- A call is moved by its own steps only. -/
theorem calls_keep (hst : ipcStep host s l = some (t, out)) (hl : ∀ early, l ≠ .call i early)
    (hi : s.calls[i]? = some c) : t.calls[i]? = some c := by
  cases ipcStep_acts hst with
  | serve | httpReturn | lockShutdown | shutdown | unlockShutdown | daemon => exact hi
  | spawn done r command _ _ =>
    rw [List.getElem?_append_left (List.getElem?_eq_some_iff.mp hi).1]
    exact hi
  | call j early x x' d mutex _ _ =>
    have hj : j ≠ i := fun hj => hl early (hj ▸ rfl)
    simpa [hj] using hi

/-- A call that is over stays over. -/
theorem returned_keep (hst : ipcStep host s l = some (t, out)) (hi : s.calls[i]? = some c) (hc : c.pc = .returned) :
    t.calls[i]? = some c ∧ ∀ early, l ≠ .call i early := by
  have hl : ∀ early, l ≠ .call i early := by
    rintro early rfl
    cases ipcStep_acts hst with
    | serve l server es hl => cases hl
    | call i early x x' d mutex hx hst =>
      rw [hi] at hx
      cases hx
      simp [callStep, hc] at hst
  exact ⟨calls_keep hst hl hi, hl⟩

/-- `Run` goes on: from `serving` to the section of `shutdown`, and beyond. -/
theorem main_keep (hst : ipcStep host s l = some (t, out)) :
    (s.main ≠ .serving → t.main ≠ .serving) ∧
      (s.main = .leaving ∨ s.main = .waiting ∨ l = .main ∧ s.main = .locked →
        t.main = .leaving ∨ t.main = .waiting) := by
  cases ipcStep_acts hst with
  | serve l server es hl =>
    refine ⟨id, ?_⟩
    rintro (hm | hm | ⟨rfl, -⟩)
    · exact Or.inl hm
    · exact Or.inr hm
    · cases hl
  | spawn | httpReturn | call | daemon => simp
  | lockShutdown hm => simp [hm]
  | shutdown | unlockShutdown => simp

/-! ## Runs -/

/-- A call that acknowledges was in its section. -/
theorem locked_of_acknowledges (hst : ipcStep host s l = some (t, out)) (ha : Acknowledges i ⟨s, l, out, t⟩) :
    ∃ c, s.calls[i]? = some c ∧ c.pc = .locked := by
  obtain ⟨⟨early, rfl⟩, x, hx, hpc⟩ := ha
  dsimp only at hx
  cases ipcStep_acts hst with
  | serve l server es hl => cases hl
  | call i early c c' d mutex hi hc =>
    obtain ⟨hlt, -⟩ := List.getElem?_eq_some_iff.mp hi
    rw [List.getElem?_set_self hlt, Option.some.injEq] at hx
    subst hx
    refine ⟨c, hi, ?_⟩
    cases callStep_acts hc with
    | acknowledge h => exact h
    | fail | lock | read | start | stop | leave => cases hpc

/-- **The mutex orders the acknowledged calls**: one that is acknowledged is still before its transition, in its
section, or the transition is in the history. -/
theorem applied_of_acknowledged (r : Run (ipcSystem host) h s) :
    ∀ i, (∃ st ∈ h, Acknowledges i st) →
      (∃ c, s.calls[i]? = some c ∧ c.pc = .acknowledged) ∨ ∃ st ∈ h, Applies i st := by
  refine Run.induction (P := fun h s => ∀ i, (∃ st ∈ h, Acknowledges i st) →
      (∃ c, s.calls[i]? = some c ∧ c.pc = .acknowledged) ∨ ∃ st ∈ h, Applies i st) ?_ ?_ r
  · rintro s - i ⟨st, hm, -⟩
    cases hm
  · rintro h s l t out - ih hst i ⟨st, hm, ha⟩
    rcases List.mem_append.mp hm with hm | hm
    · rcases ih i ⟨st, hm, ha⟩ with ⟨c, hc, hpc⟩ | ⟨st', hm', happ⟩
      · by_cases hl : ∃ early, l = .call i early
        · exact Or.inr ⟨_, List.mem_append_right _ (List.mem_singleton_self _), hl, c, hc, hpc⟩
        · exact Or.inl ⟨c, calls_keep hst (fun early he => hl ⟨early, he⟩) hc, hpc⟩
      · exact Or.inr ⟨st', List.mem_append_left _ hm', happ⟩
    · rw [List.mem_singleton.mp hm] at ha
      exact Or.inl ha.2

/-- A call that is over acknowledges nothing later. -/
theorem no_late_acknowledgement (r : Run (ipcSystem host) (h₁ ++ st :: h₂) s) (hi : st.pre.calls[i]? = some c)
    (hc : c.pc = .returned) : ∀ st' ∈ st :: h₂, ¬Acknowledges i st' := by
  refine (Run.since (Q := fun st h₂ s => ∀ i c, st.pre.calls[i]? = some c → c.pc = .returned →
    s.calls[i]? = some c ∧ ∀ st' ∈ st :: h₂, ¬Acknowledges i st') ?_ ?_ r h₁ st h₂ rfl i c hi hc).2
  · intro s l t out _ hst i c hi hc
    obtain ⟨hi', hl⟩ := returned_keep hst hi hc
    refine ⟨hi', fun st' hm ha => ?_⟩
    rw [List.mem_singleton.mp hm] at ha
    obtain ⟨early, he⟩ := ha.1
    exact hl early he
  · intro st h s l t out _ ih hst i c hi hc
    obtain ⟨hs, hno⟩ := ih i c hi hc
    obtain ⟨hi', hl⟩ := returned_keep hst hs hc
    refine ⟨hi', fun st' hm ha => ?_⟩
    rw [← List.cons_append, List.mem_append, List.mem_singleton] at hm
    rcases hm with hm | rfl
    · exact hno st' hm ha
    · obtain ⟨early, he⟩ := ha.1
      exact hl early he

/-- Nothing is acknowledged once `serve` has returned. -/
theorem no_acknowledgement (r : Run (ipcSystem host) (h₁ ++ st :: h₂) s) (hm : st.pre.main ≠ .serving) :
    ∀ st' ∈ st :: h₂, ¬Acknowledges i st' := by
  have hone : ∀ {s l t out}, Reachable (ipcSystem host) s → ipcStep host s l = some (t, out) →
      s.main ≠ .serving → ¬Acknowledges i ⟨s, l, out, t⟩ := by
    intro s l t out hr hst hm ha
    obtain ⟨c, hc, hpc⟩ := locked_of_acknowledges hst ha
    exact hm ((ok_of_reachable hr).serving hc (by simp [hpc]))
  refine (Run.since (Q := fun st h₂ s => st.pre.main ≠ .serving →
    s.main ≠ .serving ∧ ∀ st' ∈ st :: h₂, ¬Acknowledges i st') ?_ ?_ r h₁ st h₂ rfl hm).2
  · intro s l t out hr hst hm
    refine ⟨(main_keep hst).1 hm, fun st' hst' => ?_⟩
    rw [List.mem_singleton.mp hst']
    exact hone hr hst hm
  · intro st h s l t out hr ih hst hm
    obtain ⟨hs, hno⟩ := ih hm
    refine ⟨(main_keep hst).1 hs, fun st' hst' => ?_⟩
    rw [← List.cons_append, List.mem_append, List.mem_singleton] at hst'
    rcases hst' with hst' | rfl
    · exact hno st' hst'
    · exact hone hr hst hs

/-- After the section of `shutdown`, `Run` is past it. -/
theorem past_of_shuts (r : Run (ipcSystem host) (h₁ ++ st :: h₂) s) (hs : Shuts st) :
    s.main = .leaving ∨ s.main = .waiting := by
  refine Run.since (Q := fun st _ s => Shuts st → s.main = .leaving ∨ s.main = .waiting) ?_ ?_ r h₁ st h₂ rfl hs
  · intro s l t out _ hst hs
    exact (main_keep hst).2 (Or.inr (Or.inr hs))
  · intro st h s l t out _ ih hst hs
    exact (main_keep hst).2 ((ih hs).imp id Or.inl)

/-- A call that takes the mutex finds every earlier call over. -/
theorem over_of_enters (hr : Reachable (ipcSystem host) s) {j : Nat} (hst : ipcStep host s l = some (t, out))
    (he : TakesMutex j ⟨s, l, out, t⟩) (hij : i < j) : ∃ c, s.calls[i]? = some c ∧ c.pc = .returned := by
  have hok := ok_of_reachable hr
  obtain ⟨⟨early, rfl⟩, ⟨x, hx, hpc⟩, hm⟩ := he
  dsimp only at hx hm
  have hx' := (hok.sound j x hx).2
  simp only [hpc] at hx'
  have hwait := hok.waits j x hx hx'
  have hlt : i < s.calls.length := Nat.lt_trans hij (List.getElem?_eq_some_iff.mp hx).1
  refine ⟨s.calls[i], List.getElem?_eq_getElem hlt, hok.over ?_ (List.getElem?_eq_getElem hlt) fun hn => ?_⟩
  · cases ipcStep_acts hst with
    | serve l server es hl => cases hl
    | call j early c c' d mutex hc hst =>
      rw [hx] at hc
      cases hc
      cases callStep_acts hst with
      | lock _ hfree => exact hfree
      | fail =>
        -- a start without session identifier takes no mutex
        have := (hok.call_iff j).mpr hm
        obtain ⟨y, hy, hin⟩ := this
        rw [hx] at hy
        cases hy
        rw [hpc] at hin
        cases hin
      | read a h | acknowledge h | start env h | stop o h | leave a h =>
        rw [hpc] at h
        cases h
  · -- the server would wait for two calls
    have := hok.waits i _ (List.getElem?_eq_getElem hlt) hn
    rw [hwait] at this
    cases this
    exact absurd hij (Nat.lt_irrefl _)

/-- **Requests take effect in order.** A call that takes the mutex finds the transitions of all earlier acknowledged
calls done, and so does a call that is acknowledged, and `shutdown`; the transition is the step of the request in
`daemonSystem`. From the section of `shutdown` on, no session is active and the stream is desired off. -/
theorem served_in_order (r : Run (ipcSystem host) h s) :
    (∀ h₁ st h₂ j, h = h₁ ++ st :: h₂ → TakesMutex j st → ∀ i < j, (∃ st' ∈ h, Acknowledges i st') →
      ∃ st' ∈ h₁, Applies i st') ∧
    (∀ h₁ st h₂ j, h = h₁ ++ st :: h₂ → Acknowledges j st → ∀ i, i ≠ j → (∃ st' ∈ h₁, Acknowledges i st') →
      ∃ st' ∈ h₁, Applies i st') ∧
    (∀ h₁ st h₂, h = h₁ ++ st :: h₂ → Shuts st → ∀ i, (∃ st' ∈ h, Acknowledges i st') →
      ∃ st' ∈ h₁, Applies i st') ∧
    (∀ st ∈ h, ∀ i, Applies i st → ∃ early c, st.pre.calls[i]? = some c ∧
      daemonStep host st.pre.daemon (.request c.request false early) = some (st.post.daemon, [.answer none none])) ∧
    (∀ h₁ st h₂, h = h₁ ++ st :: h₂ → Shuts st →
      s.daemon.capture.active = none ∧ s.daemon.capture.ctl.desiredStreamState = .off) := by
  -- what is acknowledged in the whole run is acknowledged before the step
  have hearly : ∀ {h₁ st h₂ i}, h = h₁ ++ st :: h₂ → (∀ st' ∈ st :: h₂, ¬Acknowledges i st') →
      (∃ st' ∈ h, Acknowledges i st') → ∃ st' ∈ h₁, Acknowledges i st' := by
    rintro h₁ st h₂ i rfl hno ⟨st', hm, ha⟩
    rcases List.mem_append.mp hm with hm | hm
    · exact ⟨st', hm, ha⟩
    · exact absurd ha (hno st' hm)
  refine ⟨?_, ?_, ?_, ?_, ?_⟩
  · intro h₁ st h₂ j he hen i hij ha
    subst he
    obtain ⟨hr, hst⟩ := r.mem_step (List.mem_append_right _ List.mem_cons_self)
    obtain ⟨c, hc, hpc⟩ := over_of_enters hr hst hen hij
    have ha := hearly rfl (no_late_acknowledgement r hc hpc) ha
    refine (applied_of_acknowledged r.before i ha).resolve_left ?_
    rintro ⟨x, hx, hack⟩
    rw [hc] at hx
    cases hx
    rw [hpc] at hack
    cases hack
  · intro h₁ st h₂ j he haj i hij ha
    subst he
    obtain ⟨hr, hst⟩ := r.mem_step (List.mem_append_right _ List.mem_cons_self)
    have hok := ok_of_reachable hr
    refine (applied_of_acknowledged r.before i ha).resolve_left ?_
    rintro ⟨x, hx, hack⟩
    obtain ⟨c, hc, hpc⟩ := locked_of_acknowledges hst haj
    -- two calls in their sections would both hold the mutex
    have hmi := hok.mutex_of_inside hx (by rw [hack]; rfl)
    have hmj := hok.mutex_of_inside hc (by rw [hpc]; rfl)
    rw [hmi] at hmj
    cases hmj
    exact hij rfl
  · intro h₁ st h₂ he hs i ha
    subst he
    obtain ⟨hr, -⟩ := r.mem_step (List.mem_append_right _ List.mem_cons_self)
    have hmain : st.pre.main ≠ .serving := by simp [hs.2]
    have ha := hearly rfl (no_acknowledgement r hmain) ha
    refine (applied_of_acknowledged r.before i ha).resolve_left ?_
    rintro ⟨x, hx, hack⟩
    rw [((ok_of_reachable hr).served hmain).2 i x hx] at hack
    cases hack
  · rintro ⟨s, l, out, t⟩ hm i ⟨⟨early, rfl⟩, c, hc, hpc⟩
    obtain ⟨hr, hst⟩ := r.mem_step hm
    dsimp only at hc ⊢
    replace hst : ipcStep host s (.call i early) = some (t, out) := hst
    cases ipcStep_acts hst with
    | serve l server es hl => cases hl
    | call i early x c' d mutex hx hcall =>
      rw [hc] at hx
      cases hx
      exact ⟨early, c, hc, request_of_acknowledged (ok_of_reachable hr) hc hpc hcall⟩
  · intro h₁ st h₂ he hs
    subst he
    exact (ok_of_reachable r.reachable).stopped (past_of_shuts r hs)

end Order

/-- A daemon without delays that hears silence. -/
def quietHost : DaemonHost := ⟨{}, fun _ => false, Amrwb.silence, fun _ => .ok []⟩

/-- A start whose answer is read, and the next request accepted, before its transition; then the stop that follows,
and the end of the daemon. -/
def startStop : List IpcLabel :=
  [.accept (some ⟨"start", some [(RequestEnv.xdgSessionIDName, "3")]⟩), .request false, .call 0 false, .call 0 false,
    .answer, .respond, .accept (some ⟨"stop", some [(RequestEnv.xdgSessionIDName, "3")]⟩), .request false,
    .call 0 false, .call 0 false, .call 1 false, .call 1 false, .call 1 false, .call 1 false, .answer, .respond,
    .daemon (.capture .cancel), .close, .main, .main]

/-- The stop finds the recording of the start. -/
theorem served_in_order_startStop : ∃ h s, Run (ipcSystem quietHost) h s ∧
    (∃ h₁ st h₂, h = h₁ ++ st :: h₂ ∧ TakesMutex 1 st ∧ ∃ st' ∈ h₁, Applies 0 st') ∧
    s.daemon.capture.active = none := by
  obtain ⟨h, s, r, hq⟩ := Run.exists_of_exec (M := ipcSystem quietHost) ⟨false, rfl⟩ startStop
    (fun h _ =>
      h[10]?.any (fun (st : IpcStep) => decide (st.label = .call 1 false) &&
        st.pre.calls[1]?.any (fun (c : Call) => decide (c.pc = .spawned)) &&
        decide (st.post.mutex = some (.call 1))) &&
      h.any (fun (st : IpcStep) => decide (st.label = .call 0 false) &&
        st.post.calls[0]?.any (fun (c : Call) => decide (c.pc = .acknowledged))) &&
      h[19]?.any (fun (st : IpcStep) => decide (st.label = .main ∧ st.pre.main = .locked)))
    (by decide +kernel)
  simp only [Bool.and_eq_true, Option.any_eq_true, List.any_eq_true, decide_eq_true_eq] at hq
  obtain ⟨⟨⟨st, hst, ⟨hl, c, hc, hpc⟩, hm⟩, st', hst', hl', c', hc', hpc'⟩, sd, hsd, hshut⟩ := hq
  have hsplit : ∀ {k : Nat} {x : IpcStep}, h[k]? = some x → h = h.take k ++ x :: h.drop (k + 1) := by
    intro k x hx
    obtain ⟨hlt, rfl⟩ := List.getElem?_eq_some_iff.mp hx
    rw [List.getElem_cons_drop, List.take_append_drop]
  have hen : TakesMutex 1 st := ⟨⟨false, hl⟩, ⟨c, hc, hpc⟩, hm⟩
  obtain ⟨horder, -, -, -, hend⟩ := served_in_order r
  exact ⟨h, s, r, ⟨_, st, _, hsplit hst, hen,
    horder _ _ _ 1 (hsplit hst) hen 0 Nat.one_pos ⟨st', hst', ⟨false, hl'⟩, c', hc', hpc'⟩⟩,
    (hend _ _ _ (hsplit hsd) hshut).1⟩

end Talk2Text.Daemon
