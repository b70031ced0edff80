import Mathlib.Logic.Relation

/-!
# Labelled transition systems and their runs

A system is a set of initial states and a guarded step: `step s l` is `some (t, out)` when the atomic step `l` is
possible in `s`, and `out` is what the step emits. An interleaving of any number of threads is a sequence of labels.

A run keeps its whole history (`Run`), so a property may speak of the state before a step, of the step itself, and of
everything emitted so far. The rules of this file:

- `Reachable.induction`, `Run.induction`: invariants of states, of histories;
- `Run.mem_step`: every step of a history starts and ends in reachable states;
- `Run.forall_post`: a property that a step keeps under a condition holds along a run whose steps meet the condition;
- `Run.forall_post_iff`: a property that a step keeps exactly under a condition holds along a run iff all steps of
  the run meet the condition;
- `Run.forall_outputs`: what the steps of a run keep, and give their outputs;
- `Run.since`, `Run.before`: what a step establishes and every later one keeps, and the run before a step;
- `Run.exists_step`: what did not hold initially was brought about by some step;
- `Reachable.map`: simulation of one system by another.
-/

namespace Talk2Text.Sys

universe u v w u' v' w'

/-- A labelled transition system that emits outputs. -/
structure System (σ : Type u) (ℓ : Type v) (ε : Type w) where
  init : σ → Prop
  step : σ → ℓ → Option (σ × List ε)

/-- One step of a run: the state before, the label, what was emitted, the state after. -/
structure Step (σ : Type u) (ℓ : Type v) (ε : Type w) where
  pre : σ
  label : ℓ
  out : List ε
  post : σ

/-- Everything emitted along a history, in order. -/
def outputs {σ : Type u} {ℓ : Type v} {ε : Type w} (h : List (Step σ ℓ ε)) : List ε := h.flatMap Step.out

section Runs

variable {σ : Type u} {ℓ : Type v} {ε : Type w} (M : System σ ℓ ε)

/-- `Run M h s`: the history `h` leads from an initial state to `s`. -/
inductive Run : List (Step σ ℓ ε) → σ → Prop
  | nil {s : σ} : M.init s → Run [] s
  | snoc {h : List (Step σ ℓ ε)} {s t : σ} {l : ℓ} {out : List ε} :
      Run h s → M.step s l = some (t, out) → Run (h ++ [⟨s, l, out, t⟩]) t

def Reachable (s : σ) : Prop := ∃ h, Run M h s

variable {M}

@[simp] theorem outputs_nil : outputs ([] : List (Step σ ℓ ε)) = [] := rfl

@[simp] theorem outputs_snoc (h : List (Step σ ℓ ε)) (st : Step σ ℓ ε) :
    outputs (h ++ [st]) = outputs h ++ st.out := by
  simp [outputs]

theorem Run.reachable {h : List (Step σ ℓ ε)} {s : σ} (r : Run M h s) : Reachable M s := ⟨h, r⟩

theorem Reachable.init {s : σ} (hi : M.init s) : Reachable M s := ⟨[], .nil hi⟩

theorem Reachable.step {s t : σ} {l : ℓ} {out : List ε} (hs : Reachable M s) (h : M.step s l = some (t, out)) :
    Reachable M t := by
  obtain ⟨hist, r⟩ := hs
  exact ⟨_, r.snoc h⟩

/-- **Invariants.** What holds initially and is kept by every step from a reachable state holds in every reachable
state. -/
theorem Reachable.induction {P : σ → Prop} (hinit : ∀ s, M.init s → P s)
    (hstep : ∀ s l t out, Reachable M s → P s → M.step s l = some (t, out) → P t) {s : σ} (hs : Reachable M s) :
    P s := by
  obtain ⟨h, r⟩ := hs
  induction r with
  | nil hi => exact hinit _ hi
  | snoc r hst ih => exact hstep _ _ _ _ r.reachable ih hst

/-- **Invariants of histories.** -/
theorem Run.induction {P : List (Step σ ℓ ε) → σ → Prop} (hinit : ∀ s, M.init s → P [] s)
    (hstep : ∀ h s l t out, Reachable M s → P h s → M.step s l = some (t, out) → P (h ++ [⟨s, l, out, t⟩]) t)
    {h : List (Step σ ℓ ε)} {s : σ} (r : Run M h s) : P h s := by
  induction r with
  | nil hi => exact hinit _ hi
  | snoc r hst ih => exact hstep _ _ _ _ _ r.reachable ih hst

/-- Every step of a history is a step of the system between reachable states. -/
theorem Run.mem_step {h : List (Step σ ℓ ε)} {s : σ} (r : Run M h s) {st : Step σ ℓ ε} (hm : st ∈ h) :
    Reachable M st.pre ∧ M.step st.pre st.label = some (st.post, st.out) := by
  induction r with
  | nil => cases hm
  | snoc r hst ih =>
    rcases List.mem_append.mp hm with hm | hm
    · exact ih hm
    · rw [List.mem_singleton.mp hm]
      exact ⟨r.reachable, hst⟩

/-- The last state of a run has what the initial states and the ends of all its steps have. -/
theorem Run.last {P : σ → Prop} (hinit : ∀ s, M.init s → P s) {h : List (Step σ ℓ ε)} {s : σ} (r : Run M h s)
    (hp : ∀ st ∈ h, P st.post) : P s := by
  cases r with
  | nil hi => exact hinit _ hi
  | snoc r hst => exact hp _ (List.mem_append_right _ (List.mem_singleton_self _))

/-- **Exact conditions.** If, from a reachable state with `P`, a step leads to a state with `P` exactly when `C` holds
before it, then `P` holds all along a run exactly when all steps of the run meet `C`. -/
theorem Run.forall_post_iff {P : σ → Prop} {C : σ → ℓ → Prop} (hinit : ∀ s, M.init s → P s)
    (hstep : ∀ s l t out, Reachable M s → P s → M.step s l = some (t, out) → (P t ↔ C s l))
    {h : List (Step σ ℓ ε)} {s : σ} (r : Run M h s) :
    (∀ st ∈ h, P st.post) ↔ ∀ st ∈ h, C st.pre st.label := by
  induction r with
  | nil => simp
  | @snoc h s t l out r hst ih =>
    simp only [List.forall_mem_append, List.forall_mem_singleton]
    constructor
    · rintro ⟨hp, ht⟩
      exact ⟨ih.mp hp, (hstep s l t out r.reachable (r.last hinit hp) hst).mp ht⟩
    · rintro ⟨hc, hl⟩
      have hp := ih.mpr hc
      exact ⟨hp, (hstep s l t out r.reachable (r.last hinit hp) hst).mpr hl⟩

/-- **Invariants under a condition.** What the initial states have and every step that meets `C` keeps holds along a
run whose steps all meet `C`. -/
theorem Run.forall_post {P : σ → Prop} {C : σ → ℓ → Prop} (hinit : ∀ s, M.init s → P s)
    (hstep : ∀ s l t out, Reachable M s → P s → C s l → M.step s l = some (t, out) → P t)
    {h : List (Step σ ℓ ε)} {s : σ} (r : Run M h s) (hc : ∀ st ∈ h, C st.pre st.label) : ∀ st ∈ h, P st.post := by
  induction r with
  | nil => simp
  | @snoc h s t l out r hst ih =>
    simp only [List.forall_mem_append, List.forall_mem_singleton] at hc ⊢
    have hp := ih hc.1
    exact ⟨hp, hstep s l t out r.reachable (r.last hinit hp) hc.2 hst⟩

/-- **Invariants and outputs.** What every step of a run keeps, and what it gives each of its outputs. -/
theorem Run.forall_outputs {P : σ → Prop} {Q : ε → Prop} (hinit : ∀ s, M.init s → P s) {h : List (Step σ ℓ ε)}
    {s : σ} (r : Run M h s)
    (hstep : ∀ st ∈ h, M.step st.pre st.label = some (st.post, st.out) → P st.pre → P st.post ∧ ∀ e ∈ st.out, Q e) :
    P s ∧ ∀ e ∈ outputs h, Q e := by
  induction r with
  | nil hi => exact ⟨hinit _ hi, fun e he => absurd he List.not_mem_nil⟩
  | snoc r hst ih =>
    rw [List.forall_mem_append, List.forall_mem_singleton] at hstep
    obtain ⟨hs, houts⟩ := ih hstep.1
    obtain ⟨ht, hout⟩ := hstep.2 hst hs
    refine ⟨ht, ?_⟩
    rw [outputs_snoc]
    exact List.forall_mem_append.mpr ⟨houts, hout⟩

/-- **What holds since a step.** What every step establishes and every later step keeps holds at the end of a run of
each of its steps, together with the history after it. -/
theorem Run.since {Q : Step σ ℓ ε → List (Step σ ℓ ε) → σ → Prop}
    (hstart : ∀ s l t out, Reachable M s → M.step s l = some (t, out) → Q ⟨s, l, out, t⟩ [] t)
    (hstep : ∀ st h s l t out, Reachable M s → Q st h s → M.step s l = some (t, out) →
      Q st (h ++ [⟨s, l, out, t⟩]) t)
    {h : List (Step σ ℓ ε)} {s : σ} (r : Run M h s) :
    ∀ h₁ st h₂, h = h₁ ++ st :: h₂ → Q st h₂ s := by
  induction r with
  | nil => intro h₁ st h₂ he; simp at he
  | @snoc h s t l out r hst ih =>
    intro h₁ st h₂ he
    rcases List.eq_nil_or_concat h₂ with rfl | ⟨h₂', st', rfl⟩
    · obtain ⟨-, he⟩ := List.append_inj' he rfl
      cases he
      exact hstart s l t out r.reachable hst
    · rw [List.concat_eq_append, ← List.cons_append, ← List.append_assoc] at he
      obtain ⟨hh, he⟩ := List.append_inj' he rfl
      cases he
      rw [List.concat_eq_append]
      exact hstep st h₂' s l t out r.reachable (ih h₁ st h₂' hh) hst

/-- The history before a step is a run. -/
theorem Run.before {h₁ h₂ : List (Step σ ℓ ε)} {st : Step σ ℓ ε} {s : σ} (r : Run M (h₁ ++ st :: h₂) s) :
    Run M h₁ st.pre := by
  generalize hh : h₁ ++ st :: h₂ = h at r
  induction r generalizing h₂ with
  | nil => simp at hh
  | @snoc h s t l out r hst ih =>
    rcases List.eq_nil_or_concat h₂ with rfl | ⟨h₂', st', rfl⟩
    · obtain ⟨rfl, he⟩ := List.append_inj' hh rfl
      cases he
      exact r
    · rw [List.concat_eq_append, ← List.cons_append, ← List.append_assoc] at hh
      exact ih (List.append_inj' hh rfl).1

/-- **Every cause is in the history.** If `Q` does not hold initially and comes about only by a step with `E`, then a
run that ends in a state with `Q` has a step with `E`. -/
theorem Run.exists_step {Q : σ → Prop} {E : Step σ ℓ ε → Prop} (hinit : ∀ s, M.init s → ¬Q s)
    (hstep : ∀ s l t out, M.step s l = some (t, out) → Q t → Q s ∨ E ⟨s, l, out, t⟩) {h : List (Step σ ℓ ε)} {s : σ}
    (r : Run M h s) (hq : Q s) : ∃ st ∈ h, E st := by
  induction r with
  | nil hi => exact absurd hq (hinit _ hi)
  | @snoc h s t l out r hst ih =>
    rcases hstep s l t out hst hq with hs | he
    · obtain ⟨st, hm, he⟩ := ih hs
      exact ⟨st, List.mem_append_left _ hm, he⟩
    · exact ⟨_, List.mem_append_right _ (List.mem_singleton_self _), he⟩

end Runs

/-! ## Replaying labels -/

section Exec

variable {σ : Type u} {ℓ : Type v} {ε : Type w} (M : System σ ℓ ε)

/-- Replay labels from a state: the history and the last state, unless some label is not possible. -/
def exec : σ → List ℓ → Option (List (Step σ ℓ ε) × σ)
  | s, [] => some ([], s)
  | s, l :: ls =>
    match M.step s l with
    | none => none
    | some (t, out) => (exec t ls).map fun r => (⟨s, l, out, t⟩ :: r.1, r.2)

variable {M}

theorem Run.append_exec : ∀ {ls : List ℓ} {h h' : List (Step σ ℓ ε)} {s t : σ}, Run M h s →
    exec M s ls = some (h', t) → Run M (h ++ h') t
  | [], h, _, _, _, r, e => by
    simp only [exec, Option.some.injEq, Prod.mk.injEq] at e
    obtain ⟨rfl, rfl⟩ := e
    rwa [List.append_nil]
  | l :: ls, h, _, s, _, r, e => by
    simp only [exec] at e
    cases hst : M.step s l with
    | none => rw [hst] at e; cases e
    | some p =>
      simp only [hst] at e
      obtain ⟨⟨h₂, t'⟩, he, hr⟩ := Option.map_eq_some_iff.mp e
      simp only [Prod.mk.injEq] at hr
      obtain ⟨rfl, rfl⟩ := hr
      have := (r.snoc hst).append_exec he
      rwa [List.append_assoc] at this

/-- A successful replay from an initial state is a run. -/
theorem Run.of_exec {s t : σ} {ls : List ℓ} {h : List (Step σ ℓ ε)} (hi : M.init s)
    (e : exec M s ls = some (h, t)) : Run M h t := by
  simpa using (Run.nil hi).append_exec e

/-- A replay that passes the test `Q` gives a run with `Q`. -/
theorem Run.exists_of_exec {s : σ} (hi : M.init s) (ls : List ℓ) (Q : List (Step σ ℓ ε) → σ → Bool)
    (e : (exec M s ls).any (fun r => Q r.1 r.2) = true) : ∃ h t, Run M h t ∧ Q h t = true := by
  obtain ⟨⟨h, t⟩, he, hq⟩ := (Option.any_eq_true ..).mp e
  exact ⟨h, t, .of_exec hi he, hq⟩

/-- A replay whose last step passes the test `Q`, with the history before it. -/
theorem Run.exists_snoc_of_exec {s : σ} (hi : M.init s) (ls : List ℓ)
    (Q : List (Step σ ℓ ε) → Step σ ℓ ε → Bool)
    (e : (exec M s ls).any (fun r => r.1.getLast?.any (Q r.1.dropLast)) = true) :
    ∃ h st t, Run M (h ++ [st]) t ∧ Q h st = true := by
  obtain ⟨h, t, r, hq⟩ := Run.exists_of_exec hi ls (fun h _ => h.getLast?.any (Q h.dropLast)) e
  obtain ⟨st, hst, hq⟩ := (Option.any_eq_true ..).mp hq
  obtain ⟨h', rfl⟩ := List.getLast?_eq_some_iff.mp hst
  rw [List.dropLast_concat] at hq
  exact ⟨h', st, t, r, hq⟩

end Exec

/-! ## Simulation -/

section Simulation

variable {σ : Type u} {ℓ : Type v} {ε : Type w} {τ : Type u'} {κ : Type v'} {δ : Type w'}

/-- Zero or more steps. -/
def Steps (N : System τ κ δ) : τ → τ → Prop :=
  Relation.ReflTransGen fun a b => ∃ l out, N.step a l = some (b, out)

theorem Steps.refl {N : System τ κ δ} (a : τ) : Steps N a a := Relation.ReflTransGen.refl

theorem Steps.single {N : System τ κ δ} {a b : τ} {l : κ} {out : List δ} (h : N.step a l = some (b, out)) :
    Steps N a b := Relation.ReflTransGen.single ⟨l, out, h⟩

theorem Steps.trans {N : System τ κ δ} {a b c : τ} (h : Steps N a b) (h' : Steps N b c) : Steps N a c :=
  Relation.ReflTransGen.trans h h'

theorem Steps.reachable {N : System τ κ δ} {a b : τ} (h : Steps N a b) (ha : Reachable N a) : Reachable N b := by
  induction h with
  | refl => exact ha
  | tail _ hst ih =>
    obtain ⟨l, out, hst⟩ := hst
    exact ih.step hst

/-- **Simulation.** If `f` sends initial states to reachable ones and a step of `M` to zero or more steps of `N`, then
it sends reachable states to reachable states. -/
theorem Reachable.map {M : System σ ℓ ε} {N : System τ κ δ} (f : σ → τ) (hinit : ∀ s, M.init s → Reachable N (f s))
    (hstep : ∀ s l t out, M.step s l = some (t, out) → Steps N (f s) (f t)) {s : σ} (hs : Reachable M s) :
    Reachable N (f s) :=
  hs.induction hinit fun s l t out _ ih h => (hstep s l t out h).reachable ih

end Simulation

end Talk2Text.Sys
