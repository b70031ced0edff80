import Mathlib.Data.List.Count

/-!
# Resources that are acquired, used and released

A log of operations on resources of which at most one may be held at a time. `Follows log held`: every operation of the
log was allowed where it stands, and `held` is what is held at the end. Nothing is acquired twice or while something
else is held, and only what is held is used or released.

The balance of acquisitions and releases (`Follows.balance`) gives the rest: what is held is what was acquired and not
released (`Follows.held_iff`), no release happens twice (`Follows.count_release_le`), each acquired resource has been
released exactly once when nothing is held (`Follows.count_release`), and nothing touches a released resource
(`Follows.not_used_after`).
-/

namespace Talk2Text.Sys

universe u

/-- An operation on a resource. -/
inductive Use (ι : Type u)
  | acquire (id : ι)
  | use (id : ι)
  | release (id : ι)
  deriving DecidableEq

namespace Use

variable {ι : Type u}

/-- The resource. -/
def id : Use ι → ι
  | .acquire i | .use i | .release i => i

/-- What is held after the operation. -/
def after : Use ι → Option ι
  | .acquire i | .use i => some i
  | .release _ => none

/-- The operation is allowed after `log`, when `held` is held. -/
def Allowed (log : List (Use ι)) (held : Option ι) : Use ι → Prop
  | .acquire i => held = none ∧ .acquire i ∉ log
  | .use i | .release i => held = some i

end Use

/-- All operations of the log were allowed, and `held` is held. -/
inductive Follows {ι : Type u} : List (Use ι) → Option ι → Prop
  | nil : Follows [] none
  | snoc {log : List (Use ι)} {held : Option ι} {o : Use ι} : Follows log held → o.Allowed log held →
      Follows (log ++ [o]) o.after

namespace Follows

variable {ι : Type u} {log log₁ log₂ : List (Use ι)} {held : Option ι} {o : Use ι} {i j : ι}

/-- Every operation was allowed after the log before it. -/
theorem before (h : Follows (log₁ ++ o :: log₂) held) : ∃ held₁, Follows log₁ held₁ ∧ o.Allowed log₁ held₁ := by
  generalize hl : log₁ ++ o :: log₂ = log at h
  induction h generalizing log₂ with
  | nil => simp at hl
  | @snoc log held o' h ho ih =>
    rcases List.eq_nil_or_concat log₂ with rfl | ⟨log₂', o₂, rfl⟩
    · obtain ⟨rfl, he⟩ := List.append_inj' hl rfl
      cases he
      exact ⟨held, h, ho⟩
    · rw [List.concat_eq_append, ← List.cons_append, ← List.append_assoc] at hl
      exact ih (List.append_inj' hl rfl).1

variable [DecidableEq ι]

/-- **Balance.** What is held has been acquired once more often than released, anything else equally often. -/
theorem balance (h : Follows log held) (i : ι) :
    log.count (.acquire i) = log.count (.release i) + if held = some i then 1 else 0 := by
  induction h with
  | nil => rfl
  | @snoc log held o h ho ih =>
    rw [List.count_append, List.count_append, ih]
    cases o with
    | acquire j =>
      rw [ho.1]
      by_cases hj : j = i <;> simp [Use.after, hj]
    | use j =>
      rw [show held = some j from ho]
      simp [Use.after]
    | release j =>
      rw [show held = some j from ho]
      by_cases hj : j = i <;> simp [Use.after, hj]

/-- Nothing is acquired twice. -/
theorem count_acquire_le (h : Follows log held) (i : ι) : log.count (.acquire i) ≤ 1 := by
  induction h with
  | nil => exact Nat.zero_le 1
  | @snoc log held o h ho ih =>
    rw [List.count_append]
    by_cases hi : o = .acquire i
    · subst hi
      have hnone : log.count (.acquire i) = 0 := List.count_eq_zero.mpr ho.2
      simp [hnone]
    · rw [List.count_singleton, if_neg (by simpa using hi)]
      exact ih

/-- Nothing is released twice. -/
theorem count_release_le (h : Follows log held) (i : ι) : log.count (.release i) ≤ 1 := by
  have := h.balance i
  have := h.count_acquire_le i
  omega

/-- **What is held** is what was acquired and not released. -/
theorem held_iff (h : Follows log held) : held = some i ↔ .acquire i ∈ log ∧ .release i ∉ log := by
  have hb := h.balance i
  have hle := h.count_acquire_le i
  rw [← List.count_pos_iff, ← List.count_eq_zero]
  split at hb
  · rename_i hi
    exact ⟨fun _ => ⟨by omega, by omega⟩, fun _ => hi⟩
  · rename_i hi
    exact ⟨fun h' => absurd h' hi, fun ⟨h₁, h₂⟩ => absurd h₁ (by omega)⟩

/-- Only what was acquired is released. -/
theorem acquired_of_released (h : Follows log held) (hr : .release i ∈ log) : .acquire i ∈ log := by
  have := h.balance i
  rw [← List.count_pos_iff] at hr ⊢
  omega

/-- **When nothing is held**, everything acquired has been released exactly once. -/
theorem count_release (h : Follows log none) (ha : .acquire i ∈ log) : log.count (.release i) = 1 := by
  have hb := h.balance i
  have hle := h.count_acquire_le i
  rw [if_neg (by simp), Nat.add_zero] at hb
  have hpos := List.count_pos_iff.mpr ha
  omega

/-- A released resource is not touched by what is allowed next. -/
theorem id_ne_of_released (h : Follows log held) (hr : .release i ∈ log) (ho : o.Allowed log held) : o.id ≠ i := by
  rintro rfl
  have hheld : held ≠ some o.id := fun he => (h.held_iff.mp he).2 hr
  cases o with
  | acquire j => exact ho.2 (h.acquired_of_released hr)
  | use j => exact hheld ho
  | release j => exact hheld ho

/-- **Nothing is used after its release.** -/
theorem not_used_after (h : Follows (log₁ ++ .release i :: log₂) held) : ∀ o ∈ log₂, o.id ≠ i := by
  intro o hm
  obtain ⟨l, l', rfl⟩ := List.append_of_mem hm
  rw [← List.cons_append, ← List.append_assoc] at h
  obtain ⟨held₁, h₁, ho⟩ := h.before
  exact h₁.id_ne_of_released (List.mem_append_right _ List.mem_cons_self) ho

end Follows

end Talk2Text.Sys
