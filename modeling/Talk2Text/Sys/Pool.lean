import Mathlib.Data.List.Basic

/-!
# Pools of threads

The threads of a system are a list of program points: thread `i` is the `i`-th, a thread that moves is `set`, a new
one is appended at the end. What all threads have is kept with `forall_mem_set`; a counter that is meant to equal the
number of threads at certain points is checked step by step with `countP_set_add`.
-/

namespace Talk2Text.Sys

universe u v

variable {α : Type u}

/-- What all threads have stays when the one that moves has it afterwards. -/
theorem forall_mem_set {P : α → Prop} {l : List α} {i : Nat} {a : α} (h : ∀ x ∈ l, P x) (ha : P a) :
    ∀ x ∈ l.set i a, P x := by
  intro x hx
  rcases List.mem_or_eq_of_mem_set hx with hx | rfl
  · exact h x hx
  · exact ha

/-- When thread `i` moves from `a` to `b`, the number of threads with `p` loses `a` and gains `b`. -/
theorem countP_set_add (p : α → Bool) {l : List α} {i : Nat} {a : α} (b : α) (h : l[i]? = some a) :
    (l.set i b).countP p + (if p a then 1 else 0) = l.countP p + (if p b then 1 else 0) := by
  obtain ⟨hi, rfl⟩ := List.getElem?_eq_some_iff.mp h
  have hle : (if p l[i] then 1 else 0) ≤ l.countP p := by
    split
    · rename_i hp
      exact List.countP_pos_iff.mpr ⟨_, List.getElem_mem hi, hp⟩
    · exact Nat.zero_le _
  rw [List.countP_set hi]
  omega

/-- When thread `i` ends and leaves the pool, the number of threads with `p` loses it. -/
theorem countP_eraseIdx_add (p : α → Bool) : ∀ {l : List α} {i : Nat} {a : α}, l[i]? = some a →
    (l.eraseIdx i).countP p + (if p a then 1 else 0) = l.countP p
  | [], _, _, h => by simp at h
  | x :: l, 0, a, h => by
    simp only [List.getElem?_cons_zero, Option.some.injEq] at h
    subst h
    simp [List.countP_cons]
  | x :: l, i + 1, a, h => by
    simp only [List.getElem?_cons_succ] at h
    have := countP_eraseIdx_add p h
    simp only [List.eraseIdx_cons_succ, List.countP_cons]
    omega

theorem filterMap_cons_toList {β : Type v} (f : α → Option β) (a : α) (l : List α) :
    (a :: l).filterMap f = (f a).toList ++ l.filterMap f := by
  cases h : f a <;> simp [h]

/-- When thread `i` moves from `a` to `b`, what the threads show loses what `a` shows and gains what `b` shows. -/
theorem filterMap_set_perm {β : Type v} (f : α → Option β) (b : α) : ∀ {l : List α} {i : Nat} {a : α},
    l[i]? = some a → ((f a).toList ++ (l.set i b).filterMap f).Perm ((f b).toList ++ l.filterMap f)
  | [], _, _, h => by simp at h
  | x :: l, 0, a, h => by
    simp only [List.getElem?_cons_zero, Option.some.injEq] at h
    subst h
    rw [List.set_cons_zero, filterMap_cons_toList, filterMap_cons_toList]
    exact List.perm_append_comm_assoc _ _ _
  | x :: l, i + 1, a, h => by
    simp only [List.getElem?_cons_succ] at h
    rw [List.set_cons_succ, filterMap_cons_toList, filterMap_cons_toList]
    refine (List.perm_append_comm_assoc _ _ _).trans (List.Perm.trans ?_ (List.perm_append_comm_assoc _ _ _))
    exact (filterMap_set_perm f b h).append_left _

/-- Some thread has `p` iff the count is positive. -/
theorem countP_pos_iff_getElem? {p : α → Bool} {l : List α} :
    0 < l.countP p ↔ ∃ (i : Nat) (a : α), l[i]? = some a ∧ p a = true := by
  rw [List.countP_pos_iff]
  constructor
  · rintro ⟨a, ha, hp⟩
    obtain ⟨i, hi⟩ := List.getElem?_of_mem ha
    exact ⟨i, a, hi, hp⟩
  · rintro ⟨i, a, hi, hp⟩
    exact ⟨a, List.mem_of_getElem? hi, hp⟩

/-- A thread of the moved pool is the moved one or an old one. -/
theorem getElem?_set_cases {l : List α} {i j : Nat} {a b : α} (h : (l.set i b)[j]? = some a) :
    (j = i ∧ a = b) ∨ (j ≠ i ∧ l[j]? = some a) := by
  rw [List.getElem?_set] at h
  split at h
  · rename_i hij
    split at h
    · exact Or.inl ⟨hij.symm, (Option.some.inj h).symm⟩
    · cases h
  · rename_i hij
    exact Or.inr ⟨fun e => hij e.symm, h⟩

/-- A thread of the grown pool is the new one or an old one. -/
theorem getElem?_concat_cases {l : List α} {j : Nat} {a b : α} (h : (l ++ [b])[j]? = some a) :
    (j = l.length ∧ a = b) ∨ l[j]? = some a := by
  rw [List.getElem?_append] at h
  split at h
  · exact Or.inr h
  · rename_i hj
    rw [List.getElem?_singleton] at h
    split at h
    · exact Or.inl ⟨by omega, (Option.some.inj h).symm⟩
    · cases h

end Talk2Text.Sys
