import Mathlib.Data.List.Basic
import Mathlib.Data.List.Nodup

/-!
# Go maps

A map is a list of pairs with distinct keys; `assign m k v` is `m[k] = v`, and `assigned` makes a list of assignments
from the empty map: later ones replace earlier ones with the same key.

- `nodup_assigned`: the keys are distinct;
- `assigned_of_nodup`: assignments to distinct keys stay as they are;
- `map_assigned`: values may be mapped before or after;
- `lookup_assign`, `lookup_assignAll`: what is found under a key.
-/

namespace Talk2Text.Assoc

variable {α β γ : Type} [DecidableEq α]

/-- `m[k] = v`. -/
def assign : List (α × β) → α → β → List (α × β)
  | [], k, v => [(k, v)]
  | p :: m, k, v => if p.1 = k then (k, v) :: m else p :: assign m k v

/-- The assignments `ps`, in order, to the map `m`. -/
def assignAll (m ps : List (α × β)) : List (α × β) := ps.foldl (fun m p => assign m p.1 p.2) m

def assigned (ps : List (α × β)) : List (α × β) := assignAll [] ps

variable {m ps : List (α × β)} {k : α} {v : β} {p : α × β}

theorem mem_assign (h : p ∈ assign m k v) : p = (k, v) ∨ p ∈ m := by
  induction m with
  | nil => exact Or.inl (List.mem_singleton.mp h)
  | cons q m ih =>
    rw [assign] at h
    split at h
    · exact (List.mem_cons.mp h).imp id (List.mem_cons_of_mem _)
    · rcases List.mem_cons.mp h with rfl | h
      · exact Or.inr List.mem_cons_self
      · exact (ih h).imp id (List.mem_cons_of_mem _)

/-- A new key goes to the end. -/
theorem assign_of_notMem (h : k ∉ m.map Prod.fst) : assign m k v = m ++ [(k, v)] := by
  induction m with
  | nil => rfl
  | cons q m ih =>
    rw [List.map_cons, List.mem_cons, not_or] at h
    rw [assign, if_neg (Ne.symm h.1), ih h.2]
    rfl

theorem keys_assign (m : List (α × β)) (k : α) (v : β) :
    (assign m k v).map Prod.fst = if k ∈ m.map Prod.fst then m.map Prod.fst else m.map Prod.fst ++ [k] := by
  induction m with
  | nil => rfl
  | cons q m ih =>
    rw [assign]
    by_cases hq : q.1 = k
    · rw [if_pos hq, List.map_cons, List.map_cons, hq, if_pos List.mem_cons_self]
    · rw [if_neg hq, List.map_cons, List.map_cons, ih]
      by_cases hk : k ∈ m.map Prod.fst
      · rw [if_pos hk, if_pos (List.mem_cons_of_mem _ hk)]
      · have hne : k ∉ q.1 :: m.map Prod.fst := List.not_mem_cons_of_ne_of_not_mem (Ne.symm hq) hk
        rw [if_neg hk, if_neg hne]
        rfl

theorem nodup_assign (h : (m.map Prod.fst).Nodup) : ((assign m k v).map Prod.fst).Nodup := by
  rw [keys_assign]
  split
  · exact h
  · exact List.nodup_append.mpr ⟨h, List.nodup_singleton k, by
      intro a ha b hb
      rw [List.mem_singleton.mp hb]
      exact fun he => absurd (he ▸ ha) (by assumption)⟩

theorem nodup_assignAll (h : (m.map Prod.fst).Nodup) : ((assignAll m ps).map Prod.fst).Nodup := by
  induction ps generalizing m with
  | nil => exact h
  | cons p ps ih => exact ih (nodup_assign h)

/-- **Keys are distinct.** -/
theorem nodup_assigned (ps : List (α × β)) : ((assigned ps).map Prod.fst).Nodup := nodup_assignAll List.nodup_nil

theorem mem_assignAll (h : p ∈ assignAll m ps) : p ∈ m ∨ p ∈ ps := by
  induction ps generalizing m with
  | nil => exact Or.inl h
  | cons q ps ih =>
    rcases ih h with hm | hm
    · rcases mem_assign hm with rfl | hm
      · exact Or.inr List.mem_cons_self
      · exact Or.inl hm
    · exact Or.inr (List.mem_cons_of_mem _ hm)

theorem mem_of_mem_assigned (h : p ∈ assigned ps) : p ∈ ps := (mem_assignAll h).resolve_left List.not_mem_nil

/-- **Assignments to distinct keys.** -/
theorem assignAll_of_nodup (h : ((m ++ ps).map Prod.fst).Nodup) : assignAll m ps = m ++ ps := by
  induction ps generalizing m with
  | nil => exact (List.append_nil m).symm
  | cons p ps ih =>
    have hp : p.1 ∉ m.map Prod.fst := by
      rw [List.map_append, List.nodup_append] at h
      intro hm
      exact h.2.2 _ hm p.1 (by simp) rfl
    rw [List.append_cons] at h ⊢
    rw [← ih h, assignAll, List.foldl_cons, assign_of_notMem hp]
    rfl

theorem assigned_of_nodup (h : (ps.map Prod.fst).Nodup) : assigned ps = ps := assignAll_of_nodup h

theorem map_assign (g : β → γ) (m : List (α × β)) (k : α) (v : β) :
    (assign m k v).map (fun p => (p.1, g p.2)) = assign (m.map fun p => (p.1, g p.2)) k (g v) := by
  induction m with
  | nil => rfl
  | cons q m ih =>
    rw [assign, List.map_cons, assign]
    by_cases hq : q.1 = k
    · rw [if_pos hq, if_pos hq]
      rfl
    · rw [if_neg hq, if_neg hq, List.map_cons, ih]

theorem map_assignAll (g : β → γ) (m ps : List (α × β)) :
    (assignAll m ps).map (fun p => (p.1, g p.2)) =
      assignAll (m.map fun p => (p.1, g p.2)) (ps.map fun p => (p.1, g p.2)) := by
  induction ps generalizing m with
  | nil => rfl
  | cons p ps ih =>
    rw [List.map_cons, assignAll, List.foldl_cons, assignAll, List.foldl_cons, ← map_assign]
    exact ih _

/-- **Values may be mapped** before or after. -/
theorem map_assigned (g : β → γ) (ps : List (α × β)) :
    (assigned ps).map (fun p => (p.1, g p.2)) = assigned (ps.map fun p => (p.1, g p.2)) := map_assignAll g [] ps

/-! ## Lookup -/

section Lookup

variable [BEq α] [LawfulBEq α]

theorem lookup_cons_ite (m : List (α × β)) (k k' : α) (v : β) :
    ((k, v) :: m).lookup k' = if k' = k then some v else m.lookup k' := by
  by_cases h : k' = k
  · rw [h, List.lookup_cons_self, if_pos rfl]
  · rw [List.lookup_cons, beq_false_of_ne h, if_neg h]

omit [DecidableEq α] in
theorem mem_of_lookup (h : m.lookup k = some v) : (k, v) ∈ m := by
  obtain ⟨l₁, l₂, rfl, -⟩ := List.lookup_eq_some_iff.mp h
  exact List.mem_append_right _ List.mem_cons_self

theorem lookup_of_mem (hn : (m.map Prod.fst).Nodup) (h : (k, v) ∈ m) : m.lookup k = some v := by
  induction m with
  | nil => exact absurd h List.not_mem_nil
  | cons q m ih =>
    rw [List.map_cons, List.nodup_cons] at hn
    obtain ⟨k', v'⟩ := q
    rw [lookup_cons_ite]
    rcases List.mem_cons.mp h with heq | h
    · cases heq
      exact if_pos rfl
    · have hkey : k ∈ m.map Prod.fst := List.mem_map.mpr ⟨(k, v), h, rfl⟩
      have hne : k ≠ k' := fun he => hn.1 (he ▸ hkey)
      rw [if_neg hne, ih hn.2 h]

/-- The order makes no difference. -/
theorem lookup_perm {m' : List (α × β)} (hn : (m.map Prod.fst).Nodup) (hp : m'.Perm m) : m'.lookup k = m.lookup k := by
  have hn' : (m'.map Prod.fst).Nodup := (hp.map Prod.fst).nodup_iff.mpr hn
  refine Option.ext fun v => ⟨fun h => ?_, fun h => ?_⟩
  · exact lookup_of_mem hn (hp.mem_iff.mp (mem_of_lookup h))
  · exact lookup_of_mem hn' (hp.mem_iff.mpr (mem_of_lookup h))

/-- An assignment changes one key. -/
theorem lookup_assign (m : List (α × β)) (k k' : α) (v : β) :
    (assign m k v).lookup k' = if k' = k then some v else m.lookup k' := by
  induction m with
  | nil => exact lookup_cons_ite [] k k' v
  | cons q m ih =>
    obtain ⟨k'', v'⟩ := q
    rw [assign]
    by_cases hq : k'' = k
    · rw [if_pos hq, lookup_cons_ite, lookup_cons_ite, hq]
      by_cases hk : k' = k
      · rw [if_pos hk, if_pos hk]
      · rw [if_neg hk, if_neg hk, if_neg hk]
    · rw [if_neg hq, lookup_cons_ite, lookup_cons_ite, ih]
      by_cases hk : k' = k''
      · rw [if_pos hk, if_pos hk, if_neg (hk ▸ hq)]
      · rw [if_neg hk, if_neg hk]

/-- **Assignments** that give a key no other value than `v`. -/
theorem lookup_assignAll (h : ∀ p ∈ ps, p.1 = k → p.2 = v) :
    (assignAll m ps).lookup k = if k ∈ ps.map Prod.fst then some v else m.lookup k := by
  induction ps generalizing m with
  | nil => exact (if_neg List.not_mem_nil).symm
  | cons p ps ih =>
    obtain ⟨hp, hps⟩ := List.forall_mem_cons.mp h
    have hfold : assignAll m (p :: ps) = assignAll (assign m p.1 p.2) ps := rfl
    rw [hfold, ih hps, lookup_assign, List.map_cons]
    by_cases hk : k = p.1
    · rw [if_pos hk, hp hk.symm, ite_self, if_pos (hk ▸ List.mem_cons_self)]
    · rw [if_neg hk]
      by_cases hmem : k ∈ ps.map Prod.fst
      · rw [if_pos hmem, if_pos (List.mem_cons_of_mem _ hmem)]
      · rw [if_neg hmem, if_neg (List.not_mem_cons_of_ne_of_not_mem hk hmem)]

end Lookup

end Talk2Text.Assoc
