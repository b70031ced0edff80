import Mathlib.Data.List.Basic
import Mathlib.Data.List.Nodup
import Mathlib.Data.List.Range
import Mathlib.Logic.Function.Basic

/-!
# Numbering

`rank l` numbers the members of a list `1, 2, …` in the order of the list, and keeps zero. It is injective on all
numbers: numbers outside the list go above all ranks.
-/

namespace Talk2Text.Sys

def rank (l : List Nat) (x : Nat) : Nat :=
  if x ∈ l then l.idxOf x + 1 else if x = 0 then 0 else x + l.length

variable {l l₁ l₂ : List Nat} {x y : Nat}

theorem rank_zero (h : 0 ∉ l) : rank l 0 = 0 := by
  rw [rank, if_neg h, if_pos rfl]

theorem rank_mem (h : x ∈ l) : rank l x = l.idxOf x + 1 := if_pos h

theorem rank_injective (l : List Nat) : Function.Injective (rank l) := by
  -- a member is never numbered like another number
  have hmem : ∀ {x y}, x ∈ l → y ∉ l → rank l x ≠ rank l y := by
    intro x y hx hy he
    have hlt := List.idxOf_lt_length_of_mem hx
    rw [rank_mem hx, rank, if_neg hy] at he
    split at he <;> omega
  intro x y he
  by_cases hx : x ∈ l
  · by_cases hy : y ∈ l
    · rw [rank_mem hx, rank_mem hy] at he
      exact (List.idxOf_inj hx).mp (Nat.succ.inj he)
    · exact absurd he (hmem hx hy)
  · by_cases hy : y ∈ l
    · exact absurd he.symm (hmem hy hx)
    · rw [rank, rank, if_neg hx, if_neg hy] at he
      split at he <;> split at he <;> omega

/-- The rank of a member is its position. -/
theorem rank_append_cons (h : x ∉ l₁) : rank (l₁ ++ x :: l₂) x = l₁.length + 1 := by
  rw [rank_mem (by simp), List.idxOf_append_of_notMem h, List.idxOf_cons_self, Nat.add_zero]

theorem map_rank (h : l.Nodup) : l.map (rank l) = List.range' 1 l.length := by
  apply List.ext_getElem
  · simp
  · intro i hi _
    have hlt : i < l.length := by simpa using hi
    rw [List.getElem_map, rank_mem (List.getElem_mem hlt), List.Nodup.idxOf_getElem h, List.getElem_range']
    omega

end Talk2Text.Sys
