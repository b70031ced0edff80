import Mathlib.Data.List.Infix
import Mathlib.Data.Nat.Digits.Defs

/-!
# Delimiters and little-endian numbers

- `breakOn_append`: the text before a delimiter is cut off again, if the delimiter is not in it and its first symbol
  does not come again in it;
- `readLe_le`: a number that fits is read back.
-/

namespace Talk2Text.Format

/-! ## Delimiters -/

section Delimiter

universe u

variable {α : Type u}

/-- What is before the first occurrence of a delimiter, and what is after it. -/
def breakOn [BEq α] (d : List α) : List α → Option (List α × List α)
  | [] => if d = [] then some ([], []) else none
  | x :: xs =>
    if d.isPrefixOf (x :: xs) then some ([], (x :: xs).drop d.length)
    else (breakOn d xs).map fun (l, r) => (x :: l, r)

variable {c : α} {d x rest : List α}

/-- No occurrence starts inside the text and ends in the delimiter. -/
theorem not_prefix_append (hc : c ∉ d) {y : α} (hx : ¬(c :: d) <:+: y :: x) :
    ¬(c :: d) <+: (y :: x) ++ ((c :: d) ++ rest) := by
  intro h
  rcases List.prefix_or_prefix_of_prefix h (List.prefix_append _ _) with hp | ⟨w, hw⟩
  · exact hx hp.isInfix
  · cases w with
    | nil =>
      rw [List.append_nil] at hw
      exact hx (hw ▸ List.infix_refl _)
    | cons z w =>
      rw [← hw, List.prefix_append_right_inj, hw, List.cons_append, List.cons_prefix_cons] at h
      obtain ⟨rfl, -⟩ := h
      rw [List.cons_append, List.cons.injEq] at hw
      exact hc (hw.2 ▸ List.mem_append_right x List.mem_cons_self)

/-- **Cutting at a delimiter.** -/
theorem breakOn_append [BEq α] [LawfulBEq α] (hc : c ∉ d) (hx : ¬(c :: d) <:+: x) :
    breakOn (c :: d) (x ++ ((c :: d) ++ rest)) = some (x, rest) := by
  induction x with
  | nil => simp [breakOn]
  | cons y x ih =>
    have hno : ¬(c :: d) <+: (y :: x) ++ ((c :: d) ++ rest) := not_prefix_append hc hx
    have hx' : ¬(c :: d) <:+: x := fun h => hx (h.trans (List.suffix_cons y x).isInfix)
    rw [List.cons_append] at hno ⊢
    rw [breakOn, if_neg (by simpa using hno), ih hx']
    rfl

end Delimiter

/-! ## Little-endian numbers -/

/-- The lowest `k` bytes of a number. -/
def le : Nat → Nat → List UInt8
  | 0, _ => []
  | k + 1, n => UInt8.ofNat n :: le k (n / 256)

def readLe (bs : List UInt8) : Nat := Nat.ofDigits 256 (bs.map UInt8.toNat)

@[simp] theorem length_le (k n : Nat) : (le k n).length = k := by
  induction k generalizing n with
  | zero => rfl
  | succ k ih => rw [le, List.length_cons, ih]

theorem readLe_le_mod (k n : Nat) : readLe (le k n) = n % 256 ^ k := by
  induction k generalizing n with
  | zero => rw [Nat.pow_zero, Nat.mod_one]; rfl
  | succ k ih =>
    have hcons : readLe (le (k + 1) n) = n % 256 + 256 * readLe (le k (n / 256)) := by
      simp [readLe, le, Nat.ofDigits_cons]
    rw [hcons, ih, Nat.pow_succ, Nat.mul_comm (256 ^ k), Nat.mod_mul]

/-- **A number that fits is read back.** -/
theorem readLe_le {k n : Nat} (h : n < 256 ^ k) : readLe (le k n) = n := by
  rw [readLe_le_mod, Nat.mod_eq_of_lt h]

end Talk2Text.Format
