import Mathlib.Algebra.Ring.Nat
import Mathlib.Data.List.Perm.Subperm
import Mathlib.Data.List.Range
import Mathlib.Data.List.Nodup

/-!
# Numbers as bits, and bits in another order

A number of `w` bits, the most significant one first, and bits that are scattered over a buffer by a table of
positions.

- `ofBits_toBits`, `toBits_ofBits`: a number below `2 ^ w` and its `w` bits;
- `getElem?_scatter`: what is in the buffer after scattering.
-/

namespace Talk2Text.Format

/-! ## Numbers -/

/-- The number with these bits. -/
def ofBits (bs : List Bool) : Nat := bs.foldl (fun v b => 2 * v + b.toNat) 0

/-- The `w` lowest bits of a number. -/
def toBits : Nat → Nat → List Bool
  | 0, _ => []
  | w + 1, v => toBits w (v / 2) ++ [decide (v % 2 = 1)]

@[simp] theorem ofBits_nil : ofBits [] = 0 := rfl

@[simp] theorem ofBits_snoc (bs : List Bool) (b : Bool) : ofBits (bs ++ [b]) = 2 * ofBits bs + b.toNat := by
  simp [ofBits]

@[simp] theorem length_toBits (w v : Nat) : (toBits w v).length = w := by
  induction w generalizing v with
  | zero => rfl
  | succ w ih => simp [toBits, ih]

theorem ofBits_lt (bs : List Bool) : ofBits bs < 2 ^ bs.length := by
  induction bs using List.reverseRecOn with
  | nil => simp
  | append_singleton bs b ih =>
    rw [ofBits_snoc, List.length_append, List.length_singleton, Nat.pow_succ]
    have := b.toNat_lt
    omega

/-- **A number is given by its bits.** -/
theorem ofBits_toBits {w v : Nat} (h : v < 2 ^ w) : ofBits (toBits w v) = v := by
  induction w generalizing v with
  | zero => simp only [Nat.pow_zero] at h; simp only [toBits, ofBits_nil]; omega
  | succ w ih =>
    rw [Nat.pow_succ] at h
    rw [toBits, ofBits_snoc, ih (by omega)]
    rcases Nat.mod_two_eq_zero_or_one v with hm | hm <;> simp [hm] <;> omega

/-- **Bits are given by their number.** -/
theorem toBits_ofBits (bs : List Bool) : toBits bs.length (ofBits bs) = bs := by
  induction bs using List.reverseRecOn with
  | nil => rfl
  | append_singleton bs b ih =>
    have hdiv : (2 * ofBits bs + b.toNat) / 2 = ofBits bs := by have := b.toNat_lt; omega
    have hmod : (2 * ofBits bs + b.toNat) % 2 = b.toNat := by have := b.toNat_lt; omega
    rw [ofBits_snoc, List.length_append, List.length_singleton, toBits, hdiv, hmod, ih]
    cases b <;> rfl

/-- The bits of two numbers in one. -/
theorem toBits_add {w w' a b : Nat} (h : b < 2 ^ w') : toBits (w + w') (a * 2 ^ w' + b) = toBits w a ++ toBits w' b := by
  induction w' generalizing b with
  | zero =>
    have hb : b = 0 := by simpa using h
    simp [hb, toBits]
  | succ w' ih =>
    rw [Nat.pow_succ] at h
    have hdiv : (a * 2 ^ (w' + 1) + b) / 2 = a * 2 ^ w' + b / 2 := by rw [Nat.pow_succ, ← Nat.mul_assoc]; omega
    have hmod : (a * 2 ^ (w' + 1) + b) % 2 = b % 2 := by rw [Nat.pow_succ, ← Nat.mul_assoc]; omega
    rw [← Nat.add_assoc, toBits, toBits, hdiv, hmod, ih (by omega), List.append_assoc]

/-- The bits of a number, by their places. -/
theorem toBits_eq (w v : Nat) : toBits w v = (List.range w).map fun j => v.testBit (w - 1 - j) := by
  induction w generalizing v with
  | zero => rfl
  | succ w ih =>
    rw [toBits, ih, List.range_succ, List.map_append, List.map_singleton, Nat.add_sub_cancel, Nat.sub_self]
    congr 1
    · refine List.map_congr_left fun j hj => ?_
      rw [List.mem_range] at hj
      have hplace : w - j = w - 1 - j + 1 := by omega
      rw [hplace, Nat.testBit_succ]
    · simp

/-- The bits of `ofBits`, by their places. -/
theorem testBit_ofBits {bs : List Bool} {j : Nat} (hj : j < bs.length) :
    (ofBits bs).testBit (bs.length - 1 - j) = bs.getD j false := by
  have hbits := toBits_ofBits bs
  rw [toBits_eq] at hbits
  have hget := congrArg (fun l => l.getD j false) hbits
  simpa [List.getD_eq_getElem?_getD, List.getElem?_range hj] using hget

/-! ## Tables of positions -/

/-- The positions of a table, as bits. -/
def mask (table : List Nat) : Nat := table.foldl (fun m k => m ||| 1 <<< k) 0

theorem testBit_mask (table : List Nat) (j : Nat) : (mask table).testBit j = decide (j ∈ table) := by
  have h : ∀ m, (table.foldl (fun m k => m ||| 1 <<< k) m).testBit j = (m.testBit j || decide (j ∈ table)) := by
    induction table with
    | nil => simp
    | cons k table ih =>
      intro m
      rw [List.foldl_cons, ih, Nat.testBit_or, Nat.one_shiftLeft, Nat.testBit_two_pow, Bool.or_assoc]
      congr 1
      by_cases hk : k = j
      · simp [hk]
      · simp [hk, Ne.symm hk]
  rw [mask, h, Nat.zero_testBit, Bool.false_or]

/-- A table that names each position once. -/
theorem perm_range {table : List Nat} (h : mask table = 2 ^ table.length - 1) :
    table.Perm (List.range table.length) := by
  have hsub : List.range table.length ⊆ table := by
    intro j hj
    have hbit := testBit_mask table j
    rw [h, Nat.testBit_two_pow_sub_one, decide_eq_true (List.mem_range.mp hj)] at hbit
    exact of_decide_eq_true hbit.symm
  exact ((List.Nodup.subperm List.nodup_range hsub).perm_of_length_le (by rw [List.length_range])).symm

/-! ## Scattered bits -/

/-- Set the positions of the table whose bit is set. -/
def scatter : List Bool → List Nat → List Bool → List Bool
  | buf, [], _ | buf, _, [] => buf
  | buf, k :: table, b :: bs => scatter (if b then buf.set k true else buf) table bs

@[simp] theorem length_scatter (buf : List Bool) (table : List Nat) (bs : List Bool) :
    (scatter buf table bs).length = buf.length := by
  induction table generalizing buf bs with
  | nil => cases bs <;> rfl
  | cons k table ih =>
    cases bs with
    | nil => rfl
    | cons b bs => cases b <;> simp [scatter, ih]

/-- A position that is not in the table keeps its bit. -/
theorem getElem?_scatter_of_not_mem {buf : List Bool} {table : List Nat} {bs : List Bool} {j : Nat}
    (h : j ∉ table) : (scatter buf table bs)[j]? = buf[j]? := by
  induction table generalizing buf bs with
  | nil => cases bs <;> rfl
  | cons k table ih =>
    obtain ⟨hk, ht⟩ := not_or.mp (fun hm => h (List.mem_cons.mpr hm))
    cases bs with
    | nil => rfl
    | cons b bs =>
      rw [scatter, ih ht]
      cases b with
      | false => rfl
      | true => exact List.getElem?_set_ne fun e => hk e.symm

/-- **A position of the table** has its bit, if it was clear. -/
theorem getElem?_scatter {buf : List Bool} {table : List Nat} {bs : List Bool} (hn : table.Nodup)
    (hlen : table.length = bs.length) (hclear : ∀ k ∈ table, buf[k]? = some false) {i k : Nat}
    (hi : table[i]? = some k) : (scatter buf table bs)[k]? = bs[i]? := by
  induction table generalizing buf bs i with
  | nil => simp at hi
  | cons j table ih =>
    cases bs with
    | nil => simp at hlen
    | cons b bs =>
      obtain ⟨hj, hn⟩ := List.nodup_cons.mp hn
      have hlt : j < buf.length := (List.getElem?_eq_some_iff.mp (hclear j List.mem_cons_self)).1
      cases i with
      | zero =>
        cases hi
        rw [scatter, getElem?_scatter_of_not_mem hj]
        cases b with
        | false => exact hclear k List.mem_cons_self
        | true => exact List.getElem?_set_self hlt
      | succ i =>
        rw [scatter, ih hn (by simpa using hlen) ?_ hi, List.getElem?_cons_succ]
        intro k hk
        have hne : j ≠ k := by rintro rfl; exact hj hk
        cases b with
        | false => exact hclear k (List.mem_cons_of_mem _ hk)
        | true => exact (List.getElem?_set_ne hne).trans (hclear k (List.mem_cons_of_mem _ hk))

end Talk2Text.Format
