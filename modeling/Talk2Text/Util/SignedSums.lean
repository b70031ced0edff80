import Mathlib.Algebra.Group.Basic
import Mathlib.Algebra.Group.Nat.Defs
import Mathlib.Data.Set.Basic
import Mathlib.Tactic.Abel

/-!
# Sums of signed units

The sums of `n` elements of a set `S` of an additive group (`SumOf S n`), where `S` contains the opposite of each of its
elements (`Signed`). When `S` is the union of two such sets, a sum of a few units can be split so that one part is made
of units of one of the two sets only, and so that no pair of units in the parts cancels out:

- `SumOf.union`: units of the one set and units of the other;
- `sumOf_three`, `sumOf_five`: a pair, or three, on one side, and one unit, or a pair, anywhere;
- `sumOf_two_pairs`: a pair on one side and a pair anywhere;
- `sumOf_four`, `sumOf_six`: by the number of units on either side.
-/

namespace Talk2Text.Util

variable {M : Type*} [AddCommGroup M] {S T A B : Set M} {m n : Nat} {u v p q : M}

/-- `v` is a sum of `n` elements of `S`. -/
inductive SumOf (S : Set M) : Nat → M → Prop
  | zero : SumOf S 0 0
  | cons {n : Nat} {p v : M} (hp : p ∈ S) (hv : SumOf S n v) : SumOf S (n + 1) (p + v)

theorem sumOf_zero : SumOf S 0 v ↔ v = 0 := by
  refine ⟨fun h => ?_, fun h => h ▸ .zero⟩
  cases h
  rfl

theorem sumOf_succ : SumOf S (n + 1) v ↔ ∃ p ∈ S, ∃ w, SumOf S n w ∧ p + w = v := by
  constructor
  · intro h
    cases h with
    | cons hp hw => exact ⟨_, hp, _, hw, rfl⟩
  · rintro ⟨p, hp, w, hw, rfl⟩
    exact .cons hp hw

theorem sumOf_one : SumOf S 1 v ↔ v ∈ S := by
  rw [sumOf_succ]
  constructor
  · rintro ⟨p, hp, w, hw, rfl⟩
    rwa [sumOf_zero.mp hw, add_zero]
  · exact fun h => ⟨v, h, 0, .zero, add_zero v⟩

theorem sumOf_two : SumOf S 2 v ↔ ∃ p ∈ S, ∃ q ∈ S, p + q = v := by
  simp only [sumOf_succ (n := 1), sumOf_one]

theorem SumOf.mono (h : A ⊆ B) (hv : SumOf A n v) : SumOf B n v := by
  induction hv with
  | zero => exact .zero
  | cons hp _ ih => exact .cons (h hp) ih

theorem SumOf.add (hu : SumOf S m u) (hv : SumOf S n v) : SumOf S (m + n) (u + v) := by
  induction hu with
  | zero => rwa [Nat.zero_add, zero_add]
  | @cons _ p _ hp _ ih =>
    rw [Nat.add_right_comm, add_assoc p]
    exact .cons hp ih

theorem SumOf.split (h : SumOf S (m + n) v) : ∃ a b, SumOf S m a ∧ SumOf S n b ∧ a + b = v := by
  induction m generalizing v with
  | zero => exact ⟨0, v, .zero, by rwa [Nat.zero_add] at h, zero_add v⟩
  | succ m ih =>
    rw [Nat.add_right_comm, sumOf_succ] at h
    obtain ⟨p, hp, w, hw, rfl⟩ := h
    obtain ⟨a, b, ha, hb, rfl⟩ := ih hw
    exact ⟨p + a, b, .cons hp ha, hb, add_assoc p a b⟩

/-- **Two sides**: the units of a sum, sorted by where they are from. -/
theorem SumOf.union (h : SumOf (A ∪ B) n v) :
    ∃ i j a b, i + j = n ∧ SumOf A i a ∧ SumOf B j b ∧ a + b = v := by
  induction h with
  | zero => exact ⟨0, 0, 0, 0, rfl, .zero, .zero, add_zero 0⟩
  | @cons n p v hp _ ih =>
    obtain ⟨i, j, a, b, rfl, ha, hb, rfl⟩ := ih
    rcases hp with hp | hp
    · exact ⟨i + 1, j, p + a, b, by omega, .cons hp ha, hb, add_assoc p a b⟩
    · exact ⟨i, j + 1, a, p + b, by omega, ha, .cons hp hb, add_left_comm a p b⟩

/-! ## Units and their opposites -/

/-- With each element its opposite, which is another one. -/
structure Signed (S : Set M) : Prop where
  neg : ∀ p ∈ S, -p ∈ S
  double : ∀ p ∈ S, p + p ≠ 0

/-- There is more than one unit up to sign. -/
def Varied (S : Set M) : Prop := ∀ p ∈ S, ∃ q ∈ S, q ≠ p ∧ q ≠ -p

theorem Signed.union (hA : Signed A) (hB : Signed B) : Signed (A ∪ B) where
  neg _ hp := hp.imp (hA.neg _) (hB.neg _)
  double _ hp := hp.elim (hA.double _) (hB.double _)

/-- Two more units that cancel out. -/
theorem SumOf.pad (hS : Signed S) (hp : p ∈ S) (h : SumOf S n v) : SumOf S (n + 2) v := by
  have hpair : SumOf S 2 0 := sumOf_two.mpr ⟨p, hp, -p, hS.neg p hp, add_neg_cancel p⟩
  simpa only [add_zero] using h.add hpair

theorem SumOf.exists_mem (h : SumOf S (n + 1) v) : ∃ p, p ∈ S := by
  obtain ⟨p, hp, -⟩ := sumOf_succ.mp h
  exact ⟨p, hp⟩

/-- A sum of units of one of the two sides. -/
def OneSide (A B : Set M) (n : Nat) (v : M) : Prop := SumOf A n v ∨ SumOf B n v

theorem OneSide.sumOf (h : OneSide A B n v) : SumOf (A ∪ B) n v :=
  h.elim (SumOf.mono Set.subset_union_left) (SumOf.mono Set.subset_union_right)

/-- **Half of the units**, rounded up, are on one side. -/
theorem SumOf.oneSide (hmn : m ≤ n + 1) (h : SumOf (A ∪ B) (m + n) v) :
    ∃ g h, OneSide A B m g ∧ SumOf (A ∪ B) n h ∧ g + h = v := by
  obtain ⟨i, j, a, b, hij, ha, hb, rfl⟩ := h.union
  have hA : A ⊆ A ∪ B := Set.subset_union_left
  have hB : B ⊆ A ∪ B := Set.subset_union_right
  rcases Nat.le_or_le m i with hi | hi
  · obtain ⟨k, rfl⟩ := Nat.exists_eq_add_of_le hi
    obtain ⟨g, w, hg, hw, rfl⟩ := ha.split
    have hk : n = k + j := by omega
    exact ⟨g, w + b, .inl hg, hk ▸ (hw.mono hA).add (hb.mono hB), (add_assoc g w b).symm⟩
  · by_cases him : i = m
    · obtain rfl : j = n := by omega
      exact ⟨a, b, .inl (him ▸ ha), hb.mono hB, rfl⟩
    obtain ⟨k, rfl⟩ := Nat.exists_eq_add_of_le (show m ≤ j by omega)
    obtain ⟨g, w, hg, hw, rfl⟩ := hb.split
    have hk : n = i + k := by omega
    exact ⟨g, a + w, .inr hg, hk ▸ (ha.mono hA).add (hw.mono hB), add_left_comm g a w⟩

section TwoSides

variable (hA : Signed A) (hB : Signed B)

include hA hB

/-- Doubling a unit gives a pair on its side. -/
theorem oneSide_double (hp : p ∈ A ∪ B) : OneSide A B 2 (p + p) ∧ p + p ≠ 0 :=
  ⟨hp.imp (fun hp => sumOf_two.mpr ⟨p, hp, p, hp, rfl⟩) (fun hp => sumOf_two.mpr ⟨p, hp, p, hp, rfl⟩),
    (hA.union hB).double p hp⟩

/-- **Three units** are a pair on one side, which does not cancel out, and another unit. -/
theorem sumOf_three : SumOf (A ∪ B) 3 v ↔
    ∃ g h, (OneSide A B 2 g ∧ g ≠ 0) ∧ SumOf (A ∪ B) 1 h ∧ g + h = v := by
  constructor
  · intro hv
    obtain ⟨g, h, hg, hh, rfl⟩ := hv.oneSide (m := 2) (n := 1) (by omega)
    by_cases h0 : g = 0
    · have hmem := sumOf_one.mp hh
      exact ⟨h + h, -h, oneSide_double hA hB hmem, sumOf_one.mpr ((hA.union hB).neg h hmem), by rw [h0]; abel⟩
    · exact ⟨g, h, ⟨hg, h0⟩, hh, rfl⟩
  · rintro ⟨g, h, ⟨hg, -⟩, hh, rfl⟩
    exact hg.sumOf.add hh

/-- **Two pairs**, one of them on one side, and neither of which cancels out, are all sums of four units. -/
theorem sumOf_two_pairs (hvA : Varied A) (hvB : Varied B) : SumOf (A ∪ B) 4 v ↔
    ∃ g h, (OneSide A B 2 g ∧ g ≠ 0) ∧ (SumOf (A ∪ B) 2 h ∧ h ≠ 0) ∧ g + h = v := by
  have hS := hA.union hB
  -- a pair that does not cancel out, with two more units that do
  have hpair : ∀ w, SumOf (A ∪ B) 2 w → w ≠ 0 →
      ∃ g h, (OneSide A B 2 g ∧ g ≠ 0) ∧ (SumOf (A ∪ B) 2 h ∧ h ≠ 0) ∧ g + h = w := by
    intro w hw h0
    obtain ⟨p, hp, q, hq, rfl⟩ := sumOf_two.mp hw
    by_cases hpq : q = p
    · subst hpq
      obtain ⟨y, hy, hne, hne', hside⟩ : ∃ y ∈ A ∪ B, y ≠ q ∧ y ≠ -q ∧ OneSide A B 2 (q + y) := by
        rcases hp with hp | hp
        · obtain ⟨y, hy, hne, hne'⟩ := hvA q hp
          exact ⟨y, .inl hy, hne, hne', .inl (sumOf_two.mpr ⟨q, hp, y, hy, rfl⟩)⟩
        · obtain ⟨y, hy, hne, hne'⟩ := hvB q hp
          exact ⟨y, .inr hy, hne, hne', .inr (sumOf_two.mpr ⟨q, hp, y, hy, rfl⟩)⟩
      refine ⟨q + y, q + -y, ⟨hside, fun h => hne' ?_⟩, ⟨sumOf_two.mpr ⟨q, hp, -y, hS.neg y hy, rfl⟩, fun h => hne ?_⟩,
        by abel⟩
      · exact (neg_eq_of_add_eq_zero_right h).symm
      · exact (neg_injective (neg_eq_of_add_eq_zero_right h)).symm
    · refine ⟨p + p, q + -p, oneSide_double hA hB hp, ⟨sumOf_two.mpr ⟨q, hq, -p, hS.neg p hp, rfl⟩, fun h => hpq ?_⟩,
        by abel⟩
      exact add_neg_eq_zero.mp h
  constructor
  · intro hv
    obtain ⟨g, h, hg, hh, rfl⟩ := hv.oneSide (m := 2) (n := 2) (by omega)
    by_cases hg0 : g = 0
    · by_cases hh0 : h = 0
      · obtain ⟨p, hp⟩ := SumOf.exists_mem (n := 1) hh
        exact ⟨p + p, -p + -p, oneSide_double hA hB hp,
          ⟨sumOf_two.mpr ⟨-p, hS.neg p hp, -p, hS.neg p hp, rfl⟩, hS.double (-p) (hS.neg p hp)⟩,
          by rw [hg0, hh0]; abel⟩
      · rw [hg0, zero_add]
        exact hpair h hh hh0
    · by_cases hh0 : h = 0
      · rw [hh0, add_zero]
        exact hpair g hg.sumOf hg0
      · exact ⟨g, h, ⟨hg, hg0⟩, ⟨hh, hh0⟩, rfl⟩
  · rintro ⟨g, h, ⟨hg, -⟩, ⟨hh, -⟩, rfl⟩
    exact hg.sumOf.add hh

/-- **Four units**, by how many are on either side; of two and two, neither pair cancels out. -/
theorem sumOf_four : SumOf (A ∪ B) 4 v ↔ OneSide A B 4 v ∨
    (∃ a b, SumOf A 1 a ∧ SumOf B 3 b ∧ a + b = v) ∨
    (∃ a b, (SumOf A 2 a ∧ a ≠ 0) ∧ (SumOf B 2 b ∧ b ≠ 0) ∧ a + b = v) ∨
    ∃ a b, SumOf A 3 a ∧ SumOf B 1 b ∧ a + b = v := by
  have hA' : A ⊆ A ∪ B := Set.subset_union_left
  have hB' : B ⊆ A ∪ B := Set.subset_union_right
  constructor
  · intro hv
    obtain ⟨i, j, a, b, hij, ha, hb, rfl⟩ := hv.union
    obtain ⟨rfl, rfl⟩ | ⟨rfl, rfl⟩ | ⟨rfl, rfl⟩ | ⟨rfl, rfl⟩ | ⟨rfl, rfl⟩ : (i = 0 ∧ j = 4) ∨ (i = 1 ∧ j = 3) ∨
      (i = 2 ∧ j = 2) ∨ (i = 3 ∧ j = 1) ∨ (i = 4 ∧ j = 0) := by omega
    · exact .inl (.inr (by rwa [sumOf_zero.mp ha, zero_add]))
    · exact .inr (.inl ⟨a, b, ha, hb, rfl⟩)
    · by_cases ha0 : a = 0
      · obtain ⟨p, hp⟩ := hb.exists_mem
        exact .inl (.inr (by rw [ha0, zero_add]; exact hb.pad hB hp))
      · by_cases hb0 : b = 0
        · obtain ⟨p, hp⟩ := ha.exists_mem
          exact .inl (.inl (by rw [hb0, add_zero]; exact ha.pad hA hp))
        · exact .inr (.inr (.inl ⟨a, b, ⟨ha, ha0⟩, ⟨hb, hb0⟩, rfl⟩))
    · exact .inr (.inr (.inr ⟨a, b, ha, hb, rfl⟩))
    · exact .inl (.inl (by rwa [sumOf_zero.mp hb, add_zero]))
  · rintro (h | ⟨a, b, ha, hb, rfl⟩ | ⟨a, b, ⟨ha, -⟩, ⟨hb, -⟩, rfl⟩ | ⟨a, b, ha, hb, rfl⟩)
    · exact h.sumOf
    all_goals exact (ha.mono hA').add (hb.mono hB')

/-- **Five units** are three on one side and a pair, which does not cancel out. -/
theorem sumOf_five : SumOf (A ∪ B) 5 v ↔
    ∃ g h, OneSide A B 3 g ∧ (SumOf (A ∪ B) 2 h ∧ h ≠ 0) ∧ g + h = v := by
  have hS := hA.union hB
  constructor
  · intro hv
    obtain ⟨g, h, hg, hh, rfl⟩ := hv.oneSide (m := 3) (n := 2) (by omega)
    by_cases h0 : h = 0
    · -- the three alone: one of them with a pair that cancels out, or the other two apart
      obtain ⟨p, w, hp, hw, hside, rfl⟩ : ∃ p w, p ∈ A ∪ B ∧ SumOf (A ∪ B) 2 w ∧
          (OneSide A B 3 p ∧ OneSide A B 3 (-p)) ∧ p + w = g := by
        rcases hg with hg | hg
        · obtain ⟨p, hp, w, hw, rfl⟩ := sumOf_succ.mp hg
          exact ⟨p, w, .inl hp, hw.mono Set.subset_union_left, ⟨.inl ((sumOf_one.mpr hp).pad hA hp),
            .inl ((sumOf_one.mpr (hA.neg p hp)).pad hA hp)⟩, rfl⟩
        · obtain ⟨p, hp, w, hw, rfl⟩ := sumOf_succ.mp hg
          exact ⟨p, w, .inr hp, hw.mono Set.subset_union_right, ⟨.inr ((sumOf_one.mpr hp).pad hB hp),
            .inr ((sumOf_one.mpr (hB.neg p hp)).pad hB hp)⟩, rfl⟩
      by_cases hw0 : w = 0
      · exact ⟨-p, p + p, hside.2, ⟨(oneSide_double hA hB hp).1.sumOf, hS.double p hp⟩, by rw [h0, hw0]; abel⟩
      · exact ⟨p, w, hside.1, ⟨hw, hw0⟩, by rw [h0, add_zero]⟩
    · exact ⟨g, h, hg, ⟨hh, h0⟩, rfl⟩
  · rintro ⟨g, h, hg, ⟨hh, -⟩, rfl⟩
    exact hg.sumOf.add hh

end TwoSides

/-- **Six units**: five and one on the same side or on either side, four on one side and a pair, which does not cancel
out, on the other one, or three on each. -/
theorem sumOf_six (hA : Signed A) (hB : Signed B) : SumOf (A ∪ B) 6 v ↔
    ((∃ a b, SumOf A 5 a ∧ SumOf A 1 b ∧ a + b = v) ∨ ∃ a b, SumOf B 5 a ∧ SumOf B 1 b ∧ a + b = v) ∨
    ((∃ a b, SumOf A 5 a ∧ SumOf B 1 b ∧ a + b = v) ∨ ∃ a b, SumOf B 5 a ∧ SumOf A 1 b ∧ a + b = v) ∨
    ((∃ a b, SumOf A 4 a ∧ (SumOf B 2 b ∧ b ≠ 0) ∧ a + b = v) ∨
      ∃ a b, SumOf B 4 a ∧ (SumOf A 2 b ∧ b ≠ 0) ∧ a + b = v) ∨
    ∃ a b, SumOf A 3 a ∧ SumOf B 3 b ∧ a + b = v := by
  have hA' : A ⊆ A ∪ B := Set.subset_union_left
  have hB' : B ⊆ A ∪ B := Set.subset_union_right
  constructor
  · intro hv
    obtain ⟨i, j, a, b, hij, ha, hb, rfl⟩ := hv.union
    obtain ⟨rfl, rfl⟩ | ⟨rfl, rfl⟩ | ⟨rfl, rfl⟩ | ⟨rfl, rfl⟩ | ⟨rfl, rfl⟩ | ⟨rfl, rfl⟩ | ⟨rfl, rfl⟩ :
      (i = 0 ∧ j = 6) ∨ (i = 1 ∧ j = 5) ∨ (i = 2 ∧ j = 4) ∨ (i = 3 ∧ j = 3) ∨ (i = 4 ∧ j = 2) ∨ (i = 5 ∧ j = 1) ∨
      (i = 6 ∧ j = 0) := by omega
    · obtain ⟨d, c, hd, hc, rfl⟩ := SumOf.split (m := 5) (n := 1) hb
      exact .inl (.inr ⟨d, c, hd, hc, by rw [sumOf_zero.mp ha, zero_add]⟩)
    · exact .inr (.inl (.inr ⟨b, a, hb, ha, add_comm b a⟩))
    · by_cases ha0 : a = 0
      · obtain ⟨p, hp⟩ := hb.exists_mem
        obtain ⟨d, c, hd, hc, rfl⟩ := SumOf.split (m := 5) (n := 1) (hb.pad hB hp)
        exact .inl (.inr ⟨d, c, hd, hc, by rw [ha0, zero_add]⟩)
      · exact .inr (.inr (.inl (.inr ⟨b, a, hb, ⟨ha, ha0⟩, add_comm b a⟩)))
    · exact .inr (.inr (.inr ⟨a, b, ha, hb, rfl⟩))
    · by_cases hb0 : b = 0
      · obtain ⟨p, hp⟩ := ha.exists_mem
        obtain ⟨d, c, hd, hc, rfl⟩ := SumOf.split (m := 5) (n := 1) (ha.pad hA hp)
        exact .inl (.inl ⟨d, c, hd, hc, by rw [hb0, add_zero]⟩)
      · exact .inr (.inr (.inl (.inl ⟨a, b, ha, ⟨hb, hb0⟩, rfl⟩)))
    · exact .inr (.inl (.inl ⟨a, b, ha, hb, rfl⟩))
    · obtain ⟨d, c, hd, hc, rfl⟩ := SumOf.split (m := 5) (n := 1) ha
      exact .inl (.inl ⟨d, c, hd, hc, by rw [sumOf_zero.mp hb, add_zero]⟩)
  · rintro ((⟨a, b, ha, hb, rfl⟩ | ⟨a, b, ha, hb, rfl⟩) | (⟨a, b, ha, hb, rfl⟩ | ⟨a, b, ha, hb, rfl⟩) |
      (⟨a, b, ha, ⟨hb, -⟩, rfl⟩ | ⟨a, b, ha, ⟨hb, -⟩, rfl⟩) | ⟨a, b, ha, hb, rfl⟩)
    · exact (ha.mono hA').add (hb.mono hA')
    · exact (ha.mono hB').add (hb.mono hB')
    · exact (ha.mono hA').add (hb.mono hB')
    · exact (ha.mono hB').add (hb.mono hA')
    · exact (ha.mono hA').add (hb.mono hB')
    · exact (ha.mono hB').add (hb.mono hA')
    · exact (ha.mono hA').add (hb.mono hB')

end Talk2Text.Util
