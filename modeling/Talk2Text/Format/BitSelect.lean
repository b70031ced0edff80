import Mathlib.Algebra.Group.Basic
import Mathlib.Algebra.Ring.Nat

/-!
# What the bits of an index select

A function of an index that looks at its `w` low bits only, with the values it takes (`Decodes f w P`), and how such
functions are put together: one on the low bits and another one on the bits above (`Decodes.both`), or one that the
bits above select (`Decodes.select`, `Decodes.choice`).
-/

namespace Talk2Text.Format

variable {M : Type*} {f g : Nat → M} {w w' k : Nat} {P Q : M → Prop}

/-- `f` looks at the `w` low bits of its index, and takes the values in `P`. -/
structure Decodes (f : Nat → M) (w : Nat) (P : M → Prop) : Prop where
  mod : ∀ index, f (index % 2 ^ w) = f index
  range : ∀ v, P v ↔ ∃ index, f index = v

theorem Decodes.exists_lt {v : M} (h : Decodes f w P) (hv : P v) : ∃ index < 2 ^ w, f index = v := by
  obtain ⟨index, rfl⟩ := (h.range v).mp hv
  exact ⟨index % 2 ^ w, Nat.mod_lt _ (Nat.two_pow_pos w), h.mod index⟩

theorem Decodes.apply (h : Decodes f w P) (index : Nat) : P (f index) := (h.range _).mpr ⟨index, rfl⟩

theorem Decodes.congr (h : Decodes f w P) (hfg : ∀ index, f index = g index) (hPQ : ∀ v, P v ↔ Q v) :
    Decodes g w Q where
  mod index := by rw [← hfg, ← hfg, h.mod]
  range v := by simp only [← hPQ, h.range, hfg]

theorem add_mul_mod (i j : Nat) : (i % 2 ^ w + 2 ^ w * j) % 2 ^ w = i % 2 ^ w := by
  rw [Nat.add_mul_mod_self_left, Nat.mod_mod]

theorem add_mul_shiftRight (i j : Nat) : (i % 2 ^ w + 2 ^ w * j) >>> w = j := by
  rw [Nat.shiftRight_eq_div_pow, Nat.add_mul_div_left _ _ (Nat.two_pow_pos w),
    Nat.div_eq_of_lt (Nat.mod_lt _ (Nat.two_pow_pos w)), Nat.zero_add]

theorem mod_shiftRight (index : Nat) : (index % 2 ^ (w + w')) >>> w = (index >>> w) % 2 ^ w' := by
  rw [Nat.shiftRight_eq_div_pow, Nat.shiftRight_eq_div_pow, Nat.pow_add, Nat.mod_mul_right_div_self]

/-- One part from the low bits, another one from the bits above. -/
theorem Decodes.both {N K : Type*} {g : Nat → N} {Q : N → Prop} (op : M → N → K) (hf : Decodes f w P)
    (hg : Decodes g w' Q) :
    Decodes (fun index => op (f index) (g (index >>> w))) (w + w') (fun v => ∃ a b, P a ∧ Q b ∧ op a b = v) where
  mod index := by
    rw [mod_shiftRight, hg.mod, ← hf.mod, Nat.mod_mod_of_dvd _ (Nat.pow_dvd_pow 2 (Nat.le_add_right w w')), hf.mod]
  range v := by
    constructor
    · rintro ⟨a, b, ha, hb, rfl⟩
      obtain ⟨i, rfl⟩ := (hf.range a).mp ha
      obtain ⟨j, rfl⟩ := (hg.range b).mp hb
      refine ⟨i % 2 ^ w + 2 ^ w * j, ?_⟩
      rw [add_mul_shiftRight, ← hf.mod, add_mul_mod, hf.mod]
    · rintro ⟨index, rfl⟩
      exact ⟨_, _, hf.apply index, hg.apply (index >>> w), rfl⟩

/-- A sum, the low bits first. -/
theorem Decodes.pair [Add M] (hf : Decodes f w P) (hg : Decodes g w' Q) :
    Decodes (fun index => f index + g (index >>> w)) (w + w') (fun v => ∃ a b, P a ∧ Q b ∧ a + b = v) :=
  hf.both (· + ·) hg

/-- A sum, the low bits last. -/
theorem Decodes.pairSwap [Add M] (hf : Decodes f w P) (hg : Decodes g w' Q) :
    Decodes (fun index => g (index >>> w) + f index) (w + w') (fun v => ∃ a b, Q a ∧ P b ∧ a + b = v) := by
  refine (hf.both (fun a b => b + a) hg).congr (fun _ => rfl) fun v => ?_
  constructor
  · rintro ⟨a, b, ha, hb, rfl⟩
    exact ⟨b, a, hb, ha, rfl⟩
  · rintro ⟨b, a, hb, ha, rfl⟩
    exact ⟨a, b, ha, hb, rfl⟩

/-- The bits above select how the low bits are decoded. -/
theorem Decodes.select {f : Nat → Nat → M} {P : Nat → M → Prop} (h : ∀ c < 2 ^ k, Decodes (f c) w (P c)) :
    Decodes (fun index => f ((index >>> w) % 2 ^ k) index) (w + k) (fun v => ∃ c < 2 ^ k, P c v) where
  mod index := by
    have hc := Nat.mod_lt (index >>> w) (Nat.two_pow_pos k)
    rw [mod_shiftRight, Nat.mod_mod, ← (h _ hc).mod, Nat.mod_mod_of_dvd _ (Nat.pow_dvd_pow 2 (Nat.le_add_right w k)),
      (h _ hc).mod]
  range v := by
    constructor
    · rintro ⟨c, hc, hv⟩
      obtain ⟨i, rfl⟩ := ((h c hc).range v).mp hv
      refine ⟨i % 2 ^ w + 2 ^ w * c, ?_⟩
      rw [add_mul_shiftRight, Nat.mod_eq_of_lt hc, ← (h c hc).mod, add_mul_mod, (h c hc).mod]
    · rintro ⟨index, rfl⟩
      have hc := Nat.mod_lt (index >>> w) (Nat.two_pow_pos k)
      exact ⟨_, hc, (h _ hc).apply index⟩

/-- One bit above selects. -/
theorem Decodes.choice (hf : Decodes f w P) (hg : Decodes g w Q) :
    Decodes (fun index => if (index >>> w) % 2 = 0 then f index else g index) (w + 1) (fun v => P v ∨ Q v) := by
  have h : ∀ c < 2 ^ 1, Decodes (if c = 0 then f else g) w (if c = 0 then P else Q) := by
    intro c hc
    split
    · exact hf
    · exact hg
  refine (Decodes.select (f := fun c => if c = 0 then f else g) h).congr (fun index => ?_) (fun v => ?_)
  · rw [pow_one, ite_apply]
  · constructor
    · rintro ⟨c, -, hv⟩
      split at hv
      · exact .inl hv
      · exact .inr hv
    · rintro (hv | hv)
      · exact ⟨0, by decide, hv⟩
      · exact ⟨1, by decide, hv⟩

/-- Two bits above select. -/
theorem Decodes.choice4 {f₀ f₁ f₂ f₃ : Nat → M} {P₀ P₁ P₂ P₃ : M → Prop} (h₀ : Decodes f₀ w P₀) (h₁ : Decodes f₁ w P₁)
    (h₂ : Decodes f₂ w P₂) (h₃ : Decodes f₃ w P₃) :
    Decodes (fun index => if (index >>> w) % 4 = 0 then f₀ index else if (index >>> w) % 4 = 1 then f₁ index
      else if (index >>> w) % 4 = 2 then f₂ index else f₃ index) (w + 2) (fun v => P₀ v ∨ P₁ v ∨ P₂ v ∨ P₃ v) := by
  have h : ∀ c < 2 ^ 2, Decodes (if c = 0 then f₀ else if c = 1 then f₁ else if c = 2 then f₂ else f₃) w
      (if c = 0 then P₀ else if c = 1 then P₁ else if c = 2 then P₂ else P₃) := by
    intro c hc
    split
    · exact h₀
    · split
      · exact h₁
      · split
        · exact h₂
        · exact h₃
  refine (Decodes.select (f := fun c => if c = 0 then f₀ else if c = 1 then f₁ else if c = 2 then f₂ else f₃) h).congr
    (fun index => ?_) (fun v => ?_)
  · simp only [ite_apply, Nat.reducePow]
  · constructor
    · rintro ⟨c, hc, hv⟩
      obtain rfl | rfl | rfl | rfl : c = 0 ∨ c = 1 ∨ c = 2 ∨ c = 3 := by omega
      · exact .inl hv
      · exact .inr (.inl hv)
      · exact .inr (.inr (.inl hv))
      · exact .inr (.inr (.inr hv))
    · rintro (hv | hv | hv | hv)
      · exact ⟨0, by decide, hv⟩
      · exact ⟨1, by decide, hv⟩
      · exact ⟨2, by decide, hv⟩
      · exact ⟨3, by decide, hv⟩

end Talk2Text.Format
