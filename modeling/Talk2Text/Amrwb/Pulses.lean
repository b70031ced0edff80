import Mathlib.Algebra.Group.Pi.Basic
import Mathlib.Algebra.Order.Group.Unbundled.Int
import Mathlib.Data.Nat.Bitwise
import Talk2Text.Amrwb.BasicOp
import Talk2Text.Amrwb.Params
import Talk2Text.Format.BitSelect
import Talk2Text.Util.SignedSums

/-!
# The algebraic codebook

`native/dec_alg_codebook.c`, `dec_acelp_4p_in_64.c` and `dec_acelp_2p_in_64.c`: the indices of a subframe say where the
pulses of its code vector are, and their signs. The 64 samples are interleaved tracks, of 16 samples each, or of 32 at
the lowest rate; `pos` is a position in a track, with `NB_POS` added where the pulse is negative. The basic operators
here do not saturate: there are 4 bits of a position at most.

- `pulse_of_lt`: what a position stands for;
- `units_halves`: the positions of a track are those of its two halves;
- `decodes_1p`, `decodes_2p`, `decodes_3p`, `decodes_4p`, `decodes_5p`, `decodes_6p`: the bits of the index of a track
  give exactly the sums of as many unit pulses, but for pairs alone, which do not cancel out.
-/

namespace Talk2Text.Amrwb

open Talk2Text.Format Talk2Text.Util

/-! ## The pulses of a track -/

/-- `NB_POS`: the number of positions in a track, and the bit of the sign. -/
def nbPos : Nat := 16

def dec1pN1 (index n offset : Nat) : List Nat :=
  let mask := 1 <<< n - 1
  let pos1 := (index &&& mask) + offset
  let i := (index >>> n) &&& 1
  [if i = 1 then pos1 + nbPos else pos1]

def dec2p2N1 (index n offset : Nat) : List Nat :=
  let mask := 1 <<< n - 1
  let pos1 := ((index >>> n) &&& mask) + offset
  let i := (index >>> (n <<< 1)) &&& 1
  let pos2 := (index &&& mask) + offset
  if pos2 < pos1 then
    if i = 1 then [pos1 + nbPos, pos2] else [pos1, pos2 + nbPos]
  else if i = 1 then [pos1 + nbPos, pos2 + nbPos]
  else [pos1, pos2]

def dec3p3N1 (index n offset : Nat) : List Nat :=
  let idx := index &&& (1 <<< (2 * n - 1) - 1)
  let j := if (index >>> (n <<< 1 - 1)) &&& 1 ≠ 0 then offset + 1 <<< (n - 1) else offset
  dec2p2N1 idx (n - 1) j ++ dec1pN1 ((index >>> (n <<< 1)) &&& (1 <<< (n + 1) - 1)) n offset

def dec4p4N1 (index n offset : Nat) : List Nat :=
  let idx := index &&& (1 <<< (n <<< 1 - 1) - 1)
  let j := if (index >>> (n <<< 1 - 1)) &&& 1 ≠ 0 then offset + 1 <<< (n - 1) else offset
  dec2p2N1 idx (n - 1) j ++ dec2p2N1 ((index >>> (n <<< 1)) &&& (1 <<< (n <<< 1 + 1) - 1)) n offset

def dec4p4N (index n offset : Nat) : List Nat :=
  let n1 := n - 1
  let j := offset + 1 <<< n1
  let c := (index >>> (n <<< 2 - 2)) &&& 3
  if c = 0 then
    if (index >>> (n1 <<< 2 + 1)) &&& 1 ≠ 0 then dec4p4N1 index n1 j else dec4p4N1 index n1 offset
  else if c = 1 then dec1pN1 (index >>> (3 * n1 + 1)) n1 offset ++ dec3p3N1 index n1 j
  else if c = 2 then dec2p2N1 (index >>> (n1 <<< 1 + 1)) n1 offset ++ dec2p2N1 index n1 j
  else dec3p3N1 (index >>> (n1 + 1)) n1 offset ++ dec1pN1 index n1 j

def dec5p5N (index n offset : Nat) : List Nat :=
  let n1 := n - 1
  let j := offset + 1 <<< n1
  let idx := index >>> (n <<< 1 + 1)
  if (index >>> (5 * n - 1)) &&& 1 ≠ 0 then dec3p3N1 idx n1 j ++ dec2p2N1 index n offset
  else dec3p3N1 idx n1 offset ++ dec2p2N1 index n offset

def dec6p6N2 (index n offset : Nat) : List Nat :=
  let n1 := n - 1
  let j := offset + 1 <<< n1
  let offsetA := if (index >>> (6 * n - 5)) &&& 1 = 0 then offset else j
  let offsetB := if (index >>> (6 * n - 5)) &&& 1 = 0 then j else offset
  let c := (index >>> (6 * n - 4)) &&& 3
  if c = 0 then dec5p5N (index >>> n) n1 offsetA ++ dec1pN1 index n1 offsetA
  else if c = 1 then dec5p5N (index >>> n) n1 offsetA ++ dec1pN1 index n1 offsetB
  else if c = 2 then dec4p4N (index >>> (2 * n1 + 1)) n1 offsetA ++ dec2p2N1 index n1 offsetB
  else dec3p3N1 (index >>> (3 * n1 + 1)) n1 offset ++ dec3p3N1 index n1 j

/-! ## Unit pulses -/

/-- A pulse of height one. -/
def unit (x : Nat) : Nat → Int := Pi.single x 1

/-- The pulses of either sign at `size` positions from `offset` on. -/
def units (offset size : Nat) : Set (Nat → Int) :=
  {v | ∃ x, offset ≤ x ∧ x < offset + size ∧ (v = unit x ∨ v = -unit x)}

/-- What an entry of `pos` stands for. -/
def pulse (pos : Nat) : Nat → Int :=
  if pos &&& nbPos = 0 then unit (pos &&& (nbPos - 1)) else -unit (pos &&& (nbPos - 1))

def pulses (pos : List Nat) : Nat → Int := (pos.map pulse).sum

section Units

variable {n offset size x y : Nat} {v : Nat → Int}

@[simp] theorem unit_self (x : Nat) : unit x x = 1 := Pi.single_eq_same x 1

theorem unit_ne (h : x ≠ y) : unit x y = 0 := Pi.single_eq_of_ne (Ne.symm h) 1

theorem pulse_of_lt (h : x < nbPos) : pulse x = unit x ∧ pulse (x + nbPos) = -unit x := by
  have hbits : ∀ x < nbPos, x &&& nbPos = 0 ∧ x &&& (nbPos - 1) = x ∧ (x + nbPos) &&& nbPos ≠ 0 ∧
      (x + nbPos) &&& (nbPos - 1) = x := by decide
  obtain ⟨h₁, h₂, h₃, h₄⟩ := hbits x h
  rw [pulse, pulse, if_pos h₁, if_neg h₃, h₂, h₄]
  exact ⟨rfl, rfl⟩

theorem pulses_append (ps qs : List Nat) : pulses (ps ++ qs) = pulses ps + pulses qs := by
  rw [pulses, pulses, pulses, List.map_append, List.sum_append]

theorem signed_units : Signed (units offset size) where
  neg := by
    rintro _ ⟨x, hx, hx', rfl | rfl⟩
    · exact ⟨x, hx, hx', .inr rfl⟩
    · exact ⟨x, hx, hx', .inl (neg_neg _)⟩
  double := by
    rintro _ ⟨x, -, -, rfl | rfl⟩ h
    · exact absurd (congrFun h x) (by simp)
    · exact absurd (congrFun h x) (by simp)

theorem unit_injective (h : unit x = unit y) : x = y := by
  by_contra hne
  have := congrFun h x
  rw [unit_self, unit_ne (Ne.symm hne)] at this
  exact one_ne_zero this

theorem unit_ne_neg : unit x ≠ -unit y := by
  intro h
  have := congrFun h x
  by_cases hxy : y = x
  · subst hxy
    simp at this
  · rw [Pi.neg_apply, unit_self, unit_ne hxy] at this
    exact absurd this (by decide)

theorem varied_units (h : 2 ≤ size) : Varied (units offset size) := by
  -- the position next to the one of the unit, to its right or to its left
  have hother : ∀ x, offset ≤ x → x < offset + size → ∃ y, offset ≤ y ∧ y < offset + size ∧ y ≠ x := by
    intro x hx hx'
    by_cases hlast : x + 1 < offset + size
    · exact ⟨x + 1, by omega, hlast, by omega⟩
    · exact ⟨x - 1, by omega, by omega, by omega⟩
  rintro _ ⟨x, hx, hx', rfl | rfl⟩
  · obtain ⟨y, hy, hy', hne⟩ := hother x hx hx'
    exact ⟨unit y, ⟨y, hy, hy', .inl rfl⟩, fun h => hne (unit_injective h), unit_ne_neg⟩
  · obtain ⟨y, hy, hy', hne⟩ := hother x hx hx'
    exact ⟨unit y, ⟨y, hy, hy', .inl rfl⟩, unit_ne_neg, fun h => hne (unit_injective (h.trans (neg_neg _)))⟩

/-- The two halves of a range of positions. -/
theorem units_halves (n offset : Nat) :
    units offset (2 ^ n) ∪ units (offset + 2 ^ n) (2 ^ n) = units offset (2 ^ (n + 1)) := by
  ext v
  constructor
  · rintro (⟨x, hx, hx', hv⟩ | ⟨x, hx, hx', hv⟩)
    · exact ⟨x, hx, by rw [pow_succ]; omega, hv⟩
    · exact ⟨x, by omega, by rw [pow_succ]; omega, hv⟩
  · rintro ⟨x, hx, hx', hv⟩
    rw [pow_succ] at hx'
    rcases Nat.lt_or_ge x (offset + 2 ^ n) with hlt | hge
    · exact .inl ⟨x, hx, hlt, hv⟩
    · exact .inr ⟨x, hge, by omega, hv⟩

end Units

/-! ## From the bits of an index -/

section Decoding

variable {n offset index x : Nat} {v : Nat → Int}

theorem and_shiftMask (index n : Nat) : index &&& (1 <<< n - 1) = index % 2 ^ n := by
  rw [Nat.one_shiftLeft, Nat.and_two_pow_sub_one_eq_mod]

/-- The pulses with the sign `i` at the position `x`. -/
theorem pulses_sign (hx : x < nbPos) (i : Prop) [Decidable i] :
    pulse (if i then x + nbPos else x) = if i then -unit x else unit x := by
  obtain ⟨hpos, hneg⟩ := pulse_of_lt hx
  split
  · exact hneg
  · exact hpos

theorem pulses_1p (h : offset + 2 ^ n ≤ nbPos) (index : Nat) : pulses (dec1pN1 index n offset) =
    if (index >>> n) % 2 = 0 then unit (index % 2 ^ n + offset) else -unit (index % 2 ^ n + offset) := by
  have hlt := Nat.mod_lt index (Nat.two_pow_pos n)
  simp only [pulses, dec1pN1, and_shiftMask, Nat.and_one_is_mod, List.map_cons, List.map_nil, List.sum_cons, List.sum_nil,
    add_zero]
  rw [pulses_sign (by omega)]
  rcases Nat.mod_two_eq_zero_or_one (index >>> n) with hi | hi
  · rw [hi]; rfl
  · rw [hi]; rfl

/-- The `n` bits of a position. -/
theorem decodes_position (f : (Nat → Int) → Nat → Int) : Decodes (fun index => f (unit (index % 2 ^ n + offset))) n
    (fun v => ∃ x, offset ≤ x ∧ x < offset + 2 ^ n ∧ v = f (unit x)) where
  mod index := by rw [Nat.mod_mod]
  range v := by
    constructor
    · rintro ⟨x, hx, hx', rfl⟩
      refine ⟨x - offset, ?_⟩
      rw [Nat.mod_eq_of_lt (by omega), Nat.sub_add_cancel hx]
    · rintro ⟨index, rfl⟩
      have := Nat.mod_lt index (Nat.two_pow_pos n)
      exact ⟨_, by omega, by omega, rfl⟩

/-- **One pulse**, from `n + 1` bits. -/
theorem decodes_1p (h : offset + 2 ^ n ≤ nbPos) : Decodes (fun index => pulses (dec1pN1 index n offset)) (n + 1)
    (SumOf (units offset (2 ^ n)) 1) := by
  refine ((decodes_position id).choice (decodes_position Neg.neg)).congr (fun index => (pulses_1p h index).symm)
    fun v => ?_
  rw [sumOf_one]
  constructor
  · rintro (⟨x, hx, hx', rfl⟩ | ⟨x, hx, hx', rfl⟩)
    · exact ⟨x, hx, hx', .inl rfl⟩
    · exact ⟨x, hx, hx', .inr rfl⟩
  · rintro ⟨x, hx, hx', rfl | rfl⟩
    · exact .inl ⟨x, hx, hx', rfl⟩
    · exact .inr ⟨x, hx, hx', rfl⟩

/-- The signs of two pulses: that of the one further to the left is the opposite one where the order of the positions
is not kept. -/
def signedPair (a b i : Nat) : Nat → Int :=
  (if i = 1 then -unit a else unit a) + if (b < a ↔ i ≠ 1) then -unit b else unit b

theorem pulses_2p (h : offset + 2 ^ n ≤ nbPos) (index : Nat) : pulses (dec2p2N1 index n offset) =
    signedPair ((index >>> n) % 2 ^ n + offset) (index % 2 ^ n + offset) ((index >>> (2 * n)) % 2) := by
  have ha := Nat.mod_lt (index >>> n) (Nat.two_pow_pos n)
  have hb := Nat.mod_lt index (Nat.two_pow_pos n)
  obtain ⟨hap, han⟩ := pulse_of_lt (show (index >>> n) % 2 ^ n + offset < nbPos by omega)
  obtain ⟨hbp, hbn⟩ := pulse_of_lt (show index % 2 ^ n + offset < nbPos by omega)
  have h2 : n <<< 1 = 2 * n := by rw [Nat.shiftLeft_eq, pow_one, Nat.mul_comm]
  simp only [dec2p2N1, and_shiftMask, Nat.and_one_is_mod, h2, signedPair]
  by_cases hlt : index % 2 ^ n + offset < (index >>> n) % 2 ^ n + offset <;>
    by_cases hi : (index >>> (2 * n)) % 2 = 1 <;> simp [pulses, hlt, hi, hap, han, hbp, hbn]

/-- A pair does not cancel out: its pulses have the same sign, or different positions. -/
theorem signedPair_ne_zero (a b i : Nat) : signedPair a b i ≠ 0 := by
  intro h
  have ha := congrFun h a
  by_cases hab : b = a
  · subst hab
    by_cases hi : i = 1 <;> simp [signedPair, hi] at ha
  · have hb : unit b a = 0 := unit_ne hab
    by_cases hi : i = 1 <;> by_cases hlt : b < a <;> simp [signedPair, hi, hlt, hb] at ha

theorem signedPair_sumOf {a b : Nat} (ha : unit a ∈ units offset x) (hb : unit b ∈ units offset x) (i : Nat) :
    SumOf (units offset x) 2 (signedPair a b i) := by
  refine sumOf_two.mpr ⟨_, ?_, _, ?_, rfl⟩
  · split
    · exact signed_units.neg _ ha
    · exact ha
  · split
    · exact signed_units.neg _ hb
    · exact hb

/-- Every pair that does not cancel out, in the order that gives the signs. -/
theorem exists_signedPair (hv : SumOf (units offset x) 2 v) (h0 : v ≠ 0) : ∃ a b i, i < 2 ∧
    (offset ≤ a ∧ a < offset + x) ∧ (offset ≤ b ∧ b < offset + x) ∧ signedPair a b i = v := by
  -- the positions are equal only if the signs are
  have hmixed : ∀ y z, (offset ≤ y ∧ y < offset + x) → (offset ≤ z ∧ z < offset + x) → unit y + -unit z ≠ 0 →
      ∃ a b i, i < 2 ∧ (offset ≤ a ∧ a < offset + x) ∧ (offset ≤ b ∧ b < offset + x) ∧
        signedPair a b i = unit y + -unit z := by
    intro y z hy hz hne
    rcases Nat.lt_trichotomy z y with hlt | heq | hgt
    · exact ⟨y, z, 0, by decide, hy, hz, by simp [signedPair, hlt]⟩
    · exact absurd (by rw [heq, add_neg_cancel]) hne
    · exact ⟨z, y, 1, by decide, hz, hy, by simp [signedPair, hgt, add_comm]⟩
  obtain ⟨_, ⟨y, hy, hy', hp⟩, _, ⟨z, hz, hz', hq⟩, rfl⟩ := sumOf_two.mp hv
  rcases hp with rfl | rfl <;> rcases hq with rfl | rfl
  · by_cases hlt : z < y
    · exact ⟨z, y, 0, by decide, ⟨hz, hz'⟩, ⟨hy, hy'⟩, by simp [signedPair, Nat.lt_asymm hlt, add_comm]⟩
    · exact ⟨y, z, 0, by decide, ⟨hy, hy'⟩, ⟨hz, hz'⟩, by simp [signedPair, hlt]⟩
  · exact hmixed y z ⟨hy, hy'⟩ ⟨hz, hz'⟩ h0
  · rw [add_comm (-unit y)] at h0 ⊢
    exact hmixed z y ⟨hz, hz'⟩ ⟨hy, hy'⟩ h0
  · by_cases hlt : z < y
    · exact ⟨z, y, 1, by decide, ⟨hz, hz'⟩, ⟨hy, hy'⟩, by simp [signedPair, Nat.lt_asymm hlt, add_comm]⟩
    · exact ⟨y, z, 1, by decide, ⟨hy, hy'⟩, ⟨hz, hz'⟩, by simp [signedPair, hlt]⟩

/-- **Two pulses**, from `2 * n + 1` bits: those that do not cancel out. -/
theorem decodes_2p (h : offset + 2 ^ n ≤ nbPos) : Decodes (fun index => pulses (dec2p2N1 index n offset)) (2 * n + 1)
    (fun v => SumOf (units offset (2 ^ n)) 2 v ∧ v ≠ 0) where
  mod index := by
    have hb : index % 2 ^ (2 * n + 1) % 2 ^ n = index % 2 ^ n :=
      Nat.mod_mod_of_dvd _ (Nat.pow_dvd_pow 2 (by omega))
    have ha : (index % 2 ^ (2 * n + 1)) >>> n % 2 ^ n = (index >>> n) % 2 ^ n := by
      rw [show 2 * n + 1 = n + (n + 1) by omega, mod_shiftRight]
      exact Nat.mod_mod_of_dvd _ (Nat.pow_dvd_pow 2 (by omega))
    have hi : (index % 2 ^ (2 * n + 1)) >>> (2 * n) % 2 = (index >>> (2 * n)) % 2 := by
      rw [mod_shiftRight, pow_one, Nat.mod_mod]
    simp only [pulses_2p h, ha, hb, hi]
  range v := by
    constructor
    · rintro ⟨hv, h0⟩
      obtain ⟨a, b, i, hi, ⟨ha, ha'⟩, ⟨hb, hb'⟩, rfl⟩ := exists_signedPair hv h0
      refine ⟨(b - offset) % 2 ^ n + 2 ^ n * ((a - offset) % 2 ^ n + 2 ^ n * i), ?_⟩
      have h2 : ∀ y : Nat, y >>> (2 * n) = y >>> n >>> n := fun y => by rw [← Nat.shiftRight_add, Nat.two_mul]
      simp only [pulses_2p h, h2, add_mul_shiftRight, add_mul_mod]
      rw [Nat.mod_eq_of_lt (show a - offset < 2 ^ n by omega), Nat.mod_eq_of_lt (show b - offset < 2 ^ n by omega),
        Nat.sub_add_cancel ha, Nat.sub_add_cancel hb, Nat.mod_eq_of_lt hi]
    · rintro ⟨index, rfl⟩
      have ha := Nat.mod_lt (index >>> n) (Nat.two_pow_pos n)
      have hb := Nat.mod_lt index (Nat.two_pow_pos n)
      simp only [pulses_2p h]
      exact ⟨signedPair_sumOf ⟨_, by omega, by omega, .inl rfl⟩ ⟨_, by omega, by omega, .inl rfl⟩ _,
        signedPair_ne_zero _ _ _⟩

theorem shiftLeft_one' (n : Nat) : n <<< 1 = 2 * n := by rw [Nat.shiftLeft_eq, pow_one, Nat.mul_comm]

theorem shiftLeft_two (n : Nat) : n <<< 2 = 4 * n := by rw [Nat.shiftLeft_eq, Nat.mul_comm]

theorem and_three (n : Nat) : n &&& 3 = n % 4 := Nat.and_two_pow_sub_one_eq_mod n 2

/-- The bit that selects a half. -/
theorem pulses_half (f : Nat → List Nat) (index w offset n : Nat) :
    pulses (f (if (index >>> w) &&& 1 ≠ 0 then offset + 1 <<< n else offset)) =
      if (index >>> w) % 2 = 0 then pulses (f offset) else pulses (f (offset + 2 ^ n)) := by
  rw [Nat.and_one_is_mod, Nat.one_shiftLeft]
  by_cases h : (index >>> w) % 2 = 0 <;> simp [h]

section Halves

variable (h : offset + 2 ^ (n + 1) ≤ nbPos)

include h

theorem halves_le : offset + 2 ^ n ≤ nbPos ∧ offset + 2 ^ n + 2 ^ n ≤ nbPos := by
  rw [pow_succ] at h
  omega

/-- The bits of two pulses in one half, which the bit above selects. -/
theorem decodes_2p_half : Decodes (fun index => if (index >>> (2 * n + 1)) % 2 = 0 then
      pulses (dec2p2N1 index n offset) else pulses (dec2p2N1 index n (offset + 2 ^ n))) (2 * n + 1 + 1)
    (fun v => OneSide (units offset (2 ^ n)) (units (offset + 2 ^ n) (2 ^ n)) 2 v ∧ v ≠ 0) := by
  obtain ⟨hl, hr⟩ := halves_le h
  exact ((decodes_2p hl).choice (decodes_2p hr)).congr (fun _ => rfl) fun v => or_and_right.symm

/-- **Three pulses**, from `3 * (n + 1) + 1` bits. -/
theorem decodes_3p : Decodes (fun index => pulses (dec3p3N1 index (n + 1) offset)) (3 * (n + 1) + 1)
    (SumOf (units offset (2 ^ (n + 1))) 3) := by
  obtain ⟨hl, hr⟩ := halves_le h
  rw [show 3 * (n + 1) + 1 = (2 * n + 1 + 1) + (n + 1 + 1) by omega]
  refine ((decodes_2p_half h).pair (decodes_1p h)).congr (fun index => ?_) fun v => ?_
  · rw [dec3p3N1, pulses_append, pulses_half, and_shiftMask, and_shiftMask, (decodes_1p h).mod, Nat.add_sub_cancel,
      shiftLeft_one', show 2 * (n + 1) - 1 = 2 * n + 1 by omega, (decodes_2p hl).mod, (decodes_2p hr).mod]
    rfl
  · rw [← units_halves, sumOf_three signed_units signed_units]

/-- Four pulses, of which two are in one half, from `4 * (n + 1) + 1` bits. -/
theorem decodes_4p1 (hn : 0 < n) : Decodes (fun index => pulses (dec4p4N1 index (n + 1) offset)) (4 * (n + 1) + 1)
    (SumOf (units offset (2 ^ (n + 1))) 4) := by
  obtain ⟨hl, hr⟩ := halves_le h
  have hvaried : 2 ≤ 2 ^ n := Nat.le_self_pow (by omega) 2
  rw [show 4 * (n + 1) + 1 = (2 * n + 1 + 1) + (2 * (n + 1) + 1) by omega]
  refine ((decodes_2p_half h).pair (decodes_2p h)).congr (fun index => ?_) fun v => ?_
  · rw [dec4p4N1, pulses_append, pulses_half, and_shiftMask, and_shiftMask, shiftLeft_one', (decodes_2p h).mod, Nat.add_sub_cancel,
      show 2 * (n + 1) - 1 = 2 * n + 1 by omega, (decodes_2p hl).mod, (decodes_2p hr).mod]
    rfl
  · rw [← units_halves, sumOf_two_pairs signed_units signed_units (varied_units hvaried) (varied_units hvaried)]

end Halves

/-- **Five pulses**, from `5 * (n + 2)` bits. -/
theorem decodes_5p (h : offset + 2 ^ (n + 2) ≤ nbPos) :
    Decodes (fun index => pulses (dec5p5N index (n + 2) offset)) (5 * (n + 2)) (SumOf (units offset (2 ^ (n + 2))) 5) := by
  obtain ⟨hl, hr⟩ := halves_le h
  rw [show 5 * (n + 2) = (2 * (n + 2) + 1) + (3 * (n + 1) + 1 + 1) by omega]
  refine ((decodes_2p h).pairSwap ((decodes_3p hl).choice (decodes_3p hr))).congr (fun index => ?_) fun v => ?_
  · have hbit : index >>> (5 * (n + 2) - 1) = index >>> (2 * (n + 2) + 1) >>> (3 * (n + 1) + 1) := by
      rw [← Nat.shiftRight_add]
      congr 1
      omega
    simp only [dec5p5N, Nat.and_one_is_mod, hbit, shiftLeft_one', Nat.one_shiftLeft, apply_ite pulses, pulses_append,
      ite_not, ite_add]
    rfl
  · rw [← units_halves (n + 1), sumOf_five signed_units signed_units]
    rfl

/-- **Four pulses**, from `4 * (n + 2)` bits. -/
theorem decodes_4p (h : offset + 2 ^ (n + 2) ≤ nbPos) (hn : 0 < n) :
    Decodes (fun index => pulses (dec4p4N index (n + 2) offset)) (4 * (n + 2)) (SumOf (units offset (2 ^ (n + 2))) 4) := by
  obtain ⟨hl, hr⟩ := halves_le h
  have h0 := (decodes_4p1 hl hn).choice (decodes_4p1 hr hn)
  have h1 := (decodes_3p hr).pairSwap (decodes_1p hl)
  have h2 := (decodes_2p hr).pairSwap (decodes_2p hl)
  have h3 := (decodes_1p hr).pairSwap (decodes_3p hl)
  rw [show 4 * (n + 1) + 1 + 1 = 4 * n + 6 by omega] at h0
  rw [show 3 * (n + 1) + 1 + (n + 1 + 1) = 4 * n + 6 by omega] at h1
  rw [show 2 * (n + 1) + 1 + (2 * (n + 1) + 1) = 4 * n + 6 by omega] at h2
  rw [show n + 1 + 1 + (3 * (n + 1) + 1) = 4 * n + 6 by omega] at h3
  rw [show 4 * (n + 2) = 4 * n + 6 + 2 by omega]
  refine (h0.choice4 h1 h2 h3).congr (fun index => ?_) fun v => ?_
  · simp only [dec4p4N, shiftLeft_two, shiftLeft_one', Nat.one_shiftLeft, Nat.and_one_is_mod, and_three,
      show 4 * (n + 2) - 2 = 4 * n + 6 by omega, apply_ite pulses, pulses_append, ite_not]
    rfl
  · rw [← units_halves (n + 1), sumOf_four signed_units signed_units]
    rfl

/-- **Six pulses**, from `6 * (n + 3) - 2` bits. -/
theorem decodes_6p (h : offset + 2 ^ (n + 3) ≤ nbPos) (hn : 0 < n) :
    Decodes (fun index => pulses (dec6p6N2 index (n + 3) offset)) (6 * n + 16)
      (SumOf (units offset (2 ^ (n + 3))) 6) := by
  obtain ⟨hl, hr⟩ := halves_le h
  have h0 := ((decodes_1p hl).pairSwap (decodes_5p hl)).choice ((decodes_1p hr).pairSwap (decodes_5p hr))
  have h1 := ((decodes_1p hr).pairSwap (decodes_5p hl)).choice ((decodes_1p hl).pairSwap (decodes_5p hr))
  have h2 := ((decodes_2p hr).pairSwap (decodes_4p hl hn)).choice ((decodes_2p hl).pairSwap (decodes_4p hr hn))
  have h3 := (decodes_3p hr).pairSwap (decodes_3p hl)
  rw [show n + 2 + 1 + 5 * (n + 2) = 6 * n + 13 by omega] at h0 h1
  rw [show 2 * (n + 2) + 1 + 4 * (n + 2) = 6 * n + 13 by omega] at h2
  rw [show 3 * (n + 1 + 1) + 1 + (3 * (n + 1 + 1) + 1) = 6 * n + 14 by omega] at h3
  refine (h0.choice4 h1 h2 h3).congr (fun index => ?_) fun v => ?_
  · simp only [dec6p6N2, Nat.one_shiftLeft, Nat.and_one_is_mod, and_three,
      show 6 * (n + 3) - 4 = 6 * n + 14 by omega, show 6 * (n + 3) - 5 = 6 * n + 13 by omega, apply_ite pulses,
      pulses_append]
    by_cases hi : (index >>> (6 * n + 13)) % 2 = 0
    · simp only [if_pos hi]
      rfl
    · simp only [if_neg hi]
      rfl
  · rw [← units_halves (n + 2), sumOf_six signed_units signed_units]

end Decoding

end Talk2Text.Amrwb
