import Mathlib.Algebra.Order.Ring.Abs
import Talk2Text.Amrwb.Pulses

/-!
# Code vectors

`native/dec_acelp_4p_in_64.c`, `dec_acelp_2p_in_64.c` and the choice between them in `native/pvamrwbdecoder.c`: the code
vector of a subframe from its indices.

- `addPulses_spec`: a sample is 512 times the sum of the pulses at its place, and stays within 16 bits;
- `decodes_track`: what the index of a track is decoded to, by the number of its pulses;
- `decodeTracks_spec`: the tracks of a code vector do not disturb each other;
- `codebook_image`: the code vectors of each rate.
-/

namespace Talk2Text.Amrwb

open Talk2Text.Format Talk2Text.Util

/-- `L_CODE`. -/
def lCode : Nat := 64

/-- `NB_TRACK`, of 16 positions each. -/
def nbTrack : Nat := 4

def addPulses (pos : List Nat) (track : Nat) (code : List Int) : List Int :=
  pos.foldl (fun code p =>
    let i := (p &&& (nbPos - 1)) <<< 2 + track
    if p &&& nbPos = 0 then code.set i (toInt16 (code.getD i 0 + 512))
    else code.set i (toInt16 (code.getD i 0 - 512))) code

/-- The loop over the tracks `ks`, with the positions of each. -/
def decodeTracks (pos : Nat → List Nat) (ks : List Nat) (code : List Int) : List Int :=
  ks.foldl (fun code k => addPulses (pos k) k code) code

def decAcelp4pIn64 (index : List Nat) (nbbits : Nat) : List Int :=
  let code := List.replicate lCode 0
  let single := fun k => index.getD k 0
  let double := fun w k => index.getD k 0 <<< w + index.getD (k + nbTrack) 0
  if nbbits = 20 then decodeTracks (fun k => dec1pN1 (single k) 4 0) [0, 1, 2, 3] code
  else if nbbits = 36 then decodeTracks (fun k => dec2p2N1 (single k) 4 0) [0, 1, 2, 3] code
  else if nbbits = 44 then
    decodeTracks (fun k => dec2p2N1 (single k) 4 0) [2, 3]
      (decodeTracks (fun k => dec3p3N1 (single k) 4 0) [0, 1] code)
  else if nbbits = 52 then decodeTracks (fun k => dec3p3N1 (single k) 4 0) [0, 1, 2, 3] code
  else if nbbits = 64 then decodeTracks (fun k => dec4p4N (double 14 k) 4 0) [0, 1, 2, 3] code
  else if nbbits = 72 then
    decodeTracks (fun k => dec4p4N (double 14 k) 4 0) [2, 3]
      (decodeTracks (fun k => dec5p5N (double 10 k) 4 0) [0, 1] code)
  else if nbbits = 88 then decodeTracks (fun k => dec6p6N2 (double 11 k) 4 0) [0, 1, 2, 3] code
  else code

def decAcelp2pIn64 (index : Nat) : List Int :=
  let nbPos := 32
  let code : List Int := List.replicate lCode 0
  let i := (index >>> 5) &&& 0x3E
  let code := code.set i (if (index >>> 6) &&& nbPos = 0 then 512 else -512)
  let i := (index &&& 0x1F) <<< 1 + 1
  code.set i (if index &&& nbPos = 0 then 512 else -512)

/-- The code vector from the indices `ind` of a subframe, in a frame that is usable. -/
def decodeCode (nbBits : Nat) (ind : List Nat) : List Int :=
  if nbBits ≤ nbbits7k then decAcelp2pIn64 (ind.getD 0 0)
  else if nbBits ≤ nbbits9k then decAcelp4pIn64 ind 20
  else if nbBits ≤ nbbits12k then decAcelp4pIn64 ind 36
  else if nbBits ≤ nbbits14k then decAcelp4pIn64 ind 44
  else if nbBits ≤ nbbits16k then decAcelp4pIn64 ind 52
  else if nbBits ≤ nbbits18k then decAcelp4pIn64 ind 64
  else if nbBits ≤ nbbits20k then decAcelp4pIn64 ind 72
  else decAcelp4pIn64 ind 88

/-- The tracks of the code vectors of a rate, with the number of pulses of each. -/
def pulseCounts (nbBits : Nat) : List Nat :=
  if nbBits ≤ nbbits7k then [1, 1]
  else if nbBits ≤ nbbits9k then [1, 1, 1, 1]
  else if nbBits ≤ nbbits12k then [2, 2, 2, 2]
  else if nbBits ≤ nbbits14k then [3, 3, 2, 2]
  else if nbBits ≤ nbbits16k then [3, 3, 3, 3]
  else if nbBits ≤ nbbits18k then [4, 4, 4, 4]
  else if nbBits ≤ nbbits20k then [5, 5, 4, 4]
  else [6, 6, 6, 6]

/-- A code vector: interleaved tracks, each with its number of pulses, of height 512 and of either sign; where there are
two, they do not cancel out. -/
def IsCode (counts : List Nat) (code : List Int) : Prop :=
  code.length = lCode ∧ ∀ k < counts.length, ∃ v, SumOf (units 0 (lCode / counts.length)) (counts.getD k 0) v ∧
    (counts.getD k 0 = 2 → v ≠ 0) ∧ ∀ x < lCode / counts.length, code.getD (counts.length * x + k) 0 = 512 * v x

/-! ## Adding pulses -/

section Pulses

variable {code : List Int} {k m p : Nat} {u : Nat → Int}

theorem abs_pulse_le (p x : Nat) : |pulse p x| ≤ 1 := by
  have hunit : ∀ y, |unit y x| ≤ 1 := by
    intro y
    by_cases h : y = x
    · rw [h, unit_self, abs_one]
    · rw [unit_ne h, abs_zero]
      exact zero_le_one
  rw [pulse]
  split
  · exact hunit _
  · rw [Pi.neg_apply, abs_neg]
    exact hunit _

/-- The sample of a pulse. -/
theorem place_eq (p k : Nat) : (p &&& (nbPos - 1)) <<< 2 + k = 4 * (p % nbPos) + k := by
  rw [show nbPos = 2 ^ 4 by rfl, Nat.and_two_pow_sub_one_eq_mod, shiftLeft_two]

theorem pulse_apply (p x : Nat) : pulse p x = if x = p % nbPos then if p &&& nbPos = 0 then 1 else -1 else 0 := by
  have hmod : p &&& (nbPos - 1) = p % nbPos := by rw [show nbPos = 2 ^ 4 by rfl, Nat.and_two_pow_sub_one_eq_mod]
  rw [pulse, hmod]
  by_cases hx : x = p % nbPos
  · rw [if_pos hx, hx]
    split <;> simp
  · rw [if_neg hx]
    split <;> simp [unit_ne (Ne.symm hx)]

theorem getD_set {l : List Int} {i : Nat} (a : Int) (h : i < l.length) (j : Nat) :
    (l.set i a).getD j 0 = if i = j then a else l.getD j 0 := by
  rw [List.getD_eq_getElem?_getD, List.getElem?_set, if_pos h, List.getD_eq_getElem?_getD]
  split <;> rfl

theorem getD_zeros (j : Nat) : (List.replicate lCode (0 : Int)).getD j 0 = 0 := by
  rw [List.getD_eq_getElem?_getD, List.getElem?_replicate]
  split <;> rfl

/-- One more pulse. -/
theorem addPulse_spec (p : Nat) (hlen : code.length = lCode) (hk : k < nbTrack)
    (hu : ∀ x < nbPos, code.getD (4 * x + k) 0 = 512 * u x ∧ |u x| ≤ m) (hm : m < 63) :
    ∃ code', (∀ pos, addPulses (p :: pos) k code = addPulses pos k code') ∧ code'.length = lCode ∧
      (∀ x < nbPos, code'.getD (4 * x + k) 0 = 512 * (u + pulse p) x ∧ |(u + pulse p) x| ≤ (m + 1 : Nat)) ∧
      ∀ j, j % 4 ≠ k → code'.getD j 0 = code.getD j 0 := by
  have hp : p % nbPos < nbPos := Nat.mod_lt p (by decide)
  have hplace : 4 * (p % nbPos) + k < code.length := by
    rw [hlen]
    simp only [nbPos, nbTrack, lCode] at *
    omega
  refine ⟨code.set (4 * (p % nbPos) + k)
    (512 * (u (p % nbPos) + if p &&& nbPos = 0 then 1 else -1)), fun pos => ?_, ?_, fun x hx => ⟨?_, ?_⟩, fun j hj => ?_⟩
  · obtain ⟨hc, hb⟩ := hu (p % nbPos) hp
    obtain ⟨hlo, hhi⟩ := abs_le.mp hb
    simp only [addPulses, List.foldl_cons, place_eq, hc]
    split
    · rw [toInt16_of_isInt16 (by constructor <;> simp only [min16, max16] <;> omega)]
      congr 2
      omega
    · rw [toInt16_of_isInt16 (by constructor <;> simp only [min16, max16] <;> omega)]
      congr 2
      omega
  · rw [List.length_set, hlen]
  · rw [getD_set _ hplace, Pi.add_apply, pulse_apply]
    by_cases hx' : x = p % nbPos
    · rw [if_pos (by rw [hx']), if_pos hx', hx']
    · rw [if_neg (by omega), if_neg hx', add_zero, (hu x hx).1]
  · have hle := abs_add_le (u x) (pulse p x)
    have h1 := abs_pulse_le p x
    have h2 := (hu x hx).2
    rw [Pi.add_apply]
    push_cast
    omega
  · rw [getD_set _ hplace, if_neg]
    simp only [nbTrack] at hk
    omega

/-- **The sum of the pulses** of a track, with those there are already. -/
theorem addPulses_spec (pos : List Nat) (hlen : code.length = lCode) (hk : k < nbTrack)
    (hu : ∀ x < nbPos, code.getD (4 * x + k) 0 = 512 * u x ∧ |u x| ≤ m) (hm : m + pos.length ≤ 63) :
    (addPulses pos k code).length = lCode ∧
      (∀ x < nbPos, (addPulses pos k code).getD (4 * x + k) 0 = 512 * (u + pulses pos) x) ∧
      ∀ j, j % 4 ≠ k → (addPulses pos k code).getD j 0 = code.getD j 0 := by
  induction pos generalizing code u m with
  | nil => exact ⟨hlen, fun x hx => by rw [pulses, List.map_nil, List.sum_nil, add_zero]; exact (hu x hx).1, fun _ _ => rfl⟩
  | cons p pos ih =>
    rw [List.length_cons] at hm
    obtain ⟨code', heq, hlen', hu', hother⟩ := addPulse_spec p hlen hk hu (by omega)
    obtain ⟨hl, hsum, hrest⟩ := ih hlen' hu' (by omega)
    rw [heq]
    refine ⟨hl, fun x hx => ?_, fun j hj => (hrest j hj).trans (hother j hj)⟩
    rw [hsum x hx, pulses, pulses, List.map_cons, List.sum_cons, add_assoc]

/-- **The tracks** do not disturb each other. -/
theorem decodeTracks_spec (pos : Nat → List Nat) (hpos : ∀ k, (pos k).length ≤ 63) {ks : List Nat} (hnodup : ks.Nodup)
    (hks : ∀ k ∈ ks, k < nbTrack) (hlen : code.length = lCode)
    (hzero : ∀ k ∈ ks, ∀ x < nbPos, code.getD (4 * x + k) 0 = 0) :
    (decodeTracks pos ks code).length = lCode ∧
      (∀ k ∈ ks, ∀ x < nbPos, (decodeTracks pos ks code).getD (4 * x + k) 0 = 512 * pulses (pos k) x) ∧
      ∀ j, j % 4 ∉ ks → (decodeTracks pos ks code).getD j 0 = code.getD j 0 := by
  induction ks generalizing code with
  | nil => exact ⟨hlen, fun _ h => absurd h List.not_mem_nil, fun _ _ => rfl⟩
  | cons k ks ih =>
    obtain ⟨hk, hnodup⟩ := List.nodup_cons.mp hnodup
    have hlt := hks k List.mem_cons_self
    obtain ⟨hlen', hsum, hother⟩ := @addPulses_spec code k 0 0 (pos k) hlen hlt
      (fun x hx => ⟨by rw [hzero k List.mem_cons_self x hx]; rfl, by rw [Pi.zero_apply, abs_zero]; rfl⟩)
      (by have := hpos k; omega)
    have hmod : ∀ x, (4 * x + k) % 4 = k := fun x => by simp only [nbTrack] at hlt; omega
    obtain ⟨hl, hs, hr⟩ := ih hnodup (fun k hk => hks k (List.mem_cons_of_mem _ hk)) hlen' (fun k' hk' x hx => by
      have hlt' := hks k' (List.mem_cons_of_mem _ hk')
      have hne : k' ≠ k := fun h => hk (h ▸ hk')
      rw [hother _ (by simp only [nbTrack] at hlt'; omega)]
      exact hzero k' (List.mem_cons_of_mem _ hk') x hx)
    refine ⟨hl, fun k' hk' x hx => ?_, fun j hj => ?_⟩
    · rcases List.mem_cons.mp hk' with rfl | hk'
      · rw [decodeTracks, List.foldl_cons]
        exact (hr _ (by rwa [hmod])).trans ((hsum x hx).trans (by rw [zero_add]))
      · exact hs k' hk' x hx
    · obtain ⟨hjk, hj⟩ := not_or.mp (List.mem_cons.not.mp hj)
      exact (hr j hj).trans (hother j hjk)

end Pulses

/-! ## The index of a track -/

/-- The decoder of a track with `n` pulses. -/
def decodeTrack (n index : Nat) : List Nat :=
  if n = 1 then dec1pN1 index 4 0 else if n = 2 then dec2p2N1 index 4 0 else if n = 3 then dec3p3N1 index 4 0
  else if n = 4 then dec4p4N index 4 0 else if n = 5 then dec5p5N index 4 0 else dec6p6N2 index 4 0

/-- The bits of its index. -/
def trackBits (n : Nat) : Nat :=
  if n = 1 then 5 else if n = 2 then 9 else if n = 3 then 13 else if n = 4 then 16 else if n = 5 then 20 else 22

/-- **The index of a track** gives exactly the sums of `n` pulses, but for two pulses that cancel out. -/
theorem decodes_track {n : Nat} (hn : 1 ≤ n ∧ n ≤ 6) : Decodes (fun index => pulses (decodeTrack n index)) (trackBits n)
    (fun v => SumOf (units 0 nbPos) n v ∧ (n = 2 → v ≠ 0)) := by
  have hother : ∀ {n : Nat}, n ≠ 2 → ∀ v, SumOf (units 0 nbPos) n v ↔
      SumOf (units 0 nbPos) n v ∧ (n = 2 → v ≠ 0) := fun hn v => ⟨fun h => ⟨h, fun h2 => absurd h2 hn⟩, And.left⟩
  obtain rfl | rfl | rfl | rfl | rfl | rfl : n = 1 ∨ n = 2 ∨ n = 3 ∨ n = 4 ∨ n = 5 ∨ n = 6 := by omega
  · exact (@decodes_1p 4 0 (by decide)).congr (fun _ => rfl) fun v => hother (by decide) v
  · exact (@decodes_2p 4 0 (by decide)).congr (fun _ => rfl) fun v =>
      ⟨fun h => ⟨h.1, fun _ => h.2⟩, fun h => ⟨h.1, h.2 rfl⟩⟩
  · exact (@decodes_3p 3 0 (by decide)).congr (fun _ => rfl) fun v => hother (by decide) v
  · exact (@decodes_4p 2 0 (by decide) (by decide)).congr (fun _ => rfl) fun v => hother (by decide) v
  · exact (@decodes_5p 2 0 (by decide)).congr (fun _ => rfl) fun v => hother (by decide) v
  · exact (@decodes_6p 1 0 (by decide) (by decide)).congr (fun _ => rfl) fun v => hother (by decide) v

section Lengths

variable (index n offset : Nat)

theorem length_dec1p : (dec1pN1 index n offset).length = 1 := rfl

theorem length_dec2p : (dec2p2N1 index n offset).length = 2 := by simp [dec2p2N1, apply_ite List.length]

theorem length_dec3p : (dec3p3N1 index n offset).length = 3 := by simp [dec3p3N1, length_dec1p, length_dec2p]

theorem length_dec4p : (dec4p4N index n offset).length = 4 := by
  simp [dec4p4N, dec4p4N1, apply_ite List.length, length_dec1p, length_dec2p, length_dec3p]

theorem length_dec5p : (dec5p5N index n offset).length = 5 := by
  simp [dec5p5N, apply_ite List.length, length_dec2p, length_dec3p]

theorem length_dec6p : (dec6p6N2 index n offset).length = 6 := by
  simp [dec6p6N2, apply_ite List.length, length_dec1p, length_dec2p, length_dec3p, length_dec4p, length_dec5p]

end Lengths

theorem length_decodeTrack (n index : Nat) : (decodeTrack n index).length ≤ 6 := by
  simp only [decodeTrack, apply_ite List.length, length_dec1p, length_dec2p, length_dec3p, length_dec4p, length_dec5p,
    length_dec6p]
  repeat' split
  all_goals decide

/-! ## The indices of a rate -/

/-- `L_index`: one field, or two. -/
def trackIndex (counts ind : List Nat) (k : Nat) : Nat :=
  let n := counts.getD k 0
  if n ≤ 3 then ind.getD k 0
  else ind.getD k 0 <<< (if n = 4 then 14 else if n = 5 then 10 else 11) + ind.getD (k + nbTrack) 0

section Rates

variable {nbBits : Nat} {code : List Int}

theorem decodeCode_eq (h : ¬nbBits ≤ nbbits7k) (ind : List Nat) : decodeCode nbBits ind =
    decodeTracks (fun k => decodeTrack ((pulseCounts nbBits).getD k 0) (trackIndex (pulseCounts nbBits) ind k))
      [0, 1, 2, 3] (List.replicate lCode 0) := by
  unfold decodeCode pulseCounts
  rw [if_neg h, if_neg h]
  repeat' split
  all_goals rfl

theorem pulseCounts_spec (h : ¬nbBits ≤ nbbits7k) : (pulseCounts nbBits).length = nbTrack ∧
    ∀ k < nbTrack, 1 ≤ (pulseCounts nbBits).getD k 0 ∧ (pulseCounts nbBits).getD k 0 ≤ 6 := by
  unfold pulseCounts
  rw [if_neg h]
  repeat' split
  all_goals decide

theorem forall_lt_four {P : Nat → Prop} (h0 : P 0) (h1 : P 1) (h2 : P 2) (h3 : P 3) : ∀ k < nbTrack, P k := by
  intro k hk
  obtain rfl | rfl | rfl | rfl : k = 0 ∨ k = 1 ∨ k = 2 ∨ k = 3 := by simp only [nbTrack] at hk; omega
  all_goals assumption

/-- An index in two fields. -/
theorem two_fields {i a b : Nat} (h : i < 2 ^ (a + b)) : i >>> b < 2 ^ a ∧ i % 2 ^ b < 2 ^ b ∧
    (i >>> b) <<< b + i % 2 ^ b = i := by
  rw [Nat.shiftRight_eq_div_pow, Nat.shiftLeft_eq]
  refine ⟨?_, Nat.mod_lt _ (Nat.two_pow_pos b), ?_⟩
  · rw [Nat.div_lt_iff_lt_mul (Nat.two_pow_pos b), ← Nat.pow_add]
    exact h
  · rw [Nat.mul_comm, Nat.div_add_mod]

/-- The indices of the tracks are independent of each other, and fill the bits that are sent. -/
theorem exists_ind (h : ¬nbBits ≤ nbbits7k) {index : Nat → Nat}
    (hindex : ∀ k < nbTrack, index k < 2 ^ trackBits ((pulseCounts nbBits).getD k 0)) :
    ∃ ind, List.Forall₂ (fun w v => v < 2 ^ w) (codeWidths nbBits false) ind ∧
      ∀ k < nbTrack, trackIndex (pulseCounts nbBits) ind k = index k := by
  obtain ⟨h0, h1, h2, h3⟩ : _ ∧ _ ∧ _ ∧ _ :=
    ⟨hindex 0 (by decide), hindex 1 (by decide), hindex 2 (by decide), hindex 3 (by decide)⟩
  unfold pulseCounts at h0 h1 h2 h3 ⊢
  unfold codeWidths
  simp only [if_neg h, Bool.false_eq_true, if_false] at h0 h1 h2 h3 ⊢
  have single : ∀ {w0 w1 w2 w3 : Nat}, index 0 < 2 ^ w0 → index 1 < 2 ^ w1 → index 2 < 2 ^ w2 → index 3 < 2 ^ w3 →
      List.Forall₂ (fun w v => v < 2 ^ w) [w0, w1, w2, w3] [index 0, index 1, index 2, index 3] :=
    fun h0 h1 h2 h3 => .cons h0 (.cons h1 (.cons h2 (.cons h3 .nil)))
  have double : ∀ {a0 a1 a2 a3 b0 b1 b2 b3 : Nat}, index 0 < 2 ^ (a0 + b0) → index 1 < 2 ^ (a1 + b1) →
      index 2 < 2 ^ (a2 + b2) → index 3 < 2 ^ (a3 + b3) →
      List.Forall₂ (fun w v => v < 2 ^ w) [a0, a1, a2, a3, b0, b1, b2, b3]
        [index 0 >>> b0, index 1 >>> b1, index 2 >>> b2, index 3 >>> b3,
          index 0 % 2 ^ b0, index 1 % 2 ^ b1, index 2 % 2 ^ b2, index 3 % 2 ^ b3] :=
    fun h0 h1 h2 h3 => .cons (two_fields h0).1 (.cons (two_fields h1).1 (.cons (two_fields h2).1
      (.cons (two_fields h3).1 (.cons (two_fields h0).2.1 (.cons (two_fields h1).2.1 (.cons (two_fields h2).2.1
        (.cons (two_fields h3).2.1 .nil)))))))
  by_cases h9 : nbBits ≤ nbbits9k
  · simp only [if_pos h9] at *
    exact ⟨_, single h0 h1 h2 h3, forall_lt_four rfl rfl rfl rfl⟩
  by_cases h12 : nbBits ≤ nbbits12k
  · simp only [if_neg h9, if_pos h12] at *
    exact ⟨_, single h0 h1 h2 h3, forall_lt_four rfl rfl rfl rfl⟩
  by_cases h14 : nbBits ≤ nbbits14k
  · simp only [if_neg h9, if_neg h12, if_pos h14] at *
    exact ⟨_, single h0 h1 h2 h3, forall_lt_four rfl rfl rfl rfl⟩
  by_cases h16 : nbBits ≤ nbbits16k
  · simp only [if_neg h9, if_neg h12, if_neg h14, if_pos h16] at *
    exact ⟨_, single h0 h1 h2 h3, forall_lt_four rfl rfl rfl rfl⟩
  by_cases h18 : nbBits ≤ nbbits18k
  · simp only [if_neg h9, if_neg h12, if_neg h14, if_neg h16, if_pos h18] at *
    exact ⟨_, @double 2 2 2 2 14 14 14 14 h0 h1 h2 h3, forall_lt_four (@two_fields _ 2 14 h0).2.2
      (@two_fields _ 2 14 h1).2.2 (@two_fields _ 2 14 h2).2.2 (@two_fields _ 2 14 h3).2.2⟩
  by_cases h20 : nbBits ≤ nbbits20k
  · simp only [if_neg h9, if_neg h12, if_neg h14, if_neg h16, if_neg h18, if_pos h20] at *
    exact ⟨_, @double 10 10 2 2 10 10 14 14 h0 h1 h2 h3, forall_lt_four (@two_fields _ 10 10 h0).2.2
      (@two_fields _ 10 10 h1).2.2 (@two_fields _ 2 14 h2).2.2 (@two_fields _ 2 14 h3).2.2⟩
  · simp only [if_neg h9, if_neg h12, if_neg h14, if_neg h16, if_neg h18, if_neg h20] at *
    exact ⟨_, @double 11 11 11 11 11 11 11 11 h0 h1 h2 h3, forall_lt_four (@two_fields _ 11 11 h0).2.2
      (@two_fields _ 11 11 h1).2.2 (@two_fields _ 11 11 h2).2.2 (@two_fields _ 11 11 h3).2.2⟩

/-- A code vector is its samples on the tracks. -/
theorem code_ext {code code' : List Int} {c : Nat} (hc : 0 < c) (hdvd : c * (lCode / c) = lCode)
    (hlen : code.length = lCode) (hlen' : code'.length = lCode)
    (h : ∀ k < c, ∀ x < lCode / c, code.getD (c * x + k) 0 = code'.getD (c * x + k) 0) : code = code' := by
  refine List.ext_getElem (hlen.trans hlen'.symm) fun j hj hj' => ?_
  have hx : j / c < lCode / c := by
    rw [Nat.div_lt_iff_lt_mul hc, Nat.mul_comm, hdvd, ← hlen]
    exact hj
  have hjk := h (j % c) (Nat.mod_lt j hc) (j / c) hx
  rw [Nat.div_add_mod] at hjk
  rwa [List.getD_eq_getElem _ _ hj, List.getD_eq_getElem _ _ hj'] at hjk

/-- The code vectors with four tracks. -/
theorem codebook_four (h : ¬nbBits ≤ nbbits7k) (code : List Int) :
    (∃ ind, List.Forall₂ (fun w v => v < 2 ^ w) (codeWidths nbBits false) ind ∧ decodeCode nbBits ind = code) ↔
      IsCode (pulseCounts nbBits) code := by
  obtain ⟨hcounts, hrange⟩ := pulseCounts_spec h
  have hspec := fun ind => @decodeTracks_spec (List.replicate lCode 0)
    (fun k => decodeTrack ((pulseCounts nbBits).getD k 0) (trackIndex (pulseCounts nbBits) ind k))
    (fun k => Nat.le_trans (length_decodeTrack _ _) (by decide)) [0, 1, 2, 3] (by decide) (by decide)
    List.length_replicate (fun _ _ _ _ => getD_zeros _)
  have hmem : ∀ k, k < nbTrack → k ∈ [0, 1, 2, 3] := by decide
  rw [IsCode, hcounts]
  constructor
  · rintro ⟨ind, -, rfl⟩
    rw [decodeCode_eq h]
    obtain ⟨hlen, hsum, -⟩ := hspec ind
    refine ⟨hlen, fun k hk => ?_⟩
    obtain ⟨hv, h2⟩ := (decodes_track (hrange k hk)).apply (trackIndex (pulseCounts nbBits) ind k)
    exact ⟨_, hv, h2, hsum k (hmem k hk)⟩
  · rintro ⟨hlen, hcode⟩
    have hex : ∀ k, ∃ index, k < nbTrack → index < 2 ^ trackBits ((pulseCounts nbBits).getD k 0) ∧
        ∀ x < nbPos, code.getD (4 * x + k) 0 = 512 * pulses (decodeTrack ((pulseCounts nbBits).getD k 0) index) x := by
      intro k
      by_cases hk : k < nbTrack
      · obtain ⟨v, hv, h2, hx⟩ := hcode k hk
        obtain ⟨index, hlt, heq⟩ := (decodes_track (hrange k hk)).exists_lt ⟨hv, h2⟩
        exact ⟨index, fun _ => ⟨hlt, fun x hlt => heq ▸ hx x hlt⟩⟩
      · exact ⟨0, fun h => absurd h hk⟩
    choose index hindex using hex
    obtain ⟨ind, hfits, heq⟩ := exists_ind h fun k hk => (hindex k hk).1
    obtain ⟨hlen', hsum, -⟩ := hspec ind
    refine ⟨ind, hfits, ?_⟩
    rw [decodeCode_eq h]
    refine @code_ext _ _ nbTrack (by decide) rfl hlen' hlen fun k hk x hx => ?_
    exact (hsum k (hmem k hk) x hx).trans (by rw [heq k hk]; exact ((hindex k hk).2 x hx).symm)

/-! ## The lowest rate -/

/-- The pulse of one of the two tracks, from six bits. -/
def signedUnit (i : Nat) : Nat → Int := if (i >>> 5) % 2 = 0 then unit (i % 32) else -unit (i % 32)

theorem decodes_signedUnit : Decodes signedUnit 6 (· ∈ units 0 32) := by
  refine ((@decodes_position 5 0 id).choice (@decodes_position 5 0 Neg.neg)).congr (fun _ => rfl) fun v => ?_
  constructor
  · rintro (⟨x, hx, hx', rfl⟩ | ⟨x, hx, hx', rfl⟩)
    · exact ⟨x, hx, hx', .inl rfl⟩
    · exact ⟨x, hx, hx', .inr rfl⟩
  · rintro ⟨x, hx, hx', rfl | rfl⟩
    · exact .inl ⟨x, hx, hx', rfl⟩
    · exact .inr ⟨x, hx, hx', rfl⟩

/-- The low bits decide. -/
theorem and_mod {z w : Nat} (y : Nat) (hz : z < 2 ^ w) : y &&& z = (y % 2 ^ w) &&& z := by
  rw [← Nat.and_two_pow_sub_one_eq_mod, Nat.and_assoc, Nat.and_comm (2 ^ w - 1), Nat.and_two_pow_sub_one_of_lt_two_pow hz]

theorem signedUnit_apply (i x : Nat) : (512 : Int) * signedUnit i x =
    if x = i % 32 then if i &&& 32 = 0 then 512 else -512 else 0 := by
  have hlow : ∀ y < 2 ^ 6, y &&& 32 = 0 ↔ y < 32 := by decide
  have hbit : i &&& 32 = 0 ↔ (i >>> 5) % 2 = 0 := by
    rw [and_mod i (show 32 < 2 ^ 6 by decide), hlow _ (Nat.mod_lt i (by decide)), Nat.shiftRight_eq_div_pow]
    omega
  rw [signedUnit, if_congr hbit rfl rfl]
  by_cases hx : x = i % 32
  · rw [if_pos hx, hx]
    split <;> simp
  · rw [if_neg hx]
    split <;> simp [unit_ne (Ne.symm hx)]

/-- Twelve bits place one pulse on each track. -/
theorem decAcelp2p_spec (index : Nat) : (decAcelp2pIn64 index).length = lCode ∧
    (∀ x < 32, (decAcelp2pIn64 index).getD (2 * x) 0 = (512 : Int) * signedUnit (index >>> 6) x) ∧
    ∀ x < 32, (decAcelp2pIn64 index).getD (2 * x + 1) 0 = (512 : Int) * signedUnit index x := by
  have hplace : (index >>> 5) &&& 0x3E = 2 * ((index >>> 6) % 32) := by
    have hlow : ∀ y < 2 ^ 6, y &&& 0x3E = 2 * (y / 2) := by decide
    rw [and_mod _ (show 0x3E < 2 ^ 6 by decide), hlow _ (Nat.mod_lt _ (by decide)), Nat.shiftRight_eq_div_pow,
      Nat.shiftRight_eq_div_pow]
    omega
  have hplace' : (index &&& 0x1F) <<< 1 + 1 = 2 * (index % 32) + 1 := by
    rw [show 0x1F = 2 ^ 5 - 1 by rfl, Nat.and_two_pow_sub_one_eq_mod, shiftLeft_one']
  have hlen := List.length_replicate (a := (0 : Int)) (n := lCode)
  simp only [decAcelp2pIn64, hplace, hplace']
  refine ⟨by simp only [List.length_set, List.length_replicate], fun x hx => ?_, fun x hx => ?_⟩
  · rw [getD_set _ (by rw [List.length_set, hlen]; simp only [lCode]; omega),
      if_neg (show ¬2 * (index % 32) + 1 = 2 * x by omega), getD_set _ (by rw [hlen]; simp only [lCode]; omega), getD_zeros, signedUnit_apply]
    exact if_congr (by omega) rfl rfl
  · rw [getD_set _ (by rw [List.length_set, hlen]; simp only [lCode]; omega), signedUnit_apply,
      getD_set _ (by rw [hlen]; simp only [lCode]; omega),
      if_neg (show ¬2 * ((index >>> 6) % 32) = 2 * x + 1 by omega), getD_zeros]
    exact if_congr (by omega) rfl rfl

/-- The code vectors with two tracks. -/
theorem codebook_two (h : nbBits ≤ nbbits7k) (code : List Int) :
    (∃ ind, List.Forall₂ (fun w v => v < 2 ^ w) (codeWidths nbBits false) ind ∧ decodeCode nbBits ind = code) ↔
      IsCode (pulseCounts nbBits) code := by
  have hcode : ∀ ind, decodeCode nbBits ind = decAcelp2pIn64 (ind.getD 0 0) := fun ind => if_pos h
  have hwidths : codeWidths nbBits false = [12] := by simp [codeWidths, h]
  have hdec := decodes_signedUnit.both Prod.mk decodes_signedUnit
  simp only [IsCode, pulseCounts, if_pos h, hwidths, hcode]
  constructor
  · rintro ⟨ind, -, rfl⟩
    obtain ⟨hlen, h0, h1⟩ := decAcelp2p_spec (ind.getD 0 0)
    refine ⟨hlen, fun k hk => ?_⟩
    obtain rfl | rfl : k = 0 ∨ k = 1 := by simp only [List.length_cons, List.length_nil] at hk; omega
    · exact ⟨_, sumOf_one.mpr (decodes_signedUnit.apply _), fun h => absurd h (by decide), h0⟩
    · exact ⟨_, sumOf_one.mpr (decodes_signedUnit.apply _), fun h => absurd h (by decide), h1⟩
  · rintro ⟨hlen, hcode⟩
    obtain ⟨u, hu, -, hxu⟩ := hcode 0 (by decide)
    obtain ⟨v, hv, -, hxv⟩ := hcode 1 (by decide)
    obtain ⟨index, hlt, heq⟩ := hdec.exists_lt ⟨v, u, sumOf_one.mp hv, sumOf_one.mp hu, rfl⟩
    obtain ⟨rfl, rfl⟩ := Prod.mk.inj heq
    obtain ⟨hlen', h0, h1⟩ := decAcelp2p_spec index
    refine ⟨[index], .cons hlt .nil, @code_ext _ _ 2 (by decide) rfl hlen' hlen fun k hk x hx => ?_⟩
    obtain rfl | rfl : k = 0 ∨ k = 1 := by omega
    · exact (h0 x hx).trans (hxu x hx).symm
    · exact (h1 x hx).trans (hxv x hx).symm

/-- **The codebook of each rate**: the indices that fill the bits sent for them are decoded to exactly the code vectors
with the number of pulses of the rate on each track. -/
theorem codebook_image (nbBits : Nat) (code : List Int) :
    (∃ ind, List.Forall₂ (fun w v => v < 2 ^ w) (codeWidths nbBits false) ind ∧ decodeCode nbBits ind = code) ↔
      IsCode (pulseCounts nbBits) code := by
  by_cases h : nbBits ≤ nbbits7k
  · exact codebook_two h code
  · exact codebook_four h code

end Rates

end Talk2Text.Amrwb
