import Talk2Text.Amrwb.Unsorting
import Talk2Text.Format.BitReader

/-!
# Parameters of a frame

`native/get_amr_wb_bits.c`, and the calls of `Serial_parm` in `native/pvamrwbdecoder.c` and
`native/dtx_decoder_amr_wb.c`: the speech bits are the voice-activity flag, the indices of the spectral vector, and for
each of the four subframes the pitch lag, the choice of its filter, the indices of the algebraic code, the gains and, at
the highest rate, the gain of the high band. For a frame that was lost, all but the filters and codes are still read,
from whatever the buffer holds.

- `serialParm_eq`: `Serial_parm` reads a number;
- `reads_subframe`, `reads_frame`, `reads_sid`: what the readers of the source read;
- `size_speech`: the parameters of a rate are its speech bits, all of them;
- `frame_format`: a frame of speech is its parameters, up to its padding.
-/

namespace Talk2Text.Amrwb

open Format

/-! ## `Serial_parm` -/

/-- The loop over pairs of bits. -/
def serialParmLoop : Nat → Nat → BitReader Nat
  | 0, value => pure value
  | i + 1, value => fun prms =>
    match prms with
    | b :: b' :: prms =>
      let value := value <<< 2
      let value := if b then value ||| 2 else value
      let value := if b' then value ||| 1 else value
      serialParmLoop i value prms
    | _ => none

/-- `Serial_parm`; it is `none` when it runs out of the buffer. -/
def serialParm (noOfBits : Nat) : BitReader Nat := fun prms =>
  match serialParmLoop (noOfBits >>> 1) 0 prms with
  | none => none
  | some (value, prms) =>
    if noOfBits &&& 1 = 0 then some (value, prms)
    else
      match prms with
      | [] => none
      | b :: prms =>
        let value := value <<< 1
        some (if b then value ||| 1 else value, prms)

/-- `Serial_parm_1bit`. -/
def serialParm1bit : BitReader Nat
  | [] => none
  | b :: prms => some (if b then 1 else 0, prms)

section Serial

/-- The value after one more bit, as `ofBits` computes it. -/
def pushBit (v : Nat) (b : Bool) : Nat := 2 * v + b.toNat

theorem shiftLeft_lor {v x k : Nat} (h : x < 2 ^ k) : v <<< k ||| x = v * 2 ^ k + x := by
  rw [← Nat.shiftLeft_add_eq_or_of_lt h, Nat.shiftLeft_eq]

theorem push_one (v : Nat) (b : Bool) : (if b then v <<< 1 ||| 1 else v <<< 1) = pushBit v b := by
  cases b
  · show v <<< 1 = 2 * v + 0
    rw [Nat.shiftLeft_eq]
    omega
  · show v <<< 1 ||| 1 = 2 * v + 1
    rw [shiftLeft_lor (by decide)]
    omega

theorem push_two (v : Nat) (b b' : Bool) :
    (if b' then (if b then v <<< 2 ||| 2 else v <<< 2) ||| 1 else if b then v <<< 2 ||| 2 else v <<< 2) =
      pushBit (pushBit v b) b' := by
  have h : ∀ x < 2 ^ 2, v <<< 2 ||| x = v * 4 + x := fun x => shiftLeft_lor
  have h0 : v <<< 2 = v * 4 := Nat.shiftLeft_eq v 2
  have h1 := h 1 (by decide)
  have h2 := h 2 (by decide)
  have h3 := h 3 (by decide)
  cases b <;> cases b'
  · show v <<< 2 = 2 * (2 * v + 0) + 0
    omega
  · show v <<< 2 ||| 1 = 2 * (2 * v + 0) + 1
    omega
  · show v <<< 2 ||| 2 = 2 * (2 * v + 1) + 0
    omega
  · show v <<< 2 ||| 2 ||| 1 = 2 * (2 * v + 1) + 1
    rw [Nat.or_assoc]
    exact h3.trans (by omega)

theorem serialParmLoop_eq (i value : Nat) (prms : List Bool) : serialParmLoop i value prms =
    if prms.length < 2 * i then none else some ((prms.take (2 * i)).foldl pushBit value, prms.drop (2 * i)) := by
  induction i generalizing value prms with
  | zero => rfl
  | succ i ih =>
    match prms with
    | [] => rfl
    | [_] => exact (if_pos (by rw [List.length_singleton]; omega)).symm
    | b :: b' :: prms =>
      simp only [serialParmLoop, push_two, ih]
      have hlen : (b :: b' :: prms).length < 2 * (i + 1) ↔ prms.length < 2 * i := by
        simp only [List.length_cons]
        omega
      have htwo : 2 * (i + 1) = 2 * i + 1 + 1 := by omega
      by_cases h : prms.length < 2 * i
      · rw [if_pos h, if_pos (hlen.mpr h)]
      · rw [if_neg h, if_neg (mt hlen.mp h), htwo]
        rfl

/-- **`Serial_parm` reads a number.** -/
theorem serialParm_eq (n : Nat) : serialParm n = readBits n := by
  funext prms
  have hshift : n >>> 1 = n / 2 := Nat.shiftRight_one n
  have hand : n &&& 1 = n % 2 := Nat.and_one_is_mod n
  rw [serialParm, readBits, serialParmLoop_eq, hshift, hand]
  by_cases hlen : prms.length < 2 * (n / 2)
  · rw [if_pos hlen, if_pos (by omega)]
  · rw [if_neg hlen]
    rcases Nat.mod_two_eq_zero_or_one n with hn | hn
    · have heven : 2 * (n / 2) = n := by omega
      rw [heven] at hlen
      simp only [hn, if_true, heven, if_neg hlen]
      rfl
    · have hodd : n = 2 * (n / 2) + 1 := by omega
      simp only [hn, Nat.one_ne_zero, if_false]
      cases hd : prms.drop (2 * (n / 2)) with
      | nil =>
        have := List.drop_eq_nil_iff.mp hd
        exact (if_pos (by omega)).symm
      | cons b rest =>
        have hget : prms[2 * (n / 2)]? = some b := by
          rw [← List.head?_drop, hd]
          rfl
        have hlt := (List.getElem?_eq_some_iff.mp hget).1
        have htake : prms.take n = prms.take (2 * (n / 2)) ++ [b] := by
          conv_lhs => rw [hodd, List.take_add_one, hget]
          rfl
        have hdrop : prms.drop n = rest := by
          conv_lhs => rw [hodd, ← List.tail_drop, hd]
          rfl
        rw [if_neg (by omega), htake, hdrop, ofBits_snoc]
        simp only [push_one]
        rfl

theorem serialParm1bit_eq : serialParm1bit = readBits 1 := by
  funext prms
  match prms with
  | [] => rfl
  | true :: _ => rfl
  | false :: _ => rfl

theorem reads_serialParm (n : Nat) : Reads (serialParm n) (· < 2 ^ n) (toBits n) n :=
  serialParm_eq n ▸ Reads.readBits n

theorem reads_serialParm1bit : Reads serialParm1bit (· < 2 ^ 1) (toBits 1) 1 :=
  serialParm1bit_eq ▸ Reads.readBits 1

end Serial

/-! ## Speech parameters -/

def nbbits7k : Nat := 132
def nbbits9k : Nat := 177
def nbbits12k : Nat := 253
def nbbits14k : Nat := 285
def nbbits16k : Nat := 317
def nbbits18k : Nat := 365
def nbbits20k : Nat := 397
def nbbits23k : Nat := 461
def nbbits24k : Nat := 477
def nbbitsSID : Nat := 35

/-- `AMR_WB_COMPRESSED`. -/
def amrWbCompressed : List Nat :=
  [nbbits7k, nbbits9k, nbbits12k, nbbits14k, nbbits16k, nbbits18k, nbbits20k, nbbits23k, nbbits24k, nbbitsSID]

def lSubfr : Nat := 64

/-- The first samples of the subframes. -/
def subframeStarts : List Nat := [0, lSubfr, 2 * lSubfr, 3 * lSubfr]

/-- `pit_flag`: zero where the lag is absolute. -/
def pitFlag (nbBits iSubfr : Nat) : Nat := if iSubfr = 2 * lSubfr ∧ nbBits > nbbits7k then 0 else iSubfr

/-- The parameters of a subframe. -/
structure Subframe where
  /-- The index of the pitch lag. -/
  index : Nat
  select : Nat
  /-- The indices of the algebraic code; none when the frame is not usable. -/
  ind : List Nat
  gainIndex : Nat
  corrGain : Nat
  deriving DecidableEq, Repr, Inhabited

structure Params where
  vadFlag : Nat
  /-- The indices of the spectral vector. -/
  ind : List Nat
  subframes : List Subframe
  deriving DecidableEq, Repr, Inhabited

def readIsf (nbBits : Nat) : BitReader (List Nat) :=
  if nbBits > nbbits7k then [8, 8, 6, 7, 7, 5, 5].mapM serialParm
  else do
    let ind0 ← serialParm 8
    let ind1 ← serialParm 8
    let ind2 ← serialParm 14
    let ind3 := ind2 &&& 0x007F
    let ind2 := ind2 >>> 7
    let ind4 ← serialParm 6
    pure [ind0, ind1, ind2, ind3, ind4]

def readLag (nbBits iSubfr : Nat) : BitReader Nat :=
  if pitFlag nbBits iSubfr = 0 then if nbBits ≤ nbbits9k then serialParm 8 else serialParm 9
  else if nbBits ≤ nbbits9k then serialParm 5 else serialParm 6

def readSelect (nbBits : Nat) (unusable : Bool) : BitReader Nat :=
  if unusable then pure 1 else if nbBits ≤ nbbits9k then pure 0 else serialParm1bit

def readCode (nbBits : Nat) (unusable : Bool) : BitReader (List Nat) :=
  if unusable then pure []
  else if nbBits ≤ nbbits7k then [12].mapM serialParm
  else if nbBits ≤ nbbits9k then (List.replicate 4 5).mapM serialParm
  else if nbBits ≤ nbbits12k then (List.replicate 4 9).mapM serialParm
  else if nbBits ≤ nbbits14k then [13, 13, 9, 9].mapM serialParm
  else if nbBits ≤ nbbits16k then (List.replicate 4 13).mapM serialParm
  else if nbBits ≤ nbbits18k then (List.replicate 4 2 ++ List.replicate 4 14).mapM serialParm
  else if nbBits ≤ nbbits20k then [10, 10, 2, 2, 10, 10, 14, 14].mapM serialParm
  else (List.replicate 8 11).mapM serialParm

def readGain (nbBits : Nat) : BitReader Nat := if nbBits ≤ nbbits9k then serialParm 6 else serialParm 7

def readCorrGain (nbBits : Nat) : BitReader Nat := if nbBits ≥ nbbits24k then serialParm 4 else pure 0

/-- What one round of the loop over the subframes reads. -/
def readSubframe (nbBits : Nat) (unusable : Bool) (iSubfr : Nat) : BitReader Subframe := do
  let index ← readLag nbBits iSubfr
  let select ← readSelect nbBits unusable
  let ind ← readCode nbBits unusable
  let gainIndex ← readGain nbBits
  let corrGain ← readCorrGain nbBits
  pure ⟨index, select, ind, gainIndex, corrGain⟩

/-- What `pvDecoder_AmrWb` reads of a frame of speech, or in place of one. -/
def readFrame (nbBits : Nat) (unusable : Bool) : BitReader Params := do
  let vadFlag ← serialParm1bit
  let ind ← readIsf nbBits
  let subframes ← subframeStarts.mapM (readSubframe nbBits unusable)
  pure ⟨vadFlag, ind, subframes⟩

/-! ## Their encoding -/

/-- A field of `w` bits, or the value `c` that is not sent. -/
def InField (w c v : Nat) : Prop := if w = 0 then v = c else v < 2 ^ w

instance (w c v : Nat) : Decidable (InField w c v) := inferInstanceAs (Decidable (if w = 0 then v = c else v < 2 ^ w))

def isfWidths (nbBits : Nat) : List Nat := if nbBits > nbbits7k then [8, 8, 6, 7, 7, 5, 5] else [8, 8, 7, 7, 6]

def lagWidth (nbBits iSubfr : Nat) : Nat :=
  if pitFlag nbBits iSubfr = 0 then if nbBits ≤ nbbits9k then 8 else 9 else if nbBits ≤ nbbits9k then 5 else 6

def selectWidth (nbBits : Nat) (unusable : Bool) : Nat := if unusable ∨ nbBits ≤ nbbits9k then 0 else 1

def codeWidths (nbBits : Nat) (unusable : Bool) : List Nat :=
  if unusable then []
  else if nbBits ≤ nbbits7k then [12]
  else if nbBits ≤ nbbits9k then List.replicate 4 5
  else if nbBits ≤ nbbits12k then List.replicate 4 9
  else if nbBits ≤ nbbits14k then [13, 13, 9, 9]
  else if nbBits ≤ nbbits16k then List.replicate 4 13
  else if nbBits ≤ nbbits18k then List.replicate 4 2 ++ List.replicate 4 14
  else if nbBits ≤ nbbits20k then [10, 10, 2, 2, 10, 10, 14, 14]
  else List.replicate 8 11

def gainWidth (nbBits : Nat) : Nat := if nbBits ≤ nbbits9k then 6 else 7

def corrGainWidth (nbBits : Nat) : Nat := if nbBits ≥ nbbits24k then 4 else 0

/-- Fields one after the other. -/
def fieldBits (ws vs : List Nat) : List Bool := (List.zipWith toBits ws vs).flatten

/-- The parameters of a subframe are in range. -/
structure Subframe.Fits (nbBits : Nat) (unusable : Bool) (iSubfr : Nat) (s : Subframe) : Prop where
  index : s.index < 2 ^ lagWidth nbBits iSubfr
  select : InField (selectWidth nbBits unusable) unusable.toNat s.select
  ind : List.Forall₂ (fun w v => v < 2 ^ w) (codeWidths nbBits unusable) s.ind
  gainIndex : s.gainIndex < 2 ^ gainWidth nbBits
  corrGain : InField (corrGainWidth nbBits) 0 s.corrGain

def Subframe.bits (nbBits : Nat) (unusable : Bool) (iSubfr : Nat) (s : Subframe) : List Bool :=
  toBits (lagWidth nbBits iSubfr) s.index ++ (toBits (selectWidth nbBits unusable) s.select ++
    (fieldBits (codeWidths nbBits unusable) s.ind ++ (toBits (gainWidth nbBits) s.gainIndex ++
      toBits (corrGainWidth nbBits) s.corrGain)))

def subframeSize (nbBits : Nat) (unusable : Bool) (iSubfr : Nat) : Nat :=
  lagWidth nbBits iSubfr + (selectWidth nbBits unusable + ((codeWidths nbBits unusable).sum +
    (gainWidth nbBits + corrGainWidth nbBits)))

/-- The parameters of a frame are in range. -/
structure Params.Fits (nbBits : Nat) (unusable : Bool) (p : Params) : Prop where
  vadFlag : p.vadFlag < 2
  ind : List.Forall₂ (fun w v => v < 2 ^ w) (isfWidths nbBits) p.ind
  subframes : List.Forall₂ (Subframe.Fits nbBits unusable) subframeStarts p.subframes

def Params.bits (nbBits : Nat) (unusable : Bool) (p : Params) : List Bool :=
  toBits 1 p.vadFlag ++ (fieldBits (isfWidths nbBits) p.ind ++
    (List.zipWith (Subframe.bits nbBits unusable) subframeStarts p.subframes).flatten)

def frameSizeBits (nbBits : Nat) (unusable : Bool) : Nat :=
  1 + ((isfWidths nbBits).sum + (subframeStarts.map (subframeSize nbBits unusable)).sum)

section Speech

variable (nbBits : Nat) (unusable : Bool)

theorem reads_fields (ws : List Nat) :
    Reads (ws.mapM serialParm) (List.Forall₂ (fun w v => v < 2 ^ w) ws) (fieldBits ws) ws.sum := by
  have h := Reads.mapM (f := serialParm) reads_serialParm ws
  rwa [List.map_id'] at h

/-- A value that is not sent. -/
theorem reads_absent (c : Nat) : Reads (pure c) (InField 0 c) (toBits 0) 0 :=
  (Reads.pure c).congr (fun _ => Iff.rfl) (fun _ _ => rfl)

theorem reads_field (w : Nat) (hw : w ≠ 0) (c : Nat) : Reads (serialParm w) (InField w c) (toBits w) w :=
  (reads_serialParm w).congr (fun _ => by rw [InField, if_neg hw]) (fun _ _ => rfl)

theorem reads_lag (iSubfr : Nat) : Reads (readLag nbBits iSubfr) (· < 2 ^ lagWidth nbBits iSubfr)
    (toBits (lagWidth nbBits iSubfr)) (lagWidth nbBits iSubfr) := by
  unfold readLag lagWidth
  split <;> split <;> exact reads_serialParm _

theorem reads_select : Reads (readSelect nbBits unusable) (InField (selectWidth nbBits unusable) unusable.toNat)
    (toBits (selectWidth nbBits unusable)) (selectWidth nbBits unusable) := by
  unfold readSelect selectWidth
  cases unusable with
  | true => exact reads_absent 1
  | false =>
    by_cases h : nbBits ≤ nbbits9k
    · simp only [Bool.false_eq_true, if_false, false_or, if_pos h]
      exact reads_absent 0
    · simp only [Bool.false_eq_true, if_false, false_or, if_neg h]
      exact reads_serialParm1bit

theorem reads_code : Reads (readCode nbBits unusable)
    (List.Forall₂ (fun w v => v < 2 ^ w) (codeWidths nbBits unusable)) (fieldBits (codeWidths nbBits unusable))
    (codeWidths nbBits unusable).sum := by
  unfold readCode codeWidths
  split
  · exact reads_fields []
  · repeat' split
    all_goals exact reads_fields _

theorem reads_gain : Reads (readGain nbBits) (· < 2 ^ gainWidth nbBits) (toBits (gainWidth nbBits))
    (gainWidth nbBits) := by
  unfold readGain gainWidth
  split <;> exact reads_serialParm _

theorem reads_corrGain : Reads (readCorrGain nbBits) (InField (corrGainWidth nbBits) 0)
    (toBits (corrGainWidth nbBits)) (corrGainWidth nbBits) := by
  unfold readCorrGain corrGainWidth
  split
  · exact reads_field 4 (by decide) 0
  · exact reads_absent 0

/-- **The parameters of a subframe.** -/
theorem reads_subframe (iSubfr : Nat) : Reads (readSubframe nbBits unusable iSubfr)
    (Subframe.Fits nbBits unusable iSubfr) (Subframe.bits nbBits unusable iSubfr)
    (subframeSize nbBits unusable iSubfr) := by
  refine (Reads.bind Subframe.index (reads_lag nbBits iSubfr) (fun index _ =>
    Reads.bind Subframe.select (reads_select nbBits unusable) (fun select _ =>
    Reads.bind Subframe.ind (reads_code nbBits unusable) (fun ind _ =>
    Reads.bind Subframe.gainIndex (reads_gain nbBits) (fun gainIndex _ =>
    Reads.bind Subframe.corrGain (reads_corrGain nbBits) (fun corrGain _ =>
    Reads.pure (Subframe.mk index select ind gainIndex corrGain)) ?_) ?_) ?_) ?_) ?_).congr ?_ ?_
  · exact fun _ s _ he => congrArg Subframe.corrGain he
  · exact fun _ s _ ⟨_, he⟩ => congrArg Subframe.gainIndex he
  · exact fun _ s _ ⟨_, _, he⟩ => congrArg Subframe.ind he
  · exact fun _ s _ ⟨_, _, _, he⟩ => congrArg Subframe.select he
  · exact fun _ s _ ⟨_, _, _, _, he⟩ => congrArg Subframe.index he
  · exact fun s => ⟨fun ⟨h₁, h₂, h₃, h₄, h₅, _⟩ => ⟨h₁, h₂, h₃, h₄, h₅⟩,
      fun ⟨h₁, h₂, h₃, h₄, h₅⟩ => ⟨h₁, h₂, h₃, h₄, h₅, rfl⟩⟩
  · intro s _
    rw [Subframe.bits, List.append_nil]

/-- At the lowest rate two indices are read as one number. -/
theorem reads_isf : Reads (readIsf nbBits) (List.Forall₂ (fun w v => v < 2 ^ w) (isfWidths nbBits))
    (fieldBits (isfWidths nbBits)) (isfWidths nbBits).sum := by
  unfold readIsf isfWidths
  split
  · exact reads_fields _
  have hand : ∀ v, v &&& 0x007F = v % 128 := fun v => Nat.and_two_pow_sub_one_eq_mod v 7
  have hshift : ∀ v, v >>> 7 = v / 128 := fun v => Nat.shiftRight_eq_div_pow v 7
  simp only [hand, hshift]
  refine (Reads.bind (fun l : List Nat => l.getD 0 0) (reads_serialParm 8) (fun ind0 _ =>
    Reads.bind (fun l : List Nat => l.getD 1 0) (reads_serialParm 8) (fun ind1 _ =>
    Reads.bind (fun l : List Nat => l.getD 2 0 * 128 + l.getD 3 0) (reads_serialParm 14) (fun ind2 _ =>
    Reads.bind (fun l : List Nat => l.getD 4 0) (reads_serialParm 6) (fun ind4 _ =>
    Reads.pure [ind0, ind1, ind2 / 128, ind2 % 128, ind4]) ?_) ?_) ?_) ?_).congr ?_ ?_
  · exact fun _ l _ he => congrArg (fun l : List Nat => l.getD 4 0) he
  · exact fun v l _ ⟨_, he⟩ => (congrArg (fun l : List Nat => l.getD 2 0 * 128 + l.getD 3 0) he).trans
      (by show v / 128 * 128 + v % 128 = v; omega)
  · exact fun _ l _ ⟨_, _, he⟩ => congrArg (fun l : List Nat => l.getD 1 0) he
  · exact fun _ l _ ⟨_, _, _, he⟩ => congrArg (fun l : List Nat => l.getD 0 0) he
  · intro l
    constructor
    · rintro ⟨h₁, h₂, h₃, h₄, he⟩
      rw [he]
      refine .cons h₁ (.cons h₂ (.cons ?_ (.cons (Nat.mod_lt _ (by decide)) (.cons h₄ .nil))))
      show (l.getD 2 0 * 128 + l.getD 3 0) / 128 < 2 ^ 7
      omega
    · intro h
      match l, h with
      | [v₀, v₁, v₂, v₃, v₄], .cons h₀ (.cons h₁ (.cons h₂ (.cons h₃ (.cons h₄ .nil)))) =>
        refine ⟨h₀, h₁, ?_, h₄, ?_⟩
        · show v₂ * 128 + v₃ < 2 ^ 14
          omega
        · show [v₀, v₁, v₂, v₃, v₄] = [v₀, v₁, (v₂ * 128 + v₃) / 128, (v₂ * 128 + v₃) % 128, v₄]
          rw [show (v₂ * 128 + v₃) / 128 = v₂ by omega, show (v₂ * 128 + v₃) % 128 = v₃ by omega]
  · intro l h
    match l, h with
    | [v₀, v₁, v₂, v₃, v₄], .cons h₀ (.cons h₁ (.cons h₂ (.cons h₃ (.cons h₄ .nil)))) =>
      have h14 : toBits 14 (v₂ * 128 + v₃) = toBits 7 v₂ ++ toBits 7 v₃ := toBits_add (w := 7) h₃
      simp only [List.getD_cons_zero, List.getD_cons_succ, h14, fieldBits, List.zipWith_cons_cons, List.zipWith_nil_left,
        List.flatten_cons, List.flatten_nil, List.append_assoc]

/-- **The parameters of a frame.** -/
theorem reads_frame : Reads (readFrame nbBits unusable) (Params.Fits nbBits unusable) (Params.bits nbBits unusable)
    (frameSizeBits nbBits unusable) := by
  refine (Reads.bind Params.vadFlag reads_serialParm1bit (fun vadFlag _ =>
    Reads.bind Params.ind (reads_isf nbBits) (fun ind _ =>
    Reads.bind Params.subframes (Reads.mapM (reads_subframe nbBits unusable) subframeStarts) (fun subframes _ =>
    Reads.pure (Params.mk vadFlag ind subframes)) ?_) ?_) ?_).congr ?_ ?_
  · exact fun _ p _ he => congrArg Params.subframes he
  · exact fun _ p _ ⟨_, he⟩ => congrArg Params.ind he
  · exact fun _ p _ ⟨_, _, he⟩ => congrArg Params.vadFlag he
  · exact fun p => ⟨fun ⟨h₁, h₂, h₃, _⟩ => ⟨h₁, h₂, h₃⟩, fun ⟨h₁, h₂, h₃⟩ => ⟨h₁, h₂, h₃, rfl⟩⟩
  · intro p _
    rw [Params.bits, List.append_nil]

end Speech

/-! ## Comfort noise -/

/-- The parameters of a silence descriptor. -/
structure Sid where
  ind : List Nat
  logEnIndex : Nat
  cnDith : Nat
  deriving DecidableEq, Repr, Inhabited

/-- What `dtx_dec_amr_wb` reads of a silence descriptor. -/
def readSid : BitReader Sid := do
  let ind ← [6, 6, 6, 5, 5].mapM serialParm
  let logEnIndex ← serialParm 6
  let cnDith ← serialParm1bit
  pure ⟨ind, logEnIndex, cnDith⟩

structure Sid.Fits (p : Sid) : Prop where
  ind : List.Forall₂ (fun w v => v < 2 ^ w) [6, 6, 6, 5, 5] p.ind
  logEnIndex : p.logEnIndex < 2 ^ 6
  cnDith : p.cnDith < 2

def Sid.bits (p : Sid) : List Bool :=
  fieldBits [6, 6, 6, 5, 5] p.ind ++ (toBits 6 p.logEnIndex ++ toBits 1 p.cnDith)

/-- **The parameters of a silence descriptor.** -/
theorem reads_sid : Reads readSid Sid.Fits Sid.bits nbbitsSID := by
  refine (Reads.bind Sid.ind (reads_fields [6, 6, 6, 5, 5]) (fun ind _ =>
    Reads.bind Sid.logEnIndex (reads_serialParm 6) (fun logEnIndex _ =>
    Reads.bind Sid.cnDith reads_serialParm1bit (fun cnDith _ =>
    Reads.pure (Sid.mk ind logEnIndex cnDith)) ?_) ?_) ?_).congr ?_ ?_
  · exact fun _ p _ he => congrArg Sid.cnDith he
  · exact fun _ p _ ⟨_, he⟩ => congrArg Sid.logEnIndex he
  · exact fun _ p _ ⟨_, _, he⟩ => congrArg Sid.ind he
  · exact fun p => ⟨fun ⟨h₁, h₂, h₃, _⟩ => ⟨h₁, h₂, h₃⟩, fun ⟨h₁, h₂, h₃⟩ => ⟨h₁, h₂, h₃, rfl⟩⟩
  · intro p _
    rw [Sid.bits, List.append_nil]

/-! ## Frames -/

/-- The speech bits of a mode. -/
def nbBitsOf (mode : Nat) : Nat := amrWbCompressed.getD mode 0

/-- **The parameters of a rate** are its speech bits, all of them; those of a lost frame are no more. -/
theorem size_speech {mode : Nat} (hm : mode < numOfSpmodes) : frameSizeBits (nbBitsOf mode) false = nbBitsOf mode ∧
    frameSizeBits (nbBitsOf mode) true ≤ nbBitsOf mode ∧ nbBitsOf mode = unpackedSize.getD mode 0 := by
  revert mode
  decide

/-- Decode a frame of speech without its header: `mime_unsorting` and what `pvDecoder_AmrWb` reads. -/
def speechParams (mode : Nat) (mem : Nat → UInt8) (bits : List Bool) (prevMode : Nat) : Option Params :=
  ((readFrame (nbBitsOf mode) false).run (mimeUnsorting mem bits mode true prevMode).bits).map Prod.fst

section Frames

variable {mode prevMode : Nat} {bits : List Bool} {after mem : Nat → UInt8}

theorem size_le_buffer (mode : Nat) : unpackedSize.getD mode 0 ≤ kamrwbNbBitsMax := by
  by_cases h : mode < 16
  · revert mode
    decide
  · rw [List.getD_eq_getElem?_getD, List.getElem?_eq_none (by simpa [unpackedSize] using h)]
    exact Nat.zero_le _

theorem length_buffer (hbits : bits.length = kamrwbNbBitsMax) (quality : Bool) :
    (mimeUnsorting mem bits mode quality prevMode).bits.length = kamrwbNbBitsMax := by
  rw [length_mimeUnsorting (hbits ▸ size_le_buffer mode), hbits]

/-- The parameters that are read are those of the first bits of the buffer. -/
theorem speechParams_eq (hm : mode < numOfSpmodes) (hbits : bits.length = kamrwbNbBitsMax) :
    ∃ p, p.Fits (nbBitsOf mode) false ∧ speechParams mode mem bits prevMode = some p ∧
      p.bits (nbBitsOf mode) false =
        (mimeUnsorting mem bits mode true prevMode).bits.take (unpackedSize.getD mode 0) := by
  obtain ⟨hsize, -, hnb⟩ := size_speech hm
  have hle : frameSizeBits (nbBitsOf mode) false ≤ (mimeUnsorting mem bits mode true prevMode).bits.length := by
    rw [length_buffer hbits, hsize, hnb]
    exact size_le_buffer mode
  obtain ⟨p, hp, hpb, hr⟩ := (reads_frame (nbBitsOf mode) false).exists_read hle
  refine ⟨p, hp, ?_, ?_⟩
  · rw [speechParams, hr]
    rfl
  · rw [hpb, hsize, hnb]

/-- What is read in place of a frame is in the buffer. -/
theorem exists_readFrame (hm : mode < numOfSpmodes) (hbits : bits.length = kamrwbNbBitsMax) (unusable : Bool) :
    ∃ p rest, p.Fits (nbBitsOf mode) unusable ∧ (readFrame (nbBitsOf mode) unusable).run bits = some (p, rest) := by
  obtain ⟨hsize, hlost, hnb⟩ := size_speech hm
  have hle : frameSizeBits (nbBitsOf mode) unusable ≤ bits.length := by
    have := size_le_buffer mode
    cases unusable <;> omega
  obtain ⟨p, hp, -, hr⟩ := (reads_frame (nbBitsOf mode) unusable).exists_read hle
  exact ⟨p, _, hp, hr⟩

/-- **A frame of speech is its parameters**: parameters in range are decoded from the frame that is packed from them,
and every frame has the bits, up to its padding, of the frame packed from what is decoded from it. Neither what the
buffer held before nor what follows the frame has a part in it. What is read in place of a frame that was lost is in the
buffer. -/
theorem frame_format {mode : Nat} (hm : mode < numOfSpmodes) {bits : List Bool}
    (hbits : bits.length = kamrwbNbBitsMax) (prevMode : Nat) (after : Nat → UInt8) :
    (∀ p : Params, p.Fits (nbBitsOf mode) false →
      speechParams mode (memory (pack mode (p.bits (nbBitsOf mode) false)) after) bits prevMode = some p) ∧
    (∀ mem, ∃ p : Params, p.Fits (nbBitsOf mode) false ∧ speechParams mode mem bits prevMode = some p ∧
      dataBits (memory (pack mode (p.bits (nbBitsOf mode) false)) after) (nbBitsOf mode) =
        dataBits mem (nbBitsOf mode)) ∧
    ∃ p rest, p.Fits (nbBitsOf mode) true ∧ (readFrame (nbBitsOf mode) true).run bits = some (p, rest) := by
  obtain ⟨hsize, -, hnb⟩ := size_speech hm
  refine ⟨fun p hp => ?_, fun mem => ?_, exists_readFrame hm hbits true⟩
  · have hlen := (reads_frame (nbBitsOf mode) false).length hp
    have hback := @unsort_pack mode prevMode true _ bits after (hlen.trans (hsize.trans hnb))
    obtain ⟨q, hq, hr, hqb⟩ := @speechParams_eq mode prevMode bits
      (memory (pack mode (p.bits (nbBitsOf mode) false)) after) hm hbits
    rw [hr, (reads_frame (nbBitsOf mode) false).enc_injective hq hp (hqb.trans hback)]
  · obtain ⟨p, hp, hr, hpb⟩ := @speechParams_eq mode prevMode bits mem hm hbits
    refine ⟨p, hp, hr, ?_⟩
    rw [hpb, hnb]
    exact pack_unsort

theorem frame_format_6600 :
    (∀ p : Params, p.Fits (nbBitsOf 0) false →
      speechParams 0 (memory (pack 0 (p.bits (nbBitsOf 0) false)) fun _ => 0) (List.replicate 477 false) 0 = some p) ∧
    (∀ mem, ∃ p : Params, p.Fits (nbBitsOf 0) false ∧ speechParams 0 mem (List.replicate 477 false) 0 = some p ∧
      dataBits (memory (pack 0 (p.bits (nbBitsOf 0) false)) fun _ => 0) (nbBitsOf 0) = dataBits mem (nbBitsOf 0)) ∧
    ∃ p rest, p.Fits (nbBitsOf 0) true ∧
      (readFrame (nbBitsOf 0) true).run (List.replicate 477 false) = some (p, rest) :=
  frame_format (by decide) List.length_replicate 0 fun _ => 0

end Frames

end Talk2Text.Amrwb
