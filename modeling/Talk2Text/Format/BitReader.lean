import Mathlib.Algebra.BigOperators.Group.List.Basic
import Mathlib.Data.List.Forall2
import Talk2Text.Format.BitFields

/-!
# Readers of bits

A reader takes a value off a string of bits. `Reads r P enc n` says that `r` reads exactly the encodings `enc a`, of
`n` bits, of the values `a` with `P a`: what can be read and what is written are the same thing. Readers are put
together with `>>=` and `mapM`, and so are these facts.

- `Reads.readBits`: a number of `w` bits;
- `Reads.pure`, `Reads.bind`, `Reads.mapM`: one reader after the other;
- `Reads.exists_read`, `Reads.run_congr`, `Reads.enc_injective`: what follows for every reader.
-/

namespace Talk2Text.Format

/-- A reader: the value and the rest, `none` when the bits run out. -/
abbrev BitReader : Type → Type := StateT (List Bool) Option

/-- The next `w` bits, as a number. -/
def readBits (w : Nat) : BitReader Nat := fun bs =>
  if bs.length < w then none else some (ofBits (bs.take w), bs.drop w)

/-- `r` reads exactly the encodings of the values with `P`. -/
structure Reads {α : Type} (r : BitReader α) (P : α → Prop) (enc : α → List Bool) (n : Nat) : Prop where
  read : ∀ {a}, P a → ∀ rest, r.run (enc a ++ rest) = some (a, rest)
  unread : ∀ {bs a rest}, r.run bs = some (a, rest) → P a ∧ bs = enc a ++ rest
  length : ∀ {a}, P a → (enc a).length = n
  enough : ∀ {bs}, n ≤ bs.length → ∃ a rest, r.run bs = some (a, rest)

namespace Reads

section Rules

variable {α β κ : Type} {r : BitReader α} {P P' : α → Prop} {enc enc' : α → List Bool} {n n' : Nat}

protected theorem readBits (w : Nat) : Reads (readBits w) (· < 2 ^ w) (toBits w) w where
  read := by
    intro v hv rest
    have hlen : ¬(toBits w v ++ rest).length < w := by simp
    have htake : (toBits w v ++ rest).take w = toBits w v := by
      rw [List.take_append_of_le_length (by simp), List.take_of_length_le (by simp)]
    have hdrop : (toBits w v ++ rest).drop w = rest := by
      rw [List.drop_append_of_le_length (by simp), List.drop_eq_nil_of_le (by simp), List.nil_append]
    show Format.readBits w (toBits w v ++ rest) = some (v, rest)
    rw [Format.readBits, if_neg hlen, htake, hdrop, ofBits_toBits hv]
  unread := by
    intro bs v rest h
    change (if bs.length < w then none else some (ofBits (bs.take w), bs.drop w)) = some (v, rest) at h
    split at h
    · cases h
    · rename_i hlen
      cases h
      have hw : (bs.take w).length = w := by rw [List.length_take]; omega
      have hlt := ofBits_lt (bs.take w)
      have hback := toBits_ofBits (bs.take w)
      rw [hw] at hlt hback
      exact ⟨hlt, by rw [hback, List.take_append_drop]⟩
  length := fun _ => length_toBits _ _
  enough := fun {bs} h => ⟨ofBits (bs.take w), bs.drop w, if_neg (by omega)⟩

protected theorem pure (a : α) : Reads (pure a) (· = a) (fun _ => []) 0 where
  read := by rintro _ rfl rest; rfl
  unread := by rintro bs b rest h; cases h; exact ⟨rfl, rfl⟩
  length := fun _ => rfl
  enough := fun {bs} _ => ⟨a, bs, rfl⟩

/-- One reader after the other; the first value is found again in the second one. -/
protected theorem bind {k : α → BitReader β} {Q : α → β → Prop} {enc' : α → β → List Bool} (π : β → α)
    (hr : Reads r P enc n) (hk : ∀ a, P a → Reads (k a) (Q a) (enc' a) n')
    (hπ : ∀ a b, P a → Q a b → π b = a) :
    Reads (r >>= k) (fun b => P (π b) ∧ Q (π b) b) (fun b => enc (π b) ++ enc' (π b) b) (n + n') where
  read := by
    rintro b ⟨hp, hq⟩ rest
    rw [StateT.run_bind, List.append_assoc, hr.read hp]
    exact (hk _ hp).read hq rest
  unread := by
    intro bs b rest h
    rw [StateT.run_bind] at h
    obtain ⟨⟨a, bs'⟩, ha, hb⟩ := Option.bind_eq_some_iff.mp h
    obtain ⟨hp, rfl⟩ := hr.unread ha
    obtain ⟨hq, rfl⟩ := (hk a hp).unread hb
    rw [hπ a b hp hq, List.append_assoc]
    exact ⟨⟨hp, hq⟩, rfl⟩
  length := by
    rintro b ⟨hp, hq⟩
    rw [List.length_append, hr.length hp, (hk _ hp).length hq]
  enough := by
    intro bs h
    obtain ⟨a, bs', ha⟩ := hr.enough (Nat.le_trans (Nat.le_add_right n n') h)
    obtain ⟨hp, rfl⟩ := hr.unread ha
    rw [List.length_append, hr.length hp] at h
    obtain ⟨b, rest, hb⟩ := (hk a hp).enough (Nat.le_of_add_le_add_left h)
    exact ⟨b, rest, by rw [StateT.run_bind, ha]; exact hb⟩

/-- The same values, described in another way. -/
theorem congr (h : Reads r P enc n) (hP : ∀ a, P a ↔ P' a) (he : ∀ a, P' a → enc a = enc' a) :
    Reads r P' enc' n where
  read := fun {a} ha rest => he a ha ▸ h.read ((hP a).mpr ha) rest
  unread := by
    intro bs a rest hr
    obtain ⟨ha, hbs⟩ := h.unread hr
    have ha' := (hP a).mp ha
    exact ⟨ha', he a ha' ▸ hbs⟩
  length := fun {a} ha => he a ha ▸ h.length ((hP a).mpr ha)
  enough := h.enough

/-- A list of readers. -/
protected theorem mapM [Inhabited α] {f : κ → BitReader α} {P : κ → α → Prop} {enc : κ → α → List Bool} {n : κ → Nat}
    (h : ∀ k, Reads (f k) (P k) (enc k) (n k)) :
    ∀ ks, Reads (ks.mapM f) (List.Forall₂ P ks) (fun as => (List.zipWith enc ks as).flatten) (ks.map n).sum
  | [] => (Reads.pure ([] : List α)).congr (fun as => by simp) (fun as h => by cases h; rfl)
  | k :: ks => by
    rw [List.mapM_cons]
    refine (Reads.bind List.head! (h k) (fun a _ => Reads.bind List.tail (Reads.mapM h ks)
      (fun as _ => Reads.pure (a :: as)) ?_) ?_).congr ?_ ?_
    · rintro as _ _ rfl
      rfl
    · rintro a as _ ⟨-, he⟩
      rw [he]
      rfl
    · intro as
      constructor
      · rintro ⟨hp, hq, he⟩
        exact he ▸ .cons hp hq
      · rintro (_ | ⟨hp, hq⟩)
        exact ⟨hp, hq, rfl⟩
    · rintro _ (_ | ⟨hp, hq⟩)
      simp

/-- **A string that is long enough** is the encoding of one value, and the rest. -/
theorem exists_read (h : Reads r P enc n) {bs : List Bool} (hn : n ≤ bs.length) :
    ∃ a, P a ∧ enc a = bs.take n ∧ r.run bs = some (a, bs.drop n) := by
  obtain ⟨a, rest, hr⟩ := h.enough hn
  obtain ⟨ha, rfl⟩ := h.unread hr
  have hlen := h.length ha
  refine ⟨a, ha, ?_, ?_⟩
  · rw [List.take_append_of_le_length (by omega), List.take_of_length_le (by omega)]
  · rw [hr, List.drop_append_of_le_length (by omega), List.drop_eq_nil_of_le (by omega), List.nil_append]

/-- What is read depends on the bits of the encoding only. -/
theorem run_congr (h : Reads r P enc n) {bs bs' : List Bool} (hn : n ≤ bs.length) (hb : bs.take n = bs'.take n) :
    ∃ a, P a ∧ r.run bs = some (a, bs.drop n) ∧ r.run bs' = some (a, bs'.drop n) := by
  have hlen := congrArg List.length hb
  rw [List.length_take, List.length_take] at hlen
  obtain ⟨a, ha, hbs, hr⟩ := h.exists_read hn
  refine ⟨a, ha, hr, ?_⟩
  have hread := h.read ha (bs'.drop n)
  rwa [hbs, hb, List.take_append_drop] at hread

/-- Two values are not encoded alike. -/
theorem enc_injective (h : Reads r P enc n) {a a' : α} (ha : P a) (ha' : P a') (he : enc a = enc a') : a = a' := by
  have hr := h.read ha []
  rw [he, h.read ha' []] at hr
  exact (Prod.mk.inj (Option.some.inj hr)).1.symm

end Rules

end Reads

end Talk2Text.Format
