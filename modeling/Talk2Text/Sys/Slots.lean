import Talk2Text.Sys.Pool

/-!
# Admission by an optimistic counter

A thread that wants one of `limit` slots increments a counter. If the counter is then above the limit it is refused,
and takes its increment back in a later step; until then others see it counted.

`Slots.Ok` holds whatever the threads do (`ok_step`): the counter is the number of holders plus the number of threads
that are being refused, and at most `limit` threads hold a slot. A thread is refused exactly when holders and threads
being refused reach the limit together (`refused_iff`).
-/

namespace Talk2Text.Sys.Slots

inductive Role
  | idle
  | holding
  /-- Refused, with its increment still counted. -/
  | refusing
  deriving DecidableEq, Repr

namespace Role

def isHolding : Role → Bool
  | .holding => true
  | _ => false

def isRefusing : Role → Bool
  | .refusing => true
  | _ => false

end Role

/-- What one thread can do to the counter. -/
inductive Acts (limit : Nat) : Int → Role → Int → Role → Prop
  | stay (n : Int) (r : Role) : Acts limit n r n r
  | enter (n : Int) : n + 1 ≤ limit → Acts limit n .idle (n + 1) .holding
  | refuse (n : Int) : (limit : Int) < n + 1 → Acts limit n .idle (n + 1) .refusing
  | takeBack (n : Int) : Acts limit n .refusing (n - 1) .idle
  | release (n : Int) : Acts limit n .holding (n - 1) .idle

/-- One thread acts, or a new one appears without a slot, or nothing happens. -/
inductive PoolStep (limit : Nat) : Int → List Role → Int → List Role → Prop
  | stay (n : Int) (rs : List Role) : PoolStep limit n rs n rs
  | spawn (n : Int) (rs : List Role) : PoolStep limit n rs n (rs ++ [.idle])
  | act {n n' : Int} {rs : List Role} {i : Nat} {r r' : Role} : rs[i]? = some r → Acts limit n r n' r' →
      PoolStep limit n rs n' (rs.set i r')

structure Ok (limit : Nat) (n : Int) (rs : List Role) : Prop where
  count_eq : n = (rs.countP Role.isHolding + rs.countP Role.isRefusing : Nat)
  holding_le : rs.countP Role.isHolding ≤ limit

section Step

variable {limit : Nat} {n n' : Int} {rs rs' : List Role} {i : Nat} {r r' : Role}

theorem ok_nil : Ok limit 0 [] := ⟨rfl, Nat.zero_le _⟩

/-- **One action** keeps the slots. -/
theorem ok_acts (h : Ok limit n rs) (hi : rs[i]? = some r) (ha : Acts limit n r n' r') :
    Ok limit n' (rs.set i r') := by
  have hhold := countP_set_add Role.isHolding r' hi
  have href := countP_set_add Role.isRefusing r' hi
  have heq := h.count_eq
  have hle := h.holding_le
  cases ha with
  | stay => exact ⟨by omega, by omega⟩
  | _ =>
    simp only [Role.isHolding, Role.isRefusing, Bool.false_eq_true, if_true, if_false] at hhold href
    exact ⟨by omega, by omega⟩

/-- **One step** keeps the slots. -/
theorem ok_step (h : Ok limit n rs) (hs : PoolStep limit n rs n' rs') : Ok limit n' rs' := by
  cases hs with
  | stay => exact h
  | spawn =>
    refine ⟨by simp [h.count_eq, List.countP_append, Role.isHolding, Role.isRefusing], ?_⟩
    simpa [List.countP_append, Role.isHolding] using h.holding_le
  | act hi ha => exact ok_acts h hi ha

/-- **When the increment goes above the limit.** -/
theorem Ok.refused_iff (h : Ok limit n rs) :
    (limit : Int) < n + 1 ↔ limit ≤ rs.countP Role.isHolding + rs.countP Role.isRefusing := by
  have := h.count_eq
  omega

/-- The counter is zero when nobody holds a slot or is being refused. -/
theorem Ok.count_zero (h : Ok limit n rs) (hidle : ∀ r ∈ rs, r = .idle) : n = 0 := by
  have hhold : rs.countP Role.isHolding = 0 := List.countP_eq_zero.mpr fun r hr => by rw [hidle r hr]; decide
  have href : rs.countP Role.isRefusing = 0 := List.countP_eq_zero.mpr fun r hr => by rw [hidle r hr]; decide
  rw [h.count_eq, hhold, href]; rfl

end Step

end Talk2Text.Sys.Slots
