import Talk2Text.Sys.Pool

/-!
# A counting gate with a one-slot wake-up channel

Threads enter a region. Some enter unconditionally and count themselves; others reserve the region, which succeeds
only while the counter is zero, and wait for a wake-up otherwise. Whoever brings the counter back to zero sends a
token; the channel has one slot, so a second token is dropped. A thread that is woken up tries again, and may find the
region taken once more.

`Gate.Ok` holds whatever the threads do (`ok_step`): the counter is the number of threads inside, at most one of them
has reserved the region, and no wake-up is lost: while the counter is zero and a thread waits, a token is in the
channel or about to be sent, or another thread is about to try again.
-/

namespace Talk2Text.Sys.Gate

/-- What a thread is to the gate. -/
inductive Role
  | outside
  /-- Inside; `reserved` if it has found the counter zero. -/
  | inside (reserved : Bool)
  /-- It has brought the counter to zero, the token comes next. -/
  | signalling
  | waiting
  /-- It has taken a token and tries again. -/
  | retrying
  deriving DecidableEq, Repr

namespace Role

def isInside : Role → Bool
  | .inside _ => true
  | _ => false

def isReserved : Role → Bool
  | .inside true => true
  | _ => false

end Role

structure Counter where
  count : Int
  /-- The slot of the channel is full. -/
  token : Bool
  deriving DecidableEq, Repr

/-- What one thread can do. -/
inductive Acts : Counter → Role → Counter → Role → Prop
  | stay (c : Counter) (r : Role) : Acts c r c r
  | enter (c : Counter) : Acts c .outside { c with count := c.count + 1 } (.inside false)
  | reserve (c : Counter) (r : Role) : r = .outside ∨ r = .retrying → c.count = 0 →
      Acts c r { c with count := 1 } (.inside true)
  | wait (c : Counter) (r : Role) : r = .outside ∨ r = .retrying → c.count ≠ 0 → Acts c r c .waiting
  | leave (c : Counter) (b : Bool) : 0 < c.count - 1 →
      Acts c (.inside b) { c with count := c.count - 1 } .outside
  | leaveLast (c : Counter) (b : Bool) : c.count - 1 ≤ 0 →
      Acts c (.inside b) { c with count := c.count - 1 } .signalling
  | signal (c : Counter) : Acts c .signalling { c with token := true } .outside
  | wake (c : Counter) : c.token = true → Acts c .waiting { c with token := false } .retrying
  | abort (c : Counter) : Acts c .waiting c .outside

/-- One thread acts, or a new one appears outside, or nothing happens. -/
inductive PoolStep : Counter → List Role → Counter → List Role → Prop
  | stay (c : Counter) (rs : List Role) : PoolStep c rs c rs
  | spawn (c : Counter) (rs : List Role) : PoolStep c rs c (rs ++ [.outside])
  | act {c c' : Counter} {rs : List Role} {i : Nat} {r r' : Role} : rs[i]? = some r → Acts c r c' r' →
      PoolStep c rs c' (rs.set i r')

def Has (rs : List Role) (r : Role) : Prop := ∃ i : Nat, rs[i]? = some r

structure Ok (c : Counter) (rs : List Role) : Prop where
  count_eq : c.count = (rs.countP Role.isInside : Nat)
  reserved_le : rs.countP Role.isReserved ≤ 1
  wakeup : c.count = 0 → Has rs .waiting → c.token = true ∨ Has rs .signalling ∨ Has rs .retrying

section Step

variable {c c' : Counter} {rs rs' : List Role} {i : Nat} {r r' : Role}

theorem ok_nil (b : Bool) : Ok ⟨0, b⟩ [] := ⟨rfl, by simp, by rintro _ ⟨i, hi⟩; simp at hi⟩

/-- The acting thread has its new role. -/
theorem has_set (hi : rs[i]? = some r) : Has (rs.set i r') r' :=
  ⟨i, List.getElem?_set_self (List.getElem?_eq_some_iff.mp hi).1⟩

/-- A role that the acting thread does not take was there before. -/
theorem has_of_set {q : Role} (hne : q ≠ r') (h : Has (rs.set i r') q) : Has rs q := by
  obtain ⟨j, hj⟩ := h
  rcases getElem?_set_cases hj with ⟨-, rfl⟩ | ⟨-, hj⟩
  · exact absurd rfl hne
  · exact ⟨j, hj⟩

/-- A role that the acting thread does not have stays. -/
theorem has_set_of_ne {q : Role} (hi : rs[i]? = some r) (hne : q ≠ r) (h : Has rs q) : Has (rs.set i r') q := by
  obtain ⟨j, hj⟩ := h
  have hij : i ≠ j := by
    rintro rfl
    rw [hi] at hj
    exact hne (Option.some.inj hj).symm
  exact ⟨j, by rw [List.getElem?_set_ne hij]; exact hj⟩

/-- Nobody is inside while the counter is zero. -/
theorem Ok.not_inside (h : Ok c rs) (h0 : c.count = 0) (hi : rs[i]? = some r) : r.isInside = false := by
  rw [← Bool.not_eq_true]
  intro hr
  have hpos : 0 < rs.countP Role.isInside := countP_pos_iff_getElem?.mpr ⟨i, r, hi, hr⟩
  have := h.count_eq
  omega

/-- At most one thread has reserved the region. -/
theorem Ok.reserved_unique (h : Ok c rs) {j : Nat} (hi : rs[i]? = some (.inside true))
    (hj : rs[j]? = some (.inside true)) : i = j := by
  by_cases hij : i = j
  · exact hij
  · -- take thread `i` out: thread `j` is still counted
    have hset := countP_set_add Role.isReserved .outside hi
    have hj' : (rs.set i .outside)[j]? = some (.inside true) := by rw [List.getElem?_set_ne hij]; exact hj
    have hpos : 0 < (rs.set i .outside).countP Role.isReserved := countP_pos_iff_getElem?.mpr ⟨j, _, hj', rfl⟩
    have hle := h.reserved_le
    simp only [Role.isReserved, if_true, Bool.false_eq_true, if_false] at hset
    omega

/-- A thread that tries to reserve is not inside. -/
theorem not_inside_of_try (hr : r = .outside ∨ r = .retrying) : r.isInside = false ∧ r.isReserved = false := by
  rcases hr with rfl | rfl <;> exact ⟨rfl, rfl⟩

/-- **One action** keeps the gate. -/
theorem ok_acts (h : Ok c rs) (hi : rs[i]? = some r) (ha : Acts c r c' r') : Ok c' (rs.set i r') := by
  have hcount := countP_set_add Role.isInside r' hi
  have hres := countP_set_add Role.isReserved r' hi
  have heq := h.count_eq
  have hle := h.reserved_le
  -- the wake-up of a waiter that was there before the action
  have hold : c'.count = c.count → c'.token = c.token → .waiting ≠ r' → r ≠ .signalling → r ≠ .retrying →
      c'.count = 0 → Has (rs.set i r') .waiting →
      c'.token = true ∨ Has (rs.set i r') .signalling ∨ Has (rs.set i r') .retrying := by
    intro hc ht hr' hs hr h0 hw
    rw [hc] at h0
    rw [ht]
    exact (h.wakeup h0 (has_of_set hr' hw)).imp id
      (Or.imp (has_set_of_ne hi hs.symm) (has_set_of_ne hi hr.symm))
  cases ha with
  | stay =>
    have hset : rs.set i r = rs := by
      obtain ⟨hlt, rfl⟩ := List.getElem?_eq_some_iff.mp hi
      exact List.set_getElem_self hlt
    rw [hset]; exact h
  | enter =>
    simp only [Role.isInside, Role.isReserved, Bool.false_eq_true, if_true, if_false] at hcount hres
    exact ⟨by dsimp only; omega, by omega, fun h0 => by dsimp only at h0; omega⟩
  | reserve r hr h0 =>
    have hzero : rs.countP Role.isReserved ≤ rs.countP Role.isInside := by
      refine List.countP_mono_left fun q _ hq => ?_
      cases q <;> simp_all [Role.isReserved, Role.isInside]
    rw [(not_inside_of_try hr).1] at hcount
    rw [(not_inside_of_try hr).2] at hres
    simp only [Role.isInside, Role.isReserved, Bool.false_eq_true, if_true, if_false] at hcount hres
    exact ⟨by dsimp only; omega, by omega, fun h0 => by cases h0⟩
  | wait r hr h0 =>
    rw [(not_inside_of_try hr).1] at hcount
    rw [(not_inside_of_try hr).2] at hres
    simp only [Role.isInside, Role.isReserved, Bool.false_eq_true, if_false] at hcount hres
    exact ⟨by omega, by omega, fun h => absurd h h0⟩
  | leave b hpos =>
    cases b <;> simp only [Role.isInside, Role.isReserved, Bool.false_eq_true, if_true, if_false] at hcount hres <;>
      exact ⟨by dsimp only; omega, by omega, fun h0 => by dsimp only at h0; omega⟩
  | leaveLast b =>
    cases b <;> simp only [Role.isInside, Role.isReserved, Bool.false_eq_true, if_true, if_false] at hcount hres <;>
      exact ⟨by dsimp only; omega, by omega, fun _ _ => Or.inr (Or.inl (has_set hi))⟩
  | signal =>
    simp only [Role.isInside, Role.isReserved, Bool.false_eq_true, if_false] at hcount hres
    exact ⟨by dsimp only; omega, by omega, fun _ _ => Or.inl rfl⟩
  | wake =>
    simp only [Role.isInside, Role.isReserved, Bool.false_eq_true, if_false] at hcount hres
    exact ⟨by dsimp only; omega, by omega, fun _ _ => Or.inr (Or.inr (has_set hi))⟩
  | abort =>
    simp only [Role.isInside, Role.isReserved, Bool.false_eq_true, if_false] at hcount hres
    exact ⟨by omega, by omega, hold rfl rfl (by simp) (by simp) (by simp)⟩

/-- **One step** keeps the gate. -/
theorem ok_step (h : Ok c rs) (hs : PoolStep c rs c' rs') : Ok c' rs' := by
  cases hs with
  | stay => exact h
  | spawn =>
    refine ⟨by simp [h.count_eq, List.countP_append, Role.isInside], ?_, fun h0 hw => ?_⟩
    · simpa [List.countP_append, Role.isReserved] using h.reserved_le
    · have hgrow : ∀ {q : Role}, Has rs q → Has (rs ++ [.outside]) q := fun ⟨j, hj⟩ =>
        ⟨j, by rw [List.getElem?_append_left (List.getElem?_eq_some_iff.mp hj).1]; exact hj⟩
      obtain ⟨j, hj⟩ := hw
      rcases getElem?_concat_cases hj with ⟨-, hj⟩ | hj
      · cases hj
      · exact (h.wakeup h0 ⟨j, hj⟩).imp id (Or.imp hgrow hgrow)
  | act hi ha => exact ok_acts h hi ha

end Step

end Talk2Text.Sys.Gate
