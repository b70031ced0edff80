import Mathlib.Data.List.Nodup
import Talk2Text.Sys.Pool

/-!
# Keeping the most recent files

Owners with different numbers each create one file. An owner is guarded while it needs its file; when it has finished,
it raises the mark to its own number, and becomes a collector: it sees the files at least `w` below the mark, picks
those of owners that are not guarded, and removes them one by one. Nobody looks at the guards again before a removal.

- `Safe`: whatever the owners do, a file that is about to be removed is far enough below the mark and its owner has
  finished for good (`Safe.act`), so it is not guarded (`Safe.not_guarded`).
- `Complete`: as long as nothing goes wrong, a file below the window of a finished owner is seen by some collector, and
  only such files are missing (`Complete.act`). When all collectors are through, the files are those of the finished
  owners above the window (`Complete.files_iff`).
-/

namespace Talk2Text.Sys.Retention

/-- Where an owner is. -/
inductive Phase
  | fresh
  /-- Guarded; the file is open, and stored. -/
  | holding (opened stored : Bool)
  /-- Guarded, and about to give up. -/
  | failing
  /-- Gave up, without a stored file. -/
  | dropped
  /-- Finished, with a stored file. -/
  | done
  deriving DecidableEq, Repr

namespace Phase

def isHolding : Phase → Bool
  | .holding _ _ | .failing => true
  | _ => false

/-- The file may be there. -/
def opened : Phase → Bool
  | .fresh => false
  | .holding opened _ => opened
  | .failing | .dropped | .done => true

/-- Will not be guarded again. -/
def isOver : Phase → Bool
  | .dropped | .done => true
  | _ => false

/-- The file was stored. -/
def stored : Phase → Bool
  | .holding _ stored => stored
  | .done => true
  | _ => false

/-- The file is not going to be stored. -/
def failed : Phase → Bool
  | .failing | .dropped => true
  | _ => false

/-- An owner that may have a file is guarded or over. -/
theorem isOver_of_opened {p : Phase} (ho : p.opened = true) (hh : p.isHolding = false) : p.isOver = true := by
  cases p with
  | fresh => cases ho
  | holding opened stored => cases hh
  | failing => cases hh
  | dropped | done => rfl

theorem not_isHolding_of_isOver {p : Phase} (h : p.isOver = true) : p.isHolding = false := by
  cases p with
  | fresh | holding opened stored | failing => cases h
  | dropped | done => rfl

end Phase

/-- An owner, the numbers whose files it still has to deal with, and those it is going to remove. -/
structure Role where
  id : Nat
  phase : Phase
  sees : Nat → Prop
  victims : Nat → Prop

/-- What the owners share: the mark, the guarded numbers, and the numbers with a file. -/
structure Shared where
  high : Nat
  guarded : Nat → Prop
  files : Nat → Prop

/-- What one owner can do; `ok` is false when something goes wrong. -/
inductive Acts (w : Int) (σ : Shared) (r : Role) : Bool → Shared → Role → Prop
  /-- Loses sight of files that are gone or guarded, and picks files that are there and not guarded. -/
  | work (r' : Role) : r'.id = r.id → r'.phase = r.phase → (∀ c, r'.sees c → r.sees c) →
      (∀ c, r.sees c → σ.files c → ¬σ.guarded c → r'.sees c) →
      (∀ c, r'.victims c → r.victims c ∨ (r.sees c ∧ σ.files c ∧ ¬σ.guarded c)) → Acts w σ r true σ r'
  /-- Loses sight of files for another reason. -/
  | abort (r' : Role) : r'.id = r.id → r'.phase = r.phase → (∀ c, r'.sees c → r.sees c) →
      (∀ c, r'.victims c → r.victims c) → Acts w σ r false σ r'
  | remove (c : Nat) (r' : Role) : r'.id = r.id → r'.phase = r.phase → r.victims c →
      (∀ d, r'.sees d → r.sees d) → (∀ d, r.sees d → d ≠ c → r'.sees d) → (∀ d, r'.victims d → r.victims d) →
      Acts w σ r true { σ with files := fun d => σ.files d ∧ d ≠ c } r'
  | guard : r.phase = .fresh →
      Acts w σ r true { σ with guarded := fun d => σ.guarded d ∨ d = r.id } { r with phase := .holding false false }
  | create : r.phase = .holding false false →
      Acts w σ r true { σ with files := fun d => σ.files d ∨ d = r.id } { r with phase := .holding true false }
  /-- Opens something that is not a file of the directory. -/
  | open : r.phase = .holding false false → Acts w σ r false σ { r with phase := .holding true false }
  | store : r.phase = .holding true false → Acts w σ r true σ { r with phase := .holding true true }
  | skip : r.phase = .fresh → Acts w σ r true σ { r with phase := .dropped }
  /-- Fails; the file must not be open. -/
  | fail (opened : Bool) : r.phase = .holding opened false → Acts w σ r (!opened) σ { r with phase := .failing }
  | drop : r.phase = .failing →
      Acts w σ r true { σ with guarded := fun d => σ.guarded d ∧ d ≠ r.id } { r with phase := .dropped }
  | release (r' : Role) : r.phase = .holding true true → r'.id = r.id → r'.phase = .done →
      (∀ d, r'.sees d → (d : Int) ≤ (max r.id σ.high : Nat) - w) →
      (∀ d, σ.files d → (d : Int) ≤ (max r.id σ.high : Nat) - w → r'.sees d) → (∀ d, ¬r'.victims d) →
      Acts w σ r true { σ with high := max r.id σ.high, guarded := fun d => σ.guarded d ∧ d ≠ r.id } r'

section Set

variable {rs : List Role} {i : Nat} {r r' u : Role}

theorem mem_set_cases (h : u ∈ rs.set i r') : u = r' ∨ u ∈ rs := (List.mem_or_eq_of_mem_set h).symm

/-- An owner is still there, or is the one that moved. -/
theorem mem_set_of_mem (hi : rs[i]? = some r) (r' : Role) (hu : u ∈ rs) : u ∈ rs.set i r' ∨ u = r := by
  obtain ⟨j, hj⟩ := List.getElem?_of_mem hu
  by_cases hij : i = j
  · subst hij
    rw [hi] at hj
    exact Or.inr (Option.some.inj hj).symm
  · exact Or.inl (List.mem_of_getElem? (List.getElem?_set_ne hij ▸ hj))

theorem mem_set_self (hi : rs[i]? = some r) : r' ∈ rs.set i r' :=
  List.mem_set (List.getElem?_eq_some_iff.mp hi).1 r'

/-- What some owner has, some owner has after a step in which the moving owner keeps it. -/
theorem exists_mem_set {P : Role → Prop} (hi : rs[i]? = some r) (hk : P r → P r') (h : ∃ u ∈ rs, P u) :
    ∃ u ∈ rs.set i r', P u := by
  obtain ⟨u, hu, hp⟩ := h
  rcases mem_set_of_mem hi r' hu with hu | rfl
  · exact ⟨u, hu, hp⟩
  · exact ⟨r', mem_set_self hi, hk hp⟩

theorem map_id_set (hi : rs[i]? = some r) (hid : r'.id = r.id) : (rs.set i r').map Role.id = rs.map Role.id := by
  obtain ⟨hlt, rfl⟩ := List.getElem?_eq_some_iff.mp hi
  rw [List.map_set, hid, ← List.getElem_map Role.id (h := by rwa [List.length_map]), List.set_getElem_self]

end Set

/-! ## Safety -/

/-- What holds whatever the owners do. -/
structure Safe (w : Int) (σ : Shared) (rs : List Role) : Prop where
  nodup : (rs.map Role.id).Nodup
  guarded_iff : ∀ c, σ.guarded c ↔ ∃ r ∈ rs, r.id = c ∧ r.phase.isHolding = true
  files_opened : ∀ c, σ.files c → ∃ r ∈ rs, r.id = c ∧ r.phase.opened = true
  sees_le : ∀ r ∈ rs, ∀ c, r.sees c → (c : Int) ≤ σ.high - w
  victims_le : ∀ r ∈ rs, ∀ c, r.victims c → (c : Int) ≤ σ.high - w
  victims_over : ∀ r ∈ rs, ∀ c, r.victims c → ∃ u ∈ rs, u.id = c ∧ u.phase.isOver = true

section Safe

variable {w : Int} {σ σ' : Shared} {rs : List Role} {i : Nat} {r r' u : Role} {ok : Bool}

theorem Safe.inj (h : Safe w σ rs) (hr : r ∈ rs) (hu : u ∈ rs) (he : r.id = u.id) : r = u :=
  List.inj_on_of_nodup_map h.nodup hr hu he

/-- **A file that is about to be removed is not guarded.** -/
theorem Safe.not_guarded (h : Safe w σ rs) (hr : r ∈ rs) {c : Nat} (hv : r.victims c) : ¬σ.guarded c := by
  intro hg
  obtain ⟨u, hu, hid, hh⟩ := (h.guarded_iff c).mp hg
  obtain ⟨v, hv, hid', ho⟩ := h.victims_over r hr c hv
  rw [h.inj hu hv (hid.trans hid'.symm), Phase.not_isHolding_of_isOver ho] at hh
  cases hh

/-- A file without a guard belongs to an owner that is over. -/
theorem Safe.over_of_file (h : Safe w σ rs) {c : Nat} (hf : σ.files c) (hg : ¬σ.guarded c) :
    ∃ u ∈ rs, u.id = c ∧ u.phase.isOver = true := by
  obtain ⟨u, hu, hid, ho⟩ := h.files_opened c hf
  refine ⟨u, hu, hid, Phase.isOver_of_opened ho ?_⟩
  rw [← Bool.not_eq_true]
  exact fun hh => hg ((h.guarded_iff c).mpr ⟨u, hu, hid, hh⟩)

theorem safe_nil (w : Int) (σ : Shared) (hg : ∀ c, ¬σ.guarded c) (hf : ∀ c, ¬σ.files c) : Safe w σ [] where
  nodup := List.nodup_nil
  guarded_iff c := by simp [hg c]
  files_opened c h := absurd h (hf c)
  sees_le := by simp
  victims_le := by simp
  victims_over := by simp

/-- What the next state needs so that it is safe, given that the moving owner keeps its number. -/
theorem Safe.set (h : Safe w σ rs) (hi : rs[i]? = some r) (hid : r'.id = r.id)
    (hg : ∀ c, σ'.guarded c ↔ ∃ u ∈ rs.set i r', u.id = c ∧ u.phase.isHolding = true)
    (hf : ∀ c, σ'.files c → ∃ u ∈ rs.set i r', u.id = c ∧ u.phase.opened = true)
    (hhigh : σ.high ≤ σ'.high)
    (hsees : ∀ c, r'.sees c → (c : Int) ≤ σ'.high - w)
    (hvictims : ∀ c, r'.victims c → r.victims c ∨ (r.sees c ∧ σ.files c ∧ ¬σ.guarded c))
    (hover : r.phase.isOver = true → r'.phase.isOver = true) : Safe w σ' (rs.set i r') where
  nodup := by
    rw [map_id_set hi hid]
    exact h.nodup
  guarded_iff := hg
  files_opened := hf
  sees_le := by
    intro u hu c hc
    rcases mem_set_cases hu with rfl | hu
    · exact hsees c hc
    · have := h.sees_le u hu c hc
      omega
  victims_le := by
    intro u hu c hc
    have hr := List.mem_of_getElem? hi
    rcases mem_set_cases hu with rfl | hu
    · rcases hvictims c hc with hc | ⟨hc, -, -⟩
      · have := h.victims_le r hr c hc
        omega
      · have := h.sees_le r hr c hc
        omega
    · have := h.victims_le u hu c hc
      omega
  victims_over := by
    intro u hu c hc
    have hr := List.mem_of_getElem? hi
    have hc' : ∃ v ∈ rs, v.id = c ∧ v.phase.isOver = true := by
      rcases mem_set_cases hu with rfl | hu
      · rcases hvictims c hc with hc | ⟨-, hf, hg⟩
        · exact h.victims_over r hr c hc
        · exact h.over_of_file hf hg
      · exact h.victims_over u hu c hc
    exact exists_mem_set hi (fun hp => ⟨hid.trans hp.1, hover hp.2⟩) hc'

/-- The guards after a step of an owner that keeps its guard. -/
theorem Safe.guarded_keep (h : Safe w σ rs) (hi : rs[i]? = some r) (hid : r'.id = r.id)
    (hh : r'.phase.isHolding = r.phase.isHolding) (c : Nat) :
    σ.guarded c ↔ ∃ u ∈ rs.set i r', u.id = c ∧ u.phase.isHolding = true := by
  rw [h.guarded_iff c]
  constructor
  · exact exists_mem_set hi fun hp => ⟨hid.trans hp.1, hh.trans hp.2⟩
  · rintro ⟨u, hu, hc, hp⟩
    rcases mem_set_cases hu with rfl | hu
    · exact ⟨r, List.mem_of_getElem? hi, hid.symm.trans hc, hh.symm.trans hp⟩
    · exact ⟨u, hu, hc, hp⟩

/-- The guards after a step of an owner that takes its guard. -/
theorem Safe.guarded_gain (h : Safe w σ rs) (hi : rs[i]? = some r) (hid : r'.id = r.id)
    (hh : r'.phase.isHolding = true) (c : Nat) :
    (σ.guarded c ∨ c = r.id) ↔ ∃ u ∈ rs.set i r', u.id = c ∧ u.phase.isHolding = true := by
  rw [h.guarded_iff c]
  constructor
  · rintro (hc | rfl)
    · exact exists_mem_set hi (fun hp => ⟨hid.trans hp.1, hh⟩) hc
    · exact ⟨r', mem_set_self hi, hid, hh⟩
  · rintro ⟨u, hu, hc, hp⟩
    rcases mem_set_cases hu with rfl | hu
    · exact Or.inr (hc.symm.trans hid)
    · exact Or.inl ⟨u, hu, hc, hp⟩

/-- The guards after a step of an owner that gives its guard up. -/
theorem Safe.guarded_drop (h : Safe w σ rs) (hi : rs[i]? = some r) (hid : r'.id = r.id)
    (hh : r'.phase.isHolding = false) (c : Nat) :
    (σ.guarded c ∧ c ≠ r.id) ↔ ∃ u ∈ rs.set i r', u.id = c ∧ u.phase.isHolding = true := by
  rw [h.guarded_iff c]
  constructor
  · rintro ⟨⟨u, hu, hc, hp⟩, hne⟩
    rcases mem_set_of_mem hi r' hu with hm | rfl
    · exact ⟨u, hm, hc, hp⟩
    · exact absurd hc.symm hne
  · rintro ⟨u, hu, hc, hp⟩
    obtain ⟨j, hj⟩ := List.getElem?_of_mem hu
    rcases getElem?_set_cases hj with ⟨-, rfl⟩ | ⟨hji, hj⟩
    · rw [hh] at hp; cases hp
    · refine ⟨⟨u, List.mem_of_getElem? hj, hc, hp⟩, fun he => hji ?_⟩
      have hn := h.nodup
      have hu' : (rs.map Role.id)[j]? = some r.id := by rw [List.getElem?_map, hj, ← he, ← hc]; rfl
      have hr' : (rs.map Role.id)[i]? = some r.id := by rw [List.getElem?_map, hi]; rfl
      have hlt : j < (rs.map Role.id).length := (List.getElem?_eq_some_iff.mp hu').1
      exact (List.getElem?_inj hlt hn).mp (hu'.trans hr'.symm)

/-- The owners of the files after a step that creates none. -/
theorem Safe.files_keep (h : Safe w σ rs) (hi : rs[i]? = some r) (hid : r'.id = r.id)
    (ho : r.phase.opened = true → r'.phase.opened = true) (c : Nat) (hf : σ.files c) :
    ∃ u ∈ rs.set i r', u.id = c ∧ u.phase.opened = true :=
  exists_mem_set hi (fun hp => ⟨hid.trans hp.1, ho hp.2⟩) (h.files_opened c hf)

/-- **One action keeps the owners safe.** -/
theorem Safe.act (h : Safe w σ rs) (hi : rs[i]? = some r) (ha : Acts w σ r ok σ' r') : Safe w σ' (rs.set i r') := by
  have hr := List.mem_of_getElem? hi
  cases ha with
  | work r' hid hp hsub hkeep hv =>
    exact h.set hi hid (h.guarded_keep hi hid (by rw [hp])) (h.files_keep hi hid (by rw [hp]; exact id))
      (Nat.le_refl _) (fun c hc => h.sees_le r hr c (hsub c hc)) hv (by rw [hp]; exact id)
  | abort r' hid hp hsub hv =>
    exact h.set hi hid (h.guarded_keep hi hid (by rw [hp])) (h.files_keep hi hid (by rw [hp]; exact id))
      (Nat.le_refl _) (fun c hc => h.sees_le r hr c (hsub c hc)) (fun c hc => Or.inl (hv c hc))
      (by rw [hp]; exact id)
  | remove d r' hid hp hd hsub hkeep hv =>
    exact h.set hi hid (h.guarded_keep hi hid (by rw [hp]))
      (fun c hc => h.files_keep hi hid (by rw [hp]; exact id) c hc.1) (Nat.le_refl _)
      (fun c hc => h.sees_le r hr c (hsub c hc)) (fun c hc => Or.inl (hv c hc)) (by rw [hp]; exact id)
  | guard hp =>
    exact h.set hi rfl (h.guarded_gain hi rfl rfl) (h.files_keep hi rfl (by simp [hp, Phase.opened]))
      (Nat.le_refl _) (h.sees_le r hr) (fun c hc => Or.inl hc) (by simp [hp, Phase.isOver])
  | create hp =>
    refine h.set hi rfl (h.guarded_keep hi rfl (by rw [hp]; rfl)) ?_ (Nat.le_refl _) (h.sees_le r hr)
      (fun c hc => Or.inl hc) (by simp [hp, Phase.isOver])
    rintro c (hc | rfl)
    · exact exists_mem_set hi (fun hp => ⟨hp.1, rfl⟩) (h.files_opened c hc)
    · exact ⟨_, mem_set_self hi, rfl, rfl⟩
  | «open» hp =>
    exact h.set hi rfl (h.guarded_keep hi rfl (by rw [hp]; rfl)) (h.files_keep hi rfl fun _ => rfl) (Nat.le_refl _)
      (h.sees_le r hr) (fun c hc => Or.inl hc) (by simp [hp, Phase.isOver])
  | store hp =>
    exact h.set hi rfl (h.guarded_keep hi rfl (by rw [hp]; rfl)) (h.files_keep hi rfl fun _ => rfl) (Nat.le_refl _)
      (h.sees_le r hr) (fun c hc => Or.inl hc) (by simp [hp, Phase.isOver])
  | skip hp =>
    exact h.set hi rfl (h.guarded_keep hi rfl (by rw [hp]; rfl)) (h.files_keep hi rfl fun _ => rfl) (Nat.le_refl _)
      (h.sees_le r hr) (fun c hc => Or.inl hc) fun _ => rfl
  | fail opened hp =>
    exact h.set hi rfl (h.guarded_keep hi rfl (by rw [hp]; rfl)) (h.files_keep hi rfl fun _ => rfl) (Nat.le_refl _)
      (h.sees_le r hr) (fun c hc => Or.inl hc) (by simp [hp, Phase.isOver])
  | drop hp =>
    exact h.set hi rfl (h.guarded_drop hi rfl rfl) (h.files_keep hi rfl fun _ => rfl) (Nat.le_refl _)
      (h.sees_le r hr) (fun c hc => Or.inl hc) fun _ => rfl
  | release r' hp hid hp' hsees hall hv =>
    exact h.set hi hid (h.guarded_drop hi hid (by rw [hp']; rfl)) (h.files_keep hi hid fun _ => by rw [hp']; rfl)
      (Nat.le_max_right _ _) hsees (fun c hc => absurd hc (hv c)) fun _ => by rw [hp']; rfl

/-- The mark never goes back. -/
theorem Acts.high_le (ha : Acts w σ r ok σ' r') : σ.high ≤ σ'.high := by
  cases ha with
  | release => exact Nat.le_max_right _ _
  | _ => exact Nat.le_refl _

/-- A new owner, with a number of its own. -/
theorem Safe.spawn (h : Safe w σ rs) {c : Nat} (hc : ∀ r ∈ rs, r.id ≠ c) {new : Role} (hid : new.id = c)
    (hp : new.phase = .fresh) (hs : ∀ d, ¬new.sees d) (hv : ∀ d, ¬new.victims d) : Safe w σ (rs ++ [new]) where
  nodup := by
    rw [List.map_append, List.map_singleton, hid]
    refine List.nodup_append.mpr ⟨h.nodup, List.nodup_singleton c, ?_⟩
    rintro a ha b hb rfl
    obtain ⟨r, hr, rfl⟩ := List.mem_map.mp ha
    exact hc r hr (List.mem_singleton.mp hb)
  guarded_iff d := by simp [h.guarded_iff d, List.mem_append, or_and_right, exists_or, hp, Phase.isHolding]
  files_opened d hd := by
    obtain ⟨u, hu, hp⟩ := h.files_opened d hd
    exact ⟨u, List.mem_append_left _ hu, hp⟩
  sees_le u hu d hd := by
    rcases List.mem_append.mp hu with hu | hu
    · exact h.sees_le u hu d hd
    · exact absurd (List.mem_singleton.mp hu ▸ hd) (hs d)
  victims_le u hu d hd := by
    rcases List.mem_append.mp hu with hu | hu
    · exact h.victims_le u hu d hd
    · exact absurd (List.mem_singleton.mp hu ▸ hd) (hv d)
  victims_over u hu d hd := by
    rcases List.mem_append.mp hu with hu | hu
    · obtain ⟨v, hv, hp⟩ := h.victims_over u hu d hd
      exact ⟨v, List.mem_append_left _ hv, hp⟩
    · exact absurd (List.mem_singleton.mp hu ▸ hd) (hv d)

/-- Somebody else removes files. -/
theorem Safe.unlink (h : Safe w σ rs) {files : Nat → Prop} (hf : ∀ c, files c → σ.files c) :
    Safe w { σ with files := files } rs :=
  { h with files_opened := fun c hc => h.files_opened c (hf c hc) }

end Safe

/-! ## Completeness -/

/-- What holds as long as nothing goes wrong. -/
structure Complete (w : Int) (σ : Shared) (rs : List Role) : Prop where
  high_le : ∀ r ∈ rs, r.phase = .done → r.id ≤ σ.high
  high_mem : σ.high = 0 ∨ ∃ r ∈ rs, r.id = σ.high ∧ r.phase = .done
  /-- A file below the window of an owner that has finished is in the sight of a collector. -/
  seen : ∀ r ∈ rs, r.phase = .done → (r.id : Int) ≤ σ.high - w → σ.files r.id → ∃ u ∈ rs, u.sees r.id
  /-- A stored file is missing only below the window. -/
  kept : ∀ r ∈ rs, r.phase.stored = true → ¬σ.files r.id → (r.id : Int) ≤ σ.high - w
  /-- A file that is open is there. -/
  opened : ∀ r ∈ rs, r.phase = .holding true false → σ.files r.id
  failed : ∀ r ∈ rs, r.phase.failed = true → ¬σ.files r.id

section Complete

variable {w : Int} {σ σ' : Shared} {rs : List Role} {i : Nat} {r r' u : Role} {ok : Bool}

theorem complete_nil (w : Int) (σ : Shared) (hh : σ.high = 0) : Complete w σ [] where
  high_le := by simp
  high_mem := Or.inl hh
  seen := by simp
  kept := by simp
  opened := by simp
  failed := by simp

/-- A new owner. -/
theorem Complete.spawn (h : Complete w σ rs) {new : Role} (hp : new.phase = .fresh) :
    Complete w σ (rs ++ [new]) := by
  have hnew : ∀ {P : Role → Prop}, (∀ r ∈ rs, P r) → P new → ∀ r ∈ rs ++ [new], P r := by
    intro P hold hn r hr
    rcases List.mem_append.mp hr with hr | hr
    · exact hold r hr
    · exact List.mem_singleton.mp hr ▸ hn
  constructor
  · exact hnew h.high_le fun e => by rw [hp] at e; cases e
  · rcases h.high_mem with h0 | ⟨u, hu, hd⟩
    · exact Or.inl h0
    · exact Or.inr ⟨u, List.mem_append_left _ hu, hd⟩
  · refine hnew (fun r hr hd hle hf => ?_) fun e => by rw [hp] at e; cases e
    obtain ⟨u, hu, hs⟩ := h.seen r hr hd hle hf
    exact ⟨u, List.mem_append_left _ hu, hs⟩
  · exact hnew h.kept fun e => by rw [hp] at e; cases e
  · exact hnew h.opened fun e => by rw [hp] at e; cases e
  · exact hnew h.failed fun e => by rw [hp] at e; cases e

/-- The file of an owner that has none open is not there. -/
theorem Safe.no_file (h : Safe w σ rs) (hr : r ∈ rs) (ho : r.phase.opened = false) : ¬σ.files r.id := by
  intro hf
  obtain ⟨u, hu, hid, hopen⟩ := h.files_opened r.id hf
  rw [h.inj hu hr hid, ho] at hopen
  cases hopen

/-- A finished owner is not guarded. -/
theorem Safe.not_guarded_of_over (h : Safe w σ rs) (hr : r ∈ rs) (ho : r.phase.isOver = true) : ¬σ.guarded r.id := by
  intro hg
  obtain ⟨u, hu, hid, hh⟩ := (h.guarded_iff r.id).mp hg
  rw [h.inj hu hr hid, Phase.not_isHolding_of_isOver ho] at hh
  cases hh

/-- An action of an owner that keeps its phase, loses sight only of files that are gone or guarded, and removes only
files below the window of owners that are over. -/
theorem Complete.keep (h : Complete w σ rs) (hsafe : Safe w σ rs) (hi : rs[i]? = some r) (hid : r'.id = r.id)
    (hp : r'.phase = r.phase) {files : Nat → Prop} (hfiles : ∀ c, files c → σ.files c)
    (hgone : ∀ c, σ.files c → ¬files c →
      (c : Int) ≤ σ.high - w ∧ ∃ u ∈ rs, u.id = c ∧ u.phase.isOver = true)
    (hsees : ∀ c, r.sees c → files c → ¬σ.guarded c → r'.sees c) :
    Complete w { σ with files := files } (rs.set i r') := by
  -- the owner that moves and the others alike: the number and the phase are those of an old owner
  have hold : ∀ u ∈ rs.set i r', ∃ v ∈ rs, v.id = u.id ∧ v.phase = u.phase := by
    intro u hu
    rcases mem_set_cases hu with rfl | hu
    · exact ⟨r, List.mem_of_getElem? hi, hid.symm, hp.symm⟩
    · exact ⟨u, hu, rfl, rfl⟩
  constructor
  · intro u hu hd
    obtain ⟨v, hv, hvid, hvp⟩ := hold u hu
    exact hvid ▸ h.high_le v hv (hvp.trans hd)
  · rcases h.high_mem with h0 | hd
    · exact Or.inl h0
    · exact Or.inr (exists_mem_set hi (fun e => ⟨hid.trans e.1, hp.trans e.2⟩) hd)
  · intro u hu hd hle hf
    obtain ⟨v, hv, hvid, hvp⟩ := hold u hu
    rw [← hvid] at hle hf ⊢
    have hng : ¬σ.guarded v.id := hsafe.not_guarded_of_over hv (by rw [hvp, hd]; rfl)
    exact exists_mem_set hi (fun hs => hsees _ hs hf hng) (h.seen v hv (hvp.trans hd) hle (hfiles _ hf))
  · intro u hu hst hf
    obtain ⟨v, hv, hvid, hvp⟩ := hold u hu
    rw [← hvid] at hf ⊢
    by_cases hf' : σ.files v.id
    · exact (hgone _ hf' hf).1
    · exact h.kept v hv (by rw [hvp]; exact hst) hf'
  · intro u hu ho
    obtain ⟨v, hv, hvid, hvp⟩ := hold u hu
    rw [← hvid]
    by_contra hf
    obtain ⟨-, x, hx, hxid, hxo⟩ := hgone v.id (h.opened v hv (hvp.trans ho)) hf
    rw [hsafe.inj hx hv hxid, hvp, ho] at hxo
    cases hxo
  · intro u hu hd hf
    obtain ⟨v, hv, hvid, hvp⟩ := hold u hu
    exact h.failed v hv (by rw [hvp]; exact hd) (hvid ▸ hfiles _ hf)

/-- An action that changes the phase of an owner that is not over, and neither files nor mark. -/
theorem Complete.phase (h : Complete w σ rs) (hi : rs[i]? = some r) (p : Phase) (hr : r.phase ≠ .done)
    (hp : p ≠ .done) (hst : p.stored = true → σ.files r.id) (ho : p = .holding true false → σ.files r.id)
    (hd : p.failed = true → ¬σ.files r.id) (guarded : Nat → Prop) :
    Complete w { σ with guarded := guarded } (rs.set i { r with phase := p }) := by
  have hnew : ∀ {P : Role → Prop}, (∀ u ∈ rs, P u) → P { r with phase := p } →
      ∀ u ∈ rs.set i { r with phase := p }, P u := by
    intro P hold hn u hu
    rcases mem_set_cases hu with rfl | hu
    · exact hn
    · exact hold u hu
  constructor
  · exact hnew h.high_le fun e => absurd e hp
  · rcases h.high_mem with h0 | hm
    · exact Or.inl h0
    · exact Or.inr (exists_mem_set hi (fun e => absurd e.2 hr) hm)
  · refine hnew (fun u hu hd hle hf => ?_) fun e => absurd e hp
    exact exists_mem_set hi (fun hs => hs) (h.seen u hu hd hle hf)
  · exact hnew h.kept fun e hf => absurd (hst e) hf
  · exact hnew h.opened fun e => ho e
  · exact hnew h.failed fun e => hd e

/-- An owner creates its file. -/
theorem Complete.create (h : Complete w σ rs) (hsafe : Safe w σ rs) (hi : rs[i]? = some r)
    (hp : r.phase = .holding false false) :
    Complete w { σ with files := fun d => σ.files d ∨ d = r.id }
      (rs.set i { r with phase := .holding true false }) := by
  have hr := List.mem_of_getElem? hi
  have hother : ∀ u ∈ rs, u.phase ≠ r.phase → u.id ≠ r.id := fun u hu hne he => hne (hsafe.inj hu hr he ▸ rfl)
  constructor
  · intro u hu hd
    rcases mem_set_cases hu with rfl | hu
    · cases hd
    · exact h.high_le u hu hd
  · rcases h.high_mem with h0 | hm
    · exact Or.inl h0
    · exact Or.inr (exists_mem_set hi (fun e => by rw [hp] at e; cases e.2) hm)
  · intro u hu hd hle hf
    rcases mem_set_cases hu with rfl | hu
    · cases hd
    · rcases hf with hf | he
      · exact exists_mem_set hi (fun hs => hs) (h.seen u hu hd hle hf)
      · exact absurd he (hother u hu (by rw [hd, hp]; simp))
  · intro u hu hst hf
    rcases mem_set_cases hu with rfl | hu
    · cases hst
    · exact h.kept u hu hst fun hf' => hf (Or.inl hf')
  · intro u hu ho
    rcases mem_set_cases hu with rfl | hu
    · exact Or.inr rfl
    · exact Or.inl (h.opened u hu ho)
  · intro u hu hd hf
    rcases mem_set_cases hu with rfl | hu
    · cases hd
    · rcases hf with hf | he
      · exact h.failed u hu hd hf
      · exact absurd he (hother u hu fun e => by rw [e, hp] at hd; cases hd)

/-- An owner finishes: it sees every file below the new window. -/
theorem Complete.release (h : Complete w σ rs) (hi : rs[i]? = some r) (hp : r.phase = .holding true true)
    (hid : r'.id = r.id) (hp' : r'.phase = .done)
    (hall : ∀ d, σ.files d → (d : Int) ≤ (max r.id σ.high : Nat) - w → r'.sees d) (guarded : Nat → Prop) :
    Complete w { σ with high := max r.id σ.high, guarded := guarded } (rs.set i r') := by
  have hr := List.mem_of_getElem? hi
  constructor
  · intro u hu hd
    rcases mem_set_cases hu with rfl | hu
    · exact hid ▸ Nat.le_max_left _ _
    · exact Nat.le_trans (h.high_le u hu hd) (Nat.le_max_right _ _)
  · refine Or.inr ?_
    rcases Nat.le_total r.id σ.high with hle | hle
    · rw [Nat.max_eq_right hle]
      rcases h.high_mem with h0 | hm
      · have h0' : r.id = σ.high := by omega
        exact ⟨r', mem_set_self hi, hid.trans h0', hp'⟩
      · exact exists_mem_set hi (fun e => by rw [hp] at e; cases e.2) hm
    · rw [Nat.max_eq_left hle]
      exact ⟨r', mem_set_self hi, hid, hp'⟩
  · intro u _ _ hle hf
    exact ⟨r', mem_set_self hi, hall u.id hf hle⟩
  · intro u hu hst hf
    have hmono : ∀ v ∈ rs, v.phase.stored = true → ¬σ.files v.id → (v.id : Int) ≤ (max r.id σ.high : Nat) - w := by
      intro v hv hst hf
      have := h.kept v hv hst hf
      omega
    rcases mem_set_cases hu with rfl | hu
    · rw [hid] at hf ⊢
      exact hmono r hr (by rw [hp]; rfl) hf
    · exact hmono u hu hst hf
  · intro u hu ho
    rcases mem_set_cases hu with rfl | hu
    · rw [hp'] at ho; cases ho
    · exact h.opened u hu ho
  · intro u hu hd
    rcases mem_set_cases hu with rfl | hu
    · rw [hp'] at hd; cases hd
    · exact h.failed u hu hd

/-- **One action keeps the files complete**, unless something goes wrong. -/
theorem Complete.act (h : Complete w σ rs) (hsafe : Safe w σ rs) (hi : rs[i]? = some r)
    (ha : Acts w σ r ok σ' r') (hok : ok = true) : Complete w σ' (rs.set i r') := by
  have hr := List.mem_of_getElem? hi
  cases ha with
  | work r' hid hp hsub hkeep hv =>
    exact h.keep hsafe hi hid hp (fun c hc => hc) (fun c hc hn => absurd hc hn) hkeep
  | abort => cases hok
  | remove d r' hid hp hd hsub hkeep hv =>
    refine h.keep hsafe hi hid hp (fun c hc => hc.1) ?_ fun c hc hf _ => hkeep c hc hf.2
    intro c hc hn
    have hcd : c = d := Decidable.byContradiction fun hne => hn ⟨hc, hne⟩
    exact hcd ▸ ⟨hsafe.victims_le r hr d hd, hsafe.victims_over r hr d hd⟩
  | guard hp =>
    exact h.phase hi _ (by simp [hp]) (by simp) (by simp [Phase.stored]) (by simp) (by simp [Phase.failed]) _
  | create hp => exact h.create hsafe hi hp
  | «open» => cases hok
  | store hp =>
    exact h.phase hi _ (by simp [hp]) (by simp) (fun _ => h.opened r hr hp) (by simp)
      (by simp [Phase.failed]) σ.guarded
  | skip hp =>
    exact h.phase hi _ (by simp [hp]) (by simp) (by simp [Phase.stored]) (by simp)
      (fun _ => hsafe.no_file hr (by rw [hp]; rfl)) σ.guarded
  | fail opened hp =>
    have hopen : opened = false := by simpa using hok
    exact h.phase hi _ (by simp [hp]) (by simp) (by simp [Phase.stored]) (by simp)
      (fun _ => hsafe.no_file hr (by rw [hp, hopen]; rfl)) σ.guarded
  | drop hp =>
    exact h.phase hi _ (by simp [hp]) (by simp) (by simp [Phase.stored]) (by simp)
      (fun _ => h.failed r hr (by rw [hp]; rfl)) _
  | release r' hp hid hp' hsees hall hv => exact h.release hi hp hid hp' hall _

/-- **What is left.** When all owners are over and the collectors are through, the files are those of the finished
owners above the window. -/
theorem Complete.files_iff (h : Complete w σ rs) (hsafe : Safe w σ rs) (hover : ∀ r ∈ rs, r.phase.isOver = true)
    (hthrough : ∀ r ∈ rs, ∀ c, ¬r.sees c) (c : Nat) :
    σ.files c ↔ (σ.high : Int) - w < c ∧ ∃ r ∈ rs, r.id = c ∧ r.phase = .done := by
  constructor
  · intro hf
    obtain ⟨r, hr, rfl, -⟩ := hsafe.files_opened c hf
    have hd : r.phase = .done := by
      have ho := hover r hr
      cases hp : r.phase with
      | fresh | holding | failing => rw [hp] at ho; cases ho
      | dropped => exact absurd hf (h.failed r hr (by rw [hp]; rfl))
      | done => rfl
    refine ⟨?_, r, hr, rfl, hd⟩
    by_contra hle
    obtain ⟨u, hu, hs⟩ := h.seen r hr hd (by omega) hf
    exact hthrough u hu _ hs
  · rintro ⟨hlt, r, hr, rfl, hd⟩
    by_contra hf
    have := h.kept r hr (by rw [hd]; rfl) hf
    omega

/-- When all owners are over, nothing is guarded. -/
theorem Safe.unguarded (h : Safe w σ rs) (hover : ∀ r ∈ rs, r.phase.isOver = true) (c : Nat) : ¬σ.guarded c := by
  intro hg
  obtain ⟨r, hr, -, hh⟩ := (h.guarded_iff c).mp hg
  rw [Phase.not_isHolding_of_isOver (hover r hr)] at hh
  cases hh

end Complete

end Talk2Text.Sys.Retention
