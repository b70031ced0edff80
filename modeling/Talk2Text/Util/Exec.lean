import Mathlib.Data.List.Basic

/-!
# The environment of a command

What `os/exec` makes of a list of `name=value` entries: an entry is split at its first `=`, and the last entry of a
name is the one that counts. Entries are byte strings.

- `effective_append`: a list of entries overrides the list before it;
- `effective_pairs`: the entries of a map whose names are free of `=` give back the map.
-/

namespace Talk2Text.Exec

/-- `=`. -/
def equals : UInt8 := 0x3D

/-- An entry as the pair of its name and its value. -/
def pair (name value : List UInt8) : List UInt8 := name ++ equals :: value

/-- The name and the value of an entry; an entry without `=` has none. -/
def splitEntry : List UInt8 → Option (List UInt8 × List UInt8)
  | [] => none
  | b :: bs => if b = equals then some ([], bs) else (splitEntry bs).map fun (name, value) => (b :: name, value)

/-- The value of a name. -/
def effective (entries : List (List UInt8)) (name : List UInt8) : Option (List UInt8) :=
  (entries.filterMap splitEntry).reverse.lookup name

section Effective

variable {name value : List UInt8} {entries entries' : List (List UInt8)}

/-- An entry whose name is free of `=` is split after its name. -/
theorem splitEntry_pair (h : equals ∉ name) : splitEntry (pair name value) = some (name, value) := by
  induction name with
  | nil => simp [pair, splitEntry]
  | cons b name ih =>
    have hb : b ≠ equals := fun he => h (he ▸ List.mem_cons_self)
    have := ih fun hm => h (List.mem_cons_of_mem _ hm)
    unfold pair at this ⊢
    rw [List.cons_append, splitEntry, if_neg hb, this]
    rfl

@[simp] theorem effective_nil : effective [] name = none := rfl

/-- **Later entries override earlier ones.** -/
theorem effective_append :
    effective (entries ++ entries') name = (effective entries' name).or (effective entries name) := by
  rw [effective, List.filterMap_append, List.reverse_append, List.lookup_append]
  rfl

/-- An entry, after all others, gives its name a value and no other name. -/
theorem effective_concat_pair {n : List UInt8} (h : equals ∉ n) :
    effective (entries ++ [pair n value]) name = if name = n then some value else effective entries name := by
  rw [effective_append]
  have hs : effective [pair n value] name = if name = n then some value else none := by
    simp only [effective, List.filterMap_cons, splitEntry_pair h, List.filterMap_nil, List.reverse_cons,
      List.reverse_nil, List.nil_append, List.lookup_cons, List.lookup_nil]
    by_cases hn : name = n
    · simp [hn]
    · rw [if_neg hn, beq_eq_false_iff_ne.mpr hn]
  rw [hs]
  split <;> rfl

/-- **The entries of a map** with distinct names that are free of `=` give back the map. -/
theorem effective_pairs {members : List (List UInt8 × List UInt8)} (hnodup : (members.map Prod.fst).Nodup)
    (hfree : ∀ m ∈ members, equals ∉ m.1) :
    effective (members.map fun m => pair m.1 m.2) name = members.lookup name := by
  induction members with
  | nil => rfl
  | cons m members ih =>
    obtain ⟨hm, hfree⟩ := List.forall_mem_cons.mp hfree
    rw [List.map_cons, List.nodup_cons] at hnodup
    have hone : effective ([] ++ [pair m.1 m.2]) name = if name = m.1 then some m.2 else none :=
      effective_concat_pair hm
    rw [List.nil_append] at hone
    rw [List.map_cons, ← List.singleton_append, effective_append, ih hnodup.2 hfree, hone, List.lookup_cons]
    by_cases hn : name = m.1
    · have hnone : members.lookup name = none := by
        rw [List.lookup_eq_none_iff]
        intro p hp
        have hne : name ≠ p.1 := fun he => hnodup.1 (hn ▸ he ▸ List.mem_map_of_mem hp)
        simp [hne]
      rw [hnone, if_pos hn, hn]
      simp
    · rw [if_neg hn, beq_eq_false_iff_ne.mpr hn, Option.or_none]

end Effective

end Talk2Text.Exec
