import Mathlib.Data.List.Basic

/-!
# Self-delimiting frames

A stream of symbols that is cut into frames by their first symbols: `size h` is the length of a frame with header `h`,
and zero when no frame starts with `h`.

- `exists_cut`: every stream is a sequence of frames and a rest from which no frame can be cut;
- `cut_prefix`: two cuts of one stream agree as far as both go, so the frames of a stream are determined by it
  (`frames_unique`, `cut_unique`).
-/

namespace Talk2Text.Format

universe u

variable {α : Type u} (size : α → Nat)

/-- A frame: its header fixes its length. -/
def IsFrame : List α → Prop
  | [] => False
  | h :: t => size h = t.length + 1

/-- A sequence of frames. -/
def Frames (fs : List (List α)) : Prop := ∀ f ∈ fs, IsFrame size f

/-- No frame can be cut from the front: nothing is left, no frame starts with the header, or the frame is cut short. -/
def Stuck : List α → Prop
  | [] => True
  | h :: t => size h = 0 ∨ t.length + 1 < size h

variable {size} {f g r r' l : List α} {fs gs : List (List α)}

theorem IsFrame.ne_nil (h : IsFrame size f) : f ≠ [] := by
  rintro rfl
  exact h

theorem IsFrame.length_pos (h : IsFrame size f) : 0 < f.length := List.length_pos_of_ne_nil h.ne_nil

@[simp] theorem frames_nil : Frames size ([] : List (List α)) := by simp [Frames]

theorem frames_cons : Frames size (f :: fs) ↔ IsFrame size f ∧ Frames size fs := List.forall_mem_cons

theorem Frames.take (h : Frames size fs) (n : Nat) : Frames size (fs.take n) :=
  fun _ hf => h _ (List.mem_of_mem_take hf)

/-- The front of a stream is a frame, or the stream is stuck. -/
theorem isFrame_take_or_stuck {h : α} {t : List α} :
    (size h ≠ 0 ∧ size h ≤ t.length + 1 ∧ IsFrame size ((h :: t).take (size h))) ∨ Stuck size (h :: t) := by
  by_cases h0 : size h = 0
  · exact Or.inr (Or.inl h0)
  · by_cases hl : t.length + 1 < size h
    · exact Or.inr (Or.inr hl)
    · obtain ⟨n, hn⟩ := Nat.exists_eq_succ_of_ne_zero h0
      refine Or.inl ⟨h0, Nat.not_lt.mp hl, ?_⟩
      rw [hn, List.take_succ_cons, IsFrame, List.length_take]
      omega

/-- Two frames at the front of one stream are the same frame. -/
theorem IsFrame.unique (hf : IsFrame size f) (hg : IsFrame size g) (h : f ++ r = g ++ r') : f = g ∧ r = r' := by
  cases f with
  | nil => exact hf.elim
  | cons x f =>
    cases g with
    | nil => exact hg.elim
    | cons y g =>
      have hxy : x = y := (List.cons.inj h).1
      have hlen : (x :: f).length = (y :: g).length := by
        rw [List.length_cons, List.length_cons, ← hf, ← hg, hxy]
      exact List.append_inj h hlen

/-- What is stuck does not start with a frame. -/
theorem not_stuck_append (hf : IsFrame size f) : ¬Stuck size (f ++ r) := by
  cases f with
  | nil => exact hf.elim
  | cons x f =>
    have hs : size x = f.length + 1 := hf
    simp only [List.cons_append, Stuck, List.length_append]
    omega

/-- **Every stream is cut** into frames and a rest from which no frame can be cut. -/
theorem exists_cut (size : α → Nat) (l : List α) : ∃ fs r, l = fs.flatten ++ r ∧ Frames size fs ∧ Stuck size r := by
  induction hn : l.length using Nat.strongRecOn generalizing l with
  | ind n ih =>
    cases l with
    | nil => exact ⟨[], [], rfl, frames_nil, trivial⟩
    | cons h t =>
      rcases @isFrame_take_or_stuck _ size h t with ⟨h0, hle, hf⟩ | hs
      · have hlt : ((h :: t).drop (size h)).length < n := by
          rw [List.length_drop, ← hn, List.length_cons]
          omega
        obtain ⟨fs, r, he, hfs, hr⟩ := ih _ hlt _ rfl
        refine ⟨(h :: t).take (size h) :: fs, r, ?_, frames_cons.mpr ⟨hf, hfs⟩, hr⟩
        rw [List.flatten_cons, List.append_assoc, ← he, List.take_append_drop]
      · exact ⟨[], h :: t, rfl, frames_nil, hs⟩

/-- **Two cuts of one stream** agree as far as both go. -/
theorem cut_prefix (hf : Frames size fs) (hg : Frames size gs) (hle : fs.length ≤ gs.length)
    (h : fs.flatten ++ r = gs.flatten ++ r') :
    fs = gs.take fs.length ∧ r = (gs.drop fs.length).flatten ++ r' := by
  induction fs generalizing gs with
  | nil => exact ⟨rfl, h⟩
  | cons f fs ih =>
    cases gs with
    | nil => exact absurd hle (Nat.not_succ_le_zero _)
    | cons g gs =>
      rw [List.flatten_cons, List.flatten_cons, List.append_assoc, List.append_assoc] at h
      obtain ⟨hf1, hfs⟩ := frames_cons.mp hf
      obtain ⟨hg1, hgs⟩ := frames_cons.mp hg
      obtain ⟨rfl, hrest⟩ := hf1.unique hg1 h
      obtain ⟨he, hr⟩ := ih hfs hgs (Nat.le_of_succ_le_succ hle) hrest
      exact ⟨by rw [List.length_cons, List.take_succ_cons, ← he], hr⟩

/-- A stuck rest ends every cut: no other cut of the stream has more frames. -/
theorem length_le_of_stuck (hf : Frames size fs) (hg : Frames size gs) (hr : Stuck size r)
    (h : fs.flatten ++ r = gs.flatten ++ r') : gs.length ≤ fs.length := by
  by_contra hlt
  rw [Nat.not_le] at hlt
  obtain ⟨-, he⟩ := cut_prefix hf hg (Nat.le_of_lt hlt) h
  obtain ⟨g, gs', hd⟩ := List.exists_cons_of_ne_nil (List.drop_eq_nil_iff.not.mpr (Nat.not_le.mpr hlt))
  have hmem : g ∈ gs := List.mem_of_mem_drop (hd ▸ List.mem_cons_self)
  rw [hd, List.flatten_cons, List.append_assoc] at he
  exact not_stuck_append (hg g hmem) (he ▸ hr)

/-- **A stream has one cut** with a stuck rest. -/
theorem cut_unique (hf : Frames size fs) (hg : Frames size gs) (hr : Stuck size r) (hr' : Stuck size r')
    (h : fs.flatten ++ r = gs.flatten ++ r') : fs = gs ∧ r = r' := by
  have hlen : fs.length = gs.length :=
    Nat.le_antisymm (length_le_of_stuck hg hf hr' h.symm) (length_le_of_stuck hf hg hr h)
  obtain ⟨he, hrest⟩ := cut_prefix hf hg (Nat.le_of_eq hlen) h
  rw [hlen, List.take_length] at he
  rw [hlen, List.drop_length] at hrest
  exact ⟨he, hrest⟩

/-- **The frames of a stream are determined by it.** -/
theorem frames_unique (hf : Frames size fs) (hg : Frames size gs) (h : fs.flatten = gs.flatten) : fs = gs :=
  (@cut_unique _ _ [] [] fs gs hf hg trivial trivial (by rw [h])).1

end Talk2Text.Format
