import Mathlib.Algebra.Group.Nat.Defs
import Mathlib.Algebra.Ring.Int.Defs
import Talk2Text.Format.Strconv
import Talk2Text.RuntimeDir.Prepare

/-!
# Transcript files

`runtimedir/transcripts.go`: the transcript of a clip is the file with the clip ID as its name, in decimal.

- `transcriptClipID_eq_iff`: which names are clip IDs;
- `itoa_inj`: different clips have different files.
-/

namespace Talk2Text.RuntimeDir

open Format

/-! ## Names -/

/-- `math.MaxInt`, the largest clip ID. -/
def maxClipID : Nat := 2 ^ 63 - 1

/-- `strconv.Itoa`, of a number that is not negative. -/
def itoa (n : Nat) : String := n.repr

/-- `transcriptClipID`, of the bytes of any name: zero for a name that is no clip ID. The error of `Atoi` is ignored. -/
def transcriptClipIDOf (name : List UInt8) : Nat :=
  let clipID := (atoi name).1
  if clipID < 1 ∨ utf8 (itoa clipID.toNat) ≠ name then 0 else clipID.toNat

/-- `transcriptClipID` of a name that is a text. -/
def transcriptClipID (name : String) : Nat := transcriptClipIDOf (utf8 name)

/-- **Different clips have different names.** -/
theorem itoa_inj {m n : Nat} : itoa m = itoa n ↔ m = n := by
  refine ⟨fun h => ?_, congrArg itoa⟩
  rw [← ofDigits_repr m, ← ofDigits_repr n]
  exact congrArg (fun s => ofDigits 0 (utf8 s)) h

/-- **The names of clip IDs** are the decimal texts of the positive numbers in range. -/
theorem transcriptClipIDOf_eq_iff {name : List UInt8} {c : Nat} (hc : c ≠ 0) :
    transcriptClipIDOf name = c ↔ c ≤ maxClipID ∧ name = utf8 (itoa c) := by
  unfold transcriptClipIDOf
  dsimp only
  constructor
  · intro h
    split at h
    · exact absurd h.symm hc
    · rename_i hname
      obtain ⟨-, hname⟩ := not_or.mp hname
      have hle : (atoi name).1 ≤ maxClipID := atoi_le name
      rw [h, Decidable.not_not] at hname
      exact ⟨by omega, hname.symm⟩
  · rintro ⟨hle, rfl⟩
    have hread : (atoi (utf8 (itoa c))).1 = c := atoi_repr hle
    rw [hread, Int.toNat_natCast, if_neg]
    simp only [ne_eq, not_true_eq_false, or_false]
    omega

theorem transcriptClipID_eq_iff {name : String} {c : Nat} (hc : c ≠ 0) :
    transcriptClipID name = c ↔ c ≤ maxClipID ∧ name = itoa c := by
  rw [transcriptClipID, transcriptClipIDOf_eq_iff hc, utf8_inj]

theorem transcriptClipID_itoa {c : Nat} (hpos : 0 < c) (hle : c ≤ maxClipID) : transcriptClipID (itoa c) = c :=
  (transcriptClipID_eq_iff (Nat.ne_of_gt hpos)).mpr ⟨hle, rfl⟩

/-! ## The directory -/

/-- `TranscriptsDir`; the runtime directory is a clean path. -/
def transcriptsDir (runtimeDir : String) : String := runtimeDir ++ "/transcripts"

/-- The path of a transcript. -/
def transcriptPath (runtimeDir : String) (clipID : Nat) : String := transcriptsDir runtimeDir ++ "/" ++ itoa clipID

theorem transcriptPath_ne_empty (runtimeDir : String) (clipID : Nat) : transcriptPath runtimeDir clipID ≠ "" := by
  intro h
  have := congrArg String.toList h
  simp [transcriptPath] at this

/-- What `os.WriteFile` does when it opens the file: a new file is created, a regular one is truncated. -/
def openEntry (dir : List Entry) (name : String) : List Entry :=
  if dir.any fun e => e.name = name then
    dir.map fun e => if e.name = name ∧ e.type = .regular then { e with content := [] } else e
  else dir ++ [⟨name, .regular, []⟩]

/-- Write to the file that is open. -/
def writeEntry (dir : List Entry) (name : String) (content : List UInt8) : List Entry :=
  dir.map fun e => if e.name = name ∧ e.type = .regular then { e with content := e.content ++ content } else e

/-- `os.Remove`. -/
def removeEntry (dir : List Entry) (name : String) : List Entry := dir.filter fun e => e.name ≠ name

/-- There is a regular file with this name. -/
def HasFile (dir : List Entry) (name : String) : Prop := ∃ e ∈ dir, e.name = name ∧ e.type = .regular

section Dir

variable {dir : List Entry} {name name' : String} {content : List UInt8}

@[simp] theorem hasFile_writeEntry : HasFile (writeEntry dir name content) name' ↔ HasFile dir name' := by
  simp only [HasFile, writeEntry, List.mem_map]
  constructor
  · rintro ⟨-, ⟨e, he, rfl⟩, hn, ht⟩
    refine ⟨e, he, ?_⟩
    split at hn <;> split at ht <;> exact ⟨hn, ht⟩
  · rintro ⟨e, he, hn, ht⟩
    refine ⟨_, ⟨e, he, rfl⟩, ?_⟩
    split <;> exact ⟨hn, ht⟩

/-- Opening creates no other file. -/
theorem hasFile_openEntry (h : HasFile (openEntry dir name) name') : name' = name ∨ HasFile dir name' := by
  unfold openEntry at h
  split at h
  · obtain ⟨x, he, hn, ht⟩ := h
    obtain ⟨e, hm, rfl⟩ := List.mem_map.mp he
    refine Or.inr ⟨e, hm, ?_⟩
    split at hn <;> split at ht <;> exact ⟨hn, ht⟩
  · obtain ⟨e, he, hn, ht⟩ := h
    rcases List.mem_append.mp he with he | he
    · exact Or.inr ⟨e, he, hn, ht⟩
    · rw [List.mem_singleton.mp he] at hn
      exact Or.inl hn.symm

/-- Opening keeps the files that are there. -/
theorem HasFile.openEntry (h : HasFile dir name') : HasFile (openEntry dir name) name' := by
  obtain ⟨e, he, hn, ht⟩ := h
  unfold RuntimeDir.openEntry
  split
  · refine ⟨_, List.mem_map.mpr ⟨e, he, rfl⟩, ?_⟩
    split <;> exact ⟨hn, ht⟩
  · exact ⟨e, List.mem_append_left _ he, hn, ht⟩

/-- Opening a name that is not there, or a regular file, leaves a regular file. -/
theorem hasFile_openEntry_self (h : ∀ e ∈ dir, e.name = name → e.type = .regular) :
    HasFile (openEntry dir name) name := by
  unfold openEntry
  split
  · rename_i hany
    obtain ⟨e, he, hn⟩ := List.any_eq_true.mp hany
    have hn := of_decide_eq_true hn
    refine ⟨_, List.mem_map.mpr ⟨e, he, rfl⟩, ?_⟩
    rw [if_pos ⟨hn, h e he hn⟩]
    exact ⟨hn, h e he hn⟩
  · exact ⟨_, List.mem_append_right _ (List.mem_singleton_self _), rfl, rfl⟩

@[simp] theorem hasFile_removeEntry :
    HasFile (removeEntry dir name) name' ↔ HasFile dir name' ∧ name' ≠ name := by
  simp only [HasFile, removeEntry, List.mem_filter, decide_eq_true_eq]
  constructor
  · rintro ⟨e, ⟨he, hne⟩, rfl, ht⟩
    exact ⟨⟨e, he, rfl, ht⟩, hne⟩
  · rintro ⟨⟨e, he, rfl, ht⟩, hne⟩
    exact ⟨e, ⟨he, hne⟩, rfl, ht⟩

end Dir

end Talk2Text.RuntimeDir
