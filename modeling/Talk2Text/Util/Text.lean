import Mathlib.Data.List.Basic

/-!
# White space

`util.CollapseSpace`: the words of a text, with single spaces in between.

- `fields_intercalate`: the words of words that are joined by spaces;
- `fields_collapseSpace`, `collapseSpace_idem`: collapsing keeps the words, and changes nothing the second time.
-/

namespace Talk2Text.Util

/-- `unicode.IsSpace`. -/
def isSpace (c : Char) : Bool :=
  (9 ≤ c.toNat && c.toNat ≤ 13) || (0x2000 ≤ c.toNat && c.toNat ≤ 0x200A) ||
    [0x20, 0x85, 0xA0, 0x1680, 0x2028, 0x2029, 0x202F, 0x205F, 0x3000].contains c.toNat

/-- `strings.Fields`. -/
def fields (cs : List Char) : List (List Char) := (cs.splitOnP isSpace).filter fun w => w ≠ []

/-- `CollapseSpace`. -/
def collapseSpace (s : String) : String := String.ofList ([' '].intercalate (fields s.toList))

/-- A word is not empty and has no space in it. -/
def IsWord (w : List Char) : Prop := w ≠ [] ∧ ∀ c ∈ w, isSpace c = false

variable {c : Char} {cs w : List Char} {ws : List (List Char)}

theorem notSpace_of_mem_splitOnP (h : w ∈ cs.splitOnP isSpace) : ∀ c ∈ w, isSpace c = false := by
  induction cs generalizing w with
  | nil =>
    rw [List.splitOnP_nil, List.mem_singleton] at h
    rw [h]
    exact fun _ hc => absurd hc List.not_mem_nil
  | cons x cs ih =>
    rw [List.splitOnP_cons_eq_if_modifyHead] at h
    obtain ⟨v, vs, hv⟩ := List.exists_cons_of_ne_nil (List.splitOnP_ne_nil isSpace cs)
    rw [hv] at h ih
    split at h
    · rcases List.mem_cons.mp h with rfl | h
      · exact fun _ hc => absurd hc List.not_mem_nil
      · exact ih h
    · rename_i hx
      rcases List.mem_cons.mp h with rfl | h
      · intro c hc
        rcases List.mem_cons.mp hc with rfl | hc
        · exact Bool.eq_false_iff.mpr hx
        · exact ih List.mem_cons_self c hc
      · exact ih (List.mem_cons_of_mem _ h)

theorem isWord_of_mem_fields (h : w ∈ fields cs) : IsWord w := by
  obtain ⟨hmem, hne⟩ := List.mem_filter.mp h
  exact ⟨of_decide_eq_true hne, notSpace_of_mem_splitOnP hmem⟩

/-- A word in front of a space. -/
theorem fields_append_cons (hw : IsWord w) (hc : isSpace c = true) (cs : List Char) :
    fields (w ++ c :: cs) = w :: fields cs := by
  rw [fields, List.splitOnP_append_cons w cs hc, List.splitOnP_eq_singleton hw.2, List.singleton_append]
  exact List.filter_cons_of_pos (decide_eq_true hw.1)

theorem fields_of_isWord (hw : IsWord w) : fields w = [w] := by
  rw [fields, List.splitOnP_eq_singleton hw.2]
  exact List.filter_cons_of_pos (decide_eq_true hw.1)

/-- **Words joined by spaces.** -/
theorem fields_intercalate (h : ∀ w ∈ ws, IsWord w) : fields ([' '].intercalate ws) = ws := by
  induction ws with
  | nil => rfl
  | cons w ws ih =>
    obtain ⟨hw, hws⟩ := List.forall_mem_cons.mp h
    cases ws with
    | nil => rw [List.intercalate_singleton, fields_of_isWord hw]
    | cons v vs =>
      rw [List.intercalate_cons_cons, List.append_assoc, List.singleton_append,
        fields_append_cons hw (by decide), ih hws]

/-- **Collapsing** keeps the words. -/
theorem fields_collapseSpace (s : String) : fields (collapseSpace s).toList = fields s.toList := by
  rw [collapseSpace, String.toList_ofList, fields_intercalate fun _ => isWord_of_mem_fields]

theorem collapseSpace_idem (s : String) : collapseSpace (collapseSpace s) = collapseSpace s := by
  rw [collapseSpace, fields_collapseSpace, collapseSpace]

/-- A text that is not changed is its words. -/
theorem words_of_collapsed {s : String} (h : collapseSpace s = s) (hne : s ≠ "") :
    ∃ words, words ≠ [] ∧ (∀ w ∈ words, IsWord w) ∧ s = String.ofList ([' '].intercalate words) := by
  refine ⟨fields s.toList, fun hnil => hne ?_, fun _ => isWord_of_mem_fields, h.symm⟩
  rw [← h, collapseSpace, hnil]
  rfl

end Talk2Text.Util
