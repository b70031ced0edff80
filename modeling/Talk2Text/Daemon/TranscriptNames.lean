import Talk2Text.Daemon.Retention

/-!
# The names of transcripts

The pruner parses the names in the transcript directory back into clip IDs. A name is removed long after it was picked,
outside the mutex; `Picks` is the step in which it was picked and the protection of a clip was checked.

- `remove_picked`: what is removed was picked before, in the same goroutine;
- `transcript_names_exact`: the pruner recognises exactly the names of transcripts, so what is removed is the transcript
  of the clip that was checked.
-/

namespace Talk2Text.Daemon

open Sys RuntimeDir Format

variable {host : OutputHost} {dir : List Entry} {s s' : Output} {i : Nat} {name : String}

/-- Goroutine `i` holds `muTranscripts`, finds a regular file of this name, the transcript of clip `c`, within the cutoff,
and the clip not protected. -/
structure Picks (i : Nat) (name : String) (c : Nat) (st : Step Output OutputLabel OutputEvent) : Prop where
  step : ∃ t cutoff entries files, st.label = .thread i (.call none) ∧ st.pre.threads[i]? = some t ∧
    t.pc = .listing cutoff (name :: entries) files ∧ (c : Int) ≤ cutoff
  regular : ∃ e, lstat st.pre.dir name = some e ∧ e.type = .regular
  clipID : transcriptClipID name = c
  unprotected : c ∉ st.pre.protectedTranscripts

/-- A name comes into the list of a goroutine only when it is picked. -/
theorem mem_files_of_step {t t' : OutputThread} {m : OutputMove} {es : List OutputEvent}
    (h : outputStep host s i t m = some (s', t', es)) (hm : name ∈ t'.pc.files) :
    name ∈ t.pc.files ∨ m = .call none ∧ ∃ cutoff entries files, t.pc = .listing cutoff (name :: entries) files ∧
      (∃ e, lstat s.dir name = some e ∧ e.type = .regular) ∧ prunes cutoff s.protectedTranscripts name = true := by
  obtain ⟨session, text, transcribed, path, pc⟩ := t
  cases pc with
  | listing cutoff entries files =>
    cases entries with
    | nil =>
      cases m <;> cases h
      exact Or.inl hm
    | cons entry entries =>
      cases m with
      | next | writeError => cases h
      | call err =>
        cases err with
        | some err => cases h; exact Or.inl hm
        | none =>
          simp only [outputStep] at h
          split at h
          · cases h; exact Or.inl hm
          · rename_i e hl
            split at h
            · rename_i hpick
              cases h
              rcases List.mem_append.mp hm with hm | hm
              · exact Or.inl hm
              · obtain rfl := List.mem_singleton.mp hm
                exact Or.inr ⟨rfl, cutoff, entries, files, rfl, ⟨e, hl, hpick.1⟩, hpick.2⟩
            · cases h; exact Or.inl hm
  | removing files =>
    cases files with
    | nil =>
      cases m <;> cases h
      exact Or.inl hm
    | cons file files =>
      cases m with
      | next | writeError => cases h
      | call err => cases err <;> cases h <;> exact Or.inl (List.mem_cons_of_mem _ hm)
  | returned => cases m <;> cases h
  | _ =>
    -- there is no list of names after the step
    unfold outputStep at h
    dsimp only at h
    split at h
    all_goals (repeat' split at h) <;> cases h <;> contradiction

/-- A step of the system in which a name comes into the list of goroutine `i` picks it. -/
theorem picks_of_step {l : OutputLabel} {out : List OutputEvent} (hst : outputSystemStep host s l = some (s', out))
    (hm : ∃ t, s'.threads[i]? = some t ∧ name ∈ t.pc.files) :
    (∃ t, s.threads[i]? = some t ∧ name ∈ t.pc.files) ∨ ∃ c, 0 < c ∧ c ≤ maxClipID ∧ name = itoa c ∧
      Picks i name c ⟨s, l, out, s'⟩ := by
  obtain ⟨t, hi, hm⟩ := hm
  cases l with
  | processTranscript session text transcribed =>
    simp only [outputSystemStep] at hst
    split at hst
    · cases hst
      rw [List.getElem?_append] at hi
      split at hi
      · exact Or.inl ⟨t, hi, hm⟩
      · rw [List.mem_singleton.mp (List.mem_of_getElem? hi)] at hm
        cases hm
    · cases hst
  | cancel | unlink => cases hst; exact Or.inl ⟨t, hi, hm⟩
  | thread j m =>
    simp only [outputSystemStep] at hst
    split at hst
    · cases hst
    · rename_i t₀ hj
      obtain ⟨⟨s₁, t₁, es⟩, hstep, he⟩ := Option.map_eq_some_iff.mp hst
      cases he
      by_cases hij : j = i
      · subst hij
        obtain rfl : t₁ = t := by
          rw [List.getElem?_set_self (List.getElem?_eq_some_iff.mp hj).1] at hi
          exact Option.some.inj hi
        rcases mem_files_of_step hstep hm with hm | ⟨rfl, cutoff, entries, files, hpc, hreg, hpick⟩
        · exact Or.inl ⟨t₀, hj, hm⟩
        · obtain ⟨c, hpos, hmax, hname, hle, hprot⟩ := prunes_iff.mp hpick
          have hid : transcriptClipID name = c := by rw [hname, transcriptClipID_itoa hpos hmax]
          exact Or.inr ⟨c, hpos, hmax, hname, ⟨t₀, cutoff, entries, files, rfl, hj, hpc, hle⟩, hreg, hid, hprot⟩
      · rw [List.getElem?_set_ne hij] at hi
        exact Or.inl ⟨t, hi, hm⟩

/-- **What is removed was picked before**, in the same goroutine. -/
theorem remove_picked {h₁ h₂ : List (Step Output OutputLabel OutputEvent)} {st : Step Output OutputLabel OutputEvent}
    (r : Run (outputSystem host dir) (h₁ ++ st :: h₂) s) (hm : .remove name ∈ st.out) :
    ∃ i m c, st.label = .thread i m ∧ 0 < c ∧ c ≤ maxClipID ∧ name = itoa c ∧ ∃ st' ∈ h₁, Picks i name c st' := by
  obtain ⟨-, hst⟩ := r.mem_step (List.mem_append_right _ List.mem_cons_self)
  obtain ⟨i, m, t, hl, hi, hfile⟩ := remove_of_step hst hm
  -- at the start there are no goroutines
  have hstart : ∀ s₀, (outputSystem host dir).init s₀ → ¬∃ t, s₀.threads[i]? = some t ∧ name ∈ t.pc.files := by
    rintro _ rfl ⟨t, ht, -⟩
    cases ht
  obtain ⟨st', hmem, c, hpos, hmax, hname, hpick⟩ :=
    r.before.exists_step (E := fun st' => ∃ c, 0 < c ∧ c ≤ maxClipID ∧ name = itoa c ∧ Picks i name c st') hstart
      (fun _ _ _ _ hstep => picks_of_step hstep) ⟨t, hi, hfile⟩
  exact ⟨i, m, c, hl, hpos, hmax, hname, st', hmem, hpick⟩

/-- **The pruner recognises exactly the names of transcripts**: `transcriptClipID` inverts the naming of
`WriteTranscript` on every name; and in every run, what is removed is the transcript of a clip that was found not
protected before. -/
theorem transcript_names_exact :
    (∀ (name : List UInt8) (c : Nat), 1 ≤ c → c ≤ maxClipID →
      (transcriptClipIDOf name = c ↔ name = utf8 (itoa c))) ∧
    (∀ name : List UInt8, (∀ c, 1 ≤ c → c ≤ maxClipID → name ≠ utf8 (itoa c)) → transcriptClipIDOf name = 0) ∧
    (∀ name name' : List UInt8, transcriptClipIDOf name ≠ 0 → transcriptClipIDOf name' = transcriptClipIDOf name →
      name' = name) ∧
    ∀ (host : OutputHost) (dir : List Entry) (h₁ h₂ : List (Step Output OutputLabel OutputEvent))
      (st : Step Output OutputLabel OutputEvent) (s : Output) (name : String),
      Run (outputSystem host dir) (h₁ ++ st :: h₂) s → .remove name ∈ st.out →
        ∃ i m c, st.label = .thread i m ∧ transcriptsDir host.cfg.runtimeDir ++ "/" ++ name =
          transcriptPath host.cfg.runtimeDir c ∧ ∃ st' ∈ h₁, Picks i name c st' := by
  refine ⟨fun name c hpos hmax => ?_, fun name h => ?_, fun name name' h he => ?_, ?_⟩
  · rw [transcriptClipIDOf_eq_iff (Nat.ne_of_gt hpos)]
    exact and_iff_right hmax
  · by_contra h0
    obtain ⟨hmax, hname⟩ := (transcriptClipIDOf_eq_iff h0).mp rfl
    exact h _ (Nat.pos_of_ne_zero h0) hmax hname
  · obtain ⟨-, hname⟩ := (transcriptClipIDOf_eq_iff h).mp rfl
    obtain ⟨-, hname'⟩ := (transcriptClipIDOf_eq_iff h).mp he
    exact hname'.trans hname.symm
  · intro host dir h₁ h₂ st s name r hm
    obtain ⟨i, m, c, hl, -, -, rfl, hpick⟩ := remove_picked r hm
    exact ⟨i, m, c, hl, rfl, hpick⟩

/-- The transcript of clip 1 is picked and removed; a number out of range and a sign are no names. -/
theorem transcript_names_exact_twoClips :
    (∃ h₁ h₂ st s i, Run (outputSystem keepOne []) (h₁ ++ st :: h₂) s ∧ .remove (itoa 1) ∈ st.out ∧
      ∃ st' ∈ h₁, Picks i (itoa 1) 1 st') ∧
    transcriptClipIDOf (utf8 "18446744073709551617") = 0 ∧ transcriptClipIDOf (utf8 "+1") = 0 := by
  obtain ⟨-, -, -, hruns⟩ := transcript_names_exact
  refine ⟨?_, by decide +kernel, by decide +kernel⟩
  obtain ⟨h, s, r, hq⟩ := Run.exists_of_exec (M := outputSystem keepOne []) (s := Output.initial []) rfl twoClips
    (fun h _ => h.any fun st => st.out.contains (.remove (itoa 1))) (by decide +kernel)
  obtain ⟨st, hm, hc⟩ := List.any_eq_true.mp hq
  obtain ⟨h₁, h₂, rfl⟩ := List.append_of_mem hm
  have hc := List.contains_iff_mem.mp hc
  obtain ⟨i, m, c, -, -, st', hst', hpick⟩ := hruns keepOne [] h₁ h₂ st s (itoa 1) r hc
  obtain rfl : 1 = c := (transcriptClipID_itoa (by decide) (by decide)).symm.trans hpick.clipID
  exact ⟨h₁, h₂, st, s, i, r, hc, st', hst', hpick⟩

end Talk2Text.Daemon
