import Talk2Text.Daemon.Http

/-!
# Admission of HTTP requests

The requests of `httpSystem` at the slots of `Sys.Slots`: a request increments `httpAdmitted`, and either holds a slot
until its handler or the goroutine of its clip gives it back, or is refused and takes the increment back. Every step
is a step of the slots (`slots_step`).

- `admission_exact`: the counter is exact, at most `maxHTTPAdmitted` requests hold a slot, and an admitted request
  gives its slot back exactly once.
- `refused_when_full_iff`: a request is refused only while all slots are held, exactly when no admission step falls
  into a moment in which fewer slots are held but requests that are being refused fill up the counter.
- `refused_with_free_slot`: such moments exist.
-/

namespace Talk2Text.Daemon

open Sys

/-! ## Roles -/

/-- The handler at the slots: it holds one from its increment to its deferred function. -/
def HandlerPc.slot : HandlerPc → Slots.Role
  | .check | .increment _ | .returned => .idle
  | .refuse => .refusing
  | .readAudio _ | .checkContext _ _ | .allocate _ _ | .newSession _ _ _ => .holding
  | .respond _ unfinished | .deferred unfinished => if unfinished then .holding else .idle

/-- An accepted clip holds the slot until `transcribeHTTP` gives it back. -/
def HttpClipPc.slot : HttpClipPc → Slots.Role
  | .transcribeHTTP | .releaseShort | .cas _ | .select | .release _ => .holding
  | .short | .long _ | .returned => .idle

def Thread.slot : Thread → Slots.Role
  | .transcribe _ _ => .idle
  | .handling _ pc => pc.slot
  | .accepted _ _ clip => clip.slot

/-- The request holds an admission slot. -/
def Thread.holdsSlot (t : Thread) : Bool := t.slot.isHolding

/-- The request is between its increment above the limit and the decrement. -/
def Thread.refusing (t : Thread) : Bool := t.slot.isRefusing

/-- The request has not passed its increment yet. -/
def Thread.fresh : Thread → Bool
  | .handling _ .check | .handling _ (.increment _) => true
  | _ => false

/-- A request that is being handled, or whose clip has not started. -/
def Thread.alive : Thread → Bool
  | .transcribe _ _ => false
  | .handling _ pc => pc ≠ .returned
  | .accepted pc _ clip => pc ≠ .returned || clip.slot.isHolding

theorem Thread.slot_of_not_alive {t : Thread} (h : t.alive = false) : t.slot = .idle := by
  cases t with
  | transcribe => rfl
  | handling r pc =>
    have hpc : pc = .returned := by simpa [Thread.alive] using h
    rw [hpc]; rfl
  | accepted pc s clip =>
    simp only [Thread.alive, Bool.or_eq_false_iff] at h
    cases clip <;> first | rfl | cases h.2

def Http.slots (s : Http) : List Slots.Role := s.threads.map Thread.slot

def Http.holders (s : Http) : Nat := s.threads.countP Thread.holdsSlot

def Http.refusing (s : Http) : Nat := s.threads.countP Thread.refusing

/-! ## Taking and giving back -/

def HttpEvent.acquires (i : Nat) : HttpEvent → Bool
  | .acquire j => j = i
  | _ => false

def HttpEvent.releases (i : Nat) : HttpEvent → Bool
  | .release j _ => j = i
  | _ => false

/-- How often request `i` was admitted. -/
def acquired (i : Nat) (es : List HttpEvent) : Nat := es.countP (HttpEvent.acquires i)

/-- How often request `i` gave its slot back. -/
def released (i : Nat) (es : List HttpEvent) : Nat := es.countP (HttpEvent.releases i)

@[simp] theorem acquired_append (i : Nat) (es es' : List HttpEvent) :
    acquired i (es ++ es') = acquired i es + acquired i es' := List.countP_append ..

@[simp] theorem released_append (i : Nat) (es es' : List HttpEvent) :
    released i (es ++ es') = released i es + released i es' := List.countP_append ..

/-- How a step of goroutine `i` from `t` to `t'` treats the slots: `n` and `n'` are the counter, `es` the effects. -/
structure SlotEffect (i : Nat) (n : Int) (t : Thread) (n' : Int) (t' : Thread) (es : List HttpEvent) : Prop where
  acts : Slots.Acts maxHTTPAdmitted n t.slot n' t'.slot
  count : acquired i es + (if t.holdsSlot then 1 else 0) = released i es + (if t'.holdsSlot then 1 else 0)
  other : ∀ j, j ≠ i → acquired j es = 0 ∧ released j es = 0
  once : acquired i es = 0 ∨ (t.fresh = true ∧ t'.fresh = false ∧ acquired i es = 1)
  fresh : t'.fresh = true → t.fresh = true

section Effect

variable {host : HttpHost} {cfg : Config} {cancelled : Bool} {tr tr' : Transcriptions} {n n' : Int} {i : Nat}
  {session : Session} {m : ClipMove}

/-- The effects neither take nor give back a slot. -/
def Quiet (es : List HttpEvent) : Prop := ∀ j, acquired j es = 0 ∧ released j es = 0

theorem quiet_nil : Quiet [] := fun _ => ⟨rfl, rfl⟩

theorem quiet_clip (es : List ClipEvent) : Quiet (es.map .clip) := fun j => by
  simp [acquired, released, List.countP_eq_zero, HttpEvent.acquires, HttpEvent.releases]

theorem quiet_log (es : List String) : Quiet (es.map .log) := fun j => by
  simp [acquired, released, List.countP_eq_zero, HttpEvent.acquires, HttpEvent.releases]

theorem quiet_respond (i : Nat) (r : HttpResponse) : Quiet [.respond i r] := fun j => by
  simp [acquired, released, HttpEvent.acquires, HttpEvent.releases]

/-- A step that does not touch the slots. -/
theorem SlotEffect.stay {t t' : Thread} {es : List HttpEvent} (hs : t'.slot = t.slot) (hq : Quiet es)
    (hf : t'.fresh = true → t.fresh = true) : SlotEffect i n t n t' es where
  acts := hs ▸ .stay _ _
  count := by rw [(hq i).1, (hq i).2, Thread.holdsSlot, Thread.holdsSlot, hs]
  other := fun j _ => hq j
  once := Or.inl (hq i).1
  fresh := hf

/-- A step that gives the slot back. -/
theorem SlotEffect.release {t t' : Thread} (by' : Releaser) (hs : t.slot = .holding) (hs' : t'.slot = .idle)
    (hf : t'.fresh = false) : SlotEffect i n t (n - 1) t' [.release i by'] where
  acts := by rw [hs, hs']; exact .release n
  count := by simp [Thread.holdsSlot, hs, hs', Slots.Role.isHolding, acquired, released, HttpEvent.acquires,
    HttpEvent.releases]
  other := fun j hj => by simp [acquired, released, HttpEvent.acquires, HttpEvent.releases, hj.symm]
  once := Or.inl (by simp [acquired, HttpEvent.acquires])
  fresh := fun h => by rw [hf] at h; cases h

/-- **The steps of `transcribeHTTP`.** -/
theorem httpClipStep_slots {pc : AcceptedPc} {clip clip' : HttpClipPc} {es : List HttpEvent}
    (h : httpClipStep cfg cancelled tr n i session clip m = some (tr', n', clip', es)) :
    SlotEffect i n (.accepted pc session clip) n' (.accepted pc session clip') es := by
  unfold httpClipStep at h
  split at h
  · cases h
    exact .stay (by split <;> rfl) quiet_nil id
  · cases h; exact .release _ rfl rfl rfl
  · cases h; exact .stay rfl (quiet_clip [_]) id
  · split at h <;> cases h <;> exact .stay rfl quiet_nil id
  · split at h
    · cases h; exact .stay rfl quiet_nil id
    · cases h
  · split at h
    · cases h; exact .stay rfl quiet_nil id
    · cases h
  · cases h
    exact .release _ rfl (by split <;> rfl) (by split <;> rfl)
  · obtain ⟨⟨t₁, p₁, es₁⟩, hl, h⟩ := Option.map_eq_some_iff.mp h
    cases h
    exact .stay (by cases p₁ <;> rfl) (quiet_clip _) id
  · cases h

/-- **The steps of `handleHTTP`.** -/
theorem handlerStep_slots {r : HttpRequest} {pc : HandlerPc} {k k' : Nat} {t' : Thread} {es : List HttpEvent}
    (h : handlerStep host cancelled n k i r pc = some (n', k', t', es)) :
    SlotEffect i n (.handling r pc) n' t' es := by
  unfold handlerStep at h
  split at h
  · split at h <;> cases h <;> exact .stay rfl quiet_nil fun _ => rfl
  · rename_i environment
    split at h
    · rename_i hn
      cases h
      exact ⟨.refuse n hn, rfl, fun j _ => quiet_nil j, Or.inl rfl, fun h => by cases h⟩
    · rename_i hn
      cases h
      refine ⟨.enter n (Int.not_lt.mp hn), ?_, fun j hj => ?_, Or.inr ⟨rfl, rfl, ?_⟩, fun h => by cases h⟩
      · simp [Thread.holdsSlot, Thread.slot, HandlerPc.slot, Slots.Role.isHolding, acquired, released,
          HttpEvent.acquires, HttpEvent.releases]
      · simp [acquired, released, HttpEvent.acquires, HttpEvent.releases, hj.symm]
      · simp [acquired, HttpEvent.acquires]
  · cases h
    exact ⟨.takeBack n, rfl, fun j _ => quiet_nil j, Or.inl rfl, fun h => by cases h⟩
  · split at h
    · cases h; exact .stay rfl (quiet_log _) fun h => by cases h
    · cases h; exact .stay rfl quiet_nil fun h => by cases h
  · split at h <;> cases h <;> exact .stay rfl quiet_nil fun h => by cases h
  · cases h; exact .stay rfl quiet_nil fun h => by cases h
  · split at h
    · cases h; exact .stay rfl (quiet_log [_]) fun h => by cases h
    · cases h; exact .stay rfl quiet_nil fun h => by cases h
  · cases h; exact .stay rfl (quiet_respond _ _) fun h => by cases h
  · rename_i unfinished
    split at h
    · rename_i hu
      cases h
      exact .release _ (by simp [Thread.slot, HandlerPc.slot, hu]) rfl rfl
    · rename_i hu
      cases h
      exact .stay (by simp [Thread.slot, HandlerPc.slot, hu]) quiet_nil fun h => by cases h
  · cases h

end Effect

/-! ## The whole system -/

/-- What a step does to the goroutines, seen from the slots: nothing, or a new one, or goroutine `k` acts. -/
inductive SlotStep (s t : Http) (out : List HttpEvent) : Prop
  | stay : t.admitted = s.admitted → t.threads = s.threads → out = [] → SlotStep s t out
  | spawn (th : Thread) : t.admitted = s.admitted → t.threads = s.threads ++ [th] → th.slot = .idle → out = [] →
      SlotStep s t out
  | act (k : Nat) (th th' : Thread) : s.threads[k]? = some th → t.threads = s.threads.set k th' →
      SlotEffect k s.admitted th t.admitted th' out → SlotStep s t out

section System

variable {host : HttpHost} {s t : Http} {l : HttpLabel} {out : List HttpEvent}

theorem slotStep_acts (h : HttpActs host s l t out) : SlotStep s t out := by
  cases h with
  | transcribe session => exact .spawn _ rfl rfl rfl rfl
  | request r => exact .spawn _ rfl rfl rfl rfl
  | allocateClip => exact .stay rfl rfl rfl
  | cancel => exact .stay rfl rfl rfl
  | handler i r pc n k th es hi hs => exact .act i _ th hi rfl (handlerStep_slots hs)
  | respond i session clip pc pc' es hi hs =>
    refine .act i _ _ hi rfl (.stay rfl ?_ id)
    cases pc with
    | respond => cases hs; exact quiet_respond _ _
    | returned => cases hs
  | localClip i m session pc pc' tr es hi hs => exact .act i _ _ hi rfl (.stay rfl (quiet_clip es) id)
  | httpClip i m session pc clip clip' tr n es hi hs => exact .act i _ _ hi rfl (httpClipStep_slots hs)

/-- **Every step is a step of the slots.** -/
theorem slots_step (h : SlotStep s t out) :
    Slots.PoolStep maxHTTPAdmitted s.admitted s.slots t.admitted t.slots := by
  unfold Http.slots
  cases h with
  | stay hn ht => rw [hn, ht]; exact .stay _ _
  | spawn th hn ht hth =>
    rw [hn, ht, List.map_append, List.map_singleton, hth]
    exact .spawn _ _
  | act k th th' hk ht he =>
    rw [ht, List.map_set]
    exact .act (by rw [List.getElem?_map, hk]; rfl) he.acts

theorem slotsOk_of_reachable (hs : Reachable (httpSystem host) s) : Slots.Ok maxHTTPAdmitted s.admitted s.slots := by
  refine hs.induction (P := fun s => Slots.Ok maxHTTPAdmitted s.admitted s.slots) ?_
    fun s l t out _ h hst => Slots.ok_step h (slots_step (slotStep_acts (httpStep_acts hst)))
  rintro s rfl
  exact Slots.ok_nil

theorem countP_slots (s : Http) :
    s.slots.countP Slots.Role.isHolding = s.holders ∧ s.slots.countP Slots.Role.isRefusing = s.refusing := by
  unfold Http.slots
  rw [List.countP_map, List.countP_map]
  exact ⟨rfl, rfl⟩

/-- Request `i` holds a slot. -/
def Http.holds (s : Http) (i : Nat) : Bool := s.threads[i]?.any Thread.holdsSlot

/-- Request `i` has not passed its increment, or does not exist yet. -/
def Http.isFresh (s : Http) (i : Nat) : Bool := s.threads[i]?.all Thread.fresh

/-- What a history says about the slot of each request. -/
structure SlotHistory (h : List (Step Http HttpLabel HttpEvent)) (s : Http) : Prop where
  count : ∀ i, acquired i (outputs h) = released i (outputs h) + (if s.holds i then 1 else 0)
  fresh : ∀ i, s.isFresh i = true → acquired i (outputs h) = 0
  once : ∀ i, acquired i (outputs h) ≤ 1

/-- **One step** keeps what the history says. -/
theorem slotHistory_step {h : List (Step Http HttpLabel HttpEvent)} (hh : SlotHistory h s) (hst : SlotStep s t out) :
    SlotHistory (h ++ [⟨s, l, out, t⟩]) t := by
  have hkeep : ∀ i, (acquired i out = 0 ∧ released i out = 0) → (t.holds i = s.holds i) →
      (t.isFresh i = true → s.isFresh i = true) →
      acquired i (outputs (h ++ [⟨s, l, out, t⟩])) =
        released i (outputs (h ++ [⟨s, l, out, t⟩])) + (if t.holds i then 1 else 0) ∧
      (t.isFresh i = true → acquired i (outputs (h ++ [⟨s, l, out, t⟩])) = 0) ∧
      acquired i (outputs (h ++ [⟨s, l, out, t⟩])) ≤ 1 := by
    intro i hq hhold hfresh
    simp only [outputs_snoc, acquired_append, released_append, hq.1, hq.2, Nat.add_zero, hhold]
    exact ⟨hh.count i, fun hf => hh.fresh i (hfresh hf), hh.once i⟩
  suffices hall : ∀ i,
      acquired i (outputs (h ++ [⟨s, l, out, t⟩])) =
        released i (outputs (h ++ [⟨s, l, out, t⟩])) + (if t.holds i then 1 else 0) ∧
      (t.isFresh i = true → acquired i (outputs (h ++ [⟨s, l, out, t⟩])) = 0) ∧
      acquired i (outputs (h ++ [⟨s, l, out, t⟩])) ≤ 1 from
    ⟨fun i => (hall i).1, fun i => (hall i).2.1, fun i => (hall i).2.2⟩
  intro i
  cases hst with
  | stay _ ht ho =>
    subst ho
    exact hkeep i (quiet_nil i) (by rw [Http.holds, ht]; rfl) fun hf => by rwa [Http.isFresh, ht] at hf
  | spawn th _ ht hth ho =>
    subst ho
    refine hkeep i (quiet_nil i) ?_ fun hf => ?_
    · unfold Http.holds
      rw [ht]
      by_cases hi : i < s.threads.length
      · rw [List.getElem?_append_left hi]
      · by_cases hi' : i = s.threads.length
        · subst hi'
          simp [Thread.holdsSlot, hth, Slots.Role.isHolding]
        · rw [List.getElem?_eq_none (by simp; omega), List.getElem?_eq_none (by omega)]
    · unfold Http.isFresh at hf ⊢
      rw [ht] at hf
      by_cases hi : i < s.threads.length
      · rwa [List.getElem?_append_left hi] at hf
      · rw [List.getElem?_eq_none (by omega)]; rfl
  | act k th th' hk ht he =>
    by_cases hki : k = i
    · subst hki
      have hlt := (List.getElem?_eq_some_iff.mp hk).1
      have hs : s.holds k = th.holdsSlot := by rw [Http.holds, hk]; rfl
      have ht' : t.holds k = th'.holdsSlot := by rw [Http.holds, ht, List.getElem?_set_self hlt]; rfl
      have hfs : s.isFresh k = th.fresh := by rw [Http.isFresh, hk]; rfl
      have hft : t.isFresh k = th'.fresh := by rw [Http.isFresh, ht, List.getElem?_set_self hlt]; rfl
      have hcount := hh.count k
      have hfresh := hh.fresh k
      have honce := hh.once k
      have heff := he.count
      rw [hs] at hcount
      rw [hfs] at hfresh
      simp only [outputs_snoc, acquired_append, released_append, ht', hft]
      rcases he.once with h0 | ⟨hf, hf', h1⟩
      · refine ⟨by omega, fun hf => ?_, by omega⟩
        rw [hfresh (he.fresh hf), h0]
      · rw [hfresh hf] at hcount honce ⊢
        refine ⟨by omega, fun hc => ?_, by omega⟩
        rw [hf'] at hc; cases hc
    · refine hkeep i (he.other i (Ne.symm hki)) ?_ fun hf => ?_
      · rw [Http.holds, ht, List.getElem?_set_ne hki]; rfl
      · rwa [Http.isFresh, ht, List.getElem?_set_ne hki] at hf

theorem slotHistory_of_run {h : List (Step Http HttpLabel HttpEvent)} (r : Run (httpSystem host) h s) :
    SlotHistory h s := by
  refine r.induction (P := SlotHistory) ?_ fun h s l t out _ hh hst =>
    slotHistory_step hh (slotStep_acts (httpStep_acts hst))
  rintro s rfl
  exact ⟨fun i => rfl, fun i _ => rfl, fun i => Nat.zero_le _⟩

end System

/-! ## Exact admission -/

/-- **Admission is exact.** In every run, `httpAdmitted` is the number of requests that hold a slot plus the number of
busy ones between their increment and their decrement; at most `maxHTTPAdmitted` requests hold a slot; a request is
admitted at most once, and has given its slot back exactly once when it was admitted and holds none any more, as at
its end; and the counter is zero when no request is being handled and no accepted clip is still to start. -/
theorem admission_exact {host : HttpHost} {h : List (Step Http HttpLabel HttpEvent)} {s : Http}
    (r : Run (httpSystem host) h s) :
    s.admitted = ((s.holders + s.refusing : Nat) : Int) ∧
    s.holders ≤ maxHTTPAdmitted ∧
    (∀ i, acquired i (outputs h) ≤ 1 ∧
      acquired i (outputs h) = released i (outputs h) + (if s.holds i then 1 else 0)) ∧
    (∀ (i : Nat) (t : Thread), s.threads[i]? = some t → t.alive = false →
      released i (outputs h) = acquired i (outputs h)) ∧
    ((∀ t ∈ s.threads, t.alive = false) → s.admitted = 0) := by
  have hok := slotsOk_of_reachable r.reachable
  have hh := slotHistory_of_run r
  obtain ⟨hhold, href⟩ := countP_slots s
  refine ⟨?_, ?_, fun i => ⟨hh.once i, hh.count i⟩, fun i t hi hdead => ?_,
    fun hdead => hok.count_zero fun q hq => ?_⟩
  · have := hok.count_eq
    rwa [hhold, href] at this
  · have := hok.holding_le
    rwa [hhold] at this
  · have hn : s.holds i = false := by
      rw [Http.holds, hi]
      simp [Thread.holdsSlot, Thread.slot_of_not_alive hdead, Slots.Role.isHolding]
    rw [hh.count i, hn]; rfl
  · obtain ⟨t, ht, rfl⟩ := List.mem_map.mp hq
    exact Thread.slot_of_not_alive (hdead t ht)

/-- Two requests are admitted and a third one is being refused; the clip of the first has given its slot back. -/
theorem admission_exact_release : ∃ h s, Run (httpSystem silentHost) h s ∧ s.holders = 1 ∧ s.refusing = 1 ∧
    s.admitted = 2 ∧ acquired 0 (outputs h) = 1 ∧ released 0 (outputs h) = 1 := by
  obtain ⟨h, s, r, hq⟩ := Run.exists_of_exec (M := httpSystem silentHost) rfl
    (submit 0 ++ submit 1 ++ [.request silentRequest, .handler 2, .handler 2, .clip 0 .next, .clip 0 .next,
      .clip 0 .next])
    (fun h s => s.holders = 1 ∧ s.refusing = 1 ∧ acquired 0 (outputs h) = 1 ∧ s.holds 0 = false) (by decide +kernel)
  obtain ⟨hh, hr, ha, hn⟩ := of_decide_eq_true hq
  obtain ⟨hadm, -, hslot, -⟩ := admission_exact r
  have hcount := (hslot 0).2
  rw [ha, hn] at hcount
  exact ⟨h, s, r, hh, hr, by rw [hadm, hh, hr]; rfl, ha, hcount.symm⟩

/-! ## Who is refused -/

/-- The next action of the request is its increment. -/
def Thread.admitting : Thread → Bool
  | .handling _ (.increment _) => true
  | _ => false

/-- In the step, the increment of request `i` goes above the limit. -/
def Refuses (i : Nat) (st : Step Http HttpLabel HttpEvent) : Prop :=
  st.label = .handler i ∧ st.pre.threads[i]?.any Thread.admitting = true ∧
  st.post.threads[i]?.any Thread.refusing = true

instance (i : Nat) (st : Step Http HttpLabel HttpEvent) : Decidable (Refuses i st) :=
  inferInstanceAs (Decidable (_ ∧ _ ∧ _))

/-- If the step is the increment of a request, then all slots are held, or holders and requests that are being refused
are fewer than the slots. -/
def CountsHolders (s : Http) (l : HttpLabel) : Prop :=
  ∀ i, l = .handler i → s.threads[i]?.any Thread.admitting = true →
    s.holders = maxHTTPAdmitted ∨ s.holders + s.refusing < maxHTTPAdmitted

theorem Thread.admitting_iff {t : Thread} :
    t.admitting = true ↔ ∃ r environment, t = .handling r (.increment environment) := by
  constructor
  · intro h
    unfold Thread.admitting at h
    split at h
    · exact ⟨_, _, rfl⟩
    · cases h
  · rintro ⟨r, environment, rfl⟩
    rfl

section Refusal

variable {host : HttpHost} {s t : Http} {l : HttpLabel} {out : List HttpEvent} {i : Nat}

/-- An increment is refused exactly when holders and requests that are being refused fill the slots. -/
theorem refuses_iff (hok : Slots.Ok maxHTTPAdmitted s.admitted s.slots) (hst : httpStep host s l = some (t, out))
    (hl : l = .handler i) (hi : s.threads[i]?.any Thread.admitting = true) :
    Refuses i ⟨s, l, out, t⟩ ↔ maxHTTPAdmitted ≤ s.holders + s.refusing := by
  obtain ⟨th, hth, ha⟩ := (Option.any_eq_true ..).mp hi
  obtain ⟨r, environment, rfl⟩ := Thread.admitting_iff.mp ha
  obtain ⟨hhold, href⟩ := countP_slots s
  have hlimit := hok.refused_iff
  rw [hhold, href] at hlimit
  have hlt := (List.getElem?_eq_some_iff.mp hth).1
  subst hl
  simp only [httpStep, hth, handlerStep] at hst
  rw [← hlimit]
  split at hst
  · rename_i hn
    cases hst
    exact ⟨fun _ => hn, fun _ => ⟨rfl, hi, by dsimp only; rw [List.getElem?_set_self hlt]; rfl⟩⟩
  · rename_i hn
    cases hst
    refine ⟨fun hr => ?_, fun h => absurd h hn⟩
    have hpost := hr.2.2
    dsimp only at hpost
    rw [List.getElem?_set_self hlt] at hpost
    cases hpost

/-- **One step** refuses only with all slots held exactly when its increment counts holders. -/
theorem refuses_full_iff (hok : Slots.Ok maxHTTPAdmitted s.admitted s.slots)
    (hst : httpStep host s l = some (t, out)) :
    (∀ i, Refuses i ⟨s, l, out, t⟩ → s.holders = maxHTTPAdmitted) ↔ CountsHolders s l := by
  constructor
  · intro hfull i hl hi
    by_cases hlt : s.holders + s.refusing < maxHTTPAdmitted
    · exact Or.inr hlt
    · exact Or.inl (hfull i ((refuses_iff hok hst hl hi).mpr (Nat.not_lt.mp hlt)))
  · intro hc i hr
    have hle := (refuses_iff hok hst hr.1 hr.2.1).mp hr
    rcases hc i hr.1 hr.2.1 with h | h
    · exact h
    · exact absurd hle (Nat.not_le.mpr h)

/-! ### The busy response -/

theorem checkRequest_ne_busy {cancelled : Bool} {r : HttpRequest} {resp : HttpResponse}
    (h : checkRequest host cancelled r = .error resp) : resp ≠ busy := by
  unfold checkRequest at h
  repeat' split at h
  all_goals cases h
  all_goals simp [busy]

theorem readAudio_ne_busy {r : HttpRequest} {resp : HttpResponse} {logs : List String}
    (h : readAudio host r = .error (resp, logs)) : resp ≠ busy := by
  unfold readAudio at h
  dsimp only at h
  repeat' split at h
  all_goals cases h
  all_goals simp [busy]

/-- The request is on its way to the busy response. -/
def Thread.toldBusy : Thread → Bool
  | .handling _ .refuse => true
  | .handling _ (.respond r _) => r = busy
  | _ => false

/-- **The busy response of a handler**: only a request that was refused gets there and sends it. -/
theorem handlerStep_busy {cancelled : Bool} {n n' : Int} {k k' : Nat} {r : HttpRequest} {pc : HandlerPc}
    {t' : Thread} {es : List HttpEvent} (h : handlerStep host cancelled n k i r pc = some (n', k', t', es)) :
    (∀ j, .respond j busy ∈ es → j = i ∧ (Thread.handling r pc).toldBusy = true) ∧
    (t'.toldBusy = true → (Thread.handling r pc).toldBusy = true ∨
      ((Thread.handling r pc).admitting = true ∧ t'.refusing = true)) := by
  unfold handlerStep at h
  split at h
  · split at h
    · rename_i hc
      cases h
      exact ⟨by simp, fun hb => absurd (of_decide_eq_true hb) (checkRequest_ne_busy hc)⟩
    · cases h; exact ⟨by simp, fun hb => by cases hb⟩
  · split at h
    · cases h; exact ⟨by simp, fun _ => Or.inr ⟨rfl, rfl⟩⟩
    · cases h; exact ⟨by simp, fun hb => by cases hb⟩
  · cases h; exact ⟨by simp, fun _ => Or.inl rfl⟩
  · split at h
    · rename_i hc
      cases h
      exact ⟨by simp, fun hb => absurd (of_decide_eq_true hb) (readAudio_ne_busy hc)⟩
    · cases h; exact ⟨by simp, fun hb => by cases hb⟩
  · split at h
    · cases h; exact ⟨by simp, fun hb => by simp [Thread.toldBusy, busy] at hb⟩
    · cases h; exact ⟨by simp, fun hb => by cases hb⟩
  · cases h; exact ⟨by simp, fun hb => by cases hb⟩
  · split at h
    · cases h; exact ⟨by simp, fun hb => by simp [Thread.toldBusy, busy] at hb⟩
    · cases h; exact ⟨by simp, fun hb => by cases hb⟩
  · rename_i resp unfinished
    cases h
    refine ⟨fun j hj => ?_, fun hb => by cases hb⟩
    simp only [List.mem_singleton, HttpEvent.respond.injEq] at hj
    exact ⟨hj.1, by simp [Thread.toldBusy, hj.2]⟩
  · split at h <;> cases h <;> exact ⟨by simp, fun hb => by cases hb⟩
  · cases h

/-- A request that is told to be busy was refused. -/
def BusyHistory (h : List (Step Http HttpLabel HttpEvent)) (s : Http) : Prop :=
  ∀ i, (.respond i busy ∈ outputs h ∨ s.threads[i]?.any Thread.toldBusy = true) → ∃ st ∈ h, Refuses i st

/-- **One step** keeps what the history says about busy requests. -/
theorem busyHistory_acts {h : List (Step Http HttpLabel HttpEvent)} (hh : BusyHistory h s)
    (hst : HttpActs host s l t out) : BusyHistory (h ++ [⟨s, l, out, t⟩]) t := by
  have hold : ∀ {i : Nat}, (∃ st ∈ h, Refuses i st) → ∃ st ∈ h ++ [⟨s, l, out, t⟩], Refuses i st :=
    fun ⟨st, hm, hr⟩ => ⟨st, List.mem_append_left _ hm, hr⟩
  -- it is enough to look at what the step sends and at the requests that it tells to be busy
  have hnew : (∀ j : Nat, .respond j busy ∈ out → s.threads[j]?.any Thread.toldBusy = true) →
      (∀ j : Nat, t.threads[j]?.any Thread.toldBusy = true →
        s.threads[j]?.any Thread.toldBusy = true ∨ Refuses j ⟨s, l, out, t⟩) →
      BusyHistory (h ++ [⟨s, l, out, t⟩]) t := by
    intro hout hthreads j hj
    rw [outputs_snoc, List.mem_append] at hj
    rcases hj with (hj | hj) | hj
    · exact hold (hh j (Or.inl hj))
    · exact hold (hh j (Or.inr (hout j hj)))
    · rcases hthreads j hj with hj | hr
      · exact hold (hh j (Or.inr hj))
      · exact ⟨_, List.mem_append_right _ (List.mem_singleton_self _), hr⟩
  -- goroutine `k` becomes one that is not told to be busy
  have hset : ∀ {k : Nat} {th : Thread}, t.threads = s.threads.set k th → th.toldBusy = false →
      ∀ j : Nat, t.threads[j]?.any Thread.toldBusy = true → s.threads[j]?.any Thread.toldBusy = true := by
    intro k th ht hth j hj
    obtain ⟨tj, hj, hb⟩ := (Option.any_eq_true ..).mp hj
    rw [ht] at hj
    rcases getElem?_set_cases hj with ⟨-, rfl⟩ | ⟨-, hj⟩
    · rw [hth] at hb; cases hb
    · rw [hj]; exact hb
  have hspawn : ∀ {th : Thread}, t.threads = s.threads ++ [th] → th.toldBusy = false →
      ∀ j : Nat, t.threads[j]?.any Thread.toldBusy = true → s.threads[j]?.any Thread.toldBusy = true := by
    intro th ht hth j hj
    obtain ⟨tj, hj, hb⟩ := (Option.any_eq_true ..).mp hj
    rw [ht] at hj
    rcases getElem?_concat_cases hj with ⟨-, rfl⟩ | hj
    · rw [hth] at hb; cases hb
    · rw [hj]; exact hb
  cases hst with
  | transcribe session => exact hnew (by simp) fun j hj => Or.inl (hspawn rfl rfl j hj)
  | request r => exact hnew (by simp) fun j hj => Or.inl (hspawn rfl rfl j hj)
  | allocateClip => exact hnew (by simp) fun j hj => Or.inl hj
  | cancel => exact hnew (by simp) fun j hj => Or.inl hj
  | handler k r pc n k' th es hk hs =>
    obtain ⟨hout, htold⟩ := handlerStep_busy hs
    have hlt := (List.getElem?_eq_some_iff.mp hk).1
    refine hnew (fun j hj => ?_) fun j hj => ?_
    · obtain ⟨rfl, hb⟩ := hout j hj
      rw [hk]; exact hb
    · by_cases hjk : j = k
      · subst hjk
        dsimp only at hj
        rw [List.getElem?_set_self hlt] at hj
        rcases htold hj with hb | ⟨ha, hr⟩
        · exact Or.inl (by rw [hk]; exact hb)
        · refine Or.inr ⟨rfl, by rw [hk]; exact ha, ?_⟩
          dsimp only
          rw [List.getElem?_set_self hlt]; exact hr
      · dsimp only at hj
        rw [List.getElem?_set_ne (Ne.symm hjk)] at hj
        exact Or.inl hj
  | respond k session clip pc pc' es hk hs =>
    refine hnew (fun j hj => ?_) fun j hj => Or.inl (hset rfl rfl j hj)
    cases pc with
    | respond =>
      cases hs
      simp [busy] at hj
    | returned => cases hs
  | localClip k m session pc pc' tr es hk hs =>
    exact hnew (by simp) fun j hj => Or.inl (hset rfl rfl j hj)
  | httpClip k m session pc clip clip' tr n es hk hs =>
    exact hnew (fun j hj => absurd hj (httpClipStep_silent hs)) fun j hj => Or.inl (hset rfl rfl j hj)

theorem busyHistory_of_run {h : List (Step Http HttpLabel HttpEvent)} (r : Run (httpSystem host) h s) :
    BusyHistory h s := by
  refine r.induction (P := BusyHistory) ?_ fun h s l t out _ hh hst => busyHistory_acts hh (httpStep_acts hst)
  rintro s rfl i hi
  simp [Http.initial] at hi

end Refusal

/-- **When requests are refused only for want of a slot.** A request that receives the busy response was refused by a
step of the run. Every request that is refused in the run finds all slots held exactly when, at each increment of the
run, all slots are held, or holders and requests that are being refused are fewer than the slots. -/
theorem refused_when_full_iff {host : HttpHost} {h : List (Step Http HttpLabel HttpEvent)} {s : Http}
    (r : Run (httpSystem host) h s) :
    (∀ i, .respond i busy ∈ outputs h → ∃ st ∈ h, Refuses i st) ∧
    ((∀ st ∈ h, ∀ i, Refuses i st → st.pre.holders = maxHTTPAdmitted) ↔
      ∀ st ∈ h, CountsHolders st.pre st.label) := by
  refine ⟨fun i hi => busyHistory_of_run r i (Or.inl hi), ?_⟩
  have hstep : ∀ st ∈ h, (∀ i, Refuses i st → st.pre.holders = maxHTTPAdmitted) ↔ CountsHolders st.pre st.label :=
    fun st hm => refuses_full_iff (slotsOk_of_reachable (r.mem_step hm).1) (r.mem_step hm).2
  exact ⟨fun hf st hm => (hstep st hm).mp (hf st hm), fun hc st hm => (hstep st hm).mpr (hc st hm)⟩

/-- Two accepted requests, and a third one that is refused. -/
theorem refused_when_full_busy : ∃ h s, Run (httpSystem silentHost) h s ∧ .respond 2 busy ∈ outputs h ∧
    ∃ st ∈ h, Refuses 2 st := by
  obtain ⟨h, s, r, hq⟩ := Run.exists_of_exec (M := httpSystem silentHost) rfl
    (submit 0 ++ submit 1 ++ [.request silentRequest, .handler 2, .handler 2, .handler 2, .handler 2])
    (fun h _ => .respond 2 busy ∈ outputs h) (by decide +kernel)
  have hb : .respond 2 busy ∈ outputs h := of_decide_eq_true hq
  exact ⟨h, s, r, hb, (refused_when_full_iff r).1 2 hb⟩

/-- **A request is refused although a slot is free**: two requests hold the slots and a third one is being refused;
one of the two gives its slot back; a fourth request is refused because the third is still counted. -/
theorem refused_with_free_slot : ∃ h s, Run (httpSystem silentHost) h s ∧ .respond 3 busy ∈ outputs h ∧
    ∃ st ∈ h, Refuses 3 st ∧ st.pre.holders = 1 := by
  obtain ⟨h, s, r, hq⟩ := Run.exists_of_exec (M := httpSystem silentHost) rfl
    (submit 0 ++ submit 1 ++ [.request silentRequest, .handler 2, .handler 2, .clip 0 .next, .clip 0 .next,
      .clip 0 .next, .request silentRequest, .handler 3, .handler 3, .handler 3, .handler 3])
    (fun h _ => .respond 3 busy ∈ outputs h ∧ ∃ st ∈ h, Refuses 3 st ∧ st.pre.holders = 1) (by decide +kernel)
  obtain ⟨hb, hst⟩ := of_decide_eq_true hq
  exact ⟨h, s, r, hb, hst⟩

end Talk2Text.Daemon
