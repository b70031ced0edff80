import Talk2Text.Daemon.Http

/-!
# Whose turn it is to transcribe

The goroutines of `httpSystem` at the gate of `Sys.Gate`: local clips enter unconditionally, HTTP clips reserve it
when the counter is zero. Every step is a step of the gate (`gate_step`), so the gate's invariant holds
(`gateOk_of_reachable`).

- `http_clip_alone`: the counter is exact, one HTTP clip at a time is in its Whisper request, and while it is counted
  all other counted clips are local ones that have entered after its reservation.
- `local_clip_overtakes`: such local clips exist, so an HTTP clip may enter its Whisper request while a local clip is
  in one.
- `no_lost_wakeup`: a clip that waits while nobody is counted will be woken up.
-/

namespace Talk2Text.Daemon

open Sys

/-! ## Roles -/

/-- An accepted clip at the gate. -/
def HttpClipPc.role : HttpClipPc → Gate.Role
  | .cas true => .retrying
  | .select => .waiting
  | .release true => .inside true
  | .long pc => pc.role true
  | .transcribeHTTP | .releaseShort | .short | .cas false | .release false | .returned => .outside

def Thread.gateRole : Thread → Gate.Role
  | .transcribe _ pc => pc.role
  | .handling _ _ => .outside
  | .accepted _ _ clip => clip.role

/-- Between the increment, or the `CompareAndSwap`, and the decrement of `ongoingTranscriptions`. -/
def LongPc.counted : LongPc → Bool
  | .start | .whisper | .subtract _ => true
  | .signal _ | .finish _ => false

def LocalPc.counted : LocalPc → Bool
  | .long pc => pc.counted
  | .transcribe | .add | .returned => false

def HttpClipPc.counted : HttpClipPc → Bool
  | .release success => success
  | .long pc => pc.counted
  | _ => false

def Thread.counted : Thread → Bool
  | .transcribe _ pc => pc.counted
  | .handling _ _ => false
  | .accepted _ _ clip => clip.counted

/-- In `processLongSession` between the decrement to zero and the send on `transcriptionIdle`. -/
def Thread.signalling : Thread → Bool
  | .transcribe _ (.long (.signal _)) => true
  | .accepted _ _ (.long (.signal _)) => true
  | _ => false

theorem LongPc.isInside_role (b : Bool) (pc : LongPc) : (pc.role b).isInside = pc.counted := by cases pc <;> rfl

theorem Thread.isInside_gateRole (t : Thread) : t.gateRole.isInside = t.counted := by
  cases t with
  | transcribe s pc => cases pc <;> first | rfl | exact LongPc.isInside_role ..
  | handling => rfl
  | accepted pc s clip =>
    cases clip with
    | cas b | release b => cases b <;> rfl
    | long pc => exact LongPc.isInside_role ..
    | _ => rfl

/-- Who is behind the roles that are not counted. -/
theorem Thread.of_gateRole (t : Thread) :
    (t.gateRole = .signalling → t.signalling = true) ∧
    (t.gateRole = .waiting → ∃ pc s, t = .accepted pc s .select) ∧
    (t.gateRole = .retrying → ∃ pc s, t = .accepted pc s (.cas true)) := by
  -- `processLongSession` takes only the first of these roles
  have hlong : ∀ (b : Bool) (pc : LongPc), pc.role b ≠ .waiting ∧ pc.role b ≠ .retrying := by
    intro b pc
    cases pc <;> exact ⟨nofun, nofun⟩
  cases t with
  | transcribe s pc =>
    cases pc with
    | long pc =>
      refine ⟨fun h => ?_, fun h => absurd h (hlong _ pc).1, fun h => absurd h (hlong _ pc).2⟩
      cases pc <;> first | rfl | cases h
    | _ => exact ⟨nofun, nofun, nofun⟩
  | handling => exact ⟨nofun, nofun, nofun⟩
  | accepted pc s clip =>
    cases clip with
    | cas b =>
      cases b with
      | true => exact ⟨nofun, nofun, fun _ => ⟨pc, s, rfl⟩⟩
      | false => exact ⟨nofun, nofun, nofun⟩
    | select => exact ⟨nofun, fun _ => ⟨pc, s, rfl⟩, nofun⟩
    | release b => cases b <;> exact ⟨nofun, nofun, nofun⟩
    | long pc =>
      refine ⟨fun h => ?_, fun h => absurd h (hlong _ pc).1, fun h => absurd h (hlong _ pc).2⟩
      cases pc <;> first | rfl | cases h
    | _ => exact ⟨nofun, nofun, nofun⟩

section Step

variable {host : HttpHost} {cfg : Config} {cancelled : Bool} {t t' : Transcriptions} {n n' : Int} {i : Nat}
  {session : Session} {m : ClipMove}

/-- **An accepted clip at the gate.** -/
theorem httpClipStep_gate {pc pc' : HttpClipPc} {es : List HttpEvent}
    (h : httpClipStep cfg cancelled t n i session pc m = some (t', n', pc', es)) :
    Gate.Acts t.counter pc.role t'.counter pc'.role := by
  unfold httpClipStep at h
  split at h
  · cases h
    split <;> exact .stay _ _
  · cases h; exact .stay _ _
  · cases h; exact .stay _ _
  · rename_i b
    have hb : (HttpClipPc.cas b).role = .outside ∨ (HttpClipPc.cas b).role = .retrying := by
      cases b <;> simp [HttpClipPc.role]
    split at h
    · rename_i h0
      cases h; exact .reserve _ _ hb h0
    · rename_i h0
      cases h; exact .wait _ _ hb h0
  · split at h
    · rename_i hi
      cases h; exact .wake _ hi
    · cases h
  · split at h
    · cases h; exact .abort _
    · cases h
  · rename_i success
    cases h
    cases success <;> exact .stay _ _
  · obtain ⟨⟨t₁, p₁, es₁⟩, hl, h⟩ := Option.map_eq_some_iff.mp h
    cases h
    have := longStep_gate true hl
    cases p₁ <;> exact this
  · cases h

/-- A handler stays outside, and so does the clip that it accepts. -/
theorem handlerStep_gate {r : HttpRequest} {pc : HandlerPc} {k k' : Nat} {th : Thread} {es : List HttpEvent}
    (h : handlerStep host cancelled n k i r pc = some (n', k', th, es)) : th.gateRole = .outside := by
  unfold handlerStep at h
  repeat' split at h
  all_goals cases h
  all_goals rfl

end Step

section System

variable {host : HttpHost} {s t : Http} {l : HttpLabel} {out : List HttpEvent}

def Http.gateRoles (s : Http) : List Gate.Role := s.threads.map Thread.gateRole

theorem getElem?_gateRoles {i : Nat} {th : Thread} (h : s.threads[i]? = some th) :
    s.gateRoles[i]? = some th.gateRole := by
  simp [Http.gateRoles, h]

/-- **Every step is a step of the gate.** -/
theorem gate_step (h : HttpActs host s l t out) :
    Gate.PoolStep s.transcriptions.counter s.gateRoles t.transcriptions.counter t.gateRoles := by
  have hact : ∀ {i : Nat} {th th' : Thread} {u : Http}, s.threads[i]? = some th → u.threads = s.threads.set i th' →
      Gate.Acts s.transcriptions.counter th.gateRole u.transcriptions.counter th'.gateRole →
      Gate.PoolStep s.transcriptions.counter s.gateRoles u.transcriptions.counter u.gateRoles := by
    intro i th th' u hi hu ha
    have hset : u.gateRoles = s.gateRoles.set i th'.gateRole := by
      rw [Http.gateRoles, hu, List.map_set]; rfl
    rw [hset]
    exact .act (getElem?_gateRoles hi) ha
  cases h with
  | transcribe session =>
    have : Http.gateRoles { s with threads := s.threads ++ [.transcribe session .transcribe] } =
        s.gateRoles ++ [.outside] := by simp [Http.gateRoles, Thread.gateRole, LocalPc.role]
    rw [this]; exact .spawn _ _
  | request r =>
    have : Http.gateRoles { s with threads := s.threads ++ [.handling r .check] } = s.gateRoles ++ [.outside] := by
      simp [Http.gateRoles, Thread.gateRole]
    rw [this]; exact .spawn _ _
  | allocateClip => exact .stay _ _
  | cancel => exact .stay _ _
  | handler i r pc n k th es hi hs =>
    refine hact hi rfl ?_
    rw [handlerStep_gate hs]
    exact .stay _ _
  | respond i session clip pc pc' es hi => exact hact hi rfl (.stay _ _)
  | localClip i m session pc pc' t es hi hs => exact hact hi rfl (localStep_gate hs)
  | httpClip i m session pc clip clip' t n es hi hs => exact hact hi rfl (httpClipStep_gate hs)

theorem gateOk_of_reachable (hs : Reachable (httpSystem host) s) :
    Gate.Ok s.transcriptions.counter s.gateRoles := by
  refine hs.induction (P := fun s => Gate.Ok s.transcriptions.counter s.gateRoles) ?_
    fun s l t out _ h hst => Gate.ok_step h (gate_step (httpStep_acts hst))
  rintro s rfl
  exact Gate.ok_nil false

end System

/-! ## After a reservation -/

/-- In the step, the `CompareAndSwap` of the clip of request `i` succeeds. -/
def Reserves (i : Nat) (st : Step Http HttpLabel HttpEvent) : Prop :=
  st.label = .clip i .next ∧ st.pre.transcriptions.ongoing = 0 ∧
  ∃ pc session b, st.pre.threads[i]? = some (.accepted pc session (.cas b))

/-- In the step, local clip `j` increments the counter. -/
def Enters (j : Nat) (st : Step Http HttpLabel HttpEvent) : Prop :=
  st.label = .clip j .next ∧ ∃ session, st.pre.threads[j]? = some (.transcribe session .add)

/-- The clip has gone past its `CompareAndSwap`. -/
def HttpClipPc.past : HttpClipPc → Bool
  | .release true | .long _ | .returned => true
  | _ => false

/-- What holds of the clip of request `i` since its reservation, `h` being the history after it: as long as it is
counted, any other counted clip is a local one that has entered in `h`. -/
def Alone (i : Nat) (h : List (Step Http HttpLabel HttpEvent)) (s : Http) : Prop :=
  ∃ pc session clip, s.threads[i]? = some (.accepted pc session clip) ∧ clip.past = true ∧
    (clip.counted = true →
      ∀ j t, j ≠ i → s.threads[j]? = some t → t.counted = true →
        (∃ session pc, t = .transcribe session pc) ∧ ∃ st ∈ h, Enters j st)

section Alone

variable {host : HttpHost} {cfg : Config} {cancelled : Bool} {tr tr' : Transcriptions} {n n' : Int} {i : Nat}
  {session : Session} {m : ClipMove}

/-- A counted step of `processLongSession` was counted before. -/
theorem longStep_counted {pc pc' : LongPc} {es : List ClipEvent}
    (h : longStep cancelled tr session pc m = some (tr', some pc', es)) (hc : pc'.counted = true) :
    pc.counted = true := by
  unfold longStep at h
  repeat' split at h
  all_goals first | cases h; rfl | cases h; cases hc | cases h

/-- A counted local clip was counted before, or has just incremented the counter. -/
theorem localStep_counted {pc pc' : LocalPc} {es : List ClipEvent}
    (h : localStep cfg cancelled tr session pc m = some (tr', pc', es))
    (hc : pc'.counted = true) : pc.counted = true ∨ (pc = .add ∧ m = .next) := by
  unfold localStep at h
  split at h
  · split at h <;> cases h <;> cases hc
  · exact Or.inr ⟨rfl, rfl⟩
  · obtain ⟨⟨t₁, p₁, es₁⟩, hl, h⟩ := Option.map_eq_some_iff.mp h
    cases h
    cases p₁ with
    | none => cases hc
    | some p => exact Or.inl (longStep_counted hl hc)
  · cases h

/-- A counted accepted clip was counted before, or has just reserved the region. -/
theorem httpClipStep_counted {pc pc' : HttpClipPc} {es : List HttpEvent}
    (h : httpClipStep cfg cancelled tr n i session pc m = some (tr', n', pc', es))
    (hc : pc'.counted = true) : pc.counted = true ∨ (m = .next ∧ tr.ongoing = 0 ∧ ∃ b, pc = .cas b) := by
  unfold httpClipStep at h
  split at h
  · cases h
    split at hc <;> cases hc
  · cases h; cases hc
  · cases h; cases hc
  · rename_i b
    split at h
    · rename_i h0
      exact Or.inr ⟨rfl, h0, b, rfl⟩
    · cases h; cases hc
  · split at h
    · cases h; cases hc
    · cases h
  · split at h
    · cases h; cases hc
    · cases h
  · rename_i success
    cases h
    cases success with
    | true => exact Or.inl rfl
    | false => cases hc
  · obtain ⟨⟨t₁, p₁, es₁⟩, hl, h⟩ := Option.map_eq_some_iff.mp h
    cases h
    cases p₁ with
    | none => cases hc
    | some p => exact Or.inl (longStep_counted hl hc)
  · cases h

/-- A clip never goes back before its `CompareAndSwap`. -/
theorem httpClipStep_past {pc pc' : HttpClipPc} {es : List HttpEvent}
    (h : httpClipStep cfg cancelled tr n i session pc m = some (tr', n', pc', es)) (hp : pc.past = true) :
    pc'.past = true := by
  unfold httpClipStep at h
  split at h
  all_goals first | cases hp | skip
  · rename_i success
    cases success with
    | true => cases h; rfl
    | false => cases hp
  · obtain ⟨⟨t₁, p₁, es₁⟩, hl, h⟩ := Option.map_eq_some_iff.mp h
    cases h
    cases p₁ <;> rfl
  · cases h

/-- A handler does not touch the counted clips. -/
theorem handlerStep_not_counted {r : HttpRequest} {pc : HandlerPc} {k k' : Nat} {th : Thread} {es : List HttpEvent}
    (h : handlerStep host cancelled n k i r pc = some (n', k', th, es)) : th.counted = false := by
  rw [← Thread.isInside_gateRole, handlerStep_gate h]; rfl

/-- **One step** after a reservation. -/
theorem alone_acts {h : List (Step Http HttpLabel HttpEvent)} {s t : Http} {l : HttpLabel} {out : List HttpEvent}
    (hg : Gate.Ok s.transcriptions.counter s.gateRoles) (ha : Alone i h s) (hst : HttpActs host s l t out) :
    Alone i (h ++ [⟨s, l, out, t⟩]) t := by
  obtain ⟨pc, session, clip, hi, hp, hc⟩ := ha
  have hold : ∀ {j : Nat}, (∃ st ∈ h, Enters j st) → ∃ st ∈ h ++ [⟨s, l, out, t⟩], Enters j st :=
    fun ⟨st, hm, he⟩ => ⟨st, List.mem_append_left _ hm, he⟩
  have hsame : t.threads = s.threads → Alone i (h ++ [⟨s, l, out, t⟩]) t := fun ht =>
    ⟨pc, session, clip, ht ▸ hi, hp, fun hcount j tj hne hj hcj =>
      (hc hcount j tj hne (ht ▸ hj) hcj).imp id hold⟩
  -- a new goroutine, which is not counted
  have hspawn : ∀ th : Thread, th.counted = false → t.threads = s.threads ++ [th] →
      Alone i (h ++ [⟨s, l, out, t⟩]) t := by
    intro th hth ht
    refine ⟨pc, session, clip, ?_, hp, fun hcount j tj hne hj hcj => ?_⟩
    · rw [ht, List.getElem?_append_left (List.getElem?_eq_some_iff.mp hi).1]; exact hi
    · rw [ht] at hj
      rcases getElem?_concat_cases hj with ⟨-, rfl⟩ | hj
      · rw [hth] at hcj; cases hcj
      · exact (hc hcount j tj hne hj hcj).imp id hold
  -- another goroutine acts: if it is counted afterwards, it is local and was counted before or enters now
  have hother : ∀ {k : Nat} {th : Thread}, k ≠ i → t.threads = s.threads.set k th →
      (clip.counted = true → th.counted = true →
        (∃ session pc, th = .transcribe session pc) ∧ ∃ st ∈ h ++ [⟨s, l, out, t⟩], Enters k st) →
      Alone i (h ++ [⟨s, l, out, t⟩]) t := by
    intro k th hk ht hth
    refine ⟨pc, session, clip, ?_, hp, fun hcount j tj hne hj hcj => ?_⟩
    · rw [ht, List.getElem?_set_ne hk]; exact hi
    · rw [ht] at hj
      rcases getElem?_set_cases hj with ⟨rfl, rfl⟩ | ⟨-, hj⟩
      · exact hth hcount hcj
      · exact (hc hcount j tj hne hj hcj).imp id hold
  cases hst with
  | transcribe s' => exact hspawn _ rfl rfl
  | request r => exact hspawn _ rfl rfl
  | allocateClip => exact hsame rfl
  | cancel => exact hsame rfl
  | handler k r pc' n k' th es hk hs =>
    refine @hother k th ?_ rfl fun _ hcj => ?_
    · rintro rfl
      rw [hi] at hk; cases hk
    · rw [handlerStep_not_counted hs] at hcj; cases hcj
  | respond k session' clip' pc₁ pc₂ es hk =>
    by_cases hki : k = i
    · subst hki
      rw [hi] at hk
      cases hk
      refine ⟨pc₂, session, clip, List.getElem?_set_self (List.getElem?_eq_some_iff.mp hi).1, hp,
        fun hcount j tj hne hj hcj => ?_⟩
      exact (hc hcount j tj hne (by rw [← hj, List.getElem?_set_ne hne.symm]) hcj).imp id hold
    · refine hother hki rfl fun hcount hcj => ?_
      obtain ⟨⟨_, _, he⟩, -⟩ := hc hcount k _ hki hk hcj
      cases he
  | localClip k m session' pc₁ pc₂ tr es hk hs =>
    have hki : k ≠ i := by
      rintro rfl
      rw [hi] at hk; cases hk
    refine hother hki rfl fun hcount hcj => ⟨⟨_, _, rfl⟩, ?_⟩
    rcases localStep_counted hs hcj with hcj | ⟨rfl, rfl⟩
    · exact hold (hc hcount k _ hki hk hcj).2
    · exact ⟨_, List.mem_append_right _ (List.mem_singleton_self _), rfl, session', hk⟩
  | httpClip k m session' pc' clip₁ clip₂ tr n es hk hs =>
    by_cases hki : k = i
    · subst hki
      rw [hi] at hk
      cases hk
      refine ⟨pc, session, clip₂, List.getElem?_set_self (List.getElem?_eq_some_iff.mp hi).1,
        httpClipStep_past hs hp, fun hcount j tj hne hj hcj => ?_⟩
      rcases httpClipStep_counted hs hcount with hcount | ⟨-, -, b, rfl⟩
      · exact (hc hcount j tj hne (by rw [← hj, List.getElem?_set_ne hne.symm]) hcj).imp id hold
      · cases hp
    · refine hother hki rfl fun hcount hcj => ?_
      rcases httpClipStep_counted hs hcj with hcj | ⟨-, h0, -⟩
      · obtain ⟨⟨_, _, he⟩, -⟩ := hc hcount k _ hki hk hcj
        cases he
      · -- the counter is not zero while clip `i` is counted
        have hout := hg.not_inside h0 (getElem?_gateRoles hi)
        rw [Thread.isInside_gateRole] at hout
        exact absurd hcount (Bool.not_eq_true _ ▸ hout)

/-- A counted accepted clip was counted before the step, or reserves the region in it. -/
theorem counted_or_reserves {s t : Http} {l : HttpLabel} {out : List HttpEvent} (hst : HttpActs host s l t out)
    {pc : AcceptedPc} {clip : HttpClipPc} (hi : t.threads[i]? = some (.accepted pc session clip))
    (hc : clip.counted = true) :
    (∃ pc' clip', s.threads[i]? = some (.accepted pc' session clip') ∧ clip'.counted = true) ∨
    Reserves i ⟨s, l, out, t⟩ := by
  cases hst with
  | transcribe s' =>
    rcases getElem?_concat_cases hi with ⟨-, hi⟩ | hi
    · cases hi
    · exact Or.inl ⟨pc, clip, hi, hc⟩
  | request r =>
    rcases getElem?_concat_cases hi with ⟨-, hi⟩ | hi
    · cases hi
    · exact Or.inl ⟨pc, clip, hi, hc⟩
  | allocateClip => exact Or.inl ⟨pc, clip, hi, hc⟩
  | cancel => exact Or.inl ⟨pc, clip, hi, hc⟩
  | handler k r pc' n k' th es hk hs =>
    rcases getElem?_set_cases hi with ⟨-, rfl⟩ | ⟨-, hi⟩
    · have hn := handlerStep_not_counted hs
      rw [Thread.counted, hc] at hn; cases hn
    · exact Or.inl ⟨pc, clip, hi, hc⟩
  | respond k session' clip' pc₁ pc₂ es hk =>
    rcases getElem?_set_cases hi with ⟨rfl, he⟩ | ⟨-, hi⟩
    · cases he
      exact Or.inl ⟨pc₁, clip, hk, hc⟩
    · exact Or.inl ⟨pc, clip, hi, hc⟩
  | localClip k m session' pc₁ pc₂ tr es hk hs =>
    rcases getElem?_set_cases hi with ⟨-, he⟩ | ⟨-, hi⟩
    · cases he
    · exact Or.inl ⟨pc, clip, hi, hc⟩
  | httpClip k m session' pc' clip₁ clip₂ tr n es hk hs =>
    rcases getElem?_set_cases hi with ⟨rfl, he⟩ | ⟨-, hi⟩
    · cases he
      rcases httpClipStep_counted hs hc with hc | ⟨rfl, h0, b, rfl⟩
      · exact Or.inl ⟨pc, clip₁, hk, hc⟩
      · exact Or.inr ⟨rfl, h0, pc, session, b, hk⟩
    · exact Or.inl ⟨pc, clip, hi, hc⟩

/-- A counted accepted clip has reserved the region in some step of the run. -/
theorem reserved_of_counted {h : List (Step Http HttpLabel HttpEvent)} {s : Http} (r : Run (httpSystem host) h s) :
    ∀ i pc session clip, s.threads[i]? = some (.accepted pc session clip) → clip.counted = true →
      ∃ st ∈ h, Reserves i st := by
  intro i pc session clip hi hc
  refine r.exists_step (Q := fun s => ∃ pc clip, s.threads[i]? = some (.accepted pc session clip) ∧
    clip.counted = true) ?_ ?_ ⟨pc, clip, hi, hc⟩
  · rintro s rfl ⟨pc, clip, hi, -⟩
    cases hi
  · rintro s l t out hst ⟨pc, clip, hi, hc⟩
    exact counted_or_reserves (httpStep_acts hst) hi hc

/-- Nobody else is counted right after a reservation. -/
theorem alone_of_reserves {s t : Http} {l : HttpLabel} {out : List HttpEvent}
    (hg : Gate.Ok s.transcriptions.counter s.gateRoles) (hst : httpStep host s l = some (t, out))
    (hr : Reserves i ⟨s, l, out, t⟩) : Alone i [] t := by
  obtain ⟨rfl, h0, pc, session, b, hi⟩ := hr
  dsimp only at h0 hi
  simp only [httpStep, hi, httpClipStep, h0, if_true, Option.map_some, Option.some.injEq, Prod.mk.injEq] at hst
  obtain ⟨rfl, -⟩ := hst
  refine ⟨pc, session, .release true, List.getElem?_set_self (List.getElem?_eq_some_iff.mp hi).1, rfl,
    fun _ j tj hne hj hcj => ?_⟩
  rcases getElem?_set_cases hj with ⟨rfl, -⟩ | ⟨-, hj⟩
  · exact absurd rfl hne
  · have hout := hg.not_inside h0 (getElem?_gateRoles hj)
    rw [Thread.isInside_gateRole, hcj] at hout
    cases hout

end Alone

/-! ## The results -/

/-- The number of clips between their increment, or `CompareAndSwap`, and their decrement. -/
def Http.counted (s : Http) : Nat := s.threads.countP Thread.counted

theorem countP_gateRoles (s : Http) : s.gateRoles.countP Gate.Role.isInside = s.counted := by
  rw [Http.gateRoles, List.countP_map]
  exact List.countP_congr fun t _ => by rw [Function.comp_apply, Thread.isInside_gateRole]

/-- **HTTP clips take turns.** In every run, `ongoingTranscriptions` is the number of counted clips; two HTTP clips
that are in their Whisper requests are one; a counted HTTP clip has made its `CompareAndSwap` in some step of the run;
when the `CompareAndSwap` of an HTTP clip succeeds, no clip is counted; and from then to its own decrement, in
particular when it enters its Whisper request, every other counted clip is a local one that has made its increment
after that `CompareAndSwap`. -/
theorem http_clip_alone {host : HttpHost} {h : List (Step Http HttpLabel HttpEvent)} {s : Http}
    (r : Run (httpSystem host) h s) :
    s.transcriptions.ongoing = (s.counted : Int) ∧
    (∀ (i j : Nat) (pc pc' : AcceptedPc) (session session' : Session),
      s.threads[i]? = some (.accepted pc session (.long .whisper)) →
      s.threads[j]? = some (.accepted pc' session' (.long .whisper)) → i = j) ∧
    (∀ i pc session clip, s.threads[i]? = some (.accepted pc session clip) → clip.counted = true →
      ∃ st ∈ h, Reserves i st) ∧
    ∀ h₁ st h₂, h = h₁ ++ st :: h₂ → ∀ i : Nat, Reserves i st →
      st.pre.counted = 0 ∧
      ∀ pc session clip, s.threads[i]? = some (.accepted pc session clip) → clip.counted = true →
        ∀ (j : Nat) (t : Thread), j ≠ i → s.threads[j]? = some t → t.counted = true →
          (∃ session pc, t = .transcribe session pc) ∧ ∃ st' ∈ h₂, Enters j st' := by
  have hg := gateOk_of_reachable r.reachable
  refine ⟨?_, fun i j pc pc' session session' hi hj => ?_, reserved_of_counted r,
    fun h₁ st h₂ he i hr => ⟨?_, ?_⟩⟩
  · rw [← countP_gateRoles]
    exact hg.count_eq
  · exact hg.reserved_unique (getElem?_gateRoles hi) (getElem?_gateRoles hj)
  · have hm : st ∈ h := by rw [he]; simp
    have hpre := gateOk_of_reachable (r.mem_step hm).1
    have := hpre.count_eq
    rw [countP_gateRoles] at this
    have h0 := hr.2.1
    simp only [Transcriptions.counter] at this
    omega
  · have hal := r.since (Q := fun st h₂ s => Reserves i st → Alone i h₂ s)
      (fun s l t out hr hst hres => alone_of_reserves (gateOk_of_reachable hr) hst hres)
      (fun st h s l t out hr ha hst hres => alone_acts (gateOk_of_reachable hr) (ha hres) (httpStep_acts hst))
      h₁ st h₂ he hr
    intro pc session clip hi hc
    obtain ⟨pc', session', clip', hi', -, hal⟩ := hal
    rw [hi] at hi'
    cases hi'
    exact hal hc

/-- The clip of an HTTP request has reserved its turn, and a local clip has been sent to Whisper before it. -/
def overtaken : List HttpLabel :=
  submit 0 ++ [.clip 0 .next, .clip 0 .next, .transcribe (localClip 2), .clip 1 .next, .clip 1 .next, .clip 1 .next,
    .clip 0 .next]

theorem http_clip_alone_overtaken : ∃ h s, Run (httpSystem silentHost) h s ∧ s.counted = 2 ∧
    s.transcriptions.ongoing = 2 := by
  obtain ⟨h, s, r, hq⟩ := Run.exists_of_exec (M := httpSystem silentHost) rfl overtaken (fun _ s => s.counted = 2)
    (by decide +kernel)
  have hc : s.counted = 2 := of_decide_eq_true hq
  exact ⟨h, s, r, hc, by rw [(http_clip_alone r).1, hc]; rfl⟩

/-- An accepted clip that has its turn and enters its Whisper request next. -/
def Thread.httpStarting : Thread → Bool
  | .accepted _ _ (.long .start) => true
  | _ => false

def Thread.localWhispering : Thread → Bool
  | .transcribe _ (.long .whisper) => true
  | _ => false

theorem Thread.of_httpStarting {t : Thread} (h : t.httpStarting = true) :
    ∃ pc s, t = .accepted pc s (.long .start) := by
  unfold Thread.httpStarting at h
  split at h
  · exact ⟨_, _, rfl⟩
  · cases h

theorem Thread.of_localWhispering {t : Thread} (h : t.localWhispering = true) :
    ∃ s, t = .transcribe s (.long .whisper) := by
  unfold Thread.localWhispering at h
  split at h
  · exact ⟨_, rfl⟩
  · cases h

/-- **A local clip overtakes an HTTP clip** that has reserved its turn: when the HTTP clip enters its Whisper request,
the local clip is in one. -/
theorem local_clip_overtakes : ∃ s t out, Reachable (httpSystem silentHost) s ∧
    httpStep silentHost s (.clip 0 .next) = some (t, out) ∧
    (∃ pc session, s.threads[0]? = some (.accepted pc session (.long .start)) ∧
      t.threads[0]? = some (.accepted pc session (.long .whisper))) ∧
    ∃ session, s.threads[1]? = some (.transcribe session (.long .whisper)) := by
  obtain ⟨_, s, r, hq⟩ := Run.exists_of_exec (M := httpSystem silentHost) rfl overtaken
    (fun _ s => s.threads[0]?.any Thread.httpStarting && s.threads[1]?.any Thread.localWhispering) (by decide +kernel)
  rw [Bool.and_eq_true, Option.any_eq_true, Option.any_eq_true] at hq
  obtain ⟨⟨t₀, h0, hs⟩, t₁, h1, hw⟩ := hq
  obtain ⟨pc, session, rfl⟩ := Thread.of_httpStarting hs
  obtain ⟨session', rfl⟩ := Thread.of_localWhispering hw
  have hst : httpStep silentHost s (.clip 0 .next) =
      some ({ s with threads := s.threads.set 0 (.accepted pc session (.long .whisper)) },
        [.clip (.notify session.environment "info" "transcribe-start" s!"Transcribing clip {session.id}")]) := by
    simp only [httpStep, h0, httpClipStep, longStep]
    rfl
  refine ⟨s, _, _, r.reachable, hst, ⟨pc, session, h0, ?_⟩, session', h1⟩
  show (s.threads.set 0 _)[0]? = _
  rw [List.getElem?_set_self (List.getElem?_eq_some_iff.mp h0).1]

/-- **No wake-up is lost.** While no clip is counted and an accepted clip is blocked in the `select` of
`waitForLocalTranscriptions`, the channel holds a token, or a finished transcription is about to send one, or another
waiter has received one and is about to try again. -/
theorem no_lost_wakeup {host : HttpHost} {s : Http} (hs : Reachable (httpSystem host) s)
    (h0 : s.transcriptions.ongoing = 0) {i : Nat} {pc : AcceptedPc} {session : Session}
    (hi : s.threads[i]? = some (.accepted pc session .select)) :
    s.transcriptions.idle = true ∨ (∃ (j : Nat) (t : Thread), s.threads[j]? = some t ∧ t.signalling = true) ∨
    ∃ (j : Nat) (pc : AcceptedPc) (session : Session), j ≠ i ∧
      s.threads[j]? = some (.accepted pc session (.cas true)) := by
  have hback : ∀ {j : Nat} {q : Gate.Role}, s.gateRoles[j]? = some q →
      ∃ t, s.threads[j]? = some t ∧ t.gateRole = q := by
    intro j q hj
    rw [Http.gateRoles, List.getElem?_map] at hj
    exact Option.map_eq_some_iff.mp hj
  rcases (gateOk_of_reachable hs).wakeup h0 ⟨i, getElem?_gateRoles hi⟩ with ht | ⟨j, hj⟩ | ⟨j, hj⟩
  · exact Or.inl ht
  · obtain ⟨t, ht, hr⟩ := hback hj
    exact Or.inr (Or.inl ⟨j, t, ht, t.of_gateRole.1 hr⟩)
  · obtain ⟨t, ht, hr⟩ := hback hj
    obtain ⟨pc', session', rfl⟩ := t.of_gateRole.2.2 hr
    refine Or.inr (Or.inr ⟨j, pc', session', ?_, ht⟩)
    rintro rfl
    rw [hi] at ht; cases ht

/-- A local clip has just uncounted itself while a clip waits. -/
theorem no_lost_wakeup_signal : ∃ (s : Http) (pc : AcceptedPc) (session : Session),
    Reachable (httpSystem silentHost) s ∧
    s.threads[1]? = some (.accepted pc session .select) ∧
    (s.transcriptions.idle = true ∨ (∃ (j : Nat) (t : Thread), s.threads[j]? = some t ∧ t.signalling = true) ∨
      ∃ (j : Nat) (pc : AcceptedPc) (session : Session), j ≠ 1 ∧
        s.threads[j]? = some (.accepted pc session (.cas true))) := by
  obtain ⟨_, s, r, hq⟩ := Run.exists_of_exec (M := httpSystem silentHost) rfl
    ([.transcribe (localClip 1), .clip 0 .next, .clip 0 .next] ++ submit 1 ++
      [.clip 1 .next, .clip 1 .next, .clip 0 .next, .clip 0 (.whisper (.text "hello")), .clip 0 .next])
    (fun _ s => (s.transcriptions.ongoing = 0 : Bool) && s.threads[1]?.any fun t => t.gateRole = .waiting)
    (by decide +kernel)
  rw [Bool.and_eq_true, Option.any_eq_true] at hq
  obtain ⟨h0, t, ht, hw⟩ := hq
  obtain ⟨pc, session, rfl⟩ := t.of_gateRole.2.1 (of_decide_eq_true hw)
  exact ⟨s, pc, session, r.reachable, ht, no_lost_wakeup r.reachable (of_decide_eq_true h0) ht⟩

end Talk2Text.Daemon
