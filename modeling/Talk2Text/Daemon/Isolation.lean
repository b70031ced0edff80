import Talk2Text.Sys.Rank
import Talk2Text.Daemon.ClipIDs
import Talk2Text.Daemon.Rename

/-!
# Only the owner controls a recording

A request is foreign when its environment is not allowed, when it asks for the status only, and when it is a start or
a stop from anyone but the owner of the active recording; HTTP submissions are foreign whatever they contain.

`only_owner_controls`: a foreign request leaves the whole capture state except for the clip counter, which only an
accepted submission moves, and a run without its foreign requests and submissions is a run as well, in which the
capture goes through the same states with other clip IDs: the same local clips are recorded, with the same audio, and
each is finished by the same step.

The second run is built along the first (`isolated_of_run`); `rank` gives the local clips the IDs they get there. What
the goroutines of the HTTP side do with finished clips comes after the capture and is left out with the submissions.
-/

namespace Talk2Text.Daemon

open Sys
open Server (Request)

/-- The request does not come from the owner of the active recording, or does not ask for anything. -/
def foreignRequest (cfg : Config) (s : Capture) (r : Request) : Bool :=
  let environment := r.env.getD []
  let originID := RequestEnv.originID environment
  (RequestEnv.validateAllowed environment cfg.allowClientEnv).isSome || r.command = "status" ||
    (r.command = "start" || r.command = "stop") && s.active.any fun a => originID = "" || a.originID ≠ originID

/-- The steps of foreign requests and of the HTTP side. -/
def foreign (cfg : Config) (st : DaemonStep) : Bool :=
  match st.label with
  | .request r _ _ => foreignRequest cfg st.pre.capture r
  | .capture _ => false
  | .http _ => true

/-- Events of the daemon without the texts of messages. -/
def DaemonEvent.view (f : Nat → Nat) : DaemonEvent → DaemonEvent
  | .capture e => .capture (e.view f)
  | e => e

/-- Steps that differ in clip IDs only. -/
structure SameStep (f : Nat → Nat) (st st' : DaemonStep) : Prop where
  label : st'.label = st.label
  pre : ∃ n, st'.pre.capture = st.pre.capture.rename f n
  out : st'.out.map (DaemonEvent.view id) = st.out.map (DaemonEvent.view f)
  post : ∃ n, st'.post.capture = st.post.capture.rename f n

section Foreign

variable {host : DaemonHost} {s t : DaemonState} {l : DaemonLabel} {out : List DaemonEvent}

/-- **A foreign start is refused and a foreign stop is acknowledged**, both without effect, and so is whatever is not
allowed and a request of the status. -/
theorem foreignRequest_step {r : Request} {done early : Bool} (hf : foreignRequest host.cfg s.capture r = true)
    (h : daemonStep host s (.request r done early) = some (t, out)) :
    t = s ∧ (r.command = "start" → ∃ err, out = [.answer (some err) none]) ∧
      (r.command = "stop" → (∃ o, dispatch host.cfg done r = .ok (.stop o)) → out = [.answer none none]) ∧
      startedClip ⟨s, .request r done early, out, t⟩ = none := by
  cases daemonStep_acts h with
  | fail r done early err _ hd =>
    refine ⟨rfl, fun _ => ⟨err, rfl⟩, fun _ ⟨o, ho⟩ => ?_, by simp [startedClip]⟩
    rw [hd] at ho
    cases ho
  | start r done early env c es hd hc =>
    obtain ⟨hcmd, rfl⟩ := (command_of_dispatch hd).1 env rfl
    simp only [foreignRequest, allowed_of_dispatch hd, hcmd] at hf
    obtain ⟨a, ha, hown⟩ : ∃ a, s.capture.active = some a ∧
        (RequestEnv.originID (r.env.getD []) = "" ∨ a.originID ≠ RequestEnv.originID (r.env.getD [])) := by
      simpa [Option.any_eq_true] using hf
    have hrefused : ∃ err, c = s.capture ∧ es = [.reply (some err)] := by
      cases captureStep_acts hc with
      | refuse env err _ => exact ⟨err, rfl, rfl⟩
      | beginSession env ho hb => exact absurd hown (not_or.mpr ⟨ho, not_not.mpr (hb a ha).1⟩)
      | finalize env b ho hb hb' _ =>
        rw [ha] at hb
        cases hb
        exact absurd hown (not_or.mpr ⟨ho, not_not.mpr hb'⟩)
    obtain ⟨err, rfl, rfl⟩ := hrefused
    refine ⟨s.join_self, fun _ => ⟨err, rfl⟩, fun hs => ?_, by simp [startedClip, Event.daemon]⟩
    rw [hcmd] at hs
    exact absurd hs (by decide)
  | stop r done early o c es hd hc =>
    obtain ⟨hcmd, rfl⟩ := (command_of_dispatch hd).2.1 o rfl
    simp only [foreignRequest, allowed_of_dispatch hd, hcmd] at hf
    obtain ⟨a, ha, hown⟩ : ∃ a, s.capture.active = some a ∧
        (RequestEnv.originID (r.env.getD []) = "" ∨ a.originID ≠ RequestEnv.originID (r.env.getD [])) := by
      simpa [Option.any_eq_true] using hf
    have hne : ∀ {b}, s.capture.active = some b → ¬b.OwnedBy (RequestEnv.originID (r.env.getD [])) := by
      intro b hb
      rw [ha] at hb
      cases hb
      exact fun h => hown.elim h.1 fun hne => hne h.2
    have hignored : c = s.capture ∧ es = [.reply none] := by
      cases captureStep_acts hc with
      | ignoreStop => exact ⟨rfl, rfl⟩
      | repeatStop o early b hb ho | schedule o early b hb ho | stopNow o early b hb ho => exact absurd ho (hne hb)
    obtain ⟨rfl, rfl⟩ := hignored
    refine ⟨s.join_self, fun hs => ?_, fun _ _ => rfl, by simp [startedClip, hcmd]⟩
    rw [hcmd] at hs
    exact absurd hs (by decide)
  | status r done early hd =>
    have hcmd := ((command_of_dispatch hd).2.2 rfl).1
    refine ⟨rfl, fun hs => ?_, fun hs => ?_, by simp [startedClip]⟩
    · rw [hcmd] at hs
      exact absurd hs (by decide)
    · rw [hcmd] at hs
      exact absurd hs (by decide)

/-- **A foreign step** leaves all of the capture but the clip counter. -/
theorem foreign_step (hf : foreign host.cfg ⟨s, l, out, t⟩ = true) (h : daemonStep host s l = some (t, out)) :
    t.capture = { s.capture with nextClip := t.capture.nextClip } ∧ startedClip ⟨s, l, out, t⟩ = none := by
  cases l with
  | request r done early =>
    obtain ⟨rfl, -, -, hst⟩ := foreignRequest_step hf h
    exact ⟨rfl, hst⟩
  | capture l => cases hf
  | http l =>
    refine ⟨?_, rfl⟩
    cases daemonStep_acts h with
    | http l c es _ _ => rfl

end Foreign

/-! ## The run without foreign requests -/

section Isolated

variable {host : DaemonHost} {f : Nat → Nat} {s t s' : DaemonState} {l : DaemonLabel} {out : List DaemonEvent}

theorem view_daemon {es es' : List Event} (h : SameEvents f es es') :
    (es'.map Event.daemon).map (DaemonEvent.view id) = (es.map Event.daemon).map (DaemonEvent.view f) := by
  have hview : ∀ (g : Nat → Nat) (e : Event), (e.daemon).view g = (e.view g).daemon := by
    intro g e
    cases e with
    | stream e => cases e <;> rfl
    | reply | transcribe | notify | log => rfl
  have hmap : ∀ (g : Nat → Nat) (es : List Event),
      (es.map Event.daemon).map (DaemonEvent.view g) = (es.map (Event.view g)).map Event.daemon := by
    intro g es
    simp [hview]
  rw [hmap, hmap, h]

/-- **A step that is not foreign** is a step of the renamed daemon, with the renamed result. -/
theorem kept_step {n : Nat} (hf : Function.Injective f) (h0 : f 0 = 0)
    (hfor : foreign host.cfg ⟨s, l, out, t⟩ = false) (hs' : s'.capture = s.capture.rename f n)
    (hn : startedClip ⟨s, l, out, t⟩ = some s.capture.nextClip → f s.capture.nextClip = n)
    (h : daemonStep host s l = some (t, out)) :
    ∃ t' out', daemonStep host s' l = some (t', out') ∧ SameStep f ⟨s, l, out, t⟩ ⟨s', l, out', t'⟩ ∧
      t'.capture = t.capture.rename f (n + (startedClip ⟨s, l, out, t⟩).toList.length) := by
  have hcan : s'.capture.cancelled = s.capture.cancelled := by rw [hs']; rfl
  have hpre : ∃ n, s'.capture = s.capture.rename f n := ⟨n, hs'⟩
  cases daemonStep_acts h with
  | fail r done early err hg hd =>
    have hguard : (done && !s'.capture.cancelled) = false := by
      rw [hcan]
      cases hdone : done with
      | false => rfl
      | true => rw [hg hdone]; rfl
    have hst : startedClip ⟨s, .request r done early, [.answer (some err) none], s⟩ = none := by simp [startedClip]
    refine ⟨s', [.answer (some err) none], ?_, ⟨rfl, hpre, rfl, hpre⟩, by rw [hst]; exact hs'⟩
    simp only [daemonStep, hguard, hd, Bool.false_eq_true, if_false]
  | start r done early env c es hd hc =>
    have hdone : done = false := by cases done <;> simp [dispatch] at hd ⊢
    subst hdone
    rcases start_clip hc with ⟨err, rfl, rfl⟩ | ⟨hnext, rfl, ha⟩
    · have hst : startedClip ⟨s, .request r false early, [Event.reply (some err)].map Event.daemon,
          .join s.capture s.http⟩ = none := by simp [startedClip, Event.daemon]
      have hc' := start_rename_refused (f := f) (n := n) (Option.some.inj hc)
      refine ⟨.join s'.capture s'.http, [.answer (some err) none], ?_, ⟨rfl, hpre, rfl, hpre⟩, by rw [hst]; exact hs'⟩
      simp only [daemonStep, hd, captureStep, hs', hc', Bool.false_and, Bool.false_eq_true, if_false]
      rfl
    · have hst : startedClip ⟨s, .request r false early, [Event.reply none].map Event.daemon, .join c s.http⟩ =
          some s.capture.nextClip := (startedClip_start hd).trans ha
      have hc' := start_rename_accepted hf h0 (hn hst) (Option.some.inj hc)
      refine ⟨.join (c.rename f (n + 1)) s'.http, [.answer none none], ?_, ⟨rfl, hpre, rfl, ⟨n + 1, rfl⟩⟩,
        by rw [hst]; rfl⟩
      simp only [daemonStep, hd, captureStep, hs', hc', Bool.false_and, Bool.false_eq_true, if_false]
      rfl
  | stop r done early o c es hd hc =>
    have hdone : done = false := by cases done <;> simp [dispatch] at hd ⊢
    subst hdone
    have hcmd := ((command_of_dispatch hd).2.1 o rfl).1
    have hst : startedClip ⟨s, .request r false early, es.map Event.daemon, .join c s.http⟩ = none := by
      simp [startedClip, hcmd]
    have hstop : s.capture.stop host.cfg o early = (c, es) := Option.some.inj hc
    have hc' := stop_rename (s := s.capture) (n := n) hf h0 host.cfg o early
    rw [hstop] at hc'
    have hsame : SameEvents f es es := by
      cases captureStep_acts hc <;> rfl
    refine ⟨.join (c.rename f n) s'.http, es.map Event.daemon, ?_, ⟨rfl, hpre, view_daemon hsame, ⟨n, rfl⟩⟩,
      by rw [hst]; rfl⟩
    simp only [daemonStep, hd, captureStep, DaemonHost.captureHost, hs', hc', Bool.false_and, Bool.false_eq_true,
      if_false]
    rfl
  | status r done early hd =>
    have hcmd := ((command_of_dispatch hd).2.2 rfl).1
    simp [foreign, foreignRequest, hcmd] at hfor
  | capture l c es hl hc =>
    obtain ⟨es', hc', hsame⟩ := captureStep_rename (n := n) hf h0 hl hc
    refine ⟨.join (c.rename f n) (s'.http.spawn (transcribed es')), es'.map Event.daemon, ?_,
      ⟨rfl, hpre, view_daemon hsame, ⟨n, rfl⟩⟩, rfl⟩
    simp only [daemonStep, hl, hs', hc', Bool.false_eq_true, if_false]
    rfl
  | http l c es _ _ => cases hfor

/-- **The run without its foreign requests and submissions**, when `L` lists the local clips of the whole run. -/
theorem isolated_of_run {h : List DaemonStep} (r : Run (daemonSystem host) h s) {L : List Nat} (hnodup : L.Nodup)
    (hpos : 0 ∉ L) (hL : started h <+: L) :
    ∃ h' s', Run (daemonSystem host) h' s' ∧
      List.Forall₂ (SameStep (rank L)) (h.filter fun st => !foreign host.cfg st) h' ∧
      s'.capture = s.capture.rename (rank L) ((started h).length + 1) := by
  refine Run.induction (P := fun h s => started h <+: L → ∃ h' s', Run (daemonSystem host) h' s' ∧
    List.Forall₂ (SameStep (rank L)) (h.filter fun st => !foreign host.cfg st) h' ∧
      s'.capture = s.capture.rename (rank L) ((started h).length + 1)) ?_ ?_ r hL
  · rintro s ⟨early, rfl⟩ -
    refine ⟨[], .initial host.cfg early, .nil ⟨early, rfl⟩, .nil, ?_⟩
    simp [DaemonState.initial, DaemonState.join, Capture.rename, Capture.initial, Control.rename, Control.initial,
      ManagerPc.rename, started, rank_zero hpos]
  · rintro h s l t out hr ih hst hL
    have hstarted : started (h ++ [⟨s, l, out, t⟩]) = started h ++ (startedClip ⟨s, l, out, t⟩).toList := by
      simp only [started, List.filterMap_append, filterMap_cons_toList, List.filterMap_nil, List.append_nil]
    rw [hstarted] at hL ⊢
    obtain ⟨h', s', r', hsame, hs'⟩ := ih ((List.prefix_append _ _).trans hL)
    rw [List.filter_append]
    cases hfor : foreign host.cfg ⟨s, l, out, t⟩ with
    | true =>
      obtain ⟨hcap, hnone⟩ := foreign_step hfor hst
      refine ⟨h', s', r', by simpa [hfor] using hsame, ?_⟩
      rw [hnone, Option.toList_none, List.append_nil, hs', hcap]
      rfl
    | false =>
      have hn : startedClip ⟨s, l, out, t⟩ = some s.capture.nextClip →
          rank L s.capture.nextClip = (started h).length + 1 := by
        intro hst
        rw [hst] at hL
        obtain ⟨L', rfl⟩ := hL
        rw [Option.toList_some, List.append_assoc, List.singleton_append]
        refine rank_append_cons fun hm => ?_
        have hne := (List.nodup_append.mp (List.nodup_append.mp hnodup).1).2.2 _ hm s.capture.nextClip (by simp)
        exact hne rfl
      obtain ⟨t', out', hst', hsame', ht'⟩ := kept_step (rank_injective L) (rank_zero hpos) hfor hs' hn hst
      refine ⟨h' ++ [⟨s', l, out', t'⟩], t', r'.snoc hst', ?_, ?_⟩
      · simp only [List.filter_cons, hfor, Bool.not_false, if_true, List.filter_nil]
        exact List.rel_append hsame (.cons hsame' .nil)
      · rw [ht', List.length_append]
        congr 1
        omega

end Isolated

/-! ## Finished clips -/

/-- The clips that a run has finished, with their audio. -/
def finished (es : List DaemonEvent) : List Session :=
  es.filterMap fun
    | .capture (.transcribe s) => some s
    | _ => none

section Finished

variable {host : DaemonHost} {f : Nat → Nat}

theorem finished_view (g : Nat → Nat) (es : List DaemonEvent) :
    finished (es.map (DaemonEvent.view g)) = (finished es).map (rename g) := by
  simp only [finished, List.filterMap_map, List.map_filterMap]
  apply List.filterMap_congr
  rintro e -
  cases e with
  | answer | http => rfl
  | capture e =>
    cases e with
    | stream e => cases e <;> rfl
    | reply | transcribe | notify | log => rfl

theorem finished_of_foreign {s t : DaemonState} {l : DaemonLabel} {out : List DaemonEvent}
    (hf : foreign host.cfg ⟨s, l, out, t⟩ = true) (h : daemonStep host s l = some (t, out)) : finished out = [] := by
  cases daemonStep_acts h with
  | fail | status => rfl
  | start r done early env c es hd hc =>
    obtain ⟨-, hstart, -⟩ := foreignRequest_step hf h
    obtain ⟨err, he⟩ := hstart ((command_of_dispatch hd).1 env rfl).1
    rw [he]
    rfl
  | stop r done early o c es hd hc =>
    have hdone : done = false := by cases done <;> simp [dispatch] at hd ⊢
    subst hdone
    obtain ⟨-, -, hstop, -⟩ := foreignRequest_step hf h
    have he := hstop ((command_of_dispatch hd).2.1 o rfl).1 ⟨o, hd⟩
    rw [he]
    rfl
  | capture => cases hf
  | http l c es _ _ =>
    simp [finished, List.filterMap_map]

/-- The kept steps finish all clips. -/
theorem finished_of_sameSteps {h h' : List DaemonStep}
    (hstep : ∀ st ∈ h, daemonStep host st.pre st.label = some (st.post, st.out))
    (hsame : List.Forall₂ (SameStep f) (h.filter fun st => !foreign host.cfg st) h') :
    finished (outputs h') = (finished (outputs h)).map (rename f) := by
  have hout : ∀ es es', finished (es ++ es') = finished es ++ finished es' := fun _ _ => List.filterMap_append
  have hcons : ∀ (st : DaemonStep) h, outputs (st :: h) = st.out ++ outputs h := fun _ _ => List.flatMap_cons
  induction h generalizing h' with
  | nil =>
    cases hsame
    rfl
  | cons st h ih =>
    have hst := hstep st List.mem_cons_self
    have hrest : ∀ st ∈ h, daemonStep host st.pre st.label = some (st.post, st.out) :=
      fun st' hm => hstep st' (List.mem_cons_of_mem _ hm)
    cases hfor : foreign host.cfg st with
    | true =>
      rw [List.filter_cons_of_neg (by simp [hfor])] at hsame
      rw [ih hrest hsame, hcons, hout, finished_of_foreign hfor hst, List.nil_append]
    | false =>
      rw [List.filter_cons_of_pos (by simp [hfor])] at hsame
      cases hsame with
      | cons hs hsame =>
        rename_i st' h'
        have hview := congrArg finished hs.out
        rw [finished_view, finished_view] at hview
        have hid : rename id = id := rfl
        rw [hid, List.map_id] at hview
        rw [hcons, hcons, hout, hout, List.map_append, ih hrest hsame, hview]

end Finished

/-- **Only the owner controls a recording.** A foreign request or submission leaves all of the capture but the clip
counter, which only a submission that is accepted moves; a foreign start is refused, a foreign stop acknowledged.
Without all of these there is a run with the same steps otherwise, in which the capture goes through the same states
and the same clips are finished, up to clip IDs. -/
theorem only_owner_controls {host : DaemonHost} {h : List DaemonStep} {s : DaemonState}
    (r : Run (daemonSystem host) h s) :
    (∀ st ∈ h, foreign host.cfg st = true →
      st.post.capture = { st.pre.capture with nextClip := st.post.capture.nextClip } ∧
      (st.post.capture.nextClip ≠ st.pre.capture.nextClip → ∃ i, Allocates i st ∧
        ∀ resp, .http (.respond i resp) ∈ outputs h → resp.status = 202) ∧
      ∀ req done early, st.label = .request req done early →
        (req.command = "start" → ∃ err, st.out = [.answer (some err) none]) ∧
        (req.command = "stop" → (∃ o, dispatch host.cfg done req = .ok (.stop o)) → st.out = [.answer none none])) ∧
    ∃ (f : Nat → Nat) (h' : List DaemonStep) (s' : DaemonState), Function.Injective f ∧
      (started h).map f = List.range' 1 (started h).length ∧ Run (daemonSystem host) h' s' ∧
      List.Forall₂ (SameStep f) (h.filter fun st => !foreign host.cfg st) h' ∧
      finished (outputs h') = (finished (outputs h)).map (rename f) := by
  have hstep : ∀ st ∈ h, daemonStep host st.pre st.label = some (st.post, st.out) := fun st hm => (r.mem_step hm).2
  constructor
  · rintro ⟨s₀, l, out, t⟩ hm hfor
    have hst := hstep _ hm
    obtain ⟨hcap, hnone⟩ := foreign_step hfor hst
    refine ⟨hcap, fun hne => ?_, ?_⟩
    · rcases takes_of_run r hm hne with hst | hi
      · rw [hnone] at hst
        cases hst
      · exact hi
    · rintro req done early rfl
      obtain ⟨-, hstart, hstop, -⟩ := foreignRequest_step hfor hst
      exact ⟨hstart, hstop⟩
  · have hperm := (clipIDs_of_run r).2.2
    have hnodup : (s.clipIDs h).Nodup := hperm.nodup_iff.mpr List.nodup_range'
    have hpos : 0 ∉ started h := by
      intro hm
      have hm' : 0 ∈ s.clipIDs h := List.mem_append_left _ (List.mem_append_left _ hm)
      simpa using hperm.mem_iff.mp hm'
    have hnodup : (started h).Nodup := (List.nodup_append.mp (List.nodup_append.mp hnodup).1).1
    obtain ⟨h', s', r', hsame, -⟩ := isolated_of_run r hnodup hpos (List.prefix_refl _)
    exact ⟨rank (started h), h', s', rank_injective _, map_rank hnodup, r', hsame,
      finished_of_sameSteps hstep hsame⟩

/-- A submission, and a clip that another session tries to stop and to replace: without these it is clip 1. -/
theorem only_owner_controls_intruder : ∃ h s h' s' f,
    Run (daemonSystem ⟨{ maxDuration := second }, fun _ => false, Amrwb.silence, fun _ => .ok []⟩) h s ∧
    started h = [2] ∧ h'.length + 10 = h.length ∧ f 2 = 1 ∧
    Run (daemonSystem ⟨{ maxDuration := second }, fun _ => false, Amrwb.silence, fun _ => .ok []⟩) h' s' ∧
    finished (outputs h') = (finished (outputs h)).map (rename f) := by
  obtain ⟨h, s, r, hq⟩ := Run.exists_of_exec
    (M := daemonSystem ⟨{ maxDuration := second }, fun _ => false, Amrwb.silence, fun _ => .ok []⟩) ⟨false, rfl⟩
    ((submit 0).map .http ++ [.http (.handler 0),
      .request ⟨"start", some [(RequestEnv.xdgSessionIDName, "3")]⟩ false false,
      .request ⟨"stop", some [(RequestEnv.xdgSessionIDName, "4")]⟩ false false,
      .capture (.audio [0, 0]),
      .request ⟨"start", some [(RequestEnv.xdgSessionIDName, "4")]⟩ false false,
      .request ⟨"stop", some [(RequestEnv.xdgSessionIDName, "3")]⟩ false false, .capture (.task 1)])
    (fun h _ => started h = [2] ∧ (h.filter (fun st => !foreign { maxDuration := second } st)).length + 10 = h.length ∧
      (finished (outputs h)).map Session.id = [2])
    (by decide +kernel)
  obtain ⟨hstarted, hlen, -⟩ := of_decide_eq_true hq
  obtain ⟨-, f, h', s', -, hf, r', hsame, hfin⟩ := only_owner_controls r
  rw [hstarted] at hf
  rw [hsame.length_eq] at hlen
  exact ⟨h, s, h', s', f, r, hstarted, hlen, by simpa using hf, r', hfin⟩

end Talk2Text.Daemon
