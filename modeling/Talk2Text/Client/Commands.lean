import Talk2Text.Client.Run
import Talk2Text.Daemon.System

/-!
# What a command means to the daemon

`client.Run` against `daemon.Request`: which variables of the client's environment a start or a stop carries
(`lookup_collect`), what the daemon finds under their names, and whether it accepts the request.

- `originID_built`: the owner that the daemon reads from a start or a stop is the session of the client;
- `stop_names_owner`: a stop names the owner of a start from the same environment;
- `start_served`: a start is accepted iff all names that were added and are set are allowed.
-/

namespace Talk2Text.Client

open Format Json Daemon
open Server (StatusData)

section Collect

variable {lookupEnv : List UInt8 → Option (List UInt8)} {names : List (List UInt8)} {k v : List UInt8}
  {environment environment' : List (List UInt8 × List UInt8)}

/-- **The variables that are sent** are those of the names that are set. -/
theorem lookup_collect (h : collect lookupEnv names environment = .ok environment') :
    environment'.lookup k = if k ∈ names ∧ (lookupEnv k).isSome = true then lookupEnv k else environment.lookup k := by
  induction names generalizing environment with
  | nil =>
    cases h
    exact (if_neg fun hk => absurd hk.1 List.not_mem_nil).symm
  | cons name names ih =>
    rw [collect] at h
    split at h
    · rename_i hnone
      rw [ih h]
      by_cases hk : k = name
      · have hunset : ¬(lookupEnv k).isSome = true := by rw [hk, hnone]; exact Bool.false_ne_true
        rw [if_neg fun hc => hunset hc.2, if_neg fun hc => hunset hc.2]
      · simp only [List.mem_cons, hk, false_or]
    · rename_i value hsome
      split at h
      · cases h
      · rw [ih h, Assoc.lookup_assign]
        by_cases hk : k = name
        · have hset : (lookupEnv k).isSome = true := by rw [hk, hsome]; rfl
          rw [if_pos hk, if_pos (⟨hk ▸ List.mem_cons_self, hset⟩ : k ∈ name :: names ∧ _), ← hsome, hk, ite_self]
        · simp only [List.mem_cons, hk, false_or, if_false]

/-- Their values are valid. -/
theorem valid_collect (hv : ∀ m ∈ environment, validateValue m.2 = none)
    (h : collect lookupEnv names environment = .ok environment') : ∀ m ∈ environment', validateValue m.2 = none := by
  induction names generalizing environment with
  | nil =>
    cases h
    exact hv
  | cons name names ih =>
    rw [collect] at h
    split at h
    · exact ih hv h
    · split at h
      · cases h
      · refine ih (fun m hm => ?_) h
        rcases Assoc.mem_assign hm with rfl | hm
        · assumption
        · exact hv m hm

end Collect

/-! ## The owner -/

/-- The names that a command sends. -/
def namesOf (command : String) (sendEnv : List (List UInt8)) : List (List UInt8) :=
  (if command = "start" then startAutomaticNames else stopAutomaticNames) ++ sendEnv

/-- The session of the client. -/
def sessionOrigin (lookupEnv : List UInt8 → Option (List UInt8)) : String :=
  let value name := decodeUtf8 ((lookupEnv (utf8 name)).getD [])
  if value RequestEnv.sessionIDName ≠ "" then value RequestEnv.sessionIDName else value RequestEnv.xdgSessionIDName

section Owner

variable {lookupEnv : List UInt8 → Option (List UInt8)} {command : String} {sendEnv : List (List UInt8)}
  {r : Request} {environment : List (List UInt8 × List UInt8)} {s : String}

theorem collect_of_buildRequest (hc : command = "start" ∨ command = "stop")
    (h : buildRequest lookupEnv command sendEnv = .ok r) :
    ∃ environment, collect lookupEnv (namesOf command sendEnv) [] = .ok environment ∧
      r = ⟨command, some environment⟩ := by
  have hbuild : buildRequest lookupEnv command sendEnv =
      (collect lookupEnv (namesOf command sendEnv) []).map fun environment => ⟨command, some environment⟩ := by
    rcases hc with rfl | rfl <;> rfl
  rw [hbuild] at h
  cases hcollect : collect lookupEnv (namesOf command sendEnv) [] with
  | error err =>
    rw [hcollect] at h
    cases h
  | ok environment =>
    rw [hcollect] at h
    cases h
    exact ⟨environment, rfl, rfl⟩

/-- **What the daemon finds** under a name without U+FFFD. -/
theorem lookup_readEnv (hn : (environment.map Prod.fst).Nodup) (hs : replacementChar ∉ s.toList) :
    (readEnv environment).lookup s = (environment.lookup (utf8 s)).map decodeUtf8 := by
  have hperm : (sorted environment).Perm environment := List.perm_insertionSort _ _
  -- only one name is read as `s`
  have honly : ∀ p ∈ (sorted environment).map (fun m => (decodeUtf8 m.1, decodeUtf8 m.2)), p.1 = s →
      environment.lookup (utf8 s) = none → False := by
    intro p hp hps hnone
    obtain ⟨m, hm, rfl⟩ := List.mem_map.mp hp
    have hmem : (utf8 s, m.2) ∈ environment := eq_utf8_of_decodeUtf8 hs hps ▸ hperm.mem_iff.mp hm
    rw [Assoc.lookup_of_mem hn hmem] at hnone
    cases hnone
  have hvalue : ∀ p ∈ (sorted environment).map (fun m => (decodeUtf8 m.1, decodeUtf8 m.2)), p.1 = s →
      p.2 = decodeUtf8 ((environment.lookup (utf8 s)).getD []) := by
    intro p hp hps
    obtain ⟨m, hm, rfl⟩ := List.mem_map.mp hp
    have hmem : (utf8 s, m.2) ∈ environment := eq_utf8_of_decodeUtf8 hs hps ▸ hperm.mem_iff.mp hm
    rw [Assoc.lookup_of_mem hn hmem]
    rfl
  rw [readEnv, Assoc.assigned, Assoc.lookup_assignAll hvalue]
  cases hl : environment.lookup (utf8 s) with
  | none =>
    refine if_neg fun hmem => ?_
    obtain ⟨p, hp, hps⟩ := List.mem_map.mp hmem
    exact honly p hp hps hl
  | some v =>
    have hmem : (utf8 s, v) ∈ sorted environment := hperm.mem_iff.mpr (Assoc.mem_of_lookup hl)
    refine if_pos (List.mem_map.mpr ⟨_, List.mem_map_of_mem hmem, decodeUtf8_utf8 s⟩)

/-- **The owner** of a start or a stop is the session of the client. -/
theorem originID_built (hc : command = "start" ∨ command = "stop")
    (h : buildRequest lookupEnv command sendEnv = .ok r) :
    RequestEnv.originID (readEnv (r.env.getD [])) = sessionOrigin lookupEnv := by
  obtain ⟨-, hnodup⟩ := of_buildRequest h
  obtain ⟨environment, hcollect, rfl⟩ := collect_of_buildRequest hc h
  have hnodup : (environment.map Prod.fst).Nodup := hnodup
  have hget : ∀ name, replacementChar ∉ name.toList → utf8 name ∈ namesOf command sendEnv →
      RequestEnv.get (readEnv environment) name = decodeUtf8 ((lookupEnv (utf8 name)).getD []) := by
    intro name hname hmem
    rw [RequestEnv.get, lookup_readEnv hnodup hname, lookup_collect hcollect]
    cases hset : lookupEnv (utf8 name) with
    | none =>
      rw [if_neg fun h => Bool.false_ne_true h.2]
      rfl
    | some value =>
      rw [if_pos ⟨hmem, rfl⟩]
      rfl
  have hnames : utf8 RequestEnv.sessionIDName ∈ namesOf command sendEnv ∧
      utf8 RequestEnv.xdgSessionIDName ∈ namesOf command sendEnv := by
    rcases hc with rfl | rfl
    · exact ⟨List.mem_append_left _ (by decide), List.mem_append_left _ (by decide)⟩
    · exact ⟨List.mem_append_left _ (by decide), List.mem_append_left _ (by decide)⟩
  show RequestEnv.originID (readEnv environment) = _
  rw [RequestEnv.originID, hget _ (by decide) hnames.1, hget _ (by decide) hnames.2, sessionOrigin]

theorem originID_perm {environment environment' : Environment} (hn : (environment.map Prod.fst).Nodup)
    (hp : environment'.Perm environment) : RequestEnv.originID environment' = RequestEnv.originID environment := by
  have hget : ∀ name, RequestEnv.get environment' name = RequestEnv.get environment name :=
    fun name => congrArg (fun value => Option.getD value "") (Assoc.lookup_perm hn hp)
  rw [RequestEnv.originID, RequestEnv.originID, hget, hget]

/-- The request as it is traversed: its map comes in any order. -/
def Traversed (r' : Server.Request) (r'' : Server.Request) : Prop :=
  r''.command = r'.command ∧ (r''.env.getD []).Perm (r'.env.getD [])

/-- What is read of a request that is sent. -/
theorem of_readRequest {ending : Ending} {r' : Server.Request} (hc : r.command ≠ "")
    (h : Server.readRequest ⟨sendRequest r, ending⟩ = .ok r') :
    r'.command = r.command ∧ r'.env.getD [] = readEnv (r.env.getD []) := by
  obtain ⟨env, hcheck, henv⟩ := checkRequest_decodedRequest hc
  by_cases hle : (encodeRequest r).length ≤ Server.maxRequestBytes
  · rw [(readRequest_sendRequest r ending).1 hle, hcheck] at h
    cases h
    exact ⟨rfl, henv⟩
  · obtain ⟨err, herr⟩ := (readRequest_sendRequest r ending).2 (Nat.lt_of_not_le hle)
    rw [herr] at h
    cases h

/-- The calls that the daemon makes for a start and a stop. -/
theorem call_of_dispatch {cfg : Config} {done : Bool} {r' : Server.Request} {call : Command}
    (h : dispatch cfg done r' = .ok call) :
    (r'.command = "start" → call = .start (r'.env.getD [])) ∧
      (r'.command = "stop" → call = .stop (RequestEnv.originID (r'.env.getD []))) := by
  obtain ⟨name, env⟩ := r'
  unfold dispatch at h
  split at h
  · cases h
  · dsimp only at h
    split at h
    · cases h
    · constructor
      · rintro rfl
        cases h
        rfl
      · rintro rfl
        cases h
        rfl

end Owner

/-- **A stop** names the owner of every start from the same environment, whatever names are added to either. -/
theorem stop_names_owner {lookupEnv : List UInt8 → Option (List UInt8)} {sendEnv sendEnv' : List (List UInt8)}
    {start stop : Request} (hstart : buildRequest lookupEnv "start" sendEnv = .ok start)
    (hstop : buildRequest lookupEnv "stop" sendEnv' = .ok stop) {ending ending' : Ending}
    {r r' s s' : Server.Request} (hr : Server.readRequest ⟨sendRequest start, ending⟩ = .ok r)
    (hs : Server.readRequest ⟨sendRequest stop, ending'⟩ = .ok s) (hr' : Traversed r r') (hs' : Traversed s s')
    {cfg : Config} {done done' : Bool} {call call' : Command} (hcall : dispatch cfg done r' = .ok call)
    (hcall' : dispatch cfg done' s' = .ok call') :
    ∃ environment, call = .start environment ∧ call' = .stop (RequestEnv.originID environment) ∧
      RequestEnv.originID environment = sessionOrigin lookupEnv := by
  obtain ⟨hstartCommand, -⟩ := of_buildRequest hstart
  obtain ⟨hstopCommand, -⟩ := of_buildRequest hstop
  obtain ⟨hrCommand, hrEnv⟩ := of_readRequest (by rw [hstartCommand]; decide) hr
  obtain ⟨hsCommand, hsEnv⟩ := of_readRequest (by rw [hstopCommand]; decide) hs
  have howner : ∀ {command sendEnv} {sent : Request} {t t' : Server.Request}, command = "start" ∨ command = "stop" →
      buildRequest lookupEnv command sendEnv = .ok sent → t.env.getD [] = readEnv (sent.env.getD []) →
      Traversed t t' → RequestEnv.originID (t'.env.getD []) = sessionOrigin lookupEnv := by
    intro command sendEnv sent t t' hc hsent henv ht
    have hn : ((t.env.getD []).map Prod.fst).Nodup := henv ▸ Assoc.nodup_assigned _
    rw [originID_perm hn ht.2, henv]
    exact originID_built hc hsent
  have hrOwner := howner (.inl rfl) hstart hrEnv hr'
  have hsOwner := howner (.inr rfl) hstop hsEnv hs'
  refine ⟨r'.env.getD [], (call_of_dispatch hcall).1 (hr'.1.trans (hrCommand.trans hstartCommand)), ?_, hrOwner⟩
  rw [hrOwner, ← hsOwner]
  exact (call_of_dispatch hcall').2 (hs'.1.trans (hsCommand.trans hstopCommand))

theorem stop_names_owner_session : ∃ environment, Command.start [("XDG_SESSION_ID", "3"), ("DISPLAY", ":0")] =
      .start environment ∧ Command.stop "3" = .stop (RequestEnv.originID environment) ∧
      RequestEnv.originID environment = sessionOrigin (sessionEnv (utf8 ":0")) := by
  have hstart : buildRequest (sessionEnv (utf8 ":0")) "start" [] = .ok ⟨"start",
      some [(utf8 RequestEnv.xdgSessionIDName, utf8 "3"), (utf8 RequestEnv.displayName, utf8 ":0")]⟩ := by
    decide +kernel
  have hstop : buildRequest (sessionEnv (utf8 ":0")) "stop" [] = .ok ⟨"stop",
      some [(utf8 RequestEnv.xdgSessionIDName, utf8 "3")]⟩ := by decide +kernel
  have hr : Server.readRequest ⟨sendRequest ⟨"start",
      some [(utf8 RequestEnv.xdgSessionIDName, utf8 "3"), (utf8 RequestEnv.displayName, utf8 ":0")]⟩, .timeout⟩ =
      .ok ⟨"start", some [("DISPLAY", ":0"), ("XDG_SESSION_ID", "3")]⟩ := by decide +kernel
  have hs : Server.readRequest ⟨sendRequest ⟨"stop", some [(utf8 RequestEnv.xdgSessionIDName, utf8 "3")]⟩, .timeout⟩ =
      .ok ⟨"stop", some [("XDG_SESSION_ID", "3")]⟩ := by decide +kernel
  have hr' : Traversed ⟨"start", some [("DISPLAY", ":0"), ("XDG_SESSION_ID", "3")]⟩
      ⟨"start", some [("XDG_SESSION_ID", "3"), ("DISPLAY", ":0")]⟩ := ⟨rfl, List.Perm.swap ..⟩
  exact @stop_names_owner _ _ _ _ _ hstart hstop _ _ _ _ _ _ hr hs hr' ⟨rfl, .rfl⟩ {} false false _ _
    (by decide +kernel) (by decide +kernel)

/-! ## Starting -/

/-- `daemon.Request`, which traverses the map in the order of `traverse`; `execute` is what becomes of the call. -/
def request (cfg : Config) (traverse : Environment → Environment)
    (execute : Command → Except String (Option StatusData)) (r : Server.Request) : Except String (Option StatusData) :=
  dispatch cfg false { r with env := r.env.map traverse } >>= execute

section Start

variable {lookupEnv : List UInt8 → Option (List UInt8)} {sendEnv : List (List UInt8)} {r : Request} {cfg : Config}
  {environment : List (List UInt8 × List UInt8)}

/-- With valid values, the error is that of a name. -/
theorem validateAllowed_names {environment : Environment} {additional : List String}
    (hv : ∀ m ∈ environment, RequestEnv.validateValue m.2 = none) :
    RequestEnv.validateAllowed environment additional = none ∨
      ∃ m ∈ environment, m.1 ∉ RequestEnv.predefinedNames ++ additional ∧
        RequestEnv.validateAllowed environment additional = some ("environment variable " ++ m.1 ++ " is not allowed") := by
  induction environment with
  | nil => exact .inl rfl
  | cons m rest ih =>
    obtain ⟨name, value⟩ := m
    obtain ⟨hm, hrest⟩ := List.forall_mem_cons.mp hv
    by_cases hname : name ∈ RequestEnv.predefinedNames ++ additional
    · have hcons : RequestEnv.validateAllowed ((name, value) :: rest) additional =
          RequestEnv.validateAllowed rest additional := by
        have hc : (RequestEnv.predefinedNames ++ additional).contains name = true := List.contains_iff_mem.mpr hname
        rw [RequestEnv.validateAllowed, hc]
        simp only [Bool.not_true, Bool.false_eq_true, if_false, hm]
      rw [hcons]
      rcases ih hrest with hnone | ⟨m, hm, hallowed, herr⟩
      · exact .inl hnone
      · exact .inr ⟨m, List.mem_cons_of_mem _ hm, hallowed, herr⟩
    · refine .inr ⟨_, List.mem_cons_self, hname, ?_⟩
      have hc : (RequestEnv.predefinedNames ++ additional).contains name = false := by
        rw [Bool.eq_false_iff, Ne, List.contains_iff_mem]
        exact hname
      rw [RequestEnv.validateAllowed, hc]
      rfl

/-- The names that the client sends by itself are allowed. -/
theorem automatic_allowed : ∀ name ∈ startAutomaticNames, decodeUtf8 name ∈ RequestEnv.predefinedNames := by
  simp [startAutomaticNames, RequestEnv.predefinedNames]

/-- The variables that are sent, and no others. -/
theorem mem_collect {names : List (List UInt8)} {m : List UInt8 × List UInt8}
    (hn : (environment.map Prod.fst).Nodup) (h : collect lookupEnv names [] = .ok environment) :
    m ∈ environment ↔ m.1 ∈ names ∧ lookupEnv m.1 = some m.2 := by
  have hlookup : environment.lookup m.1 = some m.2 ↔ m.1 ∈ names ∧ lookupEnv m.1 = some m.2 := by
    rw [lookup_collect h]
    by_cases hm : m.1 ∈ names ∧ (lookupEnv m.1).isSome = true
    · rw [if_pos hm]
      exact ⟨fun he => ⟨hm.1, he⟩, fun he => he.2⟩
    · rw [if_neg hm]
      constructor
      · intro he
        cases he
      · rintro ⟨hmem, he⟩
        exact absurd ⟨hmem, by rw [he]; rfl⟩ hm
  rw [← hlookup]
  exact ⟨fun hm => Assoc.lookup_of_mem hn hm, Assoc.mem_of_lookup⟩

/-- What the daemon reads is what was sent, if that is UTF-8. -/
theorem mem_readEnv (hn : (environment.map Prod.fst).Nodup) (hv : ∀ m ∈ environment, ValidUtf8 m.1 ∧ ValidUtf8 m.2)
    {m : String × String} : m ∈ readEnv environment ↔ (utf8 m.1, utf8 m.2) ∈ environment := by
  rw [← (readEnv_perm hn hv).mem_iff, List.mem_map]
  constructor
  · exact fun hm => ⟨m, hm, rfl⟩
  · rintro ⟨m', hm', he⟩
    obtain ⟨h₁, h₂⟩ := Prod.mk.inj he
    rw [utf8_inj] at h₁ h₂
    exact Prod.ext h₁ h₂ ▸ hm'

/-- What the daemon makes of a start. -/
theorem request_start (traverse : Environment → Environment) (execute : Command → Except String (Option StatusData))
    (env : Option Environment) :
    request cfg traverse execute ⟨"start", env⟩ =
      match RequestEnv.validateAllowed ((env.map traverse).getD []) cfg.allowClientEnv with
      | some err => .error err
      | none => execute (.start ((env.map traverse).getD [])) := by
  have hdispatch : dispatch cfg false ⟨"start", env.map traverse⟩ =
      match RequestEnv.validateAllowed ((env.map traverse).getD []) cfg.allowClientEnv with
      | some err => .error err
      | none => .ok (.start ((env.map traverse).getD [])) := rfl
  show dispatch cfg false ⟨"start", env.map traverse⟩ >>= execute = _
  rw [hdispatch]
  cases RequestEnv.validateAllowed ((env.map traverse).getD []) cfg.allowClientEnv with
  | none => rfl
  | some err => rfl

end Start

/-- **A start** whose variables are UTF-8 and within the limit: if every name that was added and is set is allowed by
the daemon, `start` is called with exactly the variables of the client, whose owner is the session of the client, and the
command ends as the daemon decides. Otherwise it is refused, and the client reports such a name. -/
theorem start_served (durationString : Int64 → String) (jsonText : Error → String) (cfg : Config)
    {traverse : Environment → Environment} (ht : ∀ environment, (traverse environment).Perm environment)
    (execute : Command → Except String (Option StatusData)) (ending : Ending)
    {lookupEnv : List UInt8 → Option (List UInt8)} {sendEnv : List (List UInt8)} {r : Request}
    (h : buildRequest lookupEnv "start" sendEnv = .ok r) (hle : (encodeRequest r).length ≤ Server.maxRequestBytes)
    (hv : ∀ m ∈ r.env.getD [], ValidUtf8 m.1 ∧ ValidUtf8 m.2) :
    ((∀ name ∈ sendEnv, (lookupEnv name).isSome = true →
          decodeUtf8 name ∈ RequestEnv.predefinedNames ++ cfg.allowClientEnv) ∧
        ∃ environment : Environment,
          (environment.map fun m => (utf8 m.1, utf8 m.2)).Perm (r.env.getD []) ∧
          RequestEnv.originID environment = sessionOrigin lookupEnv ∧
          run durationString lookupEnv (serving jsonText (request cfg traverse execute) ending) "start" sendEnv =
            outcome durationString "start" (execute (.start environment))) ∨
      ∃ name ∈ sendEnv, (lookupEnv name).isSome = true ∧
        decodeUtf8 name ∉ RequestEnv.predefinedNames ++ cfg.allowClientEnv ∧
        run durationString lookupEnv (serving jsonText (request cfg traverse execute) ending) "start" sendEnv =
          .error (.refused ("environment variable " ++ decodeUtf8 name ++ " is not allowed")) := by
  obtain ⟨-, hn⟩ := of_buildRequest h
  have howner := originID_built (.inl rfl) h
  obtain ⟨env, henv, -, hrun⟩ :=
    @run_of_le durationString jsonText (request cfg traverse execute) ending _ _ _ _ h (by decide) hle
  obtain ⟨environment, hcollect, rfl⟩ := collect_of_buildRequest (.inl rfl) h
  change (environment.map Prod.fst).Nodup at hn
  change ∀ m ∈ environment, ValidUtf8 m.1 ∧ ValidUtf8 m.2 at hv
  change env.getD [] = readEnv environment at henv
  rw [request_start] at hrun
  -- the map in the order in which it is traversed
  have hperm : ((env.map traverse).getD []).Perm (readEnv environment) := by
    rw [← henv]
    cases env with
    | none => exact .rfl
    | some environment => exact ht environment
  have hsent : ∀ m ∈ (env.map traverse).getD [],
      utf8 m.1 ∈ namesOf "start" sendEnv ∧ lookupEnv (utf8 m.1) = some (utf8 m.2) :=
    fun m hm => (mem_collect hn hcollect).mp ((mem_readEnv hn hv).mp (hperm.mem_iff.mp hm))
  have hvalues : ∀ m ∈ (env.map traverse).getD [], RequestEnv.validateValue m.2 = none := by
    intro m hm
    rw [← validateValue_utf8]
    exact valid_collect (fun _ hm => absurd hm List.not_mem_nil) hcollect _
      ((mem_readEnv hn hv).mp (hperm.mem_iff.mp hm))
  rcases @validateAllowed_names _ cfg.allowClientEnv hvalues with hnone | ⟨m, hm, hname, herr⟩
  · rw [hnone] at hrun
    refine .inl ⟨fun name hmem hset => ?_, _, (hperm.map _).trans (readEnv_perm hn hv),
      (originID_perm (Assoc.nodup_assigned _) hperm).trans howner, hrun⟩
    obtain ⟨value, hvalue⟩ := Option.isSome_iff_exists.mp hset
    have hin : (name, value) ∈ environment := (mem_collect hn hcollect).mpr ⟨List.mem_append_right _ hmem, hvalue⟩
    have hread : (decodeUtf8 name, decodeUtf8 value) ∈ readEnv environment := by
      rw [mem_readEnv hn hv, utf8_decodeUtf8_iff.mpr (hv _ hin).1, utf8_decodeUtf8_iff.mpr (hv _ hin).2]
      exact hin
    exact (RequestEnv.validateAllowed_eq_none.mp hnone _ (hperm.mem_iff.mpr hread)).1
  · rw [herr] at hrun
    obtain ⟨hnames, hvalue⟩ := hsent m hm
    have hadded : utf8 m.1 ∈ sendEnv := by
      refine (List.mem_append.mp hnames).resolve_left fun hauto => hname ?_
      have hallowed := automatic_allowed _ hauto
      rw [decodeUtf8_utf8] at hallowed
      exact List.mem_append_left _ hallowed
    refine .inr ⟨utf8 m.1, hadded, by rw [hvalue]; rfl, by rwa [decodeUtf8_utf8], ?_⟩
    rw [hrun, decodeUtf8_utf8, outcome]
    simp

theorem start_served_session : ∃ environment : Environment, RequestEnv.originID environment = "3" ∧
    run (fun _ => "1s") (sessionEnv (utf8 ":0")) (serving (fun _ => "") (request {} List.reverse fun _ => .ok none) .eof) "start" [] =
      .ok "" := by
  have hbuild : buildRequest (sessionEnv (utf8 ":0")) "start" [] = .ok ⟨"start",
      some [(utf8 RequestEnv.xdgSessionIDName, utf8 "3"), (utf8 RequestEnv.displayName, utf8 ":0")]⟩ := by
    decide +kernel
  have hvalid : ∀ m ∈ [(utf8 RequestEnv.xdgSessionIDName, utf8 "3"), (utf8 RequestEnv.displayName, utf8 ":0")],
      ValidUtf8 m.1 ∧ ValidUtf8 m.2 := by
    simp only [List.forall_mem_cons]
    exact ⟨⟨⟨_, rfl⟩, _, rfl⟩, ⟨⟨_, rfl⟩, _, rfl⟩, fun _ h => absurd h List.not_mem_nil⟩
  rcases start_served (fun _ => "1s") (fun _ => "") {} List.reverse_perm (fun _ => .ok none) .eof hbuild (by decide +kernel) hvalid with
    ⟨-, environment, -, howner, hrun⟩ | ⟨name, hname, -⟩
  · exact ⟨environment, howner.trans (by decide +kernel), hrun⟩
  · exact absurd hname List.not_mem_nil

end Talk2Text.Client
