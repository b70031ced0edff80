import Mathlib.Data.List.Sort
import Talk2Text.Json.Encode
import Talk2Text.Server.Request

/-!
# The client

`client.buildRequest` and `client.sendIPCRequest`: which variables of its environment the client sends, and the text of
the request. The variables of a process are byte strings, and so are the names that the user adds.

The client limits every value, the daemon limits the whole request.

- `validateValue_utf8`: the check of a value is that of the daemon;
- `run_encodeRequest`: the text of a request is read as an object;
- `decoded_iff_fits`: the daemon reads a request iff its text is within the limit, and gets the same command, and the
  same variables when all are UTF-8;
- `built_not_agreed`: a request that is read with another value, and one that is not read.
-/

namespace Talk2Text.Client

open Format Json

/-- `server.Request`, with the byte strings of the client. -/
structure Request where
  command : String
  env : Option (List (List UInt8 × List UInt8))
  deriving DecidableEq, Repr

def startAutomaticNames : List (List UInt8) :=
  [utf8 RequestEnv.sessionIDName, utf8 RequestEnv.xdgSessionIDName, utf8 RequestEnv.displayName,
    utf8 RequestEnv.waylandDisplayName, utf8 RequestEnv.xAuthorityName, utf8 RequestEnv.dbusSessionBusAddressName,
    utf8 RequestEnv.xdgRuntimeDirName, utf8 RequestEnv.xdgSessionTypeName, utf8 RequestEnv.xdgSessionDesktopName,
    utf8 RequestEnv.xdgCurrentDesktopName]

def stopAutomaticNames : List (List UInt8) := [utf8 RequestEnv.sessionIDName, utf8 RequestEnv.xdgSessionIDName]

/-- The error of `requestenv.ValidateValue`, for a byte string. -/
def validateValue (value : List UInt8) : Option String :=
  if RequestEnv.maxValueBytes < value.length then
    some s!"environment variable value exceeds {RequestEnv.maxValueBytes} bytes"
  else if value.contains 0 then some "environment variable value must not contain NUL"
  else none

/-- The loop of `buildRequest` over the names; `lookupEnv` is `os.LookupEnv`. -/
def collect (lookupEnv : List UInt8 → Option (List UInt8)) :
    List (List UInt8) → List (List UInt8 × List UInt8) → Except (List UInt8) (List (List UInt8 × List UInt8))
  | [], environment => .ok environment
  | name :: names, environment =>
    match lookupEnv name with
    | none => collect lookupEnv names environment
    | some value =>
      match validateValue value with
      | some err => .error (utf8 "invalid environment variable " ++ name ++ utf8 (": " ++ err))
      | none => collect lookupEnv names (Assoc.assign environment name value)

/-- `buildRequest`, where the other commands have no environment. -/
def buildRequest (lookupEnv : List UInt8 → Option (List UInt8)) (command : String) (sendEnv : List (List UInt8)) :
    Except (List UInt8) Request :=
  if command = "start" then
    (collect lookupEnv (startAutomaticNames ++ sendEnv) []).map fun environment => ⟨command, some environment⟩
  else if command = "stop" then
    (collect lookupEnv (stopAutomaticNames ++ sendEnv) []).map fun environment => ⟨command, some environment⟩
  else .ok ⟨command, none⟩

/-- The members of a map in the order of the encoder. -/
def sorted (environment : List (List UInt8 × List UInt8)) : List (List UInt8 × List UInt8) :=
  environment.insertionSort fun m m' => m.1 ≤ m'.1

/-- The text of a request; an empty environment is omitted. -/
def encodeRequest (r : Request) : List UInt8 :=
  let env :=
    match r.env with
    | none | some [] => []
    | some environment => utf8 ",\"env\":" ++ encodeMap (sorted environment)
  utf8 "\x7b\"command\":" ++ (quote (utf8 r.command) ++ (env ++ [ascii '}']))

/-- What `sendIPCRequest` writes. -/
def sendRequest (r : Request) : List UInt8 := encodeRequest r ++ [ascii '\n']

/-- The variables as the daemon reads them. -/
def readEnv (environment : List (List UInt8 × List UInt8)) : Environment :=
  Assoc.assigned ((sorted environment).map fun m => (decodeUtf8 m.1, decodeUtf8 m.2))

section Encode

variable {r : Request} {ys : List UInt8} {ending : Ending}

/-- **The check of a value** is that of the daemon. -/
theorem validateValue_utf8 (s : String) : validateValue (utf8 s) = RequestEnv.validateValue s := by
  have hnul : (utf8 s).contains 0 = s.toList.any fun c => c = Char.ofNat 0 := by
    rw [Bool.eq_iff_iff, List.contains_iff_mem, utf8, mem_encodeRunes_ascii (by decide), List.any_eq_true]
    have hz : ∀ c : Char, c.toNat = (0 : UInt8).toNat ↔ c = Char.ofNat 0 :=
      fun c => ⟨fun h => Char.toNat_inj.mp h, fun h => h ▸ rfl⟩
    simp only [hz, decide_eq_true_eq]
  rw [validateValue, RequestEnv.validateValue, length_utf8, hnul]

/-- What a request reads as, before it is checked. -/
def decodedRequest (r : Request) : Value :=
  match r.env with
  | none | some [] => .object [("command", .string r.command)]
  | some environment =>
    .object [("command", .string r.command), ("env", .object ((sorted environment).map decodeMember))]

/-- **The text of a request** is read as an object. -/
theorem run_encodeRequest (r : Request) (ys : List UInt8) :
    Scanner.initial.run (encodeRequest r ++ ys) = .value (decodedRequest r) ys := by
  have hopen : Scanner.initial.run (utf8 "\x7b\"command\":") = .more ⟨.beginValue, [.objectValue [] "command"]⟩ := rfl
  have hclose : ∀ members key v, Scanner.run ⟨.endValue v, [.objectValue members key]⟩ ([ascii '}'] ++ ys) =
      .value (.object (members ++ [(key, v)])) ys := fun _ _ _ => rfl
  have hbare : Scanner.initial.run (utf8 "\x7b\"command\":" ++ (quote (utf8 r.command) ++ ([] ++ [ascii '}'])) ++ ys) =
      .value (.object [("command", .string r.command)]) ys := by
    rw [List.append_assoc, run_append_more hopen, List.append_assoc, run_quote, decodeUtf8_utf8, List.nil_append,
      hclose]
    rfl
  obtain ⟨command, env⟩ := r
  cases env with
  | none => exact hbare
  | some environment =>
    cases environment with
    | nil => exact hbare
    | cons m ms =>
      have henv : ∀ v zs, Scanner.run ⟨.endValue v, [.objectValue [] "command"]⟩ (utf8 ",\"env\":" ++ zs) =
          Scanner.run ⟨.beginValue, [.objectValue [("command", v)] "env"]⟩ zs := fun _ _ => rfl
      simp only [encodeRequest]
      rw [List.append_assoc, run_append_more hopen, List.append_assoc, run_quote, decodeUtf8_utf8, List.append_assoc,
        List.append_assoc, henv, run_encodeMap (by decide), hclose]
      rfl

/-- **What the daemon makes of it.** -/
theorem checkRequest_decodedRequest (h : r.command ≠ "") :
    ∃ env, Server.checkRequest (decodedRequest r) = .ok ⟨r.command, env⟩ ∧
      env.getD [] = readEnv (r.env.getD []) := by
  obtain ⟨command, env⟩ := r
  have hbare := Server.checkRequest_command h
  cases env with
  | none => exact ⟨none, hbare, rfl⟩
  | some environment =>
    cases environment with
    | nil => exact ⟨none, hbare, rfl⟩
    | cons m ms =>
      have herr : ((sorted (m :: ms)).map decodeMember).findSome? (fun m => Server.stringError m.2) = none := by
        rw [List.findSome?_eq_none_iff]
        intro p hp
        obtain ⟨m', -, rfl⟩ := List.mem_map.mp hp
        rfl
      have hcheck := Server.checkRequest_env h ((sorted (m :: ms)).map decodeMember)
      rw [herr] at hcheck
      refine ⟨_, hcheck, ?_⟩
      rw [List.map_map]
      rfl

end Encode

/-! ## Which requests are read -/

section Build

variable {lookupEnv : List UInt8 → Option (List UInt8)} {names sendEnv : List (List UInt8)}
  {environment environment' : List (List UInt8 × List UInt8)} {command : String} {r : Request} {ending : Ending}

theorem nodup_collect (hn : (environment.map Prod.fst).Nodup)
    (h : collect lookupEnv names environment = .ok environment') : (environment'.map Prod.fst).Nodup := by
  induction names generalizing environment with
  | nil =>
    cases h
    exact hn
  | cons name names ih =>
    rw [collect] at h
    split at h
    · exact ih hn h
    · split at h
      · cases h
      · exact ih (Assoc.nodup_assign hn) h

/-- **A built request** has the command, and variables with distinct names. -/
theorem of_buildRequest (h : buildRequest lookupEnv command sendEnv = .ok r) :
    r.command = command ∧ ((r.env.getD []).map Prod.fst).Nodup := by
  have hcollect : ∀ {names},
      (collect lookupEnv names []).map (fun environment => (⟨command, some environment⟩ : Request)) = .ok r →
      r.command = command ∧ ((r.env.getD []).map Prod.fst).Nodup := by
    intro names h
    cases hc : collect lookupEnv names [] with
    | error err =>
      rw [hc] at h
      cases h
    | ok environment =>
      rw [hc] at h
      cases h
      have hnil : (([] : List (List UInt8 × List UInt8)).map Prod.fst).Nodup := List.nodup_nil
      exact ⟨rfl, nodup_collect hnil hc⟩
  unfold buildRequest at h
  split at h
  · exact hcollect h
  split at h
  · exact hcollect h
  · cases h
    exact ⟨rfl, List.nodup_nil⟩

/-- **Variables that are UTF-8** are read as they are. -/
theorem readEnv_perm (hn : (environment.map Prod.fst).Nodup)
    (hv : ∀ m ∈ environment, ValidUtf8 m.1 ∧ ValidUtf8 m.2) :
    ((readEnv environment).map fun m => (utf8 m.1, utf8 m.2)).Perm environment := by
  have hperm : (sorted environment).Perm environment := List.perm_insertionSort _ _
  have hvalid : ∀ m ∈ sorted environment, utf8 (decodeUtf8 m.1) = m.1 ∧ utf8 (decodeUtf8 m.2) = m.2 := by
    intro m hm
    obtain ⟨h₁, h₂⟩ := hv m (hperm.mem_iff.mp hm)
    exact ⟨utf8_decodeUtf8_iff.mpr h₁, utf8_decodeUtf8_iff.mpr h₂⟩
  have hid : ((sorted environment).map fun m => (decodeUtf8 m.1, decodeUtf8 m.2)).map (fun m => (utf8 m.1, utf8 m.2)) =
      sorted environment := by
    rw [List.map_map]
    refine (List.map_congr_left fun m hm => ?_).trans (List.map_id _)
    exact Prod.ext (hvalid m hm).1 (hvalid m hm).2
  have hnodup : (((sorted environment).map fun m => (decodeUtf8 m.1, decodeUtf8 m.2)).map Prod.fst).Nodup := by
    have hnames : (((sorted environment).map Prod.fst).map decodeUtf8).Nodup := by
      refine List.Nodup.map_on ?_ ((hperm.map Prod.fst).nodup_iff.mpr hn)
      intro x hx y hy he
      obtain ⟨m, hm, rfl⟩ := List.mem_map.mp hx
      obtain ⟨m', hm', rfl⟩ := List.mem_map.mp hy
      rw [← (hvalid m hm).1, ← (hvalid m' hm').1, he]
    rw [List.map_map] at hnames ⊢
    exact hnames
  rw [readEnv, Assoc.assigned_of_nodup hnodup, hid]
  exact hperm

/-- A request within the limit is read as it stands, and a longer one is not read. -/
theorem readRequest_sendRequest (r : Request) (ending : Ending) :
    ((encodeRequest r).length ≤ Server.maxRequestBytes →
      Server.readRequest ⟨sendRequest r, ending⟩ = Server.checkRequest (decodedRequest r)) ∧
    (Server.maxRequestBytes < (encodeRequest r).length →
      ∃ err, Server.readRequest ⟨sendRequest r, ending⟩ = .error (.invalid err)) := by
  have hscalar : (decodedRequest r).isScalar = false := by
    unfold decodedRequest
    split <;> rfl
  exact ⟨Server.readRequest_of_le (run_encodeRequest r), Server.readRequest_of_lt (run_encodeRequest r) hscalar⟩

end Build

/-- **Which requests are read**: those whose text is within the limit of the daemon. The command is read as it is, and
the variables as the strings that they are, with U+FFFD for what is not UTF-8; they are the same when all are UTF-8. -/
theorem decoded_iff_fits {lookupEnv : List UInt8 → Option (List UInt8)} {command : String}
    {sendEnv : List (List UInt8)} {r : Request} (h : buildRequest lookupEnv command sendEnv = .ok r)
    (hc : command ≠ "") (ending : Ending) :
    ((∃ r', Server.readRequest ⟨sendRequest r, ending⟩ = .ok r') ↔
      (encodeRequest r).length ≤ Server.maxRequestBytes) ∧
    ∀ r', Server.readRequest ⟨sendRequest r, ending⟩ = .ok r' →
      r'.command = command ∧ r'.env.getD [] = readEnv (r.env.getD []) ∧
        ((∀ m ∈ r.env.getD [], ValidUtf8 m.1 ∧ ValidUtf8 m.2) →
          ((r'.env.getD []).map fun m => (utf8 m.1, utf8 m.2)).Perm (r.env.getD [])) := by
  obtain ⟨rfl, hnodup⟩ := of_buildRequest h
  obtain ⟨env, hcheck, henv⟩ := checkRequest_decodedRequest hc
  by_cases hle : (encodeRequest r).length ≤ Server.maxRequestBytes
  · have hread := (readRequest_sendRequest r ending).1 hle
    rw [hcheck] at hread
    refine ⟨⟨fun _ => hle, fun _ => ⟨_, hread⟩⟩, fun r' hr' => ?_⟩
    rw [hread] at hr'
    cases hr'
    exact ⟨rfl, henv, fun hv => henv ▸ readEnv_perm hnodup hv⟩
  · obtain ⟨err, herr⟩ := (readRequest_sendRequest r ending).2 (by omega)
    have hnone : ∀ r', Server.readRequest ⟨sendRequest r, ending⟩ ≠ .ok r' := by
      intro r' hr'
      rw [herr] at hr'
      cases hr'
    exact ⟨⟨fun ⟨r', hr'⟩ => absurd hr' (hnone r'), fun hle' => absurd hle' hle⟩, fun r' hr' => absurd hr' (hnone r')⟩

/-- The environment of a session, with a display whose name is given. -/
def sessionEnv (display : List UInt8) (name : List UInt8) : Option (List UInt8) :=
  if name = utf8 RequestEnv.xdgSessionIDName then some (utf8 "3")
  else if name = utf8 RequestEnv.displayName then some display
  else none

theorem decoded_iff_fits_session : ∃ r, buildRequest (sessionEnv (utf8 ":0")) "start" [] = .ok r ∧
    ∃ r', Server.readRequest ⟨sendRequest r, .timeout⟩ = .ok r' ∧ r'.command = "start" := by
  have hbuild : buildRequest (sessionEnv (utf8 ":0")) "start" [] = .ok ⟨"start",
      some [(utf8 RequestEnv.xdgSessionIDName, utf8 "3"), (utf8 RequestEnv.displayName, utf8 ":0")]⟩ := by
    decide +kernel
  obtain ⟨hiff, hread⟩ := decoded_iff_fits hbuild (by decide) .timeout
  obtain ⟨r', hr'⟩ := hiff.mpr (by decide +kernel)
  exact ⟨_, hbuild, r', hr', (hread r' hr').1⟩

/-! ## Requests that are not read as they are -/

/-- The daemon reads the request as the client has built it. -/
def Agrees (r : Request) : Prop :=
  ∀ ending, ∃ r', Server.readRequest ⟨sendRequest r, ending⟩ = .ok r' ∧ r'.command = r.command ∧
    ((r'.env.getD []).map fun m => (utf8 m.1, utf8 m.2)).Perm (r.env.getD [])

/-- A value of the greatest length. -/
def longValue : List UInt8 := List.replicate RequestEnv.maxValueBytes (ascii 'a')

/-- An environment that sets all variables that the client sends by itself. -/
def longEnv (name : List UInt8) : Option (List UInt8) :=
  if startAutomaticNames.contains name then some longValue else none

theorem collect_of_valid {lookupEnv : List UInt8 → Option (List UInt8)} {value : List UInt8}
    {environment : List (List UInt8 × List UInt8)} {names : List (List UInt8)} (hv : validateValue value = none)
    (h : ∀ name ∈ names, lookupEnv name = some value) :
    collect lookupEnv names environment = .ok (Assoc.assignAll environment (names.map fun name => (name, value))) := by
  induction names generalizing environment with
  | nil => rfl
  | cons name names ih =>
    obtain ⟨hname, hnames⟩ := List.forall_mem_cons.mp h
    simp only [collect, hname, hv]
    exact ih hnames

theorem validateValue_longValue : validateValue longValue = none := by
  have hlen : ¬RequestEnv.maxValueBytes < longValue.length := by simp [longValue]
  have hnul : longValue.contains 0 = false := by
    rw [Bool.eq_false_iff, Ne, List.contains_iff_mem]
    intro hm
    exact absurd (List.mem_replicate.mp hm).2 (by decide)
  rw [validateValue, if_neg hlen, hnul]
  rfl

theorem buildRequest_longEnv : buildRequest longEnv "start" [] =
    .ok ⟨"start", some (startAutomaticNames.map fun name => (name, longValue))⟩ := by
  have hall : ∀ name ∈ startAutomaticNames ++ [], longEnv name = some longValue := by
    intro name hm
    rw [List.append_nil] at hm
    exact if_pos (List.contains_iff_mem.mpr hm)
  have hnodup : ((startAutomaticNames.map fun name => (name, longValue)).map Prod.fst).Nodup := by
    rw [List.map_map]
    show (startAutomaticNames.map id).Nodup
    decide +kernel
  rw [buildRequest, if_pos rfl, collect_of_valid validateValue_longValue hall, List.append_nil]
  show Except.ok (⟨"start", some (Assoc.assigned _)⟩ : Request) = _
  rw [Assoc.assigned_of_nodup hnodup]

theorem length_longRequest : Server.maxRequestBytes <
    (encodeRequest ⟨"start", some (startAutomaticNames.map fun name => (name, longValue))⟩).length := by
  have hperm : (sorted (startAutomaticNames.map fun name => (name, longValue))).Perm _ := List.perm_insertionSort _ _
  have hsum := (hperm.map fun m => m.2.length).sum_nat
  have hmap := length_le_encodeMap (sorted (startAutomaticNames.map fun name => (name, longValue)))
  have hlen : longValue.length = 4096 := List.length_replicate
  rw [hsum] at hmap
  simp only [startAutomaticNames, List.map_cons, List.map_nil, List.sum_cons, List.sum_nil, hlen] at hmap
  simp only [encodeRequest, startAutomaticNames, List.map_cons, List.map_nil, List.length_append, Server.maxRequestBytes]
  omega

/-- **A request that is read with another value**, because a variable is not UTF-8, and **a request that is not read**,
because its text is too long; the client has accepted both. -/
theorem built_not_agreed :
    (∃ r, buildRequest (sessionEnv [0xFF]) "start" [] = .ok r ∧ ¬Agrees r) ∧
      ∃ r, buildRequest longEnv "start" [] = .ok r ∧ ¬Agrees r := by
  constructor
  · refine ⟨⟨"start", some [(utf8 RequestEnv.xdgSessionIDName, utf8 "3"), (utf8 RequestEnv.displayName, [0xFF])]⟩,
      by decide +kernel, fun h => ?_⟩
    obtain ⟨r', hr', -, hperm⟩ := h .timeout
    have hread : Server.readRequest ⟨sendRequest ⟨"start", some [(utf8 RequestEnv.xdgSessionIDName, utf8 "3"),
        (utf8 RequestEnv.displayName, [0xFF])]⟩, .timeout⟩ =
        .ok ⟨"start", some [(RequestEnv.displayName, "\uFFFD"), (RequestEnv.xdgSessionIDName, "3")]⟩ := by
      decide +kernel
    rw [hread] at hr'
    cases hr'
    exact absurd hperm (by decide +kernel)
  · refine ⟨_, buildRequest_longEnv, fun h => ?_⟩
    obtain ⟨r', hr', -⟩ := h .timeout
    obtain ⟨err, herr⟩ := (readRequest_sendRequest _ .timeout).2 length_longRequest
    rw [herr] at hr'
    cases hr'

end Talk2Text.Client
