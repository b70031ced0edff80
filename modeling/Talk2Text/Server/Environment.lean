import Talk2Text.Daemon.Config
import Talk2Text.RequestEnv.Decode
import Talk2Text.Server.Request

/-!
# Local and HTTP environments

The same text of an environment, as the `env` of a local start and as the header of an HTTP submission. Of members with
one name only the last one counts, but a local request is refused for any member that is neither a string nor null,
while the header is refused for a null that counts.

- `localEnvironment_eq_some`, `httpEnvironment_eq_some`: what each side accepts;
- `same_environment_iff`: for which objects both do the same;
- `environments_differ`: two objects for which they differ.
-/

namespace Talk2Text.Server

open Json RequestEnv

/-- A local start with the environment `raw`. -/
def startText (raw : List UInt8) : List UInt8 :=
  Format.utf8 "\x7b\"command\":\"start\",\"env\":" ++ (raw ++ [ascii '}'])

/-- The environment of a local start, when it is accepted. -/
def localEnvironment (cfg : Config) (ending : Ending) (raw : List UInt8) : Option Environment :=
  match readRequest ⟨startText raw, ending⟩ with
  | .error _ => none
  | .ok r =>
    match validateAllowed (r.env.getD []) cfg.allowClientEnv with
    | some _ => none
    | none => some (r.env.getD [])

/-- The environment of a submission, when it is accepted. -/
def httpEnvironment (jsonText : Error → String) (cfg : Config) (raw : List UInt8) : Option Environment :=
  match decode jsonText raw with
  | .error _ => none
  | .ok environment =>
    match validateAllowed environment cfg.allowClientEnv with
    | some _ => none
    | none => some environment

/-- The members that count are strings or null, with allowed names and valid values. -/
def Acceptable (cfg : Config) (members : List (String × Value)) : Prop :=
  ∀ m ∈ Assoc.assigned members, m.1 ∈ predefinedNames ++ cfg.allowClientEnv ∧ stringError m.2 = none ∧
    validateValue (element m.2) = none

/-- A member that counts is null. -/
def HasNull (members : List (String × Value)) : Prop := ∃ m ∈ Assoc.assigned members, m.2 = .null

/-- A member is neither a string nor null, whether it counts or not. -/
def HasOther (members : List (String × Value)) : Prop := ∃ m ∈ members, stringError m.2 ≠ none

/-- The environment of an object. -/
def elements (members : List (String × Value)) : Environment :=
  (Assoc.assigned members).map fun m => (m.1, element m.2)

section Accepted

variable {cfg : Config} {ending : Ending} {jsonText : Error → String} {raw : List UInt8}
  {members : List (String × Value)} {environment : Environment}

/-- **A local start** is read with the members of the environment. -/
theorem run_startText (hlen : raw.length ≤ maxEncodedEnvironmentBytes) (hobj : unmarshal raw = .ok (.object members))
    (ys : List UInt8) : Scanner.initial.run (startText raw ++ ys) =
      .value (.object [("command", .string "start"), ("env", .object members)]) ys := by
  have hopen : Scanner.initial.run (Format.utf8 "\x7b\"command\":\"start\",\"env\":") =
      .more ⟨.beginValue, [.objectValue [("command", .string "start")] "env"]⟩ := rfl
  have hdepth : 1 + raw.length ≤ maxNestingDepth := by
    simp only [maxEncodedEnvironmentBytes, maxNestingDepth] at hlen ⊢
    omega
  have hb : InObject [.objectValue [("command", .string "start")] "env"] := ⟨_, _, _, rfl⟩
  rw [startText, List.append_assoc, run_append_more hopen, List.append_assoc, unmarshal_inside hb hdepth hobj rfl]
  rfl

theorem readRequest_startText (hlen : raw.length ≤ maxEncodedEnvironmentBytes)
    (hobj : unmarshal raw = .ok (.object members)) :
    readRequest ⟨startText raw, ending⟩ =
      match members.findSome? fun m => stringError m.2 with
      | some err => .error (.invalid err)
      | none => .ok ⟨"start", some (elements members)⟩ := by
  have hprefix : (Format.utf8 "\x7b\"command\":\"start\",\"env\":").length = 25 := by decide
  have hle : (startText raw).length ≤ maxRequestBytes := by
    simp only [startText, List.length_append, hprefix, List.length_singleton, maxRequestBytes,
      maxEncodedEnvironmentBytes] at hlen ⊢
    omega
  have hread : readRequest ⟨startText raw ++ [], ending⟩ = _ := readRequest_of_le (run_startText hlen hobj) hle
  rw [List.append_nil, checkRequest_env (by decide), ← Assoc.map_assigned] at hread
  exact hread

theorem findSome?_eq_none : members.findSome? (fun m => stringError m.2) = none ↔ ¬HasOther members := by
  rw [List.findSome?_eq_none_iff, HasOther]
  simp only [not_exists, not_and, not_not]

theorem validateAllowed_elements : validateAllowed (elements members) cfg.allowClientEnv = none ↔
    ∀ m ∈ Assoc.assigned members, m.1 ∈ predefinedNames ++ cfg.allowClientEnv ∧ validateValue (element m.2) = none := by
  rw [validateAllowed_eq_none, elements, List.forall_mem_map]

/-- **What is accepted locally.** -/
theorem localEnvironment_eq_some (hlen : raw.length ≤ maxEncodedEnvironmentBytes)
    (hobj : unmarshal raw = .ok (.object members)) :
    localEnvironment cfg ending raw = some environment ↔
      Acceptable cfg members ∧ ¬HasOther members ∧ environment = elements members := by
  rw [localEnvironment, readRequest_startText hlen hobj]
  cases ho : members.findSome? fun m => stringError m.2 with
  | some err =>
    have hother : HasOther members := by
      by_contra hn
      rw [findSome?_eq_none.mpr hn] at ho
      cases ho
    simp [hother]
  | none =>
    have hother := findSome?_eq_none.mp ho
    have hstrings : ∀ m ∈ Assoc.assigned members, stringError m.2 = none := fun m hm =>
      List.findSome?_eq_none_iff.mp ho m (Assoc.mem_of_mem_assigned hm)
    have hacceptable : validateAllowed (elements members) cfg.allowClientEnv = none ↔ Acceptable cfg members := by
      rw [validateAllowed_elements]
      constructor
      · intro h m hm
        exact ⟨(h m hm).1, hstrings m hm, (h m hm).2⟩
      · intro h m hm
        exact ⟨(h m hm).1, (h m hm).2.2⟩
    dsimp only [Option.getD_some]
    cases hv : validateAllowed (elements members) cfg.allowClientEnv with
    | some err =>
      have hnot : ¬Acceptable cfg members := by
        intro ha
        rw [hacceptable.mpr ha] at hv
        cases hv
      simp [hnot]
    | none => simp [hacceptable.mp hv, hother, eq_comm]

/-- A member that is neither null nor wrong is a string. -/
theorem string_element {v : Value} (h : stringError v = none) (hn : v ≠ .null) : v = .string (element v) := by
  cases v with
  | string s => rfl
  | null => exact absurd rfl hn
  | bool | number | array | object => cases h

/-- **What is accepted over HTTP.** -/
theorem httpEnvironment_eq_some (hcfg : validateConfig cfg = none)
    (hlen : raw.length ≤ maxEncodedEnvironmentBytes) (hobj : unmarshal raw = .ok (.object members)) :
    httpEnvironment jsonText cfg raw = some environment ↔
      Acceptable cfg members ∧ ¬HasNull members ∧ environment = elements members := by
  rw [httpEnvironment, decode_object hlen hobj]
  constructor
  · intro h
    cases hd : decodeMembers (Assoc.assigned members) with
    | error err =>
      rw [hd] at h
      cases h
    | ok env =>
      rw [hd] at h
      dsimp only at h
      split at h
      · cases h
      rename_i hallowed
      cases h
      obtain ⟨he, hvalid⟩ := decodeMembers_eq_ok.mp hd
      have hallowed := validateAllowed_eq_none.mp hallowed
      have hstring : ∀ m ∈ Assoc.assigned members, ∃ m' ∈ environment, (m'.1, Value.string m'.2) = m := by
        rw [he]
        exact fun m hm => List.mem_map.mp hm
      refine ⟨?_, ?_, ?_⟩
      · intro m hm
        obtain ⟨m', hm', rfl⟩ := hstring m hm
        exact ⟨(hallowed m' hm').1, rfl, (hallowed m' hm').2⟩
      · rintro ⟨m, hm, hnull⟩
        obtain ⟨m', -, rfl⟩ := hstring m hm
        cases hnull
      · rw [elements, he, List.map_map]
        exact (List.map_id _).symm
  · rintro ⟨ha, hn, rfl⟩
    have hstring : ∀ m ∈ Assoc.assigned members, m.2 = .string (element m.2) := fun m hm =>
      string_element (ha m hm).2.1 fun hnull => hn ⟨m, hm, hnull⟩
    have hd : decodeMembers (Assoc.assigned members) = .ok (elements members) := by
      refine decodeMembers_eq_ok.mpr ⟨?_, ?_⟩
      · rw [elements, List.map_map]
        refine ((List.map_congr_left fun m hm => ?_).trans (List.map_id _)).symm
        exact Prod.ext rfl (hstring m hm).symm
      · rw [elements, List.forall_mem_map]
        exact fun m hm => ⟨validateName_of_allowed hcfg (ha m hm).1, (ha m hm).2.2⟩
    have hv : validateAllowed (elements members) cfg.allowClientEnv = none :=
      validateAllowed_elements.mpr fun m hm => ⟨(ha m hm).1, (ha m hm).2.2⟩
    simp only [hd, hv]

end Accepted

/-- **For which objects both sides do the same**: when its members that count are strings or null, with allowed names
and valid values, an object must have a null that counts exactly if it has a member that is neither. -/
theorem same_environment_iff {cfg : Config} {ending : Ending} {jsonText : Error → String} {raw : List UInt8}
    {members : List (String × Value)} (hcfg : validateConfig cfg = none)
    (hlen : raw.length ≤ maxEncodedEnvironmentBytes) (hobj : unmarshal raw = .ok (.object members)) :
    (((∃ environment, localEnvironment cfg ending raw = some environment) ↔
        ∃ environment, httpEnvironment jsonText cfg raw = some environment) ∧
      ∀ environment environment', localEnvironment cfg ending raw = some environment →
        httpEnvironment jsonText cfg raw = some environment' → environment = environment') ↔
    (Acceptable cfg members → (HasNull members ↔ HasOther members)) := by
  simp only [localEnvironment_eq_some hlen hobj, httpEnvironment_eq_some hcfg hlen hobj]
  have hsome : ∀ p q : Prop, (∃ environment, p ∧ q ∧ environment = elements members) ↔ p ∧ q :=
    fun p q => ⟨fun ⟨_, hp, hq, _⟩ => ⟨hp, hq⟩, fun ⟨hp, hq⟩ => ⟨_, hp, hq, rfl⟩⟩
  rw [hsome, hsome]
  constructor
  · rintro ⟨hiff, -⟩ ha
    simp only [ha, true_and, not_iff_not] at hiff
    exact hiff.symm
  · intro h
    refine ⟨?_, ?_⟩
    · constructor
      · exact fun ⟨ha, ho⟩ => ⟨ha, fun hn => ho ((h ha).mp hn)⟩
      · exact fun ⟨ha, hn⟩ => ⟨ha, fun ho => hn ((h ha).mpr ho)⟩
    · rintro e e' ⟨-, -, rfl⟩ ⟨-, -, rfl⟩
      rfl

/-- A configuration without additional names. -/
def plainConfig : Config := { whisperEndpoint := "http://localhost" }

theorem same_environment_iff_display :
    localEnvironment plainConfig .timeout (Format.utf8 "\x7b\"DISPLAY\":\":0\"\x7d") = some [("DISPLAY", ":0")] ∧
      ∃ environment, httpEnvironment (fun _ => "") plainConfig (Format.utf8 "\x7b\"DISPLAY\":\":0\"\x7d") =
        some environment := by
  have hobj : unmarshal (Format.utf8 "\x7b\"DISPLAY\":\":0\"\x7d") = .ok (.object [("DISPLAY", .string ":0")]) := rfl
  have hn : ¬HasNull [("DISPLAY", .string ":0")] := by
    rintro ⟨m, hm, hnull⟩
    rw [List.mem_singleton.mp hm] at hnull
    cases hnull
  have ho : ¬HasOther [("DISPLAY", .string ":0")] := by
    rintro ⟨m, hm, hother⟩
    rw [List.mem_singleton.mp hm] at hother
    exact hother rfl
  have hlocal : localEnvironment plainConfig .timeout (Format.utf8 "\x7b\"DISPLAY\":\":0\"\x7d") =
      some [("DISPLAY", ":0")] := by
    decide +kernel
  have hcfg : validateConfig plainConfig = none := by decide +kernel
  have hlen : (Format.utf8 "\x7b\"DISPLAY\":\":0\"\x7d").length ≤ maxEncodedEnvironmentBytes := by decide
  refine ⟨hlocal, ((same_environment_iff hcfg hlen hobj).mpr fun _ => ?_).1.mp ⟨_, hlocal⟩⟩
  exact ⟨fun h => absurd h hn, fun h => absurd h ho⟩

/-- **A null is accepted locally** but not over HTTP, and **a number that is replaced** over HTTP but not locally. -/
theorem environments_differ : validateConfig plainConfig = none ∧
    (localEnvironment plainConfig .timeout (Format.utf8 "\x7b\"DISPLAY\":null\x7d") = some [("DISPLAY", "")] ∧
      httpEnvironment (fun _ => "") plainConfig (Format.utf8 "\x7b\"DISPLAY\":null\x7d") = none) ∧
    localEnvironment plainConfig .timeout (Format.utf8 "\x7b\"DISPLAY\":1,\"DISPLAY\":\":0\"\x7d") = none ∧
      httpEnvironment (fun _ => "") plainConfig (Format.utf8 "\x7b\"DISPLAY\":1,\"DISPLAY\":\":0\"\x7d") =
        some [("DISPLAY", ":0")] := by
  decide +kernel

end Talk2Text.Server
