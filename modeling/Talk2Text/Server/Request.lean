import Mathlib.Tactic.ByContra
import Talk2Text.RequestEnv
import Talk2Text.Json.Decoder
import Talk2Text.Util.Assoc

/-!
# Reading a request

`server.readRequest`: the first JSON value of a connection, of which at most `maxRequestBytes` bytes are read, is
decoded into a `Request`. Decoding goes on after an error, and reports the first one: an unknown field, or a value that
is no string where a string belongs. A null leaves a field as it is, except that it clears `env`; in an environment it
is the empty string. Members of an environment, and of several environments, replace earlier ones.

- `checkRequest_env`: the request of an object with a command and an environment;
- `checkRequest_scalar`: no scalar is a request;
- `nodup_of_readRequest`: the names of an environment are distinct.
-/

namespace Talk2Text.Server

open Json

/-- `Request`; a nil map is `none`. -/
structure Request where
  command : String
  env : Option Environment
  deriving DecidableEq, Repr

def maxRequestBytes : Nat := 16384

inductive Field
  | command
  | env
  deriving DecidableEq, Repr

/-- `foldName`, for a name of ASCII letters other than `k` and `s`; no other character folds to one of these. -/
def foldName (s : String) : List Char := s.toList.map Char.toUpper

/-- The field of a member: `byExactName`, and then `byFoldedName`. -/
def fieldOf (name : String) : Option Field :=
  if foldName name = foldName "command" then some .command
  else if foldName name = foldName "env" then some .env
  else none

/-- The error of a value that is stored in a string. -/
def stringError : Value → Option Error
  | .string _ | .null => none
  | v => some (.unmarshalType v.kind "string")

/-- The element of a `map[string]string`: what is no string leaves it empty. -/
def element : Value → String
  | .string s => s
  | _ => ""

/-- `d.object` for a `map[string]string`. -/
def storeMap (environment : Environment) (members : List (String × Value)) : Environment × Option Error :=
  (Assoc.assignAll environment (members.map fun m => (m.1, element m.2)), members.findSome? fun m => stringError m.2)

/-- `d.value` for the field of a member, and the error that it saves. -/
def storeField (r : Request) (name : String) (v : Value) : Request × Option Error :=
  match fieldOf name with
  | none => (r, some (.unknownField name))
  | some .command =>
    match v with
    | .string s => ({ r with command := s }, none)
    | v => (r, stringError v)
  | some .env =>
    match v with
    | .null => ({ r with env := none }, none)
    | .object members =>
      let (environment, err) := storeMap (r.env.getD []) members
      ({ r with env := some environment }, err)
    | v => (r, some (.unmarshalType v.kind "map[string]string"))

/-- `d.object` for a `Request`, with the first error. -/
def storeFields (r : Request) (err : Option Error) : List (String × Value) → Request × Option Error
  | [] => (r, err)
  | (name, v) :: members =>
    let (r', err') := storeField r name v
    storeFields r' (err.or err') members

/-- `d.unmarshal` for a `Request`. -/
def unmarshalRequest (v : Value) : Except Error Request :=
  match v with
  | .null => .ok ⟨"", none⟩
  | .object members =>
    match storeFields ⟨"", none⟩ none members with
    | (r, none) => .ok r
    | (_, some err) => .error err
  | v => .error (.unmarshalType v.kind "server.Request")

/-- The errors of `readRequest`. -/
inductive RequestError
  | invalid (err : Error)
  | noCommand
  deriving DecidableEq, Repr

/-- The text of an error; `jsonText` gives those of `encoding/json` and of the connection. -/
def RequestError.text (jsonText : Error → String) : RequestError → String
  | .invalid err => "invalid or too large JSON request: " ++ jsonText err
  | .noCommand => "request command is required"

/-- `readRequest`, behind the value. -/
def checkRequest (v : Value) : Except RequestError Request :=
  match unmarshalRequest v with
  | .error err => .error (.invalid err)
  | .ok r => if r.command = "" then .error .noCommand else .ok r

def readRequest (r : Reader) : Except RequestError Request :=
  match (limitReader r maxRequestBytes).readValue with
  | .error err => .error (.invalid err)
  | .ok v => checkRequest v

section Check

variable {v : Value} {r : Request} {members : List (String × Value)} {s : String}

/-- No scalar is a request. -/
theorem checkRequest_scalar (h : v.isScalar = true) : ∃ err, checkRequest v = .error err := by
  cases v with
  | null => exact ⟨.noCommand, rfl⟩
  | bool | number | string => exact ⟨_, rfl⟩
  | array | object => cases h

/-- **A request with a command and an environment.** -/
theorem checkRequest_env (hs : s ≠ "") (members : List (String × Value)) :
    checkRequest (.object [("command", .string s), ("env", .object members)]) =
      match members.findSome? fun m => stringError m.2 with
      | some err => .error (.invalid err)
      | none => .ok ⟨s, some (Assoc.assigned (members.map fun m => (m.1, element m.2)))⟩ := by
  have hc : fieldOf "command" = some .command := by decide
  have he : fieldOf "env" = some .env := by decide
  simp only [checkRequest, unmarshalRequest, storeFields, storeField, hc, he, storeMap, Option.getD_none,
    Option.none_or]
  cases members.findSome? fun m => stringError m.2 with
  | some err => rfl
  | none =>
    dsimp only
    rw [if_neg hs]
    rfl

/-- **A request with a command only.** -/
theorem checkRequest_command (hs : s ≠ "") : checkRequest (.object [("command", .string s)]) = .ok ⟨s, none⟩ := by
  have hc : fieldOf "command" = some .command := by decide
  simp only [checkRequest, unmarshalRequest, storeFields, storeField, hc, Option.none_or]
  rw [if_neg hs]

/-- The names of an environment stay distinct. -/
theorem nodup_storeField (h : ((r.env.getD []).map Prod.fst).Nodup) :
    (((storeField r s v).1.env.getD []).map Prod.fst).Nodup := by
  unfold storeField
  split
  · exact h
  · split <;> exact h
  · split
    · exact List.nodup_nil
    · exact Assoc.nodup_assignAll h
    · exact h

theorem nodup_storeFields {err : Option Error} (h : ((r.env.getD []).map Prod.fst).Nodup) :
    (((storeFields r err members).1.env.getD []).map Prod.fst).Nodup := by
  induction members generalizing r err with
  | nil => exact h
  | cons m members ih => exact ih (nodup_storeField h)

/-- **The environment of a request** has distinct names. -/
theorem nodup_of_checkRequest (h : checkRequest v = .ok r) : ((r.env.getD []).map Prod.fst).Nodup := by
  have hof : unmarshalRequest v = .ok r := by
    unfold checkRequest at h
    split at h
    · cases h
    · split at h
      · cases h
      · cases h
        assumption
  cases v with
  | null =>
    cases hof
    exact List.nodup_nil
  | object members =>
    have hnodup : (((storeFields ⟨"", none⟩ none members).1.env.getD []).map Prod.fst).Nodup :=
      nodup_storeFields List.nodup_nil
    simp only [unmarshalRequest] at hof
    split at hof
    · rename_i r' hs
      cases hof
      rw [hs] at hnodup
      exact hnodup
    · cases hof
  | bool | number | string | array => cases hof

theorem nodup_of_readRequest {reader : Reader} (h : readRequest reader = .ok r) :
    ((r.env.getD []).map Prod.fst).Nodup := by
  unfold readRequest at h
  split at h
  · cases h
  · exact nodup_of_checkRequest h

end Check

/-! ## The limit -/

section Limit

variable {v : Value} {text tail : List UInt8} {ending : Ending}

/-- A text within the limit is read whatever is behind it. -/
theorem readRequest_of_le (h : ∀ ys, Scanner.initial.run (text ++ ys) = .value v ys)
    (hle : text.length ≤ maxRequestBytes) : readRequest ⟨text ++ tail, ending⟩ = checkRequest v := by
  have htake : (text ++ tail).take maxRequestBytes = text ++ tail.take (maxRequestBytes - text.length) := by
    rw [List.take_append, List.take_of_length_le hle]
  simp only [readRequest, limitReader, Reader.readValue, htake, h]

/-- A text beyond the limit is not read, unless it is a scalar: the limit ends the stream before the value is complete. -/
theorem readRequest_ended (h : ∀ ys, Scanner.initial.run (text ++ ys) = .value v ys) (hv : v.isScalar = false)
    (hlt : maxRequestBytes < text.length) :
    readRequest ⟨text ++ tail, ending⟩ = .error (.invalid .eof) ∨
      readRequest ⟨text ++ tail, ending⟩ = .error (.invalid .unexpectedEOF) := by
  have htake : (text ++ tail).take maxRequestBytes = text.take maxRequestBytes :=
    List.take_append_of_le_length (Nat.le_of_lt hlt)
  have hend : (limitReader ⟨text ++ tail, ending⟩ maxRequestBytes).ending = .eof := by
    refine ending_limitReader ?_
    simp only [List.length_append]
    omega
  have hall := run_append Scanner.initial (text.take maxRequestBytes) (text.drop maxRequestBytes)
  have hnil := h []
  rw [List.append_nil] at hnil
  rw [List.take_append_drop, hnil] at hall
  have hdrop : text.drop maxRequestBytes ≠ [] := by
    rw [Ne, List.drop_eq_nil_iff]
    omega
  cases hrun : Scanner.initial.run (text.take maxRequestBytes) with
  | value w rest =>
    -- the value would end at the limit
    rw [hrun] at hall
    simp only [Scanned.value.injEq] at hall
    exact absurd (List.append_eq_nil_iff.mp hall.2.symm).2 hdrop
  | failed c context =>
    rw [hrun] at hall
    cases hall
  | more s =>
    rw [hrun] at hall
    have hf : s.finish = none := by
      by_contra hne
      obtain ⟨w, hw⟩ := Option.ne_none_iff_exists'.mp hne
      have hat := (ended_step (ok_run (s := .initial) trivial hrun) (ended_of_finish hw)).1
      rw [isScalar_of_run hat hall.symm] at hv
      cases hv
    simp only [readRequest, Reader.readValue, hend]
    simp only [limitReader, htake, hrun, hf]
    cases (text.take maxRequestBytes).all isSpace
    · exact .inr rfl
    · exact .inl rfl

theorem readRequest_of_lt (h : ∀ ys, Scanner.initial.run (text ++ ys) = .value v ys) (hv : v.isScalar = false)
    (hlt : maxRequestBytes < text.length) : ∃ err, readRequest ⟨text ++ tail, ending⟩ = .error (.invalid err) :=
  (readRequest_ended h hv hlt).elim (fun h => ⟨_, h⟩) fun h => ⟨_, h⟩

end Limit

end Talk2Text.Server
