import Talk2Text.RequestEnv
import Talk2Text.Json.Decoder
import Talk2Text.Util.Assoc

/-!
# The environment of an HTTP request

`requestenv.Decode`: a JSON object in which each name has a string. Of several members with one name the last one
counts; the others may be anything. The raw texts of the members are modelled by their values: decoding the text of a
value gives the value again.

- `decode_object`: which objects are accepted, and as what;
- `of_decode`: the names are valid and distinct.
-/

namespace Talk2Text.RequestEnv

open Json

/-- The loop of `Decode` over the members of the object. -/
def decodeMembers : List (String × Value) → Except String Environment
  | [] => .ok []
  | (name, rawValue) :: members =>
    match validateName name with
    | some err => .error ("invalid environment variable name: " ++ err)
    | none =>
      match rawValue with
      | .string value =>
        match validateValue value with
        | some err => .error ("environment variable " ++ name ++ " has invalid value: " ++ err)
        | none => (decodeMembers members).map fun environment => (name, value) :: environment
      | _ => .error ("environment variable " ++ name ++ " must have a string value")

/-- `Decode`; `jsonText` gives the texts of the errors of `encoding/json`. -/
def decode (jsonText : Error → String) (raw : List UInt8) : Except String Environment :=
  if maxEncodedEnvironmentBytes < raw.length then
    .error s!"environment object exceeds {maxEncodedEnvironmentBytes} bytes"
  else
    match unmarshal raw with
    | .error err => .error ("invalid environment object: " ++ jsonText err)
    | .ok .null => .error "environment must be an object"
    | .ok (.object members) => decodeMembers (Assoc.assigned members)
    | .ok v => .error ("invalid environment object: " ++ jsonText (.unmarshalType v.kind "map[string]json.RawMessage"))

section Decode

variable {members : List (String × Value)} {environment : Environment}

theorem exists_of_map_eq_ok {ε α β : Type} {x : Except ε α} {f : α → β} {b : β} (h : x.map f = .ok b) :
    ∃ a, x = .ok a ∧ f a = b := by
  cases x with
  | error err => cases h
  | ok a =>
    cases h
    exact ⟨a, rfl, rfl⟩

/-- **What the loop accepts**: valid names, with valid strings. -/
theorem decodeMembers_eq_ok : decodeMembers members = .ok environment ↔
    members = environment.map (fun m => (m.1, .string m.2)) ∧
      ∀ m ∈ environment, validateName m.1 = none ∧ validateValue m.2 = none := by
  induction members generalizing environment with
  | nil =>
    constructor
    · intro h
      cases h
      simp
    · rintro ⟨h, -⟩
      rw [List.map_eq_nil_iff.mp h.symm]
      rfl
  | cons p members ih =>
    obtain ⟨name, v⟩ := p
    constructor
    · intro h
      unfold decodeMembers at h
      cases hname : validateName name with
      | some err =>
        rw [hname] at h
        cases h
      | none =>
        rw [hname] at h
        cases v with
        | null | bool | number | array | object => cases h
        | string value =>
          dsimp only at h
          cases hvalue : validateValue value with
          | some err =>
            rw [hvalue] at h
            cases h
          | none =>
            rw [hvalue] at h
            obtain ⟨rest, hd, rfl⟩ := exists_of_map_eq_ok h
            obtain ⟨he, hall⟩ := ih.mp hd
            exact ⟨by rw [List.map_cons, ← he], List.forall_mem_cons.mpr ⟨⟨hname, hvalue⟩, hall⟩⟩
    · rintro ⟨he, hall⟩
      cases environment with
      | nil => cases he
      | cons m rest =>
        obtain ⟨hm, hrest⟩ := List.forall_mem_cons.mp hall
        rw [List.map_cons, List.cons.injEq, Prod.mk.injEq] at he
        obtain ⟨⟨rfl, rfl⟩, he⟩ := he
        simp only [decodeMembers, hm.1, hm.2, ih.mpr ⟨he, hrest⟩]
        rfl

variable {jsonText : Error → String} {raw : List UInt8}

/-- **Which objects are accepted.** -/
theorem decode_object (hlen : raw.length ≤ maxEncodedEnvironmentBytes) (h : unmarshal raw = .ok (.object members)) :
    decode jsonText raw = decodeMembers (Assoc.assigned members) := by
  rw [decode, if_neg (Nat.not_lt.mpr hlen), h]

/-- **What is accepted** is an environment: names that are valid and distinct, with valid values. -/
theorem of_decode (h : decode jsonText raw = .ok environment) :
    (environment.map Prod.fst).Nodup ∧ ∀ m ∈ environment, validateName m.1 = none ∧ validateValue m.2 = none := by
  unfold decode at h
  split at h
  · cases h
  split at h
  · cases h
  · cases h
  · rename_i members _
    obtain ⟨he, hall⟩ := decodeMembers_eq_ok.mp h
    refine ⟨?_, hall⟩
    have hnodup := Assoc.nodup_assigned members
    rw [he, List.map_map] at hnodup
    exact hnodup
  · cases h

end Decode

end Talk2Text.RequestEnv
