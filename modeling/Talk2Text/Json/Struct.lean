import Talk2Text.Format.Strconv
import Talk2Text.Json.Text

/-!
# Decoding into a struct

`d.object` of `encoding/json` for a struct that has been given as its fields (`Field`): the members of an object are
stored one after the other, a member of an unknown name is skipped, and decoding goes on after a value of another type,
of which the first one is reported. A null leaves a field as it is, except for pointers and slices.

- `parseInt_formatInt`: an integer is read back;
- `storeMembers_member`, `storeMembers_omitted`: a field that is sent, and one that is sent unless it is empty.
-/

namespace Talk2Text.Json

open Format

/-- A field of the struct `ρ`: its name, and how a value is stored in it, with the error that is saved. -/
structure Field (ρ : Type) where
  name : String
  store : ρ → Value → ρ × Option Error

/-- `foldRune`, as far as the result is ASCII: the long s and the Kelvin sign fold to letters. -/
def foldRune (c : Char) : Char :=
  if c.toNat = 0x17F then 'S' else if c.toNat = 0x212A then 'K' else c.toUpper

/-- `foldName`, compared to ASCII names. -/
def foldedName (name : String) : List Char := name.toList.map foldRune

section Fields

variable {ρ α : Type}

/-- `byExactName`, and then `byFoldedName`. -/
def findField (fields : List (Field ρ)) (name : String) : Option (Field ρ) :=
  (fields.find? fun f => f.name = name).or (fields.find? fun f => foldedName f.name = foldedName name)

/-- `d.object`, with the first error. -/
def storeMembers (fields : List (Field ρ)) (r : ρ) (err : Option Error) :
    List (String × Value) → ρ × Option Error
  | [] => (r, err)
  | m :: ms =>
    match findField fields m.1 with
    | none => storeMembers fields r err ms
    | some f => storeMembers fields (f.store r m.2).1 (err.or (f.store r m.2).2) ms

/-- The error of a value that is stored in a field of another type; a null is none. -/
def typeError (v : Value) (type : String) : Option Error :=
  match v with
  | .null => none
  | v => some (.unmarshalType v.kind type)

def boolField (name : String) (set : ρ → Bool → ρ) : Field ρ where
  name
  store r
    | .bool b => (set r b, none)
    | v => (r, typeError v "bool")

def stringField (name : String) (set : ρ → String → ρ) : Field ρ where
  name
  store r
    | .string s => (set r s, none)
    | v => (r, typeError v "string")

/-- A signed integer of `bits` bits. -/
def intField (name : String) (bits : Nat) (type : String) (set : ρ → Int → ρ) : Field ρ where
  name
  store r
    | .number text =>
      let (n, err) := parseInt text
      if err = none ∧ -2 ^ (bits - 1) ≤ n ∧ n < 2 ^ (bits - 1) then (set r n, none)
      else (r, some (.unmarshalType ("number " ++ decodeUtf8 text) type))
    | v => (r, typeError v type)

/-- The elements of a `[]string`, stored over those of `old`. -/
def storeElems : List String → List Value → List String × Option Error
  | _, [] => ([], none)
  | old, v :: vs =>
    let (elems, err) := storeElems old.tail vs
    match v with
    | .string s => (s :: elems, err)
    | v => (old.headD "" :: elems, (typeError v "string").or err)

def stringsField (name : String) (get : ρ → List String) (set : ρ → List String → ρ) : Field ρ where
  name
  store r
    | .array vs => let (elems, err) := storeElems (get r) vs; (set r elems, err)
    | .null => (set r [], none)
    | v => (r, typeError v "[]string")

/-- A pointer to a struct of type `type` with these fields, and with `zero` as its zero value. -/
def pointerField (name type : String) (fields : List (Field α)) (zero : α) (get : ρ → Option α)
    (set : ρ → Option α → ρ) : Field ρ where
  name
  store r
    | .object ms =>
      let (a, err) := storeMembers fields ((get r).getD zero) none ms
      (set r (some a), err)
    | .null => (set r none, none)
    | v => (set r (some ((get r).getD zero)), typeError v type)

/-- `d.unmarshal` for the struct, whose zero value is `zero`. -/
def unmarshalStruct (fields : List (Field ρ)) (zero : ρ) (type : String) (v : Value) : Except Error ρ :=
  match v with
  | .null => .ok zero
  | .object ms =>
    match storeMembers fields zero none ms with
    | (r, none) => .ok r
    | (_, some err) => .error err
  | v => .error (.unmarshalType v.kind type)

/-! ## Members that fit -/

variable {fields : List (Field ρ)} {f : Field ρ} {r r' : ρ} {name : String} {v : Value} {ms : List (String × Value)}

/-- **A field that is sent.** -/
theorem storeMembers_member (hf : findField fields name = some f) (hs : f.store r v = (r', none)) :
    storeMembers fields r none ((name, v) :: ms) = storeMembers fields r' none ms := by
  rw [storeMembers, hf]
  show storeMembers fields (f.store r v).1 (Option.or none (f.store r v).2) ms = _
  rw [hs]
  rfl

/-- **A field that is omitted** when it is empty, as it is to begin with. -/
theorem storeMembers_omitted {depth : Nat} {empty : Bool} {d : Datum depth} {rest : List (String × Datum depth)}
    (hf : findField fields name = some f) (hs : empty = false → f.store r d.value = (r', none))
    (ho : empty = true → r' = r) :
    storeMembers fields r none ((omitEmpty empty name d ++ rest).map fun m => (m.1, m.2.value)) =
      storeMembers fields r' none (rest.map fun m => (m.1, m.2.value)) := by
  cases empty with
  | true => rw [ho rfl]; rfl
  | false => exact storeMembers_member hf (hs rfl)

/-- **An integer is read back.** -/
theorem parseInt_formatInt {n : Int} (hlo : -2 ^ 63 ≤ n) (hhi : n < 2 ^ 63) : parseInt (formatInt n) = (n, none) := by
  have hdigits := isDigit_repr' n.natAbs
  have hne := utf8_repr_ne_nil n.natAbs
  have hu : parseUint (utf8 n.natAbs.repr) = (n.natAbs, none) := by
    rw [parseUint_digits hne hdigits, ofDigits_repr, if_pos]
    simp only [maxUint64]
    omega
  rcases Int.lt_or_le n 0 with hneg | hpos
  · have hno : ¬decide (2 ^ 63 < n.natAbs) = true := by rw [decide_eq_true_eq]; omega
    rw [formatInt, if_pos hneg]
    show parseSigned true (utf8 n.natAbs.repr) = _
    rw [parseSigned, hu]
    refine (if_neg (by decide)).trans ((if_neg Bool.false_ne_true).trans ((if_neg hno).trans ?_))
    rw [if_pos rfl]
    exact congrArg (·, none) (by omega)
  · have hno : ¬decide (2 ^ 63 ≤ n.natAbs) = true := by rw [decide_eq_true_eq]; omega
    rw [formatInt, if_neg (Int.not_lt.mpr hpos), parseInt_digits hne hdigits, parseSigned, hu]
    refine (if_neg (by decide)).trans ((if_neg hno).trans ((if_neg Bool.false_ne_true).trans ?_))
    rw [if_neg Bool.false_ne_true]
    exact congrArg (·, none) (by omega)

theorem store_int {bits : Nat} {type : String} {set : ρ → Int → ρ} {n : Int} (hb : bits ≤ 64)
    (hlo : -2 ^ (bits - 1) ≤ n) (hhi : n < 2 ^ (bits - 1)) :
    (intField name bits type set).store r (.number (formatInt n)) = (set r n, none) := by
  have hpow : (2 : Int) ^ (bits - 1) ≤ 2 ^ 63 := by
    exact_mod_cast Nat.pow_le_pow_right (n := 2) (by decide) (by omega : bits - 1 ≤ 63)
  show (if (parseInt (formatInt n)).2 = none ∧ -2 ^ (bits - 1) ≤ (parseInt (formatInt n)).1 ∧
    (parseInt (formatInt n)).1 < 2 ^ (bits - 1) then (set r (parseInt (formatInt n)).1, none) else _) = _
  rw [parseInt_formatInt (by omega) (by omega)]
  exact if_pos ⟨rfl, hlo, hhi⟩

theorem store_strings {get : ρ → List String} {set : ρ → List String → ρ} (ss : List String) :
    (stringsField name get set).store r (.array (ss.map Value.string)) = (set r ss, none) := by
  have helems : ∀ old, storeElems old (ss.map Value.string) = (ss, none) := by
    induction ss with
    | nil => exact fun _ => rfl
    | cons s ss ih => exact fun old => by rw [List.map_cons, storeElems, ih]
  show (set r (storeElems (get r) _).1, (storeElems (get r) _).2) = _
  rw [helems]

/-- A struct that is stored where there was none. -/
theorem store_struct {depth : Nat} {structFields : List (Field α)} {zero a : α} {type : String} {get : ρ → Option α}
    {set : ρ → Option α → ρ} {members : List (String × Datum depth)} (hg : get r = none)
    (h : storeMembers structFields zero none (members.map fun m => (m.1, m.2.value)) = (a, none)) :
    (pointerField name type structFields zero get set).store r (Datum.struct members).value = (set r (some a), none) := by
  show (set r (some (storeMembers structFields ((get r).getD zero) none _).1), _) = _
  rw [hg]
  show (set r (some (storeMembers structFields zero none _).1), (storeMembers structFields zero none _).2) = _
  rw [h]

end Fields

end Talk2Text.Json
