import Talk2Text.Json.Quote

/-!
# The JSON scanner

`encoding/json` reads a text byte by byte: `Scanner.step` is one step of its state machine, with the nesting on a stack
(`parseState`). Here the frames of the stack also hold what has been read, so that the scanner gives the value, which
`encoding/json` gets in a second pass over the same bytes.

An object or array ends at its last byte. A number, a string or a literal at top level ends only at the byte behind
it, or where the text ends (`finish`).

- `run_append`: a text may be read in pieces;
- `run_lift`: a value is read the same inside an object as at top level.
-/

namespace Talk2Text.Json

open Format

/-- A JSON value; a number is its text. -/
inductive Value
  | null
  | bool (b : Bool)
  | number (text : List UInt8)
  | string (s : String)
  | array (elems : List Value)
  | object (members : List (String × Value))
  deriving Repr

/-- What the value is called in an error. -/
def Value.kind : Value → String
  | .null => "null"
  | .bool _ => "bool"
  | .number _ => "number"
  | .string _ => "string"
  | .array _ => "array"
  | .object _ => "object"

inductive Error
  /-- `io.EOF`. -/
  | eof
  /-- `io.ErrUnexpectedEOF`. -/
  | unexpectedEOF
  /-- The deadline of the reader has passed. -/
  | timeout
  /-- Any other error of the reader. -/
  | read (err : String)
  /-- `SyntaxError`: the byte is invalid. -/
  | syntaxError (c : UInt8) (context : String)
  /-- `SyntaxError`: "unexpected end of JSON input". -/
  | unexpectedEnd
  /-- `UnmarshalTypeError`. -/
  | unmarshalType (value type : String)
  /-- An unknown field, where these are not allowed. -/
  | unknownField (key : String)
  deriving DecidableEq, Repr

/-- `maxNestingDepth`. -/
def maxNestingDepth : Nat := 10000

def isSpace (c : UInt8) : Bool := c = 0x20 || c = 0x09 || c = 0x0D || c = 0x0A

/-! ## The state machine -/

/-- `parseState`, with what the object or array has so far. -/
inductive Frame
  | objectKey (members : List (String × Value))
  | objectValue (members : List (String × Value)) (key : String)
  | arrayValue (elems : List Value)
  deriving Repr

inductive NumberState
  | neg
  | one
  | zero
  | dot
  | dot0
  | e
  | eSign
  | e0
  deriving DecidableEq, Repr

/-- `scanner.step`, with what has been read of the value. -/
inductive Pc
  | beginValue
  | beginValueOrEmpty
  | beginStringOrEmpty
  | beginString
  | inString (raw : List UInt8)
  | inStringEsc (raw : List UInt8)
  /-- `n` digits of the four have been read. -/
  | inStringEscU (raw : List UInt8) (n : Nat)
  | number (state : NumberState) (text : List UInt8)
  /-- `rest` is still to come of the literal. -/
  | literal (name : String) (rest : List UInt8) (v : Value)
  /-- `stateEndValue`, after an object key. -/
  | endKey (key : String)
  /-- `stateEndValue`, after a value. -/
  | endValue (v : Value)
  deriving Repr

structure Scanner where
  pc : Pc
  parseState : List Frame
  deriving Repr

/-- What a step finds. -/
inductive Outcome
  | next (s : Scanner)
  /-- The byte ends the value. -/
  | closed (v : Value)
  /-- The value has ended before the byte. -/
  | ended (v : Value)
  | failed (c : UInt8) (context : String)
  deriving Repr

def Scanner.initial : Scanner := ⟨.beginValue, []⟩

def isDigit (c : UInt8) : Bool := ascii '0' ≤ c && c ≤ ascii '9'

def isExponent (c : UInt8) : Bool := c = ascii 'e' || c = ascii 'E'

/-- The next state inside a number. -/
def NumberState.next (c : UInt8) : NumberState → Option NumberState
  | .neg => if c = ascii '0' then some .zero else if isDigit c then some .one else none
  | .one =>
    if isDigit c then some .one
    else if c = ascii '.' then some .dot else if isExponent c then some .e else none
  | .zero => if c = ascii '.' then some .dot else if isExponent c then some .e else none
  | .dot => if isDigit c then some .dot0 else none
  | .dot0 => if isDigit c then some .dot0 else if isExponent c then some .e else none
  | .e => if c = ascii '+' || c = ascii '-' then some .eSign else if isDigit c then some .e0 else none
  | .eSign => if isDigit c then some .e0 else none
  | .e0 => if isDigit c then some .e0 else none

/-- The context of the error when a number stops here; `none` where it may. -/
def NumberState.incomplete : NumberState → Option String
  | .neg => some "in numeric literal"
  | .dot => some "after decimal point in numeric literal"
  | .e | .eSign => some "in exponent of numeric literal"
  | .one | .zero | .dot0 | .e0 => none

/-- `pushParseState`. -/
def push (pc : Pc) (f : Frame) (fs : List Frame) (c : UInt8) : Outcome :=
  if (f :: fs).length ≤ maxNestingDepth then .next ⟨pc, f :: fs⟩ else .failed c "exceeded max depth"

/-- `popParseState`, after an object or an array. -/
def pop (v : Value) : List Frame → Outcome
  | [] => .closed v
  | f :: fs => .next ⟨.endValue v, f :: fs⟩

/-- The state after the first byte of a scalar. -/
def beginLiteral (c : UInt8) : Option Pc :=
  if c = ascii '"' then some (.inString [])
  else if c = ascii '-' then some (.number .neg [c])
  else if c = ascii '0' then some (.number .zero [c])
  else if c = ascii 't' then some (.literal "true" (utf8 "rue") (.bool true))
  else if c = ascii 'f' then some (.literal "false" (utf8 "alse") (.bool false))
  else if c = ascii 'n' then some (.literal "null" (utf8 "ull") .null)
  else if isDigit c then some (.number .one [c])
  else none

/-- `stateBeginValue`. -/
def stateBeginValue (fs : List Frame) (c : UInt8) : Outcome :=
  if isSpace c then .next ⟨.beginValue, fs⟩
  else if c = ascii '{' then push .beginStringOrEmpty (.objectKey []) fs c
  else if c = ascii '[' then push .beginValueOrEmpty (.arrayValue []) fs c
  else
    match beginLiteral c with
    | some pc => .next ⟨pc, fs⟩
    | none => .failed c "looking for beginning of value"

/-- `stateBeginString`. -/
def stateBeginString (fs : List Frame) (c : UInt8) : Outcome :=
  if isSpace c then .next ⟨.beginString, fs⟩
  else if c = ascii '"' then .next ⟨.inString [], fs⟩
  else .failed c "looking for beginning of object key string"

/-- `stateEndValue`, after a value. -/
def stateEndValue (v : Value) (fs : List Frame) (c : UInt8) : Outcome :=
  match fs with
  | [] => .ended v
  | f :: fs =>
    if isSpace c then .next ⟨.endValue v, f :: fs⟩
    else
      match f with
      -- only a key stands in this frame
      | .objectKey _ => .failed c "after object key"
      | .objectValue members key =>
        if c = ascii ',' then .next ⟨.beginString, .objectKey (members ++ [(key, v)]) :: fs⟩
        else if c = ascii '}' then pop (.object (members ++ [(key, v)])) fs
        else .failed c "after object key:value pair"
      | .arrayValue elems =>
        if c = ascii ',' then .next ⟨.beginValue, .arrayValue (elems ++ [v]) :: fs⟩
        else if c = ascii ']' then pop (.array (elems ++ [v])) fs
        else .failed c "after array element"

/-- `stateEndValue`, after an object key. -/
def stateEndKey (key : String) (fs : List Frame) (c : UInt8) : Outcome :=
  if isSpace c then .next ⟨.endKey key, fs⟩
  else
    match fs with
    | .objectKey members :: fs =>
      if c = ascii ':' then .next ⟨.beginValue, .objectValue members key :: fs⟩
      else .failed c "after object key"
    | _ => .failed c "after object key"

/-- The state after the closing quote. -/
def endString (raw : List UInt8) (fs : List Frame) : Pc :=
  match fs with
  | .objectKey _ :: _ => .endKey (unquote raw)
  | _ => .endValue (.string (unquote raw))

def stateInString (raw : List UInt8) (fs : List Frame) (c : UInt8) : Outcome :=
  if c = ascii '"' then .next ⟨endString raw fs, fs⟩
  else if c = ascii '\\' then .next ⟨.inStringEsc (raw ++ [c]), fs⟩
  else if c < 0x20 then .failed c "in string literal"
  else .next ⟨.inString (raw ++ [c]), fs⟩

def stateInStringEsc (raw : List UInt8) (fs : List Frame) (c : UInt8) : Outcome :=
  if (utf8 "bfnrt\\/\"").contains c then .next ⟨.inString (raw ++ [c]), fs⟩
  else if c = ascii 'u' then .next ⟨.inStringEscU (raw ++ [c]) 0, fs⟩
  else .failed c "in string escape code"

def stateInStringEscU (raw : List UInt8) (n : Nat) (fs : List Frame) (c : UInt8) : Outcome :=
  if (hexDigit c).isSome then
    .next ⟨if n < 3 then .inStringEscU (raw ++ [c]) (n + 1) else .inString (raw ++ [c]), fs⟩
  else .failed c "in \\u hexadecimal character escape"

def stateNumber (state : NumberState) (text : List UInt8) (fs : List Frame) (c : UInt8) : Outcome :=
  match state.next c with
  | some state' => .next ⟨.number state' (text ++ [c]), fs⟩
  | none =>
    match state.incomplete with
    | some context => .failed c context
    | none => stateEndValue (.number text) fs c

/-- The states of a literal: `name`, of which `rest` is to come. -/
def stateLiteral (name : String) (rest : List UInt8) (v : Value) (fs : List Frame) (c : UInt8) : Outcome :=
  match rest with
  | [] => stateEndValue v fs c
  | b :: rest =>
    if c = b then .next ⟨if rest.isEmpty then .endValue v else .literal name rest v, fs⟩
    else .failed c ("in literal " ++ name ++ " (expecting '" ++ String.ofList [Char.ofNat b.toNat] ++ "')")

def Scanner.step (s : Scanner) (c : UInt8) : Outcome :=
  match s.pc with
  | .beginValue => stateBeginValue s.parseState c
  | .beginValueOrEmpty =>
    if isSpace c then .next s
    else if c = ascii ']' then pop (.array []) s.parseState.tail
    else stateBeginValue s.parseState c
  | .beginStringOrEmpty =>
    if isSpace c then .next s
    else if c = ascii '}' then pop (.object []) s.parseState.tail
    else stateBeginString s.parseState c
  | .beginString => stateBeginString s.parseState c
  | .inString raw => stateInString raw s.parseState c
  | .inStringEsc raw => stateInStringEsc raw s.parseState c
  | .inStringEscU raw n => stateInStringEscU raw n s.parseState c
  | .number state text => stateNumber state text s.parseState c
  | .literal name rest v => stateLiteral name rest v s.parseState c
  | .endKey key => stateEndKey key s.parseState c
  | .endValue v => stateEndValue v s.parseState c

/-! ## Texts -/

/-- What scanning a text comes to. -/
inductive Scanned
  /-- A value, and the bytes behind it. -/
  | value (v : Value) (rest : List UInt8)
  | failed (c : UInt8) (context : String)
  /-- The value goes on. -/
  | more (s : Scanner)
  deriving Repr

def Scanner.run (s : Scanner) : List UInt8 → Scanned
  | [] => .more s
  | c :: cs =>
    match s.step c with
    | .next s' => s'.run cs
    | .closed v => .value v cs
    | .ended v => .value v (c :: cs)
    | .failed c context => .failed c context

/-- The value, when the text ends here. -/
def Scanner.finish (s : Scanner) : Option Value :=
  match s.step 0x20 with
  | .ended v => some v
  | _ => none

/-! ## Reading in pieces -/

section Run

variable {s s' : Scanner} {c : UInt8} {cs xs ys rest : List UInt8} {v : Value} {fs : List Frame}

/-- **A text in two pieces.** -/
theorem run_append (s : Scanner) (xs ys : List UInt8) :
    s.run (xs ++ ys) =
      match s.run xs with
      | .value v rest => .value v (rest ++ ys)
      | .failed c context => .failed c context
      | .more s' => s'.run ys := by
  induction xs generalizing s with
  | nil => rfl
  | cons c xs ih =>
    rw [List.cons_append, Scanner.run, Scanner.run]
    cases s.step c with
    | next s' => exact ih s'
    | closed v => rfl
    | ended v => rfl
    | failed c context => rfl

theorem run_append_more (h : s.run xs = .more s') : s.run (xs ++ ys) = s'.run ys := by
  rw [run_append, h]

/-- A byte that stands for itself in a string. -/
def isPlain (c : UInt8) : Bool := c ≠ ascii '"' && c ≠ ascii '\\' && !(c < 0x20)

theorem step_plain {raw : List UInt8} (h : isPlain c = true) :
    Scanner.step ⟨.inString raw, fs⟩ c = .next ⟨.inString (raw ++ [c]), fs⟩ := by
  simp only [isPlain, Bool.and_eq_true, decide_eq_true_eq, Bool.not_eq_true', decide_eq_false_iff_not] at h
  show stateInString raw fs c = _
  rw [stateInString, if_neg h.1.1, if_neg h.1.2, if_neg h.2]

theorem run_plain {raw : List UInt8} (h : ∀ c ∈ xs, isPlain c = true) :
    Scanner.run ⟨.inString raw, fs⟩ (xs ++ ys) = Scanner.run ⟨.inString (raw ++ xs), fs⟩ ys := by
  induction xs generalizing raw with
  | nil => rw [List.append_nil, List.nil_append]
  | cons c xs ih =>
    obtain ⟨hc, hxs⟩ := List.forall_mem_cons.mp h
    rw [List.cons_append, Scanner.run, step_plain hc]
    dsimp only
    rw [ih hxs, List.append_assoc, List.singleton_append]

/-! ## Reachable states -/

def Value.isScalar : Value → Bool
  | .array _ | .object _ => false
  | _ => true

/-- What holds of every state of the scanner: only scalars end later than their last byte. -/
def Scanner.Ok (s : Scanner) : Prop :=
  match s.pc with
  | .beginValueOrEmpty | .beginStringOrEmpty => s.parseState ≠ []
  | .endValue v | .literal _ _ v => s.parseState = [] → v.isScalar = true
  | _ => True

/-- What a step leaves: a state in order, nested at most one level deeper. -/
structure Keeps (fs : List Frame) (s' : Scanner) : Prop where
  ok : s'.Ok
  depth : s'.parseState.length ≤ fs.length + 1

theorem Keeps.next {pc : Pc} (h : Outcome.next ⟨pc, fs⟩ = .next s') (hok : Scanner.Ok ⟨pc, fs⟩) : Keeps fs s' := by
  cases h
  exact ⟨hok, Nat.le_succ _⟩

theorem keeps_push {pc : Pc} {f : Frame} (h : push pc f fs c = .next s') (hok : Scanner.Ok ⟨pc, f :: fs⟩) :
    Keeps fs s' := by
  unfold push at h
  split at h <;> cases h
  exact ⟨hok, Nat.le_refl _⟩

theorem keeps_pop {gs : List Frame} (hlen : fs.length ≤ gs.length) (h : pop v fs = .next s') : Keeps gs s' := by
  cases fs with
  | nil => cases h
  | cons f fs =>
    cases h
    exact ⟨fun he => absurd he (List.cons_ne_nil _ _), Nat.le_succ_of_le hlen⟩

theorem ok_beginLiteral {pc : Pc} (h : beginLiteral c = some pc) : Scanner.Ok ⟨pc, fs⟩ := by
  unfold beginLiteral at h
  repeat' split at h
  all_goals cases h
  all_goals first
    | trivial
    | exact fun _ => rfl

theorem keeps_beginValue (h : stateBeginValue fs c = .next s') : Keeps fs s' := by
  unfold stateBeginValue at h
  split at h
  · exact .next h trivial
  split at h
  · exact keeps_push h (List.cons_ne_nil _ _)
  split at h
  · exact keeps_push h (List.cons_ne_nil _ _)
  split at h
  · exact .next h (ok_beginLiteral (by assumption))
  · cases h

theorem keeps_beginString (h : stateBeginString fs c = .next s') : Keeps fs s' := by
  unfold stateBeginString at h
  split at h
  · exact .next h trivial
  split at h
  · exact .next h trivial
  · cases h

theorem keeps_endValue (hok : fs = [] → v.isScalar = true) (h : stateEndValue v fs c = .next s') : Keeps fs s' := by
  cases fs with
  | nil => cases h
  | cons f fs =>
    have hlen : fs.length ≤ (f :: fs).length := Nat.le_succ _
    simp only [stateEndValue] at h
    split at h
    · exact .next h hok
    cases f with
    | objectKey members => cases h
    | objectValue members key =>
      dsimp only at h
      split at h
      · cases h
        exact ⟨trivial, Nat.le_succ _⟩
      split at h
      · exact keeps_pop hlen h
      · cases h
    | arrayValue elems =>
      dsimp only at h
      split at h
      · cases h
        exact ⟨trivial, Nat.le_succ _⟩
      split at h
      · exact keeps_pop hlen h
      · cases h

theorem keeps_endKey {key : String} (h : stateEndKey key fs c = .next s') : Keeps fs s' := by
  unfold stateEndKey at h
  split at h
  · exact .next h trivial
  split at h
  · split at h <;> cases h
    exact ⟨trivial, Nat.le_succ _⟩
  · cases h

/-- **One step** of the scanner. -/
theorem keeps_step (hok : s.Ok) (h : s.step c = .next s') : Keeps s.parseState s' := by
  obtain ⟨pc, fs⟩ := s
  cases pc with
  | beginValue => exact keeps_beginValue h
  | beginValueOrEmpty | beginStringOrEmpty =>
    simp only [Scanner.step] at h
    split at h
    · exact .next h hok
    split at h
    · exact keeps_pop (by simp) h
    · first
      | exact keeps_beginValue h
      | exact keeps_beginString h
  | beginString => exact keeps_beginString h
  | inString raw =>
    simp only [Scanner.step, stateInString] at h
    split at h
    · refine .next h ?_
      unfold endString
      split
      · trivial
      · exact fun _ => rfl
    split at h
    · exact .next h trivial
    split at h
    · cases h
    · exact .next h trivial
  | inStringEsc raw =>
    simp only [Scanner.step, stateInStringEsc] at h
    split at h
    · exact .next h trivial
    split at h
    · exact .next h trivial
    · cases h
  | inStringEscU raw n =>
    simp only [Scanner.step, stateInStringEscU] at h
    split at h
    · refine .next h ?_
      split <;> trivial
    · cases h
  | number state text =>
    simp only [Scanner.step, stateNumber] at h
    split at h
    · exact .next h trivial
    split at h
    · cases h
    · exact keeps_endValue (fun _ => rfl) h
  | literal name rest v =>
    simp only [Scanner.step, stateLiteral] at h
    split at h
    · exact keeps_endValue hok h
    split at h
    · refine .next h ?_
      split <;> exact hok
    · cases h
  | endKey key => exact keeps_endKey h
  | endValue v => exact keeps_endValue hok h

/-- **Every state is in order.** -/
theorem ok_run (hok : s.Ok) (h : s.run cs = .more s') : s'.Ok := by
  induction cs generalizing s with
  | nil =>
    cases h
    exact hok
  | cons c cs ih =>
    rw [Scanner.run] at h
    cases hst : s.step c with
    | next t =>
      rw [hst] at h
      exact ih (keeps_step hok hst).ok h
    | closed | ended | failed =>
      rw [hst] at h
      cases h

end Run

/-! ## A value inside an object -/

/-- The state, with its nesting on top of another one. -/
def Scanner.lift (base : List Frame) (s : Scanner) : Scanner := ⟨s.pc, s.parseState ++ base⟩

/-- The outcome of a step in the nesting `base`. -/
def Outcome.lift (base : List Frame) (c : UInt8) : Outcome → Outcome
  | .next s => .next (s.lift base)
  | .closed v => .next ⟨.endValue v, base⟩
  | .ended v => stateEndValue v base c
  | .failed c context => .failed c context

/-- A value comes next, in an object. -/
def InObject (base : List Frame) : Prop := ∃ members key fs, base = .objectValue members key :: fs

section Lift

variable {base : List Frame} {c : UInt8} {v : Value} {fs : List Frame}

theorem push_lift {pc : Pc} {f : Frame} (hd : fs.length + base.length < maxNestingDepth) :
    push pc f (fs ++ base) c = (push pc f fs c).lift base c := by
  have h₁ : (f :: fs).length ≤ maxNestingDepth := by
    rw [List.length_cons]
    omega
  have h₂ : (f :: (fs ++ base)).length ≤ maxNestingDepth := by
    rw [List.length_cons, List.length_append]
    omega
  rw [push, push, if_pos h₁, if_pos h₂]
  rfl

theorem pop_lift (hb : InObject base) : pop v (fs ++ base) = (pop v fs).lift base c := by
  obtain ⟨members, key, gs, rfl⟩ := hb
  cases fs <;> rfl

theorem beginValue_lift (hd : fs.length + base.length < maxNestingDepth) :
    stateBeginValue (fs ++ base) c = (stateBeginValue fs c).lift base c := by
  unfold stateBeginValue
  split
  · rfl
  split
  · exact push_lift hd
  split
  · exact push_lift hd
  split <;> rfl

theorem beginString_lift : stateBeginString (fs ++ base) c = (stateBeginString fs c).lift base c := by
  unfold stateBeginString
  split
  · rfl
  split <;> rfl

theorem endValue_lift (hb : InObject base) :
    stateEndValue v (fs ++ base) c = (stateEndValue v fs c).lift base c := by
  cases fs with
  | nil => rfl
  | cons f fs =>
    simp only [List.cons_append, stateEndValue]
    split
    · rfl
    cases f with
    | objectKey members => rfl
    | objectValue members key =>
      dsimp only
      split
      · rfl
      split
      · exact pop_lift hb
      · rfl
    | arrayValue elems =>
      dsimp only
      split
      · rfl
      split
      · exact pop_lift hb
      · rfl

theorem endKey_lift {key : String} (hb : InObject base) :
    stateEndKey key (fs ++ base) c = (stateEndKey key fs c).lift base c := by
  obtain ⟨members, k, gs, rfl⟩ := hb
  unfold stateEndKey
  split
  · rfl
  cases fs with
  | nil => rfl
  | cons f fs =>
    cases f with
    | objectKey members =>
      dsimp only [List.cons_append]
      split <;> rfl
    | objectValue | arrayValue => rfl

theorem endString_lift {raw : List UInt8} (hb : InObject base) : endString raw (fs ++ base) = endString raw fs := by
  obtain ⟨members, key, gs, rfl⟩ := hb
  cases fs with
  | nil => rfl
  | cons f fs => cases f <;> rfl

/-- **One step** inside an object. -/
theorem step_lift {s : Scanner} (hb : InObject base) (hok : s.Ok)
    (hd : s.parseState.length + base.length < maxNestingDepth) :
    (s.lift base).step c = (s.step c).lift base c := by
  obtain ⟨pc, fs⟩ := s
  cases pc with
  | beginValue => exact beginValue_lift hd
  | beginValueOrEmpty | beginStringOrEmpty =>
    have hne : fs ≠ [] := hok
    simp only [Scanner.lift, Scanner.step]
    split
    · rfl
    split
    · rw [List.tail_append_of_ne_nil hne]
      exact pop_lift hb
    · first
      | exact beginValue_lift hd
      | exact beginString_lift
  | beginString => exact beginString_lift
  | inString raw =>
    simp only [Scanner.lift, Scanner.step, stateInString, endString_lift hb]
    split
    · rfl
    split
    · rfl
    split <;> rfl
  | inStringEsc raw =>
    simp only [Scanner.lift, Scanner.step, stateInStringEsc]
    split
    · rfl
    split <;> rfl
  | inStringEscU raw n =>
    simp only [Scanner.lift, Scanner.step, stateInStringEscU]
    split <;> rfl
  | number state text =>
    simp only [Scanner.lift, Scanner.step, stateNumber]
    split
    · rfl
    split
    · rfl
    · exact endValue_lift hb
  | literal name rest v =>
    simp only [Scanner.lift, Scanner.step, stateLiteral]
    split
    · exact endValue_lift hb
    split <;> rfl
  | endKey key => exact endKey_lift hb
  | endValue v => exact endValue_lift hb

/-- **A value inside an object** is read as at top level, and then the object goes on. -/
theorem run_lift {s : Scanner} {cs : List UInt8} (hb : InObject base) (hok : s.Ok)
    (hd : s.parseState.length + base.length + cs.length ≤ maxNestingDepth) :
    (s.lift base).run cs =
      match s.run cs with
      | .value v rest => Scanner.run ⟨.endValue v, base⟩ rest
      | .failed c context => .failed c context
      | .more s' => .more (s'.lift base) := by
  induction cs generalizing s with
  | nil => rfl
  | cons c cs ih =>
    rw [List.length_cons] at hd
    rw [Scanner.run, Scanner.run, step_lift hb hok (by omega)]
    cases hst : s.step c with
    | next s' =>
      have hk := keeps_step hok hst
      have hdepth := hk.depth
      exact ih hk.ok (by omega)
    | closed v => rfl
    | ended v =>
      dsimp only [Outcome.lift]
      rw [Scanner.run]
      rfl
    | failed c context => rfl

end Lift

/-! ## Scalars -/

section Scalar

variable {s s' : Scanner} {c : UInt8} {cs rest : List UInt8} {v : Value}

/-- The scanner is at the end of a scalar, or in a number. -/
def Scanner.AtScalar (s : Scanner) : Prop :=
  s.parseState = [] ∧
    match s.pc with
    | .number _ _ => True
    | .literal _ _ v | .endValue v => v.isScalar = true
    | _ => False

theorem ended_endValue {fs : List Frame} {w : Value} (h : stateEndValue w fs c = .ended v) : fs = [] ∧ w = v := by
  cases fs with
  | nil =>
    cases h
    exact ⟨rfl, rfl⟩
  | cons f fs =>
    simp only [stateEndValue] at h
    split at h
    · cases h
    cases f with
    | objectKey => cases h
    | objectValue | arrayValue =>
      dsimp only at h
      split at h
      · cases h
      split at h
      · cases fs <;> cases h
      · cases h

/-- **Only a scalar** ends later than its last byte. -/
theorem ended_step (hok : s.Ok) (h : s.step c = .ended v) : s.AtScalar ∧ v.isScalar = true := by
  obtain ⟨pc, fs⟩ := s
  have hpush : ∀ {pc f}, push pc f fs c ≠ .ended v := by
    intro pc f
    unfold push
    split <;> simp
  have hbegin : stateBeginValue fs c ≠ .ended v := by
    unfold stateBeginValue
    split
    · simp
    split
    · exact hpush
    split
    · exact hpush
    split <;> simp
  have hbegin' : stateBeginString fs c ≠ .ended v := by
    unfold stateBeginString
    repeat' split
    all_goals simp
  have hpop : ∀ {w gs}, pop w gs ≠ .ended v := by
    intro w gs
    cases gs <;> simp [pop]
  cases pc with
  | beginValue => exact absurd h hbegin
  | beginString => exact absurd h hbegin'
  | beginValueOrEmpty | beginStringOrEmpty =>
    simp only [Scanner.step] at h
    split at h
    · cases h
    split at h
    · exact absurd h hpop
    · first
      | exact absurd h hbegin
      | exact absurd h hbegin'
  | inString | inStringEsc =>
    simp only [Scanner.step, stateInString, stateInStringEsc] at h
    repeat' split at h
    all_goals cases h
  | inStringEscU =>
    simp only [Scanner.step, stateInStringEscU] at h
    split at h <;> cases h
  | number state text =>
    simp only [Scanner.step, stateNumber] at h
    split at h
    · cases h
    split at h
    · cases h
    · obtain ⟨rfl, rfl⟩ := ended_endValue h
      exact ⟨⟨rfl, trivial⟩, rfl⟩
  | literal name rest w =>
    simp only [Scanner.step, stateLiteral] at h
    split at h
    · obtain ⟨rfl, rfl⟩ := ended_endValue h
      exact ⟨⟨rfl, hok rfl⟩, hok rfl⟩
    · split at h <;> cases h
  | endKey key =>
    simp only [Scanner.step, stateEndKey] at h
    repeat' split at h
    all_goals cases h
  | endValue w =>
    obtain ⟨rfl, rfl⟩ := ended_endValue h
    exact ⟨⟨rfl, hok rfl⟩, hok rfl⟩

theorem ended_of_finish (h : s.finish = some v) : s.step 0x20 = .ended v := by
  unfold Scanner.finish at h
  split at h <;> cases h
  assumption

theorem isScalar_of_finish (hok : s.Ok) (h : s.finish = some v) : v.isScalar = true :=
  (ended_step hok (ended_of_finish h)).2

/-- A scalar that goes on is a scalar. -/
theorem atScalar_step (h : s.AtScalar) : 
    match s.step c with
    | .next s' => s'.AtScalar
    | .closed _ => False
    | .ended v => v.isScalar = true
    | .failed _ _ => True := by
  obtain ⟨pc, fs⟩ := s
  obtain ⟨rfl, h⟩ := h
  cases pc with
  | number state text =>
    simp only [Scanner.step, stateNumber]
    cases state.next c with
    | some state' => exact ⟨rfl, trivial⟩
    | none =>
      cases state.incomplete with
      | some context => trivial
      | none => rfl
  | literal name rest w =>
    cases rest with
    | nil => exact h
    | cons b rest =>
      simp only [Scanner.step, stateLiteral]
      by_cases hc : c = b
      · rw [if_pos hc]
        refine ⟨rfl, ?_⟩
        cases rest <;> exact h
      · rw [if_neg hc]
        trivial
  | endValue w => exact h
  | beginValue | beginValueOrEmpty | beginStringOrEmpty | beginString => exact h.elim
  | inString | inStringEsc | inStringEscU | endKey => exact h.elim

theorem isScalar_of_run (h : s.AtScalar) (hr : s.run cs = .value v rest) : v.isScalar = true := by
  induction cs generalizing s with
  | nil => cases hr
  | cons c cs ih =>
    have hstep := atScalar_step (c := c) h
    rw [Scanner.run] at hr
    cases hst : s.step c with
    | next s' =>
      rw [hst] at hstep hr
      exact ih hstep hr
    | closed w =>
      rw [hst] at hstep
      exact hstep.elim
    | ended w =>
      rw [hst] at hstep hr
      simp only [Scanned.value.injEq] at hr
      rw [← hr.1]
      exact hstep
    | failed c context =>
      rw [hst] at hr
      cases hr

end Scalar

end Talk2Text.Json
