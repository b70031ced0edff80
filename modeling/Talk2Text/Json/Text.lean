import Mathlib.Data.List.Forall2
import Talk2Text.Format.Strconv
import Talk2Text.Json.Decoder
import Talk2Text.Json.Encode

/-!
# Encoded values

What `encoding/json` writes for numbers, truth values, slices and structs, and how the scanner reads it back
(`Encodes`), put together from the parts. Inside an object or array a value is read by the time the byte behind it
comes, which is a comma or a bracket.

- `encodes_bool`, `encodes_int`, `encodes_quote`: scalars;
- `encodes_array`, `encodes_object`: a slice of values, and a struct with the fields that are not omitted;
- `unmarshal_line`: an object on a line of its own;
- `Datum`: a value with its text, and `unmarshal_struct` for one of them on a line of its own.
-/

namespace Talk2Text.Json

open Format

/-! ## Encoders -/

def encodeBool (b : Bool) : List UInt8 := if b then utf8 "true" else utf8 "false"

/-- `strconv.AppendInt`, in base ten. -/
def formatInt (n : Int) : List UInt8 :=
  if n < 0 then ascii '-' :: utf8 n.natAbs.repr else utf8 n.natAbs.repr

/-- With commas in between. -/
def separated : List (List UInt8) → List UInt8
  | [] => []
  | text :: texts => text ++ texts.flatMap fun text => ascii ',' :: text

/-- `arrayEncoder.encode`, of the texts of the elements. -/
def encodeArray (elems : List (List UInt8)) : List UInt8 := ascii '[' :: separated elems ++ [ascii ']']

/-- A field. -/
def memberText (m : String × List UInt8) : List UInt8 := quote (utf8 m.1) ++ ascii ':' :: m.2

/-- `structEncoder.encode`, of the names of the fields and the texts of their values. -/
def encodeStruct (members : List (String × List UInt8)) : List UInt8 :=
  ascii '{' :: separated (members.map memberText) ++ [ascii '}']

/-! ## Values between delimiters -/

/-- What stands behind a value in an object or array. -/
def isDelimiter (c : UInt8) : Bool := c = ascii ',' || c = ascii ']' || c = ascii '}'

/-- Values stand here. -/
def Frame.takesValue : Frame → Bool
  | .objectKey _ => false
  | .objectValue _ _ | .arrayValue _ => true

/-- The text is on one line, and is read as `v` where at least `depth` more levels may be nested. -/
structure Encodes (depth : Nat) (text : List UInt8) (v : Value) : Prop where
  start : ∃ c cs, text = c :: cs ∧ isSpace c = false ∧ c ≠ ascii ']'
  line : ascii '\n' ∉ text
  run : ∀ f fs c ys, f.takesValue = true → (f :: fs).length + depth ≤ maxNestingDepth → isDelimiter c = true →
    Scanner.run ⟨.beginValue, f :: fs⟩ (text ++ c :: ys) = Scanner.run ⟨.endValue v, f :: fs⟩ (c :: ys)

section Scalars

variable {fs : List Frame} {f : Frame} {ys text : List UInt8} {c : UInt8} {n : Nat}

theorem Encodes.deeper {depth depth' : Nat} {v : Value} (h : Encodes depth text v) (hd : depth ≤ depth') :
    Encodes depth' text v :=
  ⟨h.start, h.line, fun f fs c ys hf hlen hc => h.run f fs c ys hf (by omega) hc⟩

theorem encodes_bool (b : Bool) : Encodes 0 (encodeBool b) (.bool b) := by
  cases b
  · exact ⟨⟨_, _, rfl, by decide, by decide⟩, by decide, fun _ _ _ _ _ _ _ => rfl⟩
  · exact ⟨⟨_, _, rfl, by decide, by decide⟩, by decide, fun _ _ _ _ _ _ _ => rfl⟩

/-- The text of a string is one line. -/
theorem not_mem_escape (bs : List UInt8) : ascii '\n' ∉ escape bs := by
  have hbyte : ∀ n < 128, ascii '\n' ∉ escapeByte (UInt8.ofNat n) := by decide +kernel
  induction bs using runes_induction with
  | nil => exact List.not_mem_nil
  | rune c bs ih =>
    rw [escape_rune, List.mem_append, not_or]
    refine ⟨?_, ih⟩
    rw [escapeChar]
    split
    · exact hbyte _ (by assumption)
    · rw [escapeRune]
      split
      · rename_i h
        rcases h with h | h <;> rw [h] <;> decide
      · intro hmem
        rcases mem_utf8EncodeChar hmem with ⟨hlt, -⟩ | ⟨-, hle⟩
        · omega
        · exact absurd hle (by decide)
  | invalid b bs hd ih =>
    rw [escape_invalid hd, List.mem_append, not_or]
    exact ⟨by decide, ih⟩

theorem encodes_quote (bs : List UInt8) : Encodes 0 (quote bs) (.string (decodeUtf8 bs)) where
  start := ⟨_, _, rfl, by decide, by decide⟩
  line := by
    simp only [quote, List.mem_append, List.mem_cons, List.not_mem_nil, or_false]
    rintro ((h | h) | h)
    · revert h; decide
    · exact not_mem_escape bs h
    · revert h; decide
  run f fs c ys hf _ _ := by
    have hend : endString (escape bs) (f :: fs) = .endValue (.string (decodeUtf8 bs)) := by
      rw [← unquote_escape]
      cases f with
      | objectKey members => exact absurd hf Bool.false_ne_true
      | objectValue members key => rfl
      | arrayValue elems => rfl
    rw [quote, List.cons_append, List.cons_append, List.append_assoc]
    exact (run_inString bs).trans (by rw [hend])

/-! ### Numbers -/

theorem run_digits {ds : List UInt8} (h : ∀ d ∈ ds, isDigit d = true) :
    Scanner.run ⟨.number .one text, fs⟩ (ds ++ ys) = Scanner.run ⟨.number .one (text ++ ds), fs⟩ ys := by
  induction ds generalizing text with
  | nil => rw [List.append_nil, List.nil_append]
  | cons d ds ih =>
    obtain ⟨hd, hds⟩ := List.forall_mem_cons.mp h
    have hstep : Scanner.step ⟨.number .one text, fs⟩ d = .next ⟨.number .one (text ++ [d]), fs⟩ := by
      show stateNumber .one text fs d = _
      rw [stateNumber, NumberState.next, if_pos hd]
    rw [List.cons_append, Scanner.run, hstep]
    exact (ih hds).trans (by rw [List.append_assoc, List.singleton_append])

/-- The number ends before the delimiter. -/
theorem run_number {state : NumberState} (hs : state = .one ∨ state = .zero) (hc : isDelimiter c = true) :
    Scanner.run ⟨.number state text, f :: fs⟩ (c :: ys) = Scanner.run ⟨.endValue (.number text), f :: fs⟩ (c :: ys) := by
  simp only [isDelimiter, Bool.or_eq_true, decide_eq_true_eq] at hc
  rcases hs with rfl | rfl <;> rcases hc with (rfl | rfl) | rfl <;> rfl

/-- The first digit of a number is not zero. -/
theorem utf8_repr_cons (h : 0 < n) : ∃ d ds, utf8 n.repr = d :: ds ∧ d ≠ ascii '0' := by
  induction n using Nat.strongRecOn with
  | ind n ih =>
    rcases Nat.lt_or_ge n 10 with hlt | hge
    · have hdigit : ∀ n < 10, 0 < n → utf8 n.repr = [UInt8.ofNat (48 + n)] ∧ UInt8.ofNat (48 + n) ≠ ascii '0' := by
        decide
      obtain ⟨hd, hne⟩ := hdigit n hlt h
      exact ⟨_, [], hd, hne⟩
    · obtain ⟨d, ds, hd, hne⟩ := ih (n / 10) (by omega) (by omega)
      rw [Nat.repr_eq_repr_append_repr hge, utf8_append, hd]
      exact ⟨d, _, rfl, hne⟩

theorem isDigit_repr' (n : Nat) : ∀ d ∈ utf8 n.repr, isDigit d = true := isDigit_encodeRunes (isDigit_repr n)

/-- The digits of a number, from a state that takes them. -/
theorem run_repr {s : Scanner} (hs : ∀ d, isDigit d = true → s.step d =
      .next ⟨.number (if d = ascii '0' then .zero else .one) (text ++ [d]), f :: fs⟩) (hc : isDelimiter c = true) :
    s.run (utf8 n.repr ++ c :: ys) =
      Scanner.run ⟨.endValue (.number (text ++ utf8 n.repr)), f :: fs⟩ (c :: ys) := by
  rcases Nat.eq_zero_or_pos n with rfl | hpos
  · show s.run (ascii '0' :: c :: ys) = _
    rw [Scanner.run, hs _ (by decide)]
    exact run_number (.inr rfl) hc
  · obtain ⟨d, ds, hd, hne⟩ := utf8_repr_cons hpos
    have hall := isDigit_repr' n
    rw [hd] at hall ⊢
    obtain ⟨hd, hds⟩ := List.forall_mem_cons.mp hall
    rw [List.cons_append, Scanner.run, hs d hd, if_neg hne]
    refine (run_digits hds).trans ((run_number (.inl rfl) hc).trans ?_)
    rw [List.append_assoc, List.singleton_append]

/-- A digit is none of the other bytes that a value can begin with. -/
theorem ne_of_isDigit {d b : UInt8} (hd : isDigit d = true) (hb : isDigit b = false) : d ≠ b := by
  rintro rfl
  rw [hb] at hd
  exact Bool.false_ne_true hd

theorem isSpace_of_isDigit {d : UInt8} (hd : isDigit d = true) : isSpace d = false := by
  simp [isSpace, ne_of_isDigit hd (b := 0x20) (by decide), ne_of_isDigit hd (b := 0x09) (by decide),
    ne_of_isDigit hd (b := 0x0D) (by decide), ne_of_isDigit hd (b := 0x0A) (by decide)]

theorem step_beginValue {d : UInt8} (hd : isDigit d = true) : Scanner.step ⟨.beginValue, fs⟩ d =
    .next ⟨.number (if d = ascii '0' then .zero else .one) [d], fs⟩ := by
  have hne : ∀ b, isDigit b = false → d ≠ b := fun b => ne_of_isDigit hd
  have hlit : beginLiteral d = some (.number (if d = ascii '0' then .zero else .one) [d]) := by
    rw [beginLiteral, if_neg (hne _ (by decide)), if_neg (hne _ (by decide))]
    split
    · rfl
    · rw [if_neg (hne _ (by decide)), if_neg (hne _ (by decide)), if_neg (hne _ (by decide))]
  show stateBeginValue fs d = _
  rw [stateBeginValue, isSpace_of_isDigit hd, if_neg Bool.false_ne_true, if_neg (hne _ (by decide)),
    if_neg (hne _ (by decide)), hlit]

theorem step_neg {d : UInt8} (hd : isDigit d = true) : Scanner.step ⟨.number .neg text, fs⟩ d =
    .next ⟨.number (if d = ascii '0' then .zero else .one) (text ++ [d]), fs⟩ := by
  have hnext : NumberState.next d .neg = some (if d = ascii '0' then .zero else .one) := by
    rw [NumberState.next]
    split
    all_goals rfl
  show stateNumber .neg text fs d = _
  rw [stateNumber, hnext]

theorem encodes_int (n : Int) : Encodes 0 (formatInt n) (.number (formatInt n)) := by
  have hline : ∀ n : Nat, ascii '\n' ∉ utf8 n.repr := fun n h => ne_of_isDigit (isDigit_repr' n _ h) (by decide) rfl
  rcases Int.lt_or_le n 0 with hneg | hpos
  · rw [formatInt, if_pos hneg]
    refine ⟨⟨_, _, rfl, by decide, by decide⟩, fun h => ?_, fun f fs c ys _ _ hc => ?_⟩
    · rcases List.mem_cons.mp h with h | h
      · revert h; decide
      · exact hline _ h
    · exact run_repr (s := ⟨.number .neg [ascii '-'], f :: fs⟩) (fun d hd => step_neg hd) hc
  · rw [formatInt, if_neg (Int.not_lt.mpr hpos)]
    refine ⟨?_, hline _, fun f fs c ys _ _ hc => ?_⟩
    · obtain ⟨d, ds, hd⟩ := List.exists_cons_of_ne_nil (utf8_repr_ne_nil n.natAbs)
      have hdigit := isDigit_repr' n.natAbs d (hd ▸ List.mem_cons_self)
      exact ⟨d, ds, hd, isSpace_of_isDigit hdigit, ne_of_isDigit hdigit (by decide)⟩
    · exact @run_repr fs f ys [] c _ ⟨.beginValue, f :: fs⟩ (fun d hd => step_beginValue hd) hc

end Scalars

/-! ## Arrays and objects -/

section Nesting

variable {fs : List Frame} {f : Frame} {ys text : List UInt8} {c : UInt8} {depth : Nat} {v : Value}

/-- What is left to scan when a nested value has been closed. -/
def afterClose (v : Value) (fs : List Frame) (ys : List UInt8) : Scanned :=
  if fs = [] then .value v ys else Scanner.run ⟨.endValue v, fs⟩ ys

theorem run_next {s s' : Scanner} (h : s.step c = .next s') : s.run (c :: ys) = s'.run ys := by rw [Scanner.run, h]

theorem run_close {s : Scanner} (h : s.step c = pop v fs) : s.run (c :: ys) = afterClose v fs ys := by
  rw [Scanner.run, h]
  cases fs <;> rfl

theorem afterClose_cons (v : Value) (f : Frame) (fs : List Frame) (ys : List UInt8) :
    afterClose v (f :: fs) ys = Scanner.run ⟨.endValue v, f :: fs⟩ ys := if_neg (List.cons_ne_nil f fs)

/-- What comes behind a value: a comma and the next one, or the bracket. -/
theorem exists_delimiter {close : UInt8} (hc : isDelimiter close = true) (texts : List (List UInt8)) (ys : List UInt8) :
    ∃ c zs, isDelimiter c = true ∧ (texts.flatMap fun text => ascii ',' :: text) ++ close :: ys = c :: zs := by
  cases texts with
  | nil => exact ⟨_, _, hc, rfl⟩
  | cons text texts => exact ⟨_, _, by decide, rfl⟩

theorem not_mem_separated {texts : List (List UInt8)} (h : ∀ text ∈ texts, ascii '\n' ∉ text) :
    ascii '\n' ∉ separated texts := by
  cases texts with
  | nil => exact List.not_mem_nil
  | cons text texts =>
    obtain ⟨htext, htexts⟩ := List.forall_mem_cons.mp h
    rw [separated, List.mem_append, List.mem_flatMap, not_or]
    refine ⟨htext, fun ⟨t, ht, hmem⟩ => ?_⟩
    rcases List.mem_cons.mp hmem with h | hmem
    · revert h; decide
    · exact htexts t ht hmem

/-- The elements behind the first one, to the end of the array. -/
theorem run_elems {texts : List (List UInt8)} {vs done : List Value} (h : List.Forall₂ (Encodes depth) texts vs)
    (hd : fs.length + 1 + depth ≤ maxNestingDepth) :
    Scanner.run ⟨.endValue v, .arrayValue done :: fs⟩ ((texts.flatMap fun text => ascii ',' :: text) ++ ascii ']' :: ys) =
      afterClose (.array (done ++ v :: vs)) fs ys := by
  induction h generalizing done v with
  | nil => exact run_close rfl
  | @cons text w texts vs hw _ ih =>
    have hcomma : ∀ zs, Scanner.run ⟨.endValue v, .arrayValue done :: fs⟩ (ascii ',' :: zs) =
        Scanner.run ⟨.beginValue, .arrayValue (done ++ [v]) :: fs⟩ zs := fun _ => rfl
    obtain ⟨c, zs, hc, heq⟩ := @exists_delimiter (ascii ']') (by decide) texts ys
    rw [List.flatMap_cons, List.cons_append, List.cons_append, List.append_assoc, hcomma, heq,
      hw.run _ _ _ _ rfl hd hc, ← heq, ih, List.append_assoc, List.singleton_append]

/-- **A slice** of values. -/
theorem encodes_array {texts : List (List UInt8)} {vs : List Value} (h : List.Forall₂ (Encodes depth) texts vs) :
    Encodes (depth + 1) (encodeArray texts) (.array vs) where
  start := ⟨_, _, rfl, by decide, by decide⟩
  line := by
    have htexts : ∀ text ∈ texts, ascii '\n' ∉ text := by
      induction h with
      | nil => exact fun _ h => absurd h List.not_mem_nil
      | cons hw _ ih => exact List.forall_mem_cons.mpr ⟨hw.line, ih⟩
    rw [encodeArray, List.cons_append, List.mem_cons, List.mem_append, not_or, not_or]
    exact ⟨by decide, not_mem_separated htexts, by decide⟩
  run f fs c ys _ hd _ := by
    have hopen : Scanner.step ⟨.beginValue, f :: fs⟩ (ascii '[') = .next ⟨.beginValueOrEmpty, .arrayValue [] :: f :: fs⟩ :=
      if_pos (by simp only [List.length_cons] at hd ⊢; omega)
    rw [encodeArray, List.cons_append, List.cons_append, run_next hopen, ← afterClose_cons]
    cases h with
    | nil => exact run_close rfl
    | @cons text w texts vs hw htexts =>
      obtain ⟨b, bs, hb, hspace, hne⟩ := hw.start
      obtain ⟨c', zs, hc', heq⟩ := @exists_delimiter (ascii ']') (by decide) texts (c :: ys)
      have hstep : ∀ cs, Scanner.run ⟨.beginValueOrEmpty, .arrayValue [] :: f :: fs⟩ (text ++ cs) =
          Scanner.run ⟨.beginValue, .arrayValue [] :: f :: fs⟩ (text ++ cs) := by
        intro cs
        have hempty : Scanner.step ⟨.beginValueOrEmpty, .arrayValue [] :: f :: fs⟩ b =
            Scanner.step ⟨.beginValue, .arrayValue [] :: f :: fs⟩ b := by
          show (if isSpace b then _ else if b = ascii ']' then _ else _) = _
          rw [hspace, if_neg Bool.false_ne_true, if_neg hne]
          rfl
        rw [hb, List.cons_append, Scanner.run, Scanner.run, hempty]
      rw [separated, List.append_assoc, List.append_assoc, List.singleton_append, hstep, heq,
        hw.run _ _ _ _ rfl (by simp only [List.length_cons] at hd ⊢; omega) hc', ← heq]
      exact run_elems htexts (by simp only [List.length_cons] at hd ⊢; omega)

/-- A field and its text. -/
def EncodesMember (depth : Nat) (m : String × List UInt8) (m' : String × Value) : Prop :=
  m.1 = m'.1 ∧ Encodes depth m.2 m'.2

theorem run_memberText {m : String × List UInt8} {m' : String × Value} {done : List (String × Value)} {pc : Pc}
    (hpc : pc = .beginString ∨ pc = .beginStringOrEmpty) (h : EncodesMember depth m m')
    (hd : fs.length + 1 + depth ≤ maxNestingDepth) (hc : isDelimiter c = true) :
    Scanner.run ⟨pc, .objectKey done :: fs⟩ (memberText m ++ c :: ys) =
      Scanner.run ⟨.endValue m'.2, .objectValue done m'.1 :: fs⟩ (c :: ys) := by
  have hcolon : ∀ zs, Scanner.run ⟨.endKey m'.1, .objectKey done :: fs⟩ (ascii ':' :: zs) =
      Scanner.run ⟨.beginValue, .objectValue done m'.1 :: fs⟩ zs := fun _ => rfl
  rw [memberText, List.append_assoc, run_quoteKey hpc, decodeUtf8_utf8, h.1, List.cons_append, hcolon]
  exact h.2.run _ _ _ _ rfl hd hc

/-- The fields behind the first one, to the end of the object. -/
theorem run_fields {ms : List (String × List UInt8)} {ms' done : List (String × Value)} {key : String}
    (h : List.Forall₂ (EncodesMember depth) ms ms') (hd : fs.length + 1 + depth ≤ maxNestingDepth) :
    Scanner.run ⟨.endValue v, .objectValue done key :: fs⟩
        (((ms.map memberText).flatMap fun text => ascii ',' :: text) ++ ascii '}' :: ys) =
      afterClose (.object (done ++ (key, v) :: ms')) fs ys := by
  induction h generalizing done key v with
  | nil => exact run_close rfl
  | @cons m m' ms ms' hm _ ih =>
    have hcomma : ∀ zs, Scanner.run ⟨.endValue v, .objectValue done key :: fs⟩ (ascii ',' :: zs) =
        Scanner.run ⟨.beginString, .objectKey (done ++ [(key, v)]) :: fs⟩ zs := fun _ => rfl
    obtain ⟨c, zs, hc, heq⟩ := @exists_delimiter (ascii '}') (by decide) (ms.map memberText) ys
    rw [List.map_cons, List.flatMap_cons, List.cons_append, List.cons_append, List.append_assoc, hcomma, heq,
      run_memberText (.inl rfl) hm hd hc, ← heq, ih, List.append_assoc, List.singleton_append]

/-- The fields of an object, behind its brace. -/
theorem run_struct {ms : List (String × List UInt8)} {ms' : List (String × Value)}
    (h : List.Forall₂ (EncodesMember depth) ms ms') (hd : fs.length + 1 + depth ≤ maxNestingDepth) :
    Scanner.run ⟨.beginStringOrEmpty, .objectKey [] :: fs⟩ (separated (ms.map memberText) ++ ascii '}' :: ys) =
      afterClose (.object ms') fs ys := by
  cases h with
  | nil => exact run_close rfl
  | @cons m m' ms ms' hm hms =>
    obtain ⟨c, zs, hc, heq⟩ := @exists_delimiter (ascii '}') (by decide) (ms.map memberText) ys
    rw [List.map_cons, separated, List.append_assoc, heq, run_memberText (.inr rfl) hm hd hc, ← heq]
    exact run_fields hms hd

/-- **A struct**, with the fields that are not omitted. -/
theorem encodes_object {ms : List (String × List UInt8)} {ms' : List (String × Value)}
    (h : List.Forall₂ (EncodesMember depth) ms ms') : Encodes (depth + 1) (encodeStruct ms) (.object ms') where
  start := ⟨_, _, rfl, by decide, by decide⟩
  line := by
    have hms : ∀ text ∈ ms.map memberText, ascii '\n' ∉ text := by
      induction h with
      | nil => exact fun _ h => absurd h List.not_mem_nil
      | @cons m m' _ _ hm _ ih =>
        refine List.forall_mem_cons.mpr ⟨?_, ih⟩
        rw [memberText, List.mem_append, List.mem_cons, not_or, not_or]
        exact ⟨(encodes_quote _).line, by decide, hm.2.line⟩
    rw [encodeStruct, List.cons_append, List.mem_cons, List.mem_append, not_or, not_or]
    exact ⟨by decide, not_mem_separated hms, by decide⟩
  run f fs c ys _ hd _ := by
    have hopen : Scanner.step ⟨.beginValue, f :: fs⟩ (ascii '{') = .next ⟨.beginStringOrEmpty, .objectKey [] :: f :: fs⟩ :=
      if_pos (by simp only [List.length_cons] at hd ⊢; omega)
    rw [encodeStruct, List.cons_append, List.cons_append, run_next hopen, List.append_assoc, ← afterClose_cons]
    exact run_struct h (by simp only [List.length_cons] at hd ⊢; omega)

/-- **A struct on a line**: it is read as it was written, and the line ends where it should. -/
theorem unmarshal_line {ms : List (String × List UInt8)} {ms' : List (String × Value)}
    (h : List.Forall₂ (EncodesMember depth) ms ms') (hd : 1 + depth ≤ maxNestingDepth) :
    unmarshal (encodeStruct ms ++ [ascii '\n']) = .ok (.object ms') := by
  have hopen : Scanner.step .initial (ascii '{') = .next ⟨.beginStringOrEmpty, [.objectKey []]⟩ := rfl
  have hrun : Scanner.initial.run (encodeStruct ms ++ [ascii '\n']) = .value (.object ms') [ascii '\n'] := by
    rw [encodeStruct, List.cons_append, List.cons_append, run_next hopen, List.append_assoc]
    exact run_struct h (by simpa using hd)
  rw [unmarshal, hrun]
  rfl

end Nesting

/-! ## Data -/

/-- A value that is written, with what it is read as. -/
structure Datum (depth : Nat) where
  text : List UInt8
  value : Value
  encodes : Encodes depth text value

section Data

variable {depth : Nat}

def Datum.bool (b : Bool) : Datum depth := ⟨encodeBool b, .bool b, (encodes_bool b).deeper (Nat.zero_le _)⟩

def Datum.int (n : Int) : Datum depth :=
  ⟨formatInt n, .number (formatInt n), (encodes_int n).deeper (Nat.zero_le _)⟩

def Datum.string (s : String) : Datum depth where
  text := quote (utf8 s)
  value := .string s
  encodes := by
    have h := encodes_quote (utf8 s)
    rw [decodeUtf8_utf8] at h
    exact h.deeper (Nat.zero_le _)

def Datum.array (elems : List (Datum depth)) : Datum (depth + 1) where
  text := encodeArray (elems.map Datum.text)
  value := .array (elems.map Datum.value)
  encodes := encodes_array (by
    rw [List.forall₂_map_left_iff, List.forall₂_map_right_iff, List.forall₂_same]
    exact fun d _ => d.encodes)

theorem encodes_members (members : List (String × Datum depth)) : List.Forall₂ (EncodesMember depth)
    (members.map fun m => (m.1, m.2.text)) (members.map fun m => (m.1, m.2.value)) := by
  rw [List.forall₂_map_left_iff, List.forall₂_map_right_iff, List.forall₂_same]
  exact fun m _ => ⟨rfl, m.2.encodes⟩

/-- A struct, of the fields that are not omitted. -/
def Datum.struct (members : List (String × Datum depth)) : Datum (depth + 1) :=
  ⟨encodeStruct (members.map fun m => (m.1, m.2.text)), .object (members.map fun m => (m.1, m.2.value)),
    encodes_object (encodes_members members)⟩

/-- `omitempty`. -/
def omitEmpty (empty : Bool) (name : String) (d : Datum depth) : List (String × Datum depth) :=
  if empty then [] else [(name, d)]

theorem unmarshal_struct (members : List (String × Datum depth)) (hd : 1 + depth ≤ maxNestingDepth) :
    unmarshal ((Datum.struct members).text ++ [ascii '\n']) = .ok (Datum.struct members).value :=
  unmarshal_line (encodes_members members) hd

end Data

end Talk2Text.Json
