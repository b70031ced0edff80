import Talk2Text.Json.Scanner

/-!
# Decoding a text or a stream

`unmarshal` decodes a text that is one value; `Reader.readValue` is the decoder of a stream, up to the value: it reads
no further than it must to see the end of the first value. A stream is its bytes and what comes behind them; how a
reader cuts it into pieces makes no difference (`run_append`).

- `unmarshal_inside`: the text of an object or array is read the same inside an object.
-/

namespace Talk2Text.Json

/-- `Unmarshal`, up to the value: the whole text is one value, with spaces around it. -/
def unmarshal (data : List UInt8) : Except Error Value :=
  match Scanner.initial.run data with
  | .value v rest =>
    match rest.find? fun c => !isSpace c with
    | none => .ok v
    | some c => .error (.syntaxError c "after top-level value")
  | .failed c context => .error (.syntaxError c context)
  | .more s =>
    match s.finish with
    | some v => .ok v
    | none => .error .unexpectedEnd

/-- What a reader returns behind the last byte. -/
inductive Ending
  | eof
  | timeout
  | failed (err : String)
  deriving DecidableEq, Repr

structure Reader where
  data : List UInt8
  ending : Ending
  deriving DecidableEq, Repr

/-- `io.LimitReader`. -/
def limitReader (r : Reader) (n : Nat) : Reader where
  data := r.data.take n
  ending := if n ≤ r.data.length then .eof else r.ending

/-- The limit ends the stream. -/
theorem ending_limitReader {r : Reader} {n : Nat} (h : n ≤ r.data.length) : (limitReader r n).ending = .eof :=
  if_pos h

/-- Where nothing ends the stream, all of it is within the limit. -/
theorem take_of_ending {r : Reader} {n : Nat} (h : (limitReader r n).ending ≠ .eof) : r.data.take n = r.data := by
  have hlt : ¬n ≤ r.data.length := fun hle => h (ending_limitReader hle)
  exact List.take_of_length_le (by omega)

/-- `Decoder.Decode` on a new decoder, up to the value. -/
def Reader.readValue (r : Reader) : Except Error Value :=
  match Scanner.initial.run r.data with
  | .value v _ => .ok v
  | .failed c context => .error (.syntaxError c context)
  | .more s =>
    match r.ending with
    | .eof =>
      match s.finish with
      | some v => .ok v
      | none => if r.data.all isSpace then .error .eof else .error .unexpectedEOF
    | .timeout => .error .timeout
    | .failed err => .error (.read err)

/-! ## A text inside an object -/

section Inside

variable {base : List Frame} {raw rest : List UInt8} {v : Value}

theorem run_spaces {f : Frame} {fs : List Frame} (h : raw.find? (fun c => !isSpace c) = none) :
    Scanner.run ⟨.endValue v, f :: fs⟩ (raw ++ rest) = Scanner.run ⟨.endValue v, f :: fs⟩ rest := by
  induction raw with
  | nil => rfl
  | cons c raw ih =>
    rw [List.find?_eq_none] at h
    have hc : isSpace c = true := by simpa using h c List.mem_cons_self
    have hraw : raw.find? (fun c => !isSpace c) = none :=
      List.find?_eq_none.mpr fun x hx => h x (List.mem_cons_of_mem _ hx)
    rw [List.cons_append, Scanner.run]
    simp only [Scanner.step, stateEndValue, hc, if_true]
    exact ih hraw

/-- **The text of an object or array** is read the same inside an object. -/
theorem unmarshal_inside (hb : InObject base) (hd : base.length + raw.length ≤ maxNestingDepth)
    (h : unmarshal raw = .ok v) (hv : v.isScalar = false) :
    Scanner.run ⟨.beginValue, base⟩ (raw ++ rest) = Scanner.run ⟨.endValue v, base⟩ rest := by
  have hdepth : Scanner.initial.parseState.length + base.length + raw.length ≤ maxNestingDepth := by
    simpa [Scanner.initial] using hd
  have hlift := run_lift hb (s := .initial) trivial hdepth
  have hinit : Scanner.initial.lift base = ⟨.beginValue, base⟩ := rfl
  rw [hinit] at hlift
  obtain ⟨members, key, fs, rfl⟩ := hb
  unfold unmarshal at h
  cases hr : Scanner.initial.run raw with
  | value w rest' =>
    rw [hr] at h hlift
    dsimp only at h hlift
    cases hf : rest'.find? fun c => !isSpace c with
    | some c =>
      rw [hf] at h
      cases h
    | none =>
      rw [hf] at h
      cases h
      rw [run_append, hlift]
      have hspaces : Scanner.run ⟨.endValue v, .objectValue members key :: fs⟩ (rest' ++ []) = _ := run_spaces hf
      rw [List.append_nil] at hspaces
      rw [hspaces]
      rfl
  | failed c context =>
    rw [hr] at h
    cases h
  | more s =>
    rw [hr] at h
    dsimp only at h
    cases hf : s.finish with
    | none =>
      rw [hf] at h
      cases h
    | some w =>
      rw [hf] at h
      cases h
      rw [isScalar_of_finish (ok_run (s := .initial) trivial hr) hf] at hv
      cases hv

end Inside

end Talk2Text.Json
