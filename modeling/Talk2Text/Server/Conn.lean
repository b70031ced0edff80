import Talk2Text.Server.Request

/-!
# A connection

`server.handleConn`: one request is read and answered. An error of `readRequest` that comes from the end of the stream
is only logged, in the belief that the peer has gone or stalled. But the limit of the request ends the stream as well,
so a request that goes on behind the first `maxRequestBytes` bytes is not answered at all; nor is a scalar while the
byte behind it is still to come.

- `answered_iff_decided`: which connections get the answer they should get: those where the bytes up to the limit tell
  that the first value has ended or is malformed;
- `oversized_unanswered`: a request that is too long gets no answer.
-/

namespace Talk2Text.Server

open Json

/-- `response`. -/
structure Response (δ : Type) where
  ok : Bool := false
  error : String := ""
  data : Option δ := none
  deriving DecidableEq, Repr

/-- What the server does about a connection. -/
inductive ConnEvent (δ : Type)
  | log (message : String)
  /-- The handler is called. -/
  | request (r : Request)
  | respond (r : Response δ)
  deriving DecidableEq, Repr

/-- What a connection brings: the bytes that arrive, and the errors of the system calls. -/
structure Conn where
  reader : Reader
  setReadDeadline : Option String := none
  /-- The context is done by the time a request has not been read. -/
  done : Bool := false
  setWriteDeadline : Option String := none
  write : Option String := none
  deriving DecidableEq, Repr

/-- The error is `io.EOF`, `io.ErrUnexpectedEOF` or a timeout. -/
def RequestError.endsEarly : RequestError → Bool
  | .invalid .eof | .invalid .unexpectedEOF | .invalid .timeout => true
  | _ => false

section Handle

variable {δ : Type}

def writeResponse (conn : Conn) (r : Response δ) : ConnEvent δ :=
  match conn.setWriteDeadline with
  | some err => .log ("failed to set response write deadline: " ++ err)
  | none =>
    match conn.write with
    | some err => .log ("failed to write response: " ++ err)
    | none => .respond r

/-- The response to a request. -/
def answer : Except String δ → Response δ
  | .ok data => { ok := true, data := some data }
  | .error err => { error := err }

/-- `handleConn`; `handler` is what the handler returns, `jsonText` gives the texts of errors. -/
def handleConn (jsonText : Error → String) (handler : Request → Except String δ) (conn : Conn) : List (ConnEvent δ) :=
  match conn.setReadDeadline with
  | some err => [.log ("failed to set request read deadline: " ++ err)]
  | none =>
    match readRequest conn.reader with
    | .error err =>
      if conn.done then []
      else if err.endsEarly then [.log ("failed to read request: " ++ err.text jsonText)]
      else [writeResponse conn { error := err.text jsonText }]
    | .ok r => [.request r, writeResponse conn (answer (handler r))]

end Handle

/-! ## What should happen -/

/-- The daemon is running, and the socket works. -/
structure Conn.Healthy (conn : Conn) : Prop where
  setReadDeadline : conn.setReadDeadline = none
  running : conn.done = false
  setWriteDeadline : conn.setWriteDeadline = none
  write : conn.write = none

/-- The first value of all that is sent, and its size; at the end of the bytes a scalar ends. -/
def firstValue (data : List UInt8) : Option (Value × Nat) :=
  let leading := (data.takeWhile isSpace).length
  match Scanner.initial.run data with
  | .value v rest => some (v, data.length - rest.length - leading)
  | .failed _ _ => none
  | .more s => s.finish.map fun v => (v, data.length - leading)

/-- A byte makes the first value malformed. -/
def Malformed (data : List UInt8) : Prop := ∃ c context, Scanner.initial.run data = .failed c context

/-- The peer does not stall or close before the first value is complete, or malformed, or the limit is passed. -/
def InTime (data : List UInt8) : Prop :=
  (firstValue data).isSome = true ∨ Malformed data ∨ maxRequestBytes < data.length

/-- The first value is not a request within the limit. -/
def Unacceptable (data : List UInt8) : Prop :=
  match firstValue data with
  | some (v, size) => maxRequestBytes < size ∨ ∃ err, checkRequest v = .error err
  | none => Malformed data ∨ maxRequestBytes < data.length

/-- A request is served, and anything else is refused with the error of `readRequest`. -/
structure Answered {δ : Type} (jsonText : Error → String) (handler : Request → Except String δ) (conn : Conn) :
    Prop where
  served : ∀ v size r, firstValue conn.reader.data = some (v, size) → size ≤ maxRequestBytes →
    checkRequest v = .ok r → handleConn jsonText handler conn = [.request r, .respond (answer (handler r))]
  refused : Unacceptable conn.reader.data → ∃ err, readRequest conn.reader = .error err ∧
    handleConn jsonText handler conn = [.respond { error := err.text jsonText }]

/-- The bytes up to the limit tell that the first value has ended or is malformed; or the stream ends behind a scalar,
at the limit or before; or reading fails. -/
def Decided (r : Reader) : Prop :=
  match Scanner.initial.run (r.data.take maxRequestBytes) with
  | .value _ _ | .failed _ _ => True
  | .more s =>
    match (limitReader r maxRequestBytes).ending with
    | .eof => s.finish.isSome = true
    | .timeout => False
    | .failed _ => True

/-! ## Which connections are answered -/

section Answered

variable {δ : Type} {jsonText : Error → String} {handler : Request → Except String δ} {conn : Conn}
  {data rest : List UInt8} {n : Nat} {v : Value} {r : Request} {err : RequestError}

theorem handleConn_ok (hc : conn.Healthy) (h : readRequest conn.reader = .ok r) :
    handleConn jsonText handler conn = [.request r, .respond (answer (handler r))] := by
  simp only [handleConn, hc.setReadDeadline, h, writeResponse, hc.setWriteDeadline, hc.write]

theorem handleConn_error (hc : conn.Healthy) (h : readRequest conn.reader = .error err) :
    handleConn jsonText handler conn =
      if err.endsEarly then [.log ("failed to read request: " ++ err.text jsonText)]
      else [.respond { error := err.text jsonText }] := by
  simp only [handleConn, hc.setReadDeadline, h, hc.running, writeResponse, hc.setWriteDeadline, hc.write,
    Bool.false_eq_true, if_false]

theorem endsEarly_stringError {e : Error} (h : stringError v = some e) :
    (RequestError.invalid e).endsEarly = false := by
  cases v <;> cases h <;> rfl

theorem endsEarly_storeField {name : String} {e : Error} (h : (storeField r name v).2 = some e) :
    (RequestError.invalid e).endsEarly = false := by
  unfold storeField at h
  cases hf : fieldOf name with
  | none =>
    rw [hf] at h
    cases h
    rfl
  | some f =>
    rw [hf] at h
    cases f with
    | command =>
      cases v with
      | string => cases h
      | null | bool | number | array | object =>
        dsimp only at h
        exact endsEarly_stringError h
    | env =>
      cases v with
      | null => cases h
      | object members =>
        obtain ⟨m, -, hm⟩ := List.exists_of_findSome?_eq_some h
        exact endsEarly_stringError hm
      | bool | number | string | array =>
        cases h
        rfl

theorem endsEarly_storeFields {members : List (String × Value)} {saved : Option Error} {e : Error}
    (hs : ∀ e, saved = some e → (RequestError.invalid e).endsEarly = false)
    (h : (storeFields r saved members).2 = some e) : (RequestError.invalid e).endsEarly = false := by
  induction members generalizing r saved with
  | nil => exact hs e h
  | cons m members ih =>
    obtain ⟨name, v⟩ := m
    refine ih ?_ h
    intro e' he'
    cases saved with
    | some _ =>
      rw [Option.some_or] at he'
      exact hs e' he'
    | none =>
      rw [Option.none_or] at he'
      exact endsEarly_storeField he'

/-- A request that cannot be decoded does not look like an early end. -/
theorem endsEarly_checkRequest (h : checkRequest v = .error err) : err.endsEarly = false := by
  unfold checkRequest at h
  split at h
  · rename_i e hu
    cases h
    cases v with
    | null => cases hu
    | object members =>
      simp only [unmarshalRequest] at hu
      split at hu
      · cases hu
      · rename_i hs
        cases hu
        refine endsEarly_storeFields ?_ (congrArg Prod.snd hs)
        intro e he
        cases he
    | bool | number | string | array =>
      cases hu
      rfl
  · split at h
    · cases h
      rfl
    · cases h

/-- The bytes up to the limit show the first value. -/
theorem firstValue_of_take (h : Scanner.initial.run (data.take n) = .value v rest) :
    ∃ size ≤ n, firstValue data = some (v, size) := by
  have hrun := run_append Scanner.initial (data.take n) (data.drop n)
  rw [List.take_append_drop, h] at hrun
  have hlen := congrArg List.length (List.take_append_drop n data)
  rw [List.length_append] at hlen
  have htake := List.length_take_le n data
  refine ⟨_, ?_, by simp only [firstValue, hrun]; rfl⟩
  rw [List.length_append]
  omega

theorem malformed_of_take {c : UInt8} {context : String}
    (h : Scanner.initial.run (data.take n) = .failed c context) : Malformed data := by
  have hrun := run_append Scanner.initial (data.take n) (data.drop n)
  rw [List.take_append_drop, h] at hrun
  exact ⟨c, context, hrun⟩

/-- Behind a scalar at the limit nothing but a scalar can be read. -/
theorem isScalar_of_take {s : Scanner} {w : Value} {size : Nat} (h : Scanner.initial.run (data.take n) = .more s)
    (hf : s.finish = some v) (hw : firstValue data = some (w, size)) : w.isScalar = true := by
  have hok : s.Ok := ok_run (s := .initial) trivial h
  have hat := (ended_step hok (ended_of_finish hf)).1
  have hrun : Scanner.initial.run (data.take n ++ data.drop n) = s.run (data.drop n) := run_append_more h
  rw [List.take_append_drop] at hrun
  rw [firstValue, hrun] at hw
  cases hr : s.run (data.drop n) with
  | value w' rest =>
    rw [hr] at hw
    cases hw
    exact isScalar_of_run hat hr
  | failed c context =>
    rw [hr] at hw
    cases hw
  | more t =>
    rw [hr] at hw
    obtain ⟨w', hw', heq⟩ := Option.map_eq_some_iff.mp hw
    cases heq
    have hok' : t.Ok := ok_run hok hr
    exact isScalar_of_finish hok' hw'

/-- **A decided connection** is answered. -/
theorem answered_of_decided (hc : conn.Healthy) (hd : Decided conn.reader) : Answered jsonText handler conn := by
  have hrefuse : ∀ {err}, readRequest conn.reader = .error err → err.endsEarly = false →
      ∃ err, readRequest conn.reader = .error err ∧
        handleConn jsonText handler conn = [.respond { error := err.text jsonText }] := by
    intro err hr he
    refine ⟨err, hr, ?_⟩
    rw [handleConn_error hc hr, he]
    rfl
  unfold Decided at hd
  cases hrun : Scanner.initial.run (conn.reader.data.take maxRequestBytes) with
  | value v rest =>
    have hread : readRequest conn.reader = checkRequest v := by
      simp only [readRequest, limitReader, Reader.readValue, hrun]
    obtain ⟨size, hle, hfirst⟩ := firstValue_of_take hrun
    constructor
    · intro v' size' r hv' _ hr
      rw [hfirst] at hv'
      cases hv'
      exact handleConn_ok hc (hread.trans hr)
    · intro hu
      rw [Unacceptable, hfirst] at hu
      obtain ⟨err, herr⟩ := hu.resolve_left (by omega)
      exact hrefuse (hread.trans herr) (endsEarly_checkRequest herr)
  | failed c context =>
    have hread : readRequest conn.reader = .error (.invalid (.syntaxError c context)) := by
      simp only [readRequest, limitReader, Reader.readValue, hrun]
    obtain ⟨c', context', hm⟩ := malformed_of_take hrun
    constructor
    · intro v size r hv _ _
      rw [firstValue, hm] at hv
      cases hv
    · intro _
      exact hrefuse hread rfl
  | more s =>
    rw [hrun] at hd
    dsimp only at hd
    cases hend : (limitReader conn.reader maxRequestBytes).ending with
    | timeout =>
      rw [hend] at hd
      exact hd.elim
    | eof =>
      rw [hend] at hd
      obtain ⟨v, hf⟩ := Option.isSome_iff_exists.mp hd
      have hread : readRequest conn.reader = checkRequest v := by
        simp only [readRequest, Reader.readValue, hend]
        simp only [limitReader, hrun, hf]
      obtain ⟨err, herr⟩ := checkRequest_scalar (isScalar_of_finish (ok_run (s := .initial) trivial hrun) hf)
      constructor
      · intro v' size r hv' _ hr
        obtain ⟨err, herr⟩ := checkRequest_scalar (isScalar_of_take hrun hf hv')
        rw [herr] at hr
        cases hr
      · intro _
        exact hrefuse (hread.trans herr) (endsEarly_checkRequest herr)
    | failed e =>
      have hread : readRequest conn.reader = .error (.invalid (.read e)) := by
        simp only [readRequest, Reader.readValue, hend]
        simp only [limitReader, hrun]
      constructor
      · intro v size r hv _ hr
        -- all bytes have been read
        have hall := take_of_ending (r := conn.reader) (n := maxRequestBytes) (by simp [hend])
        have hfirst := hv
        rw [firstValue, ← hall, hrun] at hfirst
        obtain ⟨w, hf, -⟩ := Option.map_eq_some_iff.mp hfirst
        obtain ⟨err, herr⟩ := checkRequest_scalar (isScalar_of_take hrun hf hv)
        rw [herr] at hr
        cases hr
      · intro _
        exact hrefuse hread rfl

/-- **A connection that is not decided** is only logged. -/
theorem handleConn_undecided (hc : conn.Healthy) (hd : ¬Decided conn.reader) :
    ∃ message, handleConn jsonText handler conn = [.log message] := by
  have hlog : ∀ {err}, readRequest conn.reader = .error err → err.endsEarly = true →
      ∃ message, handleConn jsonText handler conn = [.log message] := by
    intro err hr he
    rw [handleConn_error hc hr, he]
    exact ⟨_, rfl⟩
  unfold Decided at hd
  cases hrun : Scanner.initial.run (conn.reader.data.take maxRequestBytes) with
  | value | failed =>
    rw [hrun] at hd
    exact absurd trivial hd
  | more s =>
    rw [hrun] at hd
    dsimp only at hd
    cases hend : (limitReader conn.reader maxRequestBytes).ending with
    | failed e =>
      rw [hend] at hd
      exact absurd trivial hd
    | timeout =>
      have hread : readRequest conn.reader = .error (.invalid .timeout) := by
        simp only [readRequest, Reader.readValue, hend]
        simp only [limitReader, hrun]
      exact hlog hread rfl
    | eof =>
      rw [hend] at hd
      dsimp only at hd
      have hf : s.finish = none := by simpa using hd
      cases hs : (conn.reader.data.take maxRequestBytes).all isSpace with
      | true =>
        have hread : readRequest conn.reader = .error (.invalid .eof) := by
          simp only [readRequest, Reader.readValue, hend]
          simp only [limitReader, hrun, hf, hs, if_true]
        exact hlog hread rfl
      | false =>
        have hread : readRequest conn.reader = .error (.invalid .unexpectedEOF) := by
          simp only [readRequest, Reader.readValue, hend]
          simp only [limitReader, hrun, hf, hs, Bool.false_eq_true, if_false]
        exact hlog hread rfl

/-- Nothing that arrives in time deserves only a log entry. -/
theorem not_answered_of_undecided (hc : conn.Healthy) (ht : InTime conn.reader.data) (hd : ¬Decided conn.reader) :
    ¬Answered jsonText handler conn := by
  intro h
  obtain ⟨message, hlog⟩ : ∃ message, handleConn jsonText handler conn = [.log message] := handleConn_undecided hc hd
  have hacceptable : ¬Unacceptable conn.reader.data := by
    intro hu
    obtain ⟨err, -, he⟩ := h.refused hu
    rw [hlog] at he
    cases he
  cases hv : firstValue conn.reader.data with
  | none =>
    rw [Unacceptable, hv] at hacceptable
    rw [InTime, hv] at ht
    exact hacceptable (ht.resolve_left (by simp))
  | some p =>
    obtain ⟨v, size⟩ := p
    rw [Unacceptable, hv, not_or, Nat.not_lt] at hacceptable
    cases hr : checkRequest v with
    | error err => exact hacceptable.2 ⟨err, hr⟩
    | ok r =>
      have he := h.served v size r hv hacceptable.1 hr
      rw [hlog] at he
      cases he

end Answered

/-- **Which connections are answered**: when the daemon is running, the socket works, and the peer neither stalls nor
closes before its first value is complete or the limit is passed, the connection gets the answer it should get iff the
bytes up to the limit tell that the value has ended or is malformed, or the stream ends there behind a scalar. -/
theorem answered_iff_decided {δ : Type} {jsonText : Error → String} {handler : Request → Except String δ} {conn : Conn}
    (hc : conn.Healthy) (ht : InTime conn.reader.data) :
    Answered jsonText handler conn ↔ Decided conn.reader :=
  ⟨fun h => by_contra fun hd => not_answered_of_undecided hc ht hd h, answered_of_decided hc⟩

theorem answered_iff_decided_status : Answered (fun _ => "") (fun _ => .ok ())
    { reader := ⟨Format.utf8 "\x7b\"command\":\"status\"\x7d", .timeout⟩ } :=
  (answered_iff_decided ⟨rfl, rfl, rfl, rfl⟩ (Or.inl (by decide))).mpr trivial

/-- A request with a command of 16384 bytes, which is longer than the limit. -/
def oversized : Conn where
  reader := ⟨Format.utf8 "\x7b\"command\":\"" ++ (List.replicate 16384 (ascii 'a') ++ Format.utf8 "\"\x7d"), .eof⟩

/-- **A request that is too long** gets no answer. -/
theorem oversized_unanswered : oversized.Healthy ∧ InTime oversized.reader.data ∧
    ¬Answered (fun _ => "") (fun _ => Except.ok ()) oversized := by
  have hlen : (Format.utf8 "\x7b\"command\":\"").length = 12 := by decide
  have hc : oversized.Healthy := ⟨rfl, rfl, rfl, rfl⟩
  have ht : maxRequestBytes < oversized.reader.data.length := by
    simp only [oversized, List.length_append, List.length_replicate, hlen, maxRequestBytes]
    omega
  have hin : InTime oversized.reader.data := Or.inr (Or.inr ht)
  refine ⟨hc, hin, not_answered_of_undecided hc hin ?_⟩
  have htake : oversized.reader.data.take maxRequestBytes =
      Format.utf8 "\x7b\"command\":\"" ++ (List.replicate 16372 (ascii 'a') ++ []) := by
    rw [List.append_nil]
    simp only [oversized, maxRequestBytes]
    rw [List.take_append, hlen, List.take_of_length_le (by rw [hlen]; decide),
      List.take_append_of_le_length (by rw [List.length_replicate]; omega), List.take_replicate]
    rfl
  have hrun : Scanner.initial.run (oversized.reader.data.take maxRequestBytes) =
      .more ⟨.inString (List.replicate 16372 (ascii 'a')), [.objectValue [] "command"]⟩ := by
    have hprefix : Scanner.initial.run (Format.utf8 "\x7b\"command\":\"") =
        .more ⟨.inString [], [.objectValue [] "command"]⟩ := rfl
    rw [htake, run_append_more hprefix, run_plain, List.nil_append]
    · rfl
    · intro c hm
      rw [(List.mem_replicate.mp hm).2]
      decide
  rw [Decided, hrun, ending_limitReader (Nat.le_of_lt ht)]
  exact Bool.false_ne_true

end Talk2Text.Server
