import Talk2Text.Client.Request
import Talk2Text.Server.Response

/-!
# A command of the client

`client.Run`, `client.sendIPCRequest` and `client.printStatus`, and the connection between the client and a daemon that
serves it with `server.handleConn`.

- `readResponse_encodeResponse`: the client reads the response that the server writes;
- `run_served`: a command whose request is within the limit ends as the handler has decided, and a longer one is
  neither served nor answered.
-/

namespace Talk2Text.Client

open Format Json
open Server (Response StatusData ConfigData)

/-- What happens on the way to the daemon, and what arrives from there. -/
structure Link where
  dial : Option String := none
  write : Option String := none
  setReadDeadline : Option String := none
  /-- What arrives once these bytes have been sent. -/
  reply : List UInt8 → Reader

/-- The errors of `Run`. -/
inductive RunError
  /-- The error of `buildRequest`. -/
  | request (text : List UInt8)
  | daemonUnavailable (err : String)
  | send (err : String)
  | setReadDeadline (err : String)
  | read (err : Ending)
  | parse (err : Error)
  /-- The error of the response. -/
  | refused (err : String)
  | failed
  | missingData
  deriving DecidableEq, Repr

/-- The texts of the errors; `endingText` and `jsonText` give those of the connection and of `encoding/json`. -/
def RunError.text (endingText : Ending → String) (jsonText : Error → String) : RunError → List UInt8
  | .request text => text
  | .daemonUnavailable err => utf8 ("daemon unavailable: " ++ err)
  | .send err => utf8 ("failed to send command: " ++ err)
  | .setReadDeadline err => utf8 ("failed to set read deadline: " ++ err)
  | .read err => utf8 ("failed to read response: " ++ endingText err)
  | .parse err => utf8 ("failed to parse response: " ++ jsonText err)
  | .refused err => utf8 err
  | .failed => utf8 "command failed"
  | .missingData => utf8 "status response missing data"

/-- `bufio.Reader.ReadBytes`. -/
def readBytes (delim : UInt8) (r : Reader) : Except Ending (List UInt8) :=
  if r.data.contains delim then .ok (r.data.takeWhile (fun c => c ≠ delim) ++ [delim]) else .error r.ending

/-- `sendIPCRequest`, behind the request. -/
def readResponse (r : Reader) : Except RunError (Response StatusData) :=
  match readBytes (ascii '\n') r with
  | .error err => .error (.read err)
  | .ok line =>
    match Server.unmarshalResponse line with
    | .error err => .error (.parse err)
    | .ok resp => .ok resp

def sendIPCRequest (link : Link) (request : Request) : Except RunError (Response StatusData) :=
  match link.dial with
  | some err => .error (.daemonUnavailable err)
  | none =>
    match link.write with
    | some err => .error (.send err)
    | none =>
      match link.setReadDeadline with
      | some err => .error (.setReadDeadline err)
      | none => readResponse (link.reply (sendRequest request))

/-- The lines of `printStatus` for the configuration; `durationString` is `Duration.String`. -/
def printConfig (durationString : Int64 → String) (cfg : ConfigData) : String :=
  let allowClientEnv := String.intercalate "," cfg.allowClientEnv
  s!"runtime_dir: {cfg.runtimeDir}\n" ++
  s!"whisper_endpoint: {cfg.whisperEndpoint}\n" ++
  s!"out_cmd: {cfg.outCmd}\n" ++
  s!"notify_cmd: {cfg.notifyCmd}\n" ++
  s!"http_listen: {cfg.httpListen}\n" ++
  s!"allow_client_env: {allowClientEnv}\n" ++
  s!"min_duration: {durationString cfg.minDuration}\n" ++
  s!"max_duration: {durationString cfg.maxDuration}\n" ++
  s!"stop_delay: {durationString cfg.stopDelay}\n" ++
  s!"warm_retention: {durationString cfg.warmRetention}\n" ++
  s!"transcript_retention_window: {cfg.transcriptRetentionWindow.toInt}\n" ++
  s!"record_input_device: {cfg.recordInputDevice}\n" ++
  s!"whisper_connect_timeout: {durationString cfg.whisperConnectTimeout}\n" ++
  s!"whisper_request_timeout: {durationString cfg.whisperRequestTimeout}\n"

/-- What `printStatus` writes. -/
def printStatus (durationString : Int64 → String) (resp : StatusData) : String :=
  s!"state: {resp.state}\n" ++
  s!"next_clip_id: {resp.nextClipID.toInt}\n" ++
  (if resp.activeClip ≠ 0 then s!"active_clip_id: {resp.activeClip.toInt}\n" else "") ++
  s!"pending_transcriptions: {resp.pending.toInt}\n" ++
  resp.config.elim "" (printConfig durationString)

/-- `Run`, behind the response: its error, or what it has printed. -/
def finish (durationString : Int64 → String) (command : String) (resp : Response StatusData) :
    Except RunError String :=
  if !resp.ok then
    if resp.error ≠ "" then .error (.refused resp.error) else .error .failed
  else if command = "status" then
    match resp.data with
    | none => .error .missingData
    | some status => .ok (printStatus durationString status)
  else .ok ""

/-- `Run`. -/
def run (durationString : Int64 → String) (lookupEnv : List UInt8 → Option (List UInt8)) (link : Link)
    (command : String) (sendEnv : List (List UInt8)) : Except RunError String :=
  match buildRequest lookupEnv command sendEnv with
  | .error text => .error (.request text)
  | .ok request =>
    match sendIPCRequest link request with
    | .error err => .error err
    | .ok resp => finish durationString command resp

/-! ## A daemon at the other end -/

/-- The bytes that the server writes. -/
def written (events : List (Server.ConnEvent (Option StatusData))) : List UInt8 :=
  events.flatMap fun
    | .respond r => Server.encodeResponse r
    | _ => []

section Served

variable (durationString : Int64 → String) (jsonText : Error → String)
  (handler : Server.Request → Except String (Option StatusData)) (ending : Ending)

/-- What the server does about the request; the client keeps the connection open. -/
def served (sent : List UInt8) : List (Server.ConnEvent (Option StatusData)) :=
  Server.handleConn jsonText handler { reader := ⟨sent, .timeout⟩ }

/-- A link that works, to a server that answers in time; `ending` is what the client reads when the server has closed
the connection. -/
def serving : Link where
  reply sent := ⟨written (served jsonText handler sent), ending⟩

/-- How a command ends when the handler returns this. -/
def outcome (command : String) : Except String (Option StatusData) → Except RunError String
  | .error "" => .error .failed
  | .error err => .error (.refused err)
  | .ok data =>
    if command = "status" then data.elim (.error .missingData) fun status => .ok (printStatus durationString status)
    else .ok ""

variable {durationString jsonText handler ending} {link : Link} {request : Request} {command : String}
  {r : Response (Option StatusData)}

/-- The line of a response is read to its end. -/
theorem readBytes_encodeResponse (r : Response (Option StatusData)) (ending : Ending) :
    readBytes (ascii '\n') ⟨Server.encodeResponse r, ending⟩ = .ok (Server.encodeResponse r) := by
  have hline := Server.line_encodeResponse r
  have hmem : (Server.encodeResponse r).contains (ascii '\n') = true :=
    List.contains_iff_mem.mpr (List.mem_append_right _ List.mem_cons_self)
  have hne : ∀ c ∈ (Datum.struct r.members).text, decide (c ≠ ascii '\n') = true := by
    intro c hc
    rw [decide_eq_true_eq]
    rintro rfl
    exact hline hc
  have htake : (Server.encodeResponse r).takeWhile (fun c => c ≠ ascii '\n') = (Datum.struct r.members).text := by
    rw [Server.encodeResponse, List.takeWhile_append_of_pos hne]
    exact List.append_nil _
  rw [readBytes, if_pos hmem, htake, Server.encodeResponse]

theorem readResponse_encodeResponse (r : Response (Option StatusData)) (ending : Ending) :
    readResponse ⟨Server.encodeResponse r, ending⟩ = .ok r.received := by
  rw [readResponse, readBytes_encodeResponse]
  simp only [Server.unmarshal_encodeResponse]

/-- **The end of a command** is what the handler has returned. -/
theorem finish_answer (result : Except String (Option StatusData)) :
    finish durationString command (Server.answer result).received = outcome durationString command result := by
  cases result with
  | error err =>
    by_cases he : err = ""
    · rw [he]
      rfl
    · have hrefused : outcome durationString command (.error err) = .error (.refused err) := by
        rw [outcome]
        exact he
      rw [hrefused]
      exact if_pos he
  | ok data =>
    cases data with
    | none => rfl
    | some status => rfl

/-- What the client ends with when this has been written. -/
theorem run_written {lookupEnv : List UInt8 → Option (List UInt8)} {sendEnv : List (List UInt8)}
    (h : buildRequest lookupEnv command sendEnv = .ok request)
    {bs : List UInt8} (hw : written (served jsonText handler (sendRequest request)) = bs) :
    run durationString lookupEnv (serving jsonText handler ending) command sendEnv =
      readResponse ⟨bs, ending⟩ >>= finish durationString command := by
  have hsend : sendIPCRequest (serving jsonText handler ending) request = readResponse ⟨bs, ending⟩ := hw ▸ rfl
  rw [run, h]
  show (match sendIPCRequest (serving jsonText handler ending) request with
    | .error err => Except.error err
    | .ok resp => finish durationString command resp) = _
  rw [hsend]
  cases readResponse ⟨bs, ending⟩ <;> rfl

/-- **A request within the limit** is served. -/
theorem served_of_le (hc : request.command ≠ "") (hle : (encodeRequest request).length ≤ Server.maxRequestBytes) :
    ∃ env : Option Environment, env.getD [] = readEnv (request.env.getD []) ∧
      served jsonText handler (sendRequest request) =
        [.request ⟨request.command, env⟩, .respond (Server.answer (handler ⟨request.command, env⟩))] := by
  obtain ⟨env, hcheck, henv⟩ := checkRequest_decodedRequest hc
  have hread := (readRequest_sendRequest request .timeout).1 hle
  rw [hcheck] at hread
  exact ⟨env, henv, Server.handleConn_ok ⟨rfl, rfl, rfl, rfl⟩ hread⟩

/-- **A command within the limit** ends as the handler has decided. -/
theorem run_of_le {lookupEnv : List UInt8 → Option (List UInt8)} {sendEnv : List (List UInt8)}
    (h : buildRequest lookupEnv command sendEnv = .ok request) (hc : command ≠ "")
    (hle : (encodeRequest request).length ≤ Server.maxRequestBytes) :
    ∃ env : Option Environment, env.getD [] = readEnv (request.env.getD []) ∧
      served jsonText handler (sendRequest request) =
        [.request ⟨command, env⟩, .respond (Server.answer (handler ⟨command, env⟩))] ∧
      run durationString lookupEnv (serving jsonText handler ending) command sendEnv =
        outcome durationString command (handler ⟨command, env⟩) := by
  obtain ⟨rfl, -⟩ := of_buildRequest h
  obtain ⟨env, henv, hserved⟩ := @served_of_le jsonText handler request hc hle
  refine ⟨env, henv, hserved, ?_⟩
  have hw : written (served jsonText handler (sendRequest request)) =
      Server.encodeResponse (Server.answer (handler ⟨request.command, env⟩)) := by
    rw [hserved]
    exact List.append_nil _
  rw [run_written h hw, readResponse_encodeResponse]
  exact finish_answer _

end Served

end Talk2Text.Client
