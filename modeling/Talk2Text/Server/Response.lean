import Talk2Text.Json.Struct
import Talk2Text.Server.Conn

/-!
# The text of a response

What `server.writeResponse` writes and how the client reads it: `response` with a `daemon.Status` and its
`config.Config`, as they are encoded and decoded by `encoding/json`. The integers are those of the source.

- `unmarshal_encodeResponse`: a response is read back as it was, except that an error with data of no status has none;
- `line_encodeResponse`: it is one line.
-/

namespace Talk2Text.Server

open Format Json

/-- `config.Config`; durations are in nanoseconds. -/
structure ConfigData where
  runtimeDir : String := ""
  whisperEndpoint : String := ""
  outCmd : String := ""
  notifyCmd : String := ""
  httpListen : String := ""
  allowClientEnv : List String := []
  minDuration : Int64 := 0
  maxDuration : Int64 := 0
  stopDelay : Int64 := 0
  warmRetention : Int64 := 0
  transcriptRetentionWindow : Int64 := 0
  recordInputDevice : String := ""
  whisperConnectTimeout : Int64 := 0
  whisperRequestTimeout : Int64 := 0
  deriving DecidableEq, Repr

/-- `daemon.Status`. -/
structure StatusData where
  state : String := ""
  nextClipID : Int64 := 0
  activeClip : Int64 := 0
  pending : Int32 := 0
  config : Option ConfigData := none
  deriving DecidableEq, Repr

/-! ## Encoding -/

def ConfigData.members (cfg : ConfigData) : List (String × Datum 1) :=
  ("runtime_dir", .string cfg.runtimeDir) :: ("whisper_endpoint", .string cfg.whisperEndpoint) ::
  (omitEmpty (cfg.outCmd = "") "out_cmd" (.string cfg.outCmd) ++
  (omitEmpty (cfg.notifyCmd = "") "notify_cmd" (.string cfg.notifyCmd) ++
  (omitEmpty (cfg.httpListen = "") "http_listen" (.string cfg.httpListen) ++
  (omitEmpty cfg.allowClientEnv.isEmpty "allow_client_env" (.array (cfg.allowClientEnv.map .string)) ++
  ("min_duration", .int cfg.minDuration.toInt) :: ("max_duration", .int cfg.maxDuration.toInt) ::
  ("stop_delay", .int cfg.stopDelay.toInt) :: ("warm_retention", .int cfg.warmRetention.toInt) ::
  ("transcript_retention_window", .int cfg.transcriptRetentionWindow.toInt) ::
  (omitEmpty (cfg.recordInputDevice = "") "record_input_device" (.string cfg.recordInputDevice) ++
  ("whisper_connect_timeout", .int cfg.whisperConnectTimeout.toInt) ::
  ("whisper_request_timeout", .int cfg.whisperRequestTimeout.toInt) :: [])))))

def StatusData.members (status : StatusData) : List (String × Datum 2) :=
  omitEmpty (status.state = "") "state" (.string status.state) ++
  (omitEmpty (status.nextClipID = 0) "next_clip_id" (.int status.nextClipID.toInt) ++
  (omitEmpty (status.activeClip = 0) "active_clip_id" (.int status.activeClip.toInt) ++
  (omitEmpty (status.pending = 0) "pending_transcriptions" (.int status.pending.toInt) ++
  (omitEmpty status.config.isNone "config" (.struct (status.config.getD {}).members) ++ []))))

/-- The fields of `response`; the data of a request other than `status` is nil. -/
def Response.members (r : Response (Option StatusData)) : List (String × Datum 3) :=
  ("ok", .bool r.ok) ::
  (omitEmpty (r.error = "") "error" (.string r.error) ++
  (omitEmpty r.data.join.isNone "data" (.struct (r.data.join.getD {}).members) ++ []))

/-- What `Encode` writes. -/
def encodeResponse (r : Response (Option StatusData)) : List UInt8 := (Datum.struct r.members).text ++ [ascii '\n']

/-! ## Decoding -/

def int64Field {ρ : Type} (name type : String) (set : ρ → Int64 → ρ) : Json.Field ρ :=
  intField name 64 type fun r n => set r (.ofInt n)

def int32Field {ρ : Type} (name type : String) (set : ρ → Int32 → ρ) : Json.Field ρ :=
  intField name 32 type fun r n => set r (.ofInt n)

def durationField (name : String) (set : ConfigData → Int64 → ConfigData) : Json.Field ConfigData :=
  int64Field name "time.Duration" set

def configFields : List (Json.Field ConfigData) :=
  [stringField "runtime_dir" fun cfg s => { cfg with runtimeDir := s },
    stringField "whisper_endpoint" fun cfg s => { cfg with whisperEndpoint := s },
    stringField "out_cmd" fun cfg s => { cfg with outCmd := s },
    stringField "notify_cmd" fun cfg s => { cfg with notifyCmd := s },
    stringField "http_listen" fun cfg s => { cfg with httpListen := s },
    stringsField "allow_client_env" ConfigData.allowClientEnv fun cfg ss => { cfg with allowClientEnv := ss },
    durationField "min_duration" fun cfg d => { cfg with minDuration := d },
    durationField "max_duration" fun cfg d => { cfg with maxDuration := d },
    durationField "stop_delay" fun cfg d => { cfg with stopDelay := d },
    durationField "warm_retention" fun cfg d => { cfg with warmRetention := d },
    int64Field "transcript_retention_window" "int" fun cfg n => { cfg with transcriptRetentionWindow := n },
    stringField "record_input_device" fun cfg s => { cfg with recordInputDevice := s },
    durationField "whisper_connect_timeout" fun cfg d => { cfg with whisperConnectTimeout := d },
    durationField "whisper_request_timeout" fun cfg d => { cfg with whisperRequestTimeout := d }]

def statusFields : List (Json.Field StatusData) :=
  [stringField "state" fun status s => { status with state := s },
    int64Field "next_clip_id" "int" fun status n => { status with nextClipID := n },
    int64Field "active_clip_id" "int" fun status n => { status with activeClip := n },
    int32Field "pending_transcriptions" "int32" fun status n => { status with pending := n },
    pointerField "config" "config.Config" configFields {} StatusData.config fun status cfg => { status with config := cfg }]

/-- `response` of the client. -/
def responseFields : List (Json.Field (Response StatusData)) :=
  [boolField "ok" fun r b => { r with ok := b },
    stringField "error" fun r s => { r with error := s },
    pointerField "data" "daemon.Status" statusFields {} Response.data fun r status => { r with data := status }]

/-- `json.Unmarshal` of the client. -/
def unmarshalResponse (line : List UInt8) : Except Error (Response StatusData) :=
  unmarshal line >>= unmarshalStruct responseFields {} "client.response"

/-! ## Round trip -/

section Store

variable {ρ : Type} {r : ρ} {name type : String}

theorem store_int64 {set : ρ → Int64 → ρ} (n : Int64) :
    (int64Field name type set).store r (.number (formatInt n.toInt)) = (set r n, none) := by
  rw [int64Field, store_int (by decide) n.le_toInt n.toInt_lt, Int64.ofInt_toInt]

theorem store_int32 {set : ρ → Int32 → ρ} (n : Int32) :
    (int32Field name type set).store r (.number (formatInt n.toInt)) = (set r n, none) := by
  rw [int32Field, store_int (by decide) n.le_toInt n.toInt_lt, Int32.ofInt_toInt]

theorem store_names {get : ρ → List String} {set : ρ → List String → ρ} (names : List String) :
    (stringsField name get set).store r (Datum.array (names.map (@Datum.string 0))).value = (set r names, none) := by
  have hvalues : (Datum.array (names.map (@Datum.string 0))).value = .array (names.map Value.string) :=
    congrArg Value.array (List.map_map ..)
  rw [hvalues, store_strings]

end Store

theorem storeMembers_config (cfg : ConfigData) :
    storeMembers configFields {} none (cfg.members.map fun m => (m.1, m.2.value)) = (cfg, none) := by
  refine (storeMembers_member rfl rfl).trans ?_
  refine (storeMembers_member rfl rfl).trans ?_
  dsimp only
  refine (storeMembers_omitted rfl (fun _ => rfl) fun h => by rw [of_decide_eq_true h]).trans ?_
  refine (storeMembers_omitted rfl (fun _ => rfl) fun h => by rw [of_decide_eq_true h]).trans ?_
  refine (storeMembers_omitted rfl (fun _ => rfl) fun h => by rw [of_decide_eq_true h]).trans ?_
  refine (storeMembers_omitted rfl (fun _ => store_names cfg.allowClientEnv) fun h => by
    rw [List.isEmpty_iff.mp h]).trans ?_
  refine (storeMembers_member rfl (store_int64 cfg.minDuration)).trans ?_
  dsimp only
  refine (storeMembers_member rfl (store_int64 cfg.maxDuration)).trans ?_
  refine (storeMembers_member rfl (store_int64 cfg.stopDelay)).trans ?_
  refine (storeMembers_member rfl (store_int64 cfg.warmRetention)).trans ?_
  dsimp only
  refine (storeMembers_member rfl (store_int64 cfg.transcriptRetentionWindow)).trans ?_
  refine (storeMembers_omitted rfl (fun _ => rfl) fun h => by rw [of_decide_eq_true h]).trans ?_
  refine (storeMembers_member rfl (store_int64 cfg.whisperConnectTimeout)).trans ?_
  refine (storeMembers_member rfl (store_int64 cfg.whisperRequestTimeout)).trans ?_
  rfl

theorem storeMembers_status (status : StatusData) :
    storeMembers statusFields {} none (status.members.map fun m => (m.1, m.2.value)) = (status, none) := by
  refine (storeMembers_omitted rfl (fun _ => rfl) fun h => by rw [of_decide_eq_true h]).trans ?_
  refine (storeMembers_omitted rfl (fun _ => store_int64 status.nextClipID) fun h => by
    rw [of_decide_eq_true h]).trans ?_
  refine (storeMembers_omitted rfl (fun _ => store_int64 status.activeClip) fun h => by
    rw [of_decide_eq_true h]).trans ?_
  refine (storeMembers_omitted rfl (fun _ => store_int32 status.pending) fun h => by
    rw [of_decide_eq_true h]).trans ?_
  dsimp only
  obtain ⟨state, nextClipID, activeClip, pending, config⟩ := status
  cases config with
  | none => rfl
  | some cfg => exact storeMembers_member rfl (store_struct rfl (storeMembers_config cfg))

/-- What the client makes of a response. -/
def Response.received (r : Response (Option StatusData)) : Response StatusData := ⟨r.ok, r.error, r.data.join⟩

theorem storeMembers_response (r : Response (Option StatusData)) :
    storeMembers responseFields {} none (r.members.map fun m => (m.1, m.2.value)) = (r.received, none) := by
  obtain ⟨ok, error, data⟩ := r
  refine (storeMembers_member rfl rfl).trans ?_
  refine (storeMembers_omitted rfl (fun _ => rfl) fun h => by rw [of_decide_eq_true h]).trans ?_
  dsimp only
  cases hdata : data.join with
  | none => simp only [hdata, Response.received]; rfl
  | some status =>
    simp only [hdata, Response.received]
    exact storeMembers_member rfl (store_struct rfl (storeMembers_status status))

/-- **A response is read back.** -/
theorem unmarshal_encodeResponse (r : Response (Option StatusData)) :
    unmarshalResponse (encodeResponse r) = .ok r.received := by
  rw [unmarshalResponse, encodeResponse, unmarshal_struct r.members (by decide)]
  show unmarshalStruct responseFields {} "client.response" (.object _) = _
  rw [unmarshalStruct, storeMembers_response]

/-- **It is one line.** -/
theorem line_encodeResponse (r : Response (Option StatusData)) : ascii '\n' ∉ (Datum.struct r.members).text :=
  (Datum.struct r.members).encodes.line

end Talk2Text.Server
