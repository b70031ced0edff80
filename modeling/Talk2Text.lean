import Talk2Text.Sys.Basic
import Talk2Text.Sys.Pool
import Talk2Text.Sys.Gate
import Talk2Text.Sys.Slots
import Talk2Text.Sys.Retention
import Talk2Text.Sys.Rank
import Talk2Text.Sys.Lifetime
import Talk2Text.Format.Framing
import Talk2Text.Format.Utf8
import Talk2Text.Format.BitFields
import Talk2Text.Format.BitReader
import Talk2Text.Util.Exec
import Talk2Text.Util.Timer
import Talk2Text.Util.Assoc
import Talk2Text.Util.Text
import Talk2Text.Json.Quote
import Talk2Text.Json.Scanner
import Talk2Text.Json.Decoder
import Talk2Text.Json.Encode
import Talk2Text.Json.Text
import Talk2Text.Json.Struct
import Talk2Text.Server.Request
import Talk2Text.Server.Conn
import Talk2Text.Server.Response
import Talk2Text.RequestEnv.Decode
import Talk2Text.Server.Environment
import Talk2Text.Client.Request
import Talk2Text.Amrwb.Decoder
import Talk2Text.Amrwb.Unsorting
import Talk2Text.Amrwb.Params
import Talk2Text.Amrwb.Runs
import Talk2Text.Amrwb.Codebook
import Talk2Text.Daemon.Session
import Talk2Text.Daemon.Config
import Talk2Text.Daemon.StreamSync
import Talk2Text.Daemon.Capture
import Talk2Text.Daemon.CaptureInv
import Talk2Text.Daemon.Lifecycle
import Talk2Text.Daemon.Handoff
import Talk2Text.Daemon.Warm
import Talk2Text.Daemon.Transcribe
import Talk2Text.Daemon.Http
import Talk2Text.Daemon.Turns
import Talk2Text.Daemon.Admission
import Talk2Text.RuntimeDir.Socket
import Talk2Text.RuntimeDir.Ownership
import Talk2Text.RuntimeDir.Prepare
import Talk2Text.RuntimeDir.Transcripts
import Talk2Text.Daemon.Startup
import Talk2Text.Daemon.Output
import Talk2Text.Daemon.Owners
import Talk2Text.Daemon.Retention
import Talk2Text.Daemon.System
import Talk2Text.Client.Commands
import Talk2Text.Daemon.Ipc
import Talk2Text.Daemon.IpcInv
import Talk2Text.Daemon.Order
import Talk2Text.Daemon.ClipIDs
import Talk2Text.Daemon.Rename
import Talk2Text.Daemon.Isolation
import Talk2Text.Daemon.Provenance
import Talk2Text.Daemon.Environment
import Talk2Text.Daemon.Discard
import Talk2Text.Daemon.StreamLife
import Talk2Text.Daemon.Duration
import Talk2Text.Daemon.HttpLimits
import Talk2Text.Daemon.Audio
import Talk2Text.Daemon.WarmExpiry
import Talk2Text.Daemon.Processing
import Talk2Text.Daemon.TranscriptNames
import Talk2Text.Whisper.Body
import Talk2Text.Whisper.Transcribe
import Talk2Text.Daemon.Fates
import Talk2Text.Daemon.Texts
import Talk2Text.Daemon.OutputFile
import Talk2Text.Daemon.Whole
import Talk2Text.Client.Run
