import H2Proxy.Guard
import H2Proxy.Service
import H2Proxy.Settings
import H2Proxy.Stream

/-
  The state of a client connection (`Connection` in `core/src/conn.rs`).

  `ConnCore` is the part that outlives a turn of the loop and that the results are about:
  the streams, the connection's receive window, the owed resets, the responder and its
  channel, the drain. `Conn` adds what a turn reads and writes on the way: settings, HPACK
  state, the open header block, the scheduler's ring, the guard. The octets waiting in `out`
  are counted, not kept.

  `log` is a ghost: what the connection did, oldest first. No branch reads it.
-/

namespace H2Proxy

/-- A call of the responder. -/
inductive Call
  | dispatch (id : StreamId) (head : RequestHead) (endStream : Bool)
  | body (id : StreamId) (data : Bytes) (endStream : Bool)
  | trailers (id : StreamId) (fields : List Header)
  | cancel (id : StreamId) (code : ErrorCode)
  | finish (id : StreamId)
  | released (id : StreamId) (n : Nat)
  | intercept (event : ServiceEvent)
  | drop
deriving DecidableEq

/-- One thing a client connection did. -/
inductive ConnObs (μ : Type)
  /-- A whole frame came off the wire. -/
  | heard (frame : WireFrame)
  /-- A stream entered the table. -/
  | opened (id : StreamId)
  /-- A header list was encoded, from this encoder state, with this frame size in force. -/
  | encoded (encoder : HpackEncoder) (fields : List Header) (limit : Nat)
  /-- A frame was queued with this frame size in force; `fields` are those of its block. -/
  | queued (frame : Frame) (fields : List Header) (limit : Nat)
  /-- An event was handed on by the responder and acted on. -/
  | handled (event : ServiceEvent)
  | called (call : Call)
  /-- The responder sent a message elsewhere. -/
  | sent (message : μ)

/-- How long a drain waits for quiet, and then for the streams. -/
structure DrainPolicy where
  grace : Duration
  deadline : Duration

def DrainPolicy.default : DrainPolicy := ⟨2 * 10 ^ 9, 30 * 10 ^ 9⟩

structure Drain where
  commitAt : Instant
  deadlineAt : Instant
  /-- The id the final GOAWAY committed to. -/
  committed : Option StreamId

def Drain.begin (policy : DrainPolicy) (now : Instant) (quietFor : Duration) : Drain :=
  let grace := if quietFor ≥ policy.grace then 0 else policy.grace - quietFor
  ⟨now + grace, now + grace + policy.deadline, none⟩

structure ConnCore (σ μ : Type) where
  streams : StreamTable
  connRecvWindow : RecvWindow
  /-- Resets owed to illegal transitions, newest last. -/
  pendingReset : List StreamError
  service : σ
  /-- The channel the responder and the upstreams answer on, oldest first. -/
  events : List ServiceEvent
  draining : Option Drain
  log : List (ConnObs μ)

structure Conn (σ μ : Type) extends ConnCore σ μ where
  /-- The clock as the current step reads it. -/
  now : Instant
  /-- Octets waiting to be written. -/
  out : Nat
  localSettings : Settings
  peerSettings : Settings
  /-- Whether an admission budget is shared with this connection. -/
  admission : Bool
  advertisedStreams : Nat
  outstandingSettings : Nat
  enforcedStreams : Nat
  openHeaderBlock : Option StreamId
  openHeaderEndStream : Bool
  headerBlock : Bytes
  hpackDec : HpackDecoder
  hpackEnc : HpackEncoder
  connSendWindow : Window
  /-- The round-robin ring. -/
  ready : List StreamId
  guard : Guard
  /-- When the last request arrived. -/
  lastStreamAt : Instant
  drainPolicy : DrainPolicy
  /-- Set once the loop has stopped. -/
  stop : Option Stop

namespace ConnCore

variable {σ μ : Type}

/-- `drain_committed`: the final GOAWAY has gone out. -/
def drainCommitted (c : ConnCore σ μ) : Bool := c.draining.any (·.committed.isSome)

def observe (o : ConnObs μ) (c : ConnCore σ μ) : ConnCore σ μ := { c with log := c.log ++ [o] }

/-- Change a live stream in place. -/
def modifyStream (id : StreamId) (f : Stream → Stream) (c : ConnCore σ μ) : ConnCore σ μ :=
  { c with streams := c.streams.modify id f }

/-- The responder's new state, its events on the channel, its messages in the log. -/
def call (call : Call) (r : σ × List (Effect μ)) (c : ConnCore σ μ) : ConnCore σ μ :=
  { c with
    service := r.1
    events := c.events ++ r.2.filterMap fun
      | .emit e => some e
      | .send _ => none
    log := c.log ++ .called call :: r.2.filterMap fun
      | .emit _ => none
      | .send m => some (.sent m) }

end ConnCore

namespace Conn

variable {σ μ : Type}

/-- A connection after its preface: settings and window bootstrap queued, nothing heard.
    `admission` is the shared budget's first value, where there is one. -/
def start (service : σ) (localSettings : Settings) (window : Int) (limits : Limits)
    (policy : DrainPolicy) (admission : Option Nat) (now : Instant) : Conn σ μ :=
  let ceiling := localSettings.maxConcurrentStreams.getD u32Max
  let announced := match admission with
    | some initial => { localSettings with maxConcurrentStreams := some initial }
    | none => localSettings
  let bootstrap := Frame.windowUpdate .connection (connectionWindowBootstrap window)
  { streams :=
      .new (match admission with
          | some _ => ceiling
          | none => localSettings.maxConcurrentStreams.getD H2Proxy.maxConcurrentStreams)
        (asI32 Settings.default.initialWindowSize) (asI32 localSettings.initialWindowSize)
    connRecvWindow := .new window
    pendingReset := []
    service
    events := []
    log := [.queued announced.toFrame [] Settings.default.maxFrameSize,
      .queued bootstrap [] Settings.default.maxFrameSize]
    now
    out := 2 * frameHeaderLen + announced.toFrame.payloadLen + bootstrap.payloadLen
    localSettings := announced
    peerSettings := .default
    admission := admission.isSome
    advertisedStreams := admission.getD ceiling
    outstandingSettings := if admission.isSome then 1 else 0
    enforcedStreams := ceiling
    openHeaderBlock := none
    openHeaderEndStream := false
    headerBlock := []
    hpackDec := .new localSettings.headerTableSize localSettings.maxHeaderListSize
    hpackEnc := .new Settings.default.headerTableSize
    connSendWindow := ⟨asI32 Settings.default.initialWindowSize⟩
    ready := []
    guard := .new limits now
    lastStreamAt := now
    drainPolicy := policy
    draining := none
    stop := none }

/-- `Connection::with_service` under the server's settings and the defaults of the rest. -/
def withService (service : σ) : Conn σ μ :=
  start service .server connectionWindow .default .default none 0

end Conn

end H2Proxy
