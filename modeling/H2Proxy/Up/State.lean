import H2Proxy.Service
import H2Proxy.Settings
import H2Proxy.Stream

/-
  The state of a connection to a backend (`UpstreamConnection` in `core/src/upstream.rs`).

  `UpstreamCore` is the part the results are about: the streams and the three maps beside
  them, the queue, the connection's receive window, the drain. `Upstream` adds what one step
  reads and writes on the way.

  Clients are named by the channel their events go to. What the source publishes for the pool
  is kept as `Published`; its gauges and its summary are left out: nothing here reads them.

  `log` is a ghost: what the connection did, oldest first. No branch reads it.
-/

namespace H2Proxy

/-- Names one request on one upstream connection, unlike a stream id before there is one. -/
structure RequestId where
  get : UInt32
deriving DecidableEq

/-- The channel a client connection receives its events on. -/
structure Events where
  client : Nat
deriving DecidableEq

/-- What a client connection asks of an upstream one. -/
inductive ToUpstream
  | request (id : RequestId) (clientId : StreamId) (head : RequestHead) (endStream : Bool)
    (events : Events)
  | body (id : RequestId) (data : Bytes) (endStream : Bool)
  | trailers (id : RequestId) (fields : List Header)
  | released (id : RequestId) (n : Nat)
  | cancel (id : RequestId) (code : ErrorCode)
deriving DecidableEq

/-- The request a message is about. -/
def ToUpstream.id : ToUpstream → RequestId
  | request id .. | body id .. | trailers id _ | released id _ | cancel id _ => id

/-- A request waiting for a stream, with what has arrived of it since. -/
structure Pending where
  request : RequestId
  clientId : StreamId
  head : RequestHead
  endStream : Bool
  events : Events
  body : List (Bytes × Bool)
  trailers : Option (List Header)

/-! ## The liveness probe -/

/-- An unanswered PING. -/
structure Outstanding where
  nonce : PingData
  sentAt : Instant
  deadline : Instant

structure Probe where
  idle : Duration
  timeout : Duration
  lastHeard : Instant
  outstanding : Option Outstanding
  nextNonce : Nat

inductive ProbeAction
  | nothing
  | send (nonce : PingData)
  | expired

namespace Probe

def new (idle timeout : Duration) (now : Instant) : Probe := ⟨idle, timeout, now, none, 1⟩

def enabled (p : Probe) : Bool := p.idle ≠ 0

def heard (p : Probe) (now : Instant) : Probe := { p with lastHeard := now }

/-- When the probe next has something to do. -/
def nextWake (p : Probe) : Option Instant :=
  if !p.enabled then none
  else match p.outstanding with
    | some probe => some probe.deadline
    | none => some (p.lastHeard + p.idle)

/-- `n.to_be_bytes()` on a `u64`. -/
def nonceOf (n : Nat) : PingData := ⟨put32 (n / 2 ^ 32) ++ put32 n, rfl⟩

def due (p : Probe) (now : Instant) : Probe × ProbeAction :=
  if !p.enabled then (p, .nothing)
  else match p.outstanding with
    | some probe =>
      if now ≥ probe.deadline then
        -- Anything heard since the PING was sent answers it.
        if p.lastHeard > probe.sentAt then ({ p with outstanding := none }, .nothing)
        else (p, .expired)
      else (p, .nothing)
    | none =>
      if now - p.lastHeard ≥ p.idle then
        let nonce := nonceOf p.nextNonce
        ({ p with
            nextNonce := p.nextNonce + 1
            outstanding := some ⟨nonce, now, now + p.timeout⟩ }, .send nonce)
      else (p, .nothing)

/-- A PING ACK came; whether it was the one asked for. -/
def acked (p : Probe) (data : PingData) (now : Instant) : Probe × Bool :=
  let p := p.heard now
  match p.outstanding with
  | some probe => if probe.nonce = data then ({ p with outstanding := none }, true) else (p, false)
  | none => (p, false)

end Probe

/-! ## The connection -/

namespace Upstream

/-- Where the answer to a stream goes. -/
structure Route where
  clientId : StreamId
  events : Events
  request : RequestId
  /-- Whether a final response head has been passed on. -/
  headSent : Bool
  /-- Octets passed on and not yet released by the client. -/
  pendingConnRelease : Nat
deriving DecidableEq

/-- What the connection tells the pool about itself. -/
structure Published where
  maxConcurrent : Option Nat
  queued : Nat
  retired : Bool
deriving DecidableEq

end Upstream

/-- One thing an upstream connection did. -/
inductive UpObs
  /-- A whole frame came off the wire. -/
  | heard (frame : WireFrame)
  /-- A message was taken off the inbox. -/
  | took (message : ToUpstream)
  /-- A header list was encoded, from this encoder state, with this frame size in force. -/
  | encoded (encoder : HpackEncoder) (fields : List Header) (limit : Nat)
  /-- A frame was queued with this frame size in force; `fields` are those of its block. -/
  | queued (frame : Frame) (fields : List Header) (limit : Nat)
  /-- A stream was opened for a request, with so many live beside it. -/
  | opened (id : StreamId) (live : Nat)
  /-- A client was told something about one of its requests. -/
  | told (request : RequestId) (events : Events) (event : ServiceEvent)

structure UpstreamCore where
  streams : StreamTable
  connRecvWindow : RecvWindow
  routes : FinMap StreamId Upstream.Route
  requests : FinMap RequestId StreamId
  /-- Requests cancelled before they were seen. -/
  cancelled : List RequestId
  /-- Requests waiting for a stream, oldest first. -/
  pending : List Pending
  /-- The stream id to open next. -/
  nextStreamId : Nat
  /-- Once the backend has sent GOAWAY: its last stream id, and until when it is waited for. -/
  peerDraining : Option (StreamId × Instant)
  published : Upstream.Published
  log : List UpObs

structure Upstream extends UpstreamCore where
  /-- The clock as the current step reads it. -/
  now : Instant
  /-- Octets waiting to be written. -/
  out : Nat
  localSettings : Settings
  peerSettings : Settings
  openHeaderBlock : Option StreamId
  openHeaderEndStream : Bool
  headerBlock : Bytes
  hpackDec : HpackDecoder
  hpackEnc : HpackEncoder
  connSendWindow : Window
  /-- The round-robin ring. -/
  ready : List StreamId
  maxPending : Nat
  probe : Probe
  probeTimedOut : Bool
  /-- Set once the loop has stopped. -/
  stop : Option Stop

namespace UpstreamCore

def observe (o : UpObs) (c : UpstreamCore) : UpstreamCore := { c with log := c.log ++ [o] }

/-- Change a live stream in place. -/
def modifyStream (id : StreamId) (f : Stream → Stream) (c : UpstreamCore) : UpstreamCore :=
  { c with streams := c.streams.modify id f }

/-- Change a route in place. -/
def modifyRoute (id : StreamId) (f : Upstream.Route → Upstream.Route) (c : UpstreamCore) :
    UpstreamCore :=
  { c with routes := c.routes.modify id f }

/-- Change the oldest waiting entry of a request. -/
def modifyPending (request : RequestId) (f : Pending → Pending) (c : UpstreamCore) :
    UpstreamCore :=
  { c with pending := c.pending.replaceF fun p => if p.request = request then some (f p) else none }

/-- Drop a stream from the table; no credit is kept for it there. -/
def retire (id : StreamId) (c : UpstreamCore) : UpstreamCore :=
  { c with streams := { c.streams.retire id with reclaimed := 0 } }

end UpstreamCore

namespace Upstream

/-- How long a draining backend is waited for. -/
def peerDrainDeadline : Duration := 10 * 10 ^ 9

/-- The client connection preface. -/
def preface : Bytes := ascii "PRI * HTTP/2.0\r\n\r\nSM\r\n\r\n"

/-- A connection after its preface: settings and window bootstrap queued, nothing heard. -/
def start (tuning : Tuning) (idle timeout : Duration) (now : Instant) : Upstream :=
  let localSettings := tuning.clientSettings
  let bootstrap := Frame.windowUpdate .connection (connectionWindowBootstrap tuning.connectionWindow)
  { streams :=
      .new u32Max (asI32 Settings.default.initialWindowSize) (asI32 localSettings.initialWindowSize)
    connRecvWindow := .new tuning.connectionWindow
    routes := ∅
    requests := ∅
    cancelled := []
    pending := []
    nextStreamId := 1
    peerDraining := none
    published := ⟨none, 0, false⟩
    log := [.queued localSettings.toFrame [] Settings.default.maxFrameSize,
      .queued bootstrap [] Settings.default.maxFrameSize]
    now
    out := preface.length + 2 * frameHeaderLen + localSettings.toFrame.payloadLen +
      bootstrap.payloadLen
    localSettings
    peerSettings := .default
    openHeaderBlock := none
    openHeaderEndStream := false
    headerBlock := []
    hpackDec := .new localSettings.headerTableSize localSettings.maxHeaderListSize
    hpackEnc := .new Settings.default.headerTableSize
    connSendWindow := ⟨asI32 Settings.default.initialWindowSize⟩
    ready := []
    maxPending := tuning.maxPending
    probe := .new idle timeout now
    probeTimedOut := false
    stop := none }

end Upstream

end H2Proxy
