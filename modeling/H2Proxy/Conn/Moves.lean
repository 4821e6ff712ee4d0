import H2Proxy.Conn.Run
import Mathlib.Logic.Relation

/-
  What a client connection can do to its core, as a relation.

  Each function of the engine is given its effect on the core as a pure function of the core
  (`settle`, `respond`, `sendTrailers`, ...). A `Move` is one such effect with the guard
  under which the engine performs it; every step of the engine is a sequence of moves
  (`Conn.step_moves`, in the next module), so an invariant of the moves is an invariant of
  the connection.

  A `Permit` restricts the moves where the environment decides: which frames it sends, which
  header blocks it completes, which events it hands on; and which turns the scheduler takes.
-/

namespace H2Proxy

namespace Stream

/-- Two states of a stream that differ at most in what only the scheduler reads: the ring flag
    and the send window. -/
structure Alike (s t : Stream) : Prop where
  state : t.state = s.state
  recvWindow : t.recvWindow = s.recvWindow
  sendQueue : t.sendQueue.flatten = s.sendQueue.flatten
  sendEndStream : t.sendEndStream = s.sendEndStream
  pendingTrailers : t.pendingTrailers = s.pendingTrailers
  responseStarted : t.responseStarted = s.responseStarted
  pendingConnRelease : t.pendingConnRelease = s.pendingConnRelease
  contentLength : t.contentLength = s.contentLength
  dataReceived : t.dataReceived = s.dataReceived

theorem Alike.refl (s : Stream) : s.Alike s := ⟨rfl, rfl, rfl, rfl, rfl, rfl, rfl, rfl, rfl⟩

theorem Alike.rel_refl : (o : Option Stream) → Option.Rel Alike o o
  | none => .none
  | some s => .some (.refl s)

end Stream

/-- The same streams, up to `Stream.Alike`, under the same ids. -/
structure StreamTable.Alike (t t' : StreamTable) : Prop where
  highestPeerId : t'.highestPeerId = t.highestPeerId
  highestLocalId : t'.highestLocalId = t.highestLocalId
  reclaimed : t'.reclaimed = t.reclaimed
  initialRecvWindow : t'.initialRecvWindow = t.initialRecvWindow
  live : ∀ id, Option.Rel Stream.Alike (t.get? id) (t'.get? id)

theorem StreamTable.Alike.refl (t : StreamTable) : t.Alike t :=
  ⟨rfl, rfl, rfl, rfl, fun _ => Stream.Alike.rel_refl _⟩

theorem StreamTable.alike_modify (t : StreamTable) (id : StreamId) {f : Stream → Stream}
    (h : ∀ s, t.get? id = some s → s.Alike (f s)) : t.Alike (t.modify id f) := by
  refine ⟨rfl, rfl, rfl, rfl, fun id' => ?_⟩
  rw [get?_modify]
  split
  · rename_i heq
    subst heq
    cases hs : t.get? id' with
    | none => exact .none
    | some s => exact .some (h s hs)
  · exact Stream.Alike.rel_refl _

theorem StreamTable.alike_applyInitialWindowDelta (t : StreamTable) (delta : Int) :
    t.Alike (t.applyInitialWindowDelta delta).1 := by
  refine ⟨rfl, rfl, rfl, rfl, fun id => ?_⟩
  obtain ⟨s, s', hs, hf, hs'⟩ | h := AList.lookup_updateAll
    (fun s : Stream => (s.sendWindow.applyDelta delta).map fun w => { s with sendWindow := w })
    t.live id
  · have hlive : (t.applyInitialWindowDelta delta).1.get? id = some s' := hs'
    rw [hlive, show t.get? id = some s from hs]
    cases hd : s.sendWindow.applyDelta delta with
    | error e => rw [hd] at hf; cases hf
    | ok w =>
      rw [hd] at hf
      cases hf
      exact .some ⟨rfl, rfl, rfl, rfl, rfl, rfl, rfl, rfl, rfl⟩
  · have hlive : (t.applyInitialWindowDelta delta).1.get? id = t.get? id := h
    rw [hlive]
    exact Stream.Alike.rel_refl _

namespace ConnCore

variable {σ μ : Type}

/-! ## The effects -/

/-- `release_conn_window`: credit for the connection, announced once enough has gathered. -/
def releaseConn (n limit : Nat) (c : ConnCore σ μ) : ConnCore σ μ :=
  { c with
    connRecvWindow := (c.connRecvWindow.release n).1
    log := c.log ++ ((c.connRecvWindow.release n).2.map fun increment =>
      ConnObs.queued (.windowUpdate .connection increment) [] limit).toList }

/-- `drain_reclaimed`. -/
def reclaim (limit : Nat) (c : ConnCore σ μ) : ConnCore σ μ :=
  let c' := { c with streams := { c.streams with reclaimed := 0 } }
  if c.streams.reclaimed = 0 then c' else c'.releaseConn c.streams.reclaimed limit

/-- The live half of `release_recv_window`. -/
def credit (id : StreamId) (stream : Stream) (n limit : Nat) (c : ConnCore σ μ) :
    ConnCore σ μ :=
  let c' := c.modifyStream id fun s =>
    { s with
      recvWindow := (stream.recvWindow.release n).1
      pendingConnRelease := s.pendingConnRelease - n }
  { c' with
    log := c'.log ++ ((stream.recvWindow.release n).2.map fun increment =>
      ConnObs.queued (.windowUpdate id increment) [] limit).toList }.releaseConn n limit

/-- DATA within its window arrives on a live stream, or past it (`none`). -/
def receive (w : WireFrame) (id : StreamId) (len : Nat) (connRecvWindow : RecvWindow)
    (recvWindow : Option RecvWindow) (c : ConnCore σ μ) : ConnCore σ μ :=
  { c.observe (.heard w) with connRecvWindow }.modifyStream id fun s =>
    { s with
      dataReceived := satAdd64 s.dataReceived len
      pendingConnRelease := satAdd32 s.pendingConnRelease len
      recvWindow := recvWindow.getD s.recvWindow }

/-- The length a request declares for its body is noted. -/
def declare (id : StreamId) (contentLength : Option Nat) (c : ConnCore σ μ) : ConnCore σ μ :=
  match contentLength with
  | some n => c.modifyStream id ({ · with contentLength := some n })
  | none => c

/-- Encode a field list and queue it as one HEADERS frame. -/
def headersOut (id : StreamId) (fields : List Header) (endStream : Bool) (enc : HpackEncoder)
    (limit : Nat) (c : ConnCore σ μ) : ConnCore σ μ :=
  (c.observe (.encoded enc fields limit)).observe
    (.queued (.headers id (enc.encode fields).2 endStream true) fields limit)

section Service

variable [Service σ μ]

/-- The retirement and the call of `write_rst_stream`. -/
def abandon (now : Instant) (id : StreamId) (code : ErrorCode) (c : ConnCore σ μ) :
    ConnCore σ μ :=
  { c with streams := c.streams.retire id }.call (.cancel id code)
    (Service.cancel now id code c.service)

/-- `write_rst_stream`. -/
def writeRst (now : Instant) (id : StreamId) (code : ErrorCode) (limit : Nat)
    (c : ConnCore σ μ) : ConnCore σ μ :=
  ((c.abandon now id code).reclaim limit).observe (.queued (.rstStream id code) [] limit)

/-- `apply_stream_event`. -/
def settle (now : Instant) (id : StreamId) (event : StreamEvent) (limit : Nat)
    (c : ConnCore σ μ) : ConnCore σ μ :=
  match c.streams.apply id event with
  | (streams, .ok state) =>
    if state.isClosed then
      ({ c with streams }.call (.finish id) (Service.finish now id c.service)).reclaim limit
    else { c with streams }
  | (streams, .error e) =>
    if e.code = .protocolError then { c with streams }
    else { c with streams := streams.retire id, pendingReset := c.pendingReset ++ [e] }

/-- The rest of `recv_data`, once the octets are counted. -/
def deliver (now : Instant) (id : StreamId) (data : Bytes) (endStream : Bool) (limit : Nat)
    (c : ConnCore σ μ) : ConnCore σ μ :=
  let c := c.settle now id (.recvData endStream) limit
  if data ≠ [] || endStream then
    c.call (.body id data endStream) (Service.body now id data endStream c.service)
  else c

/-- `send_response`. -/
def respond (now : Instant) (id : StreamId) (response : Response) (endStream : Bool)
    (enc : HpackEncoder) (limit : Nat) (c : ConnCore σ μ) : ConnCore σ μ :=
  ((c.headersOut id response.toHeaders endStream enc limit).modifyStream id
    ({ · with responseStarted := true })).settle now id (.sendHeaders endStream) limit

/-- `send_trailers`. -/
def sendTrailers (now : Instant) (id : StreamId) (fields : List Header) (enc : HpackEncoder)
    (limit : Nat) (c : ConnCore σ μ) : ConnCore σ μ :=
  match validateTrailers fields with
  | .error _ => c.modifyStream id ({ · with sendEndStream := true })
  | .ok () =>
    if (c.streams.get? id).any Stream.hasPendingSend then
      c.modifyStream id ({ · with pendingTrailers := some fields, sendEndStream := true })
    else (c.headersOut id fields true enc limit).settle now id (.sendHeaders true) limit

/-- A stream is opened and its first header block ends. -/
def openRequest (now : Instant) (id : StreamId) (endStream : Bool) (limit : Nat)
    (c : ConnCore σ μ) : ConnCore σ μ :=
  ({ c with streams := (c.streams.openPeer id).1 }.observe (.opened id)).settle now id
    (.recvHeaders endStream) limit

/-- The DATA frame of a turn, where it has octets or END_STREAM. -/
def transmit (now : Instant) (id : StreamId) (turn : Stream.Turn) (sendWindow : Window)
    (limit : Nat) (c : ConnCore σ μ) : ConnCore σ μ :=
  let c := c.modifyStream id fun _ => { turn.rest with sendWindow }
  if turn.chunk.length > 0 || turn.endStream then
    (c.observe (.queued (.data id turn.chunk turn.endStream) [] limit)).settle now id
      (.sendData turn.endStream) limit
  else c

/-- The octets of a turn are reported as written. -/
def reportReleased (now : Instant) (id : StreamId) (n : Nat) (c : ConnCore σ μ) : ConnCore σ μ :=
  if n > 0 then c.call (.released id n) (Service.released now id n c.service) else c

/-- The rest of a visit: DATA, the report, the trailers that waited for the body. -/
def takeTurn (now : Instant) (id : StreamId) (turn : Stream.Turn) (sendWindow : Window)
    (enc : HpackEncoder) (limit : Nat) (c : ConnCore σ μ) : ConnCore σ μ :=
  let c := (c.transmit now id turn sendWindow limit).reportReleased now id turn.chunk.length
  match turn.trailers with
  | some fields => c.sendTrailers now id fields enc limit
  | none => c

end Service

end ConnCore

/-! ## The moves -/

/-- What the environment of a connection is allowed: the frames it sends, the header blocks
    completed with their END_STREAM and their outcome, the events the responder hands on, the
    turns the scheduler takes; each in the core it meets. -/
structure Permit (σ μ : Type) where
  frame : ConnCore σ μ → WireFrame → Prop := fun _ _ => True
  block : ConnCore σ μ → StreamId → Bool → Except HpackError (List Header) → Prop :=
    fun _ _ _ _ => True
  event : ConnCore σ μ → ServiceEvent → Prop := fun _ _ => True
  turn : ConnCore σ μ → StreamId → Stream.Turn → Prop := fun _ _ _ => True

namespace Permit

variable {σ μ : Type}

/-- What both allow. -/
def and (P Q : Permit σ μ) : Permit σ μ where
  frame c w := P.frame c w ∧ Q.frame c w
  block c id endStream r := P.block c id endStream r ∧ Q.block c id endStream r
  event c e := P.event c e ∧ Q.event c e
  turn c id turn := P.turn c id turn ∧ Q.turn c id turn

/-- The core has just noted a frame that is allowed. -/
def Heard (P : Permit σ μ) (c : ConnCore σ μ) (w : WireFrame) : Prop :=
  ∃ c₀, c = c₀.observe (.heard w) ∧ P.frame c₀ w

/-- A request on an id that is not live was completed, and no drain keeps it out. -/
def Requests (P : Permit σ μ) (c : ConnCore σ μ) (id : StreamId) (endStream : Bool)
    (headers : List Header) : Prop :=
  P.block c id endStream (.ok headers) ∧ c.drainCommitted = false

/-- What is answered locally on a stream opened for it: a header list past its limit, or a
    refusal for an id that was never opened. -/
def Answers (P : Permit σ μ) (c : ConnCore σ μ) (id : StreamId) : Prop :=
  (∃ endStream size limit, P.block c id endStream (.error (.headerListTooLarge size limit))) ∨
    ∃ c₀ e, c = c₀.observe (.handled e) ∧ P.event c₀ e ∧ e.isRefusal ∧ e.id = id

/-- What may open a stream: a request, or what is answered locally. -/
def Opens (P : Permit σ μ) (c : ConnCore σ μ) (id : StreamId) : Prop :=
  (∃ endStream headers, P.Requests c id endStream headers) ∨ P.Answers c id

end Permit

namespace ConnObs

/-- Observations that concern no stream. -/
inductive Neutral {μ : Type} : ConnObs μ → Prop
  | heard {w : WireFrame} (other : w.data? = none) : Neutral (.heard w)
  | encoded (enc : HpackEncoder) (fields : List Header) (limit : Nat) :
    Neutral (.encoded enc fields limit)
  | queued {f : Frame} {limit : Nat} (fits : f.payloadLen ≤ limit)
    (kind : f.kind = .settings ∨ f.kind = .ping) : Neutral (.queued f [] limit)

end ConnObs

/-- A header list that makes a request the responder is asked for. -/
def servable (headers : List Header) (endStream : Bool) : Bool :=
  match RequestHead.fromHeaders headers with
  | .error _ => false
  | .ok head =>
    match head.contentLength with
    | none => true
    | some (.ok n) => !endStream || n = 0
    | some (.error _) => false

section Moves

variable {σ μ : Type} [Service σ μ]

/-- One thing a connection does to its core on account of one stream. -/
inductive StreamMove (P : Permit σ μ) (c : ConnCore σ μ) : StreamId → ConnCore σ μ → Prop
  /-- An event of no effect on its stream. -/
  | handled {e : ServiceEvent} (permit : P.event c e)
    (idle : c.streams.get? e.id = none ∨ e = .bodyAccepted e.id 0) :
    StreamMove P c e.id (c.observe (.handled e))
  /-- An event that ends its stream with a reset. -/
  | dropped (now : Instant) {e : ServiceEvent} {stream : Stream} (code : ErrorCode)
    {limit : Nat} (permit : P.event c e) (ending : e.isRefusal ∨ e = .reset e.id code)
    (live : c.streams.get? e.id = some stream) (fits : defaultMaxFrameSize ≤ limit) :
    StreamMove P c e.id ((c.observe (.handled e)).writeRst now e.id code limit)
  /-- The client resets a stream. -/
  | withdrawn (now : Instant) {w : WireFrame} {id : StreamId} {code : ErrorCode}
    {stream : Stream} (heard : P.Heard c w) (frame : w.decode = .ok (.frame (.rstStream id code)))
    (live : c.streams.get? id = some stream) : StreamMove P c id (c.abandon now id code)
  /-- A WINDOW_UPDATE its stream cannot take. -/
  | overgranted (now : Instant) {w : WireFrame} {id : StreamId} {n : Nat} {stream : Stream}
    (code : ErrorCode) {limit : Nat} (heard : P.Heard c w)
    (frame : w.decode = .ok (.frame (.windowUpdate id n)))
    (live : c.streams.get? id = some stream)
    (bad : n = 0 ∨ (stream.sendWindow.increase n).isOk = false)
    (fits : defaultMaxFrameSize ≤ limit) : StreamMove P c id (c.writeRst now id code limit)
  /-- A WINDOW_UPDATE with a zero increment for an id that is not live. -/
  | stray (now : Instant) {w : WireFrame} {id : StreamId} (code : ErrorCode) {limit : Nat}
    (heard : P.Heard c w) (frame : w.decode = .ok (.frame (.windowUpdate id 0)))
    (stream : id.isConnection = false) (gone : c.streams.get? id = none)
    (fits : defaultMaxFrameSize ≤ limit) : StreamMove P c id (c.writeRst now id code limit)
  | flushed (now : Instant) {es : List StreamError} {e : StreamError} {limit : Nat}
    (owed : c.pendingReset = es ++ [e]) (fits : defaultMaxFrameSize ≤ limit) :
    StreamMove P c e.stream ({ c with pendingReset := es }.writeRst now e.stream e.code limit)
  /-- A request that finds no room; its id is noted as seen. -/
  | crowded (now : Instant) {id : StreamId} {limit : Nat} (cause : P.Opens c id)
    (refused : (c.streams.openPeer id).2 = .error .refused) (fits : defaultMaxFrameSize ≤ limit) :
    StreamMove P c id ({ c with streams := (c.streams.openPeer id).1 }.writeRst now id
      .refusedStream limit)
  /-- A request past the streams a drain committed to. -/
  | turnedAway (now : Instant) {id : StreamId} {endStream : Bool} {headers : List Header}
    {limit : Nat} (permit : P.block c id endStream (.ok headers))
    (idle : c.streams.lookup id = .idle) (drained : c.drainCommitted)
    (fits : defaultMaxFrameSize ≤ limit) :
    StreamMove P c id (c.writeRst now id .refusedStream limit)
  /-- A request that cannot be served. -/
  | malformed (now : Instant) {id : StreamId} {endStream : Bool} {headers : List Header}
    (contentLength : Option Nat) (code : ErrorCode) {limit : Nat}
    (isOpen : (c.streams.openPeer id).2 = .ok ()) (cause : P.Requests c id endStream headers)
    (fits : defaultMaxFrameSize ≤ limit) :
    StreamMove P c id (((c.openRequest now id endStream limit).declare id contentLength).writeRst
      now id code limit)
  | dispatched (now : Instant) {id : StreamId} {headers : List Header} {head : RequestHead}
    {endStream : Bool} (contentLength : Option Nat) {limit : Nat}
    (isOpen : (c.streams.openPeer id).2 = .ok ()) (cause : P.Requests c id endStream headers)
    (valid : RequestHead.fromHeaders headers = .ok head) (served : servable headers endStream)
    (fits : defaultMaxFrameSize ≤ limit) (declared : head.contentLength = contentLength.map .ok) :
    StreamMove P c id (let c' := (c.openRequest now id endStream limit).declare id contentLength
      c'.call (.dispatch id head endStream) (Service.dispatch now id head endStream c'.service))
  /-- A local answer to a stream opened for it. -/
  | answered (now : Instant) {id : StreamId} (status : Nat) (enc : HpackEncoder) {limit : Nat}
    (isOpen : (c.streams.openPeer id).2 = .ok ()) (cause : P.Answers c id)
    (fits : defaultMaxFrameSize ≤ limit) :
    StreamMove P c id ((c.openRequest now id true limit).respond now id (.ofStatus status) true enc
      limit)
  /-- A second header block that is no trailer section of its request. -/
  | mistrailed (now : Instant) {id : StreamId} {headers : List Header} {endStream : Bool}
    {stream : Stream} (code : ErrorCode) {limit : Nat}
    (permit : P.block c id endStream (.ok headers)) (live : c.streams.get? id = some stream)
    (bad : stream.state.peerCanSend = false ∨ endStream = false ∨
      validateTrailers headers = .error code ∨ stream.contentLengthMatches = false)
    (fits : defaultMaxFrameSize ≤ limit) : StreamMove P c id (c.writeRst now id code limit)
  /-- The trailers of a request. -/
  | trailered (now : Instant) {id : StreamId} {headers : List Header} {stream : Stream}
    {limit : Nat} (permit : P.block c id true (.ok headers))
    (live : c.streams.get? id = some stream)
    (canSend : stream.state.peerCanSend) (fits : defaultMaxFrameSize ≤ limit)
    (whole : stream.contentLengthMatches) :
    StreamMove P c id ((c.call (.trailers id headers)
      (Service.trailers now id headers c.service)).settle now id (.recvHeaders true) limit)
  /-- DATA on a live stream. -/
  | delivered (now : Instant) {w : WireFrame} {id : StreamId} {data : Bytes} {endStream : Bool}
    {stream : Stream} {window recvWindow : RecvWindow} {limit : Nat}
    (permit : P.frame c w) (frame : w.data? = some (id, data, endStream))
    (live : c.streams.get? id = some stream)
    (conn : c.connRecvWindow.record data.length = .ok window)
    (within : stream.recvWindow.record data.length = .ok recvWindow)
    (whole : endStream → { stream with
      dataReceived := satAdd64 stream.dataReceived data.length }.contentLengthMatches)
    (fits : defaultMaxFrameSize ≤ limit) :
    StreamMove P c id ((c.receive w id data.length window (some recvWindow)).deliver now id data
      endStream limit)
  /-- DATA that ends a body at another length than was declared. -/
  | mismatched (now : Instant) {w : WireFrame} {id : StreamId} {data : Bytes}
    {stream : Stream} {window recvWindow : RecvWindow} (code : ErrorCode) {limit : Nat}
    (permit : P.frame c w) (frame : w.data? = some (id, data, true))
    (live : c.streams.get? id = some stream)
    (conn : c.connRecvWindow.record data.length = .ok window)
    (within : stream.recvWindow.record data.length = .ok recvWindow)
    (wrong : { stream with
      dataReceived := satAdd64 stream.dataReceived data.length }.contentLengthMatches = false)
    (fits : defaultMaxFrameSize ≤ limit) :
    StreamMove P c id ((c.receive w id data.length window (some recvWindow)).writeRst now id code
      limit)
  /-- DATA past the window of its stream counts for the connection and ends the stream. -/
  | overspent (now : Instant) {w : WireFrame} {id : StreamId} {data : Bytes}
    {endStream : Bool} {stream : Stream} {window : RecvWindow} {code : ErrorCode} {limit : Nat}
    (permit : P.frame c w) (frame : w.data? = some (id, data, endStream))
    (live : c.streams.get? id = some stream)
    (conn : c.connRecvWindow.record data.length = .ok window)
    (past : stream.recvWindow.record data.length = .error code)
    (fits : defaultMaxFrameSize ≤ limit) :
    StreamMove P c id ((c.receive w id data.length window none).writeRst now id code limit)
  /-- DATA on a stream that has closed. -/
  | late (now : Instant) {w : WireFrame} {id : StreamId} {data : Bytes} {endStream : Bool}
    {window : RecvWindow} {limit : Nat} (permit : P.frame c w)
    (frame : w.data? = some (id, data, endStream)) (gone : c.streams.lookup id = .closed)
    (conn : c.connRecvWindow.record data.length = .ok window)
    (fits : defaultMaxFrameSize ≤ limit) :
    StreamMove P c id (({ c.observe (.heard w) with connRecvWindow := window }.releaseConn
      data.length limit).writeRst now id .streamClosed limit)
  | credited {id : StreamId} {n : Nat} {stream : Stream} {limit : Nat}
    (permit : P.event c (.bodyAccepted id n)) (live : c.streams.get? id = some stream)
    (fits : defaultMaxFrameSize ≤ limit) :
    StreamMove P c id ((c.observe (.handled (.bodyAccepted id n))).credit id stream n limit)
  | responded (now : Instant) {id : StreamId} {response : Response} {endStream : Bool}
    {stream : Stream} (enc : HpackEncoder) {limit : Nat}
    (permit : P.event c (.head id response endStream)) (live : c.streams.get? id = some stream)
    (fits : defaultMaxFrameSize ≤ limit) :
    StreamMove P c id ((c.observe (.handled (.head id response endStream))).respond now id response
      endStream enc limit)
  /-- 502 or 503 in place of a response that has not started. -/
  | refused (now : Instant) {e : ServiceEvent} {stream : Stream} (status : Nat)
    (enc : HpackEncoder) {limit : Nat} (permit : P.event c e) (refusal : e.isRefusal)
    (live : c.streams.get? e.id = some stream) (started : stream.responseStarted = false)
    (fits : defaultMaxFrameSize ≤ limit) :
    StreamMove P c e.id ((c.observe (.handled e)).respond now e.id (.ofStatus status) true enc
      limit)
  /-- 431 on a stream that is live already. -/
  | oversized (now : Instant) {id : StreamId} {size max : Nat} {stream : Stream}
    {endStream : Bool} (enc : HpackEncoder) {limit : Nat}
    (permit : P.block c id endStream (.error (.headerListTooLarge size max)))
    (live : c.streams.get? id = some stream) (fits : defaultMaxFrameSize ≤ limit) :
    StreamMove P c id (c.respond now id (.ofStatus 431) true enc limit)
  | pushed {id : StreamId} {data : Bytes} {endStream : Bool} {stream : Stream}
    (permit : P.event c (.data id data endStream)) (live : c.streams.get? id = some stream) :
    StreamMove P c id ((c.observe (.handled (.data id data endStream))).modifyStream id fun s =>
      { s with
        sendQueue := if data ≠ [] then s.sendQueue ++ [data] else s.sendQueue
        sendEndStream := s.sendEndStream || endStream })
  | trailersDue (now : Instant) {id : StreamId} {fields : List Header} {stream : Stream}
    (enc : HpackEncoder) {limit : Nat} (permit : P.event c (.trailers id fields))
    (live : c.streams.get? id = some stream) (fits : defaultMaxFrameSize ≤ limit) :
    StreamMove P c id ((c.observe (.handled (.trailers id fields))).sendTrailers now id fields enc
      limit)
  | turned (now : Instant) {id : StreamId} {stream : Stream} {budget : Nat}
    (sendWindow : Window) (enc : HpackEncoder) {limit : Nat}
    (permit : P.turn c id (stream.turn budget)) (live : c.streams.get? id = some stream)
    (fits : defaultMaxFrameSize ≤ limit) (chunk : budget ≤ limit) :
    StreamMove P c id (c.takeTurn now id (stream.turn budget) sendWindow enc limit)

/-- One thing a connection does to its core. -/
inductive Move (P : Permit σ μ) : ConnCore σ μ → ConnCore σ μ → Prop
  | note {c} {o : ConnObs μ} (neutral : o.Neutral) : Move P c (c.observe o)
  | alike {c} {streams : StreamTable} (alike : c.streams.Alike streams) :
    Move P c { c with streams }
  | events {c} (events : List ServiceEvent) : Move P c { c with events }
  /-- The responder's look at an event. -/
  | intercepted {c} (now : Instant) (e : ServiceEvent) :
    Move P c (c.call (.intercept e) (Service.intercept now e c.service).1)
  /-- A drain begins with the GOAWAY that names no stream. -/
  | draining {c} {drain : Drain} {limit : Nat} (quiet : c.draining = none)
    (uncommitted : drain.committed = none) (fits : defaultMaxFrameSize ≤ limit) :
    Move P c ({ c with draining := some drain }.observe
      (.queued (.goAway (.new maxLocalStreamId) .noError []) [] limit))
  /-- A drain commits to the streams it has seen. -/
  | committed {c} {drain : Drain} {limit : Nat} (begun : c.draining = some drain)
    (uncommitted : drain.committed = none) (fits : defaultMaxFrameSize ≤ limit) :
    Move P c { c.observe (.queued (.goAway c.streams.highestPeerId .noError []) [] limit) with
      draining := some { drain with committed := some c.streams.highestPeerId } }
  | reclaimed {c} {limit : Nat} (fits : defaultMaxFrameSize ≤ limit) : Move P c (c.reclaim limit)
  | on {c c'} {id : StreamId} (move : StreamMove P c id c') : Move P c c'

/-- What is left of the core when an error ends the connection in the middle of a move. -/
inductive Fault (P : Permit σ μ) : ConnCore σ μ → ConnCore σ μ → Prop
  | none (c) : Fault P c c
  | heard {c} (w : WireFrame) : Fault P c (c.observe (.heard w))
  /-- DATA on an idle stream was counted against the connection window. -/
  | idleData {c} {w : WireFrame} {id : StreamId} {data : Bytes} {endStream : Bool}
    {window : RecvWindow} (frame : w.data? = some (id, data, endStream))
    (idle : c.streams.lookup id = .idle)
    (conn : c.connRecvWindow.record data.length = .ok window) :
    Fault P c { c.observe (.heard w) with connRecvWindow := window }
  /-- A stream was opened for what could not go on. -/
  | opened {c} (now : Instant) {id : StreamId} (endStream : Bool) {limit : Nat}
    (isOpen : (c.streams.openPeer id).2 = .ok ()) (cause : P.Opens c id)
    (fits : defaultMaxFrameSize ≤ limit) :
    Fault P c (c.openRequest now id endStream limit)
  /-- A stream was opened for an answer too long for any frame. -/
  | unanswerable {c} (now : Instant) {id : StreamId} (enc : HpackEncoder) (fields : List Header)
    {limit : Nat} (isOpen : (c.streams.openPeer id).2 = .ok ()) (cause : P.Answers c id)
    (fits : defaultMaxFrameSize ≤ limit) :
    Fault P c ((c.openRequest now id true limit).observe (.encoded enc fields limit))
  /-- DATA was counted on a stream that was idle, which no live stream is. -/
  | received {c} {w : WireFrame} {id : StreamId} {data : Bytes} {endStream : Bool}
    {stream : Stream} {window recvWindow : RecvWindow}
    (frame : w.data? = some (id, data, endStream)) (live : c.streams.get? id = some stream)
    (conn : c.connRecvWindow.record data.length = .ok window)
    (within : stream.recvWindow.record data.length = .ok recvWindow) :
    Fault P c (c.receive w id data.length window (some recvWindow))
  /-- The DATA of a visit went out on a stream that was idle, which no live stream is. -/
  | transmitted {c} (now : Instant) {id : StreamId} {stream : Stream} {budget : Nat}
    (sendWindow : Window) {limit : Nat} (permit : P.turn c id (stream.turn budget))
    (live : c.streams.get? id = some stream)
    (fits : defaultMaxFrameSize ≤ limit) (chunk : budget ≤ limit) :
    Fault P c (c.transmit now id (stream.turn budget) sendWindow limit)
  /-- The header block an event calls for was encoded, and is too long for any frame. -/
  | unencodableEvent {c} (e : ServiceEvent) (enc : HpackEncoder) (fields : List Header)
    (limit : Nat) : Fault P c ((c.observe (.handled e)).observe (.encoded enc fields limit))
  /-- The trailers of a visit were encoded, and are too long for any frame. -/
  | unencodable {c} (now : Instant) {id : StreamId} {stream : Stream} {budget : Nat}
    (sendWindow : Window) (enc : HpackEncoder) (fields : List Header) {limit : Nat}
    (permit : P.turn c id (stream.turn budget)) (live : c.streams.get? id = some stream)
    (fits : defaultMaxFrameSize ≤ limit) (chunk : budget ≤ limit) :
    Fault P c (((c.transmit now id (stream.turn budget) sendWindow limit).reportReleased now id
      (stream.turn budget).chunk.length).observe (.encoded enc fields limit))

abbrev Moves (P : Permit σ μ) : ConnCore σ μ → ConnCore σ μ → Prop :=
  Relation.ReflTransGen (Move P)

end Moves

end H2Proxy
