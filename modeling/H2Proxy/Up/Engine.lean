import H2Proxy.Up.State

/-
  What an upstream connection does (`UpstreamConnection` in `core/src/upstream.rs`),
  function by function under the source's names. An error leaves the state as it was when it
  arose, as `?` does.

  Forgetting a stream starts queued requests, and starting one can in principle forget a
  stream. The functions of that circle come first with a suffix `With` and take what drains
  the queue as an argument; `drainPending` closes the circle by recursion on the queue.
-/

namespace H2Proxy

abbrev UpM := EStateM ConnectionError Upstream

namespace Upstream

/-! ## Plumbing -/

def withCore (s : Upstream) (c : UpstreamCore) : Upstream := { s with toUpstreamCore := c }

def onCore (f : UpstreamCore → UpstreamCore) : UpM Unit :=
  modify fun s => s.withCore (f s.toUpstreamCore)

def fail {α : Type} (code : ErrorCode) (debug : String) : UpM α := throw ⟨code, debug⟩

/-- `let _ = ..`: what a program did before it failed stays done. -/
def ignore (x : UpM Unit) : UpM Unit := fun s =>
  match x s with
  | .ok _ s | .error _ s => .ok () s

/-- Send a client an event. -/
def tell (request : RequestId) (events : Events) (event : ServiceEvent) : UpM Unit :=
  onCore (.observe (.told request events event))

/-- `queue_frame`, with the field list of the frame's block where it has one. -/
def queueFields (frame : Frame) (fields : List Header) : UpM Unit :=
  match frame.write with
  | .error e => fail .internalError s!"could not encode {frame.kind.debug}: {e.text}"
  | .ok octets => do
    let s ← get
    onCore (.observe (.queued frame fields s.peerSettings.maxFrameSize))
    modify fun s => { s with out := s.out + octets.length }

def queueFrame (frame : Frame) : UpM Unit := queueFields frame []

/-- Encode a field list and queue it as one HEADERS frame. -/
def queueHeaders (id : StreamId) (fields : List Header) (endStream : Bool) : UpM Unit := do
  let s ← get
  onCore (.observe (.encoded s.hpackEnc fields s.peerSettings.maxFrameSize))
  let (hpackEnc, block) := s.hpackEnc.encode fields
  modify fun s => { s with hpackEnc }
  queueFields (.headers id block endStream true) fields

/-- Take a stream out of the scheduler's ring. -/
def unready (id : StreamId) : UpM Unit :=
  modify fun s => { s with ready := s.ready.filter (· ≠ id) }

def enqueueReady (id : StreamId) : UpM Unit := do
  match (← get).streams.get? id with
  | none => pure ()
  | some stream =>
    if stream.queued || !stream.hasPendingSend then pure ()
    else
      onCore (.modifyStream id ({ · with queued := true }))
      modify fun s => { s with ready := s.ready ++ [id] }

/-- Publish how many requests wait. -/
def syncQueued : UpM Unit :=
  onCore fun c => { c with published := { c.published with queued := c.pending.length } }

/-! ## Credit -/

/-- Return credit to the connection window, announcing it once enough has gathered. -/
def releaseConnWindow (len : Nat) : UpM Unit := do
  let (connRecvWindow, increment) := (← get).connRecvWindow.release len
  onCore ({ · with connRecvWindow })
  match increment with
  | some increment => queueFrame (.windowUpdate .connection increment)
  | none => pure ()

/-- The stream half of `release`. -/
def releaseStream (id : StreamId) (n : Nat) : UpM Unit := do
  match (← get).streams.get? id with
  | some stream =>
    let (recvWindow, increment) := stream.recvWindow.release n
    onCore (.modifyStream id ({ · with recvWindow }))
    match increment with
    | some increment => queueFrame (.windowUpdate id increment)
    | none => pure ()
  | none => pure ()

/-- The client released `n` octets of a stream. -/
def release (id : StreamId) (n : Nat) : UpM Unit :=
  if n = 0 then pure ()
  else do
    onCore (.modifyRoute id fun r => { r with pendingConnRelease := r.pendingConnRelease - n })
    releaseStream id n
    releaseConnWindow n

/-! ## Ending and starting streams -/

/-- Reset a stream on the wire. Its route is left to whoever asked. -/
def writeRstStream (id : StreamId) (code : ErrorCode) : UpM Unit := do
  onCore (.retire id)
  unready id
  queueFrame (.rstStream id code)

/-- Drop every trace of a stream, return the credit its client held, start what waits. -/
def forgetWith (drain : UpM Unit) (id : StreamId) : UpM Unit := do
  onCore (.retire id)
  unready id
  match (← get).routes.lookup id with
  | some route =>
    onCore fun c =>
      { c with routes := c.routes.erase id, requests := c.requests.erase route.request }
    if route.pendingConnRelease > 0 then ignore (releaseConnWindow route.pendingConnRelease)
    else pure ()
  | none => pure ()
  ignore drain

/-- Answer a stream ourselves, or reset it where its head is out, and drop it. -/
def failStreamWith (drain : UpM Unit) (id : StreamId) (status : Nat) : UpM Unit := do
  match (← get).routes.lookup id with
  | some route =>
    tell route.request route.events
      (if route.headSent then .reset route.clientId .internalError
      else .head route.clientId (.ofStatus status) true)
  | none => pure ()
  if ((← get).streams.get? id).isSome then writeRstStream id .cancel else pure ()
  forgetWith drain id

def applyStreamEventWith (drain : UpM Unit) (id : StreamId) (event : StreamEvent) : UpM Unit := do
  let (streams, result) := (← get).streams.apply id event
  onCore fun c => { c with streams }
  match result with
  | .ok state => if state.isClosed then unready id else pure ()
  | .error e =>
    if e.code = .protocolError then
      fail .protocolError s!"frame for upstream stream {id.get}, which is idle"
    else failStreamWith drain id 502

def sendRequestWith (drain : UpM Unit) (request : RequestId) (clientId : StreamId)
    (head : RequestHead) (endStream : Bool) (events : Events) : UpM Unit := do
  let s ← get
  if request ∈ s.cancelled then
    onCore fun c => { c with cancelled := c.cancelled.filter (· ≠ request) }
  else if s.peerDraining.isSome then tell request events (.reset clientId .refusedStream)
  else if !s.streams.canOpenLocal then
    if s.pending.length ≥ s.maxPending then tell request events (.shed clientId)
    else
      onCore fun c =>
        { c with pending := c.pending ++ [⟨request, clientId, head, endStream, events, [], none⟩] }
      syncQueued
  else
    let id := StreamId.new s.nextStreamId
    let (streams, opened) := s.streams.openLocal id
    onCore fun c => { c with nextStreamId := satAdd32 c.nextStreamId 2, streams }
    match opened with
    | .error _ => tell request events (.reset clientId .refusedStream)
    | .ok () =>
      onCore fun c =>
        { c with
          routes := c.routes.insert id ⟨clientId, events, request, false, 0⟩
          requests := c.requests.insert request id }
      onCore (.observe (.opened id s.streams.liveCount))
      queueHeaders id head.toHeaders endStream
      applyStreamEventWith drain id (.sendHeaders endStream)

/-- Give a stream that was just opened what arrived while its request waited. -/
def sendWaiting (pending : Pending) (id : StreamId) : UpM Unit := do
  onCore (.modifyStream id fun s =>
    { s with
      sendQueue := s.sendQueue ++ (pending.body.map Prod.fst).filter (· ≠ [])
      sendEndStream :=
        s.sendEndStream || pending.body.any Prod.snd || pending.trailers.isSome
      pendingTrailers := pending.trailers.or s.pendingTrailers })
  enqueueReady id

/-- Start waiting requests while streams may be opened. Every round takes one off the queue
    and none is put on it, so its length is fuel enough. -/
def drainPendingFrom : Nat → UpM Unit
  | 0 => pure ()
  | fuel + 1 => do
    let s ← get
    if s.streams.canOpenLocal then
      match s.pending with
      | [] => syncQueued
      | p :: pending =>
        onCore ({ · with pending })
        syncQueued
        sendRequestWith (drainPendingFrom fuel) p.request p.clientId p.head p.endStream p.events
        match (← get).requests.lookup p.request with
        | some id => sendWaiting p id
        | none => pure ()
        drainPendingFrom fuel
    else pure ()

def drainPending : UpM Unit := do drainPendingFrom ((← get).pending.length + 1)

def forget (id : StreamId) : UpM Unit := forgetWith drainPending id

def failStream (id : StreamId) (status : Nat) : UpM Unit := failStreamWith drainPending id status

def applyStreamEvent (id : StreamId) (event : StreamEvent) : UpM Unit :=
  applyStreamEventWith drainPending id event

def sendRequest (request : RequestId) (clientId : StreamId) (head : RequestHead)
    (endStream : Bool) (events : Events) : UpM Unit :=
  sendRequestWith drainPending request clientId head endStream events

/-! ## Messages -/

def handleMessage (message : ToUpstream) : UpM Unit := do
  onCore (.observe (.took message))
  match message with
  | .request id clientId head endStream events => sendRequest id clientId head endStream events
  | .body request data endStream =>
    match (← get).requests.lookup request with
    | none => onCore (.modifyPending request fun p => { p with body := p.body ++ [(data, endStream)] })
    | some id =>
      onCore (.modifyStream id fun s =>
        { s with
          sendQueue := if data ≠ [] then s.sendQueue ++ [data] else s.sendQueue
          sendEndStream := s.sendEndStream || endStream })
      enqueueReady id
  | .trailers request fields =>
    match (← get).requests.lookup request with
    | none => onCore (.modifyPending request ({ · with trailers := some fields }))
    | some id =>
      onCore (.modifyStream id ({ · with pendingTrailers := some fields, sendEndStream := true }))
      enqueueReady id
  | .released request n =>
    match (← get).requests.lookup request with
    | some id => release id n
    | none => pure ()
  | .cancel request code =>
    match (← get).requests.lookup request with
    | none =>
      onCore fun c => { c with pending := c.pending.filter (·.request ≠ request) }
      syncQueued
      onCore fun c => { c with cancelled := c.cancelled.insert request }
    | some id =>
      if ((← get).streams.get? id).isSome then writeRstStream id code else pure ()
      forget id

/-! ## Frames -/

/-- Tell those who wait that they were refused. -/
def refusePending : List Pending → UpM Unit
  | [] => pure ()
  | p :: pending => do
    tell p.request p.events (.reset p.clientId .refusedStream)
    refusePending pending

/-- Give up streams the backend says it will not process. The source takes them in the
    order of a hash map, which is any order. -/
def abandon : List StreamId → UpM Unit
  | [] => pure ()
  | id :: ids => do
    match (← get).routes.lookup id with
    | some route => tell route.request route.events (.reset route.clientId .refusedStream)
    | none => pure ()
    forget id
    abandon ids

def beginPeerDrain (lastStreamId : StreamId) : UpM Unit := do
  let s ← get
  onCore fun c =>
    { c with
      published := { c.published with retired := true }
      peerDraining := some (lastStreamId, s.now + peerDrainDeadline)
      pending := [] }
  refusePending s.pending
  abandon (s.routes.keys.filter (lastStreamId < ·))

/-- Whether a drain is over: no stream is left, or no time. -/
def peerDrainComplete (s : Upstream) : Bool :=
  match s.peerDraining with
  | none => false
  | some (_, deadline) => s.routes.keys = [] || s.now ≥ deadline

/-- A field section on a stream that has a route. -/
def passSection (id : StreamId) (headers : List Header) (endStream : Bool) (route : Route) :
    UpM Unit := do
  if route.headSent then
    match validateTrailers headers with
    | .error _ => pure ()
    | .ok () => tell route.request route.events (.trailers route.clientId headers)
    applyStreamEvent id (.recvHeaders endStream)
    if endStream then forget id else pure ()
  else
    match ResponseHead.fromHeaders headers with
    | .error _ => failStream id 502
    | .ok head =>
      -- An informational response neither ends the stream nor is passed on.
      if head.isInformational then applyStreamEvent id (.recvHeaders false)
      else
        onCore (.modifyRoute id ({ · with headSent := true }))
        tell route.request route.events (.head route.clientId ⟨head.status, head.fields⟩ endStream)
        applyStreamEvent id (.recvHeaders endStream)
        if endStream then forget id else pure ()

def recvResponse (id : StreamId) (headers : List Header) (endStream : Bool) : UpM Unit := do
  let s ← get
  match s.streams.lookup id, s.routes.lookup id with
  | .idle, _ => fail .protocolError s!"HEADERS on stream {id.get}, which we never opened"
  | _, none => pure ()
  | _, some route => passSection id headers endStream route

def readHeaderBlock (id : StreamId) (fragment : Bytes) (endHeaders : Bool) : UpM Unit := do
  let block := (← get).headerBlock ++ fragment
  if block.length > maxHeaderBlockBytes then
    modify fun s => { s with headerBlock := [] }
    fail .enhanceYourCalm "backend header block too large"
  else if !endHeaders then modify fun s => { s with headerBlock := block }
  else
    modify fun s => { s with headerBlock := [] }
    let (hpackDec, result) := (← get).hpackDec.decode block
    modify fun s => { s with hpackDec }
    match result with
    | .ok headers => recvResponse id headers (← get).openHeaderEndStream
    | .error (.headerListTooLarge ..) => failStream id 502
    | .error e => throw e.toConnectionError

def recvData (id : StreamId) (data : Bytes) (endStream : Bool) : UpM Unit := do
  let len := data.length
  match (← get).connRecvWindow.record len with
  | .error code => fail code "backend exceeded the connection flow-control window"
  | .ok connRecvWindow =>
    onCore ({ · with connRecvWindow })
    match (← get).streams.lookup id with
    | .idle => fail .protocolError s!"DATA on stream {id.get}, which we never opened"
    | .closed => releaseConnWindow len
    | .live stream =>
      match stream.recvWindow.record len with
      | .error _ =>
        writeRstStream id .flowControlError
        failStream id 502
      | .ok recvWindow =>
        onCore (.modifyStream id ({ · with recvWindow }))
        match (← get).routes.lookup id with
        | some route =>
          onCore (.modifyRoute id fun r =>
            { r with pendingConnRelease := satAdd32 r.pendingConnRelease len })
          tell route.request route.events (.data route.clientId data endStream)
        | none => pure ()
        applyStreamEvent id (.recvData endStream)
        if endStream then forget id else pure ()

def recvWindowUpdate (id : StreamId) (increment : Nat) : UpM Unit := do
  if increment = 0 then
    if id.isConnection then
      fail .protocolError "WINDOW_UPDATE with a zero increment on stream 0"
    else writeRstStream id .protocolError
  else if id.isConnection then
    match (← get).connSendWindow.increase increment with
    | .error code => fail code "WINDOW_UPDATE overflows the connection window"
    | .ok connSendWindow => modify fun s => { s with connSendWindow }
  else
    match (← get).streams.lookup id with
    | .idle => fail .protocolError s!"WINDOW_UPDATE on stream {id.get}, which we never opened"
    | .closed => pure ()
    | .live stream =>
      match stream.sendWindow.increase increment with
      | .error _ => writeRstStream id .flowControlError
      | .ok sendWindow =>
        onCore (.modifyStream id ({ · with sendWindow }))
        enqueueReady id

def recvRstStream (id : StreamId) (code : ErrorCode) : UpM Unit := do
  match (← get).routes.lookup id with
  | some route => tell route.request route.events (.reset route.clientId code)
  | none => pure ()
  forget id

def recvSettings (params : List (UInt16 × UInt32)) : UpM Unit := do
  let previousWindow := (← get).peerSettings.initialWindowSize
  let (peerSettings, applied) := (← get).peerSettings.apply params
  modify fun s => { s with peerSettings }
  match applied with
  | .error e => throw e
  | .ok () =>
    modify fun s => { s with hpackEnc := s.hpackEnc.setMaxTableSize peerSettings.headerTableSize }
    match peerSettings.maxConcurrentStreams with
    | some max =>
      onCore fun c =>
        { c with
          streams := { c.streams with maxConcurrent := max }
          published := { c.published with maxConcurrent := some max } }
    | none => pure ()
    let delta : Int := peerSettings.initialWindowSize - previousWindow
    if delta ≠ 0 then
      let (streams, shifted) := (← get).streams.applyInitialWindowDelta delta
      onCore ({ · with streams })
      match shifted with
      | .error code => fail code "INITIAL_WINDOW_SIZE change overflows"
      | .ok () => queueFrame (.settings true [])
    else queueFrame (.settings true [])

/-- The frame that may not come between the frames of a header block, and why. -/
def headerBlockError (s : Upstream) (frame : Frame) : Option ConnectionError :=
  match s.openHeaderBlock with
  | some open_ =>
    if frame.kind = .continuation && frame.streamId = open_ then none
    else some ⟨.protocolError,
      s!"expected CONTINUATION on stream {open_.get}, got {frame.kind.debug}"⟩
  | none =>
    if frame.kind = .continuation then
      some ⟨.protocolError, "CONTINUATION with no header block open"⟩
    else none

def handleFrame (frame : Frame) : UpM Unit := do
  let s ← get
  match s.headerBlockError frame with
  | some e => throw e
  | none =>
    match frame with
    | .settings ack params => if ack then pure () else recvSettings params
    | .ping data ack =>
      if !ack then queueFrame (.ping data true)
      else if s.probe.enabled then modify fun s => { s with probe := (s.probe.acked data s.now).1 }
      else pure ()
    | .goAway lastStreamId _ _ => beginPeerDrain lastStreamId
    | .windowUpdate id increment => recvWindowUpdate id increment
    | .headers id block endStream endHeaders =>
      modify fun s => { s with openHeaderEndStream := endStream }
      readHeaderBlock id block endHeaders
      modify fun s => { s with openHeaderBlock := if endHeaders then none else some id }
    | .continuation id block endHeaders =>
      readHeaderBlock id block endHeaders
      modify fun s => { s with openHeaderBlock := if endHeaders then none else some id }
    | .data id data endStream => recvData id data endStream
    | .rstStream id code => recvRstStream id code

def rejectIfMidHeaderBlock (kind : FrameType) (id : StreamId) : UpM Unit := do
  match (← get).openHeaderBlock with
  | some open_ =>
    fail .protocolError
      s!"expected CONTINUATION on stream {open_.get}, got {kind.debug} on stream {id.get}"
  | none => pure ()

/-- A whole frame off the read buffer: decoded and handled, or ignored. -/
def recvWire (w : WireFrame) : UpM Unit := do
  onCore (.observe (.heard w))
  let s ← get
  if w.header.length > s.localSettings.maxFrameSize then
    let e := FrameError.oversized w.header.length s.localSettings.maxFrameSize
    fail e.code e.text
  else
    match w.decode with
    | .error e => fail e.code e.text
    | .ok (.ignored kind id) => rejectIfMidHeaderBlock kind id
    | .ok (.frame frame) => handleFrame frame

/-! ## The scheduler -/

/-- Deduct the chunk of a visit from both send windows. -/
def spend (id : StreamId) (stream : Stream) (len : Nat) : UpM Unit := do
  if len > 0 then
    match stream.sendWindow.consume len with
    | .error code => fail code "overspent an upstream stream window"
    | .ok sendWindow =>
      onCore (.modifyStream id ({ · with sendWindow }))
      match (← get).connSendWindow.consume len with
      | .error code => fail code "overspent the upstream connection window"
      | .ok connSendWindow => modify fun s => { s with connSendWindow }
  else pure ()

/-- The DATA frame of a visit, where it has octets or END_STREAM. -/
def transmit (id : StreamId) (turn : Stream.Turn) : UpM Unit := do
  if turn.chunk.length > 0 || turn.endStream then
    queueFrame (.data id turn.chunk turn.endStream)
    applyStreamEvent id (.sendData turn.endStream)
  else pure ()

/-- Tell the client how much of its body was written. -/
def reportAccepted (id : StreamId) (len : Nat) : UpM Unit := do
  match (← get).routes.lookup id with
  | some route =>
    if len > 0 then tell route.request route.events (.bodyAccepted route.clientId len) else pure ()
  | none => pure ()

/-- The trailer section that ends a request. -/
def transmitTrailers (id : StreamId) (fields : List Header) : UpM Unit := do
  queueHeaders id fields true
  applyStreamEvent id (.sendHeaders true)

/-- The ceilings on one write: the fair share, both send windows, the peer's frame size. -/
def budget (s : Upstream) (stream : Stream) : Nat :=
  min (min (min sendBudget stream.sendWindow.sendable) s.connSendWindow.sendable)
    s.peerSettings.maxFrameSize

/-- Put at most one DATA frame of a stream on the wire, and what must follow it. `none` says
    that the stream has to wait, else whether it has more to send. -/
def visitReadyStream (id : StreamId) : UpM (Option Bool) := do
  let s ← get
  match s.streams.get? id with
  | none => pure (some false)
  | some stream =>
    let budget := s.budget stream
    if stream.pendingSend > 0 && budget = 0 then
      onCore (.modifyStream id ({ · with queued := false }))
      pure none
    else
      let turn := stream.turn budget
      onCore (.modifyStream id fun _ => turn.rest)
      if turn.chunk = [] && !turn.endStream && turn.trailers.isNone then pure (some false)
      else
        spend id stream turn.chunk.length
        transmit id turn
        reportAccepted id turn.chunk.length
        match turn.trailers with
        | some fields => transmitTrailers id fields
        | none => pure ()
        pure (some (((← get).streams.get? id).any Stream.hasPendingSend))

/-- Visit a lap's streams in order: those that stalled, those with more, whether any did not
    stall. -/
def visitLap : List StreamId → UpM (List StreamId × List StreamId × Bool)
  | [] => pure ([], [], false)
  | id :: lap => do
    let visit ← visitReadyStream id
    let (stalled, served, wrote) ← visitLap lap
    pure (match visit with
      | none => (id :: stalled, served, wrote)
      | some more => (stalled, if more then id :: served else served, true))

/-- Mark a lap's remaining streams as queued again. -/
def requeue : List StreamId → UpM Unit
  | [] => pure ()
  | id :: ids => do
    onCore (.modifyStream id ({ · with queued := true }))
    requeue ids

/-- One lap of the ring; whether anything moved. What is put on the ring on the way is lost. -/
def pumpLap : UpM Bool := do
  let s ← get
  modify fun s => { s with ready := [] }
  let (stalled, served, wrote) ← visitLap s.ready
  requeue (stalled ++ served)
  modify fun s =>
    { s with ready := (stalled ++ served).filter fun id => (s.streams.get? id).isSome }
  pure wrote

/-- Laps of the ring until nothing is ready, nothing moves or enough is waiting. -/
def pumpLaps : Nat → UpM Unit
  | 0 => pure ()
  | fuel + 1 => do
    let s ← get
    if s.ready = [] || s.out ≥ maxWriteQueue then pure ()
    else if ← pumpLap then pumpLaps fuel
    else pure ()

/-- Octets, chunks and endings waiting on the ring, and its length: every lap that goes on
    uses up one of them. -/
def pumpFuel (s : Upstream) : Nat :=
  (s.ready.map fun id =>
    match s.streams.get? id with
    | some st => st.pendingSend + st.sendQueue.length + 3
    | none => 1).sum + 1

def pumpOutbound : UpM Unit := do pumpLaps (pumpFuel (← get))

/-! ## Timers and the end -/

def probeTimer : UpM Next := do
  let s ← get
  let (probe, action) := s.probe.due s.now
  modify fun s => { s with probe }
  match action with
  | .nothing => pure .continue_
  | .send nonce =>
    queueFrame (.ping nonce false)
    pure .continue_
  | .expired =>
    modify fun s => { s with probeTimedOut := true }
    onCore fun c => { c with published := { c.published with retired := true } }
    pure .close

/-- What the client of a stream is told when the connection ends. -/
def Route.lastWord (route : Route) : ServiceEvent :=
  if route.headSent then .reset route.clientId .internalError else .gone route.clientId

/-- Tell everyone who waits, on a stream or for one, that the connection is gone. -/
def failAllRoutes (s : Upstream) : Upstream :=
  s.withCore
    { s.toUpstreamCore with
      requests := ∅
      pending := []
      routes := ∅
      log := s.log ++ s.pending.map (fun p => .told p.request p.events (.gone p.clientId)) ++
        s.routes.entries.map fun r => .told r.2.request r.2.events r.2.lastWord }

end Upstream

end H2Proxy
