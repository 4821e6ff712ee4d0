import H2Proxy.Conn.State

/-
  What a client connection does (`Connection` in `core/src/conn.rs`), function by function
  under the source's names. An error leaves the state as it was when it arose, as `?` does.

  The summary counters of the source are left out: nothing reads them.
-/

namespace H2Proxy

abbrev ConnM (σ μ : Type) := EStateM ConnectionError (Conn σ μ)

/-- What a visit to a ready stream did. -/
inductive Visit
  | stalled
  | wrote (more : Bool)
  | finished
deriving DecidableEq

namespace Conn

variable {σ μ : Type}

/-! ## Plumbing -/

def withCore (s : Conn σ μ) (c : ConnCore σ μ) : Conn σ μ := { s with toConnCore := c }

def onCore (f : ConnCore σ μ → ConnCore σ μ) : ConnM σ μ Unit :=
  modify fun s => s.withCore (f s.toConnCore)

def fail {α : Type} (code : ErrorCode) (debug : String) : ConnM σ μ α := throw ⟨code, debug⟩

/-- `queue_frame`, with the field list of the frame's block where it has one. -/
def queueFields (frame : Frame) (fields : List Header) : ConnM σ μ Unit :=
  match frame.write with
  | .error e => fail .internalError s!"could not encode {frame.kind.debug}: {e.text}"
  | .ok octets => do
    let s ← get
    onCore (.observe (.queued frame fields s.peerSettings.maxFrameSize))
    modify fun s => { s with out := s.out + octets.length }

def queueFrame (frame : Frame) : ConnM σ μ Unit := queueFields frame []

/-- Encode a field list and queue it as one HEADERS frame. -/
def queueHeaders (id : StreamId) (fields : List Header) (endStream : Bool) : ConnM σ μ Unit := do
  let s ← get
  onCore (.observe (.encoded s.hpackEnc fields s.peerSettings.maxFrameSize))
  let (hpackEnc, block) := s.hpackEnc.encode fields
  modify fun s => { s with hpackEnc }
  queueFields (.headers id block endStream true) fields

def check (verdict : Verdict) : ConnM σ μ Unit :=
  match verdict with
  | .ok => pure ()
  | .trip signal => fail .enhanceYourCalm s!"abuse guard tripped: {signal.asStr}"

/-- Run a method of the guard and judge its verdict. -/
def guarded (f : Guard → Guard × Verdict) : ConnM σ μ Unit := do
  let (guard, verdict) := f (← get).guard
  modify fun s => { s with guard }
  check verdict

/-- Take a stream out of the scheduler's ring. -/
def unready (id : StreamId) : ConnM σ μ Unit :=
  modify fun s => { s with ready := s.ready.filter (· ≠ id) }

def enqueueReady (id : StreamId) : ConnM σ μ Unit := do
  match (← get).streams.get? id with
  | none => pure ()
  | some stream =>
    if stream.queued || !stream.hasPendingSend then pure ()
    else
      onCore (.modifyStream id ({ · with queued := true }))
      modify fun s => { s with ready := s.ready ++ [id] }

/-! ## Credit -/

/-- Return credit to the connection window, announcing it once enough has gathered. -/
def releaseConnWindow (len : Nat) : ConnM σ μ Unit := do
  let (connRecvWindow, increment) := (← get).connRecvWindow.release len
  onCore ({ · with connRecvWindow })
  match increment with
  | some increment => queueFrame (.windowUpdate .connection increment)
  | none => pure ()

/-- Return the credit of retired streams. -/
def drainReclaimed : ConnM σ μ Unit := do
  let reclaimed := (← get).streams.reclaimed
  onCore fun c => { c with streams := { c.streams with reclaimed := 0 } }
  if reclaimed = 0 then pure () else releaseConnWindow reclaimed

def releaseRecvWindow (id : StreamId) (n : Nat) : ConnM σ μ Unit :=
  if n = 0 then pure ()
  else do
    match (← get).streams.get? id with
    | some stream =>
      let (recvWindow, increment) := stream.recvWindow.release n
      onCore (.modifyStream id fun s =>
        { s with recvWindow, pendingConnRelease := s.pendingConnRelease - n })
      match increment with
      | some increment => queueFrame (.windowUpdate id increment)
      | none => pure ()
      releaseConnWindow n
    | none => pure ()
    drainReclaimed

/-! ## Ending a stream -/

section Service

variable [Service σ μ]

/-- Retire a stream and tell the responder that it was abandoned. -/
def abandon (id : StreamId) (code : ErrorCode) : ConnM σ μ Unit := do
  let s ← get
  onCore fun c => { c with streams := c.streams.retire id }
  unready id
  onCore (.call (.cancel id code) (Service.cancel s.now id code s.service))

def writeRstStream (id : StreamId) (code : ErrorCode) : ConnM σ μ Unit := do
  abandon id code
  drainReclaimed
  queueFrame (.rstStream id code)

def applyStreamEvent (id : StreamId) (event : StreamEvent) (what : String) : ConnM σ μ Unit := do
  let (streams, result) := (← get).streams.apply id event
  onCore ({ · with streams })
  match result with
  | .ok state =>
    if state.isClosed then
      unready id
      let s ← get
      onCore (.call (.finish id) (Service.finish s.now id s.service))
      drainReclaimed
    else pure ()
  | .error e =>
    if e.code = .protocolError then
      fail .protocolError s!"{what} on stream {id.get}, which is idle"
    else
      onCore fun c =>
        { c with streams := c.streams.retire id, pendingReset := c.pendingReset ++ [e] }
      unready id

/-! ## Responses -/

def sendResponse (id : StreamId) (response : Response) (endStream : Bool) : ConnM σ μ Unit := do
  queueHeaders id response.toHeaders endStream
  onCore (.modifyStream id ({ · with responseStarted := true }))
  applyStreamEvent id (.sendHeaders endStream) "response"

def sendTrailers (id : StreamId) (fields : List Header) : ConnM σ μ Unit := do
  match validateTrailers fields with
  | .error _ =>
    onCore (.modifyStream id ({ · with sendEndStream := true }))
    enqueueReady id
  | .ok () =>
    -- Behind a body that has not drained, they wait for it.
    if ((← get).streams.get? id).any Stream.hasPendingSend then
      onCore (.modifyStream id ({ · with pendingTrailers := some fields, sendEndStream := true }))
      enqueueReady id
    else
      queueHeaders id fields true
      applyStreamEvent id (.sendHeaders true) "trailers"

/-- What an oversized header block leaves of a stream id that is not live. -/
def openRejected (id : StreamId) : ConnM σ μ (Except OpenRejection Unit) := do
  let (streams, opened) := (← get).streams.openPeer id
  onCore ({ · with streams })
  match opened with
  | .ok () => onCore (.observe (.opened id))
  | .error _ => pure ()
  pure opened

/-- Answer a stream locally, opening it first where it is not live. -/
def rejectStream (id : StreamId) (status : Nat) : ConnM σ μ Unit := do
  if ((← get).streams.get? id).isSome then
    sendResponse id (.ofStatus status) true
  else
    match ← openRejected id with
    | .error (.protocol why) => fail .protocolError s!"stream {id.get}: {why}"
    | .error .refused => writeRstStream id .refusedStream
    | .ok () =>
      applyStreamEvent id (.recvHeaders true) "oversized request"
      sendResponse id (.ofStatus status) true

/-! ## Events -/

/-- `Gone` and `Shed`: a reset where a response has started, else the status. -/
def refuseRequest (id : StreamId) (status : Nat) : ConnM σ μ Unit := do
  if ((← get).streams.get? id).any (·.responseStarted) then writeRstStream id .internalError
  else rejectStream id status

/-- Act on an event the responder has handed on. -/
def actOn (event : ServiceEvent) : ConnM σ μ Unit := do
  match event with
  | .head id response endStream =>
    if ((← get).streams.get? id).isSome then sendResponse id response endStream
    else pure ()
  | .data id data endStream =>
    if ((← get).streams.get? id).isSome then
      onCore (.modifyStream id fun s =>
        { s with
          sendQueue := if data ≠ [] then s.sendQueue ++ [data] else s.sendQueue
          sendEndStream := s.sendEndStream || endStream })
      enqueueReady id
    else pure ()
  | .trailers id fields =>
    if ((← get).streams.get? id).isSome then sendTrailers id fields
    else pure ()
  | .bodyAccepted id n => releaseRecvWindow id n
  | .gone id => refuseRequest id 502
  | .shed id => refuseRequest id 503
  | .reset id code =>
    if ((← get).streams.get? id).isSome then writeRstStream id code
    else pure ()

/-- Turn one event into frames, after the responder has had its look. -/
def handleServiceEvent (event : ServiceEvent) : ConnM σ μ Unit := do
  let s ← get
  let (r, event') := Service.intercept s.now event s.service
  onCore (.call (.intercept event) r)
  match event' with
  | none => pure ()
  | some event => do
    onCore (.observe (.handled event))
    actOn event

/-! ## Frames -/

/-- The error of a body whose length disagrees with `content-length`. -/
def requestBodyError (s : Conn σ μ) (id : StreamId) : Option ErrorCode :=
  match s.streams.get? id with
  | some stream => if stream.contentLengthMatches then none else some .protocolError
  | none => none

/-- A request whose declared length, where it declares one, is noted. -/
def dispatchNoted (id : StreamId) (request : RequestHead) (endStream : Bool) : ConnM σ μ Unit := do
  let s ← get
  match if endStream then requestBodyError s id else none with
  | some code => writeRstStream id code
  | none =>
    modify fun s => { s with lastStreamAt := s.now }
    onCore (.call (.dispatch id request endStream)
      (Service.dispatch s.now id request endStream s.service))

/-- The rest of a request whose stream has just been opened. -/
def dispatchRequest (id : StreamId) (headers : List Header) (endStream : Bool) :
    ConnM σ μ Unit := do
  match RequestHead.fromHeaders headers with
  | .error code => writeRstStream id code
  | .ok request =>
    match request.contentLength with
    | some (.error code) => writeRstStream id code
    | declared =>
      match declared with
      | some (.ok n) => onCore (.modifyStream id ({ · with contentLength := some n }))
      | _ => pure ()
      dispatchNoted id request endStream

/-- A second field section on a live stream: trailers, or a malformed message. -/
def recvTrailers (id : StreamId) (stream : Stream) (headers : List Header) (endStream : Bool) :
    ConnM σ μ Unit := do
  if !stream.state.peerCanSend then writeRstStream id .streamClosed
  else if !endStream then writeRstStream id .protocolError
  else
    match validateTrailers headers with
    | .error code => writeRstStream id code
    | .ok () =>
      let s ← get
      match requestBodyError s id with
      | some code => writeRstStream id code
      | none =>
        onCore (.call (.trailers id headers) (Service.trailers s.now id headers s.service))
        applyStreamEvent id (.recvHeaders endStream) "trailers"

def recvRequest (id : StreamId) (headers : List Header) (endStream : Bool) : ConnM σ μ Unit := do
  let s ← get
  match s.streams.lookup id with
  | .live stream => recvTrailers id stream headers endStream
  | .closed => fail .streamClosed s!"HEADERS on stream {id.get}, which is closed"
  | .idle =>
    if s.drainCommitted then writeRstStream id .refusedStream
    else
      match ← openRejected id with
      | .error (.protocol why) => fail .protocolError s!"stream {id.get}: {why}"
      | .error .refused => writeRstStream id .refusedStream
      | .ok () =>
        applyStreamEvent id (.recvHeaders endStream) "request"
        dispatchRequest id headers endStream

/-- Gather a header block; the whole block once END_HEADERS has arrived. -/
def gatherBlock (fragment : Bytes) (endHeaders : Bool) : ConnM σ μ (Option Bytes) := do
  let pending := (← get).headerBlock
  if pending.length + fragment.length > maxHeaderBlockBytes then
    modify fun s => { s with headerBlock := [] }
    fail .enhanceYourCalm
      s!"header block exceeds {maxHeaderBlockBytes} octets before END_HEADERS"
  else if endHeaders then
    modify fun s => { s with guard := s.guard.onHeaderBlockEnd, headerBlock := [] }
    pure (some (pending ++ fragment))
  else
    modify fun s => { s with headerBlock := pending ++ fragment }
    guarded Guard.onContinuation
    pure none

def readHeaderBlock (id : StreamId) (fragment : Bytes) (endHeaders : Bool) : ConnM σ μ Unit := do
  match ← gatherBlock fragment endHeaders with
  | none => pure ()
  | some block =>
    let (hpackDec, result) := (← get).hpackDec.decode block
    modify fun s => { s with hpackDec }
    match result with
    | .ok headers => recvRequest id headers (← get).openHeaderEndStream
    | .error (.headerListTooLarge ..) => rejectStream id 431
    | .error e => throw e.toConnectionError

def recvData (id : StreamId) (data : Bytes) (endStream : Bool) : ConnM σ μ Unit := do
  let len := data.length
  guarded (·.onData len endStream)
  match (← get).connRecvWindow.record len with
  | .error code => fail code "peer exceeded the connection flow-control window"
  | .ok connRecvWindow =>
    onCore ({ · with connRecvWindow })
    match (← get).streams.lookup id with
    | .idle => fail .protocolError s!"DATA on stream {id.get}, which was never opened"
    | .closed =>
      releaseConnWindow len
      writeRstStream id .streamClosed
    | .live stream =>
      let recorded := stream.recvWindow.record len
      onCore (.modifyStream id fun s =>
        { s with
          dataReceived := satAdd64 s.dataReceived len
          pendingConnRelease := satAdd32 s.pendingConnRelease len
          recvWindow := match recorded with
            | .ok recvWindow => recvWindow
            | .error _ => s.recvWindow })
      match recorded with
      | .error code => writeRstStream id code
      | .ok _ =>
        let s ← get
        match if endStream then requestBodyError s id else none with
        | some code => writeRstStream id code
        | none =>
          applyStreamEvent id (.recvData endStream) "data"
          if data ≠ [] || endStream then
            let s ← get
            onCore (.call (.body id data endStream)
              (Service.body s.now id data endStream s.service))
          else pure ()
          drainReclaimed

def recvRstStream (id : StreamId) (code : ErrorCode) : ConnM σ μ Unit := do
  match (← get).streams.lookup id with
  | .idle =>
    fail .protocolError s!"RST_STREAM on stream {id.get}, which was never opened"
  | .closed => pure ()
  | .live stream =>
    let now := (← get).now
    guarded (·.onReset stream.responseStarted now)
    abandon id code
    drainReclaimed

def recvWindowUpdate (id : StreamId) (increment : Nat) : ConnM σ μ Unit := do
  if increment = 0 then
    if id.isConnection then
      fail .protocolError "WINDOW_UPDATE with a zero increment on stream 0"
    else writeRstStream id .protocolError
  else if id.isConnection then
    match (← get).connSendWindow.increase increment with
    | .error code => fail code "WINDOW_UPDATE overflows the connection window"
    | .ok connSendWindow => modify fun s => { s with connSendWindow }
  else
    match (← get).streams.lookup id with
    | .idle =>
      fail .protocolError s!"WINDOW_UPDATE on stream {id.get}, which was never opened"
    | .closed => pure ()
    | .live stream =>
      match stream.sendWindow.increase increment with
      | .error _ => writeRstStream id .flowControlError
      | .ok sendWindow =>
        onCore (.modifyStream id ({ · with sendWindow }))
        enqueueReady id

def recvSettings (params : List (UInt16 × UInt32)) : ConnM σ μ Unit := do
  let previousWindow := (← get).peerSettings.initialWindowSize
  let (peerSettings, applied) := (← get).peerSettings.apply params
  modify fun s => { s with peerSettings }
  match applied with
  | .error e => throw e
  | .ok () =>
    modify fun s => { s with hpackEnc := s.hpackEnc.setMaxTableSize peerSettings.headerTableSize }
    let delta : Int := peerSettings.initialWindowSize - previousWindow
    if delta ≠ 0 then
      let (streams, shifted) := (← get).streams.applyInitialWindowDelta delta
      onCore ({ · with streams })
      match shifted with
      | .error code => fail code "INITIAL_WINDOW_SIZE change overflows a stream window"
      | .ok () => queueFrame (.settings true [])
    else queueFrame (.settings true [])

/-- Our SETTINGS were acknowledged; an advertised budget is enforced from here on. -/
def recvSettingsAck : ConnM σ μ Unit := do
  modify fun s => { s with outstandingSettings := s.outstandingSettings - 1 }
  let s ← get
  if s.outstandingSettings = 0 && s.admission && s.advertisedStreams ≠ s.enforcedStreams then
    modify fun s => { s with enforcedStreams := s.advertisedStreams }
    onCore fun c => { c with streams := { c.streams with maxConcurrent := s.advertisedStreams } }
  else pure ()

/-- The frame that may not come between the frames of a header block, and why. -/
def headerBlockError (s : Conn σ μ) (kind : FrameType) (id : StreamId) : Option ConnectionError :=
  match s.openHeaderBlock with
  | some open_ =>
    if kind = .continuation && id = open_ then none
    else some ⟨.protocolError,
      s!"expected CONTINUATION on stream {open_.get}, got {kind.debug} on stream {id.get}"⟩
  | none =>
    if kind = .continuation then
      some ⟨.protocolError, s!"CONTINUATION on stream {id.get} with no header block open"⟩
    else none

def handleFrame (frame : Frame) : ConnM σ μ Next := do
  let s ← get
  match s.headerBlockError frame.kind frame.streamId with
  | some e => throw e
  | none =>
    match frame with
    | .settings false params =>
      guarded (·.onControlFrame s.now)
      recvSettings params
      pure .continue_
    | .settings true _ =>
      guarded (·.onControlFrame s.now)
      recvSettingsAck
      pure .continue_
    | .ping data ack =>
      guarded (·.onControlFrame s.now)
      if ack then pure () else queueFrame (.ping data true)
      pure .continue_
    | .goAway .. => pure .close
    | .windowUpdate id increment =>
      recvWindowUpdate id increment
      pure .continue_
    | .headers id block endStream endHeaders =>
      modify fun s => { s with openHeaderEndStream := endStream }
      readHeaderBlock id block endHeaders
      modify fun s => { s with openHeaderBlock := if endHeaders then none else some id }
      pure .continue_
    | .continuation id block endHeaders =>
      readHeaderBlock id block endHeaders
      modify fun s => { s with openHeaderBlock := if endHeaders then none else some id }
      pure .continue_
    | .data id data endStream =>
      recvData id data endStream
      pure .continue_
    | .rstStream id code =>
      recvRstStream id code
      pure .continue_

/-- A whole frame off the read buffer: decoded and handled, or ignored. -/
def recvWire (w : WireFrame) : ConnM σ μ Next := do
  onCore (.observe (.heard w))
  let s ← get
  if w.header.length > s.localSettings.maxFrameSize then
    let e := FrameError.oversized w.header.length s.localSettings.maxFrameSize
    fail e.code e.text
  else
    match w.decode with
    | .error e => fail e.code e.text
    | .ok (.ignored kind id) =>
      -- CONTINUATION is never among the ignored kinds.
      match s.openHeaderBlock with
      | some _ =>
        match s.headerBlockError kind id with
        | some e => throw e
        | none => pure .continue_
      | none => pure .continue_
    | .ok (.frame frame) => handleFrame frame

/-! ## The scheduler -/

/-- Deduct the chunk of a visit from both send windows. -/
def spend (id : StreamId) (stream : Stream) (len : Nat) : ConnM σ μ Unit := do
  if len > 0 then
    match stream.sendWindow.consume len, (← get).connSendWindow.consume len with
    | .error code, _ => fail code "internal: overspent a stream window"
    | _, .error code => fail code "internal: overspent the connection window"
    | .ok sendWindow, .ok connSendWindow =>
      onCore (.modifyStream id ({ · with sendWindow }))
      modify fun s => { s with connSendWindow }
  else pure ()

/-- The DATA frame of a visit, where it has octets or END_STREAM. -/
def transmit (id : StreamId) (turn : Stream.Turn) : ConnM σ μ Unit := do
  if turn.chunk.length > 0 || turn.endStream then
    queueFrame (.data id turn.chunk turn.endStream)
    applyStreamEvent id (.sendData turn.endStream) "response data"
  else pure ()

/-- Tell the responder how much of its body was written. -/
def reportReleased (id : StreamId) (len : Nat) : ConnM σ μ Unit := do
  if len > 0 then
    let s ← get
    onCore (.call (.released id len) (Service.released s.now id len s.service))
  else pure ()

/-- The ceilings on one write: the fair share, both send windows, the peer's frame size. -/
def budget (s : Conn σ μ) (stream : Stream) : Nat :=
  min (min (min sendBudget stream.sendWindow.sendable) s.connSendWindow.sendable)
    s.peerSettings.maxFrameSize

/-- The turn a visit would take. -/
def turnOf (s : Conn σ μ) (id : StreamId) : Option Stream.Turn :=
  (s.streams.get? id).map fun stream => stream.turn (s.budget stream)

/-- Put at most one DATA frame of a stream on the wire, and what must follow it. -/
def visitReadyStream (id : StreamId) : ConnM σ μ Visit := do
  let s ← get
  match s.streams.get? id with
  | none => pure .finished
  | some stream =>
    let budget := s.budget stream
    if stream.pendingSend > 0 && budget = 0 then
      onCore (.modifyStream id ({ · with queued := false }))
      pure .stalled
    else
      let turn := stream.turn budget
      onCore (.modifyStream id fun _ => turn.rest)
      if turn.chunk = [] && !turn.endStream && turn.trailers.isNone then pure .finished
      else
        spend id stream turn.chunk.length
        transmit id turn
        reportReleased id turn.chunk.length
        match turn.trailers with
        | some fields => sendTrailers id fields
        | none => pure ()
        let s ← get
        pure (.wrote ((s.streams.get? id).any Stream.hasPendingSend))

/-- Visit a lap's streams in order: those that stalled, those with more, whether any wrote. -/
def visitLap : List StreamId → ConnM σ μ (List StreamId × List StreamId × Bool)
  | [] => pure ([], [], false)
  | id :: lap => do
    let visit ← visitReadyStream id
    let (stalled, served, wrote) ← visitLap lap
    pure (match visit with
      | .stalled => (id :: stalled, served, wrote)
      | .wrote more => (stalled, if more then id :: served else served, true)
      | .finished => (stalled, served, wrote))

/-- Mark a lap's remaining streams as queued again. -/
def requeue : List StreamId → ConnM σ μ Unit
  | [] => pure ()
  | id :: ids => do
    onCore (.modifyStream id ({ · with queued := true }))
    requeue ids

/-- One lap of the ring; whether anything was written. -/
def pumpLap : ConnM σ μ Bool := do
  let s ← get
  modify fun s => { s with ready := [] }
  let (stalled, served, wrote) ← visitLap s.ready
  requeue (stalled ++ served)
  modify fun s =>
    { s with ready := (stalled ++ served).filter fun id => (s.streams.get? id).isSome }
  pure wrote

/-- Laps of the ring until nothing is ready, nothing moves or enough is waiting. -/
def pumpLaps : Nat → ConnM σ μ Unit
  | 0 => pure ()
  | fuel + 1 => do
    let s ← get
    if s.ready = [] || s.out ≥ maxWriteQueue then pure ()
    else if ← pumpLap then pumpLaps fuel
    else pure ()

/-- Send the resets that illegal transitions left, newest first. The recursion is on a copy
    of the list: no reset is owed by sending one. -/
def flushPendingResets : List StreamError → ConnM σ μ Unit
  | [] => pure ()
  | e :: es => do
    onCore fun c => { c with pendingReset := c.pendingReset.dropLast }
    writeRstStream e.stream e.code
    flushPendingResets es

/-- Octets, chunks and endings waiting: every lap that goes on uses up one of them. -/
def pumpFuel (s : Conn σ μ) : Nat :=
  s.streams.live.total (fun st => st.pendingSend + st.sendQueue.length + 2) + 1

def pumpOutbound : ConnM σ μ Unit := do
  pumpLaps (pumpFuel (← get))
  flushPendingResets (← get).pendingReset.reverse

/-! ## Admission and drain -/

/-- Re-advertise `MAX_CONCURRENT_STREAMS` where the shared budget has changed. -/
def syncAdmission (budget : Nat) : ConnM σ μ Unit := do
  let s ← get
  if !s.admission || budget = s.advertisedStreams then pure ()
  else
    modify fun s =>
      { s with
        advertisedStreams := budget
        localSettings := { s.localSettings with maxConcurrentStreams := some budget }
        outstandingSettings := satAdd32 s.outstandingSettings 1 }
    if budget > s.enforcedStreams then
      modify fun s => { s with enforcedStreams := budget }
      onCore fun c => { c with streams := { c.streams with maxConcurrent := budget } }
    else pure ()
    queueFrame (.settings false [(SettingId.maxConcurrentStreams, UInt32.ofNat budget)])

def beginDrain : ConnM σ μ Unit := do
  let s ← get
  let quietFor := if s.streams.liveCount > 0 then 0 else s.now - s.lastStreamAt
  onCore ({ · with draining := some (Drain.begin s.drainPolicy s.now quietFor) })
  queueFrame (.goAway (.new maxLocalStreamId) .noError [])

/-- Commit a drain whose grace has passed; close once its streams or its time are done. -/
def advanceDrain (timerFired : Bool) : ConnM σ μ Next := do
  let s ← get
  match s.draining with
  | none => pure .continue_
  | some drain =>
    if drain.committed.isNone && (timerFired || s.now ≥ drain.commitAt) then
      queueFrame (.goAway s.streams.highestPeerId .noError [])
      onCore fun c =>
        { c with draining := some { drain with committed := some c.streams.highestPeerId } }
    else pure ()
    let s ← get
    if s.drainCommitted && (s.streams.liveCount = 0 || s.now ≥ drain.deadlineAt) then pure .close
    else pure .continue_

end Service

end Conn

end H2Proxy
