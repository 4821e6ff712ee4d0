import H2Proxy.HeaderBlock
import H2Proxy.Up.Run

/-
  What an upstream connection keeps between the frames of a header block. As on a client
  connection, only the reading of fragments looks at it: every other function does the same
  whatever is kept there, and keeps it.
-/

namespace H2Proxy

namespace Upstream

/-- What is kept of an open header block. -/
def block (s : Upstream) : Block := ⟨s.openHeaderBlock, s.openHeaderEndStream, s.headerBlock⟩

/-- The connection with this block, and with this before its log. -/
def put (b : Block) (l : List UpObs) (s : Upstream) : Upstream :=
  { s with
    openHeaderBlock := b.stream
    openHeaderEndStream := b.endStream
    headerBlock := b.buffer
    log := l ++ s.log }

variable {b : Block} {l : List UpObs}

theorem onCore_carries {f : UpstreamCore → UpstreamCore}
    (h : ∀ c : UpstreamCore, f { c with log := l ++ c.log } =
      { f c with log := l ++ (f c).log }) : Carries (put b l) (onCore f) := by
  refine .modify fun s => ?_
  show (put b l s).withCore (f { s.toUpstreamCore with log := l ++ s.log }) =
    put b l (s.withCore (f s.toUpstreamCore))
  rw [h]
  rfl

theorem observe_carries (o : UpObs) : Carries (put b l) (onCore (.observe o)) :=
  onCore_carries fun c => by
    show ({ c with log := l ++ c.log ++ [o] } : UpstreamCore) = { c with log := l ++ (c.log ++ [o]) }
    rw [List.append_assoc]

theorem ignore_carries {x : UpM Unit} (h : Carries (put b l) x) : Carries (put b l) (ignore x) := by
  constructor
  intro s
  unfold ignore
  rw [h.run s]
  cases x s with
  | ok u t => rfl
  | error e t => rfl

theorem tell_carries (request : RequestId) (events : Events) (event : ServiceEvent) :
    Carries (put b l) (tell request events event) := observe_carries _

theorem queueFields_carries (frame : Frame) (fields : List Header) :
    Carries (put b l) (queueFields frame fields) := by
  unfold queueFields
  cases frame.write with
  | error e => exact .throw _
  | ok octets =>
    exact .get (fun _ => rfl) fun s => .bind (observe_carries _) fun _ => .modify fun _ => rfl

theorem queueFrame_carries (frame : Frame) : Carries (put b l) (queueFrame frame) :=
  queueFields_carries frame []

theorem queueHeaders_carries (id : StreamId) (fields : List Header) (endStream : Bool) :
    Carries (put b l) (queueHeaders id fields endStream) := by
  unfold queueHeaders
  exact .get (fun _ => rfl) fun s => .bind (observe_carries _) fun _ =>
    .bind (.modify fun _ => rfl) fun _ => queueFields_carries ..

theorem unready_carries (id : StreamId) : Carries (put b l) (unready id) := .modify fun _ => rfl

theorem enqueueReady_carries (id : StreamId) : Carries (put b l) (enqueueReady id) := by
  unfold enqueueReady
  refine .get (fun _ => rfl) fun s => ?_
  cases s.streams.get? id with
  | none => exact .pure _
  | some stream =>
    exact .ite (.pure _) (.bind (onCore_carries fun _ => rfl) fun _ => .modify fun _ => rfl)

theorem syncQueued_carries : Carries (put b l) syncQueued := onCore_carries fun _ => rfl

/-! ## Credit -/

theorem releaseConnWindow_carries (len : Nat) : Carries (put b l) (releaseConnWindow len) := by
  unfold releaseConnWindow
  refine .get (fun _ => rfl) fun s => ?_
  dsimp only
  refine .bind (onCore_carries fun _ => rfl) fun _ => ?_
  cases (s.connRecvWindow.release len).2 with
  | none => exact .pure _
  | some increment => exact queueFrame_carries _

theorem releaseStream_carries (id : StreamId) (n : Nat) : Carries (put b l) (releaseStream id n) := by
  unfold releaseStream
  refine .get (fun _ => rfl) fun s => ?_
  cases s.streams.get? id with
  | none => exact .pure _
  | some stream =>
    dsimp only
    refine .bind (onCore_carries fun _ => rfl) fun _ => ?_
    cases (stream.recvWindow.release n).2 with
    | none => exact .pure _
    | some increment => exact queueFrame_carries _

theorem release_carries (id : StreamId) (n : Nat) : Carries (put b l) (release id n) :=
  .ite (.pure _) (.bind (onCore_carries fun _ => rfl) fun _ =>
    .bind (releaseStream_carries id n) fun _ => releaseConnWindow_carries n)

/-! ## Ending and starting streams -/

theorem writeRstStream_carries (id : StreamId) (code : ErrorCode) :
    Carries (put b l) (writeRstStream id code) :=
  .bind (onCore_carries fun _ => rfl) fun _ => .bind (unready_carries id) fun _ =>
    queueFrame_carries _

section Drain

variable {drain : UpM Unit}

theorem forgetWith_carries (h : Carries (put b l) drain) (id : StreamId) :
    Carries (put b l) (forgetWith drain id) := by
  unfold forgetWith
  refine .bind (onCore_carries fun _ => rfl) fun _ => .bind (unready_carries id) fun _ =>
    .get (fun _ => rfl) fun s => ?_
  cases s.routes.lookup id with
  | none => exact ignore_carries h
  | some route =>
    refine .bind (onCore_carries fun _ => rfl) fun _ => .ite ?_ ?_
    · exact .bind (ignore_carries (releaseConnWindow_carries _)) fun _ => ignore_carries h
    · exact ignore_carries h

theorem failStreamWith_carries (h : Carries (put b l) drain) (id : StreamId) (status : Nat) :
    Carries (put b l) (failStreamWith drain id status) := by
  have rest : Carries (put b l) (do
      if ((← get).streams.get? id).isSome then writeRstStream id .cancel else pure ()
      forgetWith drain id : UpM Unit) :=
    .get (fun _ => rfl) fun s => .ite
      (.bind (writeRstStream_carries id _) fun _ => forgetWith_carries h id)
      (forgetWith_carries h id)
  unfold failStreamWith
  refine .get (fun _ => rfl) fun s => ?_
  cases s.routes.lookup id with
  | none => exact rest
  | some route => exact .bind (tell_carries ..) fun _ => rest

theorem applyStreamEventWith_carries (h : Carries (put b l) drain) (id : StreamId)
    (event : StreamEvent) : Carries (put b l) (applyStreamEventWith drain id event) := by
  unfold applyStreamEventWith
  refine .get (fun _ => rfl) fun s => ?_
  dsimp only
  refine .bind (onCore_carries fun _ => rfl) fun _ => ?_
  cases (s.streams.apply id event).2 with
  | ok state => exact .ite (unready_carries id) (.pure _)
  | error e => exact .ite (.throw _) (failStreamWith_carries h id 502)

theorem sendRequestWith_carries (h : Carries (put b l) drain) (request : RequestId)
    (clientId : StreamId) (head : RequestHead) (endStream : Bool) (events : Events) :
    Carries (put b l) (sendRequestWith drain request clientId head endStream events) := by
  unfold sendRequestWith
  refine .get (fun _ => rfl) fun s => .ite (onCore_carries fun _ => rfl) (.ite (tell_carries ..) ?_)
  refine .ite (.ite (tell_carries ..) ?_) ?_
  · exact .bind (onCore_carries fun _ => rfl) fun _ => syncQueued_carries
  · dsimp only
    refine .bind (onCore_carries fun _ => rfl) fun _ => ?_
    cases (s.streams.openLocal (.new s.nextStreamId)).2 with
    | error e => exact tell_carries ..
    | ok u =>
      refine .bind (onCore_carries fun _ => rfl) fun _ => .bind (observe_carries _) fun _ => ?_
      exact .bind (queueHeaders_carries ..) fun _ => applyStreamEventWith_carries h _ _

end Drain

theorem sendWaiting_carries (pending : Pending) (id : StreamId) :
    Carries (put b l) (sendWaiting pending id) :=
  .bind (onCore_carries fun _ => rfl) fun _ => enqueueReady_carries id

theorem drainPendingFrom_carries (fuel : Nat) : Carries (put b l) (drainPendingFrom fuel) := by
  induction fuel with
  | zero => exact .pure _
  | succ fuel ih =>
    refine .get (fun _ => rfl) fun s => .ite ?_ (.pure _)
    cases s.pending with
    | nil => exact syncQueued_carries
    | cons p pending =>
      refine .bind (onCore_carries fun _ => rfl) fun _ => .bind syncQueued_carries fun _ =>
        .bind (sendRequestWith_carries ih ..) fun _ => .get (fun _ => rfl) fun t => ?_
      cases t.requests.lookup p.request with
      | none => exact ih
      | some id => exact .bind (sendWaiting_carries p id) fun _ => ih

theorem drainPending_carries : Carries (put b l) drainPending :=
  .get (fun _ => rfl) fun _ => drainPendingFrom_carries _

theorem forget_carries (id : StreamId) : Carries (put b l) (forget id) :=
  forgetWith_carries drainPending_carries id

theorem failStream_carries (id : StreamId) (status : Nat) :
    Carries (put b l) (failStream id status) := failStreamWith_carries drainPending_carries id status

theorem applyStreamEvent_carries (id : StreamId) (event : StreamEvent) :
    Carries (put b l) (applyStreamEvent id event) :=
  applyStreamEventWith_carries drainPending_carries id event

/-! ## Messages -/

theorem handleMessage_carries (m : ToUpstream) : Carries (put b l) (handleMessage m) := by
  unfold handleMessage
  refine .bind (observe_carries _) fun _ => ?_
  cases m with
  | request id clientId head endStream events =>
    exact sendRequestWith_carries drainPending_carries ..
  | body request data endStream =>
    refine .get (fun _ => rfl) fun s => ?_
    cases s.requests.lookup request with
    | none => exact onCore_carries fun _ => rfl
    | some id => exact .bind (onCore_carries fun _ => rfl) fun _ => enqueueReady_carries id
  | trailers request fields =>
    refine .get (fun _ => rfl) fun s => ?_
    cases s.requests.lookup request with
    | none => exact onCore_carries fun _ => rfl
    | some id => exact .bind (onCore_carries fun _ => rfl) fun _ => enqueueReady_carries id
  | released request n =>
    refine .get (fun _ => rfl) fun s => ?_
    cases s.requests.lookup request with
    | none => exact .pure _
    | some id => exact release_carries id n
  | cancel request code =>
    refine .get (fun _ => rfl) fun s => ?_
    cases s.requests.lookup request with
    | none =>
      exact .bind (onCore_carries fun _ => rfl) fun _ => .bind syncQueued_carries fun _ =>
        onCore_carries fun _ => rfl
    | some id =>
      exact .get (fun _ => rfl) fun s => .ite
        (.bind (writeRstStream_carries id code) fun _ => forget_carries id)
        (forget_carries id)

/-! ## Frames -/

theorem refusePending_carries (pending : List Pending) : Carries (put b l) (refusePending pending) := by
  induction pending with
  | nil => exact .pure _
  | cons p pending ih => exact .bind (tell_carries ..) fun _ => ih

theorem abandon_carries (ids : List StreamId) : Carries (put b l) (abandon ids) := by
  induction ids with
  | nil => exact .pure _
  | cons id ids ih =>
    refine .get (fun _ => rfl) fun s => ?_
    cases s.routes.lookup id with
    | none => exact .bind (forget_carries id) fun _ => ih
    | some route => exact .bind (tell_carries ..) fun _ => .bind (forget_carries id) fun _ => ih

theorem beginPeerDrain_carries (last : StreamId) : Carries (put b l) (beginPeerDrain last) := by
  unfold beginPeerDrain
  exact .get (fun _ => rfl) fun s => .bind (onCore_carries fun _ => rfl) fun _ =>
    .bind (refusePending_carries _) fun _ => abandon_carries _

theorem recvResponse_carries (id : StreamId) (headers : List Header) (endStream : Bool) :
    Carries (put b l) (recvResponse id headers endStream) := by
  have ends : ∀ endStream, Carries (put b l) (do
      applyStreamEvent id (.recvHeaders endStream)
      if endStream then forget id else pure () : UpM Unit) := fun endStream =>
    .bind (applyStreamEvent_carries ..) fun _ => .ite (forget_carries id) (.pure _)
  unfold recvResponse
  refine .get (fun _ => rfl) fun s => ?_
  cases s.streams.lookup id with
  | idle => exact .throw _
  | _ =>
    cases s.routes.lookup id with
    | none => exact .pure _
    | some route =>
      refine .ite ?_ ?_
      · cases validateTrailers headers with
        | error e => exact ends endStream
        | ok u => exact .bind (tell_carries ..) fun _ => ends endStream
      · cases ResponseHead.fromHeaders headers with
        | error e => exact failStream_carries id 502
        | ok head =>
          exact .ite (applyStreamEvent_carries ..) (.bind (onCore_carries fun _ => rfl) fun _ =>
            .bind (tell_carries ..) fun _ => ends endStream)

theorem recvData_carries (id : StreamId) (data : Bytes) (endStream : Bool) :
    Carries (put b l) (recvData id data endStream) := by
  have ends : Carries (put b l) (do
      applyStreamEvent id (.recvData endStream)
      if endStream then forget id else pure () : UpM Unit) :=
    .bind (applyStreamEvent_carries ..) fun _ => .ite (forget_carries id) (.pure _)
  unfold recvData
  refine .get (fun _ => rfl) fun s => ?_
  cases s.connRecvWindow.record data.length with
  | error code => exact .throw _
  | ok connRecvWindow =>
    refine .bind (onCore_carries fun _ => rfl) fun _ => .get (fun _ => rfl) fun s => ?_
    cases s.streams.lookup id with
    | idle => exact .throw _
    | closed => exact releaseConnWindow_carries _
    | live stream =>
      dsimp only
      cases stream.recvWindow.record data.length with
      | error code => exact .bind (writeRstStream_carries ..) fun _ => failStream_carries ..
      | ok recvWindow =>
        refine .bind (onCore_carries fun _ => rfl) fun _ => .get (fun _ => rfl) fun s => ?_
        cases s.routes.lookup id with
        | none => exact ends
        | some route =>
          exact .bind (onCore_carries fun _ => rfl) fun _ => .bind (tell_carries ..) fun _ => ends

theorem recvWindowUpdate_carries (id : StreamId) (increment : Nat) :
    Carries (put b l) (recvWindowUpdate id increment) := by
  unfold recvWindowUpdate
  refine .ite (.ite (.throw _) (writeRstStream_carries ..)) (.ite ?_ ?_)
  · refine .get (fun _ => rfl) fun s => ?_
    cases s.connSendWindow.increase increment with
    | error code => exact .throw _
    | ok connSendWindow => exact .modify fun _ => rfl
  · refine .get (fun _ => rfl) fun s => ?_
    cases s.streams.lookup id with
    | idle => exact .throw _
    | closed => exact .pure _
    | live stream =>
      dsimp only
      cases stream.sendWindow.increase increment with
      | error code => exact writeRstStream_carries ..
      | ok sendWindow =>
        exact .bind (onCore_carries fun _ => rfl) fun _ => enqueueReady_carries id

theorem recvRstStream_carries (id : StreamId) (code : ErrorCode) :
    Carries (put b l) (recvRstStream id code) := by
  unfold recvRstStream
  refine .get (fun _ => rfl) fun s => ?_
  cases s.routes.lookup id with
  | none => exact forget_carries id
  | some route => exact .bind (tell_carries ..) fun _ => forget_carries id

theorem recvSettings_carries (params : List (UInt16 × UInt32)) :
    Carries (put b l) (recvSettings params) := by
  unfold recvSettings
  refine .get (fun _ => rfl) fun r => .get (fun _ => rfl) fun s => ?_
  refine .bind (.modify fun _ => rfl) fun _ => ?_
  cases (s.peerSettings.apply params).2 with
  | error e => exact .throw _
  | ok u =>
    refine .bind (.modify fun _ => rfl) fun _ => ?_
    rcases (s.peerSettings.apply params).1.maxConcurrentStreams with - | limit
    on_goal 2 => refine .bind (onCore_carries fun _ => rfl) fun _ => ?_
    -- Whatever it says of the limit, the windows are shifted.
    all_goals
      refine .ite (.get (fun _ => rfl) fun t => ?_) (queueFrame_carries _)
      rcases t.streams.applyInitialWindowDelta _ with ⟨streams, shifted⟩
      refine .bind (onCore_carries fun _ => rfl) fun _ => ?_
      cases shifted with
      | error code => exact .throw _
      | ok u => exact queueFrame_carries _

/-! ## The scheduler -/

theorem spend_carries (id : StreamId) (stream : Stream) (len : Nat) :
    Carries (put b l) (spend id stream len) := by
  unfold spend
  refine .ite ?_ (.pure _)
  cases stream.sendWindow.consume len with
  | error code => exact .throw _
  | ok sendWindow =>
    refine .bind (onCore_carries fun _ => rfl) fun _ => .get (fun _ => rfl) fun s => ?_
    cases s.connSendWindow.consume len with
    | error code => exact .throw _
    | ok connSendWindow => exact .modify fun _ => rfl

theorem transmit_carries (id : StreamId) (turn : Stream.Turn) :
    Carries (put b l) (transmit id turn) :=
  .ite (.bind (queueFrame_carries _) fun _ => applyStreamEvent_carries ..) (.pure _)

theorem reportAccepted_carries (id : StreamId) (len : Nat) :
    Carries (put b l) (reportAccepted id len) := by
  unfold reportAccepted
  refine .get (fun _ => rfl) fun s => ?_
  cases s.routes.lookup id with
  | none => exact .pure _
  | some route => exact .ite (tell_carries ..) (.pure _)

theorem transmitTrailers_carries (id : StreamId) (fields : List Header) :
    Carries (put b l) (transmitTrailers id fields) :=
  .bind (queueHeaders_carries ..) fun _ => applyStreamEvent_carries ..

theorem visitReadyStream_carries (id : StreamId) : Carries (put b l) (visitReadyStream id) := by
  unfold visitReadyStream
  refine .get (fun _ => rfl) fun s => ?_
  cases s.streams.get? id with
  | none => exact .pure _
  | some stream =>
    dsimp only
    refine .ite (.bind (onCore_carries fun _ => rfl) fun _ => .pure _) ?_
    refine .bind (onCore_carries fun _ => rfl) fun _ => .ite (.pure _) ?_
    refine .bind (spend_carries ..) fun _ => .bind (transmit_carries ..) fun _ =>
      .bind (reportAccepted_carries ..) fun _ => ?_
    have rest : Carries (put b l) (do
        pure (some (((← get).streams.get? id).any Stream.hasPendingSend)) : UpM (Option Bool)) :=
      .get (fun _ => rfl) fun s => .pure _
    cases (stream.turn (s.budget stream)).trailers with
    | none => exact rest
    | some fields => exact .bind (transmitTrailers_carries ..) fun _ => rest

theorem visitLap_carries (ids : List StreamId) : Carries (put b l) (visitLap ids) := by
  induction ids with
  | nil => exact .pure _
  | cons id lap ih =>
    exact .bind (visitReadyStream_carries id) fun visit => .bind ih fun _ => .pure _

theorem requeue_carries (ids : List StreamId) : Carries (put b l) (requeue ids) := by
  induction ids with
  | nil => exact .pure _
  | cons id ids ih => exact .bind (onCore_carries fun _ => rfl) fun _ => ih

theorem pumpLap_carries : Carries (put b l) pumpLap := by
  unfold pumpLap
  exact .get (fun _ => rfl) fun s => .bind (.modify fun _ => rfl) fun _ =>
    .bind (visitLap_carries _) fun _ => .bind (requeue_carries _) fun _ =>
      .bind (.modify fun _ => rfl) fun _ => .pure _

theorem pumpLaps_carries (fuel : Nat) : Carries (put b l) (pumpLaps fuel) := by
  induction fuel with
  | zero => exact .pure _
  | succ fuel ih =>
    exact .get (fun _ => rfl) fun s => .ite (.pure _)
      (.bind pumpLap_carries fun wrote => .ite ih (.pure _))

theorem pumpOutbound_carries : Carries (put b l) pumpOutbound :=
  .get (fun _ => rfl) fun _ => pumpLaps_carries _

theorem probeTimer_carries : Carries (put b l) probeTimer := by
  unfold probeTimer
  refine .get (fun _ => rfl) fun s => ?_
  dsimp only
  refine .bind (.modify fun _ => rfl) fun _ => ?_
  cases (s.probe.due s.now).2 with
  | nothing => exact .pure _
  | send nonce => exact .bind (queueFrame_carries _) fun _ => .pure _
  | expired => exact .bind (.modify fun _ => rfl) fun _ => .bind (onCore_carries fun _ => rfl) fun _ => .pure _

end Upstream

end H2Proxy
