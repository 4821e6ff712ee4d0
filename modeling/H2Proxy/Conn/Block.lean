import H2Proxy.Conn.Run
import H2Proxy.HeaderBlock

/-
  What a client connection keeps between the frames of a header block, and that only the
  reading of fragments looks at it: every other function of the connection does the same
  whatever is kept there, and keeps it.
-/

namespace H2Proxy

namespace Conn

variable {σ μ : Type}

/-- What is kept of an open header block. -/
def block (s : Conn σ μ) : Block := ⟨s.openHeaderBlock, s.openHeaderEndStream, s.headerBlock⟩

/-- The connection with this block and this guard, and with this before its log. -/
def put (b : Block) (g : Guard) (l : List (ConnObs μ)) (s : Conn σ μ) : Conn σ μ :=
  { s with
    openHeaderBlock := b.stream
    openHeaderEndStream := b.endStream
    headerBlock := b.buffer
    guard := g
    log := l ++ s.log }

variable {b : Block} {g : Guard} {l : List (ConnObs μ)}

theorem onCore_carries {f : ConnCore σ μ → ConnCore σ μ}
    (h : ∀ c : ConnCore σ μ, f { c with log := l ++ c.log } =
      { f c with log := l ++ (f c).log }) : Carries (put b g l) (onCore f) := by
  refine .modify fun s => ?_
  show (put b g l s).withCore (f { s.toConnCore with log := l ++ s.log }) = put b g l (s.withCore (f s.toConnCore))
  rw [h]
  rfl

theorem observe_carries (o : ConnObs μ) : Carries (put b g l) (onCore (σ := σ) (.observe o)) :=
  onCore_carries fun c => by
    show ({ c with log := l ++ c.log ++ [o] } : ConnCore σ μ) = { c with log := l ++ (c.log ++ [o]) }
    rw [List.append_assoc]

theorem call_carries (call : Call) (r : σ × List (Effect μ)) :
    Carries (put b g l) (onCore (.call call r)) :=
  onCore_carries fun c => by
    unfold ConnCore.call
    dsimp only
    rw [List.append_assoc]

theorem queueFields_carries (frame : Frame) (fields : List Header) :
    Carries (put b g l) (queueFields frame fields : ConnM σ μ Unit) := by
  unfold queueFields
  cases frame.write with
  | error e => exact .throw _
  | ok octets =>
    exact .get (fun _ => rfl) fun s => .bind (observe_carries _) fun _ => .modify fun _ => rfl

theorem queueFrame_carries (frame : Frame) :
    Carries (put b g l) (queueFrame frame : ConnM σ μ Unit) := queueFields_carries frame []

theorem queueHeaders_carries (id : StreamId) (fields : List Header) (endStream : Bool) :
    Carries (put b g l) (queueHeaders id fields endStream : ConnM σ μ Unit) := by
  unfold queueHeaders
  exact .get (fun _ => rfl) fun s => .bind (observe_carries _) fun _ =>
    .bind (.modify fun _ => rfl) fun _ => queueFields_carries ..

theorem unready_carries (id : StreamId) : Carries (put b g l) (unready id : ConnM σ μ Unit) :=
  .modify fun _ => rfl

theorem enqueueReady_carries (id : StreamId) :
    Carries (put b g l) (enqueueReady id : ConnM σ μ Unit) := by
  unfold enqueueReady
  refine .get (fun _ => rfl) fun s => ?_
  cases s.streams.get? id with
  | none => exact .pure _
  | some stream =>
    exact .ite (.pure _) (.bind (onCore_carries fun _ => rfl) fun _ => .modify fun _ => rfl)

/-! ## Credit -/

theorem releaseConnWindow_carries (len : Nat) :
    Carries (put b g l) (releaseConnWindow len : ConnM σ μ Unit) := by
  unfold releaseConnWindow
  refine .get (fun _ => rfl) fun s => ?_
  dsimp only
  refine .bind (onCore_carries fun _ => rfl) fun _ => ?_
  cases (s.connRecvWindow.release len).2 with
  | none => exact .pure _
  | some increment => exact queueFrame_carries _

theorem drainReclaimed_carries : Carries (put b g l) (drainReclaimed : ConnM σ μ Unit) := by
  unfold drainReclaimed
  refine .get (fun _ => rfl) fun s => .bind (onCore_carries fun _ => rfl) fun _ => ?_
  exact .ite (.pure _) (releaseConnWindow_carries _)

theorem releaseRecvWindow_carries (id : StreamId) (n : Nat) :
    Carries (put b g l) (releaseRecvWindow id n : ConnM σ μ Unit) := by
  unfold releaseRecvWindow
  refine .ite (.pure _) (.get (fun _ => rfl) fun s => ?_)
  cases s.streams.get? id with
  | none => exact drainReclaimed_carries
  | some stream =>
    dsimp only
    refine .bind (onCore_carries fun _ => rfl) fun _ => ?_
    cases (stream.recvWindow.release n).2 with
    | none =>
      exact .bind (releaseConnWindow_carries _) fun _ => drainReclaimed_carries
    | some increment =>
      exact .bind (queueFrame_carries _) fun _ =>
        .bind (releaseConnWindow_carries _) fun _ => drainReclaimed_carries

theorem openRejected_carries (id : StreamId) :
    Carries (put b g l) (openRejected id : ConnM σ μ (Except OpenRejection Unit)) := by
  unfold openRejected
  refine .get (fun _ => rfl) fun s => ?_
  dsimp only
  refine .bind (onCore_carries fun _ => rfl) fun _ => ?_
  cases (s.streams.openPeer id).2 with
  | ok u => exact .bind (observe_carries _) fun _ => .pure _
  | error e => exact .pure _

/-! ## Without the responder -/

theorem spend_carries (id : StreamId) (stream : Stream) (len : Nat) :
    Carries (put b g l) (spend id stream len : ConnM σ μ Unit) := by
  unfold spend
  refine .ite (.get (fun _ => rfl) fun s => ?_) (.pure _)
  cases stream.sendWindow.consume len with
  | error code => exact .throw _
  | ok sendWindow =>
    cases s.connSendWindow.consume len with
    | error code => exact .throw _
    | ok connSendWindow => exact .bind (onCore_carries fun _ => rfl) fun _ => .modify fun _ => rfl

theorem requeue_carries (ids : List StreamId) :
    Carries (put b g l) (requeue ids : ConnM σ μ Unit) := by
  induction ids with
  | nil => exact .pure _
  | cons id ids ih => exact .bind (onCore_carries fun _ => rfl) fun _ => ih

theorem syncAdmission_carries (budget : Nat) :
    Carries (put b g l) (syncAdmission budget : ConnM σ μ Unit) := by
  unfold syncAdmission
  refine .get (fun _ => rfl) fun s => .ite (.pure _) (.bind (.modify fun _ => rfl) fun _ => ?_)
  refine .ite ?_ (queueFrame_carries _)
  exact .bind (.modify fun _ => rfl) fun _ => .bind (onCore_carries fun _ => rfl) fun _ =>
    queueFrame_carries _

theorem beginDrain_carries : Carries (put b g l) (beginDrain : ConnM σ μ Unit) := by
  unfold beginDrain
  exact .get (fun _ => rfl) fun s => .bind (onCore_carries fun _ => rfl) fun _ =>
    queueFrame_carries _

theorem advanceDrain_carries (timerFired : Bool) :
    Carries (put b g l) (advanceDrain timerFired : ConnM σ μ Next) := by
  unfold advanceDrain
  refine .get (fun _ => rfl) fun s => ?_
  cases s.draining with
  | none => exact .pure _
  | some drain =>
    have rest : Carries (put b g l) (do
        let s ← get
        if s.drainCommitted && (s.streams.liveCount = 0 || s.now ≥ drain.deadlineAt) then
          pure .close
        else pure .continue_ : ConnM σ μ Next) :=
      .get (fun _ => rfl) fun s => .ite (.pure _) (.pure _)
    exact .ite (.bind (queueFrame_carries _) fun _ =>
      .bind (onCore_carries fun _ => rfl) fun _ => rest) rest

/-! ## Frames -/

theorem recvSettings_carries (params : List (UInt16 × UInt32)) :
    Carries (put b g l) (recvSettings params : ConnM σ μ Unit) := by
  unfold recvSettings
  refine .get (fun _ => rfl) fun r => .get (fun _ => rfl) fun s => ?_
  refine .bind (.modify fun _ => rfl) fun _ => ?_
  cases (s.peerSettings.apply params).2 with
  | error e => exact .throw _
  | ok u =>
    refine .bind (.modify fun _ => rfl) fun _ => .ite ?_ (queueFrame_carries _)
    refine .get (fun _ => rfl) fun t => ?_
    rcases t.streams.applyInitialWindowDelta _ with ⟨streams, shifted⟩
    refine .bind (onCore_carries fun _ => rfl) fun _ => ?_
    cases shifted with
    | error code => exact .throw _
    | ok u => exact queueFrame_carries _

theorem recvSettingsAck_carries : Carries (put b g l) (recvSettingsAck : ConnM σ μ Unit) :=
  .bind (.modify fun _ => rfl) fun _ => .get (fun _ => rfl) fun _ =>
    .ite (.bind (.modify fun _ => rfl) fun _ => onCore_carries fun _ => rfl) (.pure _)

section Service

variable [Service σ μ]

/-! ## Ending a stream -/

theorem abandon_carries (id : StreamId) (code : ErrorCode) :
    Carries (put b g l) (abandon id code : ConnM σ μ Unit) := by
  unfold abandon
  exact .get (fun _ => rfl) fun s => .bind (onCore_carries fun _ => rfl) fun _ =>
    .bind (unready_carries id) fun _ => call_carries ..

theorem writeRstStream_carries (id : StreamId) (code : ErrorCode) :
    Carries (put b g l) (writeRstStream id code : ConnM σ μ Unit) :=
  .bind (abandon_carries id code) fun _ => .bind drainReclaimed_carries fun _ =>
    queueFrame_carries _

theorem applyStreamEvent_carries (id : StreamId) (event : StreamEvent) (what : String) :
    Carries (put b g l) (applyStreamEvent id event what : ConnM σ μ Unit) := by
  unfold applyStreamEvent
  refine .get (fun _ => rfl) fun s => ?_
  dsimp only
  refine .bind (onCore_carries fun _ => rfl) fun _ => ?_
  cases (s.streams.apply id event).2 with
  | ok state =>
    exact .ite (.bind (unready_carries id) fun _ => .get (fun _ => rfl) fun s =>
      .bind (call_carries ..) fun _ => drainReclaimed_carries) (.pure _)
  | error e =>
    exact .ite (.throw _) (.bind (onCore_carries fun _ => rfl) fun _ => unready_carries id)

/-! ## Responses -/

theorem sendResponse_carries (id : StreamId) (response : Response) (endStream : Bool) :
    Carries (put b g l) (sendResponse id response endStream : ConnM σ μ Unit) :=
  .bind (queueHeaders_carries ..) fun _ => .bind (onCore_carries fun _ => rfl) fun _ =>
    applyStreamEvent_carries ..

theorem sendTrailers_carries (id : StreamId) (fields : List Header) :
    Carries (put b g l) (sendTrailers id fields : ConnM σ μ Unit) := by
  unfold sendTrailers
  cases validateTrailers fields with
  | error code =>
    exact .bind (onCore_carries fun _ => rfl) fun _ => enqueueReady_carries id
  | ok u =>
    refine .get (fun _ => rfl) fun s => .ite ?_ ?_
    · exact .bind (onCore_carries fun _ => rfl) fun _ => enqueueReady_carries id
    · exact .bind (queueHeaders_carries ..) fun _ => applyStreamEvent_carries ..

theorem rejectStream_carries (id : StreamId) (status : Nat) :
    Carries (put b g l) (rejectStream id status : ConnM σ μ Unit) := by
  unfold rejectStream
  refine .get (fun _ => rfl) fun s => .ite (sendResponse_carries ..) ?_
  refine .bind (openRejected_carries id) fun opened => ?_
  cases opened with
  | ok u => exact .bind (applyStreamEvent_carries ..) fun _ => sendResponse_carries ..
  | error e =>
    cases e with
    | protocol why => exact .throw _
    | refused => exact writeRstStream_carries ..

/-! ## Events -/

theorem refuseRequest_carries (id : StreamId) (status : Nat) :
    Carries (put b g l) (refuseRequest id status : ConnM σ μ Unit) := by
  unfold refuseRequest
  exact .get (fun _ => rfl) fun s =>
    .ite (writeRstStream_carries ..) (rejectStream_carries ..)

theorem actOn_carries (event : ServiceEvent) :
    Carries (put b g l) (actOn event : ConnM σ μ Unit) := by
  unfold actOn
  cases event with
  | head id response endStream =>
    exact .get (fun _ => rfl) fun s => .ite (sendResponse_carries ..) (.pure _)
  | data id data endStream =>
    refine .get (fun _ => rfl) fun s => .ite ?_ (.pure _)
    exact .bind (onCore_carries fun _ => rfl) fun _ => enqueueReady_carries id
  | trailers id fields =>
    exact .get (fun _ => rfl) fun s => .ite (sendTrailers_carries ..) (.pure _)
  | bodyAccepted id n => exact releaseRecvWindow_carries id n
  | gone id => exact refuseRequest_carries ..
  | shed id => exact refuseRequest_carries ..
  | reset id code =>
    exact .get (fun _ => rfl) fun s => .ite (writeRstStream_carries ..) (.pure _)

theorem handleServiceEvent_carries (event : ServiceEvent) :
    Carries (put b g l) (handleServiceEvent event : ConnM σ μ Unit) := by
  unfold handleServiceEvent
  refine .get (fun _ => rfl) fun s => ?_
  dsimp only
  refine .bind (call_carries ..) fun _ => ?_
  cases (Service.intercept s.now event s.service).2 with
  | none => exact .pure _
  | some event => exact .bind (observe_carries _) fun _ => actOn_carries event

/-! ## Header blocks -/

theorem dispatchRequest_carries (id : StreamId) (headers : List Header) (endStream : Bool) :
    Carries (put b g l) (dispatchRequest id headers endStream : ConnM σ μ Unit) := by
  unfold dispatchRequest
  cases RequestHead.fromHeaders headers with
  | error code => exact writeRstStream_carries ..
  | ok request =>
    have rest : Carries (put b g l) (dispatchNoted id request endStream : ConnM σ μ Unit) := by
      refine .get (fun _ => rfl) fun s => ?_
      cases if endStream then requestBodyError s id else none with
      | some code => exact writeRstStream_carries ..
      | none => exact .bind (.modify fun _ => rfl) fun _ => call_carries ..
    dsimp only
    cases request.contentLength with
    | none => exact rest
    | some declared =>
      cases declared with
      | error code => exact writeRstStream_carries ..
      | ok n => exact .bind (onCore_carries fun _ => rfl) fun _ => rest

theorem recvTrailers_carries (id : StreamId) (stream : Stream) (headers : List Header)
    (endStream : Bool) :
    Carries (put b g l) (recvTrailers id stream headers endStream : ConnM σ μ Unit) := by
  unfold recvTrailers
  refine .ite (writeRstStream_carries ..) (.ite (writeRstStream_carries ..) ?_)
  cases validateTrailers headers with
  | error code => exact writeRstStream_carries ..
  | ok u =>
    refine .get (fun _ => rfl) fun s => ?_
    cases requestBodyError s id with
    | some code => exact writeRstStream_carries ..
    | none => exact .bind (call_carries ..) fun _ => applyStreamEvent_carries ..

theorem recvRequest_carries (id : StreamId) (headers : List Header) (endStream : Bool) :
    Carries (put b g l) (recvRequest id headers endStream : ConnM σ μ Unit) := by
  unfold recvRequest
  refine .get (fun _ => rfl) fun s => ?_
  cases s.streams.lookup id with
  | live stream => exact recvTrailers_carries ..
  | closed => exact .throw _
  | idle =>
    refine .ite (writeRstStream_carries ..) (.bind (openRejected_carries id) fun opened => ?_)
    cases opened with
    | ok u =>
      exact .bind (applyStreamEvent_carries ..) fun _ => dispatchRequest_carries ..
    | error e =>
      cases e with
      | protocol why => exact .throw _
      | refused => exact writeRstStream_carries ..

/-! ## Frames on streams -/

theorem recvWindowUpdate_carries (id : StreamId) (increment : Nat) :
    Carries (put b g l) (recvWindowUpdate id increment : ConnM σ μ Unit) := by
  unfold recvWindowUpdate
  refine .ite (.ite (.throw _) (writeRstStream_carries ..)) (.ite ?_ ?_)
  · refine .get (fun _ => rfl) fun s => ?_
    cases s.connSendWindow.increase increment with
    | error code => exact .throw _
    | ok connSendWindow => exact .modify fun _ => rfl
  · refine .get (fun _ => rfl) fun s => ?_
    cases s.streams.lookup id with
    | idle => exact .throw _
    | closed => exact .pure _
    | live stream =>
      dsimp only
      cases stream.sendWindow.increase increment with
      | error code => exact writeRstStream_carries ..
      | ok sendWindow =>
        exact .bind (onCore_carries fun _ => rfl) fun _ => enqueueReady_carries id

/-! ## The scheduler -/

theorem transmit_carries (id : StreamId) (turn : Stream.Turn) :
    Carries (put b g l) (transmit id turn : ConnM σ μ Unit) := by
  unfold transmit
  exact .ite (.bind (queueFrame_carries _) fun _ => applyStreamEvent_carries ..) (.pure _)

theorem reportReleased_carries (id : StreamId) (len : Nat) :
    Carries (put b g l) (reportReleased id len : ConnM σ μ Unit) := by
  unfold reportReleased
  exact .ite (.get (fun _ => rfl) fun s => call_carries ..) (.pure _)

theorem visitReadyStream_carries (id : StreamId) :
    Carries (put b g l) (visitReadyStream id : ConnM σ μ Visit) := by
  unfold visitReadyStream
  refine .get (fun _ => rfl) fun s => ?_
  cases s.streams.get? id with
  | none => exact .pure _
  | some stream =>
    dsimp only
    refine .ite (.bind (onCore_carries fun _ => rfl) fun _ => .pure _) ?_
    refine .bind (onCore_carries fun _ => rfl) fun _ => .ite (.pure _) ?_
    refine .bind (spend_carries ..) fun _ => .bind (transmit_carries ..) fun _ =>
      .bind (reportReleased_carries ..) fun _ => ?_
    have rest : Carries (put b g l) (do
        let s ← get
        pure (.wrote ((s.streams.get? id).any Stream.hasPendingSend)) : ConnM σ μ Visit) :=
      .get (fun _ => rfl) fun s => .pure _
    cases (stream.turn (s.budget stream)).trailers with
    | none => exact rest
    | some fields => exact .bind (sendTrailers_carries ..) fun _ => rest

theorem visitLap_carries (ids : List StreamId) :
    Carries (put b g l) (visitLap ids : ConnM σ μ (List StreamId × List StreamId × Bool)) := by
  induction ids with
  | nil => exact .pure _
  | cons id lap ih =>
    exact .bind (visitReadyStream_carries id) fun visit => .bind ih fun _ => .pure _

theorem pumpLap_carries : Carries (put b g l) (pumpLap : ConnM σ μ Bool) := by
  unfold pumpLap
  exact .get (fun _ => rfl) fun s => .bind (.modify fun _ => rfl) fun _ =>
    .bind (visitLap_carries _) fun _ => .bind (requeue_carries _) fun _ =>
      .bind (.modify fun _ => rfl) fun _ => .pure _

theorem pumpLaps_carries (fuel : Nat) : Carries (put b g l) (pumpLaps fuel : ConnM σ μ Unit) := by
  induction fuel with
  | zero => exact .pure _
  | succ fuel ih =>
    exact .get (fun _ => rfl) fun s => .ite (.pure _)
      (.bind pumpLap_carries fun wrote => .ite ih (.pure _))

theorem flushPendingResets_carries (es : List StreamError) :
    Carries (put b g l) (flushPendingResets es : ConnM σ μ Unit) := by
  induction es with
  | nil => exact .pure _
  | cons e es ih =>
    exact .bind (onCore_carries fun _ => rfl) fun _ =>
      .bind (writeRstStream_carries ..) fun _ => ih

theorem pumpOutbound_carries : Carries (put b g l) (pumpOutbound : ConnM σ μ Unit) :=
  .get (fun _ => rfl) fun _ => .bind (pumpLaps_carries _) fun _ =>
    .get (fun _ => rfl) fun _ => flushPendingResets_carries _

end Service

end Conn

end H2Proxy
