import H2Proxy.Conn.Run
import H2Proxy.Hpack.Growth
import H2Proxy.Lib.Ends
import H2Proxy.Tap

/-
  What a client connection leaves alone unless it is told to change it.

  `Calm` says of a stretch of a step that it grants and spends no credit, queues plain frames only,
  keeps the limit on streams, and leaves the encoder within its bound. Every function is calm
  but the scheduler, and those that act on WINDOW_UPDATE, on SETTINGS and its acknowledgement, on
  PING and on the shared budget.
-/

namespace H2Proxy

namespace ConnObs

variable {μ : Type}

/-- What a client connection heard and sent. -/
def tap (μ : Type) : Tap (ConnObs μ) where
  heard
    | .heard w => w.frame?
    | _ => none
  sent
    | .queued f _ _ => some f
    | _ => none

/-- Nothing heard, and only plain frames sent. -/
def plain : ConnObs μ → Bool
  | heard _ => false
  | queued f _ _ => f.plain
  | _ => true

end ConnObs

variable {σ μ : Type}

namespace ConnCore

/-- The core's share of a calm stretch. -/
structure Calm (c c' : ConnCore σ μ) : Prop where
  maxConcurrent : c'.streams.maxConcurrent = c.streams.maxConcurrent
  initialSendWindow : c'.streams.initialSendWindow = c.streams.initialSendWindow
  top : c.streams.highestPeerId ≤ c'.streams.highestPeerId
  own : c'.streams.highestLocalId = c.streams.highestLocalId
  /-- A stream keeps its send window, or is new. -/
  windows : ∀ id st', c'.streams.get? id = some st' →
    (∃ st, c.streams.get? id = some st ∧ st'.sendWindow = st.sendWindow) ∨
      ¬ id ≤ c.streams.highestPeerId ∧ id ≤ c'.streams.highestPeerId ∧
        st'.sendWindow = ⟨c.streams.initialSendWindow⟩
  log : Adds (fun o => o.plain) c.log c'.log

namespace Calm

variable {c c' c'' : ConnCore σ μ}

theorem refl (c : ConnCore σ μ) : c.Calm c :=
  ⟨rfl, rfl, Nat.le_refl _, rfl, fun _ st' h => .inl ⟨st', h, rfl⟩, .refl _ _⟩

theorem trans (h : c.Calm c') (h' : c'.Calm c'') : c.Calm c'' := by
  refine ⟨h'.maxConcurrent.trans h.maxConcurrent, h'.initialSendWindow.trans h.initialSendWindow,
    Nat.le_trans h.top h'.top, h'.own.trans h.own, fun id st'' live => ?_, h.log.trans h'.log⟩
  obtain ⟨st', live', same⟩ | ⟨unseen, seen, new⟩ := h'.windows id st'' live
  · rw [same]
    obtain old | ⟨unseen, seen, new⟩ := h.windows id st' live'
    · exact .inl old
    · exact .inr ⟨unseen, Nat.le_trans seen h'.top, new⟩
  · exact .inr ⟨fun seen => unseen (Nat.le_trans seen h.top), seen, h.initialSendWindow ▸ new⟩

/-- The table stays as it is, up to the credit it reclaims. -/
theorem aside (live : c'.streams.live = c.streams.live)
    (maxConcurrent : c'.streams.maxConcurrent = c.streams.maxConcurrent)
    (initialSendWindow : c'.streams.initialSendWindow = c.streams.initialSendWindow)
    (top : c'.streams.highestPeerId = c.streams.highestPeerId)
    (own : c'.streams.highestLocalId = c.streams.highestLocalId)
    (log : Adds (fun o => o.plain) c.log c'.log) : c.Calm c' := by
  refine ⟨maxConcurrent, initialSendWindow, Nat.le_of_eq (congrArg _ top.symm), own,
    fun id st' h => ?_, log⟩
  unfold StreamTable.get? at h
  rw [live] at h
  exact .inl ⟨st', h, rfl⟩

theorem observe (c : ConnCore σ μ) {o : ConnObs μ} (h : o.plain) : c.Calm (c.observe o) :=
  .aside rfl rfl rfl rfl rfl (.one h)

theorem call (c : ConnCore σ μ) (call : Call) (r : σ × List (Effect μ)) : c.Calm (c.call call r) := by
  refine .aside rfl rfl rfl rfl rfl ⟨_, rfl, fun o ho => ?_⟩
  obtain rfl | ho := List.mem_cons.mp ho
  · rfl
  · obtain ⟨x, -, hx⟩ := List.mem_filterMap.mp ho
    cases x with
    | emit event => cases hx
    | send message => cases hx; rfl

/-- A stream is changed in place, and its send window is not. -/
theorem modifyStream (c : ConnCore σ μ) (id : StreamId) {f : Stream → Stream}
    (h : ∀ st, (f st).sendWindow = st.sendWindow) : c.Calm (c.modifyStream id f) := by
  refine ⟨rfl, rfl, Nat.le_refl _, rfl, fun id' st' live => .inl ?_, .refl _ _⟩
  have live : (c.streams.modify id f).get? id' = some st' := live
  rw [StreamTable.get?_modify] at live
  split at live
  · rename_i heq
    subst heq
    obtain ⟨st, hst, rfl⟩ := Option.map_eq_some_iff.mp live
    exact ⟨st, hst, h st⟩
  · exact ⟨st', live, rfl⟩

theorem retire (c : ConnCore σ μ) (id : StreamId) :
    c.Calm { c with streams := c.streams.retire id } := by
  have same : (c.streams.retire id).maxConcurrent = c.streams.maxConcurrent ∧
      (c.streams.retire id).initialSendWindow = c.streams.initialSendWindow := by
    unfold StreamTable.retire
    split <;> exact ⟨rfl, rfl⟩
  refine ⟨same.1, same.2, Nat.le_of_eq (congrArg _ (StreamTable.retire_top _ _).symm),
    StreamTable.retire_highestLocalId _ _, fun id' st' live => .inl ⟨st', ?_, rfl⟩, .refl _ _⟩
  have live : (c.streams.retire id).get? id' = some st' := live
  rw [StreamTable.get?_retire] at live
  split at live
  · cases live
  · exact live

theorem apply (c : ConnCore σ μ) (id : StreamId) (event : StreamEvent) :
    c.Calm { c with streams := (c.streams.apply id event).1 } := by
  unfold StreamTable.apply
  cases hs : c.streams.get? id with
  | none => exact .refl c
  | some s =>
    dsimp only
    cases s.state.transition event with
    | error code => exact .refl c
    | ok next =>
      have moved := modifyStream c id (f := ({ · with state := next })) fun _ => rfl
      dsimp only
      split
      · exact moved.trans (retire _ id)
      · exact moved

theorem openPeer (c : ConnCore σ μ) (id : StreamId) :
    c.Calm { c with streams := (c.streams.openPeer id).1 } := by
  obtain ⟨why, -, heq⟩ | ⟨-, unseen, heq | heq⟩ := c.streams.openPeer_cases id <;> rw [heq]
  · exact .refl c
  · exact ⟨rfl, rfl, Nat.le_of_lt (Nat.lt_of_not_le unseen), rfl, fun _ st' h => .inl ⟨st', h, rfl⟩, .refl _ _⟩
  · refine ⟨rfl, rfl, Nat.le_of_lt (Nat.lt_of_not_le unseen), rfl, fun id' st' live => ?_, .refl _ _⟩
    have live := (StreamTable.get?_insertNew ..).symm.trans live
    split at live
    · rename_i heq
      cases live
      exact .inr ⟨heq ▸ unseen, heq ▸ Nat.le_refl _, rfl⟩
    · exact .inl ⟨st', live, rfl⟩

end Calm

end ConnCore

namespace Conn

/-- Neither credit nor settings change, and only plain frames are sent. -/
structure Calm (s t : Conn σ μ) : Prop where
  core : s.toConnCore.Calm t.toConnCore
  connSendWindow : t.connSendWindow = s.connSendWindow
  peerSettings : t.peerSettings = s.peerSettings
  admission : t.admission = s.admission
  advertisedStreams : t.advertisedStreams = s.advertisedStreams
  outstandingSettings : t.outstandingSettings = s.outstandingSettings
  enforcedStreams : t.enforcedStreams = s.enforcedStreams
  openHeaderBlock : t.openHeaderBlock = s.openHeaderBlock
  openHeaderEndStream : t.openHeaderEndStream = s.openHeaderEndStream
  /-- The encoder keeps to whatever bound it kept to. -/
  encoder : ∀ bound, s.hpackEnc.Within bound → t.hpackEnc.Within bound

instance : Std.Refl (Calm (σ := σ) (μ := μ)) :=
  ⟨fun _ => ⟨.refl _, rfl, rfl, rfl, rfl, rfl, rfl, rfl, rfl, fun _ h => h⟩⟩

instance : IsTrans (Conn σ μ) Calm :=
  ⟨fun _ _ _ h h' => ⟨h.core.trans h'.core, h'.connSendWindow.trans h.connSendWindow,
    h'.peerSettings.trans h.peerSettings, h'.admission.trans h.admission,
    h'.advertisedStreams.trans h.advertisedStreams,
    h'.outstandingSettings.trans h.outstandingSettings,
    h'.enforcedStreams.trans h.enforcedStreams, h'.openHeaderBlock.trans h.openHeaderBlock,
    h'.openHeaderEndStream.trans h.openHeaderEndStream,
    fun bound within => h'.encoder bound (h.encoder bound within)⟩⟩

variable {s : Conn σ μ} {α β : Type}

theorem Calm.withCore {c : ConnCore σ μ} (h : s.toConnCore.Calm c) : Calm s (s.withCore c) :=
  ⟨h, rfl, rfl, rfl, rfl, rfl, rfl, rfl, rfl, fun _ within => within⟩

theorem Calm.onCore {f : ConnCore σ μ → ConnCore σ μ} (h : s.toConnCore.Calm (f s.toConnCore)) :
    Follows Calm s (onCore f s) := Calm.withCore h

/-- The core stays, and of the rest what is not about credit, settings or an open block. -/
theorem Calm.rest {t : Conn σ μ} (core : t.toConnCore = s.toConnCore)
    (connSendWindow : t.connSendWindow = s.connSendWindow)
    (peerSettings : t.peerSettings = s.peerSettings) (admission : t.admission = s.admission)
    (advertisedStreams : t.advertisedStreams = s.advertisedStreams)
    (outstandingSettings : t.outstandingSettings = s.outstandingSettings)
    (enforcedStreams : t.enforcedStreams = s.enforcedStreams)
    (openHeaderBlock : t.openHeaderBlock = s.openHeaderBlock)
    (openHeaderEndStream : t.openHeaderEndStream = s.openHeaderEndStream)
    (encoder : t.hpackEnc = s.hpackEnc) : Calm s t :=
  ⟨core ▸ .refl _, connSendWindow, peerSettings, admission, advertisedStreams,
    outstandingSettings, enforcedStreams, openHeaderBlock, openHeaderEndStream,
    fun _ within => encoder ▸ within⟩

/-! ## Writing and credit -/

theorem queueFields_calm (s : Conn σ μ) {frame : Frame} (fields : List Header)
    (plain : frame.plain) : Follows Calm s (queueFields frame fields s) := by
  unfold queueFields
  cases frame.write with
  | error e => exact .throw _
  | ok octets =>
    refine .get (.bind (.onCore (.observe _ plain)) fun _ t _ => ?_)
    exact .modify (.rest rfl rfl rfl rfl rfl rfl rfl rfl rfl rfl)

theorem queueFrame_calm (s : Conn σ μ) {frame : Frame} (plain : frame.plain) :
    Follows Calm s (queueFrame frame s) :=
  queueFields_calm s [] plain

theorem queueHeaders_calm (s : Conn σ μ) (id : StreamId) (fields : List Header)
    (endStream : Bool) : Follows Calm s (queueHeaders id fields endStream s) := by
  have noted : Calm s { s with
      toConnCore := s.toConnCore.observe (.encoded s.hpackEnc fields s.peerSettings.maxFrameSize)
      hpackEnc := (s.hpackEnc.encode fields).1 } :=
    ⟨.observe _ rfl, rfl, rfl, rfl, rfl, rfl, rfl, rfl, rfl, fun _ within => within.encode fields⟩
  exact Follows.after noted (queueFields_calm _ fields rfl)

theorem calm_guarded (s : Conn σ μ) (f : Guard → Guard × Verdict) :
    Follows Calm s (guarded f s) := by
  refine .get (.bind (.modify (.rest rfl rfl rfl rfl rfl rfl rfl rfl rfl rfl)) fun _ t _ => ?_)
  unfold check
  cases (f s.guard).2 with
  | ok => exact .pure _
  | trip signal => exact .throw _

theorem releaseConnWindow_calm (s : Conn σ μ) (n : Nat) :
    Follows Calm s (releaseConnWindow n s) := by
  refine .get ?_
  rcases s.connRecvWindow.release n with ⟨connRecvWindow, increment⟩
  refine .bind (.onCore (.aside rfl rfl rfl rfl rfl (.refl _ _))) fun _ t _ => ?_
  cases increment with
  | none => exact .pure _
  | some increment => exact queueFrame_calm t rfl

theorem drainReclaimed_calm (s : Conn σ μ) : Follows Calm s (drainReclaimed s) := by
  refine .get (.bind (.onCore (.aside rfl rfl rfl rfl rfl (.refl _ _))) fun _ t _ => ?_)
  exact .ite (fun _ => .pure _) fun _ => releaseConnWindow_calm t _

theorem releaseRecvWindow_calm (s : Conn σ μ) (id : StreamId) (n : Nat) :
    Follows Calm s (releaseRecvWindow id n s) := by
  refine .ite (fun _ => .pure _) fun _ => .get ?_
  cases s.streams.get? id with
  | none => exact drainReclaimed_calm s
  | some stream =>
    dsimp only
    rcases stream.recvWindow.release n with ⟨recvWindow, increment⟩
    refine .bind (.onCore (.modifyStream _ id fun _ => rfl)) fun _ t _ => ?_
    have last : ∀ u : Conn σ μ, Follows Calm u ((do
        releaseConnWindow n
        drainReclaimed : ConnM σ μ Unit) u) := fun u =>
      .bind (releaseConnWindow_calm u n) fun _ v _ => drainReclaimed_calm v
    cases increment with
    | none => exact last t
    | some increment => exact .bind (queueFrame_calm t rfl) fun _ u _ => last u

theorem unready_calm (s : Conn σ μ) (id : StreamId) : Follows Calm s (unready id s) :=
  .modify (.rest rfl rfl rfl rfl rfl rfl rfl rfl rfl rfl)

theorem enqueueReady_calm (s : Conn σ μ) (id : StreamId) : Follows Calm s (enqueueReady id s) := by
  refine .get ?_
  cases s.streams.get? id with
  | none => exact .pure _
  | some stream =>
    refine .ite (fun _ => .pure _) fun _ => ?_
    refine .bind (.onCore (.modifyStream _ id fun _ => rfl)) fun _ t _ => ?_
    exact .modify (.rest rfl rfl rfl rfl rfl rfl rfl rfl rfl rfl)

/-! ## Streams and responses -/

variable [Service σ μ]

theorem writeRstStream_calm (s : Conn σ μ) (id : StreamId) (code : ErrorCode) :
    Follows Calm s (writeRstStream id code s) := by
  refine .bind (x := abandon id code) ?_ fun _ t _ => ?_
  · refine .get (.bind (.onCore (.retire _ id)) fun _ t _ => ?_)
    exact .bind (unready_calm t id) fun _ u _ => .onCore (.call _ _ _)
  · exact .bind (drainReclaimed_calm t) fun _ u _ => queueFrame_calm u rfl

theorem applyStreamEvent_calm (s : Conn σ μ) (id : StreamId) (event : StreamEvent)
    (what : String) : Follows Calm s (applyStreamEvent id event what s) := by
  have moved := ConnCore.Calm.apply s.toConnCore id event
  refine .get ?_
  generalize s.streams.apply id event = applied at moved ⊢
  obtain ⟨streams, result⟩ := applied
  refine .bind (.onCore moved) fun _ t _ => ?_
  cases result with
  | ok state =>
    refine .ite (fun _ => ?_) fun _ => .pure _
    refine .bind (unready_calm t id) fun _ u _ => ?_
    exact .get (.bind (.onCore (.call _ _ _)) fun _ v _ => drainReclaimed_calm v)
  | error e =>
    refine .ite (fun _ => .throw _) fun _ => ?_
    refine .bind (.onCore ?_) fun _ u _ => unready_calm u id
    exact (ConnCore.Calm.retire t.toConnCore id).trans (.aside rfl rfl rfl rfl rfl (.refl _ _))

theorem sendResponse_calm (s : Conn σ μ) (id : StreamId) (response : Response) (endStream : Bool) :
    Follows Calm s (sendResponse id response endStream s) := by
  refine .bind (queueHeaders_calm s id _ endStream) fun _ t _ => ?_
  refine .bind (.onCore (.modifyStream _ id fun _ => rfl)) fun _ u _ => ?_
  exact applyStreamEvent_calm u id _ _

theorem sendTrailers_calm (s : Conn σ μ) (id : StreamId) (fields : List Header) :
    Follows Calm s (sendTrailers id fields s) := by
  unfold sendTrailers
  cases validateTrailers fields with
  | error code =>
    exact .bind (.onCore (.modifyStream _ id fun _ => rfl)) fun _ t _ => enqueueReady_calm t id
  | ok =>
    refine .get (.ite (fun _ => ?_) fun _ => ?_)
    · exact .bind (.onCore (.modifyStream _ id fun _ => rfl)) fun _ t _ => enqueueReady_calm t id
    · exact .bind (queueHeaders_calm s id fields true) fun _ t _ => applyStreamEvent_calm t id _ _

omit [Service σ μ] in
theorem openRejected_calm (s : Conn σ μ) (id : StreamId) :
    Follows Calm s (openRejected id s) := by
  have moved := ConnCore.Calm.openPeer s.toConnCore id
  refine .get ?_
  generalize s.streams.openPeer id = tried at moved ⊢
  obtain ⟨streams, opened⟩ := tried
  refine .bind (.onCore moved) fun _ t _ => ?_
  cases opened with
  | ok => exact .bind (.onCore (.observe _ rfl)) fun _ u _ => .pure _
  | error e => exact .pure _

theorem rejectStream_calm (s : Conn σ μ) (id : StreamId) (status : Nat) :
    Follows Calm s (rejectStream id status s) := by
  refine .get (.ite (fun _ => sendResponse_calm s id _ true) fun _ => ?_)
  refine .bind (openRejected_calm s id) fun opened t _ => ?_
  cases opened with
  | error why =>
    cases why with
    | protocol why => exact .throw _
    | refused => exact writeRstStream_calm t id _
  | ok =>
    exact .bind (applyStreamEvent_calm t id _ _) fun _ u _ => sendResponse_calm u id _ true

/-! ## Events -/

theorem actOn_calm (s : Conn σ μ) (event : ServiceEvent) : Follows Calm s (actOn event s) := by
  have refusal : ∀ id status, Follows Calm s (refuseRequest id status s) := fun id status =>
    .get (.ite (fun _ => writeRstStream_calm s id _) fun _ => rejectStream_calm s id status)
  cases event with
  | head id response endStream =>
    exact .get (.ite (fun _ => sendResponse_calm s id response endStream) fun _ => .pure _)
  | data id data endStream =>
    refine .get (.ite (fun _ => ?_) fun _ => .pure _)
    exact .bind (.onCore (.modifyStream _ id fun _ => rfl)) fun _ t _ => enqueueReady_calm t id
  | trailers id fields =>
    exact .get (.ite (fun _ => sendTrailers_calm s id fields) fun _ => .pure _)
  | bodyAccepted id n => exact releaseRecvWindow_calm s id n
  | gone id => exact refusal id 502
  | shed id => exact refusal id 503
  | reset id code => exact .get (.ite (fun _ => writeRstStream_calm s id code) fun _ => .pure _)

theorem handleServiceEvent_calm (s : Conn σ μ) (event : ServiceEvent) :
    Follows Calm s (handleServiceEvent event s) := by
  refine .get ?_
  rcases Service.intercept s.now event s.service with ⟨r, handed⟩
  refine .bind (.onCore (.call _ _ _)) fun _ t _ => ?_
  cases handed with
  | none => exact .pure _
  | some event => exact .bind (.onCore (.observe _ rfl)) fun _ u _ => actOn_calm u event

/-! ## Frames -/

theorem dispatchRequest_calm (s : Conn σ μ) (id : StreamId) (headers : List Header)
    (endStream : Bool) : Follows Calm s (dispatchRequest id headers endStream s) := by
  unfold dispatchRequest
  cases RequestHead.fromHeaders headers with
  | error code => exact writeRstStream_calm s id code
  | ok request =>
    have rest : ∀ t : Conn σ μ, Follows Calm t (dispatchNoted id request endStream t) := by
      refine fun t => .get ?_
      cases (if endStream then requestBodyError t id else none) with
      | some code => exact writeRstStream_calm t id code
      | none =>
        exact .bind (.modify (.rest rfl rfl rfl rfl rfl rfl rfl rfl rfl rfl)) fun _ u _ =>
          .onCore (.call _ _ _)
    dsimp only
    cases request.contentLength with
    | none => exact rest s
    | some declared =>
      cases declared with
      | error code => exact writeRstStream_calm s id code
      | ok n => exact .bind (.onCore (.modifyStream _ id fun _ => rfl)) fun _ t _ => rest t

theorem recvTrailers_calm (s : Conn σ μ) (id : StreamId) (stream : Stream) (headers : List Header)
    (endStream : Bool) : Follows Calm s (recvTrailers id stream headers endStream s) := by
  refine .ite (fun _ => writeRstStream_calm s id _) fun _ => ?_
  refine .ite (fun _ => writeRstStream_calm s id _) fun _ => ?_
  cases validateTrailers headers with
  | error code => exact writeRstStream_calm s id code
  | ok =>
    refine .get ?_
    cases requestBodyError s id with
    | some code => exact writeRstStream_calm s id code
    | none => exact .bind (.onCore (.call _ _ _)) fun _ t _ => applyStreamEvent_calm t id _ _

theorem recvRequest_calm (s : Conn σ μ) (id : StreamId) (headers : List Header)
    (endStream : Bool) : Follows Calm s (recvRequest id headers endStream s) := by
  refine .get ?_
  cases s.streams.lookup id with
  | live stream => exact recvTrailers_calm s id stream headers endStream
  | closed => exact .throw _
  | idle =>
    refine .ite (fun _ => writeRstStream_calm s id _) fun _ => ?_
    refine .bind (openRejected_calm s id) fun opened t _ => ?_
    cases opened with
    | error why =>
      cases why with
      | protocol why => exact .throw _
      | refused => exact writeRstStream_calm t id _
    | ok =>
      exact .bind (applyStreamEvent_calm t id _ _) fun _ u _ =>
        dispatchRequest_calm u id headers endStream

omit [Service σ μ] in
theorem gatherBlock_calm (s : Conn σ μ) (fragment : Bytes) (endHeaders : Bool) :
    Follows Calm s (gatherBlock fragment endHeaders s) := by
  refine .get (.ite (fun _ => ?_) fun _ => .ite (fun _ => ?_) fun _ => ?_)
  · exact .bind (.modify (.rest rfl rfl rfl rfl rfl rfl rfl rfl rfl rfl)) fun _ t _ => .throw _
  · exact .bind (.modify (.rest rfl rfl rfl rfl rfl rfl rfl rfl rfl rfl)) fun _ t _ => .pure _
  · refine .bind (.modify (.rest rfl rfl rfl rfl rfl rfl rfl rfl rfl rfl)) fun _ t _ => ?_
    exact .bind (calm_guarded t _) fun _ u _ => .pure _

theorem readHeaderBlock_calm (s : Conn σ μ) (id : StreamId) (fragment : Bytes)
    (endHeaders : Bool) : Follows Calm s (readHeaderBlock id fragment endHeaders s) := by
  refine .bind (gatherBlock_calm s fragment endHeaders) fun block t _ => ?_
  cases block with
  | none => exact .pure _
  | some block =>
    refine .get ?_
    rcases t.hpackDec.decode block with ⟨hpackDec, result⟩
    refine .bind (.modify (.rest rfl rfl rfl rfl rfl rfl rfl rfl rfl rfl)) fun _ u _ => ?_
    cases result with
    | ok headers => exact .get (recvRequest_calm u id headers _)
    | error e =>
      cases e with
      | headerListTooLarge => exact rejectStream_calm u id 431
      | compression why => exact .throw _

theorem recvData_calm (s : Conn σ μ) (id : StreamId) (data : Bytes) (endStream : Bool) :
    Follows Calm s (recvData id data endStream s) := by
  refine .bind (calm_guarded s _) fun _ t _ => .get ?_
  cases t.connRecvWindow.record data.length with
  | error code => exact .throw _
  | ok connRecvWindow =>
    refine .bind (.onCore (.aside rfl rfl rfl rfl rfl (.refl _ _))) fun _ u _ => .get ?_
    cases u.streams.lookup id with
    | idle => exact .throw _
    | closed =>
      exact .bind (releaseConnWindow_calm u _) fun _ v _ => writeRstStream_calm v id _
    | live stream =>
      refine .bind (.onCore (.modifyStream _ id fun _ => rfl)) fun _ v _ => ?_
      cases stream.recvWindow.record data.length with
      | error code => exact writeRstStream_calm v id code
      | ok recvWindow =>
        refine .get ?_
        cases (if endStream then requestBodyError v id else none) with
        | some code => exact writeRstStream_calm v id code
        | none =>
          refine .bind (applyStreamEvent_calm v id _ _) fun _ w _ => ?_
          refine .ite (fun _ => ?_) fun _ => drainReclaimed_calm w
          exact .get (.bind (.onCore (.call _ _ _)) fun _ x _ => drainReclaimed_calm x)

theorem recvRstStream_calm (s : Conn σ μ) (id : StreamId) (code : ErrorCode) :
    Follows Calm s (recvRstStream id code s) := by
  refine .get ?_
  cases s.streams.lookup id with
  | idle => exact .throw _
  | closed => exact .pure _
  | live stream =>
    refine .get (.bind (calm_guarded s _) fun _ t _ => ?_)
    refine .bind (x := abandon id code) ?_ fun _ u _ => drainReclaimed_calm u
    refine .get (.bind (.onCore (.retire _ id)) fun _ u _ => ?_)
    exact .bind (unready_calm u id) fun _ v _ => .onCore (.call _ _ _)

/-! ## The drain -/

omit [Service σ μ] in
theorem beginDrain_calm (s : Conn σ μ) : Follows Calm s (beginDrain s) := by
  refine .get (.bind (.onCore (.aside rfl rfl rfl rfl rfl (.refl _ _))) fun _ t _ => ?_)
  exact queueFrame_calm t rfl

omit [Service σ μ] in
theorem advanceDrain_calm (s : Conn σ μ) (timerFired : Bool) :
    Follows Calm s (advanceDrain timerFired s) := by
  unfold advanceDrain
  refine .get ?_
  cases s.draining with
  | none => exact .pure _
  | some drain =>
    have rest : ∀ t : Conn σ μ, Follows Calm t ((do
        let s ← get
        if s.drainCommitted && (s.streams.liveCount = 0 || s.now ≥ drain.deadlineAt) then
          pure .close
        else pure .continue_ : ConnM σ μ Next) t) :=
      fun t => .get (.ite (fun _ => .pure _) fun _ => .pure _)
    refine .ite (fun _ => ?_) fun _ => rest s
    refine .bind (queueFrame_calm s rfl) fun _ t _ => ?_
    exact .bind (.onCore (.aside rfl rfl rfl rfl rfl (.refl _ _))) fun _ u _ => rest u

/-! ## The scheduler -/

theorem reportReleased_calm (s : Conn σ μ) (id : StreamId) (len : Nat) :
    Follows Calm s (reportReleased id len s) :=
  .ite (fun _ => .get (.onCore (.call _ _ _))) fun _ => .pure _

theorem flushPendingResets_calm (s : Conn σ μ) (es : List StreamError) :
    Follows Calm s (flushPendingResets es s) := by
  induction es generalizing s with
  | nil => exact .pure _
  | cons e es ih =>
    refine .bind (.onCore (.aside rfl rfl rfl rfl rfl (.refl _ _))) fun _ t _ => ?_
    exact .bind (writeRstStream_calm t _ _) fun _ u _ => ih u

end Conn

end H2Proxy
