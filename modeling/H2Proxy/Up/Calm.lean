import H2Proxy.Hpack.Growth
import H2Proxy.Tap
import H2Proxy.Up.Steps

/-
  What an upstream connection leaves alone unless it is told to change it.

  `Calm` says of a stretch of a step that it grants and spends no credit, queues plain frames only,
  keeps the backend's settings, and leaves the encoder within its bound. Every function is calm
  but the scheduler, the probe, and those that act on WINDOW_UPDATE, SETTINGS and PING.
-/

namespace H2Proxy

/-- What an upstream connection heard and sent. -/
def UpObs.tap : Tap UpObs where
  heard
    | .heard w => w.frame?
    | _ => none
  sent
    | .queued f _ _ => some f
    | _ => none

/-- Nothing heard, and only plain frames sent. -/
def UpObs.plain : UpObs → Bool
  | heard _ => false
  | queued f _ _ => f.plain
  | _ => true

namespace Upstream

/-- Neither credit nor settings change, and only plain frames are sent. -/
structure Calm (s t : Upstream) : Prop where
  log : Adds (fun o => o.plain) s.log t.log
  connSendWindow : t.connSendWindow = s.connSendWindow
  peerSettings : t.peerSettings = s.peerSettings
  maxConcurrent : t.streams.maxConcurrent = s.streams.maxConcurrent
  initialSendWindow : t.streams.initialSendWindow = s.streams.initialSendWindow
  top : s.streams.highestLocalId ≤ t.streams.highestLocalId
  other : t.streams.highestPeerId = s.streams.highestPeerId
  /-- The encoder keeps to whatever bound it kept to. -/
  encoder : ∀ bound, s.hpackEnc.Within bound → t.hpackEnc.Within bound
  /-- A stream keeps its send window, or is new. -/
  windows : ∀ id st', t.streams.get? id = some st' →
    (∃ st, s.streams.get? id = some st ∧ st'.sendWindow = st.sendWindow) ∨
      ¬ id ≤ s.streams.highestLocalId ∧ id ≤ t.streams.highestLocalId ∧
        st'.sendWindow = ⟨s.streams.initialSendWindow⟩

variable {s t u : Upstream} {α β : Type}

namespace Calm

theorem refl (s : Upstream) : Calm s s :=
  ⟨.refl _ _, rfl, rfl, rfl, rfl, Nat.le_refl _, rfl, fun _ h => h,
    fun _ st' h => .inl ⟨st', h, rfl⟩⟩

theorem trans (h : Calm s t) (h' : Calm t u) : Calm s u := by
  refine ⟨h.log.trans h'.log, h'.connSendWindow.trans h.connSendWindow,
    h'.peerSettings.trans h.peerSettings, h'.maxConcurrent.trans h.maxConcurrent,
    h'.initialSendWindow.trans h.initialSendWindow, Nat.le_trans h.top h'.top,
    h'.other.trans h.other, fun bound within => h'.encoder bound (h.encoder bound within),
    fun id st'' live => ?_⟩
  obtain ⟨st', live', same⟩ | ⟨unseen, seen, new⟩ := h'.windows id st'' live
  · rw [same]
    obtain old | ⟨unseen, seen, new⟩ := h.windows id st' live'
    · exact .inl old
    · exact .inr ⟨unseen, Nat.le_trans seen h'.top, new⟩
  · exact .inr ⟨fun seen => unseen (Nat.le_trans seen h.top), seen, h.initialSendWindow ▸ new⟩

/-- The streams stay as they are, and so does what they are sent by. -/
theorem aside (streams : t.streams = s.streams) (log : Adds (fun o => o.plain) s.log t.log)
    (connSendWindow : t.connSendWindow = s.connSendWindow)
    (peerSettings : t.peerSettings = s.peerSettings) (encoder : t.hpackEnc = s.hpackEnc) :
    Calm s t := by
  refine ⟨log, connSendWindow, peerSettings, ?_, ?_, ?_, ?_, fun _ within => encoder ▸ within,
    fun id st' live => .inl ⟨st', ?_, rfl⟩⟩
  · rw [streams]
  · rw [streams]
  · rw [streams]
    exact Nat.le_refl _
  · rw [streams]
  · rw [← streams]
    exact live

theorem observe (s : Upstream) {o : UpObs} (plain : o.plain) :
    Calm s (s.withCore (s.toUpstreamCore.observe o)) := .aside rfl (.one plain) rfl rfl rfl

/-- A stream is changed in place, and its send window is not. -/
theorem modifyStream (s : Upstream) (id : StreamId) {f : Stream → Stream}
    (h : ∀ st, (f st).sendWindow = st.sendWindow) :
    Calm s (s.withCore (s.toUpstreamCore.modifyStream id f)) := by
  refine ⟨.refl _ _, rfl, rfl, rfl, rfl, Nat.le_refl _, rfl, fun _ h => h,
    fun id' st' live => .inl ?_⟩
  have live : (s.streams.modify id f).get? id' = some st' := live
  rw [StreamTable.get?_modify] at live
  split at live
  · rename_i heq
    subst heq
    obtain ⟨st, hst, rfl⟩ := Option.map_eq_some_iff.mp live
    exact ⟨st, hst, h st⟩
  · exact ⟨st', live, rfl⟩

theorem retire (s : Upstream) (id : StreamId) :
    Calm s (s.withCore (s.toUpstreamCore.retire id)) := by
  obtain ⟨maxConcurrent, initial⟩ :
      (s.streams.retire id).maxConcurrent = s.streams.maxConcurrent ∧
        (s.streams.retire id).initialSendWindow = s.streams.initialSendWindow := by
    unfold StreamTable.retire
    split <;> exact ⟨rfl, rfl⟩
  refine ⟨.refl _ _, rfl, rfl, maxConcurrent, initial,
    Nat.le_of_eq (congrArg _ (StreamTable.retire_highestLocalId _ _).symm),
    StreamTable.retire_top _ _, fun _ h => h, fun id' st' live => .inl ⟨st', ?_, rfl⟩⟩
  have live : (s.streams.retire id).get? id' = some st' := live
  rw [StreamTable.get?_retire] at live
  split at live
  · cases live
  · exact live

theorem apply (s : Upstream) (id : StreamId) (event : StreamEvent) :
    Calm s (s.withCore { s.toUpstreamCore with streams := (s.streams.apply id event).1 }) := by
  unfold StreamTable.apply
  cases hs : s.streams.get? id with
  | none => exact .refl s
  | some st =>
    dsimp only
    cases st.state.transition event with
    | error code => exact .refl s
    | ok next =>
      have moved := modifyStream s id (f := ({ · with state := next })) fun _ => rfl
      dsimp only
      split
      · refine moved.trans ?_
        have retired := retire (s.withCore (s.toUpstreamCore.modifyStream id ({ · with state := next }))) id
        exact ⟨retired.log, retired.connSendWindow, retired.peerSettings, retired.maxConcurrent,
          retired.initialSendWindow, retired.top, retired.other, retired.encoder, retired.windows⟩
      · exact moved

theorem openLocal (s : Upstream) (id : StreamId) (nextStreamId : Nat) :
    Calm s (s.withCore { s.toUpstreamCore with
      nextStreamId, streams := (s.streams.openLocal id).1 }) := by
  cases hopen : (s.streams.openLocal id).2 with
  | error e =>
    rw [StreamTable.openLocal_error hopen]
    exact .aside rfl (.refl _ _) rfl rfl rfl
  | ok =>
    obtain ⟨-, unseen, -, opened⟩ := StreamTable.openLocal_ok hopen
    rw [opened]
    refine ⟨.refl _ _, rfl, rfl, rfl, rfl, Nat.le_of_lt (Nat.lt_of_not_le unseen), rfl,
      fun _ h => h, fun id' st' live => ?_⟩
    have live := (StreamTable.get?_insertNew ..).symm.trans live
    split at live
    · rename_i heq
      cases live
      exact .inr ⟨heq ▸ unseen, heq ▸ Nat.le_refl _, rfl⟩
    · exact .inl ⟨st', live, rfl⟩

end Calm

instance : Std.Refl Calm := ⟨Calm.refl⟩

instance : IsTrans Upstream Calm := ⟨fun _ _ _ => Calm.trans⟩

theorem calm_ignore {x : UpM Unit} (h : Follows Calm s (x s)) : Follows Calm s (ignore x s) := by
  unfold ignore
  cases hx : x s with
  | ok u t =>
    rw [hx] at h
    exact h
  | error e t =>
    rw [hx] at h
    exact h

/-- Of the core only what is not about streams changes. -/
theorem calm_onCore {f : UpstreamCore → UpstreamCore} (streams : (f s.toUpstreamCore).streams = s.streams)
    (log : Adds (fun o => o.plain) s.log (f s.toUpstreamCore).log) : Follows Calm s (onCore f s) :=
  Calm.aside streams log rfl rfl rfl

theorem tell_calm (s : Upstream) (request : RequestId) (events : Events) (event : ServiceEvent) :
    Follows Calm s (tell request events event s) := Calm.observe s rfl

theorem queueFields_calm (s : Upstream) {frame : Frame} (fields : List Header)
    (plain : frame.plain) : Follows Calm s (queueFields frame fields s) := by
  unfold queueFields
  cases frame.write with
  | error e => exact .throw _
  | ok octets =>
    exact .get (.bind (x := onCore _) (Calm.observe s plain) fun _ t _ =>
      .modify (.aside rfl (.refl _ _) rfl rfl rfl))

theorem queueFrame_calm (s : Upstream) {frame : Frame} (plain : frame.plain) :
    Follows Calm s (queueFrame frame s) := queueFields_calm s [] plain

theorem queueHeaders_calm (s : Upstream) (id : StreamId) (fields : List Header)
    (endStream : Bool) : Follows Calm s (queueHeaders id fields endStream s) := by
  have noted : Calm s { s with
      toUpstreamCore :=
        s.toUpstreamCore.observe (.encoded s.hpackEnc fields s.peerSettings.maxFrameSize)
      hpackEnc := (s.hpackEnc.encode fields).1 } :=
    ⟨.one rfl, rfl, rfl, rfl, rfl, Nat.le_refl _, rfl, fun _ within => within.encode fields,
      fun _ st' h => .inl ⟨st', h, rfl⟩⟩
  exact Follows.after noted (queueFields_calm _ fields rfl)

theorem unready_calm (s : Upstream) (id : StreamId) : Follows Calm s (unready id s) :=
  .modify (.aside rfl (.refl _ _) rfl rfl rfl)

theorem enqueueReady_calm (s : Upstream) (id : StreamId) : Follows Calm s (enqueueReady id s) := by
  refine .get ?_
  cases s.streams.get? id with
  | none => exact .pure _
  | some stream =>
    refine .ite (fun _ => .pure _) fun _ => ?_
    refine .bind (x := onCore _) (Calm.modifyStream s id fun _ => rfl) fun _ t _ => ?_
    exact .modify (.aside rfl (.refl _ _) rfl rfl rfl)

theorem syncQueued_calm (s : Upstream) : Follows Calm s (syncQueued s) :=
  calm_onCore rfl (.refl _ _)

/-! ## Credit -/

theorem releaseConnWindow_calm (s : Upstream) (n : Nat) :
    Follows Calm s (releaseConnWindow n s) := by
  refine .get ?_
  rcases s.connRecvWindow.release n with ⟨connRecvWindow, increment⟩
  refine .bind (calm_onCore rfl (.refl _ _)) fun _ t _ => ?_
  cases increment with
  | none => exact .pure _
  | some increment => exact queueFrame_calm t rfl

theorem releaseStream_calm (s : Upstream) (id : StreamId) (n : Nat) :
    Follows Calm s (releaseStream id n s) := by
  refine .get ?_
  cases s.streams.get? id with
  | none => exact .pure _
  | some stream =>
    dsimp only
    rcases stream.recvWindow.release n with ⟨recvWindow, increment⟩
    refine .bind (x := onCore _) (Calm.modifyStream s id fun _ => rfl) fun _ t _ => ?_
    cases increment with
    | none => exact .pure _
    | some increment => exact queueFrame_calm t rfl

theorem release_calm (s : Upstream) (id : StreamId) (n : Nat) : Follows Calm s (release id n s) := by
  refine .ite (fun _ => .pure _) fun _ => .bind (calm_onCore rfl (.refl _ _)) fun _ t _ => ?_
  exact .bind (releaseStream_calm t id n) fun _ u _ => releaseConnWindow_calm u n

/-! ## Ending and starting streams -/

theorem writeRstStream_calm (s : Upstream) (id : StreamId) (code : ErrorCode) :
    Follows Calm s (writeRstStream id code s) := by
  refine .bind (x := onCore _) (Calm.retire s id) fun _ t _ => ?_
  exact .bind (unready_calm t id) fun _ u _ => queueFrame_calm u rfl

section Drain

variable {drain : UpM Unit}

theorem forgetWith_calm (h : ∀ t, Follows Calm t (drain t)) (s : Upstream) (id : StreamId) :
    Follows Calm s (forgetWith drain id s) := by
  refine .bind (x := onCore _) (Calm.retire s id) fun _ t _ => ?_
  refine .bind (unready_calm t id) fun _ u _ => .get ?_
  cases u.routes.lookup id with
  | none => exact calm_ignore (h u)
  | some route =>
    refine .bind (calm_onCore rfl (.refl _ _)) fun _ v _ => .ite (fun _ => ?_) fun _ =>
      calm_ignore (h v)
    exact .bind (calm_ignore (releaseConnWindow_calm v _)) fun _ w _ => calm_ignore (h w)

theorem failStreamWith_calm (h : ∀ t, Follows Calm t (drain t)) (s : Upstream) (id : StreamId)
    (status : Nat) : Follows Calm s (failStreamWith drain id status s) := by
  have rest : ∀ t : Upstream, Follows Calm t ((do
      if ((← get).streams.get? id).isSome then writeRstStream id .cancel else pure ()
      forgetWith drain id : UpM Unit) t) := fun t =>
    .get (.ite
      (fun _ => .bind (writeRstStream_calm t id _) fun _ u _ => forgetWith_calm h u id)
      fun _ => forgetWith_calm h t id)
  refine .get ?_
  cases s.routes.lookup id with
  | none => exact rest s
  | some route => exact .bind (tell_calm s _ _ _) fun _ t _ => rest t

theorem applyStreamEventWith_calm (h : ∀ t, Follows Calm t (drain t)) (s : Upstream)
    (id : StreamId) (event : StreamEvent) :
    Follows Calm s (applyStreamEventWith drain id event s) := by
  have moved := Calm.apply s id event
  refine .get ?_
  generalize s.streams.apply id event = applied at moved ⊢
  obtain ⟨streams, result⟩ := applied
  refine .bind (x := onCore _) moved fun _ t _ => ?_
  cases result with
  | ok state => exact .ite (fun _ => unready_calm t id) fun _ => .pure _
  | error e => exact .ite (fun _ => .throw _) fun _ => failStreamWith_calm h t id 502

theorem sendRequestWith_calm (h : ∀ t, Follows Calm t (drain t)) (s : Upstream)
    (request : RequestId) (clientId : StreamId) (head : RequestHead) (endStream : Bool)
    (events : Events) :
    Follows Calm s (sendRequestWith drain request clientId head endStream events s) := by
  refine .get (.ite (fun _ => calm_onCore rfl (.refl _ _)) fun _ =>
    .ite (fun _ => tell_calm s _ _ _) fun _ => .ite (fun _ => .ite (fun _ => tell_calm s _ _ _) fun _ => ?_)
      fun _ => ?_)
  · exact .bind (calm_onCore rfl (.refl _ _)) fun _ t _ => syncQueued_calm t
  · have moved := Calm.openLocal s (.new s.nextStreamId) (satAdd32 s.nextStreamId 2)
    generalize s.streams.openLocal (.new s.nextStreamId) = tried at moved ⊢
    obtain ⟨streams, opened⟩ := tried
    refine .bind (x := onCore _) moved fun _ t _ => ?_
    cases opened with
    | error e => exact tell_calm t _ _ _
    | ok =>
      refine .bind (calm_onCore rfl (.refl _ _)) fun _ u _ => ?_
      refine .bind (calm_onCore rfl (.one rfl)) fun _ v _ => ?_
      exact .bind (queueHeaders_calm v _ _ _) fun _ w _ => applyStreamEventWith_calm h w _ _

end Drain

theorem sendWaiting_calm (s : Upstream) (pending : Pending) (id : StreamId) :
    Follows Calm s (sendWaiting pending id s) :=
  .bind (x := onCore _) (Calm.modifyStream s id fun _ => rfl) fun _ t _ => enqueueReady_calm t id

theorem drainPendingFrom_calm (s : Upstream) (fuel : Nat) :
    Follows Calm s (drainPendingFrom fuel s) := by
  induction fuel generalizing s with
  | zero => exact .pure _
  | succ fuel ih =>
    refine .get (.ite (fun _ => ?_) fun _ => .pure _)
    cases s.pending with
    | nil => exact syncQueued_calm s
    | cons p pending =>
      refine .bind (calm_onCore rfl (.refl _ _)) fun _ t _ => .bind (syncQueued_calm t) fun _ u _ => ?_
      refine .bind (sendRequestWith_calm ih u _ _ _ _ _) fun _ v _ => .get ?_
      cases v.requests.lookup p.request with
      | none => exact ih v
      | some id => exact .bind (sendWaiting_calm v p id) fun _ w _ => ih w

theorem drainPending_calm (s : Upstream) : Follows Calm s (drainPending s) :=
  .get (drainPendingFrom_calm s _)

theorem forget_calm (s : Upstream) (id : StreamId) : Follows Calm s (forget id s) :=
  forgetWith_calm drainPending_calm s id

theorem failStream_calm (s : Upstream) (id : StreamId) (status : Nat) :
    Follows Calm s (failStream id status s) := failStreamWith_calm drainPending_calm s id status

theorem applyStreamEvent_calm (s : Upstream) (id : StreamId) (event : StreamEvent) :
    Follows Calm s (applyStreamEvent id event s) :=
  applyStreamEventWith_calm drainPending_calm s id event

/-! ## Messages -/

theorem handleMessage_calm (s : Upstream) (m : ToUpstream) : Follows Calm s (handleMessage m s) := by
  refine .bind (x := onCore _) (Calm.observe s rfl) fun _ t _ => ?_
  cases m with
  | request id clientId head endStream events =>
    exact sendRequestWith_calm drainPending_calm t id clientId head endStream events
  | body request data endStream =>
    refine .get ?_
    cases t.requests.lookup request with
    | none => exact calm_onCore rfl (.refl _ _)
    | some id =>
      exact .bind (x := onCore _) (Calm.modifyStream t id fun _ => rfl) fun _ u _ =>
        enqueueReady_calm u id
  | trailers request fields =>
    refine .get ?_
    cases t.requests.lookup request with
    | none => exact calm_onCore rfl (.refl _ _)
    | some id =>
      exact .bind (x := onCore _) (Calm.modifyStream t id fun _ => rfl) fun _ u _ =>
        enqueueReady_calm u id
  | released request n =>
    refine .get ?_
    cases t.requests.lookup request with
    | none => exact .pure _
    | some id => exact release_calm t id n
  | cancel request code =>
    refine .get ?_
    cases t.requests.lookup request with
    | none =>
      refine .bind (calm_onCore rfl (.refl _ _)) fun _ u _ => ?_
      exact .bind (syncQueued_calm u) fun _ v _ => calm_onCore rfl (.refl _ _)
    | some id =>
      exact .get (.ite
        (fun _ => .bind (writeRstStream_calm t id code) fun _ u _ => forget_calm u id)
        fun _ => forget_calm t id)

/-! ## Frames -/

theorem refusePending_calm (s : Upstream) (pending : List Pending) :
    Follows Calm s (refusePending pending s) := by
  induction pending generalizing s with
  | nil => exact .pure _
  | cons p pending ih => exact .bind (tell_calm s _ _ _) fun _ t _ => ih t

theorem abandon_calm (s : Upstream) (ids : List StreamId) : Follows Calm s (abandon ids s) := by
  induction ids generalizing s with
  | nil => exact .pure _
  | cons id ids ih =>
    refine .get ?_
    cases s.routes.lookup id with
    | none => exact .bind (forget_calm s id) fun _ t _ => ih t
    | some route =>
      exact .bind (tell_calm s _ _ _) fun _ t _ => .bind (forget_calm t id) fun _ u _ => ih u

theorem beginPeerDrain_calm (s : Upstream) (lastStreamId : StreamId) :
    Follows Calm s (beginPeerDrain lastStreamId s) := by
  refine .get (.bind (calm_onCore rfl (.refl _ _)) fun _ t _ => ?_)
  exact .bind (refusePending_calm t _) fun _ u _ => abandon_calm u _

theorem recvResponse_calm (s : Upstream) (id : StreamId) (headers : List Header)
    (endStream : Bool) : Follows Calm s (recvResponse id headers endStream s) := by
  unfold recvResponse
  refine .get ?_
  cases s.streams.lookup id with
  | idle => exact .throw _
  | _ =>
    cases s.routes.lookup id with
    | none => exact .pure _
    | some route =>
      have rest : ∀ t : Upstream, Follows Calm t ((do
          applyStreamEvent id (.recvHeaders endStream)
          if endStream then forget id else pure () : UpM Unit) t) := fun t =>
        .bind (applyStreamEvent_calm t id _) fun _ u _ =>
          .ite (fun _ => forget_calm u id) fun _ => .pure _
      refine .ite (fun _ => ?_) fun _ => ?_
      · cases validateTrailers headers with
        | error code => exact rest s
        | ok => exact .bind (tell_calm s _ _ _) fun _ t _ => rest t
      · cases ResponseHead.fromHeaders headers with
        | error code => exact failStream_calm s id 502
        | ok head =>
          refine .ite (fun _ => applyStreamEvent_calm s id _) fun _ => ?_
          refine .bind (calm_onCore rfl (.refl _ _)) fun _ t _ => ?_
          exact .bind (tell_calm t _ _ _) fun _ u _ => rest u

theorem readHeaderBlock_calm (s : Upstream) (id : StreamId) (fragment : Bytes)
    (endHeaders : Bool) : Follows Calm s (readHeaderBlock id fragment endHeaders s) := by
  have kept : ∀ {t t' : Upstream}, t'.toUpstreamCore = t.toUpstreamCore →
      t'.connSendWindow = t.connSendWindow → t'.peerSettings = t.peerSettings →
        t'.hpackEnc = t.hpackEnc → Calm t t' :=
    fun core window peer encoder =>
      .aside (by rw [core]) (by rw [core]; exact .refl _ _) window peer encoder
  refine .get (.ite (fun _ => ?_) fun _ => .ite (fun _ => .modify (kept rfl rfl rfl rfl)) fun _ => ?_)
  · exact .bind (.modify (kept rfl rfl rfl rfl)) fun _ t _ => .throw _
  refine .bind (.modify (kept rfl rfl rfl rfl)) fun _ t _ => .get ?_
  rcases t.hpackDec.decode (s.headerBlock ++ fragment) with ⟨hpackDec, result⟩
  refine .bind (.modify (kept rfl rfl rfl rfl)) fun _ u _ => ?_
  cases result with
  | ok headers => exact .get (recvResponse_calm u id headers _)
  | error e =>
    cases e with
    | headerListTooLarge => exact failStream_calm u id 502
    | compression why => exact .throw _

theorem recvData_calm (s : Upstream) (id : StreamId) (data : Bytes) (endStream : Bool) :
    Follows Calm s (recvData id data endStream s) := by
  refine .get ?_
  cases s.connRecvWindow.record data.length with
  | error code => exact .throw _
  | ok connRecvWindow =>
    refine .bind (calm_onCore rfl (.refl _ _)) fun _ t _ => .get ?_
    cases t.streams.lookup id with
    | idle => exact .throw _
    | closed => exact releaseConnWindow_calm t _
    | live stream =>
      dsimp only
      cases stream.recvWindow.record data.length with
      | error code =>
        exact .bind (writeRstStream_calm t id _) fun _ u _ => failStream_calm u id 502
      | ok recvWindow =>
        have rest : ∀ u : Upstream, Follows Calm u ((do
            applyStreamEvent id (.recvData endStream)
            if endStream then forget id else pure () : UpM Unit) u) := fun u =>
          .bind (applyStreamEvent_calm u id _) fun _ v _ =>
            .ite (fun _ => forget_calm v id) fun _ => .pure _
        refine .bind (x := onCore _) (Calm.modifyStream t id fun _ => rfl) fun _ u _ => .get ?_
        cases u.routes.lookup id with
        | none => exact rest u
        | some route =>
          exact .bind (calm_onCore rfl (.refl _ _)) fun _ v _ =>
            .bind (tell_calm v _ _ _) fun _ w _ => rest w

theorem recvRstStream_calm (s : Upstream) (id : StreamId) (code : ErrorCode) :
    Follows Calm s (recvRstStream id code s) := by
  refine .get ?_
  cases s.routes.lookup id with
  | none => exact forget_calm s id
  | some route => exact .bind (tell_calm s _ _ _) fun _ t _ => forget_calm t id

/-! ## What the scheduler does besides DATA -/

theorem reportAccepted_calm (s : Upstream) (id : StreamId) (len : Nat) :
    Follows Calm s (reportAccepted id len s) := by
  refine .get ?_
  cases s.routes.lookup id with
  | none => exact .pure _
  | some route => exact .ite (fun _ => tell_calm s _ _ _) fun _ => .pure _

theorem transmitTrailers_calm (s : Upstream) (id : StreamId) (fields : List Header) :
    Follows Calm s (transmitTrailers id fields s) :=
  .bind (queueHeaders_calm s id fields true) fun _ t _ => applyStreamEvent_calm t id _

theorem requeue_calm (s : Upstream) (ids : List StreamId) : Follows Calm s (requeue ids s) := by
  induction ids generalizing s with
  | nil => exact .pure _
  | cons id ids ih =>
    exact .bind (x := onCore _) (Calm.modifyStream s id fun _ => rfl) fun _ t _ => ih t

end Upstream

end H2Proxy
