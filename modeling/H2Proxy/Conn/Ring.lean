import H2Proxy.Conn.Effects
import H2Proxy.Conn.Run
import H2Proxy.Ring

/-
  A client connection keeps its ring.

  `Still` says of a step that it touches nothing the scheduler reads; `Rings` says of a
  program that the ring is in order where it ends with a value. A visit touches one stream
  only (`Visits`), which carries `Lap` from one visit to the next. The proofs follow the
  programs.
-/

namespace H2Proxy

/-- Whether a stream that was visited stays in the ring. -/
def Visit.stays : Visit → Bool
  | stalled => true
  | wrote more => more
  | finished => false

namespace Conn

variable {σ μ α β : Type} {s t u : Conn σ μ} {id : StreamId}

/-- Nothing the scheduler reads has changed. -/
structure Still (s t : Conn σ μ) : Prop where
  ready : t.ready = s.ready
  streams : s.streams.SameSending t.streams

theorem Still.refl (s : Conn σ μ) : Still s s := ⟨rfl, .refl _⟩

theorem Still.trans (h : Still s t) (h' : Still t u) : Still s u :=
  ⟨h'.ready.trans h.ready, h.streams.trans h'.streams⟩

theorem Still.core {c : ConnCore σ μ} (h : c.streams = s.streams) : Still s (s.withCore c) :=
  ⟨rfl, .of_get? fun id => congrArg (fun t : StreamTable => t.get? id) h⟩

theorem Still.modify (id : StreamId) {f : Stream → Stream}
    (h : ∀ st, s.streams.get? id = some st → (f st).sending = st.sending) :
    Still s (s.withCore (s.modifyStream id f)) :=
  ⟨rfl, .modify _ _ h⟩

/-- The ring is in order. -/
abbrev InRing (s : Conn σ μ) : Prop := Ring s.streams s.ready

theorem InRing.still (h : s.InRing) (still : Still s t) : t.InRing := by
  unfold InRing
  rw [still.ready]
  exact Lap.sameSending h still.streams

abbrev Stays (s : Conn σ μ) (r : EStateM.Result ConnectionError (Conn σ μ) α) : Prop :=
  Ends r (fun _ => Still s) fun _ _ => True

abbrev Rings (r : EStateM.Result ConnectionError (Conn σ μ) α) : Prop :=
  Ends r (fun _ => InRing) fun _ _ => True

theorem Stays.rings {r : EStateM.Result ConnectionError (Conn σ μ) α} (h : Stays s r)
    (hs : s.InRing) : Rings r :=
  h.mono (fun _ _ still => hs.still still) fun _ _ h => h

theorem Rings.bind {x : ConnM σ μ β} {f : β → ConnM σ μ α} (hx : Rings (x s))
    (hf : ∀ b t, t.InRing → Rings (f b t)) : Rings ((x >>= f) s) := by
  rw [Rings, ends_bind]
  exact hx.mono hf fun _ _ h => h

/-! ## Writing and credit -/

theorem queueFields_stays (s : Conn σ μ) (frame : Frame) (fields : List Header) :
    Stays s (queueFields frame fields s) := by
  unfold queueFields
  cases frame.write with
  | error e => trivial
  | ok octets =>
    simp only [ends_bind, ends_get, ends_onCore, ends_modify]
    exact ⟨rfl, .refl _⟩

theorem queueFrame_stays (s : Conn σ μ) (frame : Frame) : Stays s (queueFrame frame s) :=
  queueFields_stays s frame []

theorem queueHeaders_stays (s : Conn σ μ) (id : StreamId) (fields : List Header)
    (endStream : Bool) : Stays s (queueHeaders id fields endStream s) := by
  unfold queueHeaders
  simp only [ends_bind, ends_get, ends_onCore, ends_modify]
  exact (queueFields_stays _ _ _).mono (fun _ _ h => ⟨h.ready, h.streams⟩) fun _ _ h => h

theorem guarded_stays (s : Conn σ μ) (f : Guard → Guard × Verdict) : Stays s (guarded f s) := by
  unfold guarded check
  simp only [ends_bind, ends_get, ends_modify]
  cases (f s.guard).2 with
  | ok => exact ⟨rfl, .refl _⟩
  | trip signal => trivial

theorem releaseConnWindow_stays (s : Conn σ μ) (n : Nat) : Stays s (releaseConnWindow n s) := by
  unfold releaseConnWindow
  simp only [ends_bind, ends_get, ends_onCore]
  cases (s.connRecvWindow.release n).2 with
  | none => exact ⟨rfl, .refl _⟩
  | some increment =>
    exact (queueFrame_stays _ _).mono (fun _ _ h => ⟨h.ready, h.streams⟩) fun _ _ h => h

theorem drainReclaimed_stays (s : Conn σ μ) : Stays s (drainReclaimed s) := by
  unfold drainReclaimed
  simp only [ends_bind, ends_get, ends_onCore, ends_ite, ends_pure]
  refine ⟨fun _ => ⟨rfl, .refl _⟩, fun _ => ?_⟩
  exact (releaseConnWindow_stays _ _).mono (fun _ _ h => ⟨h.ready, h.streams⟩) fun _ _ h => h

theorem releaseRecvWindow_stays (s : Conn σ μ) (id : StreamId) (n : Nat) :
    Stays s (releaseRecvWindow id n s) := by
  have last : ∀ t, Still s t → Stays s (drainReclaimed t) := fun t ht =>
    (drainReclaimed_stays t).mono (fun _ _ h => ht.trans h) fun _ _ h => h
  unfold releaseRecvWindow
  simp only [ends_ite, ends_pure, ends_bind, ends_get]
  refine ⟨fun _ => .refl s, fun _ => ?_⟩
  cases s.streams.get? id with
  | none => exact last s (.refl s)
  | some stream =>
    simp only [ends_bind, ends_onCore]
    have first := Still.modify (s := s) id (f := fun st =>
      { st with
        recvWindow := (stream.recvWindow.release n).1
        pendingConnRelease := st.pendingConnRelease - n }) fun _ _ => rfl
    have credit : ∀ t, Still s t → Ends (releaseConnWindow n t)
        (fun _ u => Ends (drainReclaimed u) (fun _ => Still s) fun _ _ => True) fun _ _ => True :=
      fun t ht => (releaseConnWindow_stays t n).mono (fun _ u hu => last u (ht.trans hu))
        fun _ _ h => h
    cases (stream.recvWindow.release n).2 with
    | none =>
      simp only [ends_bind]
      exact credit _ first
    | some increment =>
      simp only [ends_bind]
      exact (queueFrame_stays _ _).mono (fun _ t ht => credit t (first.trans ht)) fun _ _ h => h

theorem gatherBlock_stays (s : Conn σ μ) (fragment : Bytes) (endHeaders : Bool) :
    Stays s (gatherBlock fragment endHeaders s) := by
  unfold gatherBlock
  simp only [ends_bind, ends_get, ends_ite, ends_modify, ends_pure]
  refine ⟨fun _ => trivial, fun _ => ⟨fun _ => ⟨rfl, .refl _⟩, fun _ => ?_⟩⟩
  exact (guarded_stays _ _).mono (fun _ _ h => ⟨h.ready, h.streams⟩) fun _ _ h => h

/-! ## Putting a stream on the ring -/

/-- A change that only adds to what a live stream has to send, and what follows it. -/
theorem enqueueReady_rings (h : s.InRing) {f : Stream → Stream}
    (gives : ∀ st, s.streams.get? id = some st → Lap.Gives st f) :
    Rings (enqueueReady id (s.withCore (s.modifyStream id f))) := by
  have here : (s.withCore (s.modifyStream id f)).streams.get? id = (s.streams.get? id).map f := by
    show (s.streams.modify id f).get? id = _
    rw [StreamTable.get?_modify, if_pos rfl]
  unfold enqueueReady
  simp only [ends_bind, ends_get]
  rw [here]
  cases hs : s.streams.get? id with
  | none =>
    show Ring (s.streams.modify id f) s.ready
    rw [StreamTable.modify_of_none f hs]
    exact h
  | some st =>
    simp only [Option.map_some, ends_ite, ends_pure, ends_bind, ends_onCore, ends_modify]
    refine ⟨fun stays => Lap.settled h hs (gives st hs) stays, fun goes => ?_⟩
    exact Lap.waiting h hs (gives st hs) (by simpa using goes)

/-! ## Ending a stream -/

section Service

variable [Service σ μ]

theorem abandon_rings (h : s.InRing) (id : StreamId) (code : ErrorCode) :
    Rings (abandon id code s) := by
  unfold abandon unready
  simp only [ends_bind, ends_get, ends_onCore, ends_modify]
  show Ring (s.streams.retire id) _
  refine Lap.retired h ?_ fun id' other => ?_
  · rw [StreamTable.get?_retire, if_pos rfl]
  · rw [StreamTable.get?_retire, if_neg other]

theorem writeRstStream_rings (h : s.InRing) (id : StreamId) (code : ErrorCode) :
    Rings (writeRstStream id code s) := by
  unfold writeRstStream
  refine (abandon_rings h id code).bind fun _ t ht => ?_
  refine ((drainReclaimed_stays t).rings ht).bind fun _ u hu => ?_
  exact (queueFrame_stays u _).rings hu

theorem applyStreamEvent_rings (h : s.InRing) (id : StreamId) (event : StreamEvent)
    (what : String) : Rings (applyStreamEvent id event what s) := by
  have others : ∀ id', id' ≠ id → (s.streams.apply id event).1.get? id' = s.streams.get? id' :=
    fun id' other => s.streams.get?_apply_ne event other
  unfold applyStreamEvent
  simp only [ends_bind, ends_get, ends_onCore]
  cases hr : (s.streams.apply id event).2 with
  | ok next =>
    simp only [ends_ite, ends_bind, ends_get, ends_pure, ends_onCore, unready, ends_modify]
    refine ⟨fun closed => ?_, fun goesOn => ?_⟩
    · refine (drainReclaimed_stays _).rings ?_
      exact Lap.retired h (StreamTable.apply_closed hr closed) others
    · exact Lap.applied h hr (by simpa using goesOn)
  | error e =>
    simp only [ends_ite, ends_bind, ends_fail, ends_onCore, unready, ends_modify]
    refine ⟨fun _ => trivial, fun _ => ?_⟩
    show Ring ((s.streams.apply id event).1.retire id) _
    refine Lap.retired h ?_ fun id' other => ?_
    · rw [StreamTable.get?_retire, if_pos rfl]
    · rw [StreamTable.get?_retire, if_neg other, others id' other]

/-! ## Responses -/

theorem sendResponse_rings (h : s.InRing) (id : StreamId) (response : Response)
    (endStream : Bool) : Rings (sendResponse id response endStream s) := by
  unfold sendResponse
  refine ((queueHeaders_stays s id _ _).rings h).bind fun _ t ht => ?_
  rw [Rings, ends_bind, ends_onCore]
  refine applyStreamEvent_rings ?_ id _ _
  exact ht.still (.modify id fun _ _ => rfl)

theorem sendTrailers_rings (h : s.InRing) (id : StreamId) (fields : List Header) :
    Rings (sendTrailers id fields s) := by
  unfold sendTrailers
  cases validateTrailers fields with
  | error code =>
    rw [Rings, ends_bind, ends_onCore]
    exact enqueueReady_rings h fun st _ => .ending st (·.pendingTrailers)
  | ok =>
    simp only [ends_bind, ends_get, ends_ite, ends_onCore]
    refine ⟨fun _ => enqueueReady_rings h fun st _ => .ending st fun _ => some fields,
      fun _ => ?_⟩
    refine (queueHeaders_stays s id _ _).mono (fun _ t ht => ?_) fun _ _ h => h
    exact applyStreamEvent_rings (h.still ht) id _ _

omit [Service σ μ] in
theorem openRejected_rings (h : s.InRing) (id : StreamId) (fresh : s.streams.get? id = none) :
    Rings (openRejected id s) := by
  have opened : Ring (s.streams.openPeer id).1 s.ready := by
    obtain ⟨why, -, ho⟩ | ⟨-, -, ho | ho⟩ := s.streams.openPeer_cases id
    · rw [ho]
      exact h
    · rw [ho]
      exact Lap.sameSending h (.of_get? fun _ => rfl)
    · rw [ho]
      have here := StreamTable.get?_insertNew { s.streams with highestPeerId := id } id
      have new := here id
      rw [if_pos rfl] at new
      refine Lap.opened h fresh new (fun id' other => ?_) rfl rfl rfl
      rw [here id', if_neg other]
      rfl
  unfold openRejected
  simp only [ends_bind, ends_get, ends_onCore]
  cases (s.streams.openPeer id).2 with
  | ok => exact opened
  | error e => exact opened

theorem rejectStream_rings (h : s.InRing) (id : StreamId) (status : Nat) :
    Rings (rejectStream id status s) := by
  unfold rejectStream
  simp only [ends_bind, ends_get, ends_ite]
  refine ⟨fun _ => sendResponse_rings h id _ _, fun gone => ?_⟩
  refine (openRejected_rings h id (by simpa using gone)).mono (fun opened t ht => ?_) fun _ _ h => h
  cases opened with
  | error e =>
    cases e with
    | protocol why => trivial
    | refused => exact writeRstStream_rings ht id _
  | ok =>
    refine (applyStreamEvent_rings ht id _ _).bind fun _ u hu => ?_
    exact sendResponse_rings hu id _ _

/-! ## Events -/

theorem refuseRequest_rings (h : s.InRing) (id : StreamId) (status : Nat) :
    Rings (refuseRequest id status s) := by
  unfold refuseRequest
  simp only [ends_bind, ends_get, ends_ite]
  exact ⟨fun _ => writeRstStream_rings h id _, fun _ => rejectStream_rings h id _⟩

theorem actOn_rings (h : s.InRing) (event : ServiceEvent) : Rings (actOn event s) := by
  unfold actOn
  cases event with
  | head id response endStream =>
    simp only [ends_bind, ends_get, ends_ite, ends_pure]
    exact ⟨fun _ => sendResponse_rings h id _ _, fun _ => h⟩
  | data id data endStream =>
    simp only [ends_bind, ends_get, ends_ite, ends_pure, ends_onCore]
    exact ⟨fun _ => enqueueReady_rings h fun st _ => .body st data endStream, fun _ => h⟩
  | trailers id fields =>
    simp only [ends_bind, ends_get, ends_ite, ends_pure]
    exact ⟨fun _ => sendTrailers_rings h id _, fun _ => h⟩
  | bodyAccepted id n => exact (releaseRecvWindow_stays s id n).rings h
  | gone id => exact refuseRequest_rings h id _
  | shed id => exact refuseRequest_rings h id _
  | reset id code =>
    simp only [ends_bind, ends_get, ends_ite, ends_pure]
    exact ⟨fun _ => writeRstStream_rings h id _, fun _ => h⟩

theorem handleServiceEvent_rings (h : s.InRing) (event : ServiceEvent) :
    Rings (handleServiceEvent event s) := by
  unfold handleServiceEvent
  simp only [ends_bind, ends_get, ends_onCore]
  cases (Service.intercept s.now event s.service).2 with
  | none => exact h
  | some event' =>
    simp only [ends_bind, ends_onCore]
    refine actOn_rings ?_ event'
    exact h

/-! ## Frames -/

theorem dispatchRequest_rings (h : s.InRing) (id : StreamId) (headers : List Header)
    (endStream : Bool) : Rings (dispatchRequest id headers endStream s) := by
  unfold dispatchRequest
  cases RequestHead.fromHeaders headers with
  | error code => exact writeRstStream_rings h id code
  | ok request =>
    dsimp only
    have rest : ∀ t : Conn σ μ, t.InRing → Rings (dispatchNoted id request endStream t) := by
      intro t ht
      unfold dispatchNoted
      simp only [ends_bind, ends_get]
      cases (if endStream then requestBodyError t id else none) with
      | some code => exact writeRstStream_rings ht id code
      | none => exact ht
    cases request.contentLength with
    | none => exact rest s h
    | some declared =>
      cases declared with
      | error code => exact writeRstStream_rings h id code
      | ok n =>
        rw [Rings, ends_bind, ends_onCore]
        exact rest _ (h.still (.modify id fun _ _ => rfl))

theorem recvTrailers_rings (h : s.InRing) (id : StreamId) (stream : Stream)
    (headers : List Header) (endStream : Bool) :
    Rings (recvTrailers id stream headers endStream s) := by
  unfold recvTrailers
  simp only [ends_ite]
  refine ⟨fun _ => writeRstStream_rings h id _, fun _ => ⟨fun _ => writeRstStream_rings h id _,
    fun _ => ?_⟩⟩
  cases validateTrailers headers with
  | error code => exact writeRstStream_rings h id code
  | ok =>
    simp only [ends_bind, ends_get]
    cases requestBodyError s id with
    | some code => exact writeRstStream_rings h id code
    | none =>
      simp only [ends_bind, ends_onCore]
      refine applyStreamEvent_rings ?_ id _ _
      exact h

theorem recvRequest_rings (h : s.InRing) (id : StreamId) (headers : List Header)
    (endStream : Bool) : Rings (recvRequest id headers endStream s) := by
  unfold recvRequest
  simp only [ends_bind, ends_get]
  cases hl : s.streams.lookup id with
  | live stream => exact recvTrailers_rings h id stream headers endStream
  | closed => trivial
  | idle =>
    simp only [ends_ite, ends_bind]
    refine ⟨fun _ => writeRstStream_rings h id _, fun _ => ?_⟩
    refine (openRejected_rings h id (StreamTable.lookup_idle hl).1).mono
      (fun opened t ht => ?_) fun _ _ h => h
    cases opened with
    | error e =>
      cases e with
      | protocol why => trivial
      | refused => exact writeRstStream_rings ht id _
    | ok =>
      refine (applyStreamEvent_rings ht id _ _).bind fun _ u hu => ?_
      exact dispatchRequest_rings hu id headers endStream

theorem readHeaderBlock_rings (h : s.InRing) (id : StreamId) (fragment : Bytes)
    (endHeaders : Bool) : Rings (readHeaderBlock id fragment endHeaders s) := by
  unfold readHeaderBlock
  refine ((gatherBlock_stays s fragment endHeaders).rings h).bind fun block t ht => ?_
  cases block with
  | none => exact ht
  | some block =>
    simp only [ends_bind, ends_get, ends_modify]
    cases (t.hpackDec.decode block).2 with
    | ok headers =>
      simp only [ends_bind, ends_get]
      exact recvRequest_rings (s := { t with hpackDec := (t.hpackDec.decode block).1 }) ht id _ _
    | error e =>
      cases e with
      | headerListTooLarge size limit =>
        exact rejectStream_rings (s := { t with hpackDec := (t.hpackDec.decode block).1 }) ht id 431
      | _ => trivial

theorem recvData_rings (h : s.InRing) (id : StreamId) (data : Bytes) (endStream : Bool) :
    Rings (recvData id data endStream s) := by
  unfold recvData
  refine ((guarded_stays s _).rings h).bind fun _ t ht => ?_
  simp only [ends_bind, ends_get]
  cases t.connRecvWindow.record data.length with
  | error code => trivial
  | ok window =>
    simp only [ends_bind, ends_get, ends_onCore]
    have hu : (t.withCore { t.toConnCore with connRecvWindow := window }).InRing := ht
    generalize t.withCore { t.toConnCore with connRecvWindow := window } = u at hu ⊢
    cases u.streams.lookup id with
    | idle => trivial
    | closed =>
      refine ((releaseConnWindow_stays u _).rings hu).bind fun _ v hv => ?_
      exact writeRstStream_rings hv id _
    | live stream =>
      simp only [ends_bind, ends_onCore]
      generalize hcredited : u.withCore (u.modifyStream id _) = v
      have hv : v.InRing := by
        rw [← hcredited]
        exact hu.still (.modify id fun _ _ => rfl)
      cases stream.recvWindow.record data.length with
      | error code => exact writeRstStream_rings hv id code
      | ok recvWindow =>
        simp only [ends_bind, ends_get]
        cases (if endStream then v.requestBodyError id else none) with
        | some code => exact writeRstStream_rings hv id code
        | none =>
          refine (applyStreamEvent_rings hv id _ _).bind fun _ x hx => ?_
          rw [Rings, ends_ite]
          exact ⟨fun _ => (drainReclaimed_stays _).rings hx, fun _ => (drainReclaimed_stays x).rings hx⟩

theorem recvRstStream_rings (h : s.InRing) (id : StreamId) (code : ErrorCode) :
    Rings (recvRstStream id code s) := by
  unfold recvRstStream
  simp only [ends_bind, ends_get]
  cases s.streams.lookup id with
  | idle => trivial
  | closed => exact h
  | live stream =>
    simp only [ends_bind, ends_get]
    refine (guarded_stays s _).mono (fun _ t ht => ?_) fun _ _ h => h
    refine (abandon_rings (h.still ht) id code).mono (fun _ u hu => ?_) fun _ _ h => h
    exact (drainReclaimed_stays u).rings hu

theorem recvWindowUpdate_rings (h : s.InRing) (id : StreamId) (increment : Nat) :
    Rings (recvWindowUpdate id increment s) := by
  unfold recvWindowUpdate
  simp only [ends_ite, ends_bind, ends_get]
  refine ⟨fun _ => ⟨fun _ => trivial, fun _ => writeRstStream_rings h id _⟩,
    fun _ => ⟨fun _ => ?_, fun _ => ?_⟩⟩
  · cases s.connSendWindow.increase increment with
    | error code => trivial
    | ok window => exact h
  · cases s.streams.lookup id with
    | idle => trivial
    | closed => exact h
    | live stream =>
      dsimp only
      cases stream.sendWindow.increase increment with
      | error code => exact writeRstStream_rings h id _
      | ok sendWindow =>
        simp only [ends_bind, ends_onCore]
        exact enqueueReady_rings h fun st _ => ⟨fun chunks => chunks, rfl, fun busy => busy⟩

omit [Service σ μ] in
theorem recvSettings_stays (s : Conn σ μ) (params : List (UInt16 × UInt32)) :
    Stays s (recvSettings params s) := by
  unfold recvSettings
  simp only [ends_bind, ends_get, ends_modify]
  cases (s.peerSettings.apply params).2 with
  | error e => trivial
  | ok =>
    simp only [ends_bind, ends_get, ends_modify, ends_ite, ends_onCore]
    refine ⟨fun _ => ?_, fun _ => ?_⟩
    · cases (s.streams.applyInitialWindowDelta _).2 with
      | error code => trivial
      | ok =>
        refine (queueFrame_stays _ _).mono (fun _ t ht => ?_) fun _ _ h => h
        exact ⟨ht.ready, (StreamTable.SameSending.applyInitialWindowDelta _ _).trans ht.streams⟩
    · exact (queueFrame_stays _ _).mono (fun _ t ht => ⟨ht.ready, ht.streams⟩) fun _ _ h => h

omit [Service σ μ] in
theorem recvSettingsAck_stays (s : Conn σ μ) : Stays s (recvSettingsAck s) := by
  unfold recvSettingsAck
  simp only [ends_bind, ends_get, ends_modify, ends_ite, ends_pure, ends_onCore]
  exact ⟨fun _ => ⟨rfl, .of_get? fun _ => rfl⟩, fun _ => ⟨rfl, .refl _⟩⟩

theorem handleFrame_rings (h : s.InRing) (frame : Frame) : Rings (handleFrame frame s) := by
  unfold handleFrame
  simp only [ends_bind, ends_get]
  cases s.headerBlockError frame.kind frame.streamId with
  | some e => trivial
  | none =>
    cases frame with
    | settings ack params =>
      cases ack with
      | false =>
        refine ((guarded_stays s _).rings h).bind fun _ t ht => ?_
        exact ((recvSettings_stays t params).rings ht).bind fun _ _ hu => hu
      | true =>
        refine ((guarded_stays s _).rings h).bind fun _ t ht => ?_
        exact ((recvSettingsAck_stays t).rings ht).bind fun _ _ hu => hu
    | ping data ack =>
      refine ((guarded_stays s _).rings h).bind fun _ t ht => ?_
      simp only [ends_ite, ends_bind, ends_pure]
      exact ⟨fun _ => ht, fun _ => (queueFrame_stays t _).rings ht⟩
    | goAway last code debug => exact h
    | windowUpdate id increment =>
      exact (recvWindowUpdate_rings h id increment).bind fun _ _ ht => ht
    | headers id block endStream endHeaders =>
      simp only [ends_bind, ends_modify]
      refine (readHeaderBlock_rings (s := { s with openHeaderEndStream := endStream }) h id block
        endHeaders).mono (fun _ t ht => ht) fun _ _ h => h
    | continuation id block endHeaders =>
      simp only [ends_bind, ends_modify]
      exact (readHeaderBlock_rings h id block endHeaders).mono (fun _ t ht => ht) fun _ _ h => h
    | data id data endStream => exact (recvData_rings h id data endStream).bind fun _ _ ht => ht
    | rstStream id code => exact (recvRstStream_rings h id code).bind fun _ _ ht => ht

theorem recvWire_rings (h : s.InRing) (w : WireFrame) : Rings (recvWire w s) := by
  unfold recvWire
  simp only [ends_bind, ends_onCore, ends_get, ends_ite]
  have ht : (s.withCore (s.toConnCore.observe (.heard w))).InRing := h
  generalize s.withCore (s.toConnCore.observe (.heard w)) = t at ht ⊢
  refine ⟨fun _ => trivial, fun _ => ?_⟩
  cases w.decode with
  | error e => trivial
  | ok decoded =>
    cases decoded with
    | frame frame => exact handleFrame_rings ht frame
    | ignored kind id =>
      dsimp only
      cases t.openHeaderBlock with
      | none => exact ht
      | some open_ =>
        dsimp only
        cases t.headerBlockError kind id with
        | some e => trivial
        | none => exact ht

/-! ## A visit -/

/-- Only one stream is touched, and it is flagged only with something left to send. -/
structure Visits (id : StreamId) (s t : Conn σ μ) : Prop where
  others : ∀ id', id' ≠ id →
    (t.streams.get? id').map Stream.sending = (s.streams.get? id').map Stream.sending
  chunks : ∀ st, t.streams.get? id = some st → [] ∉ st.sendQueue
  flag : ∀ st, t.streams.get? id = some st → st.queued = true → st.hasPendingSend = true

omit [Service σ μ] in
theorem Visits.still (h : Visits id s t) (still : Still t u) : Visits id s u := by
  refine ⟨fun id' other => (still.streams id').trans (h.others id' other), fun st hst => ?_,
    fun st hst => ?_⟩
  all_goals obtain ⟨st₀, hst₀, eq⟩ := still.streams.live hst
  · rw [Stream.sendQueue_congr eq]
    exact h.chunks st₀ hst₀
  · rw [Stream.queued_congr eq, Stream.hasPendingSend_congr eq]
    exact h.flag st₀ hst₀

omit [Service σ μ] in
/-- The stream that is visited changes. -/
theorem Visits.modify (h : Visits id s t) {f : Stream → Stream}
    (fits : ∀ st, t.streams.get? id = some st → [] ∉ (f st).sendQueue ∧
      ((f st).queued = true → (f st).hasPendingSend = true)) :
    Visits id s (t.withCore (t.modifyStream id f)) := by
  refine ⟨fun id' other => ?_, fun st hst => ?_, fun st hst => ?_⟩
  · rw [← h.others id' other]
    show ((t.streams.modify id f).get? id').map _ = _
    rw [StreamTable.get?_modify, if_neg other]
  all_goals
    replace hst : (t.streams.modify id f).get? id = some st := hst
    rw [StreamTable.get?_modify, if_pos rfl] at hst
    obtain ⟨st₀, hst₀, rfl⟩ := Option.map_eq_some_iff.mp hst
  · exact (fits st₀ hst₀).1
  · exact (fits st₀ hst₀).2

abbrev Visiting (id : StreamId) (s : Conn σ μ)
    (r : EStateM.Result ConnectionError (Conn σ μ) α) : Prop :=
  Ends r (fun _ => Visits id s) fun _ _ => True

omit [Service σ μ] in
theorem Visiting.bind {x : ConnM σ μ β} {f : β → ConnM σ μ α} (hx : Visiting id s (x t))
    (hf : ∀ b u, Visits id s u → Visiting id s (f b u)) : Visiting id s ((x >>= f) t) := by
  rw [Visiting, ends_bind]
  exact hx.mono hf fun _ _ h => h

omit [Service σ μ] in
theorem Stays.visiting {r : EStateM.Result ConnectionError (Conn σ μ) α} (h : Stays t r)
    (ht : Visits id s t) : Visiting id s r :=
  h.mono (fun _ _ still => ht.still still) fun _ _ h => h

omit [Service σ μ] in
/-- The stream that is visited goes. -/
theorem Visits.gone (h : Visits id s t) {u : Conn σ μ} (gone : u.streams.get? id = none)
    (others : ∀ id', id' ≠ id → u.streams.get? id' = t.streams.get? id') : Visits id s u := by
  refine ⟨fun id' other => by rw [others id' other, h.others id' other], fun st hst => ?_,
    fun st hst => ?_⟩
  all_goals
    rw [gone] at hst
    cases hst

theorem applyStreamEvent_visiting (h : Visits id s t) (event : StreamEvent) (what : String) :
    Visiting id s (applyStreamEvent id event what t) := by
  have others : ∀ id', id' ≠ id → (t.streams.apply id event).1.get? id' = t.streams.get? id' :=
    fun id' other => t.streams.get?_apply_ne event other
  unfold applyStreamEvent
  simp only [ends_bind, ends_get, ends_onCore]
  cases hr : (t.streams.apply id event).2 with
  | ok next =>
    simp only [ends_ite, ends_bind, ends_get, ends_pure, ends_onCore, unready, ends_modify]
    refine ⟨fun closed => ?_, fun goesOn => ?_⟩
    · refine (drainReclaimed_stays _).visiting ?_
      exact h.gone (StreamTable.apply_closed hr closed) others
    · have moved := h.modify (f := ({ · with state := next })) fun st hst =>
        ⟨h.chunks st hst, h.flag st hst⟩
      show Visits id s (t.withCore { t.toConnCore with streams := (t.streams.apply id event).1 })
      rw [StreamTable.apply_ok hr (by simpa using goesOn)]
      exact moved
  | error e =>
    simp only [ends_ite, ends_bind, ends_fail, ends_onCore, unready, ends_modify]
    refine ⟨fun _ => trivial, fun _ => ?_⟩
    refine h.gone (u := _) ?_ fun id' other => ?_
    · exact (StreamTable.get?_retire ..).trans (if_pos rfl)
    · exact ((StreamTable.get?_retire ..).trans (if_neg other)).trans (others id' other)

omit [Service σ μ] in
theorem enqueueReady_visiting (h : Visits id s t) : Visiting id s (enqueueReady id t) := by
  unfold enqueueReady
  simp only [ends_bind, ends_get]
  cases hs : t.streams.get? id with
  | none => exact h
  | some st =>
    simp only [ends_ite, ends_pure, ends_bind, ends_onCore, ends_modify, Bool.or_eq_true,
      Bool.not_eq_true', not_or, Bool.not_eq_true, Bool.not_eq_false]
    refine ⟨fun _ => h, fun waiting => ?_⟩
    have moved := h.modify (f := ({ · with queued := true })) fun st' hst' => by
      obtain rfl : st = st' := Option.some.inj (hs.symm.trans hst')
      exact ⟨h.chunks st hs, fun _ => waiting.2⟩
    exact ⟨moved.others, moved.chunks, moved.flag⟩

theorem sendTrailers_visiting (h : Visits id s t) (fields : List Header) :
    Visiting id s (sendTrailers id fields t) := by
  have ends : ∀ st : Stream, ∀ trailers,
      Stream.hasPendingSend { st with sendEndStream := true, pendingTrailers := trailers } = true := by
    intro st trailers
    unfold Stream.hasPendingSend
    simp
  unfold sendTrailers
  cases validateTrailers fields with
  | error code =>
    rw [Visiting, ends_bind, ends_onCore]
    exact enqueueReady_visiting (h.modify fun st hst => ⟨h.chunks st hst, fun _ => ends st _⟩)
  | ok =>
    simp only [ends_bind, ends_get, ends_ite, ends_onCore]
    refine ⟨fun _ => enqueueReady_visiting (h.modify fun st hst => ⟨h.chunks st hst, fun _ => ends st _⟩),
      fun _ => ?_⟩
    refine (queueHeaders_stays t id _ _).mono (fun _ u hu => ?_) fun _ _ h => h
    exact applyStreamEvent_visiting (h.still hu) _ _

omit [Service σ μ] in
theorem spend_visiting (h : Visits id s t) (stream : Stream) (len : Nat) :
    Visiting id s (spend id stream len t) := by
  unfold spend
  simp only [ends_ite, ends_bind, ends_get, ends_pure]
  refine ⟨fun _ => ?_, fun _ => h⟩
  cases stream.sendWindow.consume len with
  | error code => trivial
  | ok sendWindow =>
    cases t.connSendWindow.consume len with
    | error code => trivial
    | ok connSendWindow =>
      simp only [ends_bind, ends_onCore, ends_modify]
      have moved := h.modify (f := ({ · with sendWindow })) fun st hst =>
        ⟨h.chunks st hst, h.flag st hst⟩
      exact ⟨moved.others, moved.chunks, moved.flag⟩

theorem transmit_visiting (h : Visits id s t) (turn : Stream.Turn) :
    Visiting id s (transmit id turn t) := by
  unfold transmit
  rw [Visiting, ends_ite]
  refine ⟨fun _ => ?_, fun _ => h⟩
  exact ((queueFrame_stays t _).visiting h).bind fun _ u hu => applyStreamEvent_visiting hu _ _

theorem reportReleased_stays (s : Conn σ μ) (id : StreamId) (len : Nat) :
    Stays s (reportReleased id len s) := by
  unfold reportReleased
  simp only [ends_ite, ends_bind, ends_get, ends_onCore, ends_pure]
  exact ⟨fun _ => ⟨rfl, .refl _⟩, fun _ => .refl s⟩

variable {rest kept : List StreamId}

omit [Service σ μ] in
/-- After a visit the stream stays in the lap exactly where it has something left to send. -/
theorem Visits.lap (h : Visits id s t) (lap : Lap s.streams (id :: rest) kept) {more : Bool}
    (busy : (t.streams.get? id).any Stream.hasPendingSend = more) :
    Lap t.streams rest (if more then id :: kept else kept) :=
  lap.visited h.others busy h.chunks h.flag

/-- A visit ends with one stream less to visit, and keeps it where it has more to send. -/
theorem visitReadyStream_lap (h : Lap s.streams (id :: rest) kept) :
    Ends (visitReadyStream id s)
      (fun visit t => Lap t.streams rest (if visit.stays then id :: kept else kept))
      fun _ _ => True := by
  have notKept : id ∉ kept := fun member =>
    (List.nodup_cons.mp h.inStep.nodup).1 (List.mem_append_right rest member)
  have start : Visits id s s := by
    refine ⟨fun _ _ => rfl, fun st hst => h.chunks id st hst, fun st hst queued => ?_⟩
    rw [← h.flags id st hst notKept]
    exact queued
  unfold visitReadyStream
  simp only [ends_bind, ends_get]
  cases hs : s.streams.get? id with
  | none => exact start.lap h (by rw [hs]; rfl)
  | some st =>
    have chunks := h.chunks id st hs
    simp only [ends_ite, ends_bind, ends_onCore, ends_pure]
    refine ⟨fun blocked => ?_, fun credit => ⟨fun nothing => ?_, fun something => ?_⟩⟩
    · have octets : st.pendingSend > 0 := by simp_all
      have parked := start.modify (f := ({ · with queued := false }))
        fun st' hst' => ⟨h.chunks id st' hst', nofun⟩
      refine parked.lap h ?_
      show ((s.streams.modify id _).get? id).any _ = true
      rw [StreamTable.get?_modify, if_pos rfl, hs]
      exact Stream.hasPendingSend_of_pendingSend octets
    · refine (start.modify fun _ _ => ⟨Stream.turn_chunks chunks, nofun⟩).lap h ?_
      show ((s.streams.modify id _).get? id).any _ = false
      rw [StreamTable.get?_modify, if_pos rfl, hs]
      simp only [Bool.and_eq_true, decide_eq_true_eq, Bool.not_eq_true', Option.isNone_iff_eq_none]
        at nothing credit
      exact Stream.turn_idle chunks credit nothing.1.1 nothing.1.2 nothing.2
    · have turned := start.modify (f := fun _ => (st.turn (s.budget st)).rest)
        fun _ _ => ⟨Stream.turn_chunks chunks, nofun⟩
      refine (spend_visiting turned st _).mono (fun _ u hu => ?_) fun _ _ h => h
      refine (transmit_visiting hu _).mono (fun _ v hv => ?_) fun _ _ h => h
      refine ((reportReleased_stays v id _).visiting hv).mono (fun _ w hw => ?_) fun _ _ h => h
      cases (st.turn (s.budget st)).trailers with
      | none => exact hw.lap h rfl
      | some fields =>
        simp only [ends_bind]
        refine (sendTrailers_visiting hw fields).mono (fun _ x hx => ?_) fun _ _ h => h
        exact hx.lap h rfl

/-! ## A lap -/

/-- The streams of a lap are visited in order; those that stay are kept. -/
theorem visitLap_lap {lap : List StreamId} (h : Lap s.streams lap kept) :
    Ends (visitLap lap s) (fun r t => Lap t.streams [] (r.1 ++ r.2.1 ++ kept)) fun _ _ => True := by
  induction lap generalizing s kept with
  | nil => exact h
  | cons id lap ih =>
    unfold visitLap
    rw [ends_bind]
    refine (visitReadyStream_lap h).mono (fun visit t ht => ?_) fun _ _ h => h
    rw [ends_bind]
    refine (ih ht).mono (fun r u hu => ?_) fun _ _ h => h
    obtain ⟨stalled, served, wrote⟩ := r
    cases visit with
    | stalled => exact hu.perm List.perm_middle
    | finished => exact hu
    | wrote more =>
      cases more with
      | false => exact hu
      | true =>
        refine hu.perm ?_
        show (stalled ++ served ++ id :: kept).Perm (stalled ++ id :: served ++ kept)
        rw [List.append_assoc, List.append_assoc]
        exact List.Perm.append_left stalled List.perm_middle

omit [Service σ μ] in
theorem requeue_lap {ids : List StreamId} (h : Lap s.streams rest ids) :
    Ends (requeue ids s) (fun _ t => Lap t.streams (rest ++ ids) []) fun _ _ => True := by
  induction ids generalizing s rest with
  | nil =>
    rw [List.append_nil]
    exact h
  | cons id ids ih =>
    unfold requeue
    rw [ends_bind, ends_onCore]
    have flagged : Lap (s.withCore (s.modifyStream id ({ · with queued := true }))).streams
      (rest ++ [id]) ids := h.flagged
    have := ih flagged
    rw [List.append_assoc] at this
    exact this

theorem pumpLap_rings (h : s.InRing) : Rings (pumpLap s) := by
  unfold pumpLap
  simp only [ends_bind, ends_get, ends_modify, ends_pure]
  refine (visitLap_lap (s := { s with ready := [] }) h).mono (fun r t ht => ?_) fun _ _ h => h
  obtain ⟨stalled, served, wrote⟩ := r
  rw [List.append_nil] at ht
  refine (requeue_lap ht).mono (fun _ u hu => ?_) fun _ _ h => h
  have live : (stalled ++ served).filter (fun id => (u.streams.get? id).isSome) = stalled ++ served := by
    have := hu.inStep
    rw [List.append_nil] at this
    exact this.filter_isSome
  show Ring u.streams ((stalled ++ served).filter fun id => (u.streams.get? id).isSome)
  rw [live]
  exact hu

theorem pumpLaps_rings (h : s.InRing) (fuel : Nat) : Rings (pumpLaps fuel s) := by
  induction fuel generalizing s with
  | zero => exact h
  | succ fuel ih =>
    unfold pumpLaps
    simp only [ends_bind, ends_get, ends_ite, ends_pure]
    refine ⟨fun _ => h, fun _ => ?_⟩
    refine (pumpLap_rings h).mono (fun _ t ht => ?_) fun _ _ h => h
    exact ⟨fun _ => ih ht, fun _ => ht⟩

theorem flushPendingResets_rings (h : s.InRing) (resets : List StreamError) :
    Rings (flushPendingResets resets s) := by
  induction resets generalizing s with
  | nil => exact h
  | cons e es ih =>
    unfold flushPendingResets
    rw [Rings, ends_bind, ends_onCore]
    have popped : (s.withCore { s.toConnCore with pendingReset := s.pendingReset.dropLast }).InRing := h
    exact (writeRstStream_rings popped e.stream e.code).bind fun _ t ht => ih ht

theorem pumpOutbound_rings (h : s.InRing) : Rings (pumpOutbound s) := by
  unfold pumpOutbound
  simp only [ends_bind, ends_get]
  refine (pumpLaps_rings h _).mono (fun _ t ht => ?_) fun _ _ h => h
  exact flushPendingResets_rings ht _

/-! ## Runs -/

omit [Service σ μ] in
theorem syncAdmission_stays (s : Conn σ μ) (budget : Nat) : Stays s (syncAdmission budget s) := by
  unfold syncAdmission
  simp only [ends_bind, ends_get, ends_ite, ends_pure, ends_modify, ends_onCore]
  refine ⟨fun _ => .refl s, fun _ => ⟨fun _ => ?_, fun _ => ?_⟩⟩
  all_goals exact (queueFrame_stays _ _).mono (fun _ _ h => ⟨h.ready, h.streams⟩) fun _ _ h => h

omit [Service σ μ] in
theorem beginDrain_stays (s : Conn σ μ) : Stays s (beginDrain s) := by
  unfold beginDrain
  simp only [ends_bind, ends_get, ends_onCore]
  exact (queueFrame_stays _ _).mono (fun _ _ h => ⟨h.ready, h.streams⟩) fun _ _ h => h

omit [Service σ μ] in
theorem advanceDrain_stays (s : Conn σ μ) (timerFired : Bool) :
    Stays s (advanceDrain timerFired s) := by
  unfold advanceDrain
  simp only [ends_bind, ends_get]
  cases s.draining with
  | none => exact .refl s
  | some drain =>
    simp only [ends_ite, ends_bind, ends_get, ends_pure, ends_onCore]
    refine ⟨fun _ => ?_, fun _ => ⟨fun _ => .refl s, fun _ => .refl s⟩⟩
    refine (queueFrame_stays _ _).mono (fun _ t ht => ?_) fun _ _ h => h
    exact ⟨fun _ => ⟨ht.ready, ht.streams⟩, fun _ => ⟨ht.ready, ht.streams⟩⟩

theorem react_rings (h : s.InRing) (input : ConnInput) : Rings (react input s) := by
  unfold react
  cases input with
  | frame w => exact recvWire_rings h w
  | arrival event => exact h
  | event =>
    simp only [ends_bind, ends_get]
    cases s.events with
    | nil => exact h
    | cons event events =>
      simp only [ends_bind, ends_onCore]
      refine (handleServiceEvent_rings ?_ event).mono (fun _ _ ht => ht) fun _ _ h => h
      exact h
  | pump budget =>
    refine ((syncAdmission_stays s budget).rings h).bind fun _ t ht => ?_
    exact (pumpOutbound_rings ht).bind fun _ _ hu => hu
  | wrote n => exact h
  | shutdown =>
    simp only [ends_bind, ends_get, ends_ite, ends_pure]
    exact ⟨fun _ => (beginDrain_stays s).rings h, fun _ => h⟩
  | advance timerFired => exact (advanceDrain_stays s timerFired).rings h
  | hangup => exact h

/-- A step that goes on keeps the ring in order. -/
theorem step_inRing (h : s.InRing) (i : Instant × ConnInput) (goesOn : (step i s).stop = none) :
    (step i s).InRing := by
  unfold step at *
  split at goesOn
  · rw [if_pos (by assumption)]
    exact h
  · rw [if_neg (by assumption)]
    have outcome := react_rings (s := { s with now := i.1 }) h i.2
    cases hr : react i.2 { s with now := i.1 } with
    | error e t =>
      rw [hr] at goesOn
      cases goesOn
    | ok next t =>
      rw [hr] at goesOn outcome
      cases next with
      | continue_ => exact outcome
      | close => cases goesOn

/-- Between two steps the ring of a connection that has not stopped is in order. -/
theorem reachable_inRing (h : (machine σ μ).Reachable s) (running : s.stop = none) : s.InRing := by
  refine h.invariant (I := fun s => s.stop = none → s.InRing) ?_ ?_ running
  · rintro s ⟨service, localSettings, window, limits, policy, admission, now, -, -, -, rfl⟩ -
    exact Lap.new _ _ _
  · intro s i ih _ goesOn
    cases hs : s.stop with
    | none => exact step_inRing (ih hs) i goesOn
    | some stop =>
      have still : step i s = s := by
        unfold step
        rw [if_pos (by rw [hs]; rfl)]
      change (step i s).stop = none at goesOn
      rw [still, hs] at goesOn
      cases goesOn

end Service

end Conn

end H2Proxy
