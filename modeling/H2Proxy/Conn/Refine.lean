import H2Proxy.Conn.Effects

/-
  Every step of a client connection is a sequence of moves.

  A function that answers a frame or an event `Makes` moves; where an error ends the
  connection in the middle of one, it `Breaks` off, and what is left is a `Fault` of the
  last core. `step_moves` says so of a whole step.
-/

namespace H2Proxy

namespace ConnCore

variable {σ μ : Type}

theorem reclaim_top (c : ConnCore σ μ) (limit : Nat) :
    (c.reclaim limit).streams.highestPeerId = c.streams.highestPeerId := by
  unfold reclaim
  dsimp only
  split <;> rfl

theorem get?_reclaim (c : ConnCore σ μ) (limit : Nat) (id : StreamId) :
    (c.reclaim limit).streams.get? id = c.streams.get? id := by
  unfold reclaim
  dsimp only
  split <;> rfl

@[simp] theorem observe_streams (c : ConnCore σ μ) (o : ConnObs μ) :
    (c.observe o).streams = c.streams := rfl

theorem get?_abandon [Service σ μ] (c : ConnCore σ μ) (now : Instant) (id : StreamId)
    (code : ErrorCode) : (c.abandon now id code).streams.get? id = none := by
  show (c.streams.retire id).get? id = none
  rw [StreamTable.get?_retire, if_pos rfl]

theorem get?_writeRst [Service σ μ] (c : ConnCore σ μ) (now : Instant) (id : StreamId)
    (code : ErrorCode) (limit : Nat) : (c.writeRst now id code limit).streams.get? id = none := by
  show ((c.abandon now id code).reclaim limit).streams.get? id = none
  rw [get?_reclaim, get?_abandon]

/-- An idle id stays idle when a reset is sent for it. -/
theorem lookup_writeRst [Service σ μ] (c : ConnCore σ μ) (now : Instant) {id : StreamId}
    (code : ErrorCode) (limit : Nat) (idle : c.streams.lookup id = .idle) :
    (c.writeRst now id code limit).streams.lookup id = .idle := by
  have seen : (c.writeRst now id code limit).streams.seen id = c.streams.seen id := by
    show ((c.abandon now id code).reclaim limit).streams.seen id = _
    unfold reclaim
    dsimp only
    have retired : (c.streams.retire id).seen id = c.streams.seen id := by
      unfold StreamTable.retire
      split <;> rfl
    split <;> exact retired
  unfold StreamTable.lookup
  rw [get?_writeRst, seen, (StreamTable.lookup_idle idle).2]
  rfl

theorem settle_top [Service σ μ] (c : ConnCore σ μ) (now : Instant) (id : StreamId)
    (event : StreamEvent) (limit : Nat) :
    (c.settle now id event limit).streams.highestPeerId = c.streams.highestPeerId := by
  have top := c.streams.apply_top id event
  unfold settle
  generalize c.streams.apply id event = r at top
  obtain ⟨streams, result⟩ := r
  cases result with
  | ok state =>
    dsimp only
    split
    · rw [reclaim_top]
      exact top
    · exact top
  | error e =>
    dsimp only
    split
    · exact top
    · exact (streams.retire_top id).trans top

/-- A stream that was opened is at the highest id. -/
theorem openRequest_top [Service σ μ] {c : ConnCore σ μ} (now : Instant) {id : StreamId}
    (endStream : Bool) (limit : Nat) (isOpen : (c.streams.openPeer id).2 = .ok ()) :
    id ≤ (c.openRequest now id endStream limit).streams.highestPeerId := by
  obtain ⟨-, -, htable⟩ := StreamTable.openPeer_ok isOpen
  unfold openRequest
  rw [settle_top]
  show id ≤ (c.streams.openPeer id).1.highestPeerId
  rw [htable]
  exact Nat.le_refl _

/-- A stream that was opened is live, and nothing of its body is known. -/
theorem get?_openRequest [Service σ μ] {c : ConnCore σ μ} (now : Instant) {id : StreamId}
    (endStream : Bool) (limit : Nat) (isOpen : (c.streams.openPeer id).2 = .ok ()) :
    (c.openRequest now id endStream limit).streams.get? id =
      some { Stream.new c.streams.initialSendWindow c.streams.initialRecvWindow with
        state := if endStream then .halfClosedRemote else .open_ } := by
  obtain ⟨-, -, htable⟩ := StreamTable.openPeer_ok isOpen
  have opened : (c.streams.openPeer id).1.get? id =
      some (.new c.streams.initialSendWindow c.streams.initialRecvWindow) := by
    rw [htable]
    exact (StreamTable.get?_insertNew ..).trans (if_pos rfl)
  unfold openRequest settle StreamTable.apply
  dsimp only [observe]
  rw [opened]
  cases endStream with
  | false =>
    refine (StreamTable.get?_modify ..).trans ?_
    rw [if_pos rfl, opened]
    rfl
  | true =>
    refine (StreamTable.get?_modify ..).trans ?_
    rw [if_pos rfl, opened]
    rfl

/-- The length a request declares is noted on its stream. -/
theorem get?_declare {c : ConnCore σ μ} {id : StreamId} {st : Stream}
    (live : c.streams.get? id = some st) (contentLength : Option Nat) :
    (c.declare id contentLength).streams.get? id =
      some { st with contentLength := contentLength.or st.contentLength } := by
  cases contentLength with
  | none => exact live
  | some n =>
    refine (StreamTable.get?_modify ..).trans ?_
    rw [if_pos rfl, live]
    rfl

end ConnCore

namespace Conn

variable {σ μ : Type}

/-- The settings and the decoder are within their protocol's bounds. -/
structure Sound (s : Conn σ μ) : Prop where
  frameSize : s.peerSettings.FrameSizeOk
  decoder : s.hpackDec.WF
  capacity : s.hpackDec.capacity < 2 ^ 32
  maxFrameSize : s.localSettings.maxFrameSize < 2 ^ 32

theorem Sound.fits {s : Conn σ μ} (h : Sound s) : defaultMaxFrameSize ≤ s.limit := h.frameSize.1

theorem Kept.sound {r s : Conn σ μ} (h : Kept r s) (hr : Sound r) : Sound s where
  frameSize := h.peerSettings ▸ hr.frameSize
  decoder := h.hpackDec ▸ hr.decoder
  capacity := h.hpackDec ▸ hr.capacity
  maxFrameSize := h.localSettings ▸ hr.maxFrameSize

theorem start_sound {service : σ} {localSettings : Settings} {window : Int} {limits : Limits}
    {policy : DrainPolicy} {admission : Option Nat} {now : Instant} (h : localSettings.InU32) :
    Sound (start service localSettings window limits policy admission now : Conn σ μ) where
  frameSize := ⟨Nat.le_refl _, by
    show defaultMaxFrameSize ≤ _
    exact small_le (Nat.le_refl _)⟩
  decoder := .new _ _
  capacity := h.headerTableSize_lt
  maxFrameSize := by
    cases admission <;> exact h.maxFrameSize_lt

theorem Fresh.sound {s : Conn σ μ} (h : Fresh s) : Sound s := by
  obtain ⟨service, localSettings, window, limits, policy, admission, now, hu, -, -, rfl⟩ := h
  exact start_sound hu

theorem requestBodyError_some {s : Conn σ μ} {id : StreamId} {stream : Stream} {code : ErrorCode}
    (live : s.streams.get? id = some stream) (h : s.requestBodyError id = some code) :
    stream.contentLengthMatches = false := by
  unfold requestBodyError at h
  rw [live] at h
  dsimp only at h
  split at h
  · cases h
  · rename_i hm
    exact Bool.not_eq_true _ ▸ hm

theorem requestBodyError_none {s : Conn σ μ} {id : StreamId} {stream : Stream}
    (live : s.streams.get? id = some stream) (h : s.requestBodyError id = none) :
    stream.contentLengthMatches = true := by
  unfold requestBodyError at h
  rw [live] at h
  dsimp only at h
  split at h
  · assumption
  · cases h

variable [Service σ μ] {P : Permit σ μ}

structure Makes (P : Permit σ μ) (r s : Conn σ μ) : Prop where
  moves : Moves P r.toConnCore s.toConnCore
  sound : Sound s
  paced : Paced r s

structure Breaks (P : Permit σ μ) (r : Conn σ μ) (e : ConnectionError) (s : Conn σ μ) : Prop where
  moves : ∃ c, Moves P r.toConnCore c ∧ Fault P c s.toConnCore
  frameSize : s.peerSettings.FrameSizeOk
  short : e.Short

theorem Makes.refl {s : Conn σ μ} (h : Sound s) : Makes P s s := ⟨.refl, h, .refl s⟩

theorem Makes.trans {r s t : Conn σ μ} (h : Makes P r s) (h' : Makes P s t) : Makes P r t :=
  ⟨h.moves.trans h'.moves, h'.sound, h.paced.trans h'.paced⟩

theorem Makes.breaks {r s t : Conn σ μ} {e : ConnectionError} (h : Makes P r s)
    (h' : Breaks P s e t) : Breaks P r e t :=
  let ⟨c, hc, hf⟩ := h'.moves
  ⟨⟨c, h.moves.trans hc, hf⟩, h'.frameSize, h'.short⟩

/-- Go on with a program from where moves have led. -/
theorem Makes.next {α : Type} {r s : Conn σ μ} {x : EStateM.Result ConnectionError (Conn σ μ) α}
    (h : Makes P r s) (hx : Ends x (fun _ => Makes P s) (Breaks P s)) :
    Ends x (fun _ => Makes P r) (Breaks P r) :=
  hx.mono (fun _ _ ht => h.trans ht) fun _ _ ht => h.breaks ht

theorem Does.makes {r s : Conn σ μ} {c : ConnCore σ μ} (h : r.Does c s) (hr : Sound r)
    (moves : Moves P r.toConnCore c) : Makes P r s :=
  ⟨h.core ▸ moves, h.kept.sound hr, h.kept.toPaced⟩

theorem Does.move {r s : Conn σ μ} {c : ConnCore σ μ} (h : r.Does c s) (hr : Sound r)
    (move : Move P r.toConnCore c) : Makes P r s :=
  h.makes hr (.single move)

theorem Does.stay {r s : Conn σ μ} (h : r.Does r.toConnCore s) (hr : Sound r) : Makes P r s :=
  h.makes hr .refl

theorem DoesAlike.makes {r s : Conn σ μ} {c : ConnCore σ μ} (h : r.DoesAlike c s) (hr : Sound r)
    (moves : Moves P r.toConnCore c) : Makes P r s :=
  let ⟨_, halike, hd⟩ := h
  hd.makes hr (moves.tail (.alike halike))

theorem Does.breaks {r s : Conn σ μ} {c c' : ConnCore σ μ} {e : ConnectionError}
    (h : r.Does c' s) (hr : Sound r) (he : e.Short) (moves : Moves P r.toConnCore c)
    (fault : Fault P c c') : Breaks P r e s :=
  ⟨⟨c, moves, h.core ▸ fault⟩, (h.kept.sound hr).frameSize, he⟩

/-- An error with the core as it was. -/
theorem Sound.breaks {s : Conn σ μ} {e : ConnectionError} (h : Sound s) (he : e.Short) :
    Breaks P s e s :=
  ⟨⟨s.toConnCore, .refl, .none _⟩, h.frameSize, he⟩

/-! ## Ending a stream -/

/-- A reset is one move of what has been done. -/
theorem writeRstStream_makes {r s : Conn σ μ} (hr : Sound r) {c : ConnCore σ μ} (hs : r.Does c s)
    {id : StreamId} {code : ErrorCode}
    (move : Move P r.toConnCore (c.writeRst r.now id code r.limit)) :
    Ends (writeRstStream id code s) (fun _ => Makes P r) (Breaks P r) := by
  refine (writeRstStream_ends s id code).ok ?_
  rintro - t ht
  exact (hs.after (fun c now limit => c.writeRst now id code limit) ht).move hr move

/-! ## Responses -/

/-- The text of an error about a rejected stream id is short. -/
theorem rejected_short (id : StreamId) {why : String} (h : why.length ≤ 60) :
    ConnectionError.Short ⟨.protocolError, s!"stream {id.get}: {why}"⟩ :=
  ((((Within.text "stream " (k := 10) (by decide)).append
    (.nat (n := id.get) (by have := id.lt; omega))).append
    (.text ": " (k := 2) (by decide))).append (.text why h)).short (by decide)

/-- A response is one move of what has been done; where its block cannot be encoded, what is
    left is a fault. -/
theorem sendResponse_makes {r s : Conn σ μ} (hr : Sound r) {c : ConnCore σ μ} (hs : r.Does c s)
    {id : StreamId} {response : Response} {endStream : Bool}
    (move : Move P r.toConnCore (c.respond r.now id response endStream s.hpackEnc r.limit))
    (cut : ∃ c', Moves P r.toConnCore c' ∧
      Fault P c' (c.observe (.encoded s.hpackEnc response.toHeaders r.limit))) :
    Ends (sendResponse id response endStream s) (fun _ => Makes P r) (Breaks P r) := by
  have done : ∀ t, s.Does (s.toConnCore.respond s.now id response endStream s.hpackEnc s.limit) t →
      r.Does (c.respond r.now id response endStream s.hpackEnc r.limit) t := fun t ht =>
    hs.after (fun c now limit => c.respond now id response endStream s.hpackEnc limit) ht
  refine (sendResponse_ends s id response endStream).mono ?_ ?_
  · rintro - t ht
    exact (done t ht).move hr move
  · rintro e t ⟨ht | ht, he⟩
    · obtain ⟨c', moves, fault⟩ := cut
      exact (hs.after (fun c _ limit => c.observe (.encoded s.hpackEnc response.toHeaders limit))
        ht).breaks hr he moves fault
    · exact (done t ht).breaks hr he (.single move) (.none _)

/-- A local answer for an id that is not live: it is opened for the answer, where it may be. -/
theorem rejectStream_opens {s : Conn σ μ} (hs : Sound s) {id : StreamId} {status : Nat}
    (gone : s.streams.get? id = none) (cause : P.Answers s.toConnCore id) :
    Ends (rejectStream id status s) (fun _ => Makes P s) (Breaks P s) := by
  unfold rejectStream
  rw [ends_bind, ends_get, gone, ends_ite]
  refine ⟨nofun, fun _ => ?_⟩
  rw [ends_bind]
  refine (openRejected_ends s id).ok ?_
  rintro opened t ⟨hopened, ht⟩
  cases opened with
  | error why =>
    cases why with
    | protocol why =>
      obtain ⟨hsame, hwhy⟩ := StreamTable.openPeer_protocol hopened.symm
      rw [hsame] at ht
      exact ht.breaks hs (rejected_short id hwhy) .refl (.none _)
    | refused =>
      exact writeRstStream_makes hs ht (.on (.crowded s.now (.inr cause) hopened.symm hs.fits))
  | ok =>
    have fits := hs.fits
    have step : ∀ u, t.Does (t.toConnCore.settle t.now id (.recvHeaders true) t.limit) u →
        s.Does (s.toConnCore.openRequest s.now id true s.limit) u := fun u hu =>
      ht.after (fun c now limit => c.settle now id (.recvHeaders true) limit) hu
    simp only [ends_bind]
    refine (applyStreamEvent_ends t id (.recvHeaders true) (by decide)).mono ?_ ?_
    · rintro - u hu
      exact sendResponse_makes hs (step u hu)
        (.on (.answered s.now status u.hpackEnc hopened.symm cause fits))
        ⟨_, .refl, .unanswerable s.now _ _ hopened.symm cause fits⟩
    · rintro e u ⟨hu, -, he⟩
      exact (step u hu).breaks hs he .refl (.opened s.now true hopened.symm (.inr cause) fits)

/-- 431, on a stream that is live or on one opened for it. -/
theorem rejectStream_oversized {s : Conn σ μ} (hs : Sound s) {id : StreamId} {size max : Nat}
    {endStream : Bool}
    (permit : P.block s.toConnCore id endStream (.error (.headerListTooLarge size max))) :
    Ends (rejectStream id 431 s) (fun _ => Makes P s) (Breaks P s) := by
  cases hlive : s.streams.get? id with
  | none => exact rejectStream_opens hs hlive (.inl ⟨_, _, _, permit⟩)
  | some stream =>
    unfold rejectStream
    rw [ends_bind, ends_get, hlive, ends_ite]
    refine ⟨fun _ => ?_, fun h => absurd rfl h⟩
    exact sendResponse_makes hs (Does.refl s) (.on (.oversized s.now _ permit hlive hs.fits))
      ⟨_, .single (.note (.encoded _ _ _)), .none _⟩

/-! ## Events

Each is acted on in the state `s` that has just noted it, and makes moves from `r`, before
the note. -/

section Events

variable {r s : Conn σ μ} {e : ServiceEvent}

theorem handled_idle (hr : Sound r) (hs : r.Does (r.toConnCore.observe (.handled e)) s)
    (permit : P.event r.toConnCore e)
    (idle : r.streams.get? e.id = none ∨ e = .bodyAccepted e.id 0) : Makes P r s :=
  hs.move hr (.on (.handled permit idle))

theorem releaseRecvWindow_makes {id : StreamId} {n : Nat} (hr : Sound r)
    (hs : r.Does (r.toConnCore.observe (.handled (.bodyAccepted id n))) s)
    (permit : P.event r.toConnCore (.bodyAccepted id n)) :
    Ends (releaseRecvWindow id n s) (fun _ => Makes P r) (Breaks P r) := by
  have hstreams : s.streams = r.streams := by rw [hs.core]; rfl
  refine (releaseRecvWindow_ends s id n).ok ?_
  rintro - t ht
  by_cases hn : n = 0
  · subst hn
    have ms := handled_idle hr hs permit (.inr rfl)
    exact ms.trans (ht.stay ms.sound)
  · rw [if_neg hn, hstreams] at ht
    cases hlive : r.streams.get? id with
    | none =>
      rw [hlive] at ht
      have ms := handled_idle hr hs permit (.inl hlive)
      exact ms.trans (ht.move ms.sound (.reclaimed ms.sound.fits))
    | some stream =>
      rw [hlive] at ht
      have dt := hs.after (fun c _ limit => (c.credit id stream n limit).reclaim limit) ht
      exact dt.makes hr (.tail (.single (.on (.credited permit hlive hr.fits))) (.reclaimed hr.fits))

theorem refuseRequest_makes (hr : Sound r) (hs : r.Does (r.toConnCore.observe (.handled e)) s)
    (permit : P.event r.toConnCore e) (status : Nat) (refusal : e.isRefusal) :
    Ends (refuseRequest e.id status s) (fun _ => Makes P r) (Breaks P r) := by
  have hstreams : s.streams = r.streams := by rw [hs.core]; rfl
  unfold refuseRequest
  simp only [ends_bind, ends_get, ends_ite, hstreams]
  cases hlive : r.streams.get? e.id with
  | none =>
    refine ⟨nofun, fun _ => ?_⟩
    have ms := handled_idle hr hs permit (.inl hlive)
    refine ms.next (rejectStream_opens ms.sound (by rw [hstreams, hlive]) (.inr ?_))
    exact ⟨r.toConnCore, e, hs.core, permit, refusal, rfl⟩
  | some stream =>
    refine ⟨fun _ => writeRstStream_makes hr hs
      (.on (.dropped r.now _ permit (.inl refusal) hlive hr.fits)), fun h => ?_⟩
    have started : stream.responseStarted = false := by simpa using h
    unfold rejectStream
    rw [ends_bind, ends_get, hstreams, hlive, ends_ite]
    refine ⟨fun _ => ?_, fun h => absurd rfl h⟩
    exact sendResponse_makes hr hs
      (.on (.refused r.now status _ permit refusal hlive started hr.fits))
      ⟨_, .refl, .unencodableEvent e _ _ _⟩

theorem sendTrailers_makes {id : StreamId} {fields : List Header} {stream : Stream} (hr : Sound r)
    (hs : r.Does (r.toConnCore.observe (.handled (.trailers id fields))) s)
    (permit : P.event r.toConnCore (.trailers id fields))
    (live : r.streams.get? id = some stream) :
    Ends (sendTrailers id fields s) (fun _ => Makes P r) (Breaks P r) := by
  have move : Move P r.toConnCore
      ((r.toConnCore.observe (.handled (.trailers id fields))).sendTrailers r.now id fields
        s.hpackEnc r.limit) :=
    .on (.trailersDue r.now _ permit live hr.fits)
  refine (sendTrailers_ends s id fields).mono ?_ ?_
  · rintro - t ⟨streams, halike, ht⟩
    rw [hs.core, hs.kept.now, hs.kept.limit] at ht halike
    exact (hs.trans ht).makes hr (.tail (.single move) (.alike halike))
  · rintro e t ⟨ht | ht, he⟩
    · exact (hs.after (fun c _ limit => c.observe (.encoded s.hpackEnc fields limit)) ht).breaks hr
        he .refl (.unencodableEvent _ _ _ _)
    · exact (hs.after (fun c now limit => c.sendTrailers now id fields s.hpackEnc limit) ht).breaks
        hr he (.single move) (.none _)

theorem actOn_makes (hr : Sound r) (hs : r.Does (r.toConnCore.observe (.handled e)) s)
    (permit : P.event r.toConnCore e) :
    Ends (actOn e s) (fun _ => Makes P r) (Breaks P r) := by
  have hstreams : s.streams = r.streams := by rw [hs.core]; rfl
  unfold actOn
  cases e with
  | bodyAccepted id n => exact releaseRecvWindow_makes hr hs permit
  | gone id => exact refuseRequest_makes hr hs permit 502 rfl
  | shed id => exact refuseRequest_makes hr hs permit 503 rfl
  | head id response endStream =>
    simp only [ends_bind, ends_get, ends_ite, ends_pure, hstreams]
    cases hlive : r.streams.get? id with
    | none => exact ⟨nofun, fun _ => handled_idle hr hs permit (.inl hlive)⟩
    | some stream =>
      refine ⟨fun _ => ?_, fun h => absurd rfl h⟩
      exact sendResponse_makes hr hs (.on (.responded r.now _ permit hlive hr.fits))
        ⟨_, .refl, .unencodableEvent _ _ _ _⟩
  | data id data endStream =>
    simp only [ends_bind, ends_get, ends_ite, ends_pure, ends_onCore, hstreams]
    cases hlive : r.streams.get? id with
    | none => exact ⟨nofun, fun _ => handled_idle hr hs permit (.inl hlive)⟩
    | some stream =>
      refine ⟨fun _ => ?_, fun h => absurd rfl h⟩
      refine (enqueueReady_ends _ id).ok ?_
      rintro - t ⟨streams, halike, ht⟩
      have ht := ht.of_withCore
      rw [withCore_toConnCore, hs.core] at ht halike
      exact (hs.trans ht).makes hr (.tail (.single (.on (.pushed permit hlive))) (.alike halike))
  | trailers id fields =>
    simp only [ends_bind, ends_get, ends_ite, ends_pure, hstreams]
    cases hlive : r.streams.get? id with
    | none => exact ⟨nofun, fun _ => handled_idle hr hs permit (.inl hlive)⟩
    | some stream =>
      exact ⟨fun _ => sendTrailers_makes hr hs permit hlive, fun h => absurd rfl h⟩
  | reset id code =>
    simp only [ends_bind, ends_get, ends_ite, ends_pure, hstreams]
    cases hlive : r.streams.get? id with
    | none => exact ⟨nofun, fun _ => handled_idle hr hs permit (.inl hlive)⟩
    | some stream =>
      exact ⟨fun _ => writeRstStream_makes hr hs (.on (.dropped r.now _ permit (.inr rfl) hlive hr.fits)),
        fun h => absurd rfl h⟩

end Events

/-- The core in which an event is acted on, once the responder has had its look. -/
def seen (s : Conn σ μ) (e : ServiceEvent) : ConnCore σ μ :=
  s.toConnCore.call (.intercept e) (Service.intercept s.now e s.service).1

theorem handleServiceEvent_makes {s : Conn σ μ} (hs : Sound s) {e : ServiceEvent}
    (permit : ∀ e', (Service.intercept s.now e s.service).2 = some e' → P.event (s.seen e) e') :
    Ends (handleServiceEvent e s) (fun _ => Makes P s) (Breaks P s) := by
  unfold handleServiceEvent
  simp only [ends_bind, ends_get, ends_onCore]
  have m : Makes P s (s.withCore (s.seen e)) :=
    (Does.withCore s _).move hs (.intercepted s.now e)
  cases h : (Service.intercept s.now e s.service).2 with
  | none => exact m
  | some e' =>
    simp only [ends_bind, ends_onCore]
    exact m.next (actOn_makes m.sound (.withCore _ _) (permit e' h))

/-! ## Header blocks -/

/-- The rest of a request, from where its stream was opened. -/
theorem dispatchRequest_makes {s t : Conn σ μ} (hs : Sound s) {id : StreamId}
    {headers : List Header} {endStream : Bool} (isOpen : (s.streams.openPeer id).2 = .ok ())
    (cause : P.Requests s.toConnCore id endStream headers)
    (ht : s.Does (s.toConnCore.openRequest s.now id endStream s.limit) t) :
    Ends (dispatchRequest id headers endStream t) (fun _ => Makes P s) (Breaks P s) := by
  unfold dispatchRequest
  cases hhead : RequestHead.fromHeaders headers with
  | error code =>
    exact writeRstStream_makes hs ht (.on (.malformed s.now none code isOpen cause hs.fits))
  | ok request =>
    dsimp only
    -- The declared length, where there is one, is the only thing written before the call.
    have rest : ∀ (declared : Option Nat) (u : Conn σ μ),
        request.contentLength = declared.map .ok → t.Does (t.toConnCore.declare id declared) u →
        Ends (dispatchNoted id request endStream u) (fun _ => Makes P s) (Breaks P s) := by
      intro declared u hlen hu
      have hd := ht.after (fun c _ _ => c.declare id declared) hu
      unfold dispatchNoted
      simp only [ends_bind, ends_get]
      cases hbody : (if endStream then requestBodyError u id else none) with
      | some code =>
        exact writeRstStream_makes hs hd (.on (.malformed s.now declared code isOpen cause hs.fits))
      | none =>
        simp only [ends_bind, ends_modify, ends_onCore]
        have hnow := hd.kept.now
        have kept : Kept s (Conn.withCore { u with lastStreamAt := u.now } (u.toConnCore.call
            (.dispatch id request endStream)
            (Service.dispatch u.now id request endStream u.service))) :=
          hd.kept.trans ⟨⟨rfl, rfl, .refl ..⟩, rfl, rfl, rfl⟩
        have served : servable headers endStream := by
          unfold servable
          rw [hhead]
          dsimp only
          rw [hlen]
          cases declared with
          | none => rfl
          | some n =>
            cases endStream with
            | false => rfl
            | true =>
              have live : u.streams.get? id = _ := hd.core ▸ ConnCore.get?_declare
                (ConnCore.get?_openRequest s.now true s.limit isOpen) (some n)
              have whole := requestBodyError_none live hbody
              simpa [Stream.contentLengthMatches, Stream.new] using whole
        refine Does.move ⟨?_, kept⟩ hs
          (.on (.dispatched s.now declared isOpen cause hhead served hs.fits hlen))
        show u.toConnCore.call _ _ = _
        rw [hd.core, hnow]
    cases hlen : request.contentLength with
    | none => exact rest none t hlen ⟨rfl, .refl t⟩
    | some declared =>
      cases declared with
      | error code =>
        exact writeRstStream_makes hs ht (.on (.malformed s.now none code isOpen cause hs.fits))
      | ok n => exact rest (some n) _ hlen (Does.withCore t _)

theorem recvTrailers_makes {s : Conn σ μ} (hs : Sound s) {id : StreamId} {stream : Stream}
    {headers : List Header} {endStream : Bool} (live : s.streams.get? id = some stream)
    (permit : P.block s.toConnCore id endStream (.ok headers)) :
    Ends (recvTrailers id stream headers endStream s) (fun _ => Makes P s) (Breaks P s) := by
  have reset : ∀ code, (stream.state.peerCanSend = false ∨ endStream = false ∨
      validateTrailers headers = .error code ∨ stream.contentLengthMatches = false) →
      Ends (writeRstStream id code s) (fun _ => Makes P s) (Breaks P s) := fun code bad =>
    writeRstStream_makes hs (.refl s) (.on (.mistrailed s.now code permit live bad hs.fits))
  unfold recvTrailers
  simp only [ends_ite]
  refine ⟨fun h => reset _ (.inl (by simpa using h)), fun h =>
    ⟨fun he => reset _ (.inr (.inl (by simpa using he))), fun he => ?_⟩⟩
  obtain rfl : endStream = true := by simpa using he
  cases valid : validateTrailers headers with
  | error code => exact reset code (.inr (.inr (.inl valid)))
  | ok =>
    simp only [ends_bind, ends_get]
    cases hbody : s.requestBodyError id with
    | some code => exact reset code (.inr (.inr (.inr (requestBodyError_some live hbody))))
    | none =>
      simp only [ends_bind, ends_onCore]
      have move : Move P s.toConnCore ((s.toConnCore.call (.trailers id headers)
          (Service.trailers s.now id headers s.service)).settle s.now id (.recvHeaders true)
          s.limit) :=
        .on (.trailered s.now permit live (by simpa using h) hs.fits
          (requestBodyError_none live hbody))
      have called := Does.withCore s (s.toConnCore.call (.trailers id headers)
        (Service.trailers s.now id headers s.service))
      refine (applyStreamEvent_ends _ id (.recvHeaders true) (by decide)).mono ?_ ?_
      · rintro - u hu
        exact (called.trans hu).move hs move
      · rintro e u ⟨hu, -, he⟩
        exact (called.trans hu).breaks hs he (.single move) (.none _)

theorem recvRequest_makes {s : Conn σ μ} (hs : Sound s) {id : StreamId} {headers : List Header}
    {endStream : Bool} (permit : P.block s.toConnCore id endStream (.ok headers)) :
    Ends (recvRequest id headers endStream s) (fun _ => Makes P s) (Breaks P s) := by
  unfold recvRequest
  simp only [ends_bind, ends_get]
  cases hl : s.streams.lookup id with
  | live stream => exact recvTrailers_makes hs (StreamTable.lookup_live.mp hl) permit
  | closed => exact hs.breaks (onStream_short _ id (by decide) (by decide))
  | idle =>
    simp only [ends_ite, ends_bind]
    refine ⟨fun hd => writeRstStream_makes hs (.refl s)
      (.on (.turnedAway s.now permit hl hd hs.fits)), fun hd => ?_⟩
    have cause : P.Requests s.toConnCore id endStream headers := ⟨permit, by simpa using hd⟩
    refine (openRejected_ends s id).ok ?_
    rintro opened t ⟨hopened, ht⟩
    cases opened with
    | error why =>
      cases why with
      | protocol why =>
        obtain ⟨hsame, hwhy⟩ := StreamTable.openPeer_protocol hopened.symm
        rw [hsame] at ht
        exact ht.breaks hs (rejected_short id hwhy) .refl (.none _)
      | refused =>
        exact writeRstStream_makes hs ht
          (.on (.crowded s.now (.inl ⟨_, _, cause⟩) hopened.symm hs.fits))
    | ok =>
      simp only [ends_bind]
      have step : ∀ u, t.Does (t.toConnCore.settle t.now id (.recvHeaders endStream) t.limit) u →
          s.Does (s.toConnCore.openRequest s.now id endStream s.limit) u := fun u hu =>
        ht.after (fun c now limit => c.settle now id (.recvHeaders endStream) limit) hu
      refine (applyStreamEvent_ends t id (.recvHeaders endStream) (by decide)).mono ?_ ?_
      · rintro - u hu
        exact dispatchRequest_makes hs hopened.symm cause (step u hu)
      · rintro e u ⟨hu, -, he⟩
        exact (step u hu).breaks hs he .refl
          (.opened s.now endStream hopened.symm (.inl ⟨_, _, cause⟩) hs.fits)

theorem readHeaderBlock_makes {s : Conn σ μ} (hs : Sound s) {id : StreamId} {fragment : Bytes}
    {endHeaders : Bool}
    (permit : ∀ r, s.completion fragment endHeaders = some r →
      P.block s.toConnCore id s.openHeaderEndStream r) :
    Ends (readHeaderBlock id fragment endHeaders s) (fun _ => Makes P s) (Breaks P s) := by
  unfold readHeaderBlock
  simp only [ends_bind]
  refine (gatherBlock_ends s fragment endHeaders).mono ?_ ?_
  · rintro block t ⟨ht, hblock⟩
    cases block with
    | none => exact ht.stay hs
    | some block =>
      obtain ⟨hend, hb, hlen, hopen⟩ := hblock block rfl
      have hdec := ht.kept.hpackDec
      have permit' : P.block t.toConnCore id t.openHeaderEndStream (t.hpackDec.decode block).2 := by
        rw [ht.core, hdec, hopen]
        apply permit
        rw [completion, ← hb, if_pos (by simp [hend, hlen])]
      simp only [ends_bind, ends_get, ends_modify]
      have hwf := hs.decoder.decode block
      have hu : Sound { t with hpackDec := (t.hpackDec.decode block).1 } := by
        refine ⟨(ht.kept.sound hs).frameSize, ?_, ?_, (ht.kept.sound hs).maxFrameSize⟩
        · rw [hdec]
          exact hwf.1
        · show (t.hpackDec.decode block).1.capacity < 2 ^ 32
          rw [hdec, hwf.2]
          exact hs.capacity
      have mu : Makes P s { t with hpackDec := (t.hpackDec.decode block).1 } :=
        ⟨ht.core ▸ .refl, hu, ht.kept.now, ht.kept.stop, ht.kept.guard⟩
      refine mu.next ?_
      cases hres : (t.hpackDec.decode block).2 with
      | ok headers =>
        simp only [ends_bind, ends_get]
        rw [hres] at permit'
        exact recvRequest_makes hu permit'
      | error e =>
        rw [hres] at permit'
        cases e with
        | headerListTooLarge size max =>
          exact rejectStream_oversized hu permit'
        | compression msg =>
          rw [hdec] at hres
          exact hu.breaks (HpackDecoder.decode_terse hs.decoder hs.capacity hres).short
  · rintro e t ⟨ht, he⟩
    exact ht.breaks hs he .refl (.none _)

/-! ## DATA -/

/-- DATA that has been counted against both windows. -/
theorem recvData_live {r s : Conn σ μ} (hr : Sound r) {w : WireFrame} {id : StreamId}
    {data : Bytes} {endStream : Bool} {stream : Stream} {window recvWindow : RecvWindow}
    (permit : P.frame r.toConnCore w) (frame : w.data? = some (id, data, endStream))
    (live : r.streams.get? id = some stream)
    (conn : r.connRecvWindow.record data.length = .ok window)
    (within : stream.recvWindow.record data.length = .ok recvWindow)
    (hs : r.Does (r.toConnCore.receive w id data.length window (some recvWindow)) s) :
    Ends ((do
      match if endStream then requestBodyError s id else none with
      | some code => writeRstStream id code
      | none =>
        applyStreamEvent id (.recvData endStream) "data"
        if data ≠ [] || endStream then
          let s ← get
          onCore (.call (.body id data endStream) (Service.body s.now id data endStream s.service))
        else pure ()
        drainReclaimed : ConnM σ μ Unit) s) (fun _ => Makes P r) (Breaks P r) := by
  have counted : s.streams.get? id = some { stream with
      dataReceived := satAdd64 stream.dataReceived data.length
      pendingConnRelease := satAdd32 stream.pendingConnRelease data.length
      recvWindow } := by
    rw [hs.core]
    show (r.streams.modify id _).get? id = _
    rw [StreamTable.get?_modify, if_pos rfl, live]
    rfl
  cases hbody : if endStream then s.requestBodyError id else none with
  | some code =>
    cases endStream with
    | false => cases hbody
    | true =>
      have wrong := requestBodyError_some counted hbody
      exact writeRstStream_makes hr hs
        (.on (.mismatched r.now code permit frame live conn within wrong hr.fits))
  | none =>
    have whole : endStream → { stream with
        dataReceived := satAdd64 stream.dataReceived data.length }.contentLengthMatches := by
      intro ended
      rw [if_pos ended] at hbody
      have matches_ := requestBodyError_none counted hbody
      exact matches_
    simp only [ends_bind, ends_ite, ends_get, ends_onCore]
    refine (applyStreamEvent_ends s id (.recvData endStream) (by decide)).mono ?_ ?_
    · rintro - t ht
      have dt := hs.after (fun c now limit => c.settle now id (.recvData endStream) limit) ht
      have last : ∀ u, Makes P r u → Ends (drainReclaimed u) (fun _ => Makes P r) (Breaks P r) := by
        intro u mu
        refine (drainReclaimed_ends u).ok ?_
        rintro - v hv
        exact mu.trans (hv.move mu.sound (.reclaimed mu.sound.fits))
      have move : Move P r.toConnCore ((r.toConnCore.receive w id data.length window
          (some recvWindow)).deliver r.now id data endStream r.limit) :=
        .on (.delivered r.now permit frame live conn within whole hr.fits)
      unfold ConnCore.deliver at move
      refine ⟨fun h => last _ ?_, fun h => last t ?_⟩
      · rw [if_pos h] at move
        refine Does.move ⟨?_, dt.kept.trans (.withCore t _)⟩ hr move
        rw [withCore_toConnCore, dt.core, dt.kept.now]
      · rw [if_neg h] at move
        exact dt.move hr move
    · rintro e t ⟨-, ht, he⟩
      exact (hs.trans ht).breaks hr he (c := r.toConnCore) .refl
        (hs.core ▸ .received frame live conn within)

theorem recvData_makes {r s : Conn σ μ} (hr : Sound r) {w : WireFrame} {id : StreamId}
    {data : Bytes} {endStream : Bool}
    (permit : (s.guard.onData data.length endStream).2 = .ok → P.frame r.toConnCore w)
    (frame : w.data? = some (id, data, endStream))
    (hs : r.Does (r.toConnCore.observe (.heard w)) s) :
    Ends (recvData id data endStream s) (fun _ => Makes P r) (Breaks P r) := by
  unfold recvData
  simp only [ends_bind]
  refine (guarded_ends s (Guard.onData_drawn ..)).mono ?_ ?_
  · rintro - t ⟨ht, passed⟩
    have permit := permit passed
    have dt : r.Does (r.toConnCore.observe (.heard w)) t := ⟨ht.core.trans hs.core, hs.kept.trans ht.kept⟩
    have hconn : t.connRecvWindow = r.connRecvWindow := by rw [dt.core]; rfl
    simp only [ends_get, hconn]
    cases hrec : r.connRecvWindow.record data.length with
    | error code =>
      obtain ⟨-, rfl⟩ := RecvWindow.record_error hrec
      exact dt.breaks hr (Within.short (Within.text _ (k := 60) (by decide)) (by decide)) .refl
        (.heard w)
    | ok window =>
      simp only [ends_bind, ends_onCore, ends_get]
      have du : r.Does { r.toConnCore.observe (.heard w) with connRecvWindow := window }
          (t.withCore { t.toConnCore with connRecvWindow := window }) :=
        ⟨by rw [withCore_toConnCore, dt.core], dt.kept.trans (.withCore _ _)⟩
      generalize t.withCore { t.toConnCore with connRecvWindow := window } = u at du
      have hstreams : u.streams = r.streams := by rw [du.core]; rfl
      rw [hstreams]
      cases hl : r.streams.lookup id with
      | idle =>
        exact du.breaks hr (onStream_short _ id (by decide) (by decide)) .refl
          (.idleData frame hl hrec)
      | closed =>
        simp only [ends_bind]
        refine (releaseConnWindow_ends u data.length).ok ?_
        rintro - v hv
        exact writeRstStream_makes hr
          (du.after (fun c _ limit => c.releaseConn data.length limit) hv)
          (.on (.late r.now permit frame hl hrec hr.fits))
      | live stream =>
        have hlive := StreamTable.lookup_live.mp hl
        simp only [ends_bind, ends_onCore]
        have received : ∀ (recvWindow : Option RecvWindow) v,
            v = u.withCore (u.toConnCore.modifyStream id fun s =>
              { s with
                dataReceived := satAdd64 s.dataReceived data.length
                pendingConnRelease := satAdd32 s.pendingConnRelease data.length
                recvWindow := recvWindow.getD s.recvWindow }) →
            r.Does (r.toConnCore.receive w id data.length window recvWindow) v := by
          rintro recvWindow - rfl
          exact du.trans ⟨by rw [withCore_toConnCore, du.core]; rfl, .withCore _ _⟩
        cases hwin : stream.recvWindow.record data.length with
        | error code =>
          exact writeRstStream_makes hr (received none _ rfl)
            (.on (.overspent r.now permit frame hlive hrec hwin hr.fits))
        | ok recvWindow =>
          exact recvData_live hr permit frame hlive hrec hwin (received (some recvWindow) _ rfl)
  · rintro e t ⟨ht, he⟩
    exact Does.breaks ⟨ht.core.trans hs.core, hs.kept.trans ht.kept⟩ hr he .refl (.heard w)

/-! ## The other frames -/

theorem guarded_makes {s : Conn σ μ} (hs : Sound s) {f : Guard → Guard × Verdict}
    (drawn : s.guard.Drawn s.now (f s.guard).1) :
    Ends (guarded f s) (fun _ => Makes P s) (Breaks P s) := by
  refine (guarded_ends s drawn).mono ?_ ?_
  · rintro - t ⟨ht, -⟩
    exact ht.stay hs
  · rintro e t ⟨ht, he⟩
    exact ht.breaks hs he .refl (.none _)

/-- Go on after a part that makes moves. -/
theorem makes_bind {s : Conn σ μ} {α β : Type} {x : ConnM σ μ β} {f : β → ConnM σ μ α}
    (hx : Ends (x s) (fun _ => Makes P s) (Breaks P s))
    (hf : ∀ b t, Sound t → Ends (f b t) (fun _ => Makes P t) (Breaks P t)) :
    Ends ((x >>= f) s) (fun _ => Makes P s) (Breaks P s) := by
  rw [ends_bind]
  exact hx.mono (fun b t mt => mt.next (hf b t mt.sound)) fun _ _ h => h

theorem recvRstStream_makes {s : Conn σ μ} (hs : Sound s) {w : WireFrame} {id : StreamId}
    {code : ErrorCode} (heard : P.Heard s.toConnCore w)
    (frame : w.decode = .ok (.frame (.rstStream id code))) :
    Ends (recvRstStream id code s) (fun _ => Makes P s) (Breaks P s) := by
  unfold recvRstStream
  simp only [ends_bind, ends_get]
  cases hl : s.streams.lookup id with
  | idle => exact hs.breaks (onStream_short _ id (by decide) (by decide))
  | closed => exact .refl hs
  | live stream =>
    dsimp only
    rw [ends_bind, ends_get, ends_bind]
    refine (guarded_ends s (Guard.onReset_drawn ..)).mono ?_ ?_
    · rintro - t ⟨ht, -⟩
      rw [ends_bind]
      refine (abandon_ends t id code).ok ?_
      rintro - u hu
      have mu : Makes P s u := (ht.after (fun c now _ => c.abandon now id code) hu).move hs
        (.on (.withdrawn s.now heard frame (StreamTable.lookup_live.mp hl)))
      refine mu.next ((drainReclaimed_ends u).ok ?_)
      rintro - v hv
      exact hv.move mu.sound (.reclaimed mu.sound.fits)
    · rintro e t ⟨ht, he⟩
      exact ht.breaks hs he .refl (.none _)

theorem enqueueReady_makes {s t : Conn σ μ} {streams : StreamTable} (hs : Sound s)
    (halike : s.streams.Alike streams) (ht : s.Does { s.toConnCore with streams } t)
    (id : StreamId) :
    Ends (enqueueReady id t) (fun _ => Makes P s) (Breaks P s) := by
  have mt : Makes P s t := ht.move hs (.alike halike)
  refine mt.next ((enqueueReady_ends t id).ok ?_)
  rintro - u hu
  exact hu.makes mt.sound .refl

theorem recvWindowUpdate_makes {s : Conn σ μ} (hs : Sound s) {w : WireFrame} {id : StreamId}
    {increment : Nat} (heard : P.Heard s.toConnCore w)
    (frame : w.decode = .ok (.frame (.windowUpdate id increment))) :
    Ends (recvWindowUpdate id increment s) (fun _ => Makes P s) (Breaks P s) := by
  unfold recvWindowUpdate
  simp only [ends_ite, ends_bind, ends_get]
  refine ⟨fun hzero => ⟨fun _ => ?_, fun hid => ?_⟩, fun _ => ⟨fun _ => ?_, fun _ => ?_⟩⟩
  · exact hs.breaks (Within.short (Within.text _ (k := 60) (by decide)) (by decide))
  · subst hzero
    cases hlive : s.streams.get? id with
    | none =>
      exact writeRstStream_makes hs (.refl s)
        (.on (.stray s.now _ heard frame (by simpa using hid) hlive hs.fits))
    | some stream =>
      exact writeRstStream_makes hs (.refl s)
        (.on (.overgranted s.now _ heard frame hlive (.inl rfl) hs.fits))
  · cases s.connSendWindow.increase increment with
    | error code =>
      exact hs.breaks (Within.short (Within.text _ (k := 60) (by decide)) (by decide))
    | ok connSendWindow => exact Does.stay ⟨rfl, ⟨rfl, rfl, .refl ..⟩, rfl, rfl, rfl⟩ hs
  · cases hl : s.streams.lookup id with
    | idle => exact hs.breaks (onStream_short _ id (by decide) (by decide))
    | closed => exact .refl hs
    | live stream =>
      dsimp only
      cases hinc : stream.sendWindow.increase increment with
      | error code =>
        exact writeRstStream_makes hs (.refl s) (.on (.overgranted s.now _ heard frame
          (StreamTable.lookup_live.mp hl) (.inr (by rw [hinc]; rfl)) hs.fits))
      | ok sendWindow =>
        simp only [ends_bind, ends_onCore]
        refine enqueueReady_makes hs ?_ (Does.withCore s _) id
        exact StreamTable.alike_modify _ id fun _ _ => ⟨rfl, rfl, rfl, rfl, rfl, rfl, rfl, rfl, rfl⟩

/-- A short frame about the connection itself. -/
theorem queueFrame_makes {s : Conn σ μ} (hs : Sound s) {f : Frame}
    (fits : f.payloadLen ≤ defaultMaxFrameSize)
    (kind : f.kind = .settings ∨ f.kind = .ping) :
    Ends (queueFrame f s) (fun _ => Makes P s) (Breaks P s) := by
  refine (queueFrame_ends s (small_le fits)).ok ?_
  rintro - t ht
  exact ht.move hs (.note (.queued (fits.trans hs.fits) kind))

theorem recvSettings_makes {s : Conn σ μ} (hs : Sound s) (params : List (UInt16 × UInt32)) :
    Ends (recvSettings params s) (fun _ => Makes P s) (Breaks P s) := by
  unfold recvSettings
  simp only [ends_bind, ends_get, ends_modify]
  have hframe := Settings.apply_frameSizeOk params hs.frameSize
  cases happ : (s.peerSettings.apply params).2 with
  | error e =>
    exact ⟨⟨s.toConnCore, .refl, .none _⟩, hframe, Settings.apply_short params happ⟩
  | ok =>
    have mt : ∀ t : Conn σ μ, t.toConnCore = s.toConnCore →
        t.peerSettings = (s.peerSettings.apply params).1 → t.hpackDec = s.hpackDec →
        t.localSettings = s.localSettings → Paced s t → Makes P s t := by
      intro t hcore hpeer hdec hlocal paced
      refine ⟨hcore ▸ .refl, ⟨?_, ?_, ?_, ?_⟩, paced⟩
      · rw [hpeer]; exact hframe
      · rw [hdec]; exact hs.decoder
      · rw [hdec]; exact hs.capacity
      · rw [hlocal]; exact hs.maxFrameSize
    have ack : ∀ t, Sound t → Ends (queueFrame (.settings true []) t) (fun _ => Makes P t)
        (Breaks P t) :=
      fun t ht => queueFrame_makes ht (Nat.zero_le _) (.inl rfl)
    simp only [ends_bind, ends_get, ends_modify, ends_ite, ends_onCore]
    generalize ht : ({ s with
      peerSettings := (s.peerSettings.apply params).1
      hpackEnc := s.hpackEnc.setMaxTableSize (s.peerSettings.apply params).1.headerTableSize } :
      Conn σ μ) = t
    have mt : Makes P s t := by subst ht; exact mt _ rfl rfl rfl rfl ⟨rfl, rfl, .refl ..⟩
    refine ⟨fun _ => mt.next ?_, fun _ => mt.next (ack t mt.sound)⟩
    generalize (((s.peerSettings.apply params).1.initialWindowSize : Int) -
      s.peerSettings.initialWindowSize) = delta
    have mu : Makes P t (t.withCore
        { s.toConnCore with streams := (s.streams.applyInitialWindowDelta delta).1 }) := by
      refine (Does.withCore t _).move mt.sound ?_
      rw [show t.toConnCore = s.toConnCore by rw [← ht]]
      exact .alike (StreamTable.alike_applyInitialWindowDelta s.streams delta)
    cases (s.streams.applyInitialWindowDelta delta).2 with
    | error code =>
      exact mu.breaks
        (mu.sound.breaks (Within.short (Within.text _ (k := 60) (by decide)) (by decide)))
    | ok => exact mu.next (ack _ mu.sound)

theorem recvSettingsAck_makes {s : Conn σ μ} (hs : Sound s) :
    Ends (recvSettingsAck s) (fun _ => Makes P s) (Breaks P s) := by
  unfold recvSettingsAck
  simp only [ends_bind, ends_get, ends_modify, ends_ite, ends_onCore]
  constructor
  · intro _
    refine Does.move (c := { s.toConnCore with streams := _ }) ⟨rfl, ⟨rfl, rfl, .refl ..⟩, rfl, rfl, rfl⟩ hs
      (.alike ?_)
    exact ⟨rfl, rfl, rfl, rfl, fun _ => Stream.Alike.rel_refl _⟩
  · intro _
    exact Does.stay ⟨rfl, ⟨rfl, rfl, .refl ..⟩, rfl, rfl, rfl⟩ hs

end Conn

end H2Proxy
