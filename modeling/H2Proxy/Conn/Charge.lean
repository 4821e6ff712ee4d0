import H2Proxy.Conn.Discipline
import H2Proxy.Conn.Tidy
import H2Proxy.Conn.Known
import H2Proxy.Conn.Legal
import Mathlib.Tactic.Linarith

/-
  What a client pays for the requests it abandons.

  A request waits from its dispatch to its head (`pending`). A frame that makes such a request
  leave the table without an answer drops it (`dropped`). The guard charges a token for the
  RST_STREAM of the client and for nothing else, so the bound of its bucket holds of the runs in
  which no other frame drops a request (`restrained`): in every span of time such a run drops no
  more than the bucket holds and earns (`drops_bounded`).
-/

namespace H2Proxy

variable {σ μ : Type} {id : StreamId} {c c' : ConnCore σ μ}

namespace ConnCore

/-- A head was sent on stream `id`. -/
def headed (id : StreamId) (c : ConnCore σ μ) : Bool :=
  c.log.any fun o => (o.reply? id).any fun
    | .headers status _ => status
    | _ => false

/-- The responder was told that stream `id` is done. -/
def finished (id : StreamId) (c : ConnCore σ μ) : Bool :=
  c.log.any fun o => (o.call? id).any fun
    | .finish _ => true
    | _ => false

/-- A request that was handed to the responder, is live, and waits for its head. -/
def pending (id : StreamId) (c : ConnCore σ μ) : Bool :=
  c.dispatched id && (c.streams.get? id).isSome && !c.headed id

theorem dispatched_mono {added : List (ConnObs μ)} (hlog : c'.log = c.log ++ added)
    (h : c.dispatched id) : c'.dispatched id := by
  unfold dispatched at *
  rw [hlog, List.any_append, h]
  rfl

theorem headed_mono {added : List (ConnObs μ)} (hlog : c'.log = c.log ++ added)
    (h : c.headed id) : c'.headed id := by
  unfold headed at *
  rw [hlog, List.any_append, h]
  rfl

theorem finished_mono {added : List (ConnObs μ)} (hlog : c'.log = c.log ++ added)
    (h : c.finished id) : c'.finished id := by
  unfold finished at *
  rw [hlog, List.any_append, h]
  rfl

/-- The head of a response is in the log. -/
theorem headed_headersOut (c : ConnCore σ μ) (response : Response) (endStream : Bool)
    (enc : HpackEncoder) (limit : Nat) :
    (c.headersOut id response.toHeaders endStream enc limit).headed id := by
  have reply : (ConnObs.queued (.headers id (enc.encode response.toHeaders).2 endStream true)
      response.toHeaders limit : ConnObs μ).reply? id = some (.headers true endStream) := by
    show (if id = id then some (Reply.headers (carriesStatus response.toHeaders) endStream)
      else none) = _
    rw [if_pos rfl, carriesStatus_toHeaders]
  unfold headed ConnCore.headersOut ConnCore.observe
  rw [List.any_append, List.any_cons, reply]
  simp

theorem headed_respond [Service σ μ] (c : ConnCore σ μ) (now : Instant) (response : Response)
    (endStream : Bool) (enc : HpackEncoder) (limit : Nat) :
    (c.respond now id response endStream enc limit).headed id := by
  obtain ⟨added, hlog, -⟩ := ((((Concerns.refl (some id) (c.headersOut id response.toHeaders
    endStream enc limit)).modifyStream ({ · with responseStarted := true })).settle now limit
    (.sendHeaders endStream))).log
  exact headed_mono hlog (headed_headersOut c response endStream enc limit)

theorem finished_call (c : ConnCore σ μ) (r : σ × List (Effect μ)) :
    (c.call (.finish id) r).finished id := by
  unfold finished ConnCore.call
  rw [List.any_append, List.any_cons]
  simp [ConnObs.call?, Call.id?]

theorem finished_reclaim (h : c.finished id) (limit : Nat) : (c.reclaim limit).finished id := by
  obtain ⟨added, hlog, -⟩ := ((Concerns.refl none c).reclaim limit).log
  exact finished_mono hlog h

/-! ## Heads and their flag -/

/-- The head of a live stream that has started its response is in the log. -/
def Started (id : StreamId) (c : ConnCore σ μ) : Prop :=
  ∀ st, c.streams.get? id = some st → st.responseStarted → c.headed id

namespace Started

theorem gone (h : c.streams.get? id = none) : c.Started id := by
  intro st live
  rw [h] at live
  cases live

theorem keeps (h : c.Started id) {added : List (ConnObs μ)} (hlog : c'.log = c.log ++ added)
    (live : ∀ st', c'.streams.get? id = some st' → st'.responseStarted →
      ∃ st, c.streams.get? id = some st ∧ st.responseStarted) : c'.Started id := by
  intro st' live' started'
  obtain ⟨st, hst, started⟩ := live st' live' started'
  exact headed_mono hlog (h st hst started)

/-- The table is as it was. -/
theorem grows (h : c.Started id) {added : List (ConnObs μ)} (hlog : c'.log = c.log ++ added)
    (live : c'.streams.get? id = c.streams.get? id) : c'.Started id :=
  h.keeps hlog fun st' live' started' => ⟨st', live.symm.trans live', started'⟩

theorem observe (h : c.Started id) (o : ConnObs μ) : (c.observe o).Started id :=
  h.grows rfl rfl

theorem call (h : c.Started id) (call : Call) (r : σ × List (Effect μ)) :
    (c.call call r).Started id := h.grows rfl rfl

theorem modifyStream (h : c.Started id) {f : Stream → Stream}
    (same : ∀ st, (f st).responseStarted = st.responseStarted) : (c.modifyStream id f).Started id := by
  refine h.keeps (List.append_nil _).symm fun st' live' started' => ?_
  have found : (c.streams.get? id).map f = some st' :=
    ((StreamTable.get?_modify ..).trans (if_pos rfl)).symm.trans live'
  obtain ⟨st, live, rfl⟩ := Option.map_eq_some_iff.mp found
  exact ⟨st, live, (same st).symm.trans started'⟩

theorem reclaim (h : c.Started id) (limit : Nat) : (c.reclaim limit).Started id := by
  obtain ⟨added, hlog, -⟩ := ((Concerns.refl none c).reclaim limit).log
  exact h.grows hlog (get?_reclaim ..)

theorem declare (h : c.Started id) (contentLength : Option Nat) :
    (c.declare id contentLength).Started id := by
  cases contentLength with
  | none => exact h
  | some n => exact h.modifyStream fun _ => rfl

theorem receive (h : c.Started id) (w : WireFrame) (len : Nat) (window : RecvWindow)
    (recvWindow : Option RecvWindow) : (c.receive w id len window recvWindow).Started id := by
  refine modifyStream ?_ fun _ => rfl
  exact h.grows rfl rfl

theorem credit (h : c.Started id) (stream : Stream) (n limit : Nat) :
    (c.credit id stream n limit).Started id := by
  have modified := h.modifyStream (f := fun s =>
    { s with
      recvWindow := (stream.recvWindow.release n).1
      pendingConnRelease := s.pendingConnRelease - n }) fun _ => rfl
  exact modified.grows (List.append_assoc ..) rfl

variable [Service σ μ] (now : Instant) (limit : Nat)

theorem settle (h : c.Started id) (event : StreamEvent) :
    (c.settle now id event limit).Started id := by
  have applied : ∀ st', (c.streams.apply id event).1.get? id = some st' → st'.responseStarted →
      ∃ st, c.streams.get? id = some st ∧ st.responseStarted := by
    intro st' live' started'
    unfold StreamTable.apply at live'
    cases hs : c.streams.get? id with
    | none =>
      rw [hs] at live'
      dsimp only at live'
      rw [hs] at live'
      cases live'
    | some st =>
      rw [hs] at live'
      dsimp only at live'
      cases ht : st.state.transition event with
      | error code =>
        rw [ht] at live'
        obtain rfl := Option.some.inj (hs.symm.trans live')
        exact ⟨_, rfl, started'⟩
      | ok next =>
        rw [ht] at live'
        dsimp only at live'
        split at live'
        · rw [StreamTable.get?_retire, if_pos rfl] at live'
          cases live'
        · rw [StreamTable.get?_modify, if_pos rfl, hs] at live'
          cases live'
          exact ⟨st, rfl, started'⟩
  unfold ConnCore.settle
  generalize c.streams.apply id event = res at applied
  obtain ⟨streams, result⟩ := res
  have kept : ({ c with streams } : ConnCore σ μ).Started id :=
    h.keeps (List.append_nil _).symm applied
  cases result with
  | ok state =>
    dsimp only
    split
    · exact (kept.call _ _).reclaim limit
    · exact kept
  | error e =>
    dsimp only
    split
    · exact kept
    · refine keeps kept (List.append_nil _).symm fun st' live' started' => ?_
      rw [StreamTable.get?_retire] at live'
      split at live'
      · cases live'
      · exact ⟨st', live', started'⟩

theorem writeRst (code : ErrorCode) : (c.writeRst now id code limit).Started id :=
  gone (get?_writeRst ..)

variable (enc : HpackEncoder)

omit [Service σ μ] in
theorem headersOut (h : c.Started id) (fields : List Header) (endStream : Bool) :
    (c.headersOut id fields endStream enc limit).Started id :=
  (h.observe _).observe _

theorem sendTrailers (h : c.Started id) (fields : List Header) :
    (c.sendTrailers now id fields enc limit).Started id := by
  unfold ConnCore.sendTrailers
  split
  · exact h.modifyStream fun _ => rfl
  · split
    · exact h.modifyStream fun _ => rfl
    · exact (h.headersOut limit enc fields true).settle now limit _

theorem transmit (h : c.Started id) {st : Stream} (live : c.streams.get? id = some st) (budget : Nat)
    (sendWindow : Window) : (c.transmit now id (st.turn budget) sendWindow limit).Started id := by
  have taken : (c.modifyStream id fun _ => { (st.turn budget).rest with sendWindow }).Started id := by
    refine h.keeps (List.append_nil _).symm fun st' live' started' => ⟨st, live, ?_⟩
    have found : (c.streams.get? id).map (fun _ => { (st.turn budget).rest with sendWindow }) =
        some st' := ((StreamTable.get?_modify ..).trans (if_pos rfl)).symm.trans live'
    rw [live] at found
    cases found
    exact started'
  unfold ConnCore.transmit
  dsimp only
  split
  · exact (taken.observe _).settle now limit _
  · exact taken

theorem takeTurn (h : c.Started id) {st : Stream} (live : c.streams.get? id = some st) (budget : Nat)
    (sendWindow : Window) : (c.takeTurn now id (st.turn budget) sendWindow enc limit).Started id := by
  have sent := h.transmit now limit live budget sendWindow
  have told : ((c.transmit now id (st.turn budget) sendWindow limit).reportReleased now id
      (st.turn budget).chunk.length).Started id := by
    unfold ConnCore.reportReleased
    split
    · exact sent.call _ _
    · exact sent
  unfold ConnCore.takeTurn
  dsimp only
  split
  · exact told.sendTrailers now limit enc _
  · exact told

end Started

end ConnCore

section Moves

variable [Service σ μ] {P : Permit σ μ}

theorem StreamMove.started (h : StreamMove P c id c') (hs : c.Started id) : c'.Started id := by
  have opened : ∀ now endStream limit, (c.streams.openPeer id).2 = .ok () →
      (c.openRequest now id endStream limit).Started id := by
    intro now endStream limit isOpen st live started
    obtain rfl := Option.some.inj
      ((ConnCore.get?_openRequest now endStream limit isOpen).symm.trans live)
    cases started
  cases h with
  | handled => exact hs.observe _
  | withdrawn => exact .gone (ConnCore.get?_abandon ..)
  | dropped | overgranted | stray | flushed | crowded | turnedAway | malformed | mistrailed
  | mismatched | overspent | late => exact .writeRst _ _ _
  | @dispatched now _ headers head endStream contentLength limit isOpen =>
    exact ((opened now endStream limit isOpen).declare contentLength).call _ _
  | answered | responded | refused | oversized => exact fun _ _ _ => ConnCore.headed_respond ..
  | @trailered now _ headers stream limit => exact (hs.call _ _).settle now limit _
  | @delivered now w _ data endStream stream window recvWindow limit =>
    have settled := (hs.receive w data.length window (some recvWindow)).settle now limit
      (.recvData endStream)
    unfold ConnCore.deliver
    dsimp only
    split
    · exact settled.call _ _
    · exact settled
  | @credited _ n stream limit => exact (hs.observe _).credit stream n limit
  | pushed => exact (hs.observe _).modifyStream fun _ => rfl
  | @trailersDue now _ fields stream enc limit =>
    exact (hs.observe _).sendTrailers now limit enc fields
  | @turned now _ stream budget sendWindow enc limit permit live =>
    exact hs.takeTurn now limit enc live budget sendWindow

theorem Move.started (h : Move P c c') (hs : c.Started id) : c'.Started id := by
  refine h.each (I := fun id c => c.Started id) (fun id same hi => ?_) (fun noted id hi => ?_)
    (fun id move hi => move.started hi) hs
  · obtain ⟨added, hlog, -⟩ := same.log
    exact hi.grows hlog same.live
  · refine hi.keeps (noted.log.trans (List.append_nil _).symm) fun st' live' started' => ?_
    have hrel := noted.alike.live id
    rw [live'] at hrel
    generalize hst : c.streams.get? id = o at hrel
    cases hrel with
    | some alike => exact ⟨_, rfl, alike.responseStarted.symm.trans started'⟩

end Moves

/-! ## Restraint -/

/-- DATA that a live stream takes: in its state, within its window, of the length declared. -/
def Stream.accepts (st : Stream) (data : Bytes) (endStream : Bool) : Bool :=
  st.state.peerCanSend && (st.recvWindow.record data.length).isOk &&
    (!endStream || { st with dataReceived := satAdd64 st.dataReceived data.length }.contentLengthMatches)

/-- A request that waits for its head is not answered with a reset for this frame. -/
def ConnCore.spares (c : ConnCore σ μ) (w : WireFrame) : Bool :=
  match w.decode with
  | .ok (.frame (.data id data endStream)) =>
    !c.pending id || !(c.connRecvWindow.record data.length).isOk ||
      (c.streams.get? id).all (·.accepts data endStream)
  | .ok (.frame (.windowUpdate id n)) =>
    !c.pending id || (c.streams.get? id).all fun st =>
      n ≠ 0 && (st.sendWindow.increase n).isOk
  | _ => true

/-- A second header block that is a trailer section of its request. -/
def Stream.completes (st : Stream) (headers : List Header) (endStream : Bool) : Bool :=
  st.state.peerCanSend && endStream && (validateTrailers headers).isOk && st.contentLengthMatches

/-- No frame but a RST_STREAM drops a request. -/
def restrained : Permit σ μ where
  frame c w := c.spares w
  block c id endStream r := ∀ headers, r = .ok headers → c.pending id →
    (c.streams.get? id).all (·.completes headers endStream)

instance (c : ConnCore σ μ) (w : WireFrame) : Decidable ((restrained : Permit σ μ).frame c w) :=
  inferInstanceAs (Decidable (_ = true))

instance (c : ConnCore σ μ) (id : StreamId) (endStream : Bool) :
    (r : Except HpackError (List Header)) → Decidable ((restrained : Permit σ μ).block c id endStream r)
  | .error _ => .isTrue nofun
  | .ok headers => decidable_of_iff
      (c.pending id → (c.streams.get? id).all (·.completes headers endStream))
      ⟨fun h _ hr => (Except.ok.inj hr) ▸ h, fun h => h headers rfl⟩

instance : ∀ c e, Decidable ((restrained : Permit σ μ).event c e) := fun _ _ => .isTrue trivial
instance : ∀ c id turn, Decidable ((restrained : Permit σ μ).turn c id turn) :=
  fun _ _ _ => .isTrue trivial

/-- One frame, with restraint, and nothing else. -/
def oneFrame (w : WireFrame) : Permit σ μ where
  frame c w' := w' = w ∧ c.spares w'
  block := restrained.block
  event _ _ := False
  turn _ _ _ := False

/-! ## What becomes of a request -/

/-- A request that was waiting still waits, was answered, or is finished; or the frame is its
    reset. -/
def ConnCore.Spared (w : WireFrame) (id : StreamId) (c : ConnCore σ μ) : Prop :=
  c.dispatched id ∧ ((c.streams.get? id).isSome ∨ c.headed id ∨ c.finished id ∨
    ∃ code, w.decode = .ok (.frame (.rstStream id code)))

namespace ConnCore.Spared

variable {w : WireFrame}

theorem grows (h : c.Spared w id) {added : List (ConnObs μ)} (hlog : c'.log = c.log ++ added)
    (live : (c.streams.get? id).isSome → (c'.streams.get? id).isSome) : c'.Spared w id := by
  refine ⟨dispatched_mono hlog h.1, ?_⟩
  obtain hl | hh | hf | hr := h.2
  · exact .inl (live hl)
  · exact .inr (.inl (headed_mono hlog hh))
  · exact .inr (.inr (.inl (finished_mono hlog hf)))
  · exact .inr (.inr (.inr hr))

variable [Service σ μ]

/-- What the peer may still send leaves its stream live or finishes it. -/
theorem settle {st : Stream} (live : c.streams.get? id = some st) (open_ : st.state.peerCanSend)
    (event : StreamEvent) {endStream : Bool}
    (receives : event = .recvHeaders endStream ∨ event = .recvData endStream) (now : Instant)
    (limit : Nat) : ((c.settle now id event limit).streams.get? id).isSome ∨
      (c.settle now id event limit).finished id := by
  have goes : ∃ next, st.state.transition event = .ok next := by
    obtain rfl | rfl := receives <;> cases hs : st.state <;> rw [hs] at open_ <;>
      first | exact ⟨_, rfl⟩ | cases open_
  obtain ⟨next, goes⟩ := goes
  unfold ConnCore.settle StreamTable.apply
  rw [live]
  dsimp only
  rw [goes]
  dsimp only
  cases closes : next.isClosed with
  | false =>
    left
    show ((c.streams.modify id _).get? id).isSome
    rw [StreamTable.get?_modify, if_pos rfl, live]
    rfl
  | true =>
    right
    exact finished_reclaim (finished_call _ _) limit

end ConnCore.Spared

variable [Service σ μ] {w : WireFrame}

omit [Service σ μ] in
theorem ConnCore.pending_of (asked : c.dispatched id) (live : (c.streams.get? id).isSome)
    (unheaded : ¬ c.headed id) : c.pending id := by
  unfold pending
  rw [asked, live, (Bool.not_eq_true _).mp unheaded]
  rfl

omit [Service σ μ] in
/-- DATA with restraint on a request that waits for its head is accepted by its stream. -/
theorem ConnCore.spares_data (permit : c.spares w) (pending : c.pending id) {data : Bytes}
    {endStream : Bool} (frame : w.data? = some (id, data, endStream)) {st : Stream}
    (live : c.streams.get? id = some st) {window : RecvWindow}
    (conn : c.connRecvWindow.record data.length = .ok window) : st.accepts data endStream := by
  unfold spares at permit
  rw [WireFrame.decode_of_data? frame] at permit
  simpa [pending, conn, live, Except.isOk, Except.toBool] using permit

theorem StreamMove.spared (h : StreamMove (oneFrame w) c id c') (tidy : c.Tidy)
    (hs : c.Spared w id) : c'.Spared w id := by
  obtain ⟨added, hlog, -⟩ := h.concerns.log
  refine ⟨ConnCore.dispatched_mono hlog hs.1, ?_⟩
  obtain isLive | headed | finished | reset := hs.2
  rotate_left
  · exact .inr (.inl (ConnCore.headed_mono hlog headed))
  · exact .inr (.inr (.inl (ConnCore.finished_mono hlog finished)))
  · exact .inr (.inr (.inr reset))
  by_cases unheaded : c.headed id
  · exact .inr (.inl (ConnCore.headed_mono hlog unheaded))
  have pending := ConnCore.pending_of hs.1 isLive unheaded
  have absent : c.streams.get? id = none → False := fun gone => by
    rw [gone] at isLive
    cases isLive
  have unopened : (c.streams.openPeer id).2 = .ok () → False := fun isOpen => by
    obtain ⟨-, unseen, -⟩ := StreamTable.openPeer_ok isOpen
    exact unseen (tidy.numbered id isLive)
  cases h with
  | handled permit | dropped _ _ permit | credited permit | responded _ _ permit
  | refused _ _ _ permit | pushed permit | trailersDue _ _ permit | turned _ _ _ permit =>
    exact permit.elim
  | withdrawn now heard frame =>
    obtain ⟨c₀, -, rfl, -⟩ := heard
    exact .inr (.inr (.inr ⟨_, frame⟩))
  | overgranted now code heard frame live bad =>
    obtain ⟨c₀, rfl, rfl, permit⟩ := heard
    have waits : c₀.pending id := by
      rw [← pending]
      simp [ConnCore.pending, ConnCore.dispatched, ConnCore.headed, ConnCore.observe,
        ConnObs.reply?, ConnObs.call?]
    have live : c₀.streams.get? id = _ := live
    unfold ConnCore.spares at permit
    rw [frame] at permit
    simp only [waits, live, Option.all_some, Bool.not_true, Bool.false_or, Bool.and_eq_true,
      decide_eq_true_eq] at permit
    obtain zero | overflows := bad
    · exact absurd zero permit.1
    · rw [permit.2] at overflows
      cases overflows
  | stray _ _ _ _ _ gone => exact (absent gone).elim
  | late _ _ _ gone => exact (absent (StreamTable.lookup_closed gone).1).elim
  | @flushed now es e limit owed =>
    refine (absent ((tidy.owing e.stream ?_).gone ?_)).elim <;>
      · unfold ConnCore.owed
        rw [owed]
        simp [List.countP_append]
  | crowded now cause refused =>
    obtain ⟨-, unseen, -⟩ := StreamTable.openPeer_refused refused
    exact (unseen (tidy.numbered id isLive)).elim
  | turnedAway now permit idle => exact (absent (StreamTable.lookup_idle idle).1).elim
  | malformed _ _ _ isOpen | dispatched _ _ isOpen | answered _ _ _ isOpen =>
    exact (unopened isOpen).elim
  | @mistrailed now _ headers endStream stream code limit permit live bad =>
    have completes := permit headers rfl pending
    rw [live] at completes
    unfold Option.all Stream.completes at completes
    obtain state | open_ | invalid | wrong := bad
    · simp [state] at completes
    · simp [open_] at completes
    · simp [invalid, Except.isOk, Except.toBool] at completes
    · simp [wrong] at completes
  | @trailered now _ headers stream limit permit live canSend =>
    have settled := ConnCore.Spared.settle (c := c.call (.trailers id headers)
      (Service.trailers now id headers c.service)) live canSend (.recvHeaders true) (.inl rfl) now
      limit
    exact settled.imp_right fun finished => .inr (.inl finished)
  | @delivered now w' _ data endStream stream window recvWindow limit permit frame live conn =>
    have accepts := ConnCore.spares_data permit.2 pending frame live conn
    have open_ : stream.state.peerCanSend := by
      unfold Stream.accepts at accepts
      rw [Bool.and_eq_true, Bool.and_eq_true] at accepts
      exact accepts.1.1
    have received : (c.receive w' id data.length window (some recvWindow)).streams.get? id = some
        { stream with
          dataReceived := satAdd64 stream.dataReceived data.length
          pendingConnRelease := satAdd32 stream.pendingConnRelease data.length
          recvWindow } := by
      refine (StreamTable.get?_modify ..).trans ?_
      rw [if_pos rfl]
      show (c.streams.get? id).map _ = _
      rw [live]
      rfl
    have settled := ConnCore.Spared.settle received open_ (.recvData endStream) (.inr rfl) now limit
    unfold ConnCore.deliver
    dsimp only
    split
    · exact settled.imp_right fun finished => .inr (.inl (ConnCore.finished_mono rfl finished))
    · exact settled.imp_right fun finished => .inr (.inl finished)
  | mismatched now code permit frame live conn within wrong =>
    have accepts := ConnCore.spares_data permit.2 pending frame live conn
    unfold Stream.accepts at accepts
    rw [wrong] at accepts
    simp at accepts
  | overspent now permit frame live conn past =>
    have accepts := ConnCore.spares_data permit.2 pending frame live conn
    unfold Stream.accepts at accepts
    rw [past] at accepts
    simp [Except.isOk, Except.toBool] at accepts
  | oversized => exact .inr (.inl (ConnCore.headed_respond ..))

theorem Move.spared (h : Move (oneFrame w) c c') (tidy : c.Tidy) (hs : c.Spared w id) :
    c'.Spared w id := by
  obtain noted | ⟨last, announced⟩ | quiet | ⟨on, move⟩ := h.kinds
  · refine hs.grows (noted.log.trans (List.append_nil _).symm) fun live => ?_
    have hrel := noted.alike.live id
    generalize c.streams.get? id = o, c'.streams.get? id = o' at hrel live
    cases hrel with
    | none => exact live
    | some => rfl
  · obtain ⟨added, hlog, -⟩ := (announced.untouched id).log
    exact hs.grows hlog fun live => (announced.untouched id).live ▸ live
  · obtain ⟨added, hlog, -⟩ := quiet.log
    exact hs.grows hlog fun live => (quiet.others id nofun) ▸ live
  · by_cases hid : on = id
    · subst hid
      exact move.spared tidy hs
    · have untouched : Untouched id c c' :=
        move.concerns.untouched fun h => hid (Option.some.inj h)
      obtain ⟨added, hlog, -⟩ := untouched.log
      exact hs.grows hlog fun live => untouched.live ▸ live

theorem Fault.spared (h : Fault (oneFrame w) c c') (tidy : c.Tidy) (hs : c.Spared w id) :
    c'.Spared w id := by
  have elsewhere : ∀ {on : StreamId}, Concerns (some on) c c' → on ≠ id → c'.Spared w id := by
    intro on concerns other
    obtain ⟨added, hlog, -⟩ := concerns.log
    refine hs.grows hlog fun live => ?_
    rw [concerns.others id fun h => other (Option.some.inj h)]
    exact live
  have opens : ∀ {on : StreamId}, (c.streams.openPeer on).2 = .ok () → Concerns (some on) c c' →
      c'.Spared w id := by
    intro on isOpen concerns
    by_cases hid : on = id
    · subst hid
      obtain ⟨-, unseen, -⟩ := StreamTable.openPeer_ok isOpen
      obtain ⟨added, hlog, -⟩ := concerns.log
      refine ⟨ConnCore.dispatched_mono hlog hs.1, ?_⟩
      obtain isLive | headed | finished | reset := hs.2
      · exact (unseen (tidy.numbered on isLive)).elim
      · exact .inr (.inl (ConnCore.headed_mono hlog headed))
      · exact .inr (.inr (.inl (ConnCore.finished_mono hlog finished)))
      · exact .inr (.inr (.inr reset))
    · exact elsewhere concerns hid
  have here : ∀ on, Concerns on c c := fun on => .refl on c
  cases h with
  | none => exact hs
  | heard w => exact hs.grows rfl fun live => live
  | idleData => exact hs.grows rfl fun live => live
  | @opened now _ endStream limit isOpen => exact opens isOpen ((here _).openRequest now limit endStream)
  | @unanswerable now _ enc fields limit isOpen =>
    exact opens isOpen (((here _).openRequest now limit true).observe (.encoded enc fields limit))
  | @received w' on data endStream stream window recvWindow frame live =>
    refine hs.grows rfl fun isLive => ?_
    have modified := StreamTable.get?_modify c.streams on id fun s =>
      { s with
        dataReceived := satAdd64 s.dataReceived data.length
        pendingConnRelease := satAdd32 s.pendingConnRelease data.length
        recvWindow }
    refine (congrArg Option.isSome modified).trans ?_
    split
    · rename_i heq
      rw [← heq, Option.isSome_map]
      exact isLive
    · exact isLive
  | transmitted _ _ permit | unencodable _ _ _ _ permit => exact permit.elim
  | unencodableEvent => exact hs.grows (List.append_assoc ..) fun live => live

theorem Conn.Closing.spared (h : Conn.Closing c c') (hs : c.Spared w id) : c'.Spared w id := by
  cases h with
  | quiet => exact hs.grows rfl fun live => live
  | failed => exact hs.grows (List.append_assoc ..) fun live => live

namespace Conn

variable {s t : Conn σ μ}

omit [Service σ μ] in
/-- A frame with restraint is one that is allowed. -/
theorem Permits.oneFrame {now : Instant} [Service σ μ] (h : Permits restrained s (now, .frame w)) :
    Permits (H2Proxy.oneFrame w) s (now, .frame w) :=
  ⟨fun handles => ⟨rfl, h.1 handles⟩, h.2⟩

/-- What holds of a running connection, on top of what its settings promise. -/
structure Steady (s : Conn σ μ) : Prop where
  sound : Sound s
  tidy : s.toConnCore.Tidy
  started : ∀ id, s.toConnCore.Started id

/-- A frame with restraint drops no request but one that it resets. -/
theorem step_spares (steady : s.Steady) {now : Instant} (permits : Permits restrained s (now, .frame w))
    (pending : s.pending id) : (step (now, .frame w) s).Spared w id := by
  have traced : Traced (H2Proxy.oneFrame w) s (step (now, .frame w) s) :=
    step_traced (.running .refl steady.sound) permits.oneFrame
  unfold ConnCore.pending at pending
  rw [Bool.and_eq_true, Bool.and_eq_true] at pending
  refine traced.invariant (I := fun c => c.Tidy ∧ c.Spared w id) (J := fun c => c.Spared w id)
    ⟨steady.tidy, pending.1.1, .inl pending.1.2⟩ ?_ ?_ ?_ ?_
  · exact fun c c' hc move => ⟨move.tidy hc.1, move.spared hc.1 hc.2⟩
  · exact fun c hc => hc.2
  · exact fun c c' hc fault => fault.spared hc.1 hc.2
  · exact fun c c' hc closing => closing.spared hc

/-! ## The charge -/

/-- The tokens left for unanswered resets. -/
def level (s : Conn σ μ) : Rat := s.guard.unanswered.level s.now

/-- A token was taken, and the stream is gone. -/
structure Charged (id : StreamId) (s t : Conn σ μ) : Prop where
  enough : 1 ≤ s.level
  taken : t.guard.unanswered.level s.now ≤ s.level - 1
  gone : t.streams.get? id = none

omit [Service σ μ] in
/-- A method of the guard lets its verdict decide, and touches nothing else. -/
theorem guarded_exactly (s : Conn σ μ) (f : Guard → Guard × Verdict) :
    Ends (guarded f s) (fun _ t => (f s.guard).2 = .ok ∧ t = { s with guard := (f s.guard).1 })
      fun e t => e.code = .enhanceYourCalm ∧ t.streams = s.streams := by
  unfold guarded
  rw [ends_bind, ends_get]
  rcases f s.guard with ⟨guard, verdict⟩
  cases verdict with
  | ok => exact ⟨rfl, rfl⟩
  | trip signal => exact ⟨rfl, rfl⟩

/-- Where the guard enforces, the reset of a request that waits is charged or ends the connection. -/
theorem recvRstStream_charges {s : Conn σ μ} (enforcing : s.guard.limits.observeOnly = false)
    {st : Stream} (live : s.streams.get? id = some st) (waits : st.responseStarted = false)
    (code : ErrorCode) :
    Ends (recvRstStream id code s) (fun _ t => Charged id s t)
      fun e t => t.streams = s.streams ∧ e.code = .enhanceYourCalm := by
  unfold recvRstStream
  rw [ends_bind, ends_get, StreamTable.lookup_live.mpr live]
  simp only [ends_bind, ends_get, waits]
  refine (guarded_exactly s _).mono ?_ fun e t h => ⟨h.2, h.1⟩
  rintro - t ⟨passed, rfl⟩
  obtain ⟨enough, taken⟩ := Guard.onReset_passes enforcing passed
  refine (abandon_ends _ _ _).ok fun _ u hu => (drainReclaimed_ends u).ok fun _ v hv => ?_
  refine ⟨enough, ?_, ?_⟩
  · refine le_trans ?_ (hu.kept.guard.level.trans taken)
    have later := hv.kept.guard.level
    rw [hu.kept.now] at later
    exact later
  · rw [hv.core, ConnCore.get?_reclaim, hu.core]
    exact ConnCore.get?_abandon ..

theorem recvWire_charges {s : Conn σ μ} (enforcing : s.guard.limits.observeOnly = false)
    {st : Stream} (live : s.streams.get? id = some st) (waits : st.responseStarted = false)
    {code : ErrorCode} (frame : w.decode = .ok (.frame (.rstStream id code))) :
    Ends (recvWire w s) (fun next t => next = .continue_ ∧ Charged id s t)
      fun e t => t.streams = s.streams ∧ (s.handles w → e.code = .enhanceYourCalm) := by
  have inOrder : s.handles w → w.header.length ≤ s.localSettings.maxFrameSize ∧
      s.headerBlockError .rstStream id = none := by
    intro h
    unfold handles at h
    rw [frame] at h
    simp only [Bool.and_eq_true, decide_eq_true_eq, Option.isNone_iff_eq_none] at h
    exact h.1
  unfold recvWire
  rw [ends_bind, ends_onCore, ends_bind, ends_get, ends_ite]
  refine ⟨fun long => ⟨rfl, fun handles => ?_⟩, fun _ => ?_⟩
  · exact absurd (inOrder handles).1 (Nat.not_le.mpr long)
  rw [frame]
  dsimp only
  unfold handleFrame
  rw [ends_bind, ends_get]
  cases hblock : s.headerBlockError .rstStream id with
  | some e =>
    have hblock' : (s.withCore (s.toConnCore.observe (.heard w))).headerBlockError .rstStream id =
      some e := hblock
    simp only [Frame.kind, Frame.streamId, hblock']
    refine ⟨rfl, fun handles => ?_⟩
    rw [(inOrder handles).2] at hblock
    cases hblock
  | none =>
    have hblock' : (s.withCore (s.toConnCore.observe (.heard w))).headerBlockError .rstStream id =
      none := hblock
    simp only [Frame.kind, Frame.streamId, hblock']
    rw [ends_bind]
    have charges := recvRstStream_charges (s := s.withCore (s.toConnCore.observe (.heard w)))
      enforcing live waits code
    refine charges.mono ?_ ?_
    · intro _ t charged
      exact ⟨rfl, charged.enough, charged.taken, charged.gone⟩
    · exact fun e t h => ⟨h.1, fun _ => h.2⟩

/-! ## Drops -/

omit [Service σ μ] in
theorem queueFrame_streams (s : Conn σ μ) (f : Frame) :
    Ends (queueFrame f s) (fun _ t => t.streams = s.streams) fun _ t => t.streams = s.streams := by
  unfold queueFrame queueFields
  cases f.write with
  | error e => rfl
  | ok octets => rfl

/-- The end of a connection leaves its table alone. -/
theorem conclude_streams (stop : Stop) (s : Conn σ μ) : (conclude stop s).streams = s.streams := by
  unfold conclude
  cases stop with
  | quiet => rfl
  | failed e =>
    have same := queueFrame_streams s (.goAway s.streams.highestPeerId e.code (ascii e.debug))
    dsimp only
    generalize queueFrame (.goAway s.streams.highestPeerId e.code (ascii e.debug)) s = res at same
    cases res with
    | error e' t => exact same
    | ok u t => exact same

/-- A request that waited, and has left without an answer. -/
def lost (s t : Conn σ μ) (id : StreamId) : Bool :=
  s.pending id && (t.streams.get? id).isNone && !t.headed id && !t.finished id

/-- How many requests a step loses. -/
def dropped (s t : Conn σ μ) : Nat := s.streams.live.keys.countP (s.lost t)

/-- How many requests the frames of a run lose. -/
def drops : List (Instant × ConnInput) → Conn σ μ → Nat
  | [], _ => 0
  | (now, .frame w) :: is, s => s.dropped (step (now, .frame w) s) + drops is (step (now, .frame w) s)
  | i :: is, s => drops is (step i s)

/-- The reset of a request that waits is charged, or an error leaves the table as it was. -/
theorem reset_charged {s : Conn σ μ} (steady : s.Steady) (running : s.stop = none)
    (enforcing : s.guard.limits.observeOnly = false) (pending : s.pending id) {code : ErrorCode}
    (frame : w.decode = .ok (.frame (.rstStream id code))) (now : Instant) :
    Charged id { s with now } (step (now, .frame w) s) ∨
      (step (now, .frame w) s).streams = s.streams ∧
        ∃ e, (step (now, .frame w) s).stop = some (.failed e) ∧
          (s.handles w → e.code = .enhanceYourCalm) := by
  unfold ConnCore.pending at pending
  simp only [Bool.and_eq_true, Bool.not_eq_true'] at pending
  obtain ⟨⟨-, isLive⟩, unheaded⟩ := pending
  obtain ⟨st, live⟩ := Option.isSome_iff_exists.mp isLive
  have waits : st.responseStarted = false := by
    cases started : st.responseStarted with
    | false => rfl
    | true =>
      rw [steady.started id st live started] at unheaded
      cases unheaded
  have charges := recvWire_charges (s := { s with now }) enforcing live waits frame
  rw [step_eq running]
  change Ends (react (.frame w) { s with now }) _ _ at charges
  generalize react (.frame w) { s with now } = res at charges ⊢
  cases res with
  | ok next t =>
    obtain ⟨rfl, charged⟩ := charges
    exact .inl charged
  | error e t => exact .inr ⟨(conclude_streams _ t).trans charges.1, e, rfl, charges.2⟩

/-- A frame of a restrained client loses one request at most, for a token. -/
theorem dropped_charged {s : Conn σ μ} (steady : s.Steady) (running : s.stop = none)
    (enforcing : s.guard.limits.observeOnly = false) {now : Instant}
    (permits : Permits restrained s (now, .frame w)) :
    s.dropped (step (now, .frame w) s) = 0 ∨ s.dropped (step (now, .frame w) s) = 1 ∧
      1 ≤ s.guard.unanswered.level now ∧ (step (now, .frame w) s).guard.unanswered.level now ≤
        s.guard.unanswered.level now - 1 := by
  -- What is lost was reset by this very frame.
  have reset : ∀ id, s.lost (step (now, .frame w) s) id →
      s.pending id ∧ (step (now, .frame w) s).streams.get? id = none ∧
        ∃ code, w.decode = .ok (.frame (.rstStream id code)) := by
    intro id hlost
    unfold lost at hlost
    simp only [Bool.and_eq_true, Bool.not_eq_true', Option.isNone_iff_eq_none] at hlost
    obtain ⟨⟨⟨pending, gone⟩, unheaded⟩, unfinished⟩ := hlost
    refine ⟨pending, gone, ?_⟩
    obtain live | headed | finished | reset := (step_spares steady permits pending).2
    · rw [gone] at live
      cases live
    · rw [unheaded] at headed
      cases headed
    · rw [unfinished] at finished
      cases finished
    · exact reset
  by_cases some_ : ∃ id ∈ s.streams.live.keys, s.lost (step (now, .frame w) s) id
  · obtain ⟨id, mem, hlost⟩ := some_
    obtain ⟨pending, gone, code, frame⟩ := reset id hlost
    right
    refine ⟨?_, ?_⟩
    · refine Nat.le_antisymm ?_ (List.countP_pos_iff.mpr ⟨id, mem, hlost⟩)
      refine le_trans (List.countP_mono_left (q := (· == id)) fun id' _ hlost' => ?_)
        (List.nodup_iff_count_le_one.mp s.streams.live.nodupKeys id)
      obtain ⟨-, -, code', frame'⟩ := reset id' hlost'
      cases frame.symm.trans frame'
      exact beq_self_eq_true _
    · obtain charged | ⟨same, -⟩ := reset_charged steady running enforcing pending frame now
      · exact ⟨charged.enough, charged.taken⟩
      · unfold ConnCore.pending at pending
        rw [← same, gone] at pending
        simp at pending
  · left
    refine List.countP_eq_zero.mpr fun id mem hlost => some_ ⟨id, mem, hlost⟩

/-- While a connection runs on it stays steady, and its guard is at most drawn on. -/
theorem step_steady {s : Conn σ μ} (steady : s.Steady) (running : s.stop = none)
    {i : Instant × ConnInput} (goesOn : (step i s).stop = none) :
    (step i s).Steady ∧ s.guard.Drawn i.1 (step i s).guard := by
  obtain ⟨now, input⟩ := i
  have sound : Sound { s with now } :=
    ⟨steady.sound.frameSize, steady.sound.decoder, steady.sound.capacity, steady.sound.maxFrameSize⟩
  have made := react_makes (P := {}) sound input (permits_all _ (now, input))
  rw [step_goes_on running goesOn] at made
  have made : Makes {} { s with now } (step (now, input) s) := made
  refine ⟨⟨made.sound, ?_, fun id => ?_⟩, made.paced.guard⟩
  · exact moves_invariant made.moves steady.tidy fun _ _ hc move => move.tidy hc
  · exact moves_invariant (I := fun c => c.Started id) made.moves (steady.started id)
      fun _ _ hc move => move.started hc

omit [Service σ μ] in
theorem Fresh.steady {s : Conn σ μ} (h : Fresh s) : s.Steady :=
  ⟨h.sound, h.tidy, fun id => by
    obtain ⟨service, localSettings, window, limits, policy, admission, now, -, -, -, rfl⟩ := h
    exact .gone rfl⟩

/-- A connection that has stopped loses nothing more. -/
theorem drops_stopped {s : Conn σ μ} (stopped : s.stop.isSome) (is : List (Instant × ConnInput)) :
    drops is s = 0 := by
  have still : ∀ i, step i s = s := fun i => if_pos stopped
  have nothing : s.dropped s = 0 := by
    refine List.countP_eq_zero.mpr fun id _ hlost => ?_
    unfold lost ConnCore.pending at hlost
    cases hs : s.streams.get? id <;> simp [hs] at hlost
  induction is with
  | nil => rfl
  | cons i is ih =>
    obtain ⟨now, input⟩ := i
    cases input with
    | frame w =>
      unfold drops
      rw [still, nothing, ih]
    | _ =>
      unfold drops
      rw [still]
      exact ih

/-- One step loses a request for a token, or none. -/
theorem drops_cons {s : Conn σ μ} (steady : s.Steady) (running : s.stop = none)
    (enforcing : s.guard.limits.observeOnly = false) {i : Instant × ConnInput}
    (permits : Permits restrained s i) (is : List (Instant × ConnInput)) :
    ∃ d, drops (i :: is) s = d + drops is (step i s) ∧ (d = 0 ∨ d = 1 ∧
      1 ≤ s.guard.unanswered.level i.1 ∧
        (step i s).guard.unanswered.level i.1 ≤ s.guard.unanswered.level i.1 - 1) := by
  obtain ⟨now, input⟩ := i
  cases input with
  | frame w => exact ⟨_, rfl, dropped_charged steady running enforcing permits⟩
  | _ => exact ⟨0, (Nat.zero_add _).symm, .inl rfl⟩

/-- What a bucket holds at a time, and earns after it, bounds what is lost from then on. -/
theorem drops_le {s : Conn σ μ} (steady : s.Steady) (running : s.stop = none)
    (enforcing : s.guard.limits.observeOnly = false) (earns : 0 ≤ s.guard.unanswered.rate)
    {is : List (Instant × ConnInput)} (meets : (machine σ μ).Meets (Permits restrained) s is)
    {t u : Instant} (le : t ≤ u) (clock : (t :: is.map Prod.fst).Pairwise (· ≤ ·))
    (inside : ∀ i ∈ is, i.1 ≤ u) :
    (drops is s : Rat) ≤ max 0 (s.guard.unanswered.level t) +
      ((u - t : Nat) : Rat) / 1000000000 * s.guard.unanswered.rate := by
  have span : ∀ a b : Instant, (0 : Rat) ≤ ((b - a : Nat) : Rat) / 1000000000 * s.guard.unanswered.rate :=
    fun a b => by positivity
  induction is generalizing s t with
  | nil =>
    show ((0 : Nat) : Rat) ≤ _
    rw [Nat.cast_zero]
    exact add_nonneg (le_max_left ..) (span t u)
  | cons i is ih =>
    obtain ⟨d, split, charged⟩ := drops_cons steady running enforcing meets.1 is
    rw [List.map_cons, List.pairwise_cons] at clock
    have before : t ≤ i.1 := clock.1 i.1 List.mem_cons_self
    have after : i.1 ≤ u := inside i List.mem_cons_self
    have parts : ((u - t : Nat) : Rat) / 1000000000 * s.guard.unanswered.rate =
        ((i.1 - t : Nat) : Rat) / 1000000000 * s.guard.unanswered.rate +
          ((u - i.1 : Nat) : Rat) / 1000000000 * s.guard.unanswered.rate := by
      have sum : ∀ a b c : Nat, a ≤ b → b ≤ c → c - a = (b - a) + (c - b) := by omega
      rw [sum t i.1 u before after, Nat.cast_add, add_div, add_mul]
    have grown : s.guard.unanswered.level i.1 ≤ s.guard.unanswered.level t +
        ((i.1 - t : Nat) : Rat) / 1000000000 * s.guard.unanswered.rate :=
      Bucket.level_later earns t i.1
    have floor := le_max_left 0 (s.guard.unanswered.level t)
    have height := le_max_right 0 (s.guard.unanswered.level t)
    have early := span t i.1
    have late := span i.1 u
    rw [split, Nat.cast_add, parts]
    cases hstop : (step i s).stop with
    | some stop =>
      rw [drops_stopped (by rw [hstop]; rfl), Nat.cast_zero, add_zero]
      obtain rfl | ⟨rfl, enough, -⟩ := charged
      · rw [Nat.cast_zero]
        linarith
      · rw [Nat.cast_one]
        linarith
    | none =>
      obtain ⟨steady', drawn⟩ := step_steady steady running hstop
      have rest := ih steady' hstop (by rw [drawn.limits]; exact enforcing)
        (by rw [drawn.rate]; exact earns) meets.2 after clock.2
        (fun i hi => inside i (List.mem_cons_of_mem _ hi)) fun a b => by rw [drawn.rate]; exact span a b
      rw [drawn.rate] at rest
      have level := drawn.level
      obtain rfl | ⟨rfl, enough, taken⟩ := charged
      · rw [Nat.cast_zero]
        have := max_le_max (le_refl (0 : Rat)) level
        have := max_le (show (0 : Rat) ≤ max 0 (s.guard.unanswered.level t) +
          ((i.1 - t : Nat) : Rat) / 1000000000 * s.guard.unanswered.rate by linarith)
          (show s.guard.unanswered.level i.1 ≤ max 0 (s.guard.unanswered.level t) +
            ((i.1 - t : Nat) : Rat) / 1000000000 * s.guard.unanswered.rate by linarith)
        linarith
      · rw [Nat.cast_one]
        have := max_le (show (0 : Rat) ≤ s.guard.unanswered.level i.1 - 1 by linarith) taken
        linarith

/-- While it runs, a connection is steady and its bucket is that of its limits. -/
theorem running_metered {s₀ s : Conn σ μ} (fresh : Fresh s₀)
    (h : ((machine σ μ).startedAt s₀).Reachable s) (running : s.stop = none) :
    s.Steady ∧ s.guard.limits = s₀.guard.limits ∧
      s.guard.unanswered.rate = s₀.guard.limits.unansweredRate ∧
      s.guard.unanswered.burst = s₀.guard.limits.unansweredBurst := by
  induction h with
  | init h =>
    obtain rfl := h
    refine ⟨fresh.steady, rfl, ?_⟩
    obtain ⟨service, localSettings, window, limits, policy, admission, now, -, -, -, rfl⟩ := fresh
    exact ⟨rfl, rfl⟩
  | @step s i _ _ ih =>
    have ran : s.stop = none := by
      cases hs : s.stop with
      | none => rfl
      | some stop =>
        have still : step i s = s := if_pos (by rw [hs]; rfl)
        have running : (step i s).stop = none := running
        rw [still, hs] at running
        cases running
    obtain ⟨steady, limits, rate, burst⟩ := ih ran
    obtain ⟨steady', drawn⟩ := step_steady steady ran running
    exact ⟨steady', drawn.limits.trans limits, drawn.rate.trans rate, drawn.burst.trans burst⟩

/-- The RST_STREAM of a request that waits is paid for with a token, or ends the connection with
    ENHANCE_YOUR_CALM. -/
def ChargesResets (s : Conn σ μ) : Prop :=
  ∀ now w id code, w.decode = .ok (.frame (.rstStream id code)) → s.handles w → s.pending id →
    (step (now, .frame w) s).streams.get? id = none ∧ 1 ≤ s.guard.unanswered.level now ∨
      ∃ e, (step (now, .frame w) s).stop = some (.failed e) ∧ e.code = .enhanceYourCalm

theorem Steady.chargesResets {s : Conn σ μ} (steady : s.Steady) (running : s.stop = none)
    (enforcing : s.guard.limits.observeOnly = false) : s.ChargesResets := by
  intro now w id code frame handles pending
  obtain charged | ⟨-, e, stop, calm⟩ := reset_charged steady running enforcing pending frame now
  · exact .inl ⟨charged.gone, charged.enough⟩
  · exact .inr ⟨e, stop, calm handles⟩

/-- Where the guard enforces, the frames of a restrained client lose no more requests in any span
    of time than the burst and the rate allow, and the next reset ends the connection. -/
theorem drops_bounded {s₀ : Conn σ μ} (fresh : Fresh s₀)
    (enforcing : s₀.guard.limits.observeOnly = false) (burst : 0 ≤ s₀.guard.limits.unansweredBurst)
    (earns : 0 ≤ s₀.guard.limits.unansweredRate) {before during : List (Instant × ConnInput)}
    (meets : (machine σ μ).Meets (Permits restrained) s₀ (before ++ during)) {t : Instant}
    {span : Duration} (clock : (t :: during.map Prod.fst).Pairwise (· ≤ ·))
    (inside : ∀ i ∈ during, i.1 ≤ t + span) :
    (drops during ((machine σ μ).run s₀ before) : Rat) ≤ s₀.guard.limits.unansweredBurst +
        (span : Rat) / 1000000000 * s₀.guard.limits.unansweredRate ∧
      (((machine σ μ).run s₀ before).stop = none → ((machine σ μ).run s₀ before).ChargesResets) := by
  have reachable : ((machine σ μ).startedAt s₀).Reachable ((machine σ μ).run s₀ before) :=
    Machine.Reach.run (M := (machine σ μ).startedAt s₀) (.init rfl) before
      (.of_all (fun _ _ => trivial) _ _)
  generalize hs : (machine σ μ).run s₀ before = s at reachable
  have meets := (Machine.Meets.append.mp meets).2
  rw [hs] at meets
  cases stop : s.stop with
  | some stop' =>
    rw [drops_stopped (by rw [stop]; rfl)]
    refine ⟨?_, nofun⟩
    have span_ : (0 : Rat) ≤ (span : Rat) / 1000000000 * s₀.guard.limits.unansweredRate := by positivity
    rw [Nat.cast_zero]
    exact add_nonneg burst span_
  | none =>
    obtain ⟨steady, limits, rate, burst'⟩ := running_metered fresh reachable stop
    have enforces : s.guard.limits.observeOnly = false := by rw [limits]; exact enforcing
    refine ⟨?_, fun _ => steady.chargesResets stop enforces⟩
    have bound := drops_le steady stop enforces (by rw [rate]; exact earns) meets
      (Nat.le_add_right t span) clock inside
    rw [rate] at bound
    have full : s.guard.unanswered.level t ≤ s₀.guard.limits.unansweredBurst := by
      rw [← burst']
      exact Bucket.level_le_burst
    refine bound.trans (add_le_add (max_le burst full) (le_of_eq ?_))
    rw [Nat.add_sub_cancel_left]

/-! ### Requests lost for nothing -/

/-- Limits under which one unanswered reset is absorbed. -/
def oneReset : Limits := { Limits.default with unansweredBurst := 1 }

/-- A fresh connection under these limits. -/
def strict : Conn Echo Empty :=
  start (.new 4) .server connectionWindow oneReset .default none 0

theorem strict_fresh : Fresh strict :=
  ⟨.new 4, .server, connectionWindow, oneReset, .default, none, 0,
    ⟨by decide, by decide, by decide⟩, by decide, by decide, rfl⟩

/-- `GET /` on stream 1, which its client resets. -/
theorem cancelFirst_charged :
    (drops [(0, .frame cancelFirst)] ((machine Echo Empty).run strict [(0, .frame getRoot)]) : Rat) ≤
        strict.guard.limits.unansweredBurst +
          ((0 : Duration) : Rat) / 1000000000 * strict.guard.limits.unansweredRate ∧
      (((machine Echo Empty).run strict [(0, .frame getRoot)]).stop = none →
        ((machine Echo Empty).run strict [(0, .frame getRoot)]).ChargesResets) := by
  have meets : (machine Echo Empty).Meets (Permits restrained) strict
      ([(0, .frame getRoot)] ++ [(0, .frame cancelFirst)]) := by decide +kernel
  exact drops_bounded strict_fresh rfl (by decide +kernel) (by decide +kernel) meets (t := 0)
    (by decide) (by decide)

/-- WINDOW_UPDATE on stream 3 that grants nothing. -/
def zeroUpdateThird : WireFrame :=
  .ofParts .windowUpdate 0 (.new 3) [0, 0, 0, 0] zeroUpdate.length_lt

/-- Two requests of which a WINDOW_UPDATE makes nothing are charged to no one. -/
theorem grants_uncharged : ¬ ∀ s₀ : Conn Echo Empty, Fresh s₀ →
    s₀.guard.limits.observeOnly = false → 0 ≤ s₀.guard.limits.unansweredBurst →
    0 ≤ s₀.guard.limits.unansweredRate → ∀ (before during : List (Instant × ConnInput)) (t : Instant)
      (span : Duration), (t :: during.map Prod.fst).Pairwise (· ≤ ·) → (∀ i ∈ during, i.1 ≤ t + span) →
      (drops during ((machine Echo Empty).run s₀ before) : Rat) ≤ s₀.guard.limits.unansweredBurst +
          (span : Rat) / 1000000000 * s₀.guard.limits.unansweredRate ∧
        (((machine Echo Empty).run s₀ before).stop = none →
          ((machine Echo Empty).run s₀ before).ChargesResets) := by
  intro all
  have bound := (all strict strict_fresh rfl (by decide +kernel) (by decide +kernel)
    [(0, .frame getRoot), (0, .frame getThird)]
    [(0, .frame zeroUpdate), (0, .frame zeroUpdateThird)] 0 0 (by decide) (by decide)).1
  have two : drops [(0, .frame zeroUpdate), (0, .frame zeroUpdateThird)] ((machine Echo Empty).run
      strict [(0, .frame getRoot), (0, .frame getThird)]) = 2 := by decide +kernel
  rw [two] at bound
  exact absurd bound (by decide +kernel)

end Conn

end H2Proxy
