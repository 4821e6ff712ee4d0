import H2Proxy.Conn.Phase

/-
  What a move leaves alone.

  An effect concerns one stream or none (`Concerns`). Of every other stream nothing is queued
  or told, the responder is not called about it, no reset of it is owed or paid, and it stays in
  the table as it was (`Untouched`). No GOAWAY is sent, and a drain stays where it is.
-/

namespace H2Proxy

/-- The stream a call is about. -/
def Call.id? : Call → Option StreamId
  | .dispatch id .. | .body id .. | .trailers id _ | .cancel id _ | .finish id | .released id _ =>
    some id
  | .intercept _ | .drop => none

namespace ConnObs

variable {μ : Type} (id : StreamId)

/-- The call about stream `id` that an entry of the log is. -/
def call? : ConnObs μ → Option Call
  | called call => if call.id? = some id then some call else none
  | _ => none

/-- The last stream id of the GOAWAY that an entry of the log is. -/
def goAway? : ConnObs μ → Option StreamId
  | queued (.goAway last ..) _ _ => some last
  | _ => none

/-- An entry about no stream, or about another. -/
structure Apart (o : ConnObs μ) : Prop extends o.Mute id where
  call : o.call? id = none

/-- An entry about stream `on`, or about none, and no GOAWAY. -/
structure About (on : Option StreamId) (o : ConnObs μ) : Prop where
  others : ∀ id, on ≠ some id → o.Apart id
  calm : o.goAway? = none

variable {id}

theorem Apart.queued {f : Frame} {fields : List Header} {limit : Nat}
    (h : f.streamId ≠ id ∨ f.reply? fields = none) :
    (queued f fields limit : ConnObs μ).Apart id :=
  ⟨.queued h, rfl⟩

theorem Apart.called {call : Call} (h : call.id? ≠ some id) : (called call : ConnObs μ).Apart id := by
  refine ⟨⟨rfl, ?_⟩, if_neg h⟩
  cases call with
  | dispatch id' =>
    refine if_neg ?_
    rintro rfl
    exact h rfl
  | _ => rfl

theorem Neutral.about {o : ConnObs μ} (h : o.Neutral) (on : Option StreamId) : o.About on := by
  refine ⟨fun id _ => ⟨h.mute, ?_⟩, ?_⟩
  · cases h <;> rfl
  · cases h with
    | heard | encoded => rfl
    | @queued f limit fits kind =>
      cases f with
      | goAway => obtain h | h := kind <;> cases h
      | _ => rfl

namespace About

variable {on : Option StreamId}

theorem heard (w : WireFrame) : (ConnObs.heard w : ConnObs μ).About on :=
  ⟨fun _ _ => ⟨⟨rfl, rfl⟩, rfl⟩, rfl⟩

theorem opened (id : StreamId) : (ConnObs.opened id : ConnObs μ).About on :=
  ⟨fun _ _ => ⟨⟨rfl, rfl⟩, rfl⟩, rfl⟩

theorem encoded (enc : HpackEncoder) (fields : List Header) (limit : Nat) :
    (ConnObs.encoded enc fields limit : ConnObs μ).About on :=
  ⟨fun _ _ => ⟨⟨rfl, rfl⟩, rfl⟩, rfl⟩

theorem sent (message : μ) : (ConnObs.sent message : ConnObs μ).About on :=
  ⟨fun _ _ => ⟨⟨rfl, rfl⟩, rfl⟩, rfl⟩

theorem handled (e : ServiceEvent) : (ConnObs.handled e : ConnObs μ).About (some e.id) :=
  ⟨fun _ hid => ⟨.handled fun h => hid (congrArg some h), rfl⟩, rfl⟩

theorem called (call : Call) (h : call.id? = none ∨ call.id? = on) :
    (ConnObs.called call : ConnObs μ).About on := by
  refine ⟨fun id hid => .called fun hcall => ?_, rfl⟩
  obtain h | h := h
  · cases h.symm.trans hcall
  · exact hid (h.symm.trans hcall)

/-- A reply to stream `on`. -/
theorem reply {f : Frame} {fields : List Header} {limit : Nat} (kind : f.kind ≠ .goAway) :
    (ConnObs.queued f fields limit : ConnObs μ).About (some f.streamId) := by
  refine ⟨fun id hid => .queued (.inl fun h => hid (congrArg some h)), ?_⟩
  cases f with
  | goAway => exact absurd rfl kind
  | _ => rfl

theorem windowUpdates {id : StreamId} {limit : Nat} (increment : Option Nat) :
    ∀ o ∈ (increment.map fun n =>
      (ConnObs.queued (.windowUpdate id n) [] limit : ConnObs μ)).toList, o.About on := by
  intro o ho
  obtain ⟨n, -, rfl⟩ := Option.mem_map.mp (Option.mem_toList.mp ho)
  exact ⟨fun _ _ => .queued (.inr rfl), rfl⟩

end About

end ConnObs

variable {σ μ : Type} {id : StreamId}

/-- How many resets are owed to a stream. -/
def ConnCore.owed (id : StreamId) (c : ConnCore σ μ) : Nat :=
  c.pendingReset.countP (·.stream = id)

/-- Nothing was sent, told or changed of stream `id`. -/
structure Untouched (id : StreamId) (c c' : ConnCore σ μ) : Prop where
  live : c'.streams.get? id = c.streams.get? id
  owed : c'.owed id = c.owed id
  log : ∃ added, c'.log = c.log ++ added ∧ ∀ o ∈ added, o.Apart id

/-- All that happened concerns the stream `on`, or no stream. -/
structure Concerns (on : Option StreamId) (c c' : ConnCore σ μ) : Prop where
  others : ∀ id, on ≠ some id → c'.streams.get? id = c.streams.get? id
  owed : ∀ id, on ≠ some id → c'.owed id = c.owed id
  draining : c'.draining = c.draining
  highestLocalId : c'.streams.highestLocalId = c.streams.highestLocalId
  highestPeerId : c'.streams.highestPeerId = c.streams.highestPeerId ∨
    ∃ id, on = some id ∧ id.isClientInitiated ∧ ¬ id ≤ c.streams.highestPeerId
  log : ∃ added, c'.log = c.log ++ added ∧ ∀ o ∈ added, o.About on

namespace Concerns

variable {on : Option StreamId} {a c c' : ConnCore σ μ}

theorem untouched (h : Concerns on c c') (other : on ≠ some id) : Untouched id c c' := by
  obtain ⟨added, hlog, habout⟩ := h.log
  exact ⟨h.others id other, h.owed id other, added, hlog, fun o ho => (habout o ho).others id other⟩

theorem refl (on : Option StreamId) (c : ConnCore σ μ) : Concerns on c c :=
  ⟨fun _ _ => rfl, fun _ _ => rfl, rfl, rfl, .inl rfl, [], (List.append_nil _).symm, nofun⟩

theorem trans {c'' : ConnCore σ μ} (h : Concerns on c c') (h' : Concerns on c' c'') :
    Concerns on c c'' := by
  obtain ⟨added, hlog, habout⟩ := h.log
  obtain ⟨added', hlog', habout'⟩ := h'.log
  refine ⟨fun id hid => (h'.others id hid).trans (h.others id hid),
    fun id hid => (h'.owed id hid).trans (h.owed id hid), h'.draining.trans h.draining,
    h'.highestLocalId.trans h.highestLocalId, ?_, added ++ added', ?_, ?_⟩
  · obtain same | new := h.highestPeerId
    · obtain same' | ⟨id, hon, odd, hle⟩ := h'.highestPeerId
      · exact .inl (same'.trans same)
      · exact .inr ⟨id, hon, odd, same ▸ hle⟩
    · exact .inr new
  · rw [hlog', hlog, List.append_assoc]
  · intro o ho
    exact (List.mem_append.mp ho).elim (habout o) (habout' o)

theorem add (h : Concerns on a c) {c' : ConnCore σ μ} (added : List (ConnObs μ))
    (hlog : c'.log = c.log ++ added) (about : ∀ o ∈ added, o.About on)
    (draining : c'.draining = c.draining) (owed : c'.pendingReset = c.pendingReset)
    (own : c'.streams.highestLocalId = c.streams.highestLocalId)
    (top : c'.streams.highestPeerId = c.streams.highestPeerId)
    (others : ∀ id, on ≠ some id → c'.streams.get? id = c.streams.get? id) : Concerns on a c' := by
  refine h.trans ⟨others, fun id _ => ?_, draining, own, .inl top, added, hlog, about⟩
  unfold ConnCore.owed
  rw [owed]

/-- The table may change in the stream concerned. -/
theorem table (h : Concerns on a c) {c' : ConnCore σ μ} (hlog : c'.log = c.log)
    (draining : c'.draining = c.draining) (owed : c'.pendingReset = c.pendingReset)
    (own : c'.streams.highestLocalId = c.streams.highestLocalId)
    (top : c'.streams.highestPeerId = c.streams.highestPeerId)
    (others : ∀ id, on ≠ some id → c'.streams.get? id = c.streams.get? id) : Concerns on a c' :=
  h.add [] (hlog.trans (List.append_nil _).symm) nofun draining owed own top others

theorem observe (h : Concerns on a c) {o : ConnObs μ} (about : o.About on) :
    Concerns on a (c.observe o) := by
  refine h.add [o] rfl ?_ rfl rfl rfl rfl fun _ _ => rfl
  intro x hx
  cases List.mem_singleton.mp hx
  exact about

theorem call (h : Concerns on a c) {call : Call} (r : σ × List (Effect μ))
    (about : call.id? = none ∨ call.id? = on) : Concerns on a (c.call call r) := by
  refine h.add _ rfl ?_ rfl rfl rfl rfl fun _ _ => rfl
  intro o ho
  obtain rfl | ho := List.mem_cons.mp ho
  · exact .called call about
  · obtain ⟨x, -, hx⟩ := List.mem_filterMap.mp ho
    cases x with
    | emit event => cases hx
    | send message => cases hx; exact .sent message

theorem releaseConn (h : Concerns on a c) (n limit : Nat) :
    Concerns on a (c.releaseConn n limit) :=
  h.add _ rfl (ConnObs.About.windowUpdates _) rfl rfl rfl rfl fun _ _ => rfl

theorem reclaim (h : Concerns on a c) (limit : Nat) : Concerns on a (c.reclaim limit) := by
  unfold ConnCore.reclaim
  dsimp only
  split
  · exact h.table rfl rfl rfl rfl rfl fun _ _ => rfl
  · refine releaseConn ?_ _ limit
    exact h.table rfl rfl rfl rfl rfl fun _ _ => rfl

section Stream

variable {on : StreamId}

theorem modifyStream (h : Concerns (some on) a c) (f : Stream → Stream) :
    Concerns (some on) a (c.modifyStream on f) := by
  refine h.table rfl rfl rfl rfl rfl fun id hid => ?_
  exact (StreamTable.get?_modify ..).trans (if_neg fun h => hid (congrArg some h.symm))

theorem credit (h : Concerns (some on) a c) (stream : Stream) (n limit : Nat) :
    Concerns (some on) a (c.credit on stream n limit) := by
  unfold ConnCore.credit
  refine releaseConn ?_ n limit
  exact (h.modifyStream _).add _ rfl
    (ConnObs.About.windowUpdates (stream.recvWindow.release n).2) rfl rfl rfl rfl fun _ _ => rfl

theorem receive (h : Concerns (some on) a c) (w : WireFrame) (len : Nat) (window : RecvWindow)
    (recvWindow : Option RecvWindow) : Concerns (some on) a (c.receive w on len window recvWindow) := by
  refine modifyStream ?_ _
  exact (h.observe (.heard w)).table rfl rfl rfl rfl rfl fun _ _ => rfl

theorem headersOut (h : Concerns (some on) a c) (fields : List Header) (endStream : Bool)
    (enc : HpackEncoder) (limit : Nat) :
    Concerns (some on) a (c.headersOut on fields endStream enc limit) :=
  (h.observe (.encoded enc fields limit)).observe
    (.reply (f := .headers on (enc.encode fields).2 endStream true) nofun)

theorem declare (h : Concerns (some on) a c) (contentLength : Option Nat) :
    Concerns (some on) a (c.declare on contentLength) := by
  cases contentLength with
  | none => exact h
  | some n => exact h.modifyStream _

section Service

variable [Service σ μ] (now : Instant) (enc : HpackEncoder) (limit : Nat)

theorem abandon (h : Concerns (some on) a c) (code : ErrorCode) :
    Concerns (some on) a (c.abandon now on code) := by
  unfold ConnCore.abandon
  refine call ?_ _ (.inr rfl)
  refine h.table rfl rfl rfl (StreamTable.retire_highestLocalId _ _)
    (StreamTable.retire_top _ _) fun id hid => ?_
  exact (StreamTable.get?_retire ..).trans (if_neg fun h => hid (congrArg some h.symm))

omit [Service σ μ] in
/-- The error of an illegal transition is the stream's own. -/
theorem apply_error_stream {t : StreamTable} {event : StreamEvent} {e : StreamError}
    (h : (t.apply on event).2 = .error e) : e.stream = on := by
  unfold StreamTable.apply at h
  cases hs : t.get? on with
  | none =>
    rw [hs] at h
    cases h
    rfl
  | some s =>
    rw [hs] at h
    dsimp only at h
    cases ht : s.state.transition event with
    | error code =>
      rw [ht] at h
      cases h
      rfl
    | ok next =>
      rw [ht] at h
      cases h

theorem settle (h : Concerns (some on) a c) (event : StreamEvent) :
    Concerns (some on) a (c.settle now on event limit) := by
  have live : ∀ id, some on ≠ some id → (c.streams.apply on event).1.get? id = c.streams.get? id :=
    fun id hid => c.streams.get?_apply_ne event fun h => hid (congrArg some h.symm)
  have own : ∀ e, (c.streams.apply on event).2 = .error e → e.stream = on :=
    fun e => apply_error_stream
  unfold ConnCore.settle
  have local_ := StreamTable.apply_highestLocalId c.streams on event
  have top := StreamTable.apply_top c.streams on event
  generalize c.streams.apply on event = res at live own local_ top
  obtain ⟨streams, result⟩ := res
  cases result with
  | ok state =>
    dsimp only
    split
    · refine reclaim ?_ limit
      refine call ?_ _ (.inr rfl)
      exact h.table rfl rfl rfl local_ top live
    · exact h.table rfl rfl rfl local_ top live
  | error e =>
    dsimp only
    split
    · exact h.table rfl rfl rfl local_ top live
    · refine h.trans ⟨fun id hid => ?_, fun id hid => ?_, rfl,
        (StreamTable.retire_highestLocalId _ _).trans local_,
        .inl ((StreamTable.retire_top _ _).trans top), [], (List.append_nil _).symm, nofun⟩
      · refine (StreamTable.get?_retire ..).trans ?_
        rw [if_neg fun h => hid (congrArg some h.symm)]
        exact live id hid
      · have other : ¬ e.stream = id := own _ rfl ▸ fun h => hid (congrArg some h)
        simp [ConnCore.owed, List.countP_append, other]

theorem writeRst (h : Concerns (some on) a c) (code : ErrorCode) :
    Concerns (some on) a (c.writeRst now on code limit) :=
  ((h.abandon now code).reclaim limit).observe (.reply (f := .rstStream on code) nofun)

theorem deliver (h : Concerns (some on) a c) (data : Bytes) (endStream : Bool) :
    Concerns (some on) a (c.deliver now on data endStream limit) := by
  have settled := h.settle now limit (.recvData endStream)
  unfold ConnCore.deliver
  dsimp only
  split
  · exact settled.call _ (.inr rfl)
  · exact settled

theorem respond (h : Concerns (some on) a c) (response : Response) (endStream : Bool) :
    Concerns (some on) a (c.respond now on response endStream enc limit) :=
  ((h.headersOut _ _ _ _).modifyStream _).settle now limit _

theorem sendTrailers (h : Concerns (some on) a c) (fields : List Header) :
    Concerns (some on) a (c.sendTrailers now on fields enc limit) := by
  unfold ConnCore.sendTrailers
  split
  · exact h.modifyStream _
  · split
    · exact h.modifyStream _
    · exact (h.headersOut _ _ _ _).settle now limit _

theorem openRequest (h : Concerns (some on) a c) (endStream : Bool) :
    Concerns (some on) a (c.openRequest now on endStream limit) := by
  unfold ConnCore.openRequest
  refine settle now limit (observe ?_ (.opened on)) _
  obtain ⟨why, -, heq⟩ | ⟨odd, unseen, heq | heq⟩ := c.streams.openPeer_cases on <;> rw [heq]
  · exact h.table rfl rfl rfl rfl rfl fun _ _ => rfl
  · exact h.trans ⟨fun _ _ => rfl, fun _ _ => rfl, rfl, rfl, .inr ⟨on, rfl, odd, unseen⟩, [],
      (List.append_nil _).symm, nofun⟩
  · refine h.trans ⟨fun id hid => ?_, fun _ _ => rfl, rfl, rfl, .inr ⟨on, rfl, odd, unseen⟩, [],
      (List.append_nil _).symm, nofun⟩
    exact (StreamTable.get?_insertNew ..).trans (if_neg fun h => hid (congrArg some h.symm))

theorem transmit (h : Concerns (some on) a c) (turn : Stream.Turn) (sendWindow : Window) :
    Concerns (some on) a (c.transmit now on turn sendWindow limit) := by
  unfold ConnCore.transmit
  dsimp only
  split
  · exact settle now limit ((h.modifyStream _).observe
      (.reply (f := .data on turn.chunk turn.endStream) nofun)) _
  · exact h.modifyStream _

theorem reportReleased (h : Concerns (some on) a c) (n : Nat) :
    Concerns (some on) a (c.reportReleased now on n) := by
  unfold ConnCore.reportReleased
  split
  · exact h.call _ (.inr rfl)
  · exact h

theorem takeTurn (h : Concerns (some on) a c) (turn : Stream.Turn) (sendWindow : Window) :
    Concerns (some on) a (c.takeTurn now on turn sendWindow enc limit) := by
  have sent := (h.transmit now limit turn sendWindow).reportReleased now turn.chunk.length
  unfold ConnCore.takeTurn
  dsimp only
  split
  · exact sent.sendTrailers now enc limit _
  · exact sent

end Service

end Stream

end Concerns

/-! ## Moves -/

variable [Service σ μ] {P : Permit σ μ} {c c' : ConnCore σ μ}

/-- A move on account of a stream concerns that stream. -/
theorem StreamMove.concerns {on : StreamId} (h : StreamMove P c on c') :
    Concerns (some on) c c' := by
  have here := Concerns.refl (some on) c
  cases h with
  | @handled e => exact here.observe (.handled e)
  | @dropped now e stream code limit => exact (here.observe (.handled e)).writeRst now limit code
  | @withdrawn now w _ code => exact here.abandon now code
  | @overgranted now w _ n stream code limit => exact here.writeRst now limit code
  | @stray now w _ code limit => exact here.writeRst now limit code
  | @flushed now es e limit owed fits =>
    refine Concerns.writeRst now limit ?_ e.code
    refine here.trans ⟨fun _ _ => rfl, fun id hid => ?_, rfl, rfl, .inl rfl, [],
      (List.append_nil _).symm, nofun⟩
    have other : ¬ e.stream = id := fun h => hid (congrArg some h)
    simp [ConnCore.owed, owed, List.countP_append, other]
  | @crowded now _ limit cause refused fits =>
    refine Concerns.writeRst now limit ?_ .refusedStream
    obtain ⟨odd, unseen, htable⟩ := StreamTable.openPeer_refused refused
    rw [htable]
    exact here.trans ⟨fun _ _ => rfl, fun _ _ => rfl, rfl, rfl, .inr ⟨on, rfl, odd, unseen⟩, [],
      (List.append_nil _).symm, nofun⟩
  | @turnedAway now _ endStream headers limit => exact here.writeRst now limit .refusedStream
  | @malformed now _ endStream headers contentLength code limit =>
    exact ((here.openRequest now limit endStream).declare contentLength).writeRst now limit code
  | @dispatched now _ headers head endStream contentLength limit =>
    exact ((here.openRequest now limit endStream).declare contentLength).call _ (.inr rfl)
  | @answered now _ status enc limit =>
    exact (here.openRequest now limit true).respond now enc limit _ _
  | @mistrailed now _ headers endStream stream code limit => exact here.writeRst now limit code
  | @trailered now _ headers stream limit => exact (here.call _ (.inr rfl)).settle now limit _
  | @delivered now w _ data endStream stream window recvWindow limit =>
    exact (here.receive w _ _ _).deliver now limit data endStream
  | @mismatched now w _ data stream window recvWindow code limit =>
    exact (here.receive w _ _ _).writeRst now limit code
  | @overspent now w _ data endStream stream window code limit =>
    exact (here.receive w _ _ _).writeRst now limit code
  | @late now w _ data endStream window limit =>
    refine Concerns.writeRst now limit (Concerns.releaseConn ?_ _ _) .streamClosed
    exact (here.observe (.heard w)).table rfl rfl rfl rfl rfl fun _ _ => rfl
  | @credited _ n stream limit =>
    exact (here.observe (.handled (.bodyAccepted on n))).credit stream n limit
  | @responded now _ response endStream stream enc limit =>
    exact (here.observe (.handled (.head on response endStream))).respond now enc limit _ _
  | @refused now e stream status enc limit =>
    exact (here.observe (.handled e)).respond now enc limit _ _
  | @oversized now _ size max stream endStream enc limit => exact here.respond now enc limit _ _
  | @pushed _ data endStream =>
    exact (here.observe (.handled (.data on data endStream))).modifyStream _
  | @trailersDue now _ fields stream enc limit =>
    exact (here.observe (.handled (.trailers on fields))).sendTrailers now enc limit _
  | @turned now _ stream budget sendWindow enc limit => exact here.takeTurn now enc limit _ sendWindow

/-- The scheduler's own notes: only the table changed, and no stream in what matters. -/
structure Notes (c c' : ConnCore σ μ) : Prop where
  alike : c.streams.Alike c'.streams
  log : c'.log = c.log
  owed : c'.pendingReset = c.pendingReset
  draining : c'.draining = c.draining

/-- A GOAWAY of a drain, and nothing else: the first names the highest id there is, the last one
    the highest id of the peer, to which the drain commits. -/
structure Announces (last : StreamId) (c c' : ConnCore σ μ) : Prop where
  streams : c'.streams = c.streams
  owed : c'.pendingReset = c.pendingReset
  uncommitted : c.drainCommitted = false
  names : last = .new maxLocalStreamId ∨ last = c.streams.highestPeerId ∧ c'.drainCommitted
  log : ∃ limit, c'.log = c.log ++ [.queued (.goAway last .noError []) [] limit]

omit [Service σ μ] in
theorem Announces.untouched {last : StreamId} (h : Announces last c c') (id : StreamId) :
    Untouched id c c' := by
  obtain ⟨limit, hlog⟩ := h.log
  refine ⟨by rw [h.streams], by unfold ConnCore.owed; rw [h.owed], _, hlog, ?_⟩
  simpa using .queued (.inr rfl)

/-- What a move is about: the scheduler's own notes, a drain, one stream or none. -/
theorem Move.kinds (h : Move P c c') :
    Notes c c' ∨ (∃ last, Announces last c c') ∨ Concerns none c c' ∨
      ∃ on, StreamMove P c on c' := by
  have here := Concerns.refl none c
  cases h with
  | note neutral => exact .inr (.inr (.inl (here.observe (neutral.about none))))
  | alike alike => exact .inl ⟨alike, rfl, rfl, rfl⟩
  | events => exact .inr (.inr (.inl (here.table rfl rfl rfl rfl rfl fun _ _ => rfl)))
  | intercepted => exact .inr (.inr (.inl (here.call _ (.inl rfl))))
  | @draining drain limit quiet =>
    refine .inr (.inl ⟨_, rfl, rfl, ?_, .inl rfl, limit, rfl⟩)
    unfold ConnCore.drainCommitted
    rw [quiet]
    rfl
  | @committed drain limit begun uncommitted =>
    refine .inr (.inl ⟨_, rfl, rfl, ?_, .inr ⟨rfl, rfl⟩, limit, rfl⟩)
    unfold ConnCore.drainCommitted
    rw [begun]
    show drain.committed.isSome = false
    rw [uncommitted]
    rfl
  | reclaimed => exact .inr (.inr (.inl (here.reclaim _)))
  | on move => exact .inr (.inr (.inr ⟨_, move⟩))

/-- An invariant of each stream: kept where nothing concerns the stream, by the scheduler's notes,
    and by the moves on account of the stream. -/
theorem Move.each {I : StreamId → ConnCore σ μ → Prop} (h : Move P c c')
    (untouched : ∀ id, Untouched id c c' → I id c → I id c')
    (notes : Notes c c' → ∀ id, I id c → I id c')
    (own : ∀ id, StreamMove P c id c' → I id c → I id c') {id : StreamId} (hi : I id c) : I id c' := by
  obtain noted | ⟨last, announced⟩ | quiet | ⟨on, move⟩ := h.kinds
  · exact notes noted id hi
  · exact untouched id (announced.untouched id) hi
  · exact untouched id (quiet.untouched nofun) hi
  · by_cases hid : on = id
    · exact own id (hid ▸ move) hi
    · exact untouched id (move.concerns.untouched fun h => hid (Option.some.inj h)) hi

end H2Proxy
