import H2Proxy.Conn.Legal

/-
  The calls a responder gets about one request.

  `asking` accepts one dispatch, then the parts of the request until the one that ends it, with
  reports of what was written in between, then one finish or cancel and nothing more. `Asked`
  ties it to the stream's place in the table and to the resets that are owed. Every move keeps
  it, as long as no frame or turn is one after which the engine carries on with a stream it has
  just retired (`mannered`); then every run makes its calls in order (`calls_disciplined`).
-/

namespace H2Proxy

/-- How far the calls about a stream have come. -/
inductive Asking
  | untold
  /-- There were calls, and no dispatch came before them. -/
  | unasked
  /-- The responder was asked; `ended` once the request is complete. -/
  | asked (ended : Bool)
  | over
deriving DecidableEq

/-- What one more call comes to, where it is in turn. Calls about a stream that was never
    dispatched are not judged, but a dispatch after them is. -/
def Asking.next : Asking → Call → Option Asking
  | .untold, .dispatch _ _ endStream => some (.asked endStream)
  | .unasked, .dispatch .. => none
  | .untold, _ | .unasked, _ => some .unasked
  | .asked false, .body _ _ endStream => some (.asked endStream)
  | .asked false, .trailers .. => some (.asked true)
  | .asked ended, .released .. => some (.asked ended)
  | .asked _, .finish _ | .asked _, .cancel .. => some .over
  | _, _ => none

theorem Asking.next_cancel (ended : Bool) (id : StreamId) (code : ErrorCode) :
    (asked ended).next (.cancel id code) = some .over := by
  cases ended <;> rfl

theorem Asking.next_released (ended : Bool) (id : StreamId) (n : Nat) :
    (asked ended).next (.released id n) = some (.asked ended) := by
  cases ended <;> rfl

def asking : Monitor Call Asking := ⟨.untold, Asking.next⟩

/-- A request that was asked and is not over is in the table, or a reset of it is owed; one that
    is over has left the table. -/
def Asking.fits : Asking → Option Stream → Nat → Bool
  | .asked _, o, owed => o.isSome || owed > 0
  | .over, o, _ => o.isNone
  | .untold, _, _ | .unasked, _, _ => true

section Discipline

variable {σ μ : Type}

/-- The calls about stream `id` were in order, and end where the stream has left the table. -/
def ConnCore.Disciplined (id : StreamId) (c : ConnCore σ μ) : Prop :=
  (asking.watch (ConnObs.call? id) c.log).any (·.fits (c.streams.get? id) (c.owed id))

instance (id : StreamId) (c : ConnCore σ μ) : Decidable (c.Disciplined id) :=
  inferInstanceAs (Decidable (_ = true))

/-! ## Good manners -/

def ConnCore.dispatched (id : StreamId) (c : ConnCore σ μ) : Bool :=
  c.log.any fun o => (o.call? id).any fun
    | .dispatch .. => true
    | _ => false

/-- DATA that is handed to the responder: within its window, and of the length declared. -/
def Stream.takes (st : Stream) (data : Bytes) (endStream : Bool) : Bool :=
  (data ≠ [] || endStream) && (st.recvWindow.record data.length).isOk &&
    (!endStream || { st with dataReceived := satAdd64 st.dataReceived data.length }.contentLengthMatches)

/-- DATA comes on a stream the client has not ended, and does not close it; nothing that is
    answered with a reset comes on a request that has left the table. -/
def ConnCore.mannerly (c : ConnCore σ μ) (w : WireFrame) : Bool :=
  match w.decode with
  | .ok (.frame (.data id data endStream)) =>
    match c.streams.get? id with
    | some st => !(c.connRecvWindow.record data.length).isOk || !st.takes data endStream ||
        st.state = .open_ || st.state = .halfClosedLocal && !endStream
    | none => !(c.connRecvWindow.record data.length).isOk || !c.dispatched id
  | .ok (.frame (.windowUpdate id n)) =>
    n ≠ 0 || (c.streams.get? id).isSome || !c.dispatched id
  | _ => true

/-- A turn neither closes its stream with octets still to report, nor goes on to the trailers of
    a stream it has just failed to send on. -/
def Stream.mannerly (st : Stream) (turn : Stream.Turn) : Bool :=
  turn.chunk = [] || !(turn.endStream && st.state = .halfClosedRemote ||
    st.state = .halfClosedLocal && turn.trailers.any fun fields => (validateTrailers fields).isOk)

/-- The frames, header blocks and turns after which no retired stream is acted on. -/
def mannered : Permit σ μ where
  frame c w := c.mannerly w
  block c id endStream r := ∀ headers, r = .ok headers → (c.streams.openPeer id).2 = .ok () →
    c.drainCommitted = false → servable headers endStream → ∀ o ∈ c.log, o.call? id = none
  turn c id turn := (c.streams.get? id).all (·.mannerly turn)

instance (c : ConnCore σ μ) (w : WireFrame) : Decidable ((mannered : Permit σ μ).frame c w) :=
  inferInstanceAs (Decidable (_ = true))

instance (c : ConnCore σ μ) (id : StreamId) (endStream : Bool) :
    (r : Except HpackError (List Header)) → Decidable ((mannered : Permit σ μ).block c id endStream r)
  | .error _ => .isTrue nofun
  | .ok headers => decidable_of_iff
      ((c.streams.openPeer id).2 = .ok () → c.drainCommitted = false → servable headers endStream →
        ∀ o ∈ c.log, o.call? id = none)
      ⟨fun h _ hr => (Except.ok.inj hr) ▸ h, fun h => h headers rfl⟩

instance : ∀ c e, Decidable ((mannered : Permit σ μ).event c e) := fun _ _ => .isTrue trivial

instance (c : ConnCore σ μ) (id : StreamId) (turn : Stream.Turn) :
    Decidable ((mannered : Permit σ μ).turn c id turn) :=
  inferInstanceAs (Decidable (_ = true))

/-! ## Where a request stands -/

/-- What was called about `id`, what is live of it, and how many resets of it are owed. -/
structure ConnCore.Asks (c : ConnCore σ μ) (id : StreamId) (a : Asking) (o : Option Stream)
    (n : Nat) : Prop where
  called : asking.watch (ConnObs.call? id) c.log = some a
  live : c.streams.get? id = o
  owed : c.owed id = n

/-- The calls that go with what is live and owed of a stream. -/
inductive Asked : Asking → Option Stream → Nat → Prop
  | untold : Asked .untold none 0
  | unasked : Asked .unasked none 0
  | open_ {st : Stream} (state : st.state = .open_ ∨ st.state = .halfClosedLocal) :
    Asked (.asked false) (some st) 0
  | ended {st : Stream} (state : st.state = .halfClosedRemote) : Asked (.asked true) (some st) 0
  | owed (ended : Bool) : Asked (.asked ended) none 1
  | over : Asked .over none 0

theorem Asked.fits {a : Asking} {o : Option Stream} {n : Nat} (h : Asked a o n) : a.fits o n := by
  cases h <;> rfl

def ConnCore.Placed (c : ConnCore σ μ) (id : StreamId) : Prop :=
  ∃ a o n, c.Asks id a o n ∧ Asked a o n

/-- Every stream is in its place, and an id that was dispatched has been seen. -/
def ConnCore.InTurn (c : ConnCore σ μ) (id : StreamId) : Prop :=
  ∃ a o n, c.Asks id a o n ∧ Asked a o n ∧
    (id ≤ c.streams.highestPeerId ∨ a = .untold ∨ a = .unasked)

namespace ConnCore.Asks

variable {c c' : ConnCore σ μ} {id : StreamId} {a a' : Asking} {o : Option Stream} {n : Nat}
  {st : Stream}

theorem disciplined (h : c.Asks id a o n) (fits : a.fits o n) : c.Disciplined id := by
  unfold ConnCore.Disciplined
  rw [h.called, h.live, h.owed]
  exact fits

theorem untouched (h : c.Asks id a o n) (same : Untouched id c c') : c'.Asks id a o n := by
  obtain ⟨added, hlog, apart⟩ := same.log
  refine ⟨?_, same.live.trans h.live, same.owed.trans h.owed⟩
  rw [hlog, Monitor.watch_silent fun x hx => (apart x hx).call]
  exact h.called

theorem table (h : c.Asks id a o n) {o' : Option Stream} (hlog : c'.log = c.log)
    (live : c'.streams.get? id = o') (owed : c'.pendingReset = c.pendingReset) :
    c'.Asks id a o' n := by
  refine ⟨hlog ▸ h.called, live, ?_⟩
  unfold ConnCore.owed
  rw [owed]
  exact h.owed

theorem observe (h : c.Asks id a o n) {x : ConnObs μ} (quiet : x.call? id = none) :
    (c.observe x).Asks id a o n := by
  refine ⟨?_, h.live, h.owed⟩
  exact (Monitor.watch_silent (by simpa using quiet)).trans h.called

theorem modifyStream (h : c.Asks id a o n) (f : Stream → Stream) :
    (c.modifyStream id f).Asks id a (o.map f) n := by
  refine h.table rfl ?_ rfl
  rw [← h.live]
  exact (StreamTable.get?_modify ..).trans (if_pos rfl)

theorem reclaim (h : c.Asks id a o n) (limit : Nat) : (c.reclaim limit).Asks id a o n :=
  h.untouched (((Concerns.refl none c).reclaim limit).untouched nofun)

/-- A call about the stream, in its turn. -/
theorem call (h : c.Asks id a o n) {x : Call} (r : σ × List (Effect μ)) (about : x.id? = some id)
    (next : a.next x = some a') : (c.call x r).Asks id a' o n := by
  have spelled : (ConnObs.called x : ConnObs μ).call? id = some x := if_pos about
  have asked : asking.watch (ConnObs.call? id) (c.log ++ [.called x]) = some a' :=
    (Monitor.watch_concat h.called spelled).trans next
  refine ⟨?_, h.live, h.owed⟩
  show asking.watch _ (c.log ++ .called x :: _) = _
  rw [List.append_cons, Monitor.watch_silent]
  · exact asked
  · intro x hx
    obtain ⟨y, -, hy⟩ := List.mem_filterMap.mp hx
    cases y with
    | emit event => cases hy
    | send message => cases hy; rfl

/-- Where no dispatch was made, the stream was not asked for. -/
theorem not_dispatched (h : c.Asks id a o n) (undispatched : c.dispatched id = false) :
    a = .untold ∨ a = .unasked := by
  refine Monitor.watch_keeps (M := asking) (P := fun a => a = .untold ∨ a = .unasked)
    (Q := fun call => ∀ id head es, call ≠ .dispatch id head es) (.inl rfl) ?_ ?_ h.called
  · rintro s call s' (rfl | rfl) other next
    · cases call with
      | dispatch id head es => exact absurd rfl (other id head es)
      | _ => exact .inr (Option.some.inj next).symm
    · cases call with
      | dispatch id head es => cases next
      | _ => exact .inr (Option.some.inj next).symm
  · rintro x hx call hcall id' head es rfl
    have made : c.dispatched id := List.any_eq_true.mpr ⟨x, hx, by rw [hcall]; rfl⟩
    rw [undispatched] at made
    cases made

section Service

variable [Service σ μ] (now : Instant) (limit : Nat)

theorem abandon (h : c.Asks id a o n) (code : ErrorCode)
    (next : a.next (.cancel id code) = some a') : (c.abandon now id code).Asks id a' none n := by
  have retired : ({ c with streams := c.streams.retire id } : ConnCore σ μ).Asks id a none n :=
    h.table rfl ((StreamTable.get?_retire ..).trans (if_pos rfl)) rfl
  exact retired.call _ rfl next

theorem writeRst (h : c.Asks id a o n) (code : ErrorCode)
    (next : a.next (.cancel id code) = some a') :
    (c.writeRst now id code limit).Asks id a' none n :=
  ((h.abandon now code next).reclaim limit).observe rfl

/-- A transition after which the stream goes on. -/
theorem settle_stays (h : c.Asks id a (some st) n) {e : StreamEvent} {s : StreamState}
    (goes : st.state.transition e = .ok s) (going : s.isClosed = false) :
    (c.settle now id e limit).Asks id a (some { st with state := s }) n := by
  unfold ConnCore.settle StreamTable.apply
  rw [h.live]
  dsimp only
  rw [goes]
  dsimp only
  rw [going]
  refine h.table rfl ?_ rfl
  refine (StreamTable.get?_modify ..).trans ?_
  rw [if_pos rfl, h.live]
  rfl

/-- A transition that closes the stream finishes the request. -/
theorem settle_closes (h : c.Asks id a (some st) n) {event : StreamEvent}
    (goes : st.state.transition event = .ok .closed) (next : a.next (.finish id) = some a') :
    (c.settle now id event limit).Asks id a' none n := by
  unfold ConnCore.settle StreamTable.apply
  rw [h.live]
  dsimp only
  rw [goes]
  dsimp only
  refine reclaim ?_ limit
  refine call ?_ _ rfl next
  exact h.table rfl ((StreamTable.get?_retire ..).trans (if_pos rfl)) rfl

/-- An illegal transition retires the stream, and a reset of it is owed. -/
theorem settle_fails (h : c.Asks id a (some st) n) {event : StreamEvent}
    (fails : st.state.transition event = .error .streamClosed) :
    (c.settle now id event limit).Asks id a none (n + 1) := by
  unfold ConnCore.settle StreamTable.apply
  rw [h.live]
  dsimp only
  rw [fails]
  refine ⟨h.called, (StreamTable.get?_retire ..).trans (if_pos rfl), ?_⟩
  have owed := h.owed
  unfold ConnCore.owed at *
  simp [List.countP_append, owed]

end Service

end ConnCore.Asks

/-! ## Own moves -/

section Effects

variable [Service σ μ] {c c' : ConnCore σ μ} {id : StreamId} {a : Asking} {o : Option Stream} {n : Nat}
  {st : Stream} {ended : Bool} (now : Instant) (limit : Nat)

/-- Sending on a stream: it stays in its place, or is over, or a reset of it is owed. -/
theorem ConnCore.Asks.settle_send (h : c.Asks id (.asked ended) (some st) 0)
    (asked : Asked (.asked ended) (some st) 0) {e : StreamEvent} {endStream : Bool}
    (sends : e = .sendHeaders endStream ∨ e = .sendData endStream) :
    (∃ st', (c.settle now id e limit).Asks id (.asked ended) (some st') 0 ∧
      Asked (.asked ended) (some st') 0) ∨
    ((c.settle now id e limit).Asks id .over none 0 ∧ endStream ∧
      st.state = .halfClosedRemote) ∨
    ((c.settle now id e limit).Asks id (.asked ended) none 1 ∧ st.state = .halfClosedLocal) := by
  cases asked with
  | open_ state =>
    obtain state | state := state
    · left
      obtain rfl | rfl := sends <;> cases endStream
      · exact ⟨_, h.settle_stays now limit (by rw [state]; rfl) rfl, .open_ (.inl rfl)⟩
      · exact ⟨_, h.settle_stays now limit (by rw [state]; rfl) rfl, .open_ (.inr rfl)⟩
      · exact ⟨_, h.settle_stays now limit (by rw [state]; rfl) rfl, .open_ (.inl rfl)⟩
      · exact ⟨_, h.settle_stays now limit (by rw [state]; rfl) rfl, .open_ (.inr rfl)⟩
    · right; right
      refine ⟨h.settle_fails now limit ?_, state⟩
      obtain rfl | rfl := sends <;> rw [state] <;> rfl
  | ended state =>
    cases endStream with
    | false =>
      left
      refine ⟨_, h.settle_stays now limit (s := .halfClosedRemote) ?_ rfl, .ended rfl⟩
      obtain rfl | rfl := sends <;> rw [state] <;> rfl
    | true =>
      right; left
      refine ⟨h.settle_closes now limit ?_ rfl, rfl, state⟩
      obtain rfl | rfl := sends <;> rw [state] <;> rfl

omit [Service σ μ] in
theorem ConnCore.Asks.placed (h : c.Asks id a o n) (asked : Asked a o n) : c.Placed id :=
  ⟨a, o, n, h, asked⟩

/-- A request that is reset is over. -/
theorem ConnCore.Asks.reset (h : c.Asks id (.asked ended) o 0) (code : ErrorCode) :
    (c.writeRst now id code limit).Placed id :=
  (h.writeRst now limit code (Asking.next_cancel ..)).placed .over

theorem ConnCore.Asks.sent (h : c.Asks id (.asked ended) (some st) 0)
    (asked : Asked (.asked ended) (some st) 0) {event : StreamEvent} {endStream : Bool}
    (sends : event = .sendHeaders endStream ∨ event = .sendData endStream) :
    (c.settle now id event limit).Placed id := by
  obtain ⟨st', h', asked'⟩ | ⟨h', -⟩ | ⟨h', -⟩ := h.settle_send now limit asked sends
  · exact h'.placed asked'
  · exact h'.placed .over
  · exact h'.placed (.owed ended)

/-- What keeps a stream's state keeps its place. -/
theorem Asked.same {st' : Stream} (h : Asked a (some st) n) (state : st'.state = st.state) :
    Asked a (some st') n := by
  cases h with
  | open_ hs => exact .open_ (state ▸ hs)
  | ended hs => exact .ended (state.trans hs)

omit [Service σ μ] in
theorem ConnCore.Asks.headersOut (h : c.Asks id a o n) (fields : List Header) (endStream : Bool)
    (enc : HpackEncoder) : (c.headersOut id fields endStream enc limit).Asks id a o n :=
  (h.observe rfl).observe rfl

theorem ConnCore.Asks.respond (h : c.Asks id (.asked ended) (some st) 0)
    (asked : Asked (.asked ended) (some st) 0) (response : Response) (endStream : Bool)
    (enc : HpackEncoder) : (c.respond now id response endStream enc limit).Placed id := by
  have out := h.headersOut limit response.toHeaders endStream enc
  exact (out.modifyStream ({ · with responseStarted := true })).sent now limit (asked.same rfl)
    (.inl rfl)

theorem ConnCore.Asks.sendTrailers (h : c.Asks id (.asked ended) (some st) 0)
    (asked : Asked (.asked ended) (some st) 0) (fields : List Header) (enc : HpackEncoder) :
    (c.sendTrailers now id fields enc limit).Placed id := by
  unfold ConnCore.sendTrailers
  split
  · exact (h.modifyStream _).placed (asked.same rfl)
  · split
    · exact (h.modifyStream _).placed (asked.same rfl)
    · exact (h.headersOut limit fields true enc).sent now limit asked (.inl rfl)

omit [Service σ μ] in
theorem ConnCore.Asks.receive (h : c.Asks id a (some st) n) (w : WireFrame) (len : Nat)
    (window : RecvWindow) (recvWindow : Option RecvWindow) :
    (c.receive w id len window recvWindow).Asks id a
      (some { st with
        dataReceived := satAdd64 st.dataReceived len
        pendingConnRelease := satAdd32 st.pendingConnRelease len
        recvWindow := recvWindow.getD st.recvWindow }) n := by
  have heard : ({ c.observe (.heard w) with connRecvWindow := window } : ConnCore σ μ).Asks
      id a (some st) n := (h.observe (x := .heard w) rfl).table rfl h.live rfl
  exact heard.modifyStream _

omit [Service σ μ] in
theorem ConnCore.Asks.credit (h : c.Asks id a (some st) n) (stream : Stream) (k : Nat) :
    (c.credit id stream k limit).Asks id a
      (some { st with
        recvWindow := (stream.recvWindow.release k).1
        pendingConnRelease := st.pendingConnRelease - k }) n := by
  have modified := h.modifyStream fun s =>
    { s with
      recvWindow := (stream.recvWindow.release k).1
      pendingConnRelease := s.pendingConnRelease - k }
  unfold ConnCore.credit
  refine untouched ?_ (((Concerns.refl none _).releaseConn k limit).untouched nofun)
  refine ⟨?_, modified.live, modified.owed⟩
  refine (Monitor.watch_silent fun o ho => ?_).trans modified.called
  have about : o.About none := ConnObs.About.windowUpdates (stream.recvWindow.release k).2 o ho
  exact (about.others id nofun).call

/-- DATA that is handed on comes on a stream that is open to it, and ends the request with the
    stream's own half. -/
theorem ConnCore.Asks.deliver (h : c.Asks id (.asked ended) (some st) 0)
    (asked : Asked (.asked ended) (some st) 0) (data : Bytes) (endStream : Bool)
    (mannerly : data ≠ [] ∨ endStream →
      st.state = .open_ ∨ st.state = .halfClosedLocal ∧ endStream = false) :
    (c.deliver now id data endStream limit).Placed id := by
  unfold ConnCore.deliver
  dsimp only
  by_cases given : (data ≠ [] || endStream) = true
  · rw [if_pos given]
    have allowed := mannerly (by simpa using given)
    cases asked with
    | open_ =>
      obtain state | ⟨state, rfl⟩ := allowed
      · cases endStream with
        | false =>
          have went := h.settle_stays now limit (e := .recvData false) (by rw [state]; rfl) rfl
          exact (went.call _ rfl rfl).placed (.open_ (.inl rfl))
        | true =>
          have went := h.settle_stays now limit (e := .recvData true) (by rw [state]; rfl) rfl
          exact (went.call _ rfl rfl).placed (.ended rfl)
      · have went := h.settle_stays now limit (e := .recvData false) (by rw [state]; rfl) rfl
        exact (went.call _ rfl rfl).placed (.open_ (.inr rfl))
    | ended state =>
      rw [state] at allowed
      obtain h | ⟨h, -⟩ := allowed <;> cases h
  · rw [if_neg given]
    have nothing : endStream = false := by
      cases endStream with
      | false => rfl
      | true => exact absurd (by simp) given
    subst nothing
    cases asked with
    | open_ state =>
      obtain state | state := state
      · exact (h.settle_stays now limit (by rw [state]; rfl) rfl).placed (.open_ (.inl rfl))
      · exact (h.settle_stays now limit (by rw [state]; rfl) rfl).placed (.open_ (.inr rfl))
    | ended state =>
      exact (h.settle_fails now limit (by rw [state]; rfl)).placed (.owed true)

/-- The DATA of a turn leaves the stream in its place, closes it, or fails on a stream that is
    half closed. -/
theorem ConnCore.Asks.transmit (h : c.Asks id (.asked ended) (some st) 0)
    (asked : Asked (.asked ended) (some st) 0) {t : Stream.Turn} (sendWindow : Window)
    (rest : t.rest.state = st.state) :
    (∃ st', (c.transmit now id t sendWindow limit).Asks id (.asked ended) (some st') 0 ∧
      Asked (.asked ended) (some st') 0) ∨
    ((c.transmit now id t sendWindow limit).Asks id .over none 0 ∧ t.endStream ∧
      st.state = .halfClosedRemote) ∨
    ((c.transmit now id t sendWindow limit).Asks id (.asked ended) none 1 ∧
      st.state = .halfClosedLocal ∧ (t.chunk ≠ [] ∨ t.endStream)) := by
  have taken : (c.modifyStream id fun _ => { t.rest with sendWindow }).Asks id (.asked ended)
      (some { t.rest with sendWindow }) 0 := h.modifyStream _
  have same : Asked (.asked ended) (some { t.rest with sendWindow }) 0 := asked.same rest
  unfold ConnCore.transmit
  dsimp only
  split
  · rename_i sends
    have out := taken.observe (x := .queued (.data id t.chunk t.endStream) [] limit) rfl
    obtain kept | ⟨done, last, state⟩ | ⟨owed, state⟩ :=
      out.settle_send now limit same (e := .sendData t.endStream) (.inr rfl)
    · exact .inl kept
    · exact .inr (.inl ⟨done, last, rest ▸ state⟩)
    · refine .inr (.inr ⟨owed, rest ▸ state, ?_⟩)
      obtain long | last := Bool.or_eq_true _ _ ▸ sends
      · refine .inl fun nothing => ?_
        rw [nothing] at long
        cases long
      · exact .inr last
  · exact .inl ⟨_, taken, same⟩

/-- The octets of a turn are reported before their stream is let go of. -/
theorem ConnCore.Asks.transmitted (h : c.Asks id (.asked ended) (some st) 0)
    (asked : Asked (.asked ended) (some st) 0) {budget : Nat} (sendWindow : Window)
    (mannerly : st.mannerly (st.turn budget)) :
    (∃ st', ((c.transmit now id (st.turn budget) sendWindow limit).reportReleased now id
        (st.turn budget).chunk.length).Asks id (.asked ended) (some st') 0 ∧
      Asked (.asked ended) (some st') 0) ∨
    ((c.transmit now id (st.turn budget) sendWindow limit).reportReleased now id
        (st.turn budget).chunk.length).Asks id .over none 0 ∧ (st.turn budget).endStream ∨
    ((c.transmit now id (st.turn budget) sendWindow limit).reportReleased now id
        (st.turn budget).chunk.length).Asks id (.asked ended) none 1 ∧
      st.state = .halfClosedLocal ∧ ((st.turn budget).chunk ≠ [] ∨ (st.turn budget).endStream) := by
  have sent := h.transmit now limit asked (t := st.turn budget) sendWindow rfl
  unfold ConnCore.reportReleased
  by_cases long : (st.turn budget).chunk.length > 0
  · rw [if_pos long]
    obtain ⟨st', kept, asked'⟩ | ⟨-, last, state⟩ | ⟨owed, state, sends⟩ := sent
    · exact .inl ⟨st', kept.call _ rfl (Asking.next_released ..), asked'⟩
    · unfold Stream.mannerly at mannerly
      rw [last, state] at mannerly
      have some_ : (st.turn budget).chunk ≠ [] := List.ne_nil_of_length_pos long
      simp [some_] at mannerly
    · exact .inr (.inr ⟨owed.call _ rfl (Asking.next_released ..), state, sends⟩)
  · rw [if_neg long]
    obtain kept | ⟨done, last, -⟩ | owed := sent
    · exact .inl kept
    · exact .inr (.inl ⟨done, last⟩)
    · exact .inr (.inr owed)

theorem ConnCore.Asks.takeTurn (h : c.Asks id (.asked ended) (some st) 0)
    (asked : Asked (.asked ended) (some st) 0) {budget : Nat} (sendWindow : Window)
    (enc : HpackEncoder) (mannerly : st.mannerly (st.turn budget)) :
    (c.takeTurn now id (st.turn budget) sendWindow enc limit).Placed id := by
  have sent := h.transmitted now limit asked sendWindow mannerly
  unfold ConnCore.takeTurn
  dsimp only
  cases trailers : (st.turn budget).trailers with
  | none =>
    obtain ⟨st', kept, asked'⟩ | ⟨done, -⟩ | ⟨owed, -⟩ := sent
    · exact kept.placed asked'
    · exact done.placed .over
    · exact owed.placed (.owed ended)
  | some fields =>
    have unended := (st.turn_trailers budget trailers).2.2.1
    dsimp only
    obtain ⟨st', kept, asked'⟩ | ⟨-, last⟩ | ⟨owed, state, sends⟩ := sent
    · exact kept.sendTrailers now limit asked' fields enc
    · rw [unended] at last
      cases last
    · have some_ : (st.turn budget).chunk ≠ [] := sends.resolve_right (by rw [unended]; nofun)
      have invalid : (validateTrailers fields).isOk = false := by
        unfold Stream.mannerly at mannerly
        simpa [some_, state, trailers, unended] using mannerly
      unfold ConnCore.sendTrailers
      cases valid : validateTrailers fields with
      | ok => rw [valid] at invalid; cases invalid
      | error code => exact (owed.modifyStream _).placed (.owed ended)

end Effects

/-! ## Moves -/

variable {c c' : ConnCore σ μ} {id : StreamId}

namespace ConnCore.InTurn

theorem untouched (h : c.InTurn id) (same : Untouched id c c')
    (top : c.streams.highestPeerId ≤ c'.streams.highestPeerId) : c'.InTurn id := by
  obtain ⟨a, o, n, asks, asked, place⟩ := h
  exact ⟨a, o, n, asks.untouched same, asked, place.imp_left fun seen => Nat.le_trans seen top⟩

/-- A stream that was seen is in its place again. -/
theorem placed (seen : id ≤ c.streams.highestPeerId)
    (top : c.streams.highestPeerId ≤ c'.streams.highestPeerId) (h : c'.Placed id) : c'.InTurn id := by
  obtain ⟨a, o, n, asks, asked⟩ := h
  exact ⟨a, o, n, asks, asked, .inl (Nat.le_trans seen top)⟩

/-- A live stream was asked for, and is in its place. -/
theorem live {st : Stream} (h : c.InTurn id) (live : c.streams.get? id = some st) :
    ∃ ended, c.Asks id (.asked ended) (some st) 0 ∧ Asked (.asked ended) (some st) 0 ∧
      id ≤ c.streams.highestPeerId := by
  obtain ⟨a, o, n, asks, asked, place⟩ := h
  obtain rfl := asks.live.symm.trans live
  cases asked with
  | open_ state => exact ⟨false, asks, .open_ state, place.resolve_right (by rintro (h | h) <;> cases h)⟩
  | ended state => exact ⟨true, asks, .ended state, place.resolve_right (by rintro (h | h) <;> cases h)⟩

theorem at_live {st : Stream} (h : c.InTurn id) (live : c.streams.get? id = some st)
    (top : c.streams.highestPeerId ≤ c'.streams.highestPeerId)
    (own : ∀ ended, c.Asks id (.asked ended) (some st) 0 → Asked (.asked ended) (some st) 0 →
      c'.Placed id) : c'.InTurn id := by
  obtain ⟨ended, asks, asked, seen⟩ := h.live live
  exact placed seen top (own ended asks asked)

/-- An id that was not seen was not asked for. -/
theorem unseen (h : c.InTurn id) (hid : ¬ id ≤ c.streams.highestPeerId) :
    ∃ a, c.Asks id a none 0 ∧ (a = .untold ∨ a = .unasked) := by
  obtain ⟨a, o, n, asks, asked, place⟩ := h
  obtain rfl | rfl := place.resolve_left hid <;> cases asked
  · exact ⟨_, asks, .inl rfl⟩
  · exact ⟨_, asks, .inr rfl⟩

end ConnCore.InTurn

/-- A call other than a dispatch leaves a stream that was not asked for unasked. -/
theorem Asking.next_unasked {a : Asking} (h : a = .untold ∨ a = .unasked) {call : Call}
    (other : ∀ id head es, call ≠ .dispatch id head es) : a.next call = some .unasked := by
  obtain rfl | rfl := h <;> cases call with
  | dispatch id head es => exact absurd rfl (other id head es)
  | _ => rfl

section Moves

variable [Service σ μ]

/-- A reset of a stream that was not asked for. -/
theorem ConnCore.Asks.refused {a : Asking} {o : Option Stream} (h : c.Asks id a o 0)
    (unasked : a = .untold ∨ a = .unasked) (now : Instant) (code : ErrorCode) (limit : Nat) :
    (c.writeRst now id code limit).InTurn id :=
  ⟨.unasked, none, 0, h.writeRst now limit code (Asking.next_unasked unasked nofun), .unasked,
    .inr (.inr rfl)⟩

/-- A stream is opened for a request. -/
theorem ConnCore.Asks.openRequest {a : Asking} (h : c.Asks id a none 0) (now : Instant)
    (endStream : Bool) (limit : Nat) (isOpen : (c.streams.openPeer id).2 = .ok ()) :
    ∃ st : Stream, st.state = (if endStream then .halfClosedRemote else .open_) ∧
      (c.openRequest now id endStream limit).Asks id a (some st) 0 := by
  obtain ⟨-, -, htable⟩ := StreamTable.openPeer_ok isOpen
  unfold ConnCore.openRequest
  have seated : ({ c with streams := (c.streams.openPeer id).1 } : ConnCore σ μ).Asks id a
      (some (.new c.streams.initialSendWindow c.streams.initialRecvWindow)) 0 := by
    refine h.table rfl ?_ rfl
    rw [htable]
    exact (StreamTable.get?_insertNew ..).trans (if_pos rfl)
  have opened := seated.observe (x := .opened id) rfl
  cases endStream with
  | false => exact ⟨_, rfl, opened.settle_stays now limit (e := .recvHeaders false) rfl rfl⟩
  | true => exact ⟨_, rfl, opened.settle_stays now limit (e := .recvHeaders true) rfl rfl⟩

omit [Service σ μ] in
theorem ConnCore.Asks.declare {a : Asking} {st : Stream} {n : Nat} (h : c.Asks id a (some st) n)
    (contentLength : Option Nat) :
    ∃ st' : Stream, st'.state = st.state ∧ (c.declare id contentLength).Asks id a (some st') n := by
  cases contentLength with
  | none => exact ⟨st, rfl, h⟩
  | some k =>
    have noted := h.modifyStream ({ · with contentLength := some k })
    exact ⟨{ st with contentLength := some k }, rfl, noted⟩

theorem StreamMove.inTurn (h : StreamMove (mannered : Permit σ μ) c id c') (hi : c.InTurn id) :
    c'.InTurn id := by
  have top := h.grows.top
  cases h with
  | @handled e permit idle =>
    obtain ⟨a, o, n, asks, asked, place⟩ := hi
    exact ⟨a, o, n, asks.observe rfl, asked, place⟩
  | @dropped now e stream code limit permit ending live fits =>
    exact hi.at_live live top fun ended asks asked =>
      (asks.observe (x := .handled e) rfl).reset now limit code
  | withdrawn now heard frame live =>
    exact hi.at_live live top fun ended asks asked => (asks.abandon now _ (Asking.next_cancel ..)).placed .over
  | @overgranted now w _ n stream code limit heard frame live bad fits =>
    exact hi.at_live live top fun ended asks asked => asks.reset now limit code
  | @stray now w _ code limit heard frame stream gone fits =>
    obtain ⟨c₀, rfl, permit⟩ := heard
    have gone₀ : c₀.streams.get? id = none := gone
    have undispatched : c₀.dispatched id = false := by
      have mannerly : c₀.mannerly w = true := permit
      unfold ConnCore.mannerly at mannerly
      simpa [frame, gone₀] using mannerly
    obtain ⟨a, o, n, asks, asked, place⟩ := hi
    have unasked := asks.not_dispatched (by
      unfold ConnCore.dispatched at *
      simpa [ConnCore.observe, ConnObs.call?] using undispatched)
    obtain rfl | rfl := unasked <;> cases asked
    · exact asks.refused (.inl rfl) now code limit
    · exact asks.refused (.inr rfl) now code limit
  | @flushed now es e limit owed fits =>
    obtain ⟨a, o, n, asks, asked, place⟩ := hi
    have count : c.owed e.stream = es.countP (·.stream = e.stream) + 1 := by
      unfold ConnCore.owed
      rw [owed]
      simp [List.countP_append]
    have left : ({ c with pendingReset := es } : ConnCore σ μ).Asks e.stream a o (n - 1) := by
      refine ⟨asks.called, asks.live, ?_⟩
      show es.countP _ = _
      rw [← asks.owed, count, Nat.add_sub_cancel]
    cases asked with
    | owed ended =>
      exact ⟨_, none, 0, left.writeRst now limit e.code (Asking.next_cancel ..), .over,
        .inl (Nat.le_trans (place.resolve_right (by rintro (h | h) <;> cases h)) top)⟩
    | _ =>
      have nothing := asks.owed
      rw [count] at nothing
      cases nothing
  | @crowded now _ limit cause refused fits =>
    obtain ⟨-, unseen, htable⟩ := StreamTable.openPeer_refused refused
    obtain ⟨a, asks, unasked⟩ := hi.unseen unseen
    have noted : ({ c with streams := (c.streams.openPeer id).1 } : ConnCore σ μ).Asks id a none 0 := by
      refine asks.table rfl ?_ rfl
      rw [htable]
      exact asks.live
    exact noted.refused unasked now .refusedStream limit
  | @turnedAway now _ endStream headers limit permit idle drained fits =>
    obtain ⟨-, unseen⟩ := StreamTable.lookup_idle idle
    have unseen : ¬ id ≤ c.streams.highestPeerId := fun seen =>
      of_decide_eq_false unseen (StreamId.le_max_iff.mpr (.inl seen))
    obtain ⟨a, asks, unasked⟩ := hi.unseen unseen
    exact asks.refused unasked now .refusedStream limit
  | @malformed now _ endStream headers contentLength code limit isOpen cause fits =>
    obtain ⟨-, unseen, -⟩ := StreamTable.openPeer_ok isOpen
    obtain ⟨a, asks, unasked⟩ := hi.unseen unseen
    obtain ⟨st, -, opened⟩ := asks.openRequest now endStream limit isOpen
    obtain ⟨st', -, declared⟩ := opened.declare contentLength
    exact declared.refused unasked now code limit
  | @dispatched now _ headers head endStream contentLength limit isOpen cause valid served fits =>
    obtain ⟨-, unseen, -⟩ := StreamTable.openPeer_ok isOpen
    obtain ⟨a, asks, -⟩ := hi.unseen unseen
    have untold : a = .untold := by
      have silent := cause.1 headers rfl isOpen cause.2 served
      exact Option.some.inj (asks.called.symm.trans (Monitor.watch_start silent))
    subst untold
    obtain ⟨st, state, opened⟩ := asks.openRequest now endStream limit isOpen
    obtain ⟨st', state', declared⟩ := opened.declare contentLength
    have seen : id ≤ ((c.openRequest now id endStream limit).declare id
        contentLength).streams.highestPeerId :=
      Nat.le_trans (ConnCore.openRequest_top now endStream limit isOpen)
        ((Says.refl _).declare id contentLength).top
    refine ⟨.asked endStream, some st', 0, declared.call _ rfl rfl, ?_, .inl seen⟩
    cases endStream with
    | false => exact .open_ (.inl (state'.trans state))
    | true => exact .ended (state'.trans state)
  | @answered now _ status enc limit isOpen cause fits =>
    obtain ⟨-, unseen, -⟩ := StreamTable.openPeer_ok isOpen
    obtain ⟨a, asks, unasked⟩ := hi.unseen unseen
    obtain ⟨st, state, opened⟩ := asks.openRequest now true limit isOpen
    have out := (opened.headersOut limit (Response.ofStatus status).toHeaders true enc).modifyStream
      ({ · with responseStarted := true })
    have closes : st.state.transition (.sendHeaders true) = .ok .closed := by
      rw [state]
      rfl
    exact ⟨.unasked, none, 0, out.settle_closes now limit closes
      (Asking.next_unasked unasked fun _ _ _ same => by cases same), .unasked, .inr (.inr rfl)⟩
  | @mistrailed now _ headers endStream stream code limit permit live bad fits =>
    exact hi.at_live live top fun ended asks asked => asks.reset now limit code
  | @trailered now _ headers stream limit permit live canSend fits =>
    refine hi.at_live live top fun ended asks asked => ?_
    cases asked with
    | open_ state =>
      have told := asks.call (x := .trailers id headers)
        (Service.trailers now id headers c.service) rfl rfl
      obtain state | state := state
      · exact (told.settle_stays now limit (by rw [state]; rfl) rfl).placed (.ended rfl)
      · exact (told.settle_closes now limit (by rw [state]; rfl) rfl).placed .over
    | ended state =>
      rw [state] at canSend
      cases canSend
  | @delivered now w _ data endStream stream window recvWindow limit permit frame live conn within
      whole fits =>
    refine hi.at_live live top fun ended asks asked => ?_
    refine (asks.receive w data.length window (some recvWindow)).deliver now limit (asked.same rfl)
      data endStream fun given => ?_
    have takes : stream.takes data endStream := by
      unfold Stream.takes
      rw [within]
      cases endStream with
      | false => simpa [Except.isOk, Except.toBool] using given
      | true => simpa [Except.isOk, Except.toBool] using whole
    have mannerly : c.mannerly w = true := permit
    unfold ConnCore.mannerly at mannerly
    rw [WireFrame.decode_of_data? frame] at mannerly
    simpa [live, conn, takes, Except.isOk, Except.toBool] using mannerly
  | @mismatched now w _ data stream window recvWindow code limit permit frame live =>
    exact hi.at_live live top fun ended asks asked =>
      (asks.receive w _ _ _).reset now limit code
  | @overspent now w _ data endStream stream window code limit permit frame live =>
    exact hi.at_live live top fun ended asks asked =>
      (asks.receive w _ _ _).reset now limit code
  | @late now w _ data endStream window limit permit frame gone conn fits =>
    obtain ⟨none_, -⟩ := StreamTable.lookup_closed gone
    have undispatched : c.dispatched id = false := by
      have mannerly : c.mannerly w = true := permit
      unfold ConnCore.mannerly at mannerly
      rw [WireFrame.decode_of_data? frame] at mannerly
      simpa [none_, conn, Except.isOk, Except.toBool] using mannerly
    obtain ⟨a, o, n, asks, asked, place⟩ := hi
    have counted : Concerns none c
        ({ c.observe (.heard w) with connRecvWindow := window }.releaseConn data.length limit) := by
      refine Concerns.releaseConn ?_ _ _
      exact ((Concerns.refl none c).observe (.heard w)).table rfl rfl rfl rfl rfl fun _ _ => rfl
    have asks' := asks.untouched (counted.untouched fun same => by cases same)
    obtain rfl | rfl := asks.not_dispatched undispatched <;> cases asked
    · exact asks'.refused (.inl rfl) now .streamClosed limit
    · exact asks'.refused (.inr rfl) now .streamClosed limit
  | @credited _ n stream limit permit live fits =>
    exact hi.at_live live top fun ended asks asked =>
      ((asks.observe rfl).credit limit stream n).placed (asked.same rfl)
  | @responded now _ response endStream stream enc limit permit live fits =>
    exact hi.at_live live top fun ended asks asked =>
      (asks.observe (x := .handled (.head id response endStream)) rfl).respond now limit asked response
        endStream enc
  | @refused now e stream status enc limit permit refusal live started fits =>
    exact hi.at_live live top fun ended asks asked =>
      (asks.observe (x := .handled e) rfl).respond now limit asked _ true enc
  | @oversized now _ size max stream endStream enc limit permit live fits =>
    exact hi.at_live live top fun ended asks asked => asks.respond now limit asked _ true enc
  | @pushed _ data endStream stream permit live =>
    exact hi.at_live live top fun ended asks asked =>
      ((asks.observe (x := .handled (.data id data endStream)) rfl).modifyStream _).placed
        (asked.same rfl)
  | @trailersDue now _ fields stream enc limit permit live fits =>
    exact hi.at_live live top fun ended asks asked =>
      (asks.observe (x := .handled (.trailers id fields)) rfl).sendTrailers now limit asked fields enc
  | @turned now _ stream budget sendWindow enc limit permit live fits chunk =>
    refine hi.at_live live top fun ended asks asked => asks.takeTurn now limit asked sendWindow enc ?_
    have mannerly : (c.streams.get? id).all (·.mannerly (stream.turn budget)) = true := permit
    simpa [live] using mannerly

omit [Service σ μ] in
theorem Notes.inTurn (h : Notes c c') (hi : c.InTurn id) : c'.InTurn id := by
  obtain ⟨a, o, n, asks, asked, place⟩ := hi
  have hrel := h.alike.live id
  rw [asks.live] at hrel
  have top := h.alike.highestPeerId
  generalize live : c'.streams.get? id = o' at hrel
  have asks' := asks.table h.log live h.owed
  cases hrel with
  | none => exact ⟨a, none, n, asks', asked, top ▸ place⟩
  | some same =>
    have nothing : n = 0 := by cases asked <;> rfl
    subst nothing
    exact ⟨a, _, 0, asks', asked.same same.state, top ▸ place⟩

theorem Move.inTurn (h : Move (mannered : Permit σ μ) c c') (hi : c.InTurn id) : c'.InTurn id :=
  h.each (I := fun id c => c.InTurn id) (fun _ same hi => hi.untouched same h.grows.top)
    (fun noted _ hi => noted.inTurn hi) (fun _ move hi => move.inTurn hi) hi

/-! ## Runs -/

omit [Service σ μ] in
theorem ConnCore.InTurn.disciplined (h : c.InTurn id) : c.Disciplined id := by
  obtain ⟨a, o, n, asks, asked, -⟩ := h
  exact asks.disciplined asked.fits

omit [Service σ μ] in
theorem ConnCore.Placed.disciplined (h : c.Placed id) : c.Disciplined id := by
  obtain ⟨a, o, n, asks, asked⟩ := h
  exact asks.disciplined asked.fits

omit [Service σ μ] in
theorem ConnCore.Disciplined.untouched (h : c.Disciplined id) (same : Untouched id c c') :
    c'.Disciplined id := by
  obtain ⟨added, hlog, apart⟩ := same.log
  unfold ConnCore.Disciplined at *
  rw [hlog, Monitor.watch_silent fun x hx => (apart x hx).call, same.live, same.owed]
  exact h

omit [Service σ μ] in
theorem ConnCore.Disciplined.observe (h : c.Disciplined id) {x : ConnObs μ}
    (quiet : x.call? id = none) : (c.observe x).Disciplined id := by
  unfold ConnCore.Disciplined
  rw [show (c.observe x).log = c.log ++ [x] from rfl, Monitor.watch_silent (by simpa using quiet)]
  exact h

theorem ConnCore.InTurn.opened {on : StreamId} (h : c.InTurn id) (now : Instant) (endStream : Bool)
    (limit : Nat) (isOpen : (c.streams.openPeer on).2 = .ok ()) :
    (c.openRequest now on endStream limit).Disciplined id := by
  by_cases hid : on = id
  · subst hid
    obtain ⟨-, unseen, -⟩ := StreamTable.openPeer_ok isOpen
    obtain ⟨a, asks, unasked⟩ := h.unseen unseen
    obtain ⟨st, -, opened⟩ := asks.openRequest now endStream limit isOpen
    refine opened.disciplined ?_
    obtain rfl | rfl := unasked <;> rfl
  · exact h.disciplined.untouched (((Concerns.refl _ c).openRequest now limit endStream).untouched
      fun h => hid (Option.some.inj h))

theorem Fault.disciplined (h : Fault (mannered : Permit σ μ) c c') (hi : c.InTurn id) :
    c'.Disciplined id := by
  cases h with
  | none => exact hi.disciplined
  | heard w => exact hi.disciplined.observe rfl
  | @idleData w _ data endStream window =>
    have quiet : Concerns Option.none c { c.observe (.heard w) with connRecvWindow := window } :=
      ((Concerns.refl _ c).observe (.heard w)).table rfl rfl rfl rfl rfl fun _ _ => rfl
    exact hi.disciplined.untouched (quiet.untouched nofun)
  | @opened now on endStream limit isOpen cause fits => exact hi.opened now endStream limit isOpen
  | @unanswerable now on enc fields limit isOpen cause fits =>
    exact (hi.opened now true limit isOpen).observe rfl
  | @received w on data endStream stream window recvWindow frame live conn within =>
    by_cases hid : on = id
    · subst hid
      obtain ⟨ended, asks, asked, -⟩ := hi.live live
      exact ((asks.receive w _ _ _).placed (asked.same rfl)).disciplined
    · exact hi.disciplined.untouched (((Concerns.refl _ c).receive w _ _ _).untouched
        fun h => hid (Option.some.inj h))
  | @transmitted now on stream budget sendWindow limit permit live fits chunk =>
    by_cases hid : on = id
    · subst hid
      obtain ⟨ended, asks, asked, -⟩ := hi.live live
      obtain ⟨st', kept, asked'⟩ | ⟨done, -⟩ | ⟨owed, -⟩ :=
        asks.transmit now limit asked (t := stream.turn budget) sendWindow rfl
      · exact (kept.placed asked').disciplined
      · exact (done.placed .over).disciplined
      · exact (owed.placed (.owed ended)).disciplined
    · exact hi.disciplined.untouched (((Concerns.refl _ c).transmit now limit _ sendWindow).untouched
        fun h => hid (Option.some.inj h))
  | unencodableEvent e enc fields limit =>
    exact (hi.disciplined.observe (x := .handled e) rfl).observe rfl
  | @unencodable now on stream budget sendWindow enc fields limit permit live fits chunk =>
    refine ConnCore.Disciplined.observe ?_ rfl
    by_cases hid : on = id
    · subst hid
      have mannerly : (c.streams.get? on).all (·.mannerly (stream.turn budget)) = true := permit
      rw [live] at mannerly
      obtain ⟨ended, asks, asked, -⟩ := hi.live live
      obtain ⟨st', kept, asked'⟩ | ⟨done, -⟩ | ⟨owed, -⟩ :=
        asks.transmitted now limit asked sendWindow mannerly
      · exact (kept.placed asked').disciplined
      · exact (done.placed .over).disciplined
      · exact (owed.placed (.owed ended)).disciplined
    · exact hi.disciplined.untouched ((((Concerns.refl _ c).transmit now limit _
        sendWindow).reportReleased now _).untouched fun h => hid (Option.some.inj h))

theorem Conn.Closing.disciplined (h : Conn.Closing c c') (hd : c.Disciplined id) :
    c'.Disciplined id := by
  cases h with
  | quiet => exact hd.untouched (((Concerns.refl none c).call _ (.inl rfl)).untouched nofun)
  | @failed now code debug limit fits =>
    have sent : (c.observe (.queued (.goAway c.streams.highestPeerId code debug) []
      limit)).Disciplined id := hd.observe rfl
    exact sent.untouched (((Concerns.refl none _).call _ (.inl rfl)).untouched nofun)

namespace Conn

omit [Service σ μ] in
/-- At first nothing was called. -/
theorem Fresh.inTurn {s : Conn σ μ} (h : Fresh s) (id : StreamId) : s.toConnCore.InTurn id := by
  obtain ⟨service, localSettings, window, limits, policy, admission, now, -, -, -, rfl⟩ := h
  refine ⟨.untold, none, 0, ⟨Monitor.watch_start ?_, rfl, rfl⟩, .untold, .inr (.inl rfl)⟩
  intro o ho
  obtain rfl | ho := List.mem_cons.mp ho
  · rfl
  · obtain rfl := List.mem_singleton.mp ho
    rfl

/-- In every run whose frames, header blocks and turns are mannered, the calls about every stream
    are in order. -/
theorem calls_disciplined {s : Conn σ μ} (h : (machine σ μ).Reach (Permits mannered) s)
    (id : StreamId) : s.toConnCore.Disciplined id := by
  obtain ⟨s₀, fresh, traced⟩ := reach_traced (P := mannered) (fun _ _ hi => hi) h
  exact traced.invariant (I := (·.InTurn id)) (J := (·.Disciplined id)) (fresh.inTurn id)
    (fun _ _ hi hm => hm.inTurn hi) (fun _ hi => hi.disciplined) (fun _ _ hi hf => hf.disciplined hi)
    fun _ _ hd hc => hc.disciplined hd

/-- `GET /`, answered with a head and an empty body. -/
theorem getRoot_disciplined : ((machine Echo Empty).run (withService (.new 0))
    [(0, .frame getRoot), (1, .event), (2, .event), (3, .pump 0)]).Disciplined (.new 1) :=
  calls_disciplined (Machine.Reach.run (.init (fresh_withService _)) _ (by decide +kernel)) (.new 1)

/-- DATA with one octet on stream 1. -/
def straggler : WireFrame := .ofParts .data 0 (.new 1) [0x61] (by decide)

/-- A client sends DATA after the END_STREAM of its request, and the responder is given a body
    after the call that ended the request. -/
theorem body_after_end :
    ¬ ∀ s, (machine Echo Empty).Reachable s → ∀ id, s.toConnCore.Disciplined id := by
  intro all
  have broken : ¬ ((machine Echo Empty).run (withService (.new 4))
      [(0, .frame getRoot), (1, .frame straggler)]).Disciplined (.new 1) := by
    decide +kernel
  exact broken (all _ (Machine.Reach.run (.init (fresh_withService _)) _ (by simp [Machine.Meets])) _)

end Conn

end Moves

end Discipline

end H2Proxy
