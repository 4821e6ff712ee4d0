import H2Proxy.Conn.Apart
import H2Proxy.Conn.Says

/-
  Every move keeps every stream in its phase: what is sent on it so far is legal, and what it is
  told may follow (`Orderly`).
-/

namespace H2Proxy

variable {σ μ : Type} {id id' : StreamId}

/-! ## What concerns the stream -/

namespace ConnCore.Stands

variable {c c' : ConnCore σ μ} {a a' : Progress} {g g' : Telling} {o : Option Stream} {st : Stream}

theorem grow (h : c.Stands id a g o) {o' : Option Stream} (added : List (ConnObs μ))
    (hlog : c'.log = c.log ++ added) (mute : ∀ o ∈ added, o.Mute id)
    (live : c'.streams.get? id = o') : c'.Stands id a g o' := by
  refine ⟨?_, ?_, live⟩
  · rw [hlog, Monitor.watch_silent fun o ho => (mute o ho).reply]
    exact h.replied
  · rw [hlog, Monitor.watch_silent fun o ho => (mute o ho).word]
    exact h.told

theorem observe (h : c.Stands id a g o) {x : ConnObs μ} (mute : x.Mute id) :
    (c.observe x).Stands id a g o := by
  refine h.grow [x] rfl ?_ h.live
  intro y hy
  cases List.mem_singleton.mp hy
  exact mute

/-- A call other than a dispatch is no word of the stream. -/
theorem call (h : c.Stands id a g o) {call : Call} (r : σ × List (Effect μ))
    (other : (ConnObs.called call : ConnObs μ).word? id = none) :
    (c.call call r).Stands id a g o := by
  refine h.grow _ rfl ?_ h.live
  intro x hx
  obtain rfl | hx := List.mem_cons.mp hx
  · exact ⟨rfl, other⟩
  · obtain ⟨e, -, he⟩ := List.mem_filterMap.mp hx
    cases e with
    | emit event => cases he
    | send message => cases he; exact ⟨rfl, rfl⟩

theorem table (h : c.Stands id a g o) {o' : Option Stream} (hlog : c'.log = c.log)
    (live : c'.streams.get? id = o') : c'.Stands id a g o' :=
  ⟨hlog ▸ h.replied, hlog ▸ h.told, live⟩

theorem untouched (h : c.Stands id a g o) (same : Untouched id c c') : c'.Stands id a g o := by
  obtain ⟨added, hlog, mute⟩ := same.log
  exact h.grow added hlog (fun o ho => (mute o ho).toMute) (same.live.trans h.live)

/-- Credit for the connection is no business of the stream. -/
theorem reclaim (h : c.Stands id a g o) (limit : Nat) : (c.reclaim limit).Stands id a g o :=
  h.untouched (((Concerns.refl none c).reclaim limit).untouched nofun)

/-- A frame on the stream is its next reply. -/
theorem reply (h : c.Stands id a g o) {f : Frame} {fields : List Header} {limit : Nat} {r : Reply}
    (on : f.streamId = id) (spells : f.reply? fields = some r) (next : a.next r = some a') :
    (c.observe (.queued f fields limit)).Stands id a' g o := by
  refine ⟨?_, ?_, h.live⟩
  · refine (Monitor.watch_concat h.replied ?_).trans next
    exact (if_pos on).trans spells
  · exact (Monitor.watch_silent (by simp [ConnObs.word?])).trans h.told

/-- An event of the stream in its turn. -/
theorem heard (h : c.Stands id a g o) {e : ServiceEvent} (permit : (obeying : Permit σ μ).event c e)
    (on : e.id = id) :
    ∃ g', g.hear e = some g' ∧ (c.observe (.handled e)).Stands id a g' o := by
  subst on
  have spelled : (ConnObs.handled e : ConnObs μ).word? e.id = some (.told e) := if_pos rfl
  have next : tellings.watch (ConnObs.word? e.id) (c.observe (.handled e)).log = g.hear e := by
    refine (Monitor.watch_concat h.told spelled).trans ?_
    cases g <;> rfl
  obtain ⟨g', hg'⟩ := Option.isSome_iff_exists.mp permit
  refine ⟨g', next.symm.trans hg', ?_, hg', h.live⟩
  exact (Monitor.watch_silent (by simp [ConnObs.reply?])).trans h.replied

theorem modifyStream (h : c.Stands id a g o) (f : Stream → Stream) :
    (c.modifyStream id f).Stands id a g (o.map f) := by
  refine h.table rfl ?_
  rw [← h.live]
  exact (StreamTable.get?_modify ..).trans (if_pos rfl)

variable [Service σ μ]

/-- The responder is asked. -/
theorem dispatched (h : c.Stands id a .unknown o) (now : Instant) (head : RequestHead)
    (endStream : Bool) :
    (c.call (.dispatch id head endStream)
      (Service.dispatch now id head endStream c.service)).Stands id a .due o := by
  have asked : (c.observe (.called (.dispatch id head endStream))).Stands id a .due o := by
    refine ⟨?_, ?_, h.live⟩
    · exact (Monitor.watch_silent (by simp [ConnObs.reply?])).trans h.replied
    · refine (Monitor.watch_concat (a := .dispatched) h.told ?_).trans rfl
      exact if_pos rfl
  refine asked.grow ((Service.dispatch now id head endStream c.service).2.filterMap _)
    (List.append_cons ..) ?_ h.live
  · intro o ho
    obtain ⟨x, -, hx⟩ := List.mem_filterMap.mp ho
    cases x with
    | emit event => cases hx
    | send message => cases hx; exact ⟨rfl, rfl⟩

theorem abandon (h : c.Stands id a g o) (now : Instant) (code : ErrorCode) :
    (c.abandon now id code).Stands id a g none := by
  have retired : ({ c with streams := c.streams.retire id } : ConnCore σ μ).Stands id a g none :=
    h.table rfl ((StreamTable.get?_retire ..).trans (if_pos rfl))
  exact retired.call _ rfl

/-- The stream is retired with a reset. -/
theorem writeRst (h : c.Stands id a g o) (now : Instant) (code : ErrorCode) (limit : Nat) :
    (c.writeRst now id code limit).Stands id .reset g none := by
  refine reply ((h.abandon now code).reclaim limit) rfl rfl ?_
  cases a <;> rfl

theorem settle (h : c.Stands id a g (some st)) (now : Instant) (event : StreamEvent) (limit : Nat) :
    (c.settle now id event limit).Stands id a g (st.settled event) := by
  have live := h.live
  unfold ConnCore.settle StreamTable.apply Stream.settled
  rw [live]
  dsimp only
  cases st.state.transition event with
  | error code =>
    dsimp only
    split
    · exact h
    · refine h.table rfl ?_
      exact (StreamTable.get?_retire ..).trans (if_pos rfl)
  | ok next =>
    dsimp only
    split
    · refine reclaim (call (o := none) ?_ _ rfl) limit
      refine h.table rfl ?_
      exact (StreamTable.get?_retire ..).trans (if_pos rfl)
    · refine h.table rfl ?_
      refine (StreamTable.get?_modify ..).trans ?_
      rw [if_pos rfl, live]
      rfl

/-- The end of `recv_data` is no reply. -/
theorem deliver (h : c.Stands id a g (some st)) (now : Instant) (data : Bytes) (endStream : Bool)
    (limit : Nat) :
    (c.deliver now id data endStream limit).Stands id a g (st.settled (.recvData endStream)) := by
  have settled := h.settle now (.recvData endStream) limit
  unfold ConnCore.deliver
  dsimp only
  split
  · exact settled.call _ rfl
  · exact settled

/-- A stream that was never opened is opened. -/
theorem openRequest (h : c.Stands id a g none) (now : Instant) (endStream : Bool) (limit : Nat)
    (isOpen : (c.streams.openPeer id).2 = .ok ()) :
    ∃ st : Stream, st.state.weCanSend ∧ st.responseStarted = false ∧ st.Still ∧
      (c.openRequest now id endStream limit).Stands id a g (some st) := by
  obtain ⟨-, -, htable⟩ := StreamTable.openPeer_ok isOpen
  unfold ConnCore.openRequest
  have seated : ({ c with streams := (c.streams.openPeer id).1 } : ConnCore σ μ).Stands id a g
      (some (.new c.streams.initialSendWindow c.streams.initialRecvWindow)) := by
    refine h.table rfl ?_
    rw [htable]
    exact (StreamTable.get?_insertNew ..).trans (if_pos rfl)
  have opened := seated.observe (x := .opened id) ⟨rfl, rfl⟩
  have settled := opened.settle now (.recvHeaders endStream) limit
  cases endStream with
  | false => exact ⟨_, rfl, rfl, ⟨rfl, rfl, rfl⟩, settled⟩
  | true => exact ⟨_, rfl, rfl, ⟨rfl, rfl, rfl⟩, settled⟩

end ConnCore.Stands

/-! ## Phases -/

/-- What was sent and told on `id` goes with what is live of it. -/
def ConnCore.InPhase (c : ConnCore σ μ) (id : StreamId) : Prop :=
  ∃ a g st, c.Stands id a g st ∧ Phase a g st

section Effects

variable [Service σ μ] {c : ConnCore σ μ} {g : Telling} {st : Stream} (now : Instant)
  (enc : HpackEncoder) (limit : Nat)

theorem carriesStatus_toHeaders (r : Response) : carriesStatus r.toHeaders = true := by
  simp [carriesStatus, Response.toHeaders, Header.new]

theorem carriesStatus_trailers {fields : List Header} (h : validateTrailers fields = .ok ()) :
    carriesStatus fields = false := by
  unfold validateTrailers at h
  split at h
  · cases h
  · rename_i hany
    rw [Bool.not_eq_true, List.any_eq_false] at hany
    refine List.any_eq_false.mpr fun f hf => ?_
    have := hany f hf
    simp only [Bool.or_eq_true, not_or] at this
    intro hname
    refine this.1 ?_
    rw [of_decide_eq_true hname]
    decide

/-- A stream whose END_STREAM goes out has nothing left to send. -/
theorem Phase.ended {event : StreamEvent} (state : st.state.weCanSend) (started : st.responseStarted)
    (still : st.Still) (told : g ≠ .body) (last : event = .sendHeaders true ∨ event = .sendData true) :
    Phase .ended g (st.settled event) := by
  obtain h | h := Stream.settled_end state last <;> rw [h]
  · exact .spent rfl started ⟨still.body, still.endStream, still.trailers⟩ told
  · exact .gone _ _

/-- The status goes out on a stream that has sent none. -/
theorem ConnCore.Stands.respond (h : c.Stands id .silent g (some st)) (state : st.state.weCanSend)
    (still : st.Still) (r : Response) {endStream : Bool}
    (told : g = .body ↔ endStream = false) :
    (c.respond now id r endStream enc limit).InPhase id := by
  have sent : (c.headersOut id r.toHeaders endStream enc limit).Stands id
      (if endStream then .ended else .headed) g (some st) := by
    refine (h.observe ⟨rfl, rfl⟩).reply rfl rfl ?_
    rw [carriesStatus_toHeaders]
    cases endStream <;> rfl
  have marked := (sent.modifyStream ({ · with responseStarted := true })).settle now
    (.sendHeaders endStream) limit
  refine ⟨_, _, _, marked, ?_⟩
  cases endStream with
  | true =>
    have spent : g ≠ .body := fun h => nomatch told.mp h
    exact .ended state rfl ⟨still.body, still.endStream, still.trailers⟩ spent (.inl rfl)
  | false =>
    rw [Stream.settled_more (by exact state) (.inl rfl)]
    rw [told.mpr rfl]
    exact .flowing state rfl still.endStream still.trailers

/-- The trailers of a stream with nothing else to send go out. -/
theorem ConnCore.Stands.trail (h : c.Stands id .headed g (some st)) (state : st.state.weCanSend)
    (started : st.responseStarted) (still : st.Still) (told : g ≠ .body) {fields : List Header}
    (valid : validateTrailers fields = .ok ()) :
    ((c.headersOut id fields true enc limit).settle now id (.sendHeaders true) limit).InPhase id := by
  have sent : (c.headersOut id fields true enc limit).Stands id .ended g (some st) := by
    refine (h.observe ⟨rfl, rfl⟩).reply rfl rfl ?_
    rw [carriesStatus_trailers valid]
    rfl
  exact ⟨_, _, _, sent.settle now _ limit, .ended state started still told (.inl rfl)⟩

/-- Trailers come last, at once or behind the body. -/
theorem ConnCore.Stands.sendTrailers (h : c.Stands id .headed .done (some st))
    (state : st.state.weCanSend) (started : st.responseStarted) (endStream : st.sendEndStream = false)
    (trailers : st.pendingTrailers = none) (fields : List Header) :
    (c.sendTrailers now id fields enc limit).InPhase id := by
  unfold ConnCore.sendTrailers
  cases valid : validateTrailers fields with
  | error code =>
    exact ⟨_, _, _, h.modifyStream _, .ending state started rfl⟩
  | ok =>
    dsimp only
    rw [h.live]
    split
    · exact ⟨_, _, _, h.modifyStream _, .ending state started rfl⟩
    · rename_i hp
      refine h.trail now enc limit state started ⟨?_, endStream, trailers⟩ nofun valid
      have : st.sendQueue = [] := by
        by_contra hq
        exact hp (by simp [Stream.hasPendingSend, hq])
      rw [this]
      rfl

theorem ConnCore.Stands.reportReleased {o : Option Stream} {a : Progress} (h : c.Stands id a g o)
    (n : Nat) : (c.reportReleased now id n).Stands id a g o := by
  unfold ConnCore.reportReleased
  split
  · exact h.call _ rfl
  · exact h

/-- The DATA of a visit without END_STREAM. -/
theorem ConnCore.Stands.transmit {a : Progress} (h : c.Stands id a g (some st))
    (phase : Phase a g (some st)) {budget : Nat} (sendWindow : Window)
    (endStream : (st.turn budget).endStream = false) :
    (c.transmit now id (st.turn budget) sendWindow limit).Stands id a g
      (some { (st.turn budget).rest with sendWindow }) := by
  have rested : (c.modifyStream id fun _ => { (st.turn budget).rest with sendWindow }).Stands id a g
      (some { (st.turn budget).rest with sendWindow }) := h.modifyStream _
  unfold ConnCore.transmit
  dsimp only
  rw [endStream, Bool.or_false]
  split
  · rename_i some_
    have busy : ¬ st.Still := by
      intro still
      have := still.body
      rw [st.turn_octets budget, List.append_eq_nil_iff] at this
      rw [this.1] at some_
      cases some_
    obtain ⟨rfl, state, -⟩ := phase.busy busy
    have sent : (ConnCore.observe (.queued (.data id (st.turn budget).chunk false) [] limit)
        (c.modifyStream id fun _ => { (st.turn budget).rest with sendWindow })).Stands id .headed g
          (some { (st.turn budget).rest with sendWindow }) := rested.reply rfl rfl rfl
    have settled := sent.settle now (.sendData false) limit
    rwa [Stream.settled_more (by exact state) (.inr rfl)] at settled
  · exact rested

/-- The DATA of a visit with END_STREAM. -/
theorem ConnCore.Stands.transmit_last {a : Progress} (h : c.Stands id a g (some st))
    (phase : Phase a g (some st)) {budget : Nat} (sendWindow : Window)
    (endStream : (st.turn budget).endStream = true) :
    ∃ o, (c.transmit now id (st.turn budget) sendWindow limit).Stands id .ended g o ∧
      Phase .ended g o := by
  obtain ⟨asked, body, -, -, trailers, taken⟩ := st.turn_endStream budget endStream
  cases phase with
  | quiet _ _ still | spent _ _ still => rw [still.endStream] at asked; cases asked
  | flowing _ _ unasked => rw [unasked] at asked; cases asked
  | ending state started =>
    have rested : (c.modifyStream id fun _ => { (st.turn budget).rest with sendWindow }).Stands id
        .headed .done (some { (st.turn budget).rest with sendWindow }) := h.modifyStream _
    refine ⟨Stream.settled { (st.turn budget).rest with sendWindow } (.sendData true), ?_, ?_⟩
    · unfold ConnCore.transmit
      dsimp only
      rw [endStream, Bool.or_true, if_pos rfl]
      exact (rested.reply rfl rfl rfl).settle now _ limit
    · refine .ended state started ⟨?_, taken, trailers⟩ nofun (.inr rfl)
      show (st.turn budget).rest.sendQueue.flatten = []
      rw [body]
      rfl

theorem ConnCore.Stands.transmit_any {a : Progress} (h : c.Stands id a g (some st))
    (phase : Phase a g (some st)) (budget : Nat) (sendWindow : Window) :
    ∃ a' o, (c.transmit now id (st.turn budget) sendWindow limit).Stands id a' g o := by
  cases endStream : (st.turn budget).endStream with
  | true =>
    obtain ⟨o, sent, -⟩ := h.transmit_last now limit phase sendWindow endStream
    exact ⟨_, o, sent⟩
  | false => exact ⟨a, _, h.transmit now limit phase sendWindow endStream⟩

/-- A visit of the scheduler. -/
theorem ConnCore.Stands.takeTurn {a : Progress} (h : c.Stands id a g (some st))
    (phase : Phase a g (some st)) (budget : Nat) (sendWindow : Window) :
    (c.takeTurn now id (st.turn budget) sendWindow enc limit).InPhase id := by
  unfold ConnCore.takeTurn
  dsimp only
  cases endStream : (st.turn budget).endStream with
  | true =>
    obtain ⟨o, sent, ended⟩ := h.transmit_last now limit phase sendWindow endStream
    rw [(st.turn_endStream budget endStream).2.2.2.1]
    exact ⟨_, _, _, sent.reportReleased now _, ended⟩
  | false =>
    have sent := (h.transmit now limit phase sendWindow endStream).reportReleased now
      (st.turn budget).chunk.length
    cases trailers : (st.turn budget).trailers with
    | none => exact ⟨_, _, _, sent, phase.rested sendWindow endStream trailers⟩
    | some fields =>
      obtain ⟨asked, -, -, none_, taken⟩ := st.turn_trailers budget trailers
      cases phase with
      | quiet _ _ still | spent _ _ still => rw [still.trailers] at asked; cases asked
      | flowing _ _ _ unasked => rw [unasked] at asked; cases asked
      | ending state started => exact sent.sendTrailers now enc limit state started taken none_ fields

end Effects

/-! ## Order -/

section Order

variable {c c' : ConnCore σ μ}

theorem ConnCore.InPhase.orderly (h : c.InPhase id) (seen : id ≤ c.streams.highestPeerId) :
    c.Orderly id := by
  obtain ⟨a, g, st, stands, phase⟩ := h
  exact ⟨a, g, st, stands, .inl ⟨seen, phase⟩⟩

namespace ConnCore.Orderly

theorem untouched (h : c.Orderly id) (same : Untouched id c c')
    (top : c.streams.highestPeerId ≤ c'.streams.highestPeerId) : c'.Orderly id := by
  obtain ⟨a, g, st, stands, ⟨seen, phase⟩ | ⟨unseen, rfl, silent, untold⟩⟩ := h
  · exact ⟨a, g, st, stands.untouched same, .inl ⟨Nat.le_trans seen top, phase⟩⟩
  · refine ⟨a, g, none, stands.untouched same, ?_⟩
    by_cases seen : id ≤ c'.streams.highestPeerId
    · exact .inl ⟨seen, .gone a g⟩
    · exact .inr ⟨seen, rfl, silent, untold⟩

/-- Nothing is said, and the stream stays as it is. -/
theorem same (h : c.Orderly id) (hlog : c'.log = c.log)
    (live : c'.streams.get? id = c.streams.get? id)
    (top : c.streams.highestPeerId ≤ c'.streams.highestPeerId) : c'.Orderly id := by
  obtain ⟨a, g, st, stands, ⟨seen, phase⟩ | ⟨unseen, rfl, silent, untold⟩⟩ := h
  · exact ⟨a, g, st, stands.table hlog (live.trans stands.live), .inl ⟨Nat.le_trans seen top, phase⟩⟩
  · refine ⟨a, g, none, stands.table hlog (live.trans stands.live), ?_⟩
    by_cases seen : id ≤ c'.streams.highestPeerId
    · exact .inl ⟨seen, .gone a g⟩
    · exact .inr ⟨seen, rfl, silent, untold⟩

/-- A live stream was seen, and is in its phase. -/
theorem live {st : Stream} (h : c.Orderly id) (live : c.streams.get? id = some st) :
    ∃ a g, c.Stands id a g (some st) ∧ Phase a g (some st) ∧ id ≤ c.streams.highestPeerId := by
  obtain ⟨a, g, o, stands, ⟨seen, phase⟩ | ⟨-, rfl, -⟩⟩ := h
  · obtain rfl := stands.live.symm.trans live
    exact ⟨a, g, stands, phase, seen⟩
  · rw [stands.live] at live
    cases live

/-- What happens on a live stream leaves it in a phase. -/
theorem at_live {st : Stream} (h : c.Orderly id) (live : c.streams.get? id = some st)
    (top : c.streams.highestPeerId ≤ c'.streams.highestPeerId)
    (own : ∀ a g, c.Stands id a g (some st) → Phase a g (some st) → c'.InPhase id) :
    c'.Orderly id := by
  obtain ⟨a, g, stands, phase, seen⟩ := h.live live
  exact (own a g stands phase).orderly (Nat.le_trans seen top)

/-- A stream that can be opened was never spoken of, save by resets. -/
theorem openable (h : c.Orderly id) (isOpen : (c.streams.openPeer id).2 = .ok ()) :
    ∃ a, c.Stands id a .unknown none ∧ (a = .silent ∨ a = .reset) := by
  obtain ⟨-, unseen, -⟩ := StreamTable.openPeer_ok isOpen
  obtain ⟨a, g, o, stands, ⟨seen, -⟩ | ⟨-, rfl, silent, rfl⟩⟩ := h
  · exact absurd seen unseen
  · exact ⟨a, stands, silent⟩

variable [Service σ μ]

/-- A stream is reset, whether it was opened or not. -/
theorem writeRst (h : c.Orderly id) (now : Instant) (code : ErrorCode) {limit : Nat}
    (top : c.streams.highestPeerId ≤ (c.writeRst now id code limit).streams.highestPeerId) :
    (c.writeRst now id code limit).Orderly id := by
  obtain ⟨a, g, st, stands, ⟨seen, phase⟩ | ⟨unseen, rfl, silent, untold⟩⟩ := h
  · exact ⟨_, g, none, stands.writeRst now code limit, .inl ⟨Nat.le_trans seen top, .gone _ g⟩⟩
  · refine ⟨_, g, none, stands.writeRst now code limit, ?_⟩
    by_cases seen : id ≤ (c.writeRst now id code limit).streams.highestPeerId
    · exact .inl ⟨seen, .gone _ g⟩
    · exact .inr ⟨seen, rfl, .inr rfl, untold⟩

end ConnCore.Orderly

/-- Where no reset was sent, none is where the stream stands. -/
theorem ConnCore.Stands.not_reset {a : Progress} {g : Telling} {o : Option Stream}
    (h : c.Stands id a g o) (clear : ∀ o ∈ c.log, o.reply? id ≠ some .rst) : a ≠ .reset := by
  refine Monitor.watch_keeps (M := replies) (P := (· ≠ .reset)) (Q := (· ≠ .rst)) nofun ?_
    (fun o ho r hr => ?_) h.replied
  · rintro s r s' - hr hs rfl
    cases r with
    | rst => exact hr rfl
    | headers status endStream =>
      cases s <;> cases status <;> cases endStream <;> cases hs
    | data endStream => cases s <;> cases endStream <;> cases hs
  · rintro rfl
    exact clear o ho hr

/-- A live stream of which a status may be asked. -/
theorem ConnCore.Stands.ready {a : Progress} {g : Telling} {st : Stream}
    (h : c.Stands id a g (some st)) (phase : Phase a g (some st)) (clear : c.Unanswered id) :
    a = .silent ∧ st.state.weCanSend ∧ st.Still ∧ (g = .unknown ∨ g = .due) := by
  have unstarted := clear.2
  rw [h.live] at unstarted
  obtain ⟨state, still, silent, untold⟩ := phase.started (by simpa using unstarted)
  exact ⟨silent.resolve_right (h.not_reset clear.1), state, still, untold⟩

end Order

end H2Proxy
