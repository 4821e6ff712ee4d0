import H2Proxy.Conn.Response
import H2Proxy.Conn.StaleEvent

/-
  Every run of a client connection sends each stream a legal response, under a responder that
  keeps to the grammar of events, as long as no status is asked of a stream that has sent one
  or was reset (`replies_legal`). Asking for one is the client's doing: a reset provoked before
  its stream is opened, or a second header block past its limit.
-/

namespace H2Proxy

variable {σ μ : Type} {c c' : ConnCore σ μ}

/-- A refusal is not heard of a stream nothing was asked of. -/
theorem ConnCore.Stands.not_refused {e : ServiceEvent} {a : Progress} {o : Option Stream}
    (h : (c.observe (.handled e)).Stands e.id a .unknown o) : ¬ e.isRefusal := by
  intro refusal
  have spelled : (ConnObs.handled e : ConnObs μ).word? e.id = some (.told e) := if_pos rfl
  obtain ⟨g, -, next⟩ := Monitor.watch_concat_some spelled h.told
  have hear : g.hear e = some .unknown := by
    rw [← next]
    cases g <;> rfl
  cases (Telling.hear_refusal refusal hear).2

/-- The frames of a body do not change the phase of their stream. -/
theorem ConnCore.Stands.receive {a : Progress} {g : Telling} {id : StreamId} {st : Stream}
    (h : c.Stands id a g (some st)) (w : WireFrame) (len : Nat) (window : RecvWindow)
    (recvWindow : Option RecvWindow) :
    (c.receive w id len window recvWindow).Stands id a g
      (some { st with
        dataReceived := satAdd64 st.dataReceived len
        pendingConnRelease := satAdd32 st.pendingConnRelease len
        recvWindow := recvWindow.getD st.recvWindow }) := by
  have heard : ({ c.observe (.heard w) with connRecvWindow := window } : ConnCore σ μ).Stands
      id a g (some st) := (h.observe (x := .heard w) ⟨rfl, rfl⟩).table rfl h.live
  exact heard.modifyStream _

/-- An event of no effect on its stream. -/
theorem ConnCore.Orderly.handled {e : ServiceEvent} (ho : c.Orderly e.id)
    (permit : (obeying : Permit σ μ).event c e)
    (idle : c.streams.get? e.id = none ∨ e = .bodyAccepted e.id 0) :
    (c.observe (.handled e)).Orderly e.id := by
  obtain ⟨a, g, o, stands, place⟩ := ho
  obtain ⟨g', hear, stands'⟩ := stands.heard permit rfl
  refine ⟨a, g', o, stands', ?_⟩
  obtain ⟨seen, phase⟩ | ⟨unseen, rfl, silent, rfl⟩ := place
  · refine .inl ⟨seen, ?_⟩
    obtain gone | credit := idle
    · obtain rfl := stands.live.symm.trans gone
      exact .gone a g'
    · rw [credit, Telling.hear_bodyAccepted] at hear
      cases hear
      exact phase
  · refine .inr ⟨unseen, rfl, silent, ?_⟩
    cases e with
    | bodyAccepted => exact (Option.some.inj hear).symm
    | _ => cases hear

theorem ConnCore.Stands.credit {a : Progress} {g : Telling} {id : StreamId} {st : Stream}
    (h : c.Stands id a g (some st)) (stream : Stream) (n limit : Nat) :
    (c.credit id stream n limit).Stands id a g
      (some { st with
        recvWindow := (stream.recvWindow.release n).1
        pendingConnRelease := st.pendingConnRelease - n }) := by
  unfold ConnCore.credit
  refine untouched ?_ (((Concerns.refl none _).releaseConn n limit).untouched nofun)
  refine (h.modifyStream _).grow _ rfl (fun o ho => ?_) (h.modifyStream _).live
  have about : o.About none := ConnObs.About.windowUpdates (stream.recvWindow.release n).2 o ho
  exact (about.others id nofun).toMute

/-- The declared length does not change the phase of its stream. -/
theorem ConnCore.Stands.declare {a : Progress} {g : Telling} {id : StreamId} {st : Stream}
    (h : c.Stands id a g (some st)) (contentLength : Option Nat) :
    ∃ n, (c.declare id contentLength).Stands id a g (some { st with contentLength := n }) := by
  cases contentLength with
  | none => exact ⟨st.contentLength, h⟩
  | some n => exact ⟨some n, h.modifyStream _⟩

theorem ConnCore.asksStatus_refusal {e : ServiceEvent} {st : Stream} (refusal : e.isRefusal)
    (live : c.streams.get? e.id = some st) (started : st.responseStarted = false) :
    c.asksStatus e := by
  cases e with
  | gone id | shed id =>
    show (c.streams.get? id).any (!·.responseStarted) = true
    rw [show c.streams.get? id = some st from live]
    simp [started]
  | _ => cases refusal

variable [Service σ μ]

theorem StreamMove.orderly {id : StreamId} (h : StreamMove (obeying.and unanswered) c id c')
    (ho : c.Orderly id) : c'.Orderly id := by
  have top := h.grows.top
  cases h with
  | handled permit idle => exact ho.handled permit.1 idle
  | dropped now code permit ending live fits =>
    refine ho.at_live live top fun a g stands phase => ?_
    obtain ⟨g', -, stands'⟩ := stands.heard permit.1 rfl
    exact ⟨_, g', none, stands'.writeRst now code _, .gone _ _⟩
  | withdrawn now heard frame live =>
    exact ho.at_live live top fun a g stands phase => ⟨a, g, none, stands.abandon now _, .gone a g⟩
  | overgranted now code heard frame live bad fits => exact ho.writeRst now code top
  | stray now code heard frame stream gone fits => exact ho.writeRst now code top
  | @flushed now es e limit owed fits =>
    have taken : ({ c with pendingReset := es } : ConnCore σ μ).Orderly e.stream :=
      ho.same rfl rfl (Nat.le_refl _)
    exact taken.writeRst now e.code top
  | crowded now cause refused fits =>
    obtain ⟨-, hle, htable⟩ := StreamTable.openPeer_refused refused
    have noted : ({ c with streams := (c.streams.openPeer id).1 } : ConnCore σ μ).Orderly id := by
      refine ho.same rfl ?_ ?_ <;> rw [htable]
      · rfl
      · exact Nat.le_of_lt (Nat.lt_of_not_le hle)
    exact noted.writeRst now .refusedStream (Says.refl _ |>.writeRst now id .refusedStream fits).top
  | turnedAway now permit idle drained fits => exact ho.writeRst now .refusedStream top
  | @malformed now _ endStream headers contentLength code limit isOpen cause fits =>
    obtain ⟨a, stands, silent⟩ := ho.openable isOpen
    obtain ⟨st, state, started, still, opened⟩ := stands.openRequest now endStream limit isOpen
    obtain ⟨n, declared⟩ := opened.declare contentLength
    refine ConnCore.InPhase.orderly ⟨_, _, none, declared.writeRst now code limit, .gone _ _⟩ ?_
    exact Nat.le_trans (ConnCore.openRequest_top now endStream limit isOpen)
      ((Says.refl _).declare id contentLength |>.writeRst now id code fits).top
  | @dispatched now _ headers head endStream contentLength limit isOpen cause valid served fits =>
    obtain ⟨a, stands, silent⟩ := ho.openable isOpen
    obtain ⟨st, state, started, still, opened⟩ := stands.openRequest now endStream limit isOpen
    obtain ⟨n, declared⟩ := opened.declare contentLength
    refine ConnCore.InPhase.orderly ⟨_, _, _, declared.dispatched now head endStream,
      .quiet state started ⟨still.body, still.endStream, still.trailers⟩ silent (.inr rfl)⟩ ?_
    exact Nat.le_trans (ConnCore.openRequest_top now endStream limit isOpen)
      ((Says.refl _).declare id contentLength).top
  | @answered now _ status enc limit isOpen cause fits =>
    obtain ⟨a, stands, silent⟩ := ho.openable isOpen
    obtain ⟨st, state, started, still, opened⟩ := stands.openRequest now true limit isOpen
    have answers : a = .silent := by
      obtain ⟨endStream, size, max, permit⟩ | ⟨c₀, e, rfl, permit, refusal, rfl⟩ := cause
      · have clear := permit.2 ⟨size, max, rfl⟩ (by simp [ConnCore.answers431, isOpen])
        exact silent.resolve_right (stands.not_reset clear.1)
      · exact absurd refusal stands.not_refused
    subst answers
    have seen := ConnCore.openRequest_top now true limit isOpen
    have said := (Says.refl (c.openRequest now id true limit)).respond now id
      (.ofStatus status) true enc fits
    exact (opened.respond now enc limit state still _ (by decide)).orderly
      (Nat.le_trans seen said.top)
  | mistrailed now code permit live bad fits => exact ho.writeRst now code top
  | @trailered now _ headers stream limit permit live canSend fits =>
    refine ho.at_live live top fun a g stands phase => ?_
    exact ⟨_, _, _, (stands.call _ rfl).settle now _ limit, phase.advanced ⟨_, .inr rfl⟩⟩
  | @delivered now w _ data endStream stream window recvWindow limit permit frame live =>
    refine ho.at_live live top fun a g stands phase => ?_
    refine ⟨_, _, _, (stands.receive w data.length window (some recvWindow)).deliver now data
      endStream limit, Phase.advanced ?_ ⟨_, .inl rfl⟩⟩
    exact phase.same rfl rfl rfl rfl rfl
  | @mismatched now w _ data stream window recvWindow code limit permit frame live =>
    exact ho.at_live live top fun a g stands phase =>
      ⟨_, _, _, (stands.receive w _ _ _).writeRst now code limit, .gone _ _⟩
  | @overspent now w _ data endStream stream window code limit permit frame live =>
    exact ho.at_live live top fun a g stands phase =>
      ⟨_, _, _, (stands.receive w _ _ _).writeRst now code limit, .gone _ _⟩
  | @late now w _ data endStream window limit permit frame gone conn fits =>
    have counted : Concerns none c
        ({ c.observe (.heard w) with connRecvWindow := window }.releaseConn data.length limit) := by
      refine Concerns.releaseConn ?_ _ _
      exact ((Concerns.refl none c).observe (.heard w)).table rfl rfl rfl rfl rfl fun _ _ => rfl
    exact (ho.untouched (counted.untouched nofun) (Nat.le_refl _)).writeRst now .streamClosed
      (Says.refl _ |>.writeRst now id .streamClosed fits).top
  | @credited _ n stream limit permit live fits =>
    refine ho.at_live live top fun a g stands phase => ?_
    obtain ⟨g', hear, stands'⟩ := stands.heard permit.1 rfl
    rw [Telling.hear_bodyAccepted] at hear
    cases hear
    exact ⟨_, _, _, stands'.credit stream n limit, phase.same rfl rfl rfl rfl rfl⟩
  | @responded now _ response endStream stream enc limit permit live fits =>
    refine ho.at_live live top fun a g stands phase => ?_
    obtain ⟨g', hear, stands'⟩ := stands.heard permit.1 rfl
    obtain ⟨rfl, rfl⟩ := Telling.hear_head hear
    obtain ⟨rfl, state, still, -⟩ := stands.ready phase
      (permit.2 (by simp [ConnCore.asksStatus, live]))
    refine stands'.respond now enc limit state still response ?_
    cases endStream <;> decide
  | @refused now e stream status enc limit permit refusal live started fits =>
    refine ho.at_live live top fun a g stands phase => ?_
    obtain ⟨g', hear, stands'⟩ := stands.heard permit.1 rfl
    obtain ⟨-, rfl⟩ := Telling.hear_refusal refusal hear
    obtain ⟨rfl, state, still, -⟩ := stands.ready phase
      (permit.2 (ConnCore.asksStatus_refusal refusal live started))
    exact stands'.respond now enc limit state still _ (by decide)
  | @oversized now _ size max stream endStream enc limit permit live fits =>
    refine ho.at_live live top fun a g stands phase => ?_
    obtain ⟨rfl, state, still, untold⟩ := stands.ready phase
      (permit.2 ⟨size, max, rfl⟩ (by simp [ConnCore.answers431, live]))
    refine stands.respond now enc limit state still _ ?_
    obtain rfl | rfl := untold <;> decide
  | @pushed _ data endStream stream permit live =>
    refine ho.at_live live top fun a g stands phase => ?_
    obtain ⟨g', hear, stands'⟩ := stands.heard permit.1 rfl
    obtain ⟨rfl, rfl⟩ := Telling.hear_data hear
    obtain ⟨rfl, state, started, hend, htrailers⟩ := phase.body
    refine ⟨_, _, _, stands'.modifyStream _, ?_⟩
    cases endStream with
    | true => exact .ending state started (by simp)
    | false => exact .flowing state started (by simp [hend]) htrailers
  | @trailersDue now _ fields stream enc limit permit live fits =>
    refine ho.at_live live top fun a g stands phase => ?_
    obtain ⟨g', hear, stands'⟩ := stands.heard permit.1 rfl
    obtain ⟨rfl, rfl⟩ := Telling.hear_trailers hear
    obtain ⟨rfl, state, started, hend, htrailers⟩ := phase.body
    exact stands'.sendTrailers now enc limit state started hend htrailers fields
  | @turned now _ stream budget sendWindow enc limit permit live fits chunk =>
    exact ho.at_live live top fun a g stands phase =>
      stands.takeTurn now enc limit phase budget sendWindow

omit [Service σ μ] in
/-- The scheduler's notes leave every stream in its phase. -/
theorem Notes.orderly (h : Notes c c') {id : StreamId} (ho : c.Orderly id) : c'.Orderly id := by
  obtain ⟨a, g, o, stands, place⟩ := ho
  have hrel := h.alike.live id
  rw [stands.live] at hrel
  have top := h.alike.highestPeerId
  generalize live : c'.streams.get? id = o' at hrel
  cases hrel with
  | none => exact ⟨a, g, none, stands.table h.log live, top ▸ place⟩
  | some same =>
    obtain ⟨seen, phase⟩ | ⟨-, nothing, -⟩ := place
    · refine ⟨a, g, _, stands.table h.log live, .inl ⟨top ▸ seen, ?_⟩⟩
      exact phase.same same.state same.sendQueue same.sendEndStream same.pendingTrailers
        same.responseStarted
    · cases nothing

theorem Move.orderly (h : Move (obeying.and unanswered) c c') {id : StreamId} (ho : c.Orderly id) :
    c'.Orderly id :=
  h.each (I := fun id c => c.Orderly id) (fun _ same ho => ho.untouched same h.grows.top)
    (fun noted _ ho => noted.orderly ho) (fun _ move ho => move.orderly ho) ho

/-! ## Runs -/

/-- The frames queued for a stream are a legal response so far. -/
def ConnCore.Legal (c : ConnCore σ μ) (id : StreamId) : Prop :=
  replies.Accepts (ConnObs.reply? id) c.log

instance (c : ConnCore σ μ) (id : StreamId) : Decidable (c.Legal id) :=
  inferInstanceAs (Decidable (replies.Accepts (ConnObs.reply? id) c.log))

omit [Service σ μ] in
theorem ConnCore.Orderly.legal {id : StreamId} (h : c.Orderly id) : c.Legal id := by
  obtain ⟨a, g, o, stands, -⟩ := h
  exact .intro stands.replied

omit [Service σ μ] in
/-- What is no reply changes nothing. -/
theorem ConnCore.Legal.silent {id : StreamId} (h : c.Legal id) {added : List (ConnObs μ)}
    (hlog : c'.log = c.log ++ added) (silent : ∀ o ∈ added, o.reply? id = none) : c'.Legal id := by
  unfold ConnCore.Legal Monitor.Accepts at *
  rw [hlog, Monitor.watch_silent silent]
  exact h

omit [Service σ μ] in
theorem ConnCore.Legal.untouched {id : StreamId} (h : c.Legal id) (same : Untouched id c c') :
    c'.Legal id := by
  obtain ⟨added, hlog, mute⟩ := same.log
  exact h.silent hlog fun o ho => (mute o ho).reply

omit [Service σ μ] in
/-- A call is no reply. -/
theorem ConnCore.Legal.call {id : StreamId} (h : c.Legal id) {call : Call}
    (r : σ × List (Effect μ)) : (c.call call r).Legal id := by
  refine h.silent rfl fun o ho => ?_
  obtain rfl | ho := List.mem_cons.mp ho
  · rfl
  · obtain ⟨x, -, hx⟩ := List.mem_filterMap.mp ho
    cases x with
    | emit event => cases hx
    | send message => cases hx; rfl

/-- Nothing is sent by opening a stream. -/
theorem ConnCore.Orderly.openRequest_legal {id on : StreamId} (ho : c.Orderly id) (now : Instant)
    {endStream : Bool} (isOpen : (c.streams.openPeer on).2 = .ok ()) (limit : Nat) :
    (c.openRequest now on endStream limit).Legal id := by
  by_cases hid : on = id
  · subst hid
    obtain ⟨a, stands, -⟩ := ho.openable isOpen
    obtain ⟨st, -, -, -, opened⟩ := stands.openRequest now endStream limit isOpen
    exact .intro opened.replied
  · exact ho.legal.untouched (((Concerns.refl _ c).openRequest now limit endStream).untouched
      fun h => hid (Option.some.inj h))

theorem ConnCore.Orderly.transmit_legal {id on : StreamId} (ho : c.Orderly id) {stream : Stream}
    (live : c.streams.get? on = some stream) (now : Instant) (budget : Nat) (sendWindow : Window)
    (limit : Nat) : (c.transmit now on (stream.turn budget) sendWindow limit).Legal id := by
  by_cases hid : on = id
  · subst hid
    obtain ⟨a, g, stands, phase, -⟩ := ho.live live
    obtain ⟨a', o, sent⟩ := stands.transmit_any now limit phase budget sendWindow
    exact .intro sent.replied
  · exact ho.legal.untouched (((Concerns.refl _ c).transmit now limit _ sendWindow).untouched
      fun h => hid (Option.some.inj h))

theorem ConnCore.Orderly.transmitted_legal {id on : StreamId} (ho : c.Orderly id) {stream : Stream}
    (live : c.streams.get? on = some stream) (now : Instant) (budget : Nat) (sendWindow : Window)
    (limit n : Nat) :
    ((c.transmit now on (stream.turn budget) sendWindow limit).reportReleased now on n).Legal id := by
  have sent := ho.transmit_legal live now budget sendWindow limit
  unfold ConnCore.reportReleased
  split
  · exact sent.call _
  · exact sent

theorem Fault.legal (h : Fault (obeying.and unanswered) c c') {id : StreamId} (ho : c.Orderly id) :
    c'.Legal id := by
  cases h with
  | none => exact ho.legal
  | heard w => exact ho.legal.silent rfl (by simp [ConnObs.reply?])
  | @idleData w => exact ho.legal.silent rfl (by simp [ConnObs.reply?])
  | @opened now id' endStream limit isOpen cause fits => exact ho.openRequest_legal now isOpen limit
  | @unanswerable now id' enc fields limit isOpen cause fits =>
    exact (ho.openRequest_legal now isOpen limit).silent rfl (by simp [ConnObs.reply?])
  | @received w id' data =>
    exact ho.legal.silent rfl (by simp [ConnObs.reply?])
  | transmitted now sendWindow permit live fits chunk => exact ho.transmit_legal live now _ sendWindow _
  | unencodableEvent e enc fields limit =>
    have handled : (c.observe (.handled e)).Legal id := ho.legal.silent rfl (by simp [ConnObs.reply?])
    exact handled.silent rfl (by simp [ConnObs.reply?])
  | unencodable now sendWindow enc fields permit live fits chunk =>
    exact (ho.transmitted_legal live now _ sendWindow _ _).silent rfl
      (by simp [ConnObs.reply?])

theorem Conn.Closing.legal (h : Conn.Closing c c') {id : StreamId} (hl : c.Legal id) :
    c'.Legal id := by
  cases h with
  | quiet now => exact hl.call _
  | @failed now code debug limit fits =>
    have mute : (ConnObs.queued (.goAway c.streams.highestPeerId code debug) [] limit :
      ConnObs μ).Mute id := .queued (.inr rfl)
    exact ConnCore.Legal.call (hl.silent rfl (by simpa using mute.reply)) _

namespace Conn

omit [Service σ μ] in
/-- At first no stream was spoken of. -/
theorem Fresh.orderly {s : Conn σ μ} (h : Fresh s) (id : StreamId) : s.toConnCore.Orderly id := by
  obtain ⟨service, localSettings, window, limits, policy, admission, now, -, -, -, rfl⟩ := h
  have mute : ∀ o ∈ (start service localSettings window limits policy admission now : Conn σ μ).log,
      o.Mute id := by
    intro o ho
    obtain rfl | ho := List.mem_cons.mp ho
    · exact .queued (.inr rfl)
    · obtain rfl := List.mem_singleton.mp ho
      exact .queued (.inr rfl)
  have stands : (start service localSettings window limits policy admission now :
      Conn σ μ).Stands id .silent .unknown none :=
    ⟨Monitor.watch_start fun o ho => (mute o ho).reply,
      Monitor.watch_start fun o ho => (mute o ho).word, rfl⟩
  refine ⟨.silent, .unknown, none, stands, ?_⟩
  by_cases seen : id ≤ StreamId.connection
  · exact .inl ⟨seen, .gone _ _⟩
  · exact .inr ⟨seen, rfl, .inl rfl, rfl⟩

/-- In every run whose responder keeps to the grammar of events, and in which no status is
    asked of a stream that has sent one or was reset, every stream is sent a legal response. -/
theorem replies_legal {s : Conn σ μ} (h : (machine σ μ).Reach (fun s i =>
    Permits obeying s i ∧ Permits unanswered s i) s) (id : StreamId) : s.toConnCore.Legal id := by
  obtain ⟨s₀, fresh, traced⟩ := reach_traced (P := obeying.and unanswered)
    (fun s i hi => hi.1.and hi.2) h
  exact traced.invariant (I := (·.Orderly id)) (J := (·.Legal id)) (fresh.orderly id)
    (fun _ _ ho hm => hm.orderly ho) (fun _ ho => ho.legal) (fun _ _ ho hf => hf.legal ho)
    fun _ _ hl hc => hc.legal hl

/-- `GET /`, answered with a head and a body. -/
theorem getRoot_legal : ((machine Echo Empty).run (withService (.new 4))
    [(0, .frame getRoot), (1, .event), (2, .event), (3, .pump 0)]).Legal (.new 1) :=
  replies_legal (Machine.Reach.run (.init (fresh_withService _)) _ (by decide +kernel)) (.new 1)

/-! ### A reset that comes before its stream -/

/-- WINDOW_UPDATE with a zero increment on stream 1. -/
def zeroUpdate : WireFrame := .ofParts .windowUpdate 0 (.new 1) [0, 0, 0, 0] (by decide)

/-- A request is answered on a stream that was reset while it was idle. -/
def resetFirst : List (Instant × ConnInput) :=
  [(0, .frame zeroUpdate), (1, .frame getRoot), (2, .event)]

/-- A client provokes a reset before it makes its request, and is sent HEADERS after it. -/
theorem reply_after_reset :
    ¬ ∀ s, (machine Echo Empty).Reach (Permits obeying) s → ∀ id, s.toConnCore.Legal id := by
  intro all
  have meets : (machine Echo Empty).Meets (Permits obeying) (withService (.new 4)) resetFirst := by
    decide +kernel
  have illegal : ¬ ((machine Echo Empty).run (withService (.new 4)) resetFirst).Legal (.new 1) := by
    decide +kernel
  exact illegal (all _ (Machine.Reach.run (.init (fresh_withService _)) _ meets) _)

end Conn

end H2Proxy
