import H2Proxy.Conn.Steps
import H2Proxy.Lib.Fifo
import H2Proxy.Lib.Log

/-
  The octets of a body on their way through a client connection.

  A `Gauge` reads what the log says of a body, as the traffic of a queue, and what of it a
  stream holds. Most of what the engine does says nothing of it (`Rests`). Where the steps
  that hand octets on keep what waits (`Conveys`), every run does (`in_order`).
-/

namespace H2Proxy

open Traffic (fifo)

def Frame.isData : Frame → Bool
  | .data .. => true
  | _ => false

def Call.isBody : Call → Bool
  | .body .. => true
  | _ => false

/-- What is read of a body: what an entry of the log says of it, and what of it a stream holds.
    It starts anew with its stream, and only what is heard or handled puts octets in. -/
structure Gauge (μ : Type) where
  traffic : StreamId → ConnObs μ → Option (Traffic UInt8)
  held : Stream → Bytes
  opened : ∀ id on, traffic id (.opened on) = if on = id then some .clear else none
  heard : ∀ {id w part}, traffic id (.heard w) = some part →
    ∃ data endStream, w.data? = some (id, data, endStream) ∧ part = .put data
  handled : ∀ {id e part}, traffic id (.handled e) = some part →
    ∃ data endStream, e = .data id data endStream ∧ part = .put data
  queued : ∀ id f fields limit, f.isData = false → traffic id (.queued f fields limit) = none
  called : ∀ id call, call.isBody = false → traffic id (.called call) = none
  encoded : ∀ id enc fields limit, traffic id (.encoded enc fields limit) = none
  sent : ∀ id message, traffic id (.sent message) = none
  held_congr : ∀ {st st'}, st'.sendQueue.flatten = st.sendQueue.flatten → held st' = held st
  held_empty : ∀ {st}, st.sendQueue = [] → held st = []

variable {σ μ : Type} {G : Gauge μ} {id : StreamId}

theorem Gauge.neutral (G : Gauge μ) (id : StreamId) {o : ConnObs μ} (h : o.Neutral) :
    G.traffic id o = none := by
  cases h with
  | @heard w other =>
    cases said : G.traffic id (.heard w) with
    | none => rfl
    | some part =>
      obtain ⟨data, endStream, is, -⟩ := G.heard said
      cases other.symm.trans is
  | encoded => exact G.encoded ..
  | @queued f limit fits kind =>
    refine G.queued id f [] limit ?_
    cases f with
    | data => rcases kind with kind | kind <;> cases kind
    | _ => rfl

/-- DATA of another stream says nothing of this one. -/
theorem Gauge.unheard (G : Gauge μ) {w : WireFrame} {on : StreamId} {data : Bytes}
    {endStream : Bool} (frame : w.data? = some (on, data, endStream)) (other : on ≠ id) :
    G.traffic id (.heard w) = none := by
  cases said : G.traffic id (.heard w) with
  | none => rfl
  | some part =>
    obtain ⟨data', endStream', is, -⟩ := G.heard said
    cases frame.symm.trans is
    exact absurd rfl other

/-- Nothing of the body on `id` was said, and what is held of it stays. -/
structure ConnCore.Rests (G : Gauge μ) (id : StreamId) (c c' : ConnCore σ μ) : Prop where
  live : ∀ st', c'.streams.get? id = some st' →
    ∃ st, c.streams.get? id = some st ∧ G.held st' = G.held st
  log : Adds (fun o => G.traffic id o = none) c.log c'.log

namespace ConnCore.Rests

variable {a c c' : ConnCore σ μ}

theorem refl (G : Gauge μ) (id : StreamId) (c : ConnCore σ μ) : c.Rests G id c :=
  ⟨fun st' live => ⟨st', live, rfl⟩, .refl _ _⟩

theorem trans (h : a.Rests G id c) (h' : c.Rests G id c') : a.Rests G id c' := by
  refine ⟨fun st'' live => ?_, h.log.trans h'.log⟩
  obtain ⟨st', live', waits⟩ := h'.live st'' live
  rw [waits]
  exact h.live st' live'

/-- The live streams stay. -/
theorem aside (h : a.Rests G id c) (live : c'.streams.live = c.streams.live)
    (log : Adds (fun o => G.traffic id o = none) c.log c'.log) : a.Rests G id c' := by
  refine h.trans ⟨fun st' hst => ⟨st', ?_, rfl⟩, log⟩
  unfold StreamTable.get? at hst ⊢
  rwa [live] at hst

theorem observe (h : a.Rests G id c) {o : ConnObs μ} (silent : G.traffic id o = none) :
    a.Rests G id (c.observe o) :=
  h.aside rfl (.one silent)

theorem call (h : a.Rests G id c) {call : Call} (r : σ × List (Effect μ))
    (silent : G.traffic id (.called call) = none) : a.Rests G id (c.call call r) := by
  refine h.aside rfl ⟨_, rfl, fun o ho => ?_⟩
  obtain rfl | ho := List.mem_cons.mp ho
  · exact silent
  · obtain ⟨x, -, hx⟩ := List.mem_filterMap.mp ho
    cases x with
    | emit event => cases hx
    | send message =>
      cases hx
      exact G.sent ..

theorem releaseConn (h : a.Rests G id c) (n limit : Nat) :
    a.Rests G id (c.releaseConn n limit) := by
  refine h.aside rfl ⟨_, rfl, fun o ho => ?_⟩
  obtain ⟨increment, -, rfl⟩ := Option.mem_map.mp (Option.mem_toList.mp ho)
  exact G.queued _ _ _ _ rfl

theorem reclaim (h : a.Rests G id c) (limit : Nat) : a.Rests G id (c.reclaim limit) := by
  have emptied : a.Rests G id { c with streams := { c.streams with reclaimed := 0 } } :=
    h.aside rfl (.refl _ _)
  unfold ConnCore.reclaim
  dsimp only
  split
  · exact emptied
  · exact emptied.releaseConn _ limit

/-- A stream is changed in place, and what waits on it is not. -/
theorem modifyStream (h : a.Rests G id c) (on : StreamId) {f : Stream → Stream}
    (keeps : ∀ st, (f st).sendQueue = st.sendQueue) : a.Rests G id (c.modifyStream on f) := by
  refine h.trans ⟨fun st' live => ?_, .refl _ _⟩
  have live : (c.streams.modify on f).get? id = some st' := live
  rw [StreamTable.get?_modify] at live
  split at live
  · rename_i heq
    subst heq
    obtain ⟨st, hst, rfl⟩ := Option.map_eq_some_iff.mp live
    exact ⟨st, hst, G.held_congr (congrArg _ (keeps st))⟩
  · exact ⟨st', live, rfl⟩

theorem retire (h : a.Rests G id c) (on : StreamId) :
    a.Rests G id { c with streams := c.streams.retire on } := by
  refine h.trans ⟨fun st' live => ⟨st', ?_, rfl⟩, .refl _ _⟩
  have live : (c.streams.retire on).get? id = some st' := live
  rw [StreamTable.get?_retire] at live
  split at live
  · cases live
  · exact live

theorem apply (h : a.Rests G id c) (on : StreamId) (event : StreamEvent) :
    a.Rests G id { c with streams := (c.streams.apply on event).1 } := by
  unfold StreamTable.apply
  cases hs : c.streams.get? on with
  | none => exact h
  | some s =>
    dsimp only
    cases s.state.transition event with
    | error code => exact h
    | ok next =>
      have moved := h.modifyStream on (f := ({ · with state := next })) fun _ => rfl
      dsimp only
      split
      · exact moved.retire on
      · exact moved

theorem credit (h : a.Rests G id c) (on : StreamId) (stream : Stream) (n limit : Nat) :
    a.Rests G id (c.credit on stream n limit) := by
  have modified := h.modifyStream on (f := fun s =>
    { s with
      recvWindow := (stream.recvWindow.release n).1
      pendingConnRelease := s.pendingConnRelease - n }) fun _ => rfl
  unfold ConnCore.credit
  refine releaseConn ?_ n limit
  refine modified.aside rfl ⟨_, rfl, fun o ho => ?_⟩
  obtain ⟨increment, -, rfl⟩ := Option.mem_map.mp (Option.mem_toList.mp ho)
  exact G.queued _ _ _ _ rfl

/-- DATA of another stream is heard. -/
theorem receive (h : a.Rests G id c) {w : WireFrame} {on : StreamId} {data : Bytes}
    {endStream : Bool} (frame : w.data? = some (on, data, endStream)) (other : on ≠ id)
    (window : RecvWindow) (recvWindow : Option RecvWindow) :
    a.Rests G id (c.receive w on data.length window recvWindow) := by
  have heard : a.Rests G id { c.observe (.heard w) with connRecvWindow := window } :=
    h.aside rfl (.one (G.unheard frame other))
  exact heard.modifyStream on fun _ => rfl

theorem declare (h : a.Rests G id c) (on : StreamId) (contentLength : Option Nat) :
    a.Rests G id (c.declare on contentLength) := by
  cases contentLength with
  | none => exact h
  | some n => exact h.modifyStream on fun _ => rfl

theorem headersOut (h : a.Rests G id c) (on : StreamId) (fields : List Header) (endStream : Bool)
    (enc : HpackEncoder) (limit : Nat) :
    a.Rests G id (c.headersOut on fields endStream enc limit) :=
  (h.observe (G.encoded ..)).observe (G.queued _ _ _ _ rfl)

section Service

variable [Service σ μ] (now : Instant) (enc : HpackEncoder) (limit : Nat) (on : StreamId)

theorem abandon (h : a.Rests G id c) (code : ErrorCode) : a.Rests G id (c.abandon now on code) :=
  (h.retire on).call _ (G.called _ _ rfl)

theorem writeRst (h : a.Rests G id c) (code : ErrorCode) :
    a.Rests G id (c.writeRst now on code limit) :=
  ((h.abandon now on code).reclaim limit).observe (G.queued _ _ _ _ rfl)

theorem settle (h : a.Rests G id c) (event : StreamEvent) :
    a.Rests G id (c.settle now on event limit) := by
  have applied := h.apply on event
  unfold ConnCore.settle
  generalize c.streams.apply on event = res at applied
  obtain ⟨streams, result⟩ := res
  cases result with
  | ok state =>
    dsimp only
    split
    · exact (applied.call _ (G.called _ _ rfl)).reclaim limit
    · exact applied
  | error e =>
    dsimp only
    split
    · exact applied
    · exact (applied.retire on).aside rfl (.refl _ _)

theorem respond (h : a.Rests G id c) (response : Response) (endStream : Bool) :
    a.Rests G id (c.respond now on response endStream enc limit) :=
  ((h.headersOut on _ _ _ _).modifyStream on (f := ({ · with responseStarted := true }))
    fun _ => rfl).settle now limit on _

theorem sendTrailers (h : a.Rests G id c) (fields : List Header) :
    a.Rests G id (c.sendTrailers now on fields enc limit) := by
  unfold ConnCore.sendTrailers
  split
  · exact h.modifyStream on fun _ => rfl
  · split
    · exact h.modifyStream on fun _ => rfl
    · exact (h.headersOut on _ _ _ _).settle now limit on _

theorem reportReleased (h : a.Rests G id c) (n : Nat) :
    a.Rests G id (c.reportReleased now on n) := by
  unfold ConnCore.reportReleased
  split
  · exact h.call _ (G.called _ _ rfl)
  · exact h

end Service

end ConnCore.Rests

/-! ## What waits -/

/-- These octets of the body on `id` wait, and its stream holds them. -/
structure ConnCore.Waits (G : Gauge μ) (id : StreamId) (c : ConnCore σ μ) (waiting : Bytes) :
    Prop where
  read : fifo.watch (G.traffic id) c.log = some waiting
  live : ∀ st, c.streams.get? id = some st → G.held st = waiting

/-- No octet of the body on `id` was handed on but in its turn. -/
def ConnCore.Relays (G : Gauge μ) (id : StreamId) (c : ConnCore σ μ) : Prop :=
  fifo.Accepts (G.traffic id) c.log

variable {c c' : ConnCore σ μ} {waiting : Bytes}

namespace ConnCore.Relays

theorem rests (h : c.Relays G id) (same : c.Rests G id c') : c'.Relays G id := by
  obtain ⟨added, hlog, silent⟩ := same.log
  unfold ConnCore.Relays Monitor.Accepts at *
  rw [hlog, Monitor.watch_silent silent]
  exact h

/-- More octets may come in at any time. -/
theorem grow (h : c.Relays G id) {o : ConnObs μ}
    (puts : ∀ part, G.traffic id o = some part → ∃ data, part = .put data)
    (hlog : c'.log = c.log ++ [o]) : c'.Relays G id := by
  obtain ⟨waiting, read⟩ := Option.isSome_iff_exists.mp h
  unfold ConnCore.Relays
  rw [hlog]
  cases said : G.traffic id o with
  | none => exact .intro ((Monitor.watch_silent (by simpa using said)).trans read)
  | some part =>
    obtain ⟨data, rfl⟩ := puts part said
    exact .intro ((Monitor.watch_concat read said).trans rfl)

theorem heard (h : c.Relays G id) {w : WireFrame} (hlog : c'.log = c.log ++ [.heard w]) :
    c'.Relays G id := by
  refine h.grow (fun part said => ?_) hlog
  obtain ⟨data, endStream, -, is⟩ := G.heard said
  exact ⟨data, is⟩

theorem handled (h : c.Relays G id) (e : ServiceEvent) :
    (c.observe (.handled e)).Relays G id := by
  refine h.grow (o := .handled e) (fun part said => ?_) rfl
  obtain ⟨data, endStream, -, is⟩ := G.handled said
  exact ⟨data, is⟩

/-- What was handed on is the front of what came in. -/
theorem front (h : c.Relays G id) : (Traffic.since (G.traffic id) c.log).flatMap Traffic.taken <+:
    (Traffic.since (G.traffic id) c.log).flatMap Traffic.given := by
  obtain ⟨waiting, read⟩ := Option.isSome_iff_exists.mp h
  exact ⟨waiting, (Traffic.watch_conserved read).symm⟩

/-- Where the last octets are handed on, none are left. -/
theorem drained (h : c.Relays G id) {before after : List (ConnObs μ)} {o : ConnObs μ}
    {octets : Bytes} (hlog : c.log = before ++ o :: after)
    (last : G.traffic id o = some (.drain octets)) :
    (Traffic.since (G.traffic id) before).flatMap Traffic.given =
      (Traffic.since (G.traffic id) before).flatMap Traffic.taken ++ octets := by
  unfold ConnCore.Relays at h
  rw [hlog] at h
  exact Traffic.drain_conserved h last

/-- A stream that is reset holds nothing. -/
theorem reset [Service σ μ] (h : c.Relays G id) (now : Instant) (code : ErrorCode) (limit : Nat) :
    ∃ waiting, (c.writeRst now id code limit).Waits G id waiting := by
  obtain ⟨waiting, read⟩ := Option.isSome_iff_exists.mp
    (h.rests (.writeRst now limit id (.refl G id c) code))
  refine ⟨waiting, read, fun st live => ?_⟩
  have after : (c.abandon now id code).Rests G id (c.writeRst now id code limit) :=
    ((ConnCore.Rests.refl G id _).reclaim limit).observe (G.queued _ _ _ _ rfl)
  obtain ⟨st', live', -⟩ := after.live st live
  have live' : (c.streams.retire id).get? id = some st' := live'
  rw [StreamTable.get?_retire, if_pos rfl] at live'
  cases live'

end ConnCore.Relays

namespace ConnCore.Waits

theorem relays (h : c.Waits G id waiting) : c.Relays G id := .intro h.read

theorem rests (h : c.Waits G id waiting) (same : c.Rests G id c') : c'.Waits G id waiting := by
  obtain ⟨added, hlog, silent⟩ := same.log
  refine ⟨?_, fun st' live => ?_⟩
  · rw [hlog, Monitor.watch_silent silent]
    exact h.read
  · obtain ⟨st, hst, held⟩ := same.live st' live
    rw [held]
    exact h.live st hst

/-- What is given for a stream that is gone waits for nothing. -/
theorem handled (h : c.Waits G id waiting) (e : ServiceEvent)
    (idle : c.streams.get? e.id = none ∨ e = .bodyAccepted e.id 0) :
    ∃ waiting', (c.observe (.handled e)).Waits G id waiting' := by
  cases said : G.traffic id (.handled e) with
  | none => exact ⟨_, h.rests (.observe (.refl G id c) said)⟩
  | some part =>
    obtain ⟨data, endStream, rfl, rfl⟩ := G.handled said
    obtain gone | credit := idle
    · exact ⟨_, (Monitor.watch_concat h.read said).trans rfl, fun st live => by
        cases gone.symm.trans live⟩
    · cases credit

/-- An event that gives no octets. -/
theorem unhandled (h : c.Waits G id waiting) {e : ServiceEvent}
    (other : ∀ data endStream, e ≠ .data id data endStream) :
    (c.observe (.handled e)).Waits G id waiting := by
  refine h.rests (.observe (.refl G id c) ?_)
  cases said : G.traffic id (.handled e) with
  | none => rfl
  | some part =>
    obtain ⟨data, endStream, is, -⟩ := G.handled said
    exact absurd is (other data endStream)

variable [Service σ μ] (now : Instant) (limit : Nat)

/-- A stream is opened, and nothing waits on it. -/
theorem openRequest (h : c.Waits G id waiting) {on : StreamId} (endStream : Bool)
    (isOpen : (c.streams.openPeer on).2 = .ok ()) :
    ∃ waiting', (c.openRequest now on endStream limit).Waits G id waiting' := by
  have table := (StreamTable.openPeer_ok isOpen).2.2
  have said := G.opened id on
  have opened : ∃ waiting', ({ c with streams := (c.streams.openPeer on).1 }.observe
      (.opened on)).Waits G id waiting' := by
    by_cases own : on = id
    · subst own
      rw [if_pos rfl] at said
      refine ⟨[], (Monitor.watch_concat h.read said).trans rfl, fun st live => ?_⟩
      have live : (c.streams.openPeer on).1.get? on = some st := live
      rw [table, StreamTable.get?_insertNew, if_pos rfl] at live
      cases live
      exact G.held_empty rfl
    · rw [if_neg own] at said
      refine ⟨waiting, (Monitor.watch_silent (by simpa using said)).trans h.read,
        fun st live => ?_⟩
      have live : (c.streams.openPeer on).1.get? id = some st := live
      rw [table, StreamTable.get?_insertNew, if_neg (Ne.symm own)] at live
      exact h.live st live
  obtain ⟨waiting', opened⟩ := opened
  exact ⟨waiting', opened.rests (.settle now limit on (.refl G id _) _)⟩

/-- DATA is heard, and its stream is reset. -/
theorem received_reset (h : c.Waits G id waiting) {w : WireFrame} {on : StreamId} {data : Bytes}
    {endStream : Bool} (frame : w.data? = some (on, data, endStream)) (window : RecvWindow)
    (recvWindow : Option RecvWindow) (code : ErrorCode) :
    ∃ waiting', ((c.receive w on data.length window recvWindow).writeRst now on code limit).Waits
      G id waiting' := by
  by_cases own : on = id
  · subst own
    have heard : (c.receive w on data.length window recvWindow).Relays G on := h.relays.heard rfl
    exact heard.reset now code limit
  · exact ⟨waiting, h.rests (((ConnCore.Rests.refl G id c).receive frame own window
      recvWindow).writeRst now limit on code)⟩

end ConnCore.Waits

/-! ## Moves -/

/-- The steps that hand octets on keep what waits: a responder's octets are queued, a turn of the
    scheduler takes some, DATA is told to the responder. -/
structure Gauge.Conveys (G : Gauge μ) (σ : Type) [Service σ μ] : Prop where
  push : ∀ {c : ConnCore σ μ} {id on : StreamId} {waiting data : Bytes} {endStream : Bool},
    c.Waits G id waiting →
      ∃ waiting', ((c.observe (.handled (.data on data endStream))).modifyStream on fun s =>
        { s with
          sendQueue := if data ≠ [] then s.sendQueue ++ [data] else s.sendQueue
          sendEndStream := s.sendEndStream || endStream }).Waits G id waiting'
  transmit : ∀ {c : ConnCore σ μ} {id on : StreamId} {waiting : Bytes} {stream : Stream}
    (now : Instant) (limit budget : Nat) (sendWindow : Window), c.Waits G id waiting →
      c.streams.get? on = some stream →
        ∃ waiting', (c.transmit now on (stream.turn budget) sendWindow limit).Waits G id waiting'
  deliver : ∀ {c : ConnCore σ μ} {id on : StreamId} {waiting data : Bytes} {stream : Stream}
    {endStream : Bool} {w : WireFrame} (now : Instant) (limit : Nat) (window : RecvWindow)
    (recvWindow : Option RecvWindow), c.Waits G id waiting →
      w.data? = some (on, data, endStream) → c.streams.get? on = some stream →
        ∃ waiting', ((c.receive w on data.length window recvWindow).deliver now on data endStream
          limit).Waits G id waiting'

variable [Service σ μ] {P : Permit σ μ}

theorem Gauge.Conveys.takeTurn (conveys : G.Conveys σ) (h : c.Waits G id waiting)
    {on : StreamId} {stream : Stream} (live : c.streams.get? on = some stream) (now : Instant)
    (budget : Nat) (sendWindow : Window) (enc : HpackEncoder) (limit : Nat) :
    ∃ waiting', (c.takeTurn now on (stream.turn budget) sendWindow enc limit).Waits G id
      waiting' := by
  obtain ⟨waiting', sent⟩ := conveys.transmit now limit budget sendWindow h live
  have reported := sent.rests
    (.reportReleased now on (.refl G id _) (stream.turn budget).chunk.length)
  unfold ConnCore.takeTurn
  dsimp only
  split
  · exact ⟨waiting', reported.rests (.sendTrailers now enc limit on (.refl G id _) _)⟩
  · exact ⟨waiting', reported⟩

theorem StreamMove.waits {on : StreamId} (h : StreamMove P c on c') (conveys : G.Conveys σ)
    (hc : c.Waits G id waiting) : ∃ waiting', c'.Waits G id waiting' := by
  have here := ConnCore.Rests.refl G id c
  cases h with
  | @handled e permit idle => exact hc.handled e idle
  | @dropped now e stream code limit permit ending =>
    have told := hc.unhandled (e := e) fun data endStream is => by
      subst is
      rcases ending with ending | ending <;> cases ending
    exact ⟨_, told.rests (.writeRst now limit _ (.refl G id _) code)⟩
  | @withdrawn now w _ code => exact ⟨_, hc.rests (here.abandon now on code)⟩
  | @overgranted now w _ n stream code limit =>
    exact ⟨_, hc.rests (here.writeRst now limit on code)⟩
  | @stray now w _ code limit => exact ⟨_, hc.rests (here.writeRst now limit on code)⟩
  | @flushed now es e limit =>
    have taken : c.Rests G id { c with pendingReset := es } := here.aside rfl (.refl _ _)
    exact ⟨_, hc.rests (taken.writeRst now limit _ e.code)⟩
  | @crowded now _ limit cause refused =>
    have noted : c.Rests G id { c with streams := (c.streams.openPeer on).1 } :=
      here.aside (by rw [(StreamTable.openPeer_refused refused).2.2]) (.refl _ _)
    exact ⟨_, hc.rests (noted.writeRst now limit on .refusedStream)⟩
  | @turnedAway now _ endStream headers limit =>
    exact ⟨_, hc.rests (here.writeRst now limit on .refusedStream)⟩
  | @malformed now _ endStream headers contentLength code limit isOpen =>
    obtain ⟨waiting', opened⟩ := hc.openRequest now limit endStream isOpen
    exact ⟨waiting', opened.rests
      (((ConnCore.Rests.refl G id _).declare on contentLength).writeRst now limit on code)⟩
  | @dispatched now _ headers head endStream contentLength limit isOpen =>
    obtain ⟨waiting', opened⟩ := hc.openRequest now limit endStream isOpen
    exact ⟨waiting', opened.rests
      (((ConnCore.Rests.refl G id _).declare on contentLength).call _ (G.called _ _ rfl))⟩
  | @answered now _ status enc limit isOpen =>
    obtain ⟨waiting', opened⟩ := hc.openRequest now limit true isOpen
    exact ⟨waiting', opened.rests (.respond now enc limit on (.refl G id _) _ true)⟩
  | @mistrailed now _ headers endStream stream code limit =>
    exact ⟨_, hc.rests (here.writeRst now limit on code)⟩
  | @trailered now _ headers stream limit =>
    exact ⟨_, hc.rests ((here.call _ (G.called _ _ rfl)).settle now limit on _)⟩
  | @delivered now w _ data endStream stream window recvWindow limit permit frame live =>
    exact conveys.deliver now limit window (some recvWindow) hc frame live
  | @mismatched now w _ data stream window recvWindow code limit permit frame =>
    exact hc.received_reset now limit frame window (some recvWindow) code
  | @overspent now w _ data endStream stream window code limit permit frame =>
    exact hc.received_reset now limit frame window none code
  | @late now w _ data endStream window limit permit frame =>
    by_cases own : on = id
    · subst own
      have heard : ({ c.observe (.heard w) with connRecvWindow := window } : ConnCore σ μ).Relays
          G on := hc.relays.heard rfl
      have released := heard.rests (.releaseConn (.refl G on _) data.length limit)
      exact released.reset now .streamClosed limit
    · have heard : c.Rests G id { c.observe (.heard w) with connRecvWindow := window } :=
        here.aside rfl (.one (G.unheard frame own))
      exact ⟨_, hc.rests ((heard.releaseConn _ limit).writeRst now limit on .streamClosed)⟩
  | @credited _ n stream limit =>
    have told := hc.unhandled (e := .bodyAccepted on n) fun data endStream is => by cases is
    exact ⟨_, told.rests (.credit (.refl G id _) on stream n limit)⟩
  | @responded now _ response endStream stream enc limit =>
    have told := hc.unhandled (e := .head on response endStream) fun data endStream is => by
      cases is
    exact ⟨_, told.rests (.respond now enc limit on (.refl G id _) _ _)⟩
  | @refused now e stream status enc limit permit refusal =>
    have told := hc.unhandled (e := e) fun data endStream is => by
      subst is
      cases refusal
    exact ⟨_, told.rests (.respond now enc limit _ (.refl G id _) _ _)⟩
  | @oversized now _ size max stream endStream enc limit =>
    exact ⟨_, hc.rests (here.respond now enc limit on _ _)⟩
  | @pushed _ data endStream => exact conveys.push hc
  | @trailersDue now _ fields stream enc limit =>
    have told := hc.unhandled (e := .trailers on fields) fun data endStream is => by cases is
    exact ⟨_, told.rests (.sendTrailers now enc limit on (.refl G id _) _)⟩
  | @turned now _ stream budget sendWindow enc limit permit live =>
    exact conveys.takeTurn hc live now budget sendWindow enc limit

/-- What a run keeps: what waits of a body is what its stream holds. -/
theorem Move.waits (h : Move P c c') (conveys : G.Conveys σ) (hc : c.Waits G id waiting) :
    ∃ waiting', c'.Waits G id waiting' := by
  have here := ConnCore.Rests.refl G id c
  cases h with
  | note neutral => exact ⟨_, hc.rests (here.observe (G.neutral id neutral))⟩
  | @alike streams alike =>
    refine ⟨waiting, hc.read, fun st' live => ?_⟩
    have same := alike.live id
    have live : streams.get? id = some st' := live
    rw [live] at same
    generalize was : c.streams.get? id = o at same
    cases same with
    | some same =>
      rw [G.held_congr same.sendQueue]
      exact hc.live _ was
  | events => exact ⟨_, hc.rests (here.aside rfl (.refl _ _))⟩
  | intercepted => exact ⟨_, hc.rests (here.call _ (G.called _ _ rfl))⟩
  | draining => exact ⟨_, hc.rests (here.aside rfl (.one (G.queued _ _ _ _ rfl)))⟩
  | committed => exact ⟨_, hc.rests (here.aside rfl (.one (G.queued _ _ _ _ rfl)))⟩
  | reclaimed => exact ⟨_, hc.rests (here.reclaim _)⟩
  | on move => exact move.waits conveys hc

/-! ## Runs -/

/-- An error in the middle of a move hands on nothing out of turn. -/
theorem Fault.relays (h : Fault P c c') (conveys : G.Conveys σ) (hc : c.Waits G id waiting) :
    c'.Relays G id := by
  have here := ConnCore.Rests.refl G id c
  cases h with
  | none => exact hc.relays
  | heard w => exact hc.relays.heard rfl
  | @idleData w => exact hc.relays.heard (w := w) rfl
  | @opened now on endStream limit isOpen =>
    obtain ⟨waiting', opened⟩ := hc.openRequest now limit endStream isOpen
    exact opened.relays
  | @unanswerable now on enc fields limit isOpen =>
    obtain ⟨waiting', opened⟩ := hc.openRequest now limit true isOpen
    exact opened.relays.rests (.observe (.refl G id _) (G.encoded ..))
  | @received w => exact hc.relays.heard (w := w) rfl
  | @transmitted now on stream budget sendWindow limit permit live =>
    obtain ⟨waiting', sent⟩ := conveys.transmit now limit budget sendWindow hc live
    exact sent.relays
  | unencodableEvent e enc fields limit =>
    exact (hc.relays.handled e).rests (.observe (.refl G id _) (G.encoded ..))
  | @unencodable now on stream budget sendWindow enc fields limit permit live =>
    obtain ⟨waiting', sent⟩ := conveys.transmit now limit budget sendWindow hc live
    exact sent.relays.rests ((ConnCore.Rests.reportReleased now on (.refl G id _) _).observe
      (G.encoded ..))

theorem Conn.Closing.relays (h : Conn.Closing c c') (hr : c.Relays G id) : c'.Relays G id := by
  have here := ConnCore.Rests.refl G id c
  cases h with
  | quiet now => exact hr.rests (here.call _ (G.called _ _ rfl))
  | failed now fits =>
    exact hr.rests ((here.observe (G.queued _ _ _ _ rfl)).call _ (G.called _ _ rfl))

namespace Conn

omit [Service σ μ] in
theorem Fresh.waits {s : Conn σ μ} (h : Fresh s) (G : Gauge μ) (id : StreamId) :
    s.toConnCore.Waits G id [] := by
  obtain ⟨service, localSettings, window, limits, policy, admission, now, -, -, -, rfl⟩ := h
  refine ⟨Monitor.watch_start fun o ho => ?_, fun st live => by cases live⟩
  obtain rfl | ho := List.mem_cons.mp ho
  · exact G.queued _ _ _ _ rfl
  · obtain rfl := List.mem_singleton.mp ho
    exact G.queued _ _ _ _ rfl

/-- The octets of a body that is conveyed are handed on in order, and while the connection runs
    its stream holds the rest. -/
theorem in_order {s : Conn σ μ} (h : (machine σ μ).Reachable s) (conveys : G.Conveys σ)
    (id : StreamId) : s.toConnCore.Relays G id ∧
      (s.stop = none → ∃ waiting, s.toConnCore.Waits G id waiting) := by
  obtain ⟨s₀, fresh, traced⟩ := reach_traced (P := {}) (fun s i _ => permits_all s i) h
  have move : ∀ c c' : ConnCore σ μ, (∃ waiting, c.Waits G id waiting) → Move {} c c' →
      ∃ waiting, c'.Waits G id waiting := by
    rintro c c' ⟨waiting, waits⟩ move
    exact move.waits conveys waits
  refine ⟨?_, fun running => traced.running_invariant running ⟨_, fresh.waits G id⟩ move⟩
  refine traced.invariant (J := fun c => c.Relays G id) ⟨_, fresh.waits G id⟩ move ?_ ?_
    fun c c' relays closing => closing.relays relays
  · rintro c ⟨waiting, waits⟩
    exact waits.relays
  · rintro c c' ⟨waiting, waits⟩ fault
    exact fault.relays conveys waits

end Conn

end H2Proxy
