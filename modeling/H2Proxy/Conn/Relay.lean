import H2Proxy.Conn.Dealings
import H2Proxy.Conn.Gauge

/-
  Bodies pass a client connection in order, both ways.

  What a responder gives waits in the send queue of the stream, and DATA takes from its front
  (`response_in_order`). What the client's DATA brings waits for nothing: the responder is told of
  it in the same step (`request_in_order`).
-/

namespace H2Proxy

open Traffic (fifo)

variable {σ μ : Type} {id : StreamId} {c c' : ConnCore σ μ} {waiting : Bytes}

/-! ## Responses -/

/-- What an entry of the log does to the body of the response on `id`. -/
def ConnObs.response? (id : StreamId) : ConnObs μ → Option (Traffic UInt8)
  | .opened on => if on = id then some .clear else none
  | .handled (.data on data _) => if on = id then some (.put data) else none
  | .queued (.data on chunk endStream) _ _ =>
    if on = id then some (if endStream then .drain chunk else .take chunk) else none
  | _ => none

/-- The body of a response: its stream holds what is queued. -/
def Gauge.response : Gauge μ where
  traffic := ConnObs.response?
  held st := st.sendQueue.flatten
  opened _ _ := rfl
  heard said := by cases said
  handled {_ e _} said := by
    cases e with
    | data on data endStream =>
      obtain ⟨rfl, is⟩ := (Option.ite_none_right_eq_some ..).mp said
      cases is
      exact ⟨data, endStream, rfl, rfl⟩
    | _ => cases said
  queued _ f _ _ other := by
    cases f with
    | data => cases other
    | _ => rfl
  called _ _ _ := rfl
  encoded _ _ _ _ := rfl
  sent _ _ := rfl
  held_congr same := same
  held_empty empty := by rw [empty]; rfl

/-- The responder gives octets, and they are queued. -/
theorem ConnCore.Waits.push_response (h : c.Waits .response id waiting) (on : StreamId)
    (data : Bytes) (endStream : Bool) :
    ∃ waiting', ((c.observe (.handled (.data on data endStream))).modifyStream on fun s =>
      { s with
        sendQueue := if data ≠ [] then s.sendQueue ++ [data] else s.sendQueue
        sendEndStream := s.sendEndStream || endStream }).Waits .response id waiting' := by
  by_cases own : on = id
  · subst own
    have said : Gauge.response.traffic on (.handled (.data on data endStream) : ConnObs μ) =
        some (.put data) := if_pos rfl
    refine ⟨waiting ++ data, (Monitor.watch_concat h.read said).trans rfl, fun st' live => ?_⟩
    have live : (c.streams.modify on _).get? on = some st' := live
    rw [StreamTable.get?_modify, if_pos rfl] at live
    obtain ⟨st, hst, rfl⟩ := Option.map_eq_some_iff.mp live
    have held : st.sendQueue.flatten = waiting := h.live st hst
    show (if data ≠ [] then st.sendQueue ++ [data] else st.sendQueue).flatten = waiting ++ data
    rw [← held]
    split
    · simp
    · rename_i empty
      simp [not_not.mp empty]
  · have silent : Gauge.response.traffic id (.handled (.data on data endStream) : ConnObs μ) =
        none := if_neg own
    refine ⟨waiting, (Monitor.watch_silent (by simpa using silent)).trans h.read, fun st live => ?_⟩
    have live : (c.streams.modify on _).get? id = some st := live
    rw [StreamTable.get?_modify, if_neg (Ne.symm own)] at live
    exact h.live st live

variable [Service σ μ] (now : Instant) (limit : Nat)

/-- DATA takes from the front of what waits. -/
theorem ConnCore.Waits.transmit_response (h : c.Waits .response id waiting) {on : StreamId}
    {stream : Stream} (live : c.streams.get? on = some stream) (budget : Nat)
    (sendWindow : Window) :
    ∃ waiting', (c.transmit now on (stream.turn budget) sendWindow limit).Waits .response id
      waiting' := by
  unfold ConnCore.transmit
  dsimp only
  by_cases own : on = id
  · subst own
    have octets : waiting = (stream.turn budget).chunk ++
        (stream.turn budget).rest.sendQueue.flatten := (h.live _ live).symm.trans
      (stream.turn_octets budget)
    have rest : ∀ st', (c.streams.modify on fun _ =>
        { (stream.turn budget).rest with sendWindow }).get? on = some st' →
          st'.sendQueue.flatten = (stream.turn budget).rest.sendQueue.flatten := by
      intro st' live'
      rw [StreamTable.get?_modify, if_pos rfl, live] at live'
      cases live'
      rfl
    split
    · have said : Gauge.response.traffic on (.queued (.data on (stream.turn budget).chunk
          (stream.turn budget).endStream) [] limit : ConnObs μ) =
            some (if (stream.turn budget).endStream then .drain (stream.turn budget).chunk
              else .take (stream.turn budget).chunk) := if_pos rfl
      have sent : ((c.modifyStream on fun _ =>
          { (stream.turn budget).rest with sendWindow }).observe (.queued (.data on
            (stream.turn budget).chunk (stream.turn budget).endStream) [] limit)).Waits .response on
              (stream.turn budget).rest.sendQueue.flatten := by
        refine ⟨(Monitor.watch_concat h.read said).trans ?_, rest⟩
        rw [octets]
        cases ending : (stream.turn budget).endStream with
        | false => exact Traffic.next_take _ _
        | true =>
          have drained : (stream.turn budget).rest.sendQueue = [] :=
            (Stream.turn_endStream stream budget ending).2.1
          rw [drained]
          exact if_pos (List.append_nil _).symm
      exact ⟨_, sent.rests (.settle now limit on (.refl .response on _) _)⟩
    · rename_i nothing
      have empty : (stream.turn budget).chunk = [] := by
        simp at nothing
        exact nothing.1
      rw [empty, List.nil_append] at octets
      exact ⟨waiting, h.read, fun st' live' => (rest st' live').trans octets.symm⟩
  · have other : c.Rests .response id (c.modifyStream on fun _ =>
        { (stream.turn budget).rest with sendWindow }) := by
      refine ⟨fun st' live' => ⟨st', ?_, rfl⟩, .refl _ _⟩
      have live' : (c.streams.modify on _).get? id = some st' := live'
      rwa [StreamTable.get?_modify, if_neg (Ne.symm own)] at live'
    have silent : Gauge.response.traffic id (.queued (.data on (stream.turn budget).chunk
        (stream.turn budget).endStream) [] limit : ConnObs μ) = none := if_neg own
    split
    · exact ⟨waiting, h.rests ((other.observe silent).settle now limit on _)⟩
    · exact ⟨waiting, h.rests other⟩

/-- DATA of the client is no part of the response. -/
theorem ConnCore.Waits.deliver_response (h : c.Waits .response id waiting) (w : WireFrame)
    (on : StreamId) (data : Bytes) (endStream : Bool) (window : RecvWindow)
    (recvWindow : Option RecvWindow) :
    ((c.receive w on data.length window recvWindow).deliver now on data endStream limit).Waits
      .response id waiting := by
  have heard : c.Rests .response id { c.observe (.heard w) with connRecvWindow := window } :=
    (ConnCore.Rests.refl _ id c).aside rfl (.one rfl)
  have received : c.Rests .response id (c.receive w on data.length window recvWindow) :=
    heard.modifyStream on fun _ => rfl
  have settled := h.rests (received.settle now limit on (.recvData endStream))
  unfold ConnCore.deliver
  dsimp only
  split
  · exact settled.rests (.call (.refl _ id _) _ rfl)
  · exact settled

theorem Gauge.response_conveys : (Gauge.response : Gauge μ).Conveys σ where
  push h := h.push_response _ _ _
  transmit now limit budget sendWindow h live :=
    h.transmit_response now limit live budget sendWindow
  deliver now limit window recvWindow h _ _ :=
    ⟨_, h.deliver_response now limit _ _ _ _ window recvWindow⟩

/-! ## Requests -/

/-- What an entry of the log does to the body of the request on `id`. -/
def ConnObs.request? (id : StreamId) : ConnObs μ → Option (Traffic UInt8)
  | .opened on => if on = id then some .clear else none
  | .heard w =>
    match w.data? with
    | some (on, data, _) => if on = id then some (.put data) else none
    | none => none
  | .called (.body on data _) => if on = id then some (.drain data) else none
  | _ => none

theorem ConnObs.request?_heard (id : StreamId) (w : WireFrame) :
    (heard w : ConnObs μ).request? id =
      match w.data? with
      | some (on, data, _) => if on = id then some (.put data) else none
      | none => none := rfl

/-- The body of a request: its stream holds nothing of it. -/
def Gauge.request : Gauge μ where
  traffic := ConnObs.request?
  held _ := []
  opened _ _ := rfl
  heard {_ w _} said := by
    rw [ConnObs.request?_heard] at said
    cases is : w.data? with
    | none => rw [is] at said; cases said
    | some frame =>
      obtain ⟨on, data, endStream⟩ := frame
      rw [is] at said
      obtain ⟨rfl, put⟩ := (Option.ite_none_right_eq_some ..).mp said
      cases put
      exact ⟨data, endStream, rfl, rfl⟩
  handled said := by cases said
  queued _ _ _ _ _ := rfl
  called _ call other := by
    cases call with
    | body => cases other
    | _ => rfl
  encoded _ _ _ _ := rfl
  sent _ _ := rfl
  held_congr _ := rfl
  held_empty _ := rfl

omit [Service σ μ] in
/-- A stream is changed in place. -/
theorem ConnCore.Rests.modify_request (c : ConnCore σ μ) (id on : StreamId) (f : Stream → Stream) :
    c.Rests .request id (c.modifyStream on f) := by
  refine ⟨fun st' live => ?_, .refl _ _⟩
  have live : (c.streams.modify on f).get? id = some st' := live
  rw [StreamTable.get?_modify] at live
  split at live
  · rename_i heq
    subst heq
    obtain ⟨st, hst, rfl⟩ := Option.map_eq_some_iff.mp live
    exact ⟨st, hst, rfl⟩
  · exact ⟨st', live, rfl⟩

/-- DATA is told to the responder as it came. -/
theorem ConnCore.Waits.deliver_request (h : c.Waits .request id waiting) {w : WireFrame}
    {on : StreamId} {data : Bytes} {endStream : Bool} {stream : Stream}
    (frame : w.data? = some (on, data, endStream)) (live : c.streams.get? on = some stream)
    (window : RecvWindow) (recvWindow : Option RecvWindow) :
    ((c.receive w on data.length window recvWindow).deliver now on data endStream limit).Waits
      .request id waiting := by
  by_cases own : on = id
  · subst own
    obtain rfl : [] = waiting := h.live stream live
    have said : Gauge.request.traffic on (.heard w : ConnObs μ) = some (.put data) := by
      refine (ConnObs.request?_heard (μ := μ) on w).trans ?_
      rw [frame]
      exact if_pos rfl
    have heard : fifo.watch (Gauge.request.traffic on)
        (c.receive w on data.length window recvWindow).log = some data :=
      (Monitor.watch_concat h.read said).trans rfl
    obtain ⟨added, hlog, silent⟩ := (ConnCore.Rests.settle now limit on
      (.refl .request on (c.receive w on data.length window recvWindow)) (.recvData endStream)).log
    have settled : fifo.watch (Gauge.request.traffic on) ((c.receive w on data.length window
        recvWindow).settle now on (.recvData endStream) limit).log = some data := by
      rw [hlog]
      exact (Monitor.watch_silent silent).trans heard
    unfold ConnCore.deliver
    dsimp only
    split
    · refine ⟨?_, fun _ _ => rfl⟩
      have handed : Gauge.request.traffic on (.called (.body on data endStream) : ConnObs μ) =
          some (.drain data) := if_pos rfl
      show fifo.watch _ (_ ++ ConnObs.called (.body on data endStream) :: _) = _
      rw [List.append_cons, Monitor.watch_silent]
      · exact (Monitor.watch_concat settled handed).trans (if_pos rfl)
      · intro o ho
        obtain ⟨x, -, hx⟩ := List.mem_filterMap.mp ho
        cases x with
        | emit event => cases hx
        | send message => cases hx; rfl
    · rename_i nothing
      have empty : data = [] := by
        simp at nothing
        exact nothing.1
      exact ⟨settled.trans (congrArg some empty), fun _ _ => rfl⟩
  · have received := (ConnCore.Rests.refl .request id c).receive frame own window recvWindow
    have settled := h.rests (received.settle now limit on (.recvData endStream))
    unfold ConnCore.deliver
    dsimp only
    split
    · exact settled.rests (.call (.refl _ id _) _ (if_neg own))
    · exact settled

theorem Gauge.request_conveys : (Gauge.request : Gauge μ).Conveys σ where
  push {c id on _ data endStream} h :=
    ⟨_, (h.rests (.observe (o := .handled (.data on data endStream)) (.refl _ id c) rfl)).rests
      (.modify_request _ id on _)⟩
  transmit {c id on _ stream} now limit budget sendWindow h _ := by
    have taken := h.rests (.modify_request c id on fun _ =>
      { (stream.turn budget).rest with sendWindow })
    unfold ConnCore.transmit
    dsimp only
    split
    · exact ⟨_, taken.rests (.settle now limit on (.observe (.refl _ id _) rfl) _)⟩
    · exact ⟨_, taken⟩
  deliver now limit window recvWindow h frame live :=
    ⟨_, h.deliver_request now limit frame live window recvWindow⟩

/-! ## Runs -/

namespace Conn

/-- In every run of a client connection the octets of DATA on a stream since it was opened are the
    first of those the responder gave for it, in order; DATA that ends the stream leaves none
    of them behind; and while the connection runs and the stream is live, its send queue
    is the rest. -/
theorem response_in_order {s : Conn σ μ} (h : (machine σ μ).Reachable s) (id : StreamId) :
    (Traffic.since (ConnObs.response? id) s.log).flatMap Traffic.taken <+:
        (Traffic.since (ConnObs.response? id) s.log).flatMap Traffic.given ∧
      (∀ before chunk fields limit after,
        s.log = before ++ .queued (.data id chunk true) fields limit :: after →
          (Traffic.since (ConnObs.response? id) before).flatMap Traffic.given =
            (Traffic.since (ConnObs.response? id) before).flatMap Traffic.taken ++ chunk) ∧
      (s.stop = none → ∀ st, s.streams.get? id = some st →
        (Traffic.since (ConnObs.response? id) s.log).flatMap Traffic.given =
          (Traffic.since (ConnObs.response? id) s.log).flatMap Traffic.taken ++
            st.sendQueue.flatten) := by
  obtain ⟨relays, runs⟩ := in_order h Gauge.response_conveys id
  refine ⟨relays.front, fun before chunk fields limit after hlog => ?_, fun running st live => ?_⟩
  · exact relays.drained hlog (if_pos rfl)
  · obtain ⟨waiting, waits⟩ := runs running
    obtain rfl : st.sendQueue.flatten = waiting := waits.live st live
    exact Traffic.watch_conserved waits.read

/-- The request is echoed: its three octets go out as they came. -/
theorem response_in_order_echoed :
    [1, 2, 3] <+: (Traffic.since (ConnObs.response? (.new 1))
      ((machine Echo Empty).run (withService (.new 4)) echoed).log).flatMap Traffic.given := by
  have reached : (machine Echo Empty).Reachable
      ((machine Echo Empty).run (withService (.new 4)) echoed) :=
    Machine.Reach.run (.init (fresh_withService _)) _ (by simp [echoed, Machine.Meets])
  have sent : (Traffic.since (ConnObs.response? (.new 1))
      ((machine Echo Empty).run (withService (.new 4)) echoed).log).flatMap Traffic.taken =
        [1, 2, 3] := by decide +kernel
  exact sent ▸ (response_in_order reached (.new 1)).1

/-- In every run of a client connection the octets the responder is told of a request since its
    stream was opened are the first of those its DATA brought, in order; every call tells it of all
    that came before it; and while the connection runs and the stream is live it
    was told of all. -/
theorem request_in_order {s : Conn σ μ} (h : (machine σ μ).Reachable s) (id : StreamId) :
    (Traffic.since (ConnObs.request? id) s.log).flatMap Traffic.taken <+:
        (Traffic.since (ConnObs.request? id) s.log).flatMap Traffic.given ∧
      (∀ before data endStream after,
        s.log = before ++ .called (.body id data endStream) :: after →
          (Traffic.since (ConnObs.request? id) before).flatMap Traffic.given =
            (Traffic.since (ConnObs.request? id) before).flatMap Traffic.taken ++ data) ∧
      (s.stop = none → (s.streams.get? id).isSome →
        (Traffic.since (ConnObs.request? id) s.log).flatMap Traffic.given =
          (Traffic.since (ConnObs.request? id) s.log).flatMap Traffic.taken) := by
  obtain ⟨relays, runs⟩ := in_order h Gauge.request_conveys id
  refine ⟨relays.front, fun before data endStream after hlog => ?_, fun running live => ?_⟩
  · exact relays.drained hlog (if_pos rfl)
  · obtain ⟨waiting, waits⟩ := runs running
    obtain ⟨st, live⟩ := Option.isSome_iff_exists.mp live
    obtain rfl : [] = waiting := waits.live st live
    exact (Traffic.watch_conserved waits.read).trans (List.append_nil _)

theorem request_in_order_echoed :
    (Traffic.since (ConnObs.request? (.new 1))
      ((machine Echo Empty).run (withService (.new 4)) echoed).log).flatMap Traffic.given =
        [1, 2, 3] := by
  have reached : (machine Echo Empty).Reachable
      ((machine Echo Empty).run (withService (.new 4)) echoed) :=
    Machine.Reach.run (.init (fresh_withService _)) _ (by simp [echoed, Machine.Meets])
  rw [(request_in_order reached (.new 1)).2.2 (by decide +kernel) (by decide +kernel)]
  decide +kernel

end Conn

end H2Proxy
