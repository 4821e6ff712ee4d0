import H2Proxy.Up.Run
import Mathlib.Logic.Relation

/-
  What an upstream connection can do to its core, as a relation.

  A `Move` is one change the engine makes, with the guard under which it makes it; every
  step of the engine is a sequence of moves (`Upstream.step_moves`, in the next module), so
  an invariant of the moves is an invariant of the connection.

  Four moves are made only where something outside the connection goes wrong in a way the
  engine does not make good, and some only where the backend or a client asks for them. A
  `Mishap` names such a move, and a relation `allows` says which of them a step may make.
-/

namespace H2Proxy

/-- What the environment can provoke. -/
inductive Mishap
  /-- A stream goes and its route stays. -/
  | orphan
  /-- Octets are taken from the connection window and held by nobody. -/
  | overspend
  /-- A client releases more than its route holds. -/
  | overrelease
  /-- A request id that is in use names another request. -/
  | reuse
  /-- The backend drains. -/
  | goAway
  /-- This request arrives. -/
  | arrive (request : RequestId)
  /-- This request is cancelled while it has no stream. -/
  | dismiss (request : RequestId)

/-- A client was told something. -/
def UpObs.isTold : UpObs → Bool
  | told .. => true
  | _ => false

/-- The event ends the peer's side. -/
def StreamEvent.endsRecv : StreamEvent → Bool
  | recvHeaders endStream | recvData endStream => endStream
  | sendRstStream | recvRstStream => true
  | _ => false

namespace UpstreamCore

/-! ## The effects -/

/-- A request gets a stream of its own. -/
def opened (id : StreamId) (request : RequestId) (clientId : StreamId) (events : Events)
    (c : UpstreamCore) : UpstreamCore :=
  { c with
    nextStreamId := satAdd32 c.nextStreamId 2
    streams := (c.streams.openLocal id).1
    routes := c.routes.insert id ⟨clientId, events, request, false, 0⟩
    requests := c.requests.insert request id }

/-- A route goes, and the credit its client held comes back. -/
def unrouted (id : StreamId) (c : UpstreamCore) : UpstreamCore :=
  match c.routes.lookup id with
  | some route =>
    { c with
      routes := c.routes.erase id
      requests := c.requests.erase route.request
      connRecvWindow :=
        if route.pendingConnRelease > 0 then (c.connRecvWindow.release route.pendingConnRelease).1
        else c.connRecvWindow }
  | none => c

theorem unrouted_none {id : StreamId} {c : UpstreamCore} (h : c.routes.lookup id = none) :
    c.unrouted id = c := by
  unfold unrouted
  rw [h]

theorem unrouted_some {id : StreamId} {c : UpstreamCore} {route : Upstream.Route}
    (h : c.routes.lookup id = some route) :
    c.unrouted id =
      { c with
        routes := c.routes.erase id
        requests := c.requests.erase route.request
        connRecvWindow :=
          if route.pendingConnRelease > 0 then (c.connRecvWindow.release route.pendingConnRelease).1
          else c.connRecvWindow } := by
  unfold unrouted
  rw [h]

/-- `forget`, without what it starts. -/
def forgotten (id : StreamId) (c : UpstreamCore) : UpstreamCore := (c.retire id).unrouted id

/-- A client releases `n` octets of a stream. -/
def released (id : StreamId) (n : Nat) (c : UpstreamCore) : UpstreamCore :=
  { c with
    routes := c.routes.modify id fun r => { r with pendingConnRelease := r.pendingConnRelease - n }
    streams := c.streams.modify id fun s => { s with recvWindow := (s.recvWindow.release n).1 }
    connRecvWindow := (c.connRecvWindow.release n).1 }

/-- DATA within both windows arrives on a live stream. -/
def received (id : StreamId) (len : Nat) (connRecvWindow recvWindow : RecvWindow)
    (c : UpstreamCore) : UpstreamCore :=
  { c with
    connRecvWindow
    streams := c.streams.modify id fun s => { s with recvWindow }
    routes := c.routes.modify id fun r =>
      { r with pendingConnRelease := satAdd32 r.pendingConnRelease len } }

/-- A request with this id has a stream or waits for one. -/
def inUse (r : RequestId) (c : UpstreamCore) : Bool :=
  (c.requests.lookup r).isSome || c.pending.any (·.request = r)

/-! ## The moves -/

inductive Move (allows : Mishap → Prop) : UpstreamCore → UpstreamCore → Prop
  /-- Something is observed that tells no client anything. -/
  | note {c : UpstreamCore} (o : UpObs) : o.isTold = false → Move allows c (c.observe o)
  | publish {c : UpstreamCore} (published : Upstream.Published) : Move allows c { c with published }
  /-- The send side of a stream changes. -/
  | stream {c : UpstreamCore} (id : StreamId) (f : Stream → Stream) :
    (∀ s, c.streams.get? id = some s → (f s).state = s.state ∧ (f s).recvWindow = s.recvWindow) →
    Move allows c (c.modifyStream id f)
  | ceiling {c : UpstreamCore} (maxConcurrent : Nat) :
    Move allows c { c with streams := { c.streams with maxConcurrent } }
  | shift {c : UpstreamCore} (delta : Int) :
    Move allows c { c with streams := (c.streams.applyInitialWindowDelta delta).1 }
  /-- A stream takes a legal event that does not end the backend's side. -/
  | advance {c : UpstreamCore} {id : StreamId} {event : StreamEvent} {next : StreamState} :
    (c.streams.apply id event).2 = .ok next → event.endsRecv = false →
    Move allows c { c with streams := (c.streams.apply id event).1 }
  /-- A stream is dropped that is not there. -/
  | sweep {c : UpstreamCore} {id : StreamId} :
    c.streams.get? id = none → Move allows c (c.retire id)
  /-- A stream is dropped and nothing else. -/
  | orphan {c : UpstreamCore} (id : StreamId) : allows .orphan → Move allows c (c.retire id)
  | forget {c : UpstreamCore} (id : StreamId) : Move allows c (c.forgotten id)
  /-- A client is told something about a request that has no stream. -/
  | answer {c : UpstreamCore} (request : RequestId) (events : Events) (event : ServiceEvent) :
    Move allows c (c.observe (.told request events event))
  /-- A client is told something about its stream. -/
  | tell {c : UpstreamCore} {id : StreamId} {route : Upstream.Route} (event : ServiceEvent) :
    c.routes.lookup id = some route →
    Move allows c (c.observe (.told route.request route.events event))
  /-- A response head is passed on. -/
  | head {c : UpstreamCore} (id : StreamId) :
    Move allows c (c.modifyRoute id ({ · with headSent := true }))
  /-- A cancelled request arrives. -/
  | uncancel {c : UpstreamCore} (request : RequestId) :
    Move allows c { c with cancelled := c.cancelled.filter (· ≠ request) }
  /-- A request is cancelled that has no stream. -/
  | cancel {c : UpstreamCore} (request : RequestId) : allows (.dismiss request) →
    Move allows c { c with cancelled := c.cancelled.insert request }
  | unwait {c : UpstreamCore} (request : RequestId) :
    Move allows c { c with pending := c.pending.filter (·.request ≠ request) }
  | wait {c : UpstreamCore} (p : Pending) : allows (.arrive p.request) →
    (c.inUse p.request → allows .reuse) →
    Move allows c { c with pending := c.pending ++ [p] }
  | amend {c : UpstreamCore} (request : RequestId) (f : Pending → Pending) :
    (∀ p, (f p).request = p.request) → Move allows c (c.modifyPending request f)
  /-- An id is used up on a request that gets no stream. -/
  | skip {c : UpstreamCore} : Move allows c { c with nextStreamId := satAdd32 c.nextStreamId 2 }
  /-- A request that has just arrived gets a stream. -/
  | accept {c : UpstreamCore} {id : StreamId} (request : RequestId) (clientId : StreamId)
    (events : Events) : (c.streams.openLocal id).2 = .ok () → allows (.arrive request) →
    (c.inUse request → allows .reuse) → Move allows c (c.opened id request clientId events)
  /-- The oldest waiting request gets none after all. -/
  | take {c : UpstreamCore} {p : Pending} {pending : List Pending} :
    c.pending = p :: pending → Move allows c { c with pending }
  /-- The oldest waiting request gets a stream. -/
  | start {c : UpstreamCore} {p : Pending} {pending : List Pending} {id : StreamId} :
    c.pending = p :: pending → (c.streams.openLocal id).2 = .ok () →
    Move allows c ({ c with pending }.opened id p.request p.clientId p.events)
  /-- The backend drains; nobody waits any longer. -/
  | drain {c : UpstreamCore} (last : StreamId) (deadline : Instant) : allows .goAway →
    Move allows c { c with peerDraining := some (last, deadline), pending := [] }
  | receive {c : UpstreamCore} {id : StreamId} {stream : Stream} {len : Nat}
    {connRecvWindow recvWindow : RecvWindow} : c.streams.get? id = some stream →
    c.connRecvWindow.record len = .ok connRecvWindow → stream.recvWindow.record len = .ok recvWindow →
    Move allows c (c.received id len connRecvWindow recvWindow)
  /-- DATA for a closed stream is credited at once. -/
  | giveBack {c : UpstreamCore} {len : Nat} {connRecvWindow : RecvWindow} :
    c.connRecvWindow.record len = .ok connRecvWindow →
    Move allows c { c with connRecvWindow := (connRecvWindow.release len).1 }
  | overspend {c : UpstreamCore} {len : Nat} {connRecvWindow : RecvWindow} :
    c.connRecvWindow.record len = .ok connRecvWindow → allows .overspend →
    Move allows c { c with connRecvWindow }
  | release {c : UpstreamCore} {request : RequestId} {id : StreamId} {n : Nat} :
    c.requests.lookup request = some id →
    (∀ route, c.routes.lookup id = some route → route.pendingConnRelease < n →
      allows .overrelease) →
    Move allows c (c.released id n)

variable {allows : Mishap → Prop} {c c' c'' : UpstreamCore}

/-- A sequence of moves. -/
abbrev Moves (allows : Mishap → Prop) : UpstreamCore → UpstreamCore → Prop :=
  Relation.ReflTransGen (Move allows)

/-- What the moves keep, sequences of them keep. -/
theorem Moves.invariant {I : UpstreamCore → Prop}
    (step : ∀ c c', I c → Move allows c c' → I c') (hm : Moves allows c c') (h : I c) : I c' := by
  induction hm with
  | refl => exact h
  | tail _ hm ih => exact step _ _ ih hm

/-! ## Dropping a stream -/

theorem get?_retire (id id' : StreamId) (c : UpstreamCore) :
    (c.retire id).streams.get? id' = if id' = id then none else c.streams.get? id' :=
  c.streams.get?_retire id id'

/-- Dropping a stream takes it out of the table, where it is there. -/
theorem retire_eq (id : StreamId) (c : UpstreamCore) :
    c.retire id =
      { c with streams := { c.streams with live := c.streams.live.erase id, reclaimed := 0 } } := by
  unfold retire StreamTable.retire
  cases hs : c.streams.get? id with
  | some s => rfl
  | none =>
    rw [AList.erase_of_none (show c.streams.live.lookup id = none from hs)]

/-- The cores differ at most in one stream, which is about to go. -/
def Loses (id : StreamId) (c c' : UpstreamCore) : Prop := c'.retire id = c.retire id

namespace Loses

variable {id : StreamId}

theorem refl (c : UpstreamCore) : Loses id c c := rfl

theorem trans (h : Loses id c c') (h' : Loses id c' c'') : Loses id c c'' := Eq.trans h' h

theorem retired (c : UpstreamCore) : Loses id c (c.retire id) := by
  unfold Loses
  rw [retire_eq, retire_eq]
  simp only [AList.erase_of_none (AList.lookup_erase id c.streams.live)]

theorem modified (f : Stream → Stream) (c : UpstreamCore) : Loses id c (c.modifyStream id f) := by
  unfold Loses
  rw [retire_eq, retire_eq]
  simp only [modifyStream, StreamTable.modify, AList.erase_modify]

/-- An event changes the stream it is applied to, or ends it. -/
theorem applied (event : StreamEvent) (c : UpstreamCore) :
    Loses id c { c with streams := (c.streams.apply id event).1 } := by
  unfold StreamTable.apply
  cases c.streams.get? id with
  | none => exact refl c
  | some s =>
    dsimp only
    cases s.state.transition event with
    | error code => exact refl c
    | ok next =>
      dsimp only
      have changed : Loses id c _ := modified ({ · with state := next }) c
      split
      · refine changed.trans ?_
        unfold Loses
        rw [retire_eq, retire_eq]
        unfold StreamTable.retire
        cases (c.streams.modify id ({ · with state := next })).get? id with
        | none => rfl
        | some s' =>
          simp only [modifyStream, AList.erase_of_none (AList.lookup_erase id _)]
      · exact changed

theorem log (h : Loses id c c') (notes : List UpObs) :
    Loses id { c with log := c.log ++ notes } { c' with log := c'.log ++ notes } := by
  unfold Loses
  show { c'.retire id with log := (c'.retire id).log ++ notes } =
    { c.retire id with log := (c.retire id).log ++ notes }
  rw [h]

theorem routes (h : Loses id c c') : c'.routes = c.routes := congrArg (·.routes) h

theorem forgotten (h : Loses id c c') : c'.forgotten id = c.forgotten id :=
  congrArg (·.unrouted id) h

end Loses

/-! ## Noting -/

/-- Nothing changed but the log, which tells no client anything. -/
def Noted (c c' : UpstreamCore) : Prop :=
  ∃ notes, (∀ o ∈ notes, UpObs.isTold o = false) ∧ c' = { c with log := c.log ++ notes }

namespace Noted

theorem refl (c : UpstreamCore) : Noted c c := ⟨[], by simp, by simp⟩

theorem one {o : UpObs} (h : o.isTold = false) (c : UpstreamCore) : Noted c (c.observe o) :=
  ⟨[o], fun _ ho => List.mem_singleton.mp ho ▸ h, rfl⟩

theorem trans (h : Noted c c') (h' : Noted c' c'') : Noted c c'' := by
  obtain ⟨notes, hn, rfl⟩ := h
  obtain ⟨notes', hn', rfl⟩ := h'
  refine ⟨notes ++ notes', fun o ho => ?_, by simp⟩
  obtain ho | ho := List.mem_append.mp ho
  · exact hn o ho
  · exact hn' o ho

theorem moves (h : Noted c c') : Moves allows c c' := by
  obtain ⟨notes, hn, rfl⟩ := h
  induction notes generalizing c with
  | nil => rw [List.append_nil]
  | cons o notes ih =>
    have first : Move allows c (c.observe o) := .note o (hn o List.mem_cons_self)
    have rest := ih (c := c.observe o) fun o' ho' => hn o' (List.mem_cons_of_mem _ ho')
    rw [UpstreamCore.observe, List.append_assoc] at rest
    exact .head first rest

theorem streams (h : Noted c c') : c'.streams = c.streams := by
  obtain ⟨notes, -, rfl⟩ := h
  rfl

theorem routes (h : Noted c c') : c'.routes = c.routes := by
  obtain ⟨notes, -, rfl⟩ := h
  rfl

end Noted

/-- Notes may be taken before or after a stream is lost. -/
theorem Loses.noted {id : StreamId} (h : Loses id c c') (hn : Noted c' c'') :
    ∃ d, Noted c d ∧ Loses id d c'' := by
  obtain ⟨notes, silent, rfl⟩ := hn
  exact ⟨_, ⟨notes, silent, rfl⟩, h.log notes⟩

end UpstreamCore

end H2Proxy
