import H2Proxy.Proxy.Run

/-
  What the log calls sent was sent.

  `place` alone sends a request to a backend, and writes it down beside that. So every call sends
  one request at most, and writes down that one (`Once`); its stream is then routed by the lease it
  was sent on to the backend that is written down. Over a run the requests among the effects are
  those of the log, one for one and in order (`sent_as_logged`).
-/

namespace H2Proxy

/-- It says that a request was sent. -/
def ProxyObs.isSent : ProxyObs → Bool
  | sent .. => true
  | _ => false

/-- A request goes to a backend. -/
def asksBackend : Effect ToConn → Bool
  | .send (_, .request ..) => true
  | _ => false

/-- A request on its way to a backend: what is written down of it, and what is sent. -/
structure Sending where
  request : Nat
  backend : Backend
  among : List Backend
  lease : Lease
  stream : StreamId
  head : RequestHead
  endStream : Bool
  events : Events

namespace Sending

def entry (x : Sending) : ProxyObs := .sent x.request x.backend x.among

def effect (x : Sending) : Effect ToConn :=
  .send (x.lease.record, .request x.lease.id x.stream x.head x.endStream x.events)

end Sending

namespace Seat

variable {s t u : Seat}

/-- No request was sent, and none written down as sent. -/
structure Still (s t : Seat) : Prop where
  log : t.shared.log.filter ProxyObs.isSent = s.shared.log.filter ProxyObs.isSent
  effects : t.effects.filter asksBackend = s.effects.filter asksBackend

/-- This request alone was sent and written down, and its stream is routed accordingly. -/
structure Sends (x : Sending) (s t : Seat) : Prop where
  log : t.shared.log.filter ProxyObs.isSent = s.shared.log.filter ProxyObs.isSent ++ [x.entry]
  effects : t.effects.filter asksBackend = s.effects.filter asksBackend ++ [x.effect]
  routed : ∃ route, t.proxy.routes.lookup x.stream = some route ∧ route.lease = x.lease ∧
    route.backend = x.backend ∧ route.request = x.request

/-- A request is sent and written down once, or not at all. -/
def Once (s t : Seat) : Prop := Still s t ∨ ∃ x, Sends x s t

namespace Still

theorem refl (s : Seat) : Still s s := ⟨rfl, rfl⟩

theorem trans (h : Still s t) (h' : Still t u) : Still s u :=
  ⟨h'.log.trans h.log, h'.effects.trans h.effects⟩

theorem same (log : t.shared.log = s.shared.log) (effects : t.effects = s.effects) : Still s t :=
  ⟨by rw [log], by rw [effects]⟩

/-- Something else is written down. -/
theorem noted (o : ProxyObs) (log : t.shared.log = s.shared.log ++ [o])
    (effects : t.effects = s.effects) (h : o.isSent = false) : Still s t := by
  refine ⟨?_, by rw [effects]⟩
  rw [log, List.filter_append, List.filter_cons_of_neg (by rw [h]; nofun)]
  exact List.append_nil _

theorem emit (s : Seat) (event : ServiceEvent) : Still s (s.emit event) := by
  unfold Seat.emit
  split
  · refine ⟨rfl, ?_⟩
    rw [List.filter_append]
    exact List.append_nil _
  · exact refl s

/-- Something else is sent. -/
theorem send (s : Seat) (lease : Lease) {message : ToUpstream}
    (h : asksBackend (.send (lease.record, message)) = false) : Still s (s.send lease message) := by
  unfold Seat.send
  split
  · refine ⟨rfl, ?_⟩
    rw [List.filter_append, List.filter_cons_of_neg (by rw [h]; nofun)]
    exact List.append_nil _
  · exact refl s

theorem withRoutes (s : Seat) (f : FinMap StreamId Route → FinMap StreamId Route) :
    Still s (s.withRoutes f) := same rfl rfl

theorem finished (s : Seat) (now : Instant) (route : Route) : Still s (s.finished now route) :=
  noted (.observed route.request (now - route.started)) rfl rfl rfl

theorem synthesized (s : Seat) (id : StreamId) (status : Nat) :
    Still s (s.synthesized id status) := by
  unfold Seat.synthesized
  split
  · exact refl s
  · exact same rfl rfl

theorem interceptHead (s : Seat) (id : StreamId) (response : Response) (endStream : Bool) :
    Still s (s.interceptHead id response endStream) := by
  unfold Seat.interceptHead
  cases s.proxy.routes.lookup id with
  | none => exact same rfl rfl
  | some route => exact noted (.heard route.request (.head id response endStream)) rfl rfl rfl

theorem interceptShed (s : Seat) (id : StreamId) : Still s (s.interceptShed id) := by
  have counted := synthesized s id 503
  unfold Seat.interceptShed
  generalize s.synthesized id 503 = t at counted
  dsimp only
  cases t.proxy.routes.lookup id with
  | none => exact counted
  | some route => exact counted.trans (noted (.heard route.request (.shed id)) rfl rfl rfl)

theorem dropRoutes (s : Seat) (now : Instant) (routes : List (Sigma fun _ : StreamId => Route)) :
    Still s (s.dropRoutes now routes) := by
  induction routes generalizing s with
  | nil => exact refl s
  | cons r routes ih =>
    obtain ⟨id, route⟩ := r
    have ended : Still s
        (((s.removeRoute id).finished now route).withShared (·.dropLease route.lease)) :=
      noted (.observed route.request (now - route.started)) rfl rfl rfl
    exact ended.trans (ih _)

theorem accepted (s : Seat) (id : StreamId) (data : Bytes) : Still s (s.accepted id data) := by
  unfold Seat.accepted
  dsimp only
  split
  · exact emit s _
  · exact refl s

theorem body (s : Seat) (id : StreamId) (data : Bytes) (endStream : Bool) :
    Still s (s.body id data endStream) := by
  unfold Seat.body
  cases s.proxy.routes.lookup id with
  | none => exact accepted s id data
  | some route =>
    dsimp only
    split
    · exact refl s
    · split
      · exact (withRoutes s _).trans (send _ _ rfl)
      · exact (withRoutes s _).trans (accepted _ id data)

theorem trailers (s : Seat) (id : StreamId) (fields : List Header) :
    Still s (s.trailers id fields) := by
  unfold Seat.trailers
  cases s.proxy.routes.lookup id with
  | none => exact refl s
  | some route => exact (withRoutes s _).trans (send _ _ rfl)

theorem cancel (s : Seat) (now : Instant) (id : StreamId) (code : ErrorCode) :
    Still s (s.cancel now id code) := by
  unfold Seat.cancel
  cases s.proxy.routes.lookup id with
  | none => exact refl s
  | some route =>
    have sent : Still s ((s.removeRoute id).send route.lease (.cancel route.lease.id code)) :=
      (withRoutes s _).trans (send _ _ rfl)
    exact (sent.trans (finished _ now route)).trans (same rfl rfl)

theorem finish (s : Seat) (now : Instant) (id : StreamId) : Still s (s.finish now id) := by
  unfold Seat.finish
  cases s.proxy.routes.lookup id with
  | none => exact refl s
  | some route => exact noted (.observed route.request (now - route.started)) rfl rfl rfl

theorem released (s : Seat) (id : StreamId) (n : Nat) : Still s (s.released id n) := by
  unfold Seat.released
  cases s.proxy.routes.lookup id with
  | none => exact refl s
  | some route => exact send s _ rfl

end Still

theorem insertRoute_routes (s : Seat) (id : StreamId) (route : Route) :
    (s.insertRoute id route).proxy.routes.lookup id = some route := by
  unfold insertRoute
  split <;> exact AList.lookup_insert _

/-- A request is sent where it is placed, and written down. -/
theorem place_sends {lease : Lease} (taken : s.reaches lease = true) (id : StreamId)
    (events : Events) (backend : Backend) (among : List Backend) (now : Instant) (a : Attempt) :
    Sends ⟨a.request, backend, among, lease, id, a.head, a.endStream, events⟩ s
      (s.place id lease events backend among now a) := by
  have inserted : ∀ (t : Seat) (route : Route),
      (t.insertRoute id route).shared.log = t.shared.log ∧
        (t.insertRoute id route).effects = t.effects := by
    intro t route
    unfold insertRoute
    split <;> exact ⟨rfl, rfl⟩
  have routed := fun t => insertRoute_routes t id
  unfold place Seat.send
  rw [if_pos taken]
  refine ⟨?_, ?_, ⟨_, routed _ _, rfl, rfl, rfl⟩⟩
  · rw [(inserted _ _).1]
    cases a.carry with
    | some start => exact List.filter_append ..
    | none =>
      show ((s.shared.log ++ [_]) ++ [_]).filter _ = _
      rw [List.filter_append, List.filter_append]
      exact List.append_nil _
  · rw [(inserted _ _).2]
    cases a.carry <;> exact List.filter_append ..

namespace Once

theorem after (h : Once t u) (first : Still s t) : Once s u := by
  obtain still | ⟨x, sends⟩ := h
  · exact .inl (first.trans still)
  · refine .inr ⟨x, ?_, ?_, sends.routed⟩
    · rw [sends.log, first.log]
    · rw [sends.effects, first.effects]

/-- Afterwards neither the log, the effects nor the routes change. -/
theorem shared (h : Once s t) (log : u.shared.log = t.shared.log) (effects : u.effects = t.effects)
    (proxy : u.proxy = t.proxy) : Once s u := by
  obtain still | ⟨x, sends⟩ := h
  · exact .inl (still.trans (.same log effects))
  · refine .inr ⟨x, ?_, ?_, ?_⟩
    · rw [log, sends.log]
    · rw [effects, sends.effects]
    · rw [proxy]
      exact sends.routed

theorem deliver (s : Seat) (id : StreamId) (lease : Lease) (backend : Backend)
    (among : List Backend) (now : Instant) (a : Attempt) :
    Once s (s.deliver id lease backend among now a) := by
  unfold Seat.deliver
  cases s.proxy.events with
  | none => exact .inl (.same rfl rfl)
  | some events =>
    dsimp only
    split
    · rename_i taken
      exact .inr ⟨_, place_sends taken id events backend among now a⟩
    · have failed : Still s (s.withShared (·.failure backend now)) := .same rfl rfl
      have answered := failed.trans (.emit _ (.head id (.ofStatus 503) true))
      exact .inl (answered.trans (.same rfl rfl))

/-- An attempt sends its request once or not at all. -/
theorem attempt (s : Seat) (id : StreamId) (now : Instant) (a : Attempt) :
    Once s (s.attempt id now a) := by
  have picked : Still s { s with shared := (s.shared.pick a.exclude now).2 } := by
    unfold Shared.pick
    split <;> exact .same rfl rfl
  unfold Seat.attempt
  dsimp only
  split
  · exact .inl (picked.trans (.emit _ _))
  · rename_i backend _
    have leased : Still s { s with
        shared := ((s.shared.pick a.exclude now).2.checkout backend now).2 } :=
      picked.trans (.same rfl rfl)
    split
    · exact .inl (leased.trans (.emit _ _))
    · exact (deliver _ id _ backend _ now a).after leased

/-- A retry is one more attempt. -/
theorem retry {id : StreamId} {now : Instant} (h : s.retry id now = some t) : Once s t := by
  unfold Seat.retry at h
  split at h
  · cases h
  · split at h
    · cases h
    · cases h
      have withdrawn : Still s (s.withdraw id) := .same rfl rfl
      exact ((attempt (s.withdraw id) id now _).after withdrawn).shared rfl rfl rfl

theorem interceptGone (s : Seat) (now : Instant) (id : StreamId) :
    Once s (s.interceptGone now id).1 := by
  unfold Seat.interceptGone
  cases s.proxy.routes.lookup id with
  | none => exact .inl (.refl s)
  | some route =>
    have first : Still s ((s.heard route (.gone id)).withShared (·.failure route.backend now)) :=
      .noted (.heard route.request (.gone id)) rfl rfl rfl
    dsimp only
    split
    · rename_i retried
      exact (retry retried).after first
    · exact .inl ((first.trans (.synthesized _ id 502)).trans (.same rfl rfl))

theorem interceptReset (s : Seat) (now : Instant) (id : StreamId) (code : ErrorCode) :
    Once s (s.interceptReset now id code).1 := by
  unfold Seat.interceptReset
  cases s.proxy.routes.lookup id with
  | none => exact .inl (.refl s)
  | some route =>
    have first : Still s (s.heard route (.reset id code)) :=
      .noted (.heard route.request (.reset id code)) rfl rfl rfl
    dsimp only
    split
    · split
      · rename_i retried
        exact (retry retried).after first
      · exact .inl (first.trans (.same rfl rfl))
    · exact .inl (first.trans (.same rfl rfl))

theorem intercept (s : Seat) (now : Instant) (event : ServiceEvent) :
    Once s (s.intercept now event).1 := by
  cases event with
  | head id response endStream => exact .inl (.interceptHead s id response endStream)
  | gone id => exact interceptGone s now id
  | shed id => exact .inl (.interceptShed s id)
  | reset id code => exact interceptReset s now id code
  | _ => exact .inl (.refl s)

/-- A call sends and writes down one request, or none. -/
theorem call (s : Seat) (now : Instant) (c : Call) : Once s (s.call now c) := by
  cases c with
  | dispatch id head endStream =>
    have asked : Still s (s.ask head endStream) :=
      .noted (.asked s.shared.serial head endStream) rfl rfl rfl
    exact (attempt _ id now _).after asked
  | body id data endStream => exact .inl (.body s id data endStream)
  | trailers id fields => exact .inl (.trailers s id fields)
  | cancel id code => exact .inl (.cancel s now id code)
  | finish id => exact .inl (.finish s now id)
  | released id n => exact .inl (.released s id n)
  | intercept event => exact intercept s now event
  | drop => exact .inl ((Still.dropRoutes s now s.proxy.routes.entries).trans (.same rfl rfl))

end Once

end Seat

namespace Site

/-- These requests were sent, each by its client's proxy, and written down, in this order. -/
structure Sent (sendings : List (Nat × Sending)) (s : Site) : Prop where
  log : s.shared.log.filter ProxyObs.isSent = sendings.map (·.2.entry)
  effects : (s.effects.filter fun e => asksBackend e.2) = sendings.map fun x => (x.1, x.2.effect)

theorem Sent.call {sendings : List (Nat × Sending)} {s : Site} (h : s.Sent sendings) (client : Nat)
    (now : Instant) (c : Call) : ∃ sendings, (step (now, .call client c) s).Sent sendings := by
  unfold step
  dsimp only
  split
  · exact ⟨sendings, h⟩
  · rename_i proxy _
    have mapped : ∀ es : List (Effect ToConn),
        ((s.effects ++ es.map (client, ·)).filter fun e => asksBackend e.2) =
          (s.effects.filter fun e => asksBackend e.2) ++
            (es.filter asksBackend).map (client, ·) := by
      intro es
      rw [List.filter_append, List.filter_map]
      rfl
    obtain still | ⟨x, sends⟩ := Seat.Once.call ⟨proxy, s.shared, []⟩ now c
    · refine ⟨sendings, still.log.trans h.log, ?_⟩
      dsimp only
      rw [mapped, still.effects]
      exact (List.append_nil _).trans h.effects
    · refine ⟨sendings ++ [(client, x)], ?_, ?_⟩
      · rw [List.map_append, ← h.log]
        exact sends.log
      · dsimp only
        rw [mapped, sends.effects, h.effects, List.map_append, List.map_append]
        rfl

/-- In every run the requests that were sent are those the log calls sent, in order. -/
theorem sent_as_logged {s : Site} (h : machine.Reachable s) : ∃ sendings, s.Sent sendings := by
  refine h.invariant (I := fun s => ∃ sendings, Sent sendings s) ?_ ?_
  · rintro s ⟨backends, maxConns, policy, tuning, now, rfl⟩
    exact ⟨[], rfl, rfl⟩
  · rintro s ⟨now, i⟩ ⟨sendings, hs⟩ -
    cases i with
    | connect client peer trust =>
      show ∃ sendings, (step (now, .connect client peer trust) s).Sent sendings
      unfold step
      dsimp only
      split
      · exact ⟨sendings, hs⟩
      · exact ⟨sendings, hs.log, hs.effects⟩
    | report conn r => cases r <;> exact ⟨sendings, hs.log, hs.effects⟩
    | call client c => exact hs.call client now c

end Site

end H2Proxy
