import H2Proxy.Proxy.State

/-
  The request path (`Proxy` in `core/src/proxy.rs`).

  `Seat` is what one call works on: the proxy, what all proxies share, and what the call
  does to the outside so far. A call reads the clock once, as `now`. The functions of the
  source follow in their order; `intercept` also writes down what it heard about a routed
  stream.
-/

namespace H2Proxy

/-- A message to an upstream connection. -/
abbrev ToConn := ConnId × ToUpstream

structure Seat where
  proxy : Proxy
  shared : Shared
  effects : List (Effect ToConn)

namespace Seat

def withShared (f : Shared → Shared) (s : Seat) : Seat := { s with shared := f s.shared }

def withRoutes (f : FinMap StreamId Route → FinMap StreamId Route) (s : Seat) : Seat :=
  { s with proxy := { s.proxy with routes := f s.proxy.routes } }

def emit (event : ServiceEvent) (s : Seat) : Seat :=
  if s.proxy.events.isSome then { s with effects := s.effects ++ [.emit event] } else s

/-- Whether a message on this lease would still be taken. -/
def reaches (lease : Lease) (s : Seat) : Bool := !(s.shared.pool.record lease.record).handleClosed

/-- `Lease::send`, which does nothing where the connection is gone. -/
def send (lease : Lease) (message : ToUpstream) (s : Seat) : Seat :=
  if s.reaches lease then { s with effects := s.effects ++ [.send (lease.record, message)] } else s

/-- Answer a request without a backend. -/
def answerLocally (id : StreamId) (status : Nat) (s : Seat) : Seat :=
  s.emit (.head id (.ofStatus status) true)

/-- `routes.insert`, which drops the route that was there. -/
def insertRoute (id : StreamId) (route : Route) (s : Seat) : Seat :=
  let s := match s.proxy.routes.lookup id with
    | some old => s.withShared (·.dropLease old.lease)
    | none => s
  s.withRoutes (·.insert id route)

/-- `routes.remove`; the caller drops the route. -/
def removeRoute (id : StreamId) (s : Seat) : Seat := s.withRoutes (·.erase id)

/-- The request is on its way: count it, and route its stream. -/
def place (id : StreamId) (lease : Lease) (events : Events) (backend : Backend)
    (among : List Backend) (now : Instant) (a : Attempt) (s : Seat) : Seat :=
  let s := s.send lease (.request lease.id id a.head a.endStream events)
  let s := s.withShared (·.withStats (·.request))
  let s := s.withShared (·.observe (.sent a.request backend among))
  let s := match a.carry with
    | some _ => s
    | none =>
      (s.withShared (·.withStats (·.openClientStream))).withShared (·.observe (.opened a.request))
  s.insertRoute id
    { lease, requestDone := a.endStream, backend, head := a.spare, attempts := a.attempts
      responseStarted := false, started := a.carry.getD now, request := a.request
      ended := false }

/-- Send an attempt on its lease. -/
def deliver (id : StreamId) (lease : Lease) (backend : Backend) (among : List Backend)
    (now : Instant) (a : Attempt) (s : Seat) : Seat :=
  match s.proxy.events with
  | none => s.withShared (·.dropLease lease)
  | some events =>
    if s.reaches lease then s.place id lease events backend among now a
    else
      -- The connection died since the checkout, which says something about the backend.
      ((s.withShared (·.failure backend now)).answerLocally id 503).withShared (·.dropLease lease)

/-- Send one attempt of a request to a backend. -/
def attempt (id : StreamId) (now : Instant) (a : Attempt) (s : Seat) : Seat :=
  let among := (s.shared.eligible now).map (·.backend)
  let (picked, shared) := s.shared.pick a.exclude now
  let s := { s with shared }
  match picked with
  | none => s.answerLocally id 503
  | some backend =>
    let (checkout, shared) := s.shared.checkout backend now
    let s := { s with shared }
    match checkout with
    | .error _ => s.answerLocally id 503
    | .ok lease => s.deliver id lease backend among now a

/-- A stream is over: close its gauge and record what it cost. -/
def finished (now : Instant) (route : Route) (s : Seat) : Seat :=
  (s.withShared (·.withStats (·.closeClientStream))).withShared fun sh =>
    (sh.withStats (·.observeLatency (now - route.started))).observe
      (.observed route.request (now - route.started))

/-- The head to send again, where sending it again is safe. -/
def spare (route : Route) : Option RequestHead :=
  if route.responseStarted ∨ route.attempts ≥ maxAttempts then none else route.head

/-- Take a route out before its request is sent again. -/
def withdraw (id : StreamId) (s : Seat) : Seat :=
  (s.removeRoute id).withShared (·.withStats (·.retry))

/-- Try a stream again; `none` where that is not safe. -/
def retry (id : StreamId) (now : Instant) (s : Seat) : Option Seat :=
  match s.proxy.routes.lookup id with
  | none => none
  | some route =>
    match spare route with
    | none => none
    | some head =>
      let s := (s.withdraw id).attempt id now
        { head, endStream := true, spare := some head, exclude := some route.backend
          attempts := route.attempts + 1, carry := some route.started, request := route.request }
      -- The rest of the route, its lease with it, goes out of scope here.
      some (s.withShared (·.dropLease route.lease))

/-- Count an answer the engine will write, unless the response has begun. -/
def synthesized (id : StreamId) (status : Nat) (s : Seat) : Seat :=
  if (s.proxy.routes.lookup id).any (·.responseStarted) then s
  else s.withShared (·.withStats (·.response status))

/-! ## `Service` -/

/-- Whether a request could ever be sent again. -/
def retryable (head : RequestHead) (endStream : Bool) : Bool :=
  endStream && idempotent.contains head.method

/-- A request came: it gets a number. -/
def ask (head : RequestHead) (endStream : Bool) (s : Seat) : Seat :=
  s.withShared fun sh =>
    { sh.observe (.asked sh.serial head endStream) with serial := sh.serial + 1 }

/-- The head as it is forwarded. -/
def forwarded (head : RequestHead) (s : Seat) : RequestHead :=
  addForwarded s.proxy.peer s.proxy.trustForwarded (sanitize head)

def dispatch (now : Instant) (id : StreamId) (head : RequestHead) (endStream : Bool) (s : Seat) :
    Seat :=
  let forward := s.forwarded head
  (s.ask head endStream).attempt id now
    { head := forward, endStream
      spare := if retryable forward endStream then some forward else none
      exclude := none, attempts := 1, carry := none, request := s.shared.serial }

def accepted (id : StreamId) (data : Bytes) (s : Seat) : Seat :=
  let n := data.length % 2 ^ 32
  if n > 0 then s.emit (.bodyAccepted id n) else s

def body (id : StreamId) (data : Bytes) (endStream : Bool) (s : Seat) : Seat :=
  match s.proxy.routes.lookup id with
  | none => s.accepted id data
  | some route =>
    if route.requestDone then s
    else
      let s := s.withRoutes (·.modify id fun r => { r with requestDone := endStream })
      if s.reaches route.lease then s.send route.lease (.body route.lease.id data endStream)
      else s.accepted id data

def trailers (id : StreamId) (fields : List Header) (s : Seat) : Seat :=
  match s.proxy.routes.lookup id with
  | none => s
  | some route =>
    (s.withRoutes (·.modify id fun r => { r with requestDone := true })).send route.lease
      (.trailers route.lease.id fields)

def cancel (now : Instant) (id : StreamId) (code : ErrorCode) (s : Seat) : Seat :=
  match s.proxy.routes.lookup id with
  | none => s
  | some route =>
    (((s.removeRoute id).send route.lease (.cancel route.lease.id code)).finished now
      route).withShared (·.dropLease route.lease)

def finish (now : Instant) (id : StreamId) (s : Seat) : Seat :=
  match s.proxy.routes.lookup id with
  | none => s
  | some route => ((s.removeRoute id).finished now route).withShared (·.dropLease route.lease)

def released (id : StreamId) (n : Nat) (s : Seat) : Seat :=
  match s.proxy.routes.lookup id with
  | none => s
  | some route => s.send route.lease (.released route.lease.id n)

/-- An event came for a routed stream. -/
def heard (route : Route) (event : ServiceEvent) (s : Seat) : Seat :=
  s.withShared (·.observe (.heard route.request event))

/-- The end of a route is passed on. -/
def settle (id : StreamId) (s : Seat) : Seat :=
  s.withRoutes (·.modify id fun r => { r with ended := true })

def interceptHead (id : StreamId) (response : Response) (endStream : Bool) (s : Seat) : Seat :=
  let s := match s.proxy.routes.lookup id with
    | none => s
    | some route =>
      ((s.heard route (.head id response endStream)).withRoutes
        (·.modify id fun r => { r with responseStarted := true })).withShared
        (·.success route.backend)
  s.withShared (·.withStats (·.response response.status))

def interceptGone (now : Instant) (id : StreamId) (s : Seat) : Seat × Option ServiceEvent :=
  match s.proxy.routes.lookup id with
  | none => (s, some (.gone id))
  | some route =>
    let s := (s.heard route (.gone id)).withShared (·.failure route.backend now)
    match s.retry id now with
    | some s => (s, none)
    | none => ((s.synthesized id 502).settle id, some (.gone id))

def interceptShed (id : StreamId) (s : Seat) : Seat :=
  let s := s.synthesized id 503
  match s.proxy.routes.lookup id with
  | none => s
  | some route =>
    ((((s.heard route (.shed id)).removeRoute id).withShared (·.dropLease route.lease)).withShared
      (·.withStats (·.closeClientStream)))

def interceptReset (now : Instant) (id : StreamId) (code : ErrorCode) (s : Seat) :
    Seat × Option ServiceEvent :=
  match s.proxy.routes.lookup id with
  | none => (s, some (.reset id code))
  | some route =>
    let s := s.heard route (.reset id code)
    if code = .refusedStream then
      match s.retry id now with
      | some s => (s, none)
      | none => (s.settle id, some (.reset id code))
    else ((s.withShared (·.failure route.backend now)).settle id, some (.reset id code))

def intercept (now : Instant) (event : ServiceEvent) (s : Seat) : Seat × Option ServiceEvent :=
  match event with
  | .head id response endStream => (s.interceptHead id response endStream, some event)
  | .gone id => s.interceptGone now id
  | .shed id => (s.interceptShed id, some event)
  | .reset id code => s.interceptReset now id code
  | _ => (s, some event)

/-- End every route, as `Drop for Proxy` and the drop of its fields do. -/
def dropRoutes (now : Instant) (s : Seat) : List (Sigma fun _ : StreamId => Route) → Seat
  | [] => s
  | ⟨id, route⟩ :: rest =>
    dropRoutes now
      (((s.removeRoute id).finished now route).withShared (·.dropLease route.lease)) rest

def drop (now : Instant) (s : Seat) : Seat :=
  (s.dropRoutes now s.proxy.routes.entries).withShared (·.withStats (·.clientDisconnected))

end Seat

end H2Proxy
