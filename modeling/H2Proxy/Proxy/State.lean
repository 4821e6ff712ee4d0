import H2Proxy.Proxy.Balance
import H2Proxy.Proxy.Forward
import H2Proxy.Proxy.Pool

/-
  The request path's state (`Shared`, `Proxy` and `Route` in `core/src/proxy.rs`).

  `Shared` is what every client connection's proxy works on. The statistics kept are those
  of the request path; the histogram is kept as the observations it was given. Spans and
  admission are left out: nothing here reads them.

  `serial` and `log` are ghosts, and so are a route's `request` and `ended`: the requests
  that reached any proxy are numbered as they come, what became of them is written down,
  oldest first, and a route whose end was passed on to the client is marked. No branch
  reads them.
-/

namespace H2Proxy

/-- One thing a proxy did about a request. -/
inductive ProxyObs
  /-- A client's request came. -/
  | asked (request : Nat) (head : RequestHead) (endStream : Bool)
  /-- It was sent to a backend, when health offered those. -/
  | sent (request : Nat) (backend : Backend) (among : List Backend)
  /-- An event came for the stream it is on. -/
  | heard (request : Nat) (event : ServiceEvent)
  /-- It was counted as open. -/
  | opened (request : Nat)
  /-- Its latency was recorded. -/
  | observed (request : Nat) (elapsed : Duration)
deriving DecidableEq

namespace ProxyObs

/-- The request it is about. -/
def request : ProxyObs → Nat
  | asked r .. | sent r .. | heard r _ | opened r | observed r _ => r

end ProxyObs

structure ProxyStats where
  requests : Nat
  retries : Nat
  shed : Nat
  /-- By class, 1xx first. -/
  responses : Fin 5 → Nat
  clientStreams : Nat
  peakClientStreams : Nat
  clientConns : Nat
  latency : List Duration

namespace ProxyStats

def default : ProxyStats := ⟨0, 0, 0, fun _ => 0, 0, 0, 0, []⟩

def request (s : ProxyStats) : ProxyStats := { s with requests := s.requests + 1 }

def retry (s : ProxyStats) : ProxyStats := { s with retries := s.retries + 1 }

def shedOne (s : ProxyStats) : ProxyStats := { s with shed := s.shed + 1 }

/-- `(status / 100).clamp(1, 5) - 1`. -/
def responseClass (status : Nat) : Fin 5 := ⟨min (max (status / 100) 1) 5 - 1, by omega⟩

def response (status : Nat) (s : ProxyStats) : ProxyStats :=
  { s with
    responses := fun c => if c = responseClass status then s.responses c + 1 else s.responses c }

def openClientStream (s : ProxyStats) : ProxyStats :=
  { s with
    clientStreams := s.clientStreams + 1
    peakClientStreams := max s.peakClientStreams (s.clientStreams + 1) }

def closeClientStream (s : ProxyStats) : ProxyStats :=
  { s with clientStreams := s.clientStreams - 1 }

def clientConnected (s : ProxyStats) : ProxyStats := { s with clientConns := s.clientConns + 1 }

def clientDisconnected (s : ProxyStats) : ProxyStats :=
  { s with clientConns := s.clientConns - 1 }

def observeLatency (elapsed : Duration) (s : ProxyStats) : ProxyStats :=
  { s with latency := s.latency ++ [elapsed] }

end ProxyStats

structure Shared where
  pool : Pool
  backends : List Backend
  balancer : PowerOfTwoChoices
  stats : ProxyStats
  health : Health
  serial : Nat
  log : List ProxyObs

namespace Shared

def withTuning (backends : List Backend) (maxConnsPerBackend : Nat) (policy : Health.Policy)
    (tuning : Tuning) (now : Instant) : Shared :=
  ⟨.withPolicy maxConnsPerBackend policy tuning now, backends, .new, .default, .new policy, 0, []⟩

/-- What health offers. -/
def eligible (now : Instant) (s : Shared) : List BackendLoad :=
  s.health.eligible (s.pool.load s.backends) now

/-- Where a request could be sent: what health offers, without the backend that just failed
    as long as that leaves any. -/
def candidates (exclude : Option Backend) (now : Instant) (s : Shared) : List BackendLoad :=
  match exclude with
  | none => s.eligible now
  | some failed =>
    let elsewhere := (s.eligible now).filter fun c => c.backend ≠ failed
    if elsewhere = [] then s.eligible now else elsewhere

/-- Pick a backend to try, and claim its trial if it is half-open. -/
def pick (exclude : Option Backend) (now : Instant) (s : Shared) : Option Backend × Shared :=
  match s.balancer.pick (s.candidates exclude now) with
  | (none, balancer) => (none, { s with balancer })
  | (some chosen, balancer) =>
    (some chosen, { s with balancer, health := s.health.claimTrial chosen now })

/-- `Pool::checkout`, which counts what it sheds. -/
def checkout (backend : Backend) (now : Instant) (s : Shared) : Except PoolError Lease × Shared :=
  let (result, pool) := s.pool.checkout backend now
  let stats := match result with
    | .error (.atCapacity _) => s.stats.shedOne
    | _ => s.stats
  (result, { s with pool, stats })

def dropLease (lease : Lease) (s : Shared) : Shared := { s with pool := s.pool.dropLease lease }

def failure (backend : Backend) (now : Instant) (s : Shared) : Shared :=
  { s with health := s.health.failure backend now }

def success (backend : Backend) (s : Shared) : Shared :=
  { s with health := s.health.success backend }

def withStats (f : ProxyStats → ProxyStats) (s : Shared) : Shared := { s with stats := f s.stats }

def observe (o : ProxyObs) (s : Shared) : Shared := { s with log := s.log ++ [o] }

end Shared

/-- One client stream's upstream leg. -/
structure Route where
  lease : Lease
  /-- Whether the request has ended, so that a late body chunk is dropped. -/
  requestDone : Bool
  backend : Backend
  /-- The head, kept only where the request could be sent again. -/
  head : Option RequestHead
  /-- Attempts made, with the one in flight. -/
  attempts : Nat
  /-- Whether a status has reached the client. -/
  responseStarted : Bool
  started : Instant
  request : Nat
  ended : Bool
deriving DecidableEq

/-- The request path as one client connection sees it. -/
structure Proxy where
  events : Option Events
  routes : FinMap StreamId Route
  /-- The client's address as it is written, where it is known. -/
  peer : Option Bytes
  trustForwarded : Bool

/-- Methods that may be sent twice. -/
def idempotent : List Bytes := ["GET", "HEAD", "OPTIONS", "TRACE", "DELETE", "PUT"].map ascii

def maxAttempts : Nat := 2

/-- A request as `attempt` sends it. -/
structure Attempt where
  head : RequestHead
  endStream : Bool
  /-- The copy for another attempt; without one this attempt is the last. -/
  spare : Option RequestHead
  exclude : Option Backend
  attempts : Nat
  /-- The clock of the first attempt, where this is not it. -/
  carry : Option Instant
  request : Nat

end H2Proxy
