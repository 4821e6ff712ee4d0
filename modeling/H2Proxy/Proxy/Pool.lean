import H2Proxy.Proxy.Health
import H2Proxy.Up.State

/-
  The pool of upstream connections (`core/src/pool.rs`).

  A record is shared by the pool's list, the connection's own task and the leases, and
  outlives its place in the list, so records stand apart under names of their own. What a
  connection's task does to its record is in `UpstreamRecord`'s own functions.
-/

namespace H2Proxy

/-- Names a pooled connection. -/
abbrev ConnId := Nat

inductive PoolError
  | unreachable (backend : Backend)
  | noBackend
  | atCapacity (backend : Backend)
deriving DecidableEq

/-- What the pool assumes of a backend until its SETTINGS come. -/
def assumedMaxConcurrent : Nat := 100

/-- How far from the end of the id space a connection is given up. -/
def idExhaustionMargin : Nat := 64

/-- A pooled connection, as the pool and the leases see it. -/
structure UpstreamRecord where
  /-- Whether the receiving end of the inbox is gone. -/
  handleClosed : Bool
  live : Nat
  issued : UInt32
  maxConcurrent : Nat
  closed : Bool
  lastUsedMs : Nat
  queued : Nat
deriving DecidableEq

namespace UpstreamRecord

def new (nowMs : Nat) : UpstreamRecord :=
  ⟨false, 0, 0, assumedMaxConcurrent, false, nowMs, 0⟩

def usable (nowMs idleTimeoutMs : Nat) (r : UpstreamRecord) : Bool :=
  let idleAndEmpty := nowMs - r.lastUsedMs ≥ idleTimeoutMs && r.live == 0
  !idleAndEmpty && !r.closed && !r.handleClosed &&
    r.issued.toNat < maxLocalStreamId / 2 - idExhaustionMargin

def hasRoom (r : UpstreamRecord) : Bool := r.live < r.maxConcurrent

/-- More wait for a stream than the backend runs at once. -/
def backedUp (r : UpstreamRecord) : Bool := r.queued ≥ max r.maxConcurrent 1

def saturated (maxPending : Nat) (r : UpstreamRecord) : Bool := r.queued ≥ maxPending

def setQueued (depth : Nat) (r : UpstreamRecord) : UpstreamRecord := { r with queued := depth }

def setMaxConcurrent (max : Nat) (r : UpstreamRecord) : UpstreamRecord :=
  { r with maxConcurrent := max }

/-- The connection takes no new requests. -/
def retire (r : UpstreamRecord) : UpstreamRecord := { r with closed := true }

/-- The connection's task is over. -/
def die (r : UpstreamRecord) : UpstreamRecord := { r with handleClosed := true, closed := true }

end UpstreamRecord

/-- One request's place on a connection. -/
structure Lease where
  record : ConnId
  id : RequestId
deriving DecidableEq

/-- `max_by_key`: the last of the greatest. -/
def maxByKey {α : Type} (key : α → Nat) : List α → Option α
  | [] => none
  | x :: xs =>
    match maxByKey key xs with
    | none => some x
    | some y => some (if key x > key y then x else y)

/-- `min_by_key` with a pair for a key, compared in order: the first of the least. -/
def minByKey {α : Type} (key : α → Nat × Nat) : List α → Option α
  | [] => none
  | x :: xs =>
    match minByKey key xs with
    | none => some x
    | some y =>
      some (if (key x).1 < (key y).1 ∨ (key x).1 = (key y).1 ∧ (key x).2 ≤ (key y).2 then x else y)

/-- The pool. `record` is every connection's record; `backends` are the pool's own lists. -/
structure Pool where
  backends : FinMap Backend (List ConnId)
  record : ConnId → UpstreamRecord
  nextConn : ConnId
  maxConnsPerBackend : Nat
  epoch : Instant
  idleTimeoutMs : Nat
  tuning : Tuning

namespace Pool

def withPolicy (maxConnsPerBackend : Nat) (policy : Health.Policy) (tuning : Tuning)
    (epoch : Instant) : Pool :=
  { backends := ∅
    record := fun _ => .new 0
    nextConn := 0
    maxConnsPerBackend := max maxConnsPerBackend 1
    epoch
    idleTimeoutMs := policy.idleTimeout / 10 ^ 6
    tuning }

def nowMs (now : Instant) (p : Pool) : Nat := (now - p.epoch) / 10 ^ 6

def conns (backend : Backend) (p : Pool) : List ConnId := (p.backends.lookup backend).getD []

def modify (conn : ConnId) (f : UpstreamRecord → UpstreamRecord) (p : Pool) : Pool :=
  { p with record := fun c => if c = conn then f (p.record c) else p.record c }

/-- `UpstreamRecord::lease`. -/
def lease (conn : ConnId) (nowMs : Nat) (p : Pool) : Lease × Pool :=
  (⟨conn, ⟨(p.record conn).issued⟩⟩,
    p.modify conn fun r => { r with lastUsedMs := nowMs, issued := r.issued + 1, live := r.live + 1 })

/-- `Drop for Lease`. -/
def dropLease (lease : Lease) (p : Pool) : Pool :=
  p.modify lease.record fun r => { r with live := r.live - 1 }

/-- Open a connection, at the end of the backend's list. -/
def open_ (backend : Backend) (nowMs : Nat) (p : Pool) : ConnId × Pool :=
  (p.nextConn,
    { p.modify p.nextConn fun _ => .new nowMs with
      backends := p.backends.insert backend (p.conns backend ++ [p.nextConn])
      nextConn := p.nextConn + 1 })

/-- Keep the connections to a backend that may still be used. -/
def retain (backend : Backend) (nowMs : Nat) (p : Pool) : Pool :=
  { p with
    backends := p.backends.insert backend
      ((p.conns backend).filter fun c => (p.record c).usable nowMs p.idleTimeoutMs) }

/-- Whether a backend whose connections are all full is given another. -/
def grows (backend : Backend) (p : Pool) : Bool :=
  p.conns backend = [] ||
    match p.tuning.growth with
    | .eager => true
    | .queue => !(p.conns backend).any fun c => !(p.record c).backedUp

/-- Lease a slot on a connection to a backend, opening one where the policy asks for it. -/
def checkout (backend : Backend) (now : Instant) (p : Pool) : Except PoolError Lease × Pool :=
  let nowMs := p.nowMs now
  let p := p.retain backend nowMs
  match maxByKey (fun c => (p.record c).live) ((p.conns backend).filter fun c => (p.record c).hasRoom)
    with
  | some conn =>
    let (lease, p) := p.lease conn nowMs
    (.ok lease, p)
  | none =>
    if (p.conns backend).length < p.maxConnsPerBackend ∧ p.grows backend then
      let (conn, p) := p.open_ backend nowMs
      let (lease, p) := p.lease conn nowMs
      (.ok lease, p)
    else
      match minByKey (fun c => ((p.record c).queued, (p.record c).live)) (p.conns backend) with
      | none => (.error (.unreachable backend), p)
      | some conn =>
        if (p.record conn).saturated p.tuning.maxPending then (.error (.atCapacity backend), p)
        else
          let (lease, p) := p.lease conn nowMs
          (.ok lease, p)

/-- Each backend with the streams in flight to it. -/
def load (backends : List Backend) (p : Pool) : List BackendLoad :=
  backends.map fun b => ⟨b, ((p.conns b).map fun c => (p.record c).live).sum⟩

end Pool

end H2Proxy
