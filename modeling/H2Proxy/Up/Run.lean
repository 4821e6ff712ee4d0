import H2Proxy.Up.Engine
import H2Proxy.Lib.Machine

/-
  Runs of an upstream connection (`UpstreamConnection::run`, `drive` and `tick` in
  `core/src/upstream.rs`).

  One input is one thing the task does between two looks at its sources. As for client
  connections, any order of inputs is a run.
-/

namespace H2Proxy

inductive UpInput
  /-- A whole frame is cut off the read buffer. -/
  | frame (w : WireFrame)
  /-- A message is taken off the inbox. -/
  | message (m : ToUpstream)
  /-- The scheduler runs. -/
  | pump
  /-- `n` octets were written. -/
  | wrote (n : Nat)
  /-- Octets arrived. -/
  | heard
  /-- The probe's timer fired. -/
  | probe
  /-- The drain of the backend is looked at. -/
  | drained
  /-- The backend closed, the inbox closed, or a read or a write failed. -/
  | hangup
deriving DecidableEq

namespace Upstream

/-- The states of a fresh connection. The windows are `i32`s, the probe is off where its
    idle time is zero. -/
def Fresh (s : Upstream) : Prop :=
  ∃ tuning idle timeout now, -(2 ^ 31) ≤ tuning.connectionWindow ∧
    tuning.connectionWindow ≤ maxWindowSize ∧ s = start tuning idle timeout now

def react (input : UpInput) : UpM Next := do
  match input with
  | .frame w =>
    recvWire w
    pure .continue_
  | .message m =>
    handleMessage m
    pure .continue_
  | .pump =>
    pumpOutbound
    pure .continue_
  | .wrote n =>
    modify fun s => { s with out := s.out - n }
    pure .continue_
  | .heard =>
    modify fun s => { s with probe := s.probe.heard s.now }
    pure .continue_
  | .probe => probeTimer
  | .drained => pure (if (← get).peerDrainComplete then .close else .continue_)
  | .hangup => pure .close

/-- The end of `run`: GOAWAY after a failure, and everyone who waits is told. -/
def conclude (stop : Stop) (s : Upstream) : Upstream :=
  let s := match stop with
    | .quiet => s
    | .failed e =>
      match queueFrame (.goAway s.streams.highestLocalId e.code (ascii e.debug)) s with
      | .ok _ s => s
      | .error _ s => s
  { s.failAllRoutes with stop := some stop }

/-- What becomes of a message that the connection will not take. -/
def leave (m : ToUpstream) (s : Upstream) : Upstream :=
  match m with
  | .request id clientId _ _ events =>
    s.withCore (s.toUpstreamCore.observe (.told id events (.gone clientId)))
  | _ => s

/-- One step at time `i.1`. A connection that has stopped only empties its inbox. -/
def step (i : Instant × UpInput) (s : Upstream) : Upstream :=
  if s.stop.isSome then
    match i.2 with
    | .message m => s.leave m
    | _ => s
  else
    match react i.2 { s with now := i.1 } with
    | .ok .continue_ s => s
    | .ok .close s => conclude .quiet s
    | .error e s => conclude (.failed e) s

/-- Upstream connections, one at a time. -/
def machine : Machine Upstream (Instant × UpInput) := ⟨Fresh, step⟩

end Upstream

end H2Proxy
