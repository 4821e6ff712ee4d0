import H2Proxy.Conn.Engine
import H2Proxy.Lib.Machine

/-
  Runs of a client connection (`Connection::run` and its `tick` in `core/src/conn.rs`).

  One input is one thing the task does between two looks at its sources: a frame, an event,
  a pass of the scheduler, a timer. The source's loop takes them in an order of its own
  (frames and their events before a pass, `select!` by priority); here any order is a run,
  so what holds of every run holds of the source's.
-/

namespace H2Proxy

inductive ConnInput
  /-- A whole frame is cut off the read buffer. -/
  | frame (w : WireFrame)
  /-- Someone outside the connection sends an event on its channel. -/
  | arrival (event : ServiceEvent)
  /-- The oldest event of the channel is received. -/
  | event
  /-- The admission budget is looked at and the scheduler runs. -/
  | pump (budget : Nat)
  /-- `n` octets were written. -/
  | wrote (n : Nat)
  | shutdown
  /-- A drain is moved on, after its timer or after anything else. -/
  | advance (timerFired : Bool)
  /-- The peer closed, or a read or a write failed. -/
  | hangup
deriving DecidableEq

namespace Conn

variable {σ μ : Type}

/-- The states of a fresh connection. The window is an `i32`. -/
def Fresh (s : Conn σ μ) : Prop :=
  ∃ service localSettings window limits policy admission now,
    localSettings.InU32 ∧ -(2 ^ 31) ≤ window ∧ window ≤ maxWindowSize ∧
      s = start service localSettings window limits policy admission now

theorem fresh_withService (service : σ) : Fresh (withService service : Conn σ μ) :=
  ⟨service, .server, connectionWindow, .default, .default, none, 0,
    ⟨by decide, by decide, by decide⟩, by decide, by decide, rfl⟩

variable [Service σ μ]

def react (input : ConnInput) : ConnM σ μ Next := do
  match input with
  | .frame w => recvWire w
  | .arrival event =>
    onCore fun c => { c with events := c.events ++ [event] }
    pure .continue_
  | .event =>
    match (← get).events with
    | [] => pure .continue_
    | event :: events =>
      onCore ({ · with events })
      handleServiceEvent event
      pure .continue_
  | .pump budget =>
    syncAdmission budget
    pumpOutbound
    pure .continue_
  | .wrote n =>
    modify fun s => { s with out := s.out - n }
    pure .continue_
  | .shutdown =>
    if (← get).draining.isNone then beginDrain else pure ()
    pure .continue_
  | .advance timerFired => advanceDrain timerFired
  | .hangup => pure .close

/-- The end of `run`: GOAWAY after a failure, and the responder is dropped. -/
def conclude (stop : Stop) (s : Conn σ μ) : Conn σ μ :=
  let s := match stop with
    | .quiet => s
    | .failed e =>
      match queueFrame (.goAway s.streams.highestPeerId e.code (ascii e.debug)) s with
      | .ok _ s => s
      | .error _ s => s
  { s with
    toConnCore := s.toConnCore.call .drop (Service.drop s.now s.service)
    stop := some stop }

/-- One step at time `i.1`; a connection that has stopped takes none. -/
def step (i : Instant × ConnInput) (s : Conn σ μ) : Conn σ μ :=
  if s.stop.isSome then s
  else
    match react i.2 { s with now := i.1 } with
    | .ok .continue_ s => s
    | .ok .close s => conclude .quiet s
    | .error e s => conclude (.failed e) s

/-- The header block fragment a frame carries, and whether it is the last. -/
def fragment? : Frame → Option (StreamId × Bytes × Bool)
  | .headers id block _ endHeaders | .continuation id block endHeaders => some (id, block, endHeaders)
  | _ => none

/-- The outcome of the header block a fragment completes. -/
def completion (s : Conn σ μ) (fragment : Bytes) (endHeaders : Bool) :
    Option (Except HpackError (List Header)) :=
  let block := s.headerBlock ++ fragment
  if endHeaders && block.length ≤ maxHeaderBlockBytes then some (s.hpackDec.decode block).2
  else none

/-- DATA passes the guard. -/
def passesGuard (s : Conn σ μ) : Frame → Bool
  | .data _ data endStream => (s.guard.onData data.length endStream).2 = .ok
  | _ => true

/-- Whether a frame is in order, so that its stream is looked at. -/
def handles (s : Conn σ μ) (w : WireFrame) : Bool :=
  match w.decode with
  | .ok (.frame f) =>
    w.header.length ≤ s.localSettings.maxFrameSize &&
      (s.headerBlockError f.kind f.streamId).isNone && s.passesGuard f
  | _ => false

/-- Whether the header block a frame belongs to carries END_STREAM. -/
def blockEndStream (s : Conn σ μ) : Frame → Bool
  | .headers _ _ endStream _ => endStream
  | _ => s.openHeaderEndStream

/-- The stream, the END_STREAM and the outcome of the header block a frame completes, where
    it is in order. -/
def completes (s : Conn σ μ) (w : WireFrame) :
    Option (StreamId × Bool × Except HpackError (List Header)) :=
  match w.decode with
  | .ok (.frame f) =>
    if w.header.length ≤ s.localSettings.maxFrameSize &&
        (s.headerBlockError f.kind f.streamId).isNone then
      (fragment? f).bind fun (id, fragment, endHeaders) =>
        (s.completion fragment endHeaders).map (id, s.blockEndStream f, ·)
    else none
  | _ => none

/-- The visits of a lap, each with the state it finds. -/
def lapVisits : List StreamId → Conn σ μ → List (Conn σ μ × StreamId)
  | [], _ => []
  | id :: lap, s =>
    (s, id) :: match visitReadyStream id s with
      | .ok _ t => lapVisits lap t
      | .error .. => []

/-- The visits of the laps of a pump. -/
def lapsVisits : Nat → Conn σ μ → List (Conn σ μ × StreamId)
  | 0, _ => []
  | fuel + 1, s =>
    if s.ready = [] || s.out ≥ maxWriteQueue then []
    else lapVisits s.ready { s with ready := [] } ++ match pumpLap s with
      | .ok true t => lapsVisits fuel t
      | _ => []

/-- The visits of a pass of the scheduler. -/
def visits (s : Conn σ μ) (budget : Nat) : List (Conn σ μ × StreamId) :=
  match syncAdmission budget s with
  | .ok _ t => lapsVisits (pumpFuel t) t
  | .error .. => []

variable (σ μ) in
/-- Client connections answered by a responder of type `σ`. -/
def machine : Machine (Conn σ μ) (Instant × ConnInput) := ⟨Fresh, step⟩

end Conn

end H2Proxy
