import H2Proxy.Conn.State
import H2Proxy.Lib.Machine
import H2Proxy.Proxy.Engine

/-
  Any number of proxies over what they share.

  A step is one call on one proxy, or something a connection's task does to its record or
  reports; the clock comes with it. What calls a proxy and what its effects lead to is left
  open: every order of calls and events is a run.
-/

namespace H2Proxy

/-- What a connection's task does to its record. -/
inductive Report
  | queued (depth : Nat)
  | maxConcurrent (max : Nat)
  | retired
  | died
  /-- The liveness probe went unanswered. -/
  | silent (backend : Backend)

inductive SiteInput
  /-- A client connects. -/
  | connect (client : Nat) (peer : Option Bytes) (trustForwarded : Bool)
  /-- A call on the proxy of a client connection, which `drop` ends. -/
  | call (client : Nat) (call : Call)
  | report (conn : ConnId) (report : Report)

structure Site where
  shared : Shared
  proxies : FinMap Nat Proxy
  /-- What the proxies did to the outside, oldest first, by client. -/
  effects : List (Nat × Effect ToConn)

namespace Seat

def call (now : Instant) (c : Call) (s : Seat) : Seat :=
  match c with
  | .dispatch id head endStream => s.dispatch now id head endStream
  | .body id data endStream => s.body id data endStream
  | .trailers id fields => s.trailers id fields
  | .cancel id code => s.cancel now id code
  | .finish id => s.finish now id
  | .released id n => s.released id n
  | .intercept event => (s.intercept now event).1
  | .drop => s.drop now

end Seat

def Report.apply (conn : ConnId) (now : Instant) (r : Report) (sh : Shared) : Shared :=
  match r with
  | .queued depth => { sh with pool := sh.pool.modify conn (·.setQueued depth) }
  | .maxConcurrent max => { sh with pool := sh.pool.modify conn (·.setMaxConcurrent max) }
  | .retired => { sh with pool := sh.pool.modify conn (·.retire) }
  | .died => { sh with pool := sh.pool.modify conn (·.die) }
  | .silent backend => sh.failure backend now

namespace Site

def start (shared : Shared) : Site := ⟨shared, ∅, []⟩

/-- `Proxy::new` and `attach`. -/
def newProxy (client : Nat) (peer : Option Bytes) (trustForwarded : Bool) : Proxy :=
  ⟨some ⟨client⟩, ∅, peer, trustForwarded⟩

/-- The route a client's stream is on. -/
def route? (client : Nat) (id : StreamId) (s : Site) : Option Route :=
  (s.proxies.lookup client).bind (·.routes.lookup id)

def step : Instant × SiteInput → Site → Site
  | (_, .connect client peer trust), s =>
    -- Every connection has a proxy of its own.
    if (s.proxies.lookup client).isSome then s
    else
      { s with
        shared := s.shared.withStats (·.clientConnected)
        proxies := s.proxies.insert client (newProxy client peer trust) }
  | (now, .call client c), s =>
    match s.proxies.lookup client with
    | none => s
    | some proxy =>
      let seat := Seat.call now c ⟨proxy, s.shared, []⟩
      { shared := seat.shared
        proxies :=
          if c = .drop then s.proxies.erase client else s.proxies.insert client seat.proxy
        effects := s.effects ++ seat.effects.map (client, ·) }
  | (now, .report conn r), s => { s with shared := r.apply conn now s.shared }

/-- The proxies of one daemon, from its start. -/
def machine : Machine Site (Instant × SiteInput) where
  init s := ∃ backends maxConns policy tuning now,
    s = start (.withTuning backends maxConns policy tuning now)
  step := step

end Site

/-- A proxy, with what it shares, as a responder. -/
instance : Service (Proxy × Shared) ToConn where
  dispatch now id head endStream s :=
    let t := Seat.dispatch now id head endStream ⟨s.1, s.2, []⟩
    ((t.proxy, t.shared), t.effects)
  body _ id data endStream s :=
    let t := Seat.body id data endStream ⟨s.1, s.2, []⟩
    ((t.proxy, t.shared), t.effects)
  trailers _ id fields s :=
    let t := Seat.trailers id fields ⟨s.1, s.2, []⟩
    ((t.proxy, t.shared), t.effects)
  cancel now id code s :=
    let t := Seat.cancel now id code ⟨s.1, s.2, []⟩
    ((t.proxy, t.shared), t.effects)
  finish now id s :=
    let t := Seat.finish now id ⟨s.1, s.2, []⟩
    ((t.proxy, t.shared), t.effects)
  released _ id n s :=
    let t := Seat.released id n ⟨s.1, s.2, []⟩
    ((t.proxy, t.shared), t.effects)
  intercept now event s :=
    let t := Seat.intercept now event ⟨s.1, s.2, []⟩
    (((t.1.proxy, t.1.shared), t.1.effects), t.2)
  drop now s :=
    let t := Seat.drop now ⟨s.1, s.2, []⟩
    ((t.proxy, t.shared), t.effects)

/-- A proxy hands every event on as it is, or swallows it. -/
instance : LawfulService (Proxy × Shared) where
  intercept_eq now e s e' h := by
    have handed : (Seat.intercept now e ⟨s.1, s.2, []⟩).2 = some e' := h
    unfold Seat.intercept at handed
    split at handed
    · exact (Option.some.inj handed).symm
    · unfold Seat.interceptGone at handed
      split at handed
      · exact (Option.some.inj handed).symm
      · dsimp only at handed
        split at handed
        · cases handed
        · exact (Option.some.inj handed).symm
    · exact (Option.some.inj handed).symm
    · unfold Seat.interceptReset at handed
      split at handed
      · exact (Option.some.inj handed).symm
      · dsimp only at handed
        split at handed
        · split at handed
          · cases handed
          · exact (Option.some.inj handed).symm
        · exact (Option.some.inj handed).symm
    · exact (Option.some.inj handed).symm

end H2Proxy
