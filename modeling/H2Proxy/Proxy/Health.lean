import H2Proxy.Basic
import H2Proxy.Lib.Map

/-
  Which backends may be sent to: passive ejection and the trial that ends it
  (`core/src/health.rs`).

  The table is shared by every client connection. A backend that was ejected and whose
  backoff is over is half-open: one request is let through, and `trialInFlight` stands
  until that request is reported on.
-/

namespace H2Proxy

/-- The address of a socket; it is only ever compared. -/
abbrev SocketAddr := Nat

structure Backend where
  addr : SocketAddr
deriving DecidableEq

/-- A backend and the streams in flight to it. -/
structure BackendLoad where
  backend : Backend
  outstanding : Nat
deriving DecidableEq

namespace Health

/-- When a backend is ejected and how it comes back. -/
structure Policy where
  ejectAfter : Nat
  baseBackoff : Duration
  maxBackoff : Duration
  idleTimeout : Duration
deriving DecidableEq

def Policy.default : Policy :=
  ⟨5, 10 * 10 ^ 9, 30 * 10 ^ 9, 60 * 10 ^ 9⟩

inductive State
  | healthy | ejected | halfOpen
deriving DecidableEq

structure Entry where
  consecutiveFailures : Nat
  /-- While ejected, when the ejection expires. -/
  ejectedUntil : Option Instant
  /-- Whether the one trial request is out. -/
  trialInFlight : Bool
  /-- The backoff the next ejection will use. -/
  backoff : Duration
  ejections : Nat
deriving DecidableEq

namespace Entry

def new (policy : Policy) : Entry := ⟨0, none, false, policy.baseBackoff, 0⟩

def state (now : Instant) (e : Entry) : State :=
  match e.ejectedUntil with
  | none => .healthy
  | some expiry => if now < expiry then .ejected else .halfOpen

/-- Leave rotation for the current backoff. -/
def eject (now : Instant) (e : Entry) : Entry :=
  { e with ejectedUntil := some (now + e.backoff), ejections := e.ejections + 1 }

/-- One more failure, and whether it ejected the backend. A failed trial does at once, with
    a longer backoff. -/
def failure (policy : Policy) (now : Instant) (e : Entry) : Entry × Bool :=
  if e.trialInFlight then
    let backoff := min (e.backoff * 2) policy.maxBackoff
    ({ e with trialInFlight := false, backoff }.eject now, true)
  else
    let e := { e with consecutiveFailures := e.consecutiveFailures + 1 }
    if e.consecutiveFailures ≥ policy.ejectAfter ∧ e.ejectedUntil = none then (e.eject now, true)
    else (e, false)

def success (policy : Policy) (e : Entry) : Entry :=
  { e with
    consecutiveFailures := 0
    ejectedUntil := none
    trialInFlight := false
    backoff := policy.baseBackoff }

/-- Whether requests may be sent: half-open only while no trial is out. -/
def eligible (now : Instant) (e : Entry) : Bool :=
  match e.state now with
  | .healthy => true
  | .ejected => false
  | .halfOpen => !e.trialInFlight

theorem failure_trial (policy : Policy) (now : Instant) (e : Entry) :
    (e.failure policy now).1.trialInFlight = false := by
  unfold failure eject
  cases ht : e.trialInFlight with
  | true => rfl
  | false =>
    rw [if_neg Bool.false_ne_true]
    dsimp only
    split
    · rfl
    · rfl

end Entry

end Health

/-- The health of every backend something was reported about. -/
structure Health where
  backends : FinMap Backend Health.Entry
  policy : Health.Policy
  ejections : Nat

namespace Health

def new (policy : Policy) : Health := ⟨∅, policy, 0⟩

/-- `entry(backend).or_insert_with(…)`. -/
def entry (backend : Backend) (h : Health) : Entry :=
  (h.backends.lookup backend).getD (.new h.policy)

/-- A request to a backend failed in a way that says something about the backend. -/
def failure (backend : Backend) (now : Instant) (h : Health) : Health :=
  let (entry, ejected) := (h.entry backend).failure h.policy now
  { h with
    backends := h.backends.insert backend entry
    ejections := if ejected then h.ejections + 1 else h.ejections }

/-- A request to a backend succeeded. -/
def success (backend : Backend) (h : Health) : Health :=
  { h with backends := h.backends.insert backend ((h.entry backend).success h.policy) }

def admits (now : Instant) (h : Health) (backend : Backend) : Bool :=
  match h.backends.lookup backend with
  | none => true
  | some entry => entry.eligible now

/-- The backends worth sending to. If there is none, all of them. -/
def eligible (candidates : List BackendLoad) (now : Instant) (h : Health) : List BackendLoad :=
  let eligible := candidates.filter fun c => h.admits now c.backend
  if eligible = [] then candidates else eligible

/-- Claim the trial of a half-open backend, if it is free. -/
def claimTrial (backend : Backend) (now : Instant) (h : Health) : Health :=
  match h.backends.lookup backend with
  | none => h
  | some entry =>
    if entry.state now = .halfOpen ∧ entry.trialInFlight = false then
      { h with backends := h.backends.insert backend { entry with trialInFlight := true } }
    else h

/-! ## Trials -/

/-- Whether the trial of a backend is out. -/
def onTrial (h : Health) (backend : Backend) : Bool :=
  (h.backends.lookup backend).any (·.trialInFlight)

/-- A report of either kind ends the trial of the backend it is about, and no other. -/
theorem onTrial_failure (h : Health) (b c : Backend) (now : Instant) :
    (h.failure b now).onTrial c = if c = b then false else h.onTrial c := by
  unfold onTrial failure
  dsimp only
  rw [AList.lookup_insert_eq]
  split
  · exact Entry.failure_trial _ _ _
  · rfl

theorem onTrial_success (h : Health) (b c : Backend) :
    (h.success b).onTrial c = if c = b then false else h.onTrial c := by
  unfold onTrial success
  dsimp only
  rw [AList.lookup_insert_eq]
  split
  · rfl
  · rfl

/-- A claim starts at most the trial of the backend it is about. -/
theorem onTrial_claimTrial {h : Health} {b c : Backend} {now : Instant}
    (trial : (h.claimTrial b now).onTrial c = true) : c = b ∨ h.onTrial c = true := by
  revert trial
  unfold claimTrial
  split
  · exact Or.inr
  · split
    · unfold onTrial
      dsimp only
      rw [AList.lookup_insert_eq]
      split
      · exact fun _ => .inl ‹_›
      · exact Or.inr
    · exact Or.inr

end Health

end H2Proxy
