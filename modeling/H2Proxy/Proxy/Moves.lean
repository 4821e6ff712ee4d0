import H2Proxy.Proxy.Run
import Mathlib.Logic.Relation

/-
  What the proxies can do to the books, as a relation.

  `Books` is what the results about requests read: the routes held by all live proxies, in
  any order, the gauge, the health table and the log. A `Move` is one change the request
  path makes to them; every step is a sequence of moves (`Site.step_moves`, in the next
  module).

  Two kinds of move are made only where a request slips out of the books. A `Slip` names
  them, and a relation `allows` says which of them a step may make.
-/

namespace H2Proxy

/-- How a request slips out of the books. -/
inductive Slip
  /-- Its route goes, and it is never recorded as over. -/
  | unrecorded
  /-- The trial it was goes on with nothing to end it. -/
  | stranded

structure Books where
  /-- The routes of all live proxies. -/
  held : List Route
  clientStreams : Nat
  latency : List Duration
  health : Health
  serial : Nat
  log : List ProxyObs

/-- The attempt has not been answered and its end was not passed on. -/
def Route.waiting (r : Route) : Bool := !r.responseStarted && !r.ended

/-- A trial of the backend, if there is one, is an attempt still waiting. -/
def covers (held : List Route) (health : Health) (backend : Backend) : Bool :=
  !health.onTrial backend || held.any fun r => r.waiting && r.backend = backend

theorem covers_of_subset {held held' : List Route} {h : Health} {c : Backend} (sub : held ⊆ held')
    (hc : covers held h c = true) : covers held' h c = true := by
  unfold covers at hc ⊢
  rcases Bool.or_eq_true_iff.mp hc with ht | hw
  · exact Bool.or_eq_true_iff.mpr (.inl ht)
  · obtain ⟨r, hr, hr'⟩ := List.any_eq_true.mp hw
    exact Bool.or_eq_true_iff.mpr (.inr (List.any_eq_true.mpr ⟨r, sub hr, hr'⟩))

/-- An attempt that waits covers its backend. -/
theorem covers_of_waiting {held : List Route} {r : Route} (h : Health) (hr : r ∈ held)
    (waiting : r.waiting = true) : covers held h r.backend = true := by
  refine Bool.or_eq_true_iff.mpr (.inr (List.any_eq_true.mpr ⟨r, hr, ?_⟩))
  rw [waiting, decide_eq_true rfl]
  rfl

/-- When `old` goes and `left` stays, no trial is left without an attempt: what is on trial
    then is covered, or was on trial before for another backend's sake. -/
def Spares (old : Route) (left : List Route) (before after : Health) : Prop :=
  ∀ c, after.onTrial c = true →
    covers left after c = true ∨ c ≠ old.backend ∧ before.onTrial c = true

/-- What the end of an attempt says about the backend. -/
def Health.ended (event : ServiceEvent) (backend : Backend) (now : Instant) (h : Health) : Health :=
  match event with
  | .gone _ => h.failure backend now
  | .reset _ code => if code = .refusedStream then h else h.failure backend now
  | _ => h

theorem Health.onTrial_ended {event : ServiceEvent} {b c : Backend} {now : Instant} {h : Health}
    (trial : (h.ended event b now).onTrial c = true) : h.onTrial c = true := by
  have failed : (h.failure b now).onTrial c = true → h.onTrial c = true := by
    rw [Health.onTrial_failure]
    split
    · nofun
    · exact id
  unfold Health.ended at trial
  split at trial
  · exact failed trial
  · split at trial
    · exact trial
    · exact failed trial
  · exact trial

/-- The ends after which a request may be sent again. -/
def ServiceEvent.isUnprocessed : ServiceEvent → Bool
  | gone _ => true
  | reset _ code => code = .refusedStream
  | _ => false

namespace Books

def observe (os : List ProxyObs) (b : Books) : Books := { b with log := b.log ++ os }

/-- One change the request path makes. -/
inductive Move (allows : Slip → Prop) : Books → Books → Prop
  | shuffle {b : Books} {held : List Route} (h : b.held.Perm held) : Move allows b { b with held }
  | ask {b : Books} (head : RequestHead) (endStream : Bool) :
      Move allows b { b.observe [.asked b.serial head endStream] with serial := b.serial + 1 }
  /-- The trial of a backend is claimed and the request does not get there. -/
  | claim {b : Books} (backend : Backend) (now : Instant)
      (h : allows .stranded ∨ covers b.held (b.health.claimTrial backend now) backend) :
      Move allows b { b with health := b.health.claimTrial backend now }
  | fail {b : Books} (backend : Backend) (now : Instant) :
      Move allows b { b with health := b.health.failure backend now }
  /-- The trial is claimed and the connection is found dead. -/
  | miss {b : Books} (backend : Backend) (now : Instant) :
      Move allows b { b with health := (b.health.claimTrial backend now).failure backend now }
  /-- A request that just came is sent for the first time. -/
  | place {b : Books} {log : List ProxyObs} {head : RequestHead} {endStream : Bool} (route : Route)
      (among : List Backend) (now : Instant)
      (asked : b.log = log ++ [.asked route.request head endStream])
      (latest : route.request + 1 = b.serial)
      (spare : route.head.isSome = Seat.retryable head endStream) (first : route.attempts = 1)
      (waiting : route.responseStarted = false ∧ route.ended = false) :
      Move allows b
        { b.observe [.sent route.request route.backend among, .opened route.request] with
          held := route :: b.held
          clientStreams := b.clientStreams + 1
          health := b.health.claimTrial route.backend now }
  /-- An attempt ended unprocessed and the request is sent once more. -/
  | resend {b : Books} {old new : Route} {rest : List Route} (event : ServiceEvent)
      (among : List Backend) (now : Instant) (held : b.held = old :: rest)
      (unprocessed : event.isUnprocessed = true) (spare : (Seat.spare old).isSome = true)
      (same : new.request = old.request) (counted : new.attempts = old.attempts + 1)
      (waiting : new.responseStarted = false ∧ new.ended = false)
      (away : new.backend = old.backend → ∀ c ∈ among, c = old.backend)
      (h : allows .stranded ∨ Spares old (new :: rest) b.health
        ((b.health.ended event old.backend now).claimTrial new.backend now)) :
      Move allows b
        { b.observe [.heard old.request event, .sent old.request new.backend among] with
          held := new :: rest
          health := (b.health.ended event old.backend now).claimTrial new.backend now }
  /-- An attempt ended unprocessed and the request cannot be sent once more. -/
  | giveUp {b : Books} {old : Route} {rest : List Route} (event : ServiceEvent) (health : Health)
      (held : b.held = old :: rest) (unprocessed : event.isUnprocessed = true)
      (lost : allows .unrecorded) (h : allows .stranded ∨ Spares old rest b.health health) :
      Move allows b { b.observe [.heard old.request event] with held := rest, health }
  /-- A queue refused the request. -/
  | shed {b : Books} {old : Route} {rest : List Route} (id : StreamId)
      (held : b.held = old :: rest) (lost : allows .unrecorded)
      (h : allows .stranded ∨ Spares old rest b.health b.health) :
      Move allows b
        { b.observe [.heard old.request (.shed id)] with
          held := rest
          clientStreams := b.clientStreams - 1 }
  /-- A route is overwritten. -/
  | overwrite {b : Books} {old : Route} {rest : List Route} (held : b.held = old :: rest)
      (lost : allows .unrecorded) (h : allows .stranded ∨ Spares old rest b.health b.health) :
      Move allows b { b with held := rest }
  /-- A stream is over. -/
  | close {b : Books} {old : Route} {rest : List Route} (elapsed : Duration)
      (held : b.held = old :: rest) (h : allows .stranded ∨ Spares old rest b.health b.health) :
      Move allows b
        { b.observe [.observed old.request elapsed] with
          held := rest
          clientStreams := b.clientStreams - 1
          latency := b.latency ++ [elapsed] }
  /-- A response head came. -/
  | answer {b : Books} {old : Route} {rest : List Route} (id : StreamId) (response : Response)
      (endStream : Bool) (held : b.held = old :: rest) :
      Move allows b
        { b.observe [.heard old.request (.head id response endStream)] with
          held := { old with responseStarted := true } :: rest
          health := b.health.success old.backend }
  /-- The end of an attempt is passed on. -/
  | settle {b : Books} {old : Route} {rest : List Route} (event : ServiceEvent) (now : Instant)
      (held : b.held = old :: rest)
      (final : event.isUnprocessed = true → Seat.spare old = none)
      (silent : ∀ id response endStream, event ≠ .head id response endStream)
      (h : allows .stranded ∨
        Spares old rest b.health (b.health.ended event old.backend now)) :
      Move allows b
        { b.observe [.heard old.request event] with
          held := { old with ended := true } :: rest
          health := b.health.ended event old.backend now }
  /-- The client's side of a request ended. -/
  | amend {b : Books} {old : Route} {rest : List Route} (requestDone : Bool)
      (held : b.held = old :: rest) :
      Move allows b { b with held := { old with requestDone } :: rest }

abbrev Moves (allows : Slip → Prop) : Books → Books → Prop := Relation.ReflTransGen (Move allows)

/-- What the moves keep, sequences of them keep. -/
theorem Moves.invariant {allows : Slip → Prop} {I : Books → Prop} {b c : Books}
    (step : ∀ b c, I b → Move allows b c → I c) (hm : Moves allows b c) (h : I b) : I c := by
  induction hm with
  | refl => exact h
  | tail _ hm ih => exact step _ _ ih hm

end Books

/-! ## The books of a site -/

/-- The books, with the routes that other proxies hold. -/
def Seat.books (rest : List Route) (s : Seat) : Books :=
  ⟨s.proxy.routes.values ++ rest, s.shared.stats.clientStreams, s.shared.stats.latency,
    s.shared.health, s.shared.serial, s.shared.log⟩

namespace Site

def books (s : Site) : Books :=
  ⟨s.proxies.values.flatMap (·.routes.values), s.shared.stats.clientStreams,
    s.shared.stats.latency, s.shared.health, s.shared.serial, s.shared.log⟩

/-- The routes of the other proxies. -/
def others (client : Nat) (s : Site) : List Route :=
  (s.proxies.erase client).values.flatMap (·.routes.values)

end Site

end H2Proxy
