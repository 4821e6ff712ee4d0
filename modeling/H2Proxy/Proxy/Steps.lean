import H2Proxy.Proxy.Moves

/-
  Every step of the proxies is a sequence of moves.

  `Seat.attempt_cases` says once what an attempt can come to; what each call does to the
  books follows. `Slip` moves are made only under the conditions `forgets` and `strands`,
  which read the state a step starts in.
-/

namespace H2Proxy

namespace Shared

/-- Where the backend picked is the one to be avoided, health offered no other. -/
theorem pick_away {s : Shared} {failed b : Backend} {now : Instant}
    (h : (s.pick (some failed) now).1 = some b) (same : b = failed) :
    ∀ c ∈ (s.eligible now).map (·.backend), c = failed := by
  have chosen : (s.balancer.pick (s.candidates (some failed) now)).1 = some b := by
    unfold pick at h
    split at h
    · cases h
    · rename_i hp
      cases h
      rw [hp]
  obtain ⟨c, hc, hb⟩ := PowerOfTwoChoices.pick_mem chosen
  unfold candidates at hc
  dsimp only at hc
  split at hc
  · rename_i nowhere
    intro d hd
    obtain ⟨e, he, rfl⟩ := List.mem_map.mp hd
    by_contra other
    have : e ∈ (s.eligible now).filter fun c => c.backend ≠ failed :=
      List.mem_filter.mpr ⟨he, decide_eq_true other⟩
    rw [nowhere] at this
    cases this
  · have away := (List.mem_filter.mp hc).2
    rw [hb] at away
    exact absurd same (of_decide_eq_true away)

/-- Picking changes nothing but the balancer and the trial of the backend picked. -/
theorem pick_cases (exclude : Option Backend) (now : Instant) (s : Shared) :
    (∃ balancer, s.pick exclude now = (none, { s with balancer })) ∨
      ∃ b balancer, s.pick exclude now =
        (some b, { s with balancer, health := s.health.claimTrial b now }) := by
  unfold pick
  split
  · exact .inl ⟨_, rfl⟩
  · exact .inr ⟨_, _, rfl⟩

/-- A checkout changes nothing but the pool and the count of refusals. -/
theorem checkout_cases (backend : Backend) (now : Instant) (s : Shared) :
    ∃ result pool stats, s.checkout backend now = (result, { s with pool, stats }) ∧
      stats.clientStreams = s.stats.clientStreams ∧ stats.latency = s.stats.latency := by
  unfold checkout
  dsimp only
  split
  · exact ⟨_, _, _, rfl, rfl, rfl⟩
  · exact ⟨_, _, _, rfl, rfl, rfl⟩

end Shared

/-- What became of an attempt. -/
inductive Placement
  | nowhere
  | refused (backend : Backend)
  | dead (backend : Backend)
  | placed (backend : Backend)
deriving DecidableEq

namespace Placement

/-- What an attempt does to the health table, by where it got to. -/
def after (now : Instant) (h : Health) : Placement → Health
  | nowhere => h
  | refused b | placed b => h.claimTrial b now
  | dead b => (h.claimTrial b now).failure b now

/-- A trial that an attempt starts is that of the backend it is for. -/
theorem onTrial_after {p : Placement} {h : Health} {now : Instant} {c : Backend}
    (trial : (p.after now h).onTrial c = true) :
    (p = .refused c ∨ p = .placed c) ∨ h.onTrial c = true := by
  cases p with
  | nowhere => exact .inr trial
  | refused b =>
    rcases Health.onTrial_claimTrial trial with rfl | ht
    · exact .inl (.inl rfl)
    · exact .inr ht
  | placed b =>
    rcases Health.onTrial_claimTrial trial with rfl | ht
    · exact .inl (.inr rfl)
    · exact .inr ht
  | dead b =>
    have failed : ((h.claimTrial b now).failure b now).onTrial c = true := trial
    rw [Health.onTrial_failure] at failed
    split at failed
    · cases failed
    · rename_i other
      rcases Health.onTrial_claimTrial failed with rfl | ht
      · exact absurd rfl other
      · exact .inr ht

/-- An attempt leaves a trial of the backend with nothing to end it. -/
def uncovers (p : Placement) (left : List Route) (after : Health) (c : Backend) : Bool :=
  p ≠ .placed c && !covers left after c

/-- An attempt in the place of one to `failed` leaves a trial with nothing to end it. -/
def strands (p : Placement) (left : List Route) (after : Health) (failed : Backend) : Bool :=
  p.uncovers left after failed ||
    match p with
    | refused b => p.uncovers left after b
    | _ => false

theorem covered {p : Placement} {left : List Route} {after : Health} {c : Backend}
    (h : ¬ p.uncovers left after c = true) : p = .placed c ∨ covers left after c = true := by
  by_cases hp : p = .placed c
  · exact .inl hp
  · right
    cases hc : covers left after c with
    | true => rfl
    | false =>
      refine absurd ?_ h
      unfold uncovers
      rw [hc, decide_eq_true hp]
      rfl

theorem spared {p : Placement} {left : List Route} {before h : Health} {failed : Backend}
    {now : Instant} (hs : ¬ p.strands left (p.after now h) failed = true)
    (fewer : ∀ c, h.onTrial c = true → before.onTrial c = true) (c : Backend)
    (trial : (p.after now h).onTrial c = true) :
    p = .placed c ∨ covers left (p.after now h) c = true ∨
      c ≠ failed ∧ before.onTrial c = true := by
  unfold strands at hs
  rw [Bool.or_eq_true, not_or] at hs
  by_cases same : c = failed
  · rw [same]
    exact (covered hs.1).imp_right .inl
  · rcases onTrial_after trial with (rfl | placed) | ht
    · exact (covered hs.2).imp_right .inl
    · exact .inl placed
    · exact .inr (.inr ⟨same, fewer c ht⟩)

end Placement

namespace Seat

/-- Where an attempt would get to: whether a backend is picked, and whether there is a
    connection to it that takes the request. -/
def placement (exclude : Option Backend) (now : Instant) (s : Seat) : Placement :=
  match s.shared.pick exclude now with
  | (none, _) => .nowhere
  | (some backend, shared) =>
    match shared.checkout backend now with
    | (.error _, _) => .refused backend
    | (.ok lease, shared) =>
      if s.proxy.events.isNone then .refused backend
      else if reaches lease { s with shared } then .placed backend
      else .dead backend

/-! ## What leaves the books alone -/

variable {rest : List Route}

@[simp] theorem books_send (lease : Lease) (message : ToUpstream) (s : Seat) :
    (s.send lease message).books rest = s.books rest := by
  unfold send
  split
  · rfl
  · rfl

@[simp] theorem books_emit (event : ServiceEvent) (s : Seat) :
    (s.emit event).books rest = s.books rest := by
  unfold emit
  split
  · rfl
  · rfl

@[simp] theorem books_answerLocally (id : StreamId) (status : Nat) (s : Seat) :
    (s.answerLocally id status).books rest = s.books rest := books_emit _ _

@[simp] theorem books_dropLease (lease : Lease) (s : Seat) :
    (s.withShared (·.dropLease lease)).books rest = s.books rest := rfl

/-- The routes of a proxy after one is put in. -/
theorem books_insertRoute (id : StreamId) (route : Route) (s : Seat) :
    (s.insertRoute id route).books rest =
      { s.books rest with held := route :: ((s.proxy.routes.erase id).values ++ rest) } := by
  unfold insertRoute
  dsimp only
  split
  · rfl
  · rfl

/-- What the placing of a request leaves in the books. -/
theorem books_place (id : StreamId) (lease : Lease) (events : Events) (b : Backend)
    (among : List Backend) (now : Instant) (a : Attempt) (s : Seat) :
    (s.place id lease events b among now a).books rest =
      { (s.books rest).observe (.sent a.request b among ::
          if a.carry.isNone then [.opened a.request] else []) with
        held :=
          { lease, requestDone := a.endStream, backend := b, head := a.spare
            attempts := a.attempts, responseStarted := false, started := a.carry.getD now
            request := a.request, ended := false } :: ((s.proxy.routes.erase id).values ++ rest)
        clientStreams := s.shared.stats.clientStreams + if a.carry.isNone then 1 else 0 } := by
  have sent : ∃ effects, s.send lease (.request lease.id id a.head a.endStream events) =
      { s with effects } := by
    unfold send
    split
    · exact ⟨_, rfl⟩
    · exact ⟨_, rfl⟩
  obtain ⟨effects, hs⟩ := sent
  unfold place
  rw [hs]
  cases hc : a.carry with
  | some started =>
    dsimp only
    rw [books_insertRoute]
    rfl
  | none =>
    dsimp only
    rw [books_insertRoute]
    unfold books Books.observe withShared Shared.observe Shared.withStats
    dsimp only
    rw [List.append_assoc]
    rfl

/-- What an attempt leaves in the books, by where it got to. -/
theorem attempt_cases (rest : List Route) (id : StreamId) (now : Instant) (a : Attempt) (s : Seat) :
    (s.placement a.exclude now = .nowhere ∧ (s.attempt id now a).books rest = s.books rest) ∨
    (∃ b, s.placement a.exclude now = .refused b ∧ (s.attempt id now a).books rest =
      { s.books rest with health := s.shared.health.claimTrial b now }) ∨
    (∃ b, s.placement a.exclude now = .dead b ∧ (s.attempt id now a).books rest =
      { s.books rest with health := (s.shared.health.claimTrial b now).failure b now }) ∨
    ∃ b lease, s.placement a.exclude now = .placed b ∧
      (s.shared.pick a.exclude now).1 = some b ∧
      (s.attempt id now a).books rest =
        { (s.books rest).observe (.sent a.request b ((s.shared.eligible now).map (·.backend)) ::
            if a.carry.isNone then [.opened a.request] else []) with
          held :=
            { lease, requestDone := a.endStream, backend := b, head := a.spare
              attempts := a.attempts, responseStarted := false, started := a.carry.getD now
              request := a.request, ended := false } :: ((s.proxy.routes.erase id).values ++ rest)
          clientStreams := s.shared.stats.clientStreams + if a.carry.isNone then 1 else 0
          health := s.shared.health.claimTrial b now } := by
  unfold placement attempt
  dsimp only
  obtain ⟨balancer, hp⟩ | ⟨b, balancer, hp⟩ := Shared.pick_cases a.exclude now s.shared
  · rw [hp]
    exact .inl ⟨rfl, books_answerLocally _ _ _⟩
  · rw [hp]
    dsimp only
    obtain ⟨result, pool, stats, hc, hstats, hlatency⟩ := Shared.checkout_cases b now
      { s.shared with balancer, health := s.shared.health.claimTrial b now }
    rw [hc]
    cases result with
    | error e =>
      refine .inr (.inl ⟨b, rfl, ?_⟩)
      simp only [books_answerLocally]
      unfold books
      dsimp only
      rw [hstats, hlatency]
    | ok lease =>
      dsimp only
      generalize ht : ({ s with shared := { s.shared with
        balancer, pool, stats, health := s.shared.health.claimTrial b now } } : Seat) = t
      have books_t : t.books rest =
          { s.books rest with health := s.shared.health.claimTrial b now } := by
        rw [← ht]
        unfold books
        dsimp only
        rw [hstats, hlatency]
      have routes_t : t.proxy = s.proxy := by rw [← ht]
      unfold deliver
      rw [routes_t]
      cases hev : s.proxy.events with
      | none =>
        refine .inr (.inl ⟨b, rfl, ?_⟩)
        exact books_t
      | some events =>
        dsimp only
        cases hr : t.reaches lease with
        | false =>
          refine .inr (.inr (.inl ⟨b, rfl, ?_⟩))
          rw [if_neg Bool.false_ne_true, books_dropLease, books_answerLocally]
          show { t.books rest with health := (t.books rest).health.failure b now } = _
          rw [books_t]
        | true =>
          refine .inr (.inr (.inr ⟨b, lease, rfl, rfl, ?_⟩))
          have streams_t : t.shared.stats.clientStreams = s.shared.stats.clientStreams := by
            rw [← ht]
            exact hstats
          rw [if_pos rfl, books_place, books_t, routes_t, streams_t]
          rfl

/-! ## Taking a route in hand -/

/-- The routes left when one goes. -/
def left (id : StreamId) (rest : List Route) (s : Seat) : List Route :=
  (s.proxy.routes.erase id).values ++ rest

theorem held_front {s : Seat} {id : StreamId} {route : Route}
    (h : s.proxy.routes.lookup id = some route) :
    (s.books rest).held.Perm (route :: s.left id rest) :=
  (AList.values_perm h).append_right rest

/-- A move that starts with the route of a stream in hand. -/
theorem goes_front {allows : Slip → Prop} {s : Seat} {id : StreamId} {route : Route} {c : Books}
    (h : s.proxy.routes.lookup id = some route)
    (hm : Books.Move allows { s.books rest with held := route :: s.left id rest } c) :
    Books.Moves allows (s.books rest) c :=
  (Relation.ReflTransGen.single (.shuffle (held_front h))).tail hm

variable {allows : Slip → Prop}

/-- A stream is over, and its lease dropped. -/
theorem close_goes {s : Seat} {id : StreamId} {route : Route} (now : Instant)
    (h : s.proxy.routes.lookup id = some route)
    (hs : allows .stranded ∨ Spares route (s.left id rest) s.shared.health s.shared.health) :
    Books.Moves allows (s.books rest)
      ((((s.removeRoute id).finished now route).withShared (·.dropLease route.lease)).books rest) :=
  goes_front h (.close (now - route.started) rfl hs)

theorem finish_goes {s : Seat} {id : StreamId} (now : Instant)
    (hs : ∀ route, s.proxy.routes.lookup id = some route →
      allows .stranded ∨ Spares route (s.left id rest) s.shared.health s.shared.health) :
    Books.Moves allows (s.books rest) ((s.finish now id).books rest) := by
  unfold finish
  split
  · exact .refl
  · rename_i route h
    exact close_goes now h (hs route h)

theorem cancel_goes {s : Seat} {id : StreamId} (now : Instant) (code : ErrorCode)
    (hs : ∀ route, s.proxy.routes.lookup id = some route →
      allows .stranded ∨ Spares route (s.left id rest) s.shared.health s.shared.health) :
    Books.Moves allows (s.books rest) ((s.cancel now id code).books rest) := by
  unfold cancel
  split
  · exact .refl
  · rename_i route h
    have quiet : ((((s.removeRoute id).send route.lease (.cancel route.lease.id code)).finished now
        route).withShared (·.dropLease route.lease)).books rest =
        (((s.removeRoute id).finished now route).withShared (·.dropLease route.lease)).books rest := by
      unfold send
      split
      · rfl
      · rfl
    rw [quiet]
    exact close_goes now h (hs route h)

theorem body_goes (id : StreamId) (data : Bytes) (endStream : Bool) (s : Seat) :
    Books.Moves allows (s.books rest) ((s.body id data endStream).books rest) := by
  have accepted_books : ∀ t : Seat, (t.accepted id data).books rest = t.books rest := by
    intro t
    unfold accepted
    dsimp only
    split
    · exact books_emit _ _
    · rfl
  unfold body
  split
  · rw [accepted_books]
  · rename_i route h
    split
    · exact .refl
    · have amended : Books.Moves allows (s.books rest)
          ((s.withRoutes (·.modify id fun r => { r with requestDone := endStream })).books rest) := by
        refine goes_front h ?_
        unfold books withRoutes
        rw [AList.values_modify _ h]
        exact .amend endStream rfl
      dsimp only
      split
      · rw [books_send]
        exact amended
      · rw [accepted_books]
        exact amended

theorem trailers_goes (id : StreamId) (fields : List Header) (s : Seat) :
    Books.Moves allows (s.books rest) ((s.trailers id fields).books rest) := by
  unfold trailers
  split
  · exact .refl
  · rename_i route h
    rw [books_send]
    refine goes_front h ?_
    unfold books withRoutes
    rw [AList.values_modify _ h]
    exact .amend true rfl

theorem released_goes (id : StreamId) (n : Nat) (s : Seat) :
    Books.Moves allows (s.books rest) ((s.released id n).books rest) := by
  unfold released
  split
  · exact .refl
  · rw [books_send]

/-! ## Sending -/

@[simp] theorem retryable_forwarded (head : RequestHead) (endStream : Bool) (s : Seat) :
    retryable (s.forwarded head) endStream = retryable head endStream := by
  unfold forwarded addForwarded
  split
  · rfl
  · rfl

/-- A request that came is sent, or answered here. -/
theorem dispatch_goes {s : Seat} {id : StreamId} {head : RequestHead} {endStream : Bool}
    (now : Instant)
    (lost : ∀ old, s.proxy.routes.lookup id = some old → allows .unrecorded)
    (refused : ∀ b, (s.ask head endStream).placement none now = .refused b →
      allows .stranded ∨
        covers (s.books rest).held (s.shared.health.claimTrial b now) b = true)
    (replaced : ∀ old, s.proxy.routes.lookup id = some old →
      allows .stranded ∨ Spares old (s.left id rest) s.shared.health s.shared.health) :
    Books.Moves allows (s.books rest) ((s.dispatch now id head endStream).books rest) := by
  have asked : Books.Moves allows (s.books rest) ((s.ask head endStream).books rest) :=
    .single (.ask head endStream)
  unfold dispatch
  dsimp only
  obtain ⟨-, ht⟩ | ⟨b, hp, ht⟩ | ⟨b, -, ht⟩ | ⟨b, lease, -, -, ht⟩ := attempt_cases rest id now
    { head := s.forwarded head, endStream
      spare := if retryable (s.forwarded head) endStream then some (s.forwarded head) else none
      exclude := none, attempts := 1, carry := none, request := s.shared.serial }
    (s.ask head endStream)
  · rw [ht]
    exact asked
  · rw [ht]
    exact asked.tail (.claim b now (refused b hp))
  · rw [ht]
    exact asked.tail (.miss b now)
  · rw [ht]
    have cleared : Books.Moves allows (s.books rest)
        { (s.ask head endStream).books rest with held := s.left id rest } := by
      cases h : s.proxy.routes.lookup id with
      | none =>
        have stays : s.left id rest = (s.books rest).held := by
          unfold left
          rw [AList.erase_of_none h]
          rfl
        rw [stays]
        exact asked
      | some old =>
        have taken : Books.Moves allows (s.books rest)
            { (s.ask head endStream).books rest with held := old :: s.left id rest } :=
          asked.tail (.shuffle (held_front h))
        exact taken.tail (.overwrite rfl (lost old h) (replaced old h))
    refine cleared.tail (.place
      { lease, requestDone := endStream, backend := b
        head := if retryable (s.forwarded head) endStream then some (s.forwarded head) else none
        attempts := 1, responseStarted := false, started := now, request := s.shared.serial
        ended := false } _ now rfl rfl ?_ rfl ⟨rfl, rfl⟩)
    dsimp only
    rw [retryable_forwarded]
    cases retryable head endStream <;> rfl

/-- The end of an attempt was heard, and reported where it says something. -/
def hearEnd (now : Instant) (event : ServiceEvent) (route : Route) (s : Seat) : Seat :=
  (s.heard route event).withShared fun sh =>
    { sh with health := sh.health.ended event route.backend now }

/-- Where a second attempt would get to. -/
def replacement (now : Instant) (id : StreamId) (event : ServiceEvent) (route : Route) (s : Seat) :
    Placement :=
  ((s.hearEnd now event route).withdraw id).placement (some route.backend) now

/-- An attempt ended unprocessed and the request is sent once more, or answered here. -/
theorem retry_goes {s t : Seat} {id : StreamId} {event : ServiceEvent} {route : Route}
    {now : Instant} (h : s.proxy.routes.lookup id = some route)
    (unprocessed : event.isUnprocessed = true)
    (ht : (s.hearEnd now event route).retry id now = some t)
    (lost : (∀ b, s.replacement now id event route ≠ .placed b) → allows .unrecorded)
    (hs : allows .stranded ∨ ¬ (s.replacement now id event route).strands (s.left id rest)
      ((s.replacement now id event route).after now
        (s.shared.health.ended event route.backend now)) route.backend = true) :
    Books.Moves allows (s.books rest) (t.books rest) := by
  have routed : (s.hearEnd now event route).proxy.routes.lookup id = some route := h
  unfold retry at ht
  rw [routed] at ht
  dsimp only at ht
  cases hspare : spare route with
  | none =>
    rw [hspare] at ht
    cases ht
  | some head =>
    rw [hspare] at ht
    obtain rfl := Option.some.inj ht
    rw [books_dropLease]
    have spared : ∀ p, s.replacement now id event route = p → allows .stranded ∨
        ∀ c, (p.after now (s.shared.health.ended event route.backend now)).onTrial c = true →
          p = .placed c ∨
          covers (s.left id rest)
            (p.after now (s.shared.health.ended event route.backend now)) c = true ∨
          c ≠ route.backend ∧ s.shared.health.onTrial c = true := by
      rintro p rfl
      exact hs.imp_right fun hs => Placement.spared hs fun c => Health.onTrial_ended
    -- Where nothing is placed, what is covered is covered by the routes left.
    have unplaced : ∀ p, s.replacement now id event route = p → (∀ b, p ≠ .placed b) →
        allows .stranded ∨ Spares route (s.left id rest) s.shared.health
          (p.after now (s.shared.health.ended event route.backend now)) := by
      intro p hp none
      exact (spared p hp).imp_right fun hc c trial =>
        (hc c trial).resolve_left (none c)
    obtain ⟨hp, ha⟩ | ⟨b, hp, ha⟩ | ⟨b, hp, ha⟩ | ⟨b, lease, hp, picked, ha⟩ :=
      attempt_cases rest id now
        { head, endStream := true, spare := some head, exclude := some route.backend
          attempts := route.attempts + 1, carry := some route.started, request := route.request }
        ((s.hearEnd now event route).withdraw id)
    · rw [ha]
      refine goes_front h (.giveUp event _ rfl unprocessed (lost ?_) (unplaced _ hp nofun))
      rintro b hb
      cases hp.symm.trans hb
    · rw [ha]
      refine goes_front h (.giveUp event _ rfl unprocessed (lost ?_) (unplaced _ hp nofun))
      rintro c hc
      cases hp.symm.trans hc
    · rw [ha]
      refine goes_front h (.giveUp event _ rfl unprocessed (lost ?_) (unplaced _ hp nofun))
      rintro c hc
      cases hp.symm.trans hc
    · have gone : (((s.hearEnd now event route).withdraw id).proxy.routes.erase id) =
          s.proxy.routes.erase id := by
        refine AList.erase_of_none ?_
        show (s.proxy.routes.erase id).lookup id = none
        rw [AList.lookup_erase_eq, if_pos rfl]
      rw [ha, gone]
      let new : Route :=
        { lease, requestDone := true, backend := b, head := some head
          attempts := route.attempts + 1, responseStarted := false, started := route.started
          request := route.request, ended := false }
      let among := (((s.hearEnd now event route).withdraw id).shared.eligible now).map (·.backend)
      have kept : allows .stranded ∨ Spares route (new :: s.left id rest) s.shared.health
          ((s.shared.health.ended event route.backend now).claimTrial b now) := by
        refine (spared _ hp).imp_right fun hc c trial => ?_
        obtain same | covered | other := hc c trial
        · cases same
          exact .inl (covers_of_waiting (r := new) _ List.mem_cons_self rfl)
        · exact .inl (covers_of_subset (List.subset_cons_self _ _) covered)
        · exact .inr other
      have again : (spare route).isSome = true := by
        rw [hspare]
        rfl
      have resent : Books.Move allows { s.books rest with held := route :: s.left id rest }
          { (s.books rest).observe [.heard route.request event, .sent route.request b among] with
            held := new :: s.left id rest
            health := (s.shared.health.ended event route.backend now).claimTrial b now } :=
        .resend event among now rfl unprocessed again rfl rfl ⟨rfl, rfl⟩
          (Shared.pick_away picked) kept
      have books_eq : (s.shared.log ++ [.heard route.request event]) ++
          [.sent route.request b among] =
          s.shared.log ++ [.heard route.request event, .sent route.request b among] := by
        rw [List.append_assoc]
        rfl
      refine Eq.mp (congrArg _ ?_) (goes_front h resent)
      unfold Books.observe books
      dsimp only
      rw [← books_eq]
      rfl

/-! ## Events -/

theorem interceptHead_goes (id : StreamId) (response : Response) (endStream : Bool) (s : Seat) :
    Books.Moves allows (s.books rest) ((s.interceptHead id response endStream).books rest) := by
  unfold interceptHead
  dsimp only
  split
  · exact .refl
  · rename_i route h
    refine goes_front h ?_
    unfold books withShared withRoutes heard Shared.withStats
    dsimp only
    unfold withShared Shared.success
    dsimp only
    rw [AList.values_modify _ h]
    exact .answer id response endStream rfl

theorem interceptShed_goes {s : Seat} {id : StreamId}
    (lost : (s.proxy.routes.lookup id).isSome = true → allows .unrecorded)
    (hs : ∀ route, s.proxy.routes.lookup id = some route →
      allows .stranded ∨ Spares route (s.left id rest) s.shared.health s.shared.health) :
    Books.Moves allows (s.books rest) ((s.interceptShed id).books rest) := by
  have quiet : ∃ stats, s.synthesized id 503 = { s with shared := { s.shared with stats } } ∧
      stats.clientStreams = s.shared.stats.clientStreams ∧
      stats.latency = s.shared.stats.latency := by
    unfold synthesized
    split
    · exact ⟨_, rfl, rfl, rfl⟩
    · exact ⟨_, rfl, rfl, rfl⟩
  obtain ⟨stats, hq, hstats, hlatency⟩ := quiet
  unfold interceptShed
  rw [hq]
  dsimp only
  split
  · unfold books
    dsimp only
    rw [hstats, hlatency]
  · rename_i route h
    have routed : (s.proxy.routes.lookup id).isSome = true := by
      rw [h]
      rfl
    have shed : Books.Moves allows (s.books rest) _ :=
      goes_front h (.shed id rfl (lost routed) (hs route h))
    refine Eq.mp (congrArg _ ?_) shed
    unfold books withShared heard removeRoute withRoutes
    dsimp only
    show _ = Books.mk _ (stats.clientStreams - 1) stats.latency _ _ _
    rw [hstats, hlatency]
    rfl

/-- What a retry needs not to slip. -/
def retrySlips (now : Instant) (id : StreamId) (event : ServiceEvent) (route : Route) (s : Seat) :
    Bool :=
  (spare route).isSome && match s.replacement now id event route with
    | .placed _ => false
    | _ => true

/-- The end of an attempt leaves a trial with nothing to end it. -/
def endStrands (now : Instant) (id : StreamId) (event : ServiceEvent) (rest : List Route)
    (route : Route) (s : Seat) : Bool :=
  let health := s.shared.health.ended event route.backend now
  if event.isUnprocessed && (spare route).isSome then
    (s.replacement now id event route).strands (s.left id rest)
      ((s.replacement now id event route).after now health) route.backend
  else !covers (s.left id rest) health route.backend

theorem retry_none {s : Seat} {id : StreamId} {route : Route} {now : Instant}
    (h : s.proxy.routes.lookup id = some route) (ht : s.retry id now = none) :
    spare route = none := by
  unfold retry at ht
  rw [h] at ht
  dsimp only at ht
  cases hs : spare route with
  | none => rfl
  | some head =>
    rw [hs] at ht
    cases ht

/-- What is not stranded is spared. -/
theorem spares_of_covers {old : Route} {left : List Route} {before after : Health}
    (fewer : ∀ c, after.onTrial c = true → before.onTrial c = true)
    (h : covers left after old.backend = true) : Spares old left before after := by
  intro c trial
  by_cases same : c = old.backend
  · rw [same]
    exact .inl h
  · exact .inr ⟨same, fewer c trial⟩

/-- An attempt ended, and its end is passed on. -/
theorem settle_goes {s : Seat} {id : StreamId} {event : ServiceEvent} {route : Route}
    {now : Instant} (h : s.proxy.routes.lookup id = some route)
    (final : event.isUnprocessed = true → spare route = none)
    (silent : ∀ id response endStream, event ≠ .head id response endStream)
    (hs : allows .stranded ∨ s.endStrands now id event rest route = false) :
    Books.Moves allows (s.books rest) (((s.hearEnd now event route).settle id).books rest) := by
  have spared : allows .stranded ∨ Spares route (s.left id rest) s.shared.health
      (s.shared.health.ended event route.backend now) := by
    refine hs.imp_right fun hs => spares_of_covers (fun _ => Health.onTrial_ended) ?_
    have once : ¬ (event.isUnprocessed && (spare route).isSome) = true := by
      rw [Bool.and_eq_true]
      rintro ⟨unprocessed, again⟩
      rw [final unprocessed] at again
      cases again
    unfold endStrands at hs
    dsimp only at hs
    rw [if_neg once] at hs
    simpa using hs
  refine goes_front h ?_
  unfold settle books withRoutes
  dsimp only
  have routes : (s.hearEnd now event route).proxy.routes = s.proxy.routes := rfl
  rw [routes, AList.values_modify _ h]
  exact .settle event now rfl final silent spared

/-- The end of an attempt is passed on, unless the request is sent once more. -/
theorem end_goes {s : Seat} {id : StreamId} {route : Route} {now : Instant} (event : ServiceEvent)
    (h : s.proxy.routes.lookup id = some route) (unprocessed : event.isUnprocessed = true)
    (lost : s.retrySlips now id event route = true → allows .unrecorded)
    (hs : allows .stranded ∨ s.endStrands now id event rest route = false) :
    (∀ t, (s.hearEnd now event route).retry id now = some t →
      Books.Moves allows (s.books rest) (t.books rest)) ∧
    ((s.hearEnd now event route).retry id now = none →
      Books.Moves allows (s.books rest) (((s.hearEnd now event route).settle id).books rest)) := by
  constructor
  · intro t ht
    cases hspare : spare route with
    | none =>
      unfold retry at ht
      have routed : (s.hearEnd now event route).proxy.routes.lookup id = some route := h
      rw [routed] at ht
      dsimp only at ht
      rw [hspare] at ht
      cases ht
    | some head =>
      refine retry_goes h unprocessed ht ?_ ?_
      · intro unplaced
        refine lost ?_
        unfold retrySlips
        rw [hspare]
        cases hp : s.replacement now id event route with
        | placed b => exact absurd hp (unplaced b)
        | nowhere => rfl
        | refused b => rfl
        | dead b => rfl
      · refine hs.imp_right fun hs => ?_
        unfold endStrands at hs
        dsimp only at hs
        rw [if_pos (by rw [unprocessed, hspare]; rfl)] at hs
        rw [hs]
        exact Bool.false_ne_true
  · intro ht
    refine settle_goes h (fun _ => retry_none (s := s.hearEnd now event route) h ht) ?_ hs
    rintro id response endStream rfl
    cases unprocessed

theorem interceptGone_goes {s : Seat} {id : StreamId} {now : Instant}
    (lost : ∀ route, s.proxy.routes.lookup id = some route →
      s.retrySlips now id (.gone id) route = true → allows .unrecorded)
    (hs : ∀ route, s.proxy.routes.lookup id = some route →
      allows .stranded ∨ s.endStrands now id (.gone id) rest route = false) :
    Books.Moves allows (s.books rest) ((s.interceptGone now id).1.books rest) := by
  unfold interceptGone
  split
  · exact .refl
  · rename_i route h
    obtain ⟨again, goesOn⟩ := end_goes (.gone id) h rfl (lost route h) (hs route h)
    have heard : (s.heard route (.gone id)).withShared (·.failure route.backend now) =
        s.hearEnd now (.gone id) route := rfl
    dsimp only
    rw [heard]
    split
    · rename_i t ht
      exact again t ht
    · rename_i ht
      have quiet : ∀ t : Seat, ((t.synthesized id 502).settle id).books rest =
          (t.settle id).books rest := by
        intro t
        unfold synthesized
        split
        · rfl
        · rfl
      dsimp only
      rw [quiet]
      exact goesOn ht

theorem interceptReset_goes {s : Seat} {id : StreamId} {code : ErrorCode} {now : Instant}
    (lost : ∀ route, s.proxy.routes.lookup id = some route → code = .refusedStream →
      s.retrySlips now id (.reset id code) route = true → allows .unrecorded)
    (hs : ∀ route, s.proxy.routes.lookup id = some route →
      allows .stranded ∨ s.endStrands now id (.reset id code) rest route = false) :
    Books.Moves allows (s.books rest) ((s.interceptReset now id code).1.books rest) := by
  unfold interceptReset
  split
  · exact .refl
  · rename_i route h
    dsimp only
    split
    · rename_i refused
      subst refused
      obtain ⟨again, goesOn⟩ := end_goes (.reset id .refusedStream) h rfl (lost route h rfl)
        (hs route h)
      have heard : s.heard route (.reset id .refusedStream) =
          s.hearEnd now (.reset id .refusedStream) route := rfl
      rw [heard]
      split
      · rename_i t ht
        exact again t ht
      · rename_i ht
        exact goesOn ht
    · rename_i other
      have heard : (s.heard route (.reset id code)).withShared (·.failure route.backend now) =
          s.hearEnd now (.reset id code) route := by
        unfold hearEnd Health.ended
        simp only [if_neg other]
        rfl
      rw [heard]
      refine settle_goes h ?_ (fun _ _ _ same => by cases same) (hs route h)
      intro unprocessed
      exact absurd (of_decide_eq_true unprocessed) other

/-! ## The end of a proxy -/

theorem dropRoutes_goes (rest : List Route) (now : Instant)
    (es : List (Sigma fun _ : StreamId => Route)) (s : Seat)
    (entries : s.proxy.routes.entries = es)
    (hs : ∀ e ∈ es, allows .stranded ∨ covers rest s.shared.health e.2.backend = true) :
    Books.Moves allows (s.books rest) ((s.dropRoutes now es).books rest) ∧
      (s.dropRoutes now es).proxy.routes.values = [] := by
  induction es generalizing s with
  | nil =>
    refine ⟨.refl, ?_⟩
    show s.proxy.routes.values = []
    unfold AList.values
    rw [entries]
    rfl
  | cons e es ih =>
    obtain ⟨id, route⟩ := e
    have h : s.proxy.routes.lookup id = some route := by
      unfold AList.lookup
      rw [entries]
      exact List.dlookup_cons_eq _ _ _
    have erased : (s.proxy.routes.erase id).entries = es := by
      show s.proxy.routes.entries.kerase id = es
      rw [entries]
      exact List.kerase_cons_eq rfl
    have closed : Books.Moves allows (s.books rest) _ := close_goes now h
      ((hs ⟨id, route⟩ List.mem_cons_self).imp_right fun hc =>
        spares_of_covers (fun _ trial => trial) (covers_of_subset (List.subset_append_right _ _) hc))
    obtain ⟨moves, none⟩ := ih
      (((s.removeRoute id).finished now route).withShared (·.dropLease route.lease)) erased
      fun e he => hs e (List.mem_cons_of_mem _ he)
    exact ⟨closed.trans moves, none⟩

/-- A proxy's end ends its routes. -/
theorem drop_goes (now : Instant) (s : Seat)
    (hs : ∀ route ∈ s.proxy.routes.values,
      allows .stranded ∨ covers rest s.shared.health route.backend = true) :
    Books.Moves allows (s.books rest) { (s.drop now).books rest with held := rest } := by
  obtain ⟨moves, none⟩ := dropRoutes_goes rest now s.proxy.routes.entries s rfl
    fun e he => hs e.2 (List.mem_map.mpr ⟨e, he, rfl⟩)
  refine Eq.mp (congrArg _ ?_) moves
  unfold drop books withShared Shared.withStats ProxyStats.clientDisconnected
  dsimp only
  rw [none]
  rfl

/-! ## Calls -/

/-- The call loses a request: its route goes, and nothing records it as over. -/
def loses (now : Instant) (c : Call) (s : Seat) : Bool :=
  match c with
  | .dispatch id _ _ => (s.proxy.routes.lookup id).isSome
  | .intercept event =>
    match s.proxy.routes.lookup event.id with
    | none => false
    | some route =>
      match event with
      | .shed _ => true
      | .gone id => s.retrySlips now id event route
      | .reset id code => code = .refusedStream && s.retrySlips now id event route
      | _ => false
  | _ => false

/-- The stream's route is the last attempt that a trial of its backend has. -/
def endsTrial (id : StreamId) (rest : List Route) (s : Seat) : Bool :=
  (s.proxy.routes.lookup id).any fun route =>
    !covers (s.left id rest) s.shared.health route.backend

/-- The call leaves a trial with no attempt to end it. -/
def strands (now : Instant) (rest : List Route) (c : Call) (s : Seat) : Bool :=
  match c with
  | .dispatch id head endStream =>
    s.endsTrial id rest || match (s.ask head endStream).placement none now with
      | .refused b => !covers (s.books rest).held (s.shared.health.claimTrial b now) b
      | _ => false
  | .cancel id _ | .finish id => s.endsTrial id rest
  | .intercept event =>
    match event with
    | .shed id => s.endsTrial id rest
    | .gone id | .reset id _ =>
      (s.proxy.routes.lookup id).any fun route => s.endStrands now id event rest route
    | _ => false
  | .drop => s.proxy.routes.values.any fun route => !covers rest s.shared.health route.backend
  | _ => false

/-- How a call can slip, in the state it is made in. -/
def slips (now : Instant) (rest : List Route) (c : Call) (s : Seat) : Slip → Bool
  | .unrecorded => s.loses now c
  | .stranded => s.strands now rest c

theorem endsTrial_or_spares {s : Seat} {id : StreamId} {route : Route}
    (h : s.proxy.routes.lookup id = some route) :
    s.endsTrial id rest = true ∨
      Spares route (s.left id rest) s.shared.health s.shared.health := by
  unfold endsTrial
  rw [h]
  cases hc : covers (s.left id rest) s.shared.health route.backend with
  | true => exact .inr (spares_of_covers (fun _ trial => trial) hc)
  | false =>
    left
    show (!covers (s.left id rest) s.shared.health route.backend) = true
    rw [hc]
    rfl

/-- What a call that leaves the proxy alive does to the books. -/
theorem call_goes (now : Instant) (c : Call) (s : Seat) (live : c ≠ .drop) :
    Books.Moves (s.slips now rest c ·) (s.books rest) ((s.call now c).books rest) := by
  cases c with
  | dispatch id head endStream =>
    refine dispatch_goes now ?_ ?_ ?_
    · intro old h
      show (s.proxy.routes.lookup id).isSome = true
      rw [h]
      rfl
    · intro b hp
      cases hc : covers (s.books rest).held (s.shared.health.claimTrial b now) b with
      | true => exact .inr rfl
      | false =>
        left
        show (s.endsTrial id rest || match (s.ask head endStream).placement none now with
          | .refused b => !covers (s.books rest).held (s.shared.health.claimTrial b now) b
          | _ => false) = true
        rw [hp]
        dsimp only
        rw [hc]
        exact Bool.or_true _
    · intro old h
      refine (endsTrial_or_spares h).imp_left fun he => ?_
      show (s.endsTrial id rest || _) = true
      rw [he]
      rfl
  | body id data endStream => exact body_goes id data endStream s
  | trailers id fields => exact trailers_goes id fields s
  | cancel id code => exact cancel_goes now code fun route h => endsTrial_or_spares h
  | finish id => exact finish_goes now fun route h => endsTrial_or_spares h
  | released id n => exact released_goes id n s
  | drop => exact absurd rfl live
  | intercept event =>
    cases event with
    | head id response endStream => exact interceptHead_goes id response endStream s
    | data id data endStream => exact .refl
    | trailers id fields => exact .refl
    | bodyAccepted id n => exact .refl
    | shed id =>
      refine interceptShed_goes ?_ fun route h => endsTrial_or_spares h
      intro routed
      obtain ⟨route, h⟩ := Option.isSome_iff_exists.mp routed
      show (match s.proxy.routes.lookup id with
        | none => false
        | some _ => true) = true
      rw [h]
    | gone id =>
      refine interceptGone_goes ?_ ?_
      · intro route h slips
        show (match s.proxy.routes.lookup id with
          | none => false
          | some route => s.retrySlips now id (.gone id) route) = true
        rw [h]
        exact slips
      · intro route h
        cases hs : s.endStrands now id (.gone id) rest route with
        | false => exact .inr rfl
        | true =>
          left
          show ((s.proxy.routes.lookup id).any fun route =>
            s.endStrands now id (.gone id) rest route) = true
          rw [h]
          exact hs
    | reset id code =>
      refine interceptReset_goes ?_ ?_
      · intro route h refused slips
        show (match s.proxy.routes.lookup id with
          | none => false
          | some route => code = .refusedStream && s.retrySlips now id (.reset id code) route) = true
        rw [h]
        dsimp only
        rw [slips, decide_eq_true refused]
        rfl
      · intro route h
        cases hs : s.endStrands now id (.reset id code) rest route with
        | false => exact .inr rfl
        | true =>
          left
          show ((s.proxy.routes.lookup id).any fun route =>
            s.endStrands now id (.reset id code) rest route) = true
          rw [h]
          exact hs

end Seat

/-! ## Sites -/

namespace Site

/-- What the client's proxy works on. -/
def seat (proxy : Proxy) (s : Site) : Seat := ⟨proxy, s.shared, []⟩

/-- How a step can slip, in the state it starts in. -/
def slips (s : Site) (i : Instant × SiteInput) (slip : Slip) : Bool :=
  match i with
  | (now, .call client c) =>
    match s.proxies.lookup client with
    | none => false
    | some proxy => (s.seat proxy).slips now (s.others client) c slip
  | _ => false

theorem books_perm {s : Site} {client : Nat} {proxy : Proxy}
    (h : s.proxies.lookup client = some proxy) :
    s.books.held.Perm ((s.seat proxy).books (s.others client)).held :=
  List.Perm.flatMap_right (fun p : Proxy => p.routes.values) (AList.values_perm h)

/-- Every step is a sequence of moves, without the slips it does not make. -/
theorem step_moves (s : Site) (i : Instant × SiteInput) :
    Books.Moves (s.slips i ·) s.books (step i s).books := by
  obtain ⟨now, input⟩ := i
  cases input with
  | connect client peer trust =>
    unfold step
    dsimp only
    split
    · exact .refl
    · rename_i h
      have fresh : s.proxies.lookup client = none := Option.not_isSome_iff_eq_none.mp h
      have same : (s.proxies.insert client (newProxy client peer trust)).values.flatMap
          (·.routes.values) = s.proxies.values.flatMap (·.routes.values) := by
        rw [AList.values_insert, AList.erase_of_none fresh]
        rfl
      unfold books
      dsimp only
      rw [same]
      exact .refl
  | report conn r =>
    cases r with
    | silent backend => exact .single (.fail backend now)
    | queued depth => exact .refl
    | maxConcurrent max => exact .refl
    | retired => exact .refl
    | died => exact .refl
  | call client c =>
    unfold step slips
    dsimp only
    cases h : s.proxies.lookup client with
    | none => exact .refl
    | some proxy =>
      dsimp only
      have front : Books.Moves ((s.seat proxy).slips now (s.others client) c ·) s.books
          ((s.seat proxy).books (s.others client)) := .single (.shuffle (books_perm h))
      by_cases hd : c = .drop
      · subst hd
        rw [if_pos rfl]
        refine front.trans (Seat.drop_goes now (s.seat proxy) fun route hr => ?_)
        cases hc : covers (s.others client) s.shared.health route.backend with
        | true => exact .inr hc
        | false =>
          refine .inl (List.any_eq_true.mpr ⟨route, hr, ?_⟩)
          show (!covers (s.others client) s.shared.health route.backend) = true
          rw [hc]
          rfl
      · rw [if_neg hd]
        exact front.trans (Seat.call_goes now c (s.seat proxy) hd)

end Site

end H2Proxy
