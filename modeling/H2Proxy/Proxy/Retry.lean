import H2Proxy.Lib.Monitor
import H2Proxy.Proxy.Accounts

/-
  A request is sent at most twice, and a second time only where nothing of it can have run.

  `tries` reads what the log says about one request, and is stuck where a request is sent
  that may not be. Each route held is in step with its request's tries: that is all the
  proxies keep in mind, and it is enough.
-/

namespace H2Proxy

/-- What may still become of a request. -/
inductive Tries
  | unasked
  /-- It came; `again` if it may be sent twice. -/
  | asked (again : Bool)
  /-- It was sent once; `answered` once a response head was seen. -/
  | tried (again : Bool) (backend : Backend) (answered : Bool)
  /-- That attempt ended unprocessed, and no head was seen. -/
  | failed (backend : Backend)
  /-- It is not sent any more. -/
  | spent
deriving DecidableEq

/-- It may be sent twice: its method is idempotent and it has neither body nor trailers. -/
def RequestHead.repeatable (head : RequestHead) (endStream : Bool) : Bool :=
  endStream && idempotent.contains head.method

namespace Tries

/-- The tries of one request. A second one goes to another backend, where health offered
    another. -/
def next : Tries → ProxyObs → Option Tries
  | unasked, .asked _ head endStream => some (asked (head.repeatable endStream))
  | asked again, .sent _ backend _ => some (tried again backend false)
  | tried again backend _, .heard _ (.head ..) => some (tried again backend true)
  | tried again backend false, .heard _ event =>
    if event.isUnprocessed then some (if again then failed backend else spent)
    else some (tried again backend false)
  | tried again backend true, .heard .. => some (tried again backend true)
  | failed old, .sent _ backend among =>
    if backend = old ∧ ∃ c ∈ among, c ≠ old then none else some spent
  | spent, .heard .. => some spent
  | _, _ => none

/-- Before a head, an end decides. -/
theorem next_tried {again : Bool} {backend : Backend} {r : Nat} {event : ServiceEvent}
    (silent : ∀ id response endStream, event ≠ .head id response endStream) :
    (tried again backend false).next (.heard r event) =
      if event.isUnprocessed then some (if again then failed backend else spent)
      else some (tried again backend false) := by
  cases event with
  | head id response endStream => exact absurd rfl (silent id response endStream)
  | _ => rfl

/-- After a head, nothing that is heard matters. -/
theorem next_answered {again : Bool} {backend : Backend} {r : Nat} (event : ServiceEvent) :
    (tried again backend true).next (.heard r event) = some (tried again backend true) := by
  cases event <;> rfl

end Tries

/-- What is said about a request, but for the statistics. -/
def about (r : Nat) (o : ProxyObs) : Option ProxyObs :=
  if o.request = r ∧ o.silent = true then some o else none

/-- The rule for sending a request, over what is said about it. -/
def tries : Monitor ProxyObs Tries := ⟨.unasked, Tries.next⟩

/-- Where the tries of a request stand after a log. -/
abbrev triesOf (r : Nat) (log : List ProxyObs) : Option Tries := tries.watch (about r) log

section Letters

variable {r : Nat} {log : List ProxyObs} {t t' : Tries}

theorem triesOf_other {added : List ProxyObs} {r₀ : Nat} (h : ∀ o ∈ added, o.request = r₀)
    (other : r ≠ r₀) : triesOf r (log ++ added) = triesOf r log := by
  refine Monitor.watch_silent fun o ho => ?_
  unfold about
  rw [if_neg]
  rintro ⟨same, -⟩
  exact other (same.symm.trans (h o ho))

/-- The statistics are no letters. -/
theorem triesOf_quiet {o : ProxyObs} (h : o.silent = false) :
    triesOf r (log ++ [o]) = triesOf r log := by
  refine Monitor.watch_silent fun o' ho => ?_
  rw [List.mem_singleton.mp ho]
  unfold about
  rw [h, if_neg]
  rintro ⟨-, silent⟩
  cases silent

theorem triesOf_concat {o : ProxyObs} (h : triesOf r log = some t) (same : o.request = r)
    (silent : o.silent = true) (next : t.next o = some t') :
    triesOf r (log ++ [o]) = some t' := by
  have spelled : about r o = some o := if_pos ⟨same, silent⟩
  exact (Monitor.watch_concat h spelled).trans next

end Letters

namespace Books

/-- A route is in step with the tries of its request. -/
def Fits (t : Tries) (route : Route) : Prop :=
  (route.attempts = 1 ∧ t = .tried route.head.isSome route.backend route.responseStarted) ∨
    (Seat.spare route = none ∧ t = .spent)

/-- What can be sent again was sent once and not answered. -/
theorem spare_isSome {route : Route} (h : (Seat.spare route).isSome = true) :
    route.responseStarted = false ∧ route.attempts < 2 ∧ route.head.isSome = true := by
  unfold Seat.spare at h
  split at h
  · cases h
  · rename_i hn
    obtain ⟨unanswered, once⟩ := not_or.mp hn
    exact ⟨Bool.eq_false_of_not_eq_true unanswered, Nat.not_le.mp once, h⟩

/-- A first attempt without an answer that cannot be sent again has no head for it. -/
theorem head_of_spare_none {route : Route} (once : route.attempts = 1)
    (unanswered : route.responseStarted = false) (h : Seat.spare route = none) :
    route.head.isSome = false := by
  unfold Seat.spare at h
  rw [if_neg] at h
  · rw [h]
    rfl
  · rw [unanswered, once]
    decide

/-- An end that is passed on leaves the route in step. -/
theorem Fits.settles {t : Tries} {route : Route} (h : Fits t route) {event : ServiceEvent}
    (final : event.isUnprocessed = true → Seat.spare route = none)
    (silent : ∀ id response endStream, event ≠ .head id response endStream) :
    ∃ t', t.next (.heard route.request event) = some t' ∧
      Fits t' { route with ended := true } := by
  rcases h with ⟨once, rfl⟩ | ⟨last, rfl⟩
  · cases hr : route.responseStarted with
    | true =>
      exact ⟨_, Tries.next_answered event, .inl ⟨once, rfl⟩⟩
    | false =>
      rw [Tries.next_tried silent]
      cases hu : event.isUnprocessed with
      | true =>
        rw [head_of_spare_none once hr (final hu)]
        refine ⟨.spent, rfl, .inr ⟨?_, rfl⟩⟩
        rw [← hr]
        exact final hu
      | false =>
        exact ⟨_, rfl, .inl ⟨once, rfl⟩⟩
  · exact ⟨.spent, rfl, .inr ⟨last, rfl⟩⟩

theorem Fits.answers {t : Tries} {route : Route} (h : Fits t route) (id : StreamId)
    (response : Response) (endStream : Bool) :
    ∃ t', t.next (.heard route.request (.head id response endStream)) = some t' ∧
      Fits t' { route with responseStarted := true } := by
  rcases h with ⟨once, rfl⟩ | ⟨last, rfl⟩
  · refine ⟨.tried route.head.isSome route.backend true, ?_, .inl ⟨once, rfl⟩⟩
    cases route.responseStarted <;> rfl
  · refine ⟨.spent, rfl, .inr ⟨?_, rfl⟩⟩
    exact if_pos (.inl rfl)

/-- Whatever is heard on a route, its tries go on. -/
theorem Fits.hears {t : Tries} {route : Route} (h : Fits t route) (event : ServiceEvent) :
    ∃ t', t.next (.heard route.request event) = some t' := by
  by_cases head : ∃ id response endStream, event = .head id response endStream
  · obtain ⟨id, response, endStream, rfl⟩ := head
    obtain ⟨t', next, -⟩ := h.answers id response endStream
    exact ⟨t', next⟩
  · have silent : ∀ id response endStream, event ≠ .head id response endStream :=
      fun id response endStream he => head ⟨id, response, endStream, he⟩
    rcases h with ⟨-, rfl⟩ | ⟨-, rfl⟩
    · cases route.responseStarted with
      | true => exact ⟨_, Tries.next_answered event⟩
      | false =>
        rw [Tries.next_tried silent]
        split
        · exact ⟨_, rfl⟩
        · exact ⟨_, rfl⟩
    · exact ⟨_, rfl⟩

/-- A request that is sent once more is sent for the last time. -/
theorem Fits.resends {t : Tries} {old new : Route} (h : Fits t old) {event : ServiceEvent}
    {among : List Backend} (unprocessed : event.isUnprocessed = true)
    (spare : (Seat.spare old).isSome = true) (counted : new.attempts = old.attempts + 1)
    (away : new.backend = old.backend → ∀ c ∈ among, c = old.backend) :
    ∃ t₁, t.next (.heard old.request event) = some t₁ ∧
      t₁.next (.sent old.request new.backend among) = some .spent ∧ Fits .spent new := by
  obtain ⟨unanswered, -, some_⟩ := spare_isSome spare
  rcases h with ⟨once, rfl⟩ | ⟨last, rfl⟩
  · have silent : ∀ id response endStream, event ≠ .head id response endStream := by
      rintro id response endStream rfl
      cases unprocessed
    rw [unanswered, some_, Tries.next_tried silent, unprocessed]
    refine ⟨.failed old.backend, rfl, ?_, .inr ⟨?_, rfl⟩⟩
    · show (if _ then none else some Tries.spent) = _
      rw [if_neg]
      rintro ⟨same, c, hc, other⟩
      exact other (away same c hc)
    · unfold Seat.spare
      rw [if_pos]
      rw [counted, once]
      exact .inr (Nat.le_refl _)
  · rw [last] at spare
    cases spare

/-- Every request is sent as it may be, and the routes held are in step. -/
structure InStep (b : Books) : Prop where
  apart : b.requests.Nodup
  accepted : ∀ r, ∃ t, triesOf r b.log = some t
  fits : ∀ route ∈ b.held, ∃ t, triesOf route.request b.log = some t ∧ Fits t route
  fresh : ∀ r, b.serial ≤ r → triesOf r b.log = some .unasked
  latest : ∀ r head endStream, b.log.getLast? = some (.asked r head endStream) →
    triesOf r b.log = some (.asked (head.repeatable endStream))

namespace InStep

variable {b c : Books}

/-- Something is said about one request; the other routes held stay, or go. -/
theorem said (h : b.InStep) (r : Nat) (added : List ProxyObs) (t : Tries)
    (log : c.log = b.log ++ added) (one : ∀ o ∈ added, o.request = r)
    (unasked : ∀ o ∈ added, ∀ r' head endStream, o ≠ .asked r' head endStream)
    (some_ : added ≠ []) (serial : c.serial = b.serial) (old : r < b.serial)
    (now : triesOf r c.log = some t) (apart : c.requests.Nodup)
    (fits : ∀ route ∈ c.held, route ∈ b.held ∧ route.request ≠ r ∨
      route.request = r ∧ Fits t route) : c.InStep := by
  have other : ∀ r', r' ≠ r → triesOf r' c.log = triesOf r' b.log := by
    intro r' hr
    rw [log]
    exact triesOf_other one hr
  constructor
  · exact apart
  · intro r'
    by_cases hr : r' = r
    · rw [hr]
      exact ⟨t, now⟩
    · rw [other r' hr]
      exact h.accepted r'
  · intro route hroute
    rcases fits route hroute with ⟨stays, hr⟩ | ⟨same, hfit⟩
    · rw [other _ hr]
      exact h.fits route stays
    · rw [same]
      exact ⟨t, now, hfit⟩
  · intro r' hr
    rw [serial] at hr
    rw [other r' (by omega)]
    exact h.fresh r' hr
  · intro r' head endStream last
    obtain ⟨o, hlast⟩ := Option.isSome_iff_exists.mp (List.getLast?_isSome.mpr some_)
    rw [log, List.getLast?_append, hlast] at last
    exact absurd (Option.some.inj last) (unasked o (List.mem_of_getLast? hlast) r' head endStream)

/-- Nothing is said; each route held is one that was, as far as its tries go. -/
theorem unsaid (h : b.InStep) (log : c.log = b.log) (serial : c.serial = b.serial)
    (apart : c.requests.Nodup)
    (held : ∀ route ∈ c.held, ∃ old ∈ b.held, route.request = old.request ∧
      ∀ t, Fits t old → Fits t route) : c.InStep := by
  constructor
  · exact apart
  · rw [log]
    exact h.accepted
  · intro route hroute
    obtain ⟨old, hold, same, hfit⟩ := held route hroute
    obtain ⟨t, ht, fits⟩ := h.fits old hold
    rw [log, same]
    exact ⟨t, ht, hfit t fits⟩
  · rw [log, serial]
    exact h.fresh
  · rw [log]
    exact h.latest

/-- A route held is about a request that came. -/
theorem lt_serial (h : b.InStep) {route : Route} (hr : route ∈ b.held) :
    route.request < b.serial := by
  obtain ⟨t, ht, hfit⟩ := h.fits route hr
  rcases Nat.lt_or_ge route.request b.serial with lt | ge
  · exact lt
  · have fresh := h.fresh _ ge
    rw [ht] at fresh
    rcases hfit with ⟨-, rfl⟩ | ⟨-, rfl⟩
    · cases fresh
    · cases fresh

/-- The routes left when one goes are about other requests. -/
theorem rest_ne (h : b.InStep) {old : Route} {rest : List Route} (held : b.held = old :: rest) :
    (rest.map (·.request)).Nodup ∧ ∀ route ∈ rest, route ∈ b.held ∧ route.request ≠ old.request := by
  have apart := h.apart
  unfold Books.requests at apart
  rw [held] at apart
  obtain ⟨gone, nodup⟩ := List.nodup_cons.mp apart
  refine ⟨nodup, fun route hr => ⟨?_, fun same => gone ?_⟩⟩
  · rw [held]
    exact List.mem_cons_of_mem _ hr
  · exact List.mem_map.mpr ⟨route, hr, same⟩

/-- Something is said about the request of the route in hand, which goes. -/
theorem leaves (h : b.InStep) {old : Route} {rest : List Route} (held : b.held = old :: rest)
    (o : ProxyObs) (same : o.request = old.request)
    (unasked : ∀ r head endStream, o ≠ .asked r head endStream)
    (next : o.silent = true → ∀ t, Fits t old → ∃ t', t.next o = some t')
    (log : c.log = b.log ++ [o]) (serial : c.serial = b.serial) (left : c.held = rest) :
    c.InStep := by
  have mine : old ∈ b.held := by
    rw [held]
    exact List.mem_cons_self
  obtain ⟨t, ht, hfit⟩ := h.fits old mine
  obtain ⟨nodup, others⟩ := h.rest_ne held
  have now : ∃ t', triesOf old.request c.log = some t' := by
    rw [log]
    cases hs : o.silent with
    | false =>
      rw [triesOf_quiet hs]
      exact ⟨t, ht⟩
    | true =>
      obtain ⟨t', hn⟩ := next hs t hfit
      exact ⟨t', triesOf_concat ht same hs hn⟩
  obtain ⟨t', now⟩ := now
  refine h.said old.request [o] t' log ?_ ?_ (List.cons_ne_nil _ _) serial (h.lt_serial mine) now
    ?_ ?_
  · intro o' ho
    rw [List.mem_singleton.mp ho]
    exact same
  · intro o' ho
    rw [List.mem_singleton.mp ho]
    exact unasked
  · unfold Books.requests
    rw [left]
    exact nodup
  · intro route hr
    rw [left] at hr
    exact .inl (others route hr)

/-- Something is said about the request of the route in hand, and the route stays in step. -/
theorem stays (h : b.InStep) {old : Route} {rest : List Route} (held : b.held = old :: rest)
    (event : ServiceEvent) (new : Route) (same : new.request = old.request)
    (next : ∀ t, Fits t old →
      ∃ t', t.next (.heard old.request event) = some t' ∧ Fits t' new)
    (log : c.log = b.log ++ [.heard old.request event]) (serial : c.serial = b.serial)
    (left : c.held = new :: rest) : c.InStep := by
  have mine : old ∈ b.held := by
    rw [held]
    exact List.mem_cons_self
  obtain ⟨t, ht, hfit⟩ := h.fits old mine
  obtain ⟨t', hn, hfit'⟩ := next t hfit
  obtain ⟨-, others⟩ := h.rest_ne held
  have now : triesOf old.request c.log = some t' := by
    rw [log]
    exact triesOf_concat ht rfl rfl hn
  refine h.said old.request [.heard old.request event] t' log ?_ ?_ (List.cons_ne_nil _ _) serial
    (h.lt_serial mine) now ?_ ?_
  · intro o ho
    rw [List.mem_singleton.mp ho]
    rfl
  · intro o ho
    rw [List.mem_singleton.mp ho]
    nofun
  · have apart := h.apart
    unfold Books.requests at apart ⊢
    rw [held] at apart
    rw [left, List.map_cons, same]
    exact apart
  · intro route hr
    rw [left] at hr
    rcases List.mem_cons.mp hr with rfl | hr
    · exact .inr ⟨same, hfit'⟩
    · exact .inl (others route hr)

/-- A request came. -/
theorem asked (h : b.InStep) (head : RequestHead) (endStream : Bool) :
    InStep { b.observe [.asked b.serial head endStream] with serial := b.serial + 1 } := by
  have other : ∀ r, r ≠ b.serial →
      triesOf r (b.log ++ [.asked b.serial head endStream]) = triesOf r b.log := by
    intro r hr
    refine triesOf_other ?_ hr
    intro o ho
    rw [List.mem_singleton.mp ho]
    rfl
  have now : triesOf b.serial (b.log ++ [ProxyObs.asked b.serial head endStream]) =
      some (Tries.asked (head.repeatable endStream)) :=
    triesOf_concat (h.fresh _ (Nat.le_refl _)) rfl rfl rfl
  constructor
  · exact h.apart
  · intro r
    by_cases hr : r = b.serial
    · rw [hr]
      exact ⟨_, now⟩
    · obtain ⟨t, ht⟩ := h.accepted r
      exact ⟨t, (other r hr).trans ht⟩
  · intro route hroute
    obtain ⟨t, ht, hfit⟩ := h.fits route hroute
    have := h.lt_serial hroute
    exact ⟨t, (other _ (by omega)).trans ht, hfit⟩
  · intro r hr
    replace hr : b.serial + 1 ≤ r := hr
    exact (other r (by omega)).trans (h.fresh r (by omega))
  · intro r head' endStream' last
    replace last : (b.log ++ [ProxyObs.asked b.serial head endStream]).getLast? = _ := last
    rw [List.getLast?_concat] at last
    cases last
    exact now

/-- A request that came is sent. -/
theorem placed (h : b.InStep) {log : List ProxyObs} {head : RequestHead} {endStream : Bool}
    {route : Route} {among : List Backend} {health : Health}
    (asked : b.log = log ++ [.asked route.request head endStream])
    (latest : route.request + 1 = b.serial)
    (spare : route.head.isSome = Seat.retryable head endStream) (first : route.attempts = 1)
    (unanswered : route.responseStarted = false) :
    InStep { b.observe [.sent route.request route.backend among, .opened route.request] with
      held := route :: b.held, clientStreams := b.clientStreams + 1, health } := by
  have last : b.log.getLast? = some (.asked route.request head endStream) := by
    rw [asked]
    exact List.getLast?_concat
  have before := h.latest _ _ _ last
  have sent : triesOf route.request (b.log ++ [.sent route.request route.backend among]) =
      some (.tried route.head.isSome route.backend false) := by
    refine triesOf_concat before rfl rfl ?_
    rw [spare]
    rfl
  have now : triesOf route.request
      (b.log ++ [.sent route.request route.backend among, .opened route.request]) =
      some (.tried route.head.isSome route.backend false) := by
    have split : b.log ++ [ProxyObs.sent route.request route.backend among, .opened route.request] =
        (b.log ++ [.sent route.request route.backend among]) ++ [.opened route.request] := by
      rw [List.append_assoc]
      rfl
    rw [split, triesOf_quiet rfl]
    exact sent
  -- Its tries are those of no route held yet.
  have new : ∀ old ∈ b.held, old.request ≠ route.request := by
    intro old hold same
    obtain ⟨t, ht, hfit⟩ := h.fits old hold
    rw [same, before] at ht
    cases ht
    rcases hfit with ⟨-, no⟩ | ⟨-, no⟩
    · cases no
    · cases no
  refine h.said route.request [.sent route.request route.backend among, .opened route.request] _ rfl
    ?_ ?_ (List.cons_ne_nil _ _) rfl ?_ now ?_ ?_
  · intro o ho
    simp only [List.mem_cons, List.not_mem_nil, or_false] at ho
    rcases ho with rfl | rfl
    · rfl
    · rfl
  · intro o ho
    simp only [List.mem_cons, List.not_mem_nil, or_false] at ho
    rcases ho with rfl | rfl
    · nofun
    · nofun
  · show route.request < b.serial
    omega
  · refine List.nodup_cons.mpr ⟨?_, h.apart⟩
    intro hr
    obtain ⟨old, hold, same⟩ := List.mem_map.mp hr
    exact new old hold same
  · intro other hother
    rcases List.mem_cons.mp hother with rfl | hother
    · refine .inr ⟨rfl, .inl ⟨first, ?_⟩⟩
      rw [unanswered]
    · exact .inl ⟨hother, new other hother⟩

/-- A request is sent once more. -/
theorem resent (h : b.InStep) {old new : Route} {rest : List Route} (held : b.held = old :: rest)
    {event : ServiceEvent} {among : List Backend} {health : Health}
    (unprocessed : event.isUnprocessed = true) (spare : (Seat.spare old).isSome = true)
    (same : new.request = old.request) (counted : new.attempts = old.attempts + 1)
    (away : new.backend = old.backend → ∀ c ∈ among, c = old.backend) :
    InStep { b.observe [.heard old.request event, .sent old.request new.backend among] with
      held := new :: rest, health } := by
  have mine : old ∈ b.held := by
    rw [held]
    exact List.mem_cons_self
  obtain ⟨t, ht, hfit⟩ := h.fits old mine
  obtain ⟨t₁, hn, hn', hfit'⟩ := hfit.resends unprocessed spare counted away
  obtain ⟨-, others⟩ := h.rest_ne held
  have now : triesOf old.request
      (b.log ++ [.heard old.request event, .sent old.request new.backend among]) =
      some .spent := by
    have split : b.log ++ [.heard old.request event, .sent old.request new.backend among] =
        (b.log ++ [.heard old.request event]) ++ [.sent old.request new.backend among] := by
      rw [List.append_assoc]
      rfl
    rw [split]
    exact triesOf_concat (triesOf_concat ht rfl rfl hn) rfl rfl hn'
  refine h.said old.request [.heard old.request event, .sent old.request new.backend among] _ rfl
    ?_ ?_ (List.cons_ne_nil _ _) rfl (h.lt_serial mine) now ?_ ?_
  · intro o ho
    simp only [List.mem_cons, List.not_mem_nil, or_false] at ho
    rcases ho with rfl | rfl
    · rfl
    · rfl
  · intro o ho
    simp only [List.mem_cons, List.not_mem_nil, or_false] at ho
    rcases ho with rfl | rfl
    · nofun
    · nofun
  · have apart := h.apart
    unfold Books.requests at apart ⊢
    rw [held] at apart
    rw [List.map_cons, same]
    exact apart
  · intro route hr
    rcases List.mem_cons.mp hr with rfl | hr
    · exact .inr ⟨same, hfit'⟩
    · exact .inl (others route hr)

/-- Every move keeps the requests in step. -/
theorem move {allows : Slip → Prop} (h : b.InStep) (hm : Move allows b c) : c.InStep := by
  have health : ∀ health, InStep { b with health } := fun health =>
    h.unsaid rfl rfl h.apart fun route hr => ⟨route, hr, rfl, fun _ hfit => hfit⟩
  cases hm with
  | shuffle hp =>
    exact h.unsaid rfl rfl ((hp.map _).nodup h.apart) fun route hr =>
      ⟨route, hp.mem_iff.mpr hr, rfl, fun _ hfit => hfit⟩
  | ask head endStream => exact h.asked head endStream
  | claim backend now _ => exact health _
  | fail backend now => exact health _
  | miss backend now => exact health _
  | place route among now asked latest spare first waiting =>
    exact h.placed asked latest spare first waiting.1
  | resend event among now held unprocessed spare same counted _ away _ =>
    exact h.resent held unprocessed spare same counted away
  | giveUp event health held _ _ _ =>
    exact h.leaves held (.heard _ event) rfl nofun (fun _ t hfit => hfit.hears event) rfl rfl rfl
  | shed id held _ _ =>
    exact h.leaves held (.heard _ (.shed id)) rfl nofun (fun _ t hfit => hfit.hears _) rfl rfl rfl
  | overwrite held _ _ =>
    refine h.unsaid rfl rfl (h.rest_ne held).1 fun route hr =>
      ⟨route, ((h.rest_ne held).2 route hr).1, rfl, fun _ hfit => hfit⟩
  | close elapsed held _ =>
    exact h.leaves held (.observed _ elapsed) rfl nofun nofun rfl rfl rfl
  | answer id response endStream held =>
    rename_i old rest
    exact h.stays held _ { old with responseStarted := true } rfl
      (fun t hfit => hfit.answers id response endStream) rfl rfl rfl
  | settle event now held final silent hs =>
    rename_i old rest
    exact h.stays held event { old with ended := true } rfl
      (fun t hfit => hfit.settles final silent) rfl rfl rfl
  | amend requestDone held =>
    rename_i old rest
    refine h.unsaid rfl rfl ?_ ?_
    · have apart := h.apart
      unfold Books.requests at apart ⊢
      rw [held] at apart
      exact apart
    · intro route hr
      rcases List.mem_cons.mp hr with rfl | hr
      · refine ⟨old, ?_, rfl, fun _ hfit => hfit⟩
        rw [held]
        exact List.mem_cons_self
      · exact ⟨route, ((h.rest_ne held).2 route hr).1, rfl, fun _ hfit => hfit⟩

end InStep

end Books

/-! ## What the rule says -/

/-- A request was sent to a backend. -/
def ProxyObs.sends (r : Nat) : ProxyObs → Bool
  | sent r' _ _ => r' = r
  | _ => false

/-- A request that may not be repeated is sent once at most, any other twice; the second time
    the first attempt had ended unprocessed, with no response head seen, and the request goes
    to another backend unless health offered no other. -/
structure RetrySafe (r : Nat) (log : List ProxyObs) : Prop where
  once : ∀ head endStream, .asked r head endStream ∈ log → head.repeatable endStream = false →
    log.countP (·.sends r) ≤ 1
  twice : log.countP (·.sends r) ≤ 2
  second : ∀ before between after b b' among among',
    log = before ++ .sent r b among :: (between ++ .sent r b' among' :: after) →
      (∃ event, event.isUnprocessed = true ∧ .heard r event ∈ between) ∧
      (∀ id response endStream, .heard r (.head id response endStream) ∉ between) ∧
      (b' = b → ∀ c ∈ among', c = b)

namespace Tries

/-- How often a request may still be sent. -/
def budget : Tries → Nat
  | unasked => 2
  | asked again => if again then 2 else 1
  | tried again _ _ => if again then 1 else 0
  | failed _ => 1
  | spent => 0

theorem budget_next {t t' : Tries} {o : ProxyObs} {r : Nat} (h : t.next o = some t') :
    (if o.sends r then 1 else 0) + t'.budget ≤ t.budget := by
  unfold next at h
  split at h
  · cases h
    show 0 + (if _ then 2 else 1) ≤ 2
    split <;> omega
  · rename_i again r' backend among
    cases h
    show (if ProxyObs.sends r (.sent r' backend among) = true then 1 else 0) +
      (if again = true then 1 else 0) ≤ if again = true then 2 else 1
    split <;> split <;> omega
  · cases h
    exact Nat.le_of_eq (Nat.zero_add _)
  · rename_i again backend r' event _
    have silent : ProxyObs.sends r (.heard r' event) = false := rfl
    rw [silent]
    split at h
    · cases h
      cases again with
      | true => exact Nat.le_refl 1
      | false => exact Nat.le_refl 0
    · cases h
      exact Nat.le_of_eq (Nat.zero_add _)
  · cases h
    exact Nat.le_of_eq (Nat.zero_add _)
  · split at h
    · cases h
    · cases h
      show (if _ then 1 else 0) + 0 ≤ 1
      split <;> omega
  · cases h
    exact Nat.le_refl _
  · cases h

/-- What is sent on the way from one state to another. -/
theorem budget_run {w : List ProxyObs} {t t' : Tries} (r : Nat) (h : w.foldlM next t = some t') :
    w.countP (·.sends r) + t'.budget ≤ t.budget := by
  induction w generalizing t with
  | nil =>
    cases h
    exact Nat.le_of_eq (Nat.zero_add _)
  | cons o w ih =>
    rw [List.foldlM_cons] at h
    obtain ⟨t₁, hn, hw⟩ := Option.bind_eq_some_iff.mp h
    have one := budget_next (r := r) hn
    have more := ih hw
    rw [List.countP_cons]
    omega

/-- A request that came does not come again. -/
theorem came_next {t t' : Tries} {o : ProxyObs} (came : t ≠ unasked) (h : t.next o = some t') :
    t' ≠ unasked ∧ ∀ r head endStream, o ≠ .asked r head endStream := by
  unfold next at h
  split at h
  · exact absurd rfl came
  · cases h
    exact ⟨nofun, nofun⟩
  · cases h
    exact ⟨nofun, nofun⟩
  · split at h
    · cases h
      refine ⟨?_, nofun⟩
      split
      · nofun
      · nofun
    · cases h
      exact ⟨nofun, nofun⟩
  · cases h
    exact ⟨nofun, nofun⟩
  · split at h
    · cases h
    · cases h
      exact ⟨nofun, nofun⟩
  · cases h
    exact ⟨nofun, nofun⟩
  · cases h

theorem asked_run {w : List ProxyObs} {t t' : Tries} (came : t ≠ unasked)
    (h : w.foldlM next t = some t') (r : Nat) (head : RequestHead) (endStream : Bool) :
    .asked r head endStream ∉ w := by
  induction w generalizing t with
  | nil => nofun
  | cons o w ih =>
    rw [List.foldlM_cons] at h
    obtain ⟨t₁, hn, hw⟩ := Option.bind_eq_some_iff.mp h
    obtain ⟨came₁, other⟩ := came_next came hn
    rw [List.mem_cons, not_or]
    exact ⟨Ne.symm (other r head endStream), ih came₁ hw⟩

/-- Once answered or spent, a request stays so. -/
theorem settled_run {w : List ProxyObs} {t t' : Tries}
    (h : t = spent ∨ ∃ again b, t = tried again b true) (hw : w.foldlM next t = some t') :
    t' = t := by
  induction w generalizing t with
  | nil =>
    cases hw
    rfl
  | cons o w ih =>
    rw [List.foldlM_cons] at hw
    obtain ⟨t₁, hn, hw⟩ := Option.bind_eq_some_iff.mp hw
    have same : t₁ = t := by
      rcases h with rfl | ⟨again, b, rfl⟩
      · cases o with
        | heard r event =>
          cases hn
          rfl
        | _ => cases hn
      · cases o with
        | heard r event =>
          rw [next_answered] at hn
          cases hn
          rfl
        | _ => cases hn
    rw [same] at hw
    exact ih h hw

/-- A request is sent for the first time, or for the last. -/
theorem sent_next {t t' : Tries} {r : Nat} {b : Backend} {among : List Backend}
    (h : t.next (.sent r b among) = some t') : t' = spent ∨ ∃ again, t' = tried again b false := by
  cases t with
  | asked again =>
    cases h
    exact .inr ⟨again, rfl⟩
  | failed old =>
    replace h : (if b = old ∧ ∃ c ∈ among, c ≠ old then none else some spent) = some t' := h
    split at h
    · cases h
    · cases h
      exact .inl rfl
  | _ => cases h

/-- After an attempt that ended unprocessed, the next word is the second attempt. -/
theorem failed_run {w : List ProxyObs} {t : Tries} {r : Nat} {b b' : Backend}
    {among : List Backend} (hw : w.foldlM next (failed b) = some t)
    (sent : (t.next (.sent r b' among)).isSome = true) :
    w = [] ∧ (b' = b → ∀ c ∈ among, c = b) := by
  cases w with
  | nil =>
    cases hw
    refine ⟨rfl, fun same c hc => ?_⟩
    by_contra other
    have stuck : (failed b).next (.sent r b' among) = none := if_pos ⟨same, c, hc, other⟩
    rw [stuck] at sent
    cases sent
  | cons o w =>
    rw [List.foldlM_cons] at hw
    obtain ⟨t₁, hn, hw⟩ := Option.bind_eq_some_iff.mp hw
    have spent_ : t₁ = spent := by
      cases o with
      | sent r₁ b₁ among₁ =>
        replace hn : (if b₁ = b ∧ ∃ c ∈ among₁, c ≠ b then none else some spent) = some t₁ := hn
        split at hn
        · cases hn
        · exact (Option.some.inj hn).symm
      | _ => cases hn
    rw [spent_] at hw
    rw [settled_run (.inl rfl) hw] at sent
    cases sent

/-- Between two attempts: the first ended unprocessed, with no head seen. -/
theorem tried_run {w : List ProxyObs} {t : Tries} {r : Nat} {again : Bool} {b b' : Backend}
    {among : List Backend} (hw : w.foldlM next (tried again b false) = some t)
    (sent : (t.next (.sent r b' among)).isSome = true) :
    (∃ r' event, event.isUnprocessed = true ∧ .heard r' event ∈ w) ∧
      (∀ r' id response endStream, .heard r' (.head id response endStream) ∉ w) ∧
      (b' = b → ∀ c ∈ among, c = b) := by
  induction w with
  | nil =>
    cases hw
    cases sent
  | cons o w ih =>
    rw [List.foldlM_cons] at hw
    obtain ⟨t₁, hn, hw⟩ := Option.bind_eq_some_iff.mp hw
    cases o with
    | asked => cases hn
    | sent => cases hn
    | opened => cases hn
    | observed => cases hn
    | heard r' event =>
      by_cases head : ∃ id response endStream, event = .head id response endStream
      · obtain ⟨id, response, endStream, rfl⟩ := head
        cases hn
        rw [settled_run (.inr ⟨again, b, rfl⟩) hw] at sent
        cases sent
      · have silent : ∀ id response endStream, event ≠ .head id response endStream :=
          fun id response endStream he => head ⟨id, response, endStream, he⟩
        rw [next_tried silent] at hn
        cases hu : event.isUnprocessed with
        | false =>
          rw [hu] at hn
          cases hn
          obtain ⟨⟨r'', e, he, hmem⟩, noHead, away⟩ := ih hw
          refine ⟨⟨r'', e, he, List.mem_cons_of_mem _ hmem⟩, ?_, away⟩
          intro r₁ id response endStream hmem
          rcases List.mem_cons.mp hmem with heq | hmem
          · cases heq
            exact silent id response endStream rfl
          · exact noHead r₁ id response endStream hmem
        | true =>
          rw [hu] at hn
          cases again with
          | false =>
            cases hn
            rw [settled_run (.inl rfl) hw] at sent
            cases sent
          | true =>
            cases hn
            obtain ⟨rfl, away⟩ := failed_run hw sent
            refine ⟨⟨r', event, hu, List.mem_cons_self⟩, ?_, away⟩
            intro r₁ id response endStream hmem
            cases List.mem_singleton.mp hmem
            exact silent id response endStream rfl

end Tries

/-! ## The log -/

/-- What is said about a request, as its tries read it. -/
def wordOf (r : Nat) (log : List ProxyObs) : List ProxyObs := log.filterMap (about r)

theorem mem_wordOf {r : Nat} {log : List ProxyObs} {o : ProxyObs} :
    o ∈ wordOf r log ↔ o ∈ log ∧ o.request = r ∧ o.silent = true := by
  unfold wordOf
  rw [List.mem_filterMap]
  constructor
  · rintro ⟨o', ho, he⟩
    unfold about at he
    split at he
    · cases he
      exact ⟨ho, ‹_›⟩
    · cases he
  · rintro ⟨ho, h⟩
    exact ⟨o, ho, if_pos h⟩

theorem countP_wordOf (r : Nat) (log : List ProxyObs) :
    (wordOf r log).countP (·.sends r) = log.countP (·.sends r) := by
  induction log with
  | nil => rfl
  | cons o log ih =>
    unfold wordOf at ih ⊢
    rw [List.countP_cons, ← ih, List.filterMap_cons]
    by_cases h : o.request = r ∧ o.silent = true
    · have spelled : about r o = some o := if_pos h
      rw [spelled]
      exact List.countP_cons
    · have skipped : about r o = none := if_neg h
      have unsent : o.sends r = false := by
        cases o with
        | sent r' b among =>
          refine decide_eq_false fun same => h ⟨same, rfl⟩
        | _ => rfl
      rw [skipped, unsent]
      rfl

/-- What follows of an accepted log. -/
theorem retrySafe_of_tries {r : Nat} {log : List ProxyObs} {t : Tries}
    (h : triesOf r log = some t) : RetrySafe r log := by
  have word : (wordOf r log).foldlM Tries.next .unasked = some t := h
  constructor
  · intro head endStream asked once
    have mem : .asked r head endStream ∈ wordOf r log := mem_wordOf.mpr ⟨asked, rfl, rfl⟩
    rw [← countP_wordOf]
    cases hw : wordOf r log with
    | nil =>
      rw [hw] at mem
      cases mem
    | cons o w =>
      rw [hw] at word mem
      rw [List.foldlM_cons] at word
      obtain ⟨t₁, hn, word⟩ := Option.bind_eq_some_iff.mp word
      cases o with
      | asked r₁ head₁ endStream₁ =>
        cases hn
        have later := Tries.asked_run (t := .asked (head₁.repeatable endStream₁)) nofun word r head
          endStream
        have first := (List.mem_cons.mp mem).resolve_right later
        cases first
        have := Tries.budget_run r word
        rw [once] at this
        rw [List.countP_cons]
        exact (Nat.le_add_right _ _).trans this
      | _ => cases hn
  · have := Tries.budget_run r word
    rw [← countP_wordOf]
    exact (Nat.le_add_right _ _).trans this
  · rintro before between after b b' among among' rfl
    have spelled : ∀ b among, about r (.sent r b among) = some (.sent r b among) :=
      fun b among => if_pos ⟨rfl, rfl⟩
    have split : wordOf r (before ++ .sent r b among :: (between ++ .sent r b' among' :: after)) =
        wordOf r before ++ .sent r b among ::
          (wordOf r between ++ .sent r b' among' :: wordOf r after) := by
      unfold wordOf
      rw [List.filterMap_append, List.filterMap_cons, spelled, List.filterMap_append,
        List.filterMap_cons, spelled]
    rw [split, List.foldlM_append] at word
    obtain ⟨t₀, -, word⟩ := Option.bind_eq_some_iff.mp word
    rw [List.foldlM_cons] at word
    obtain ⟨t₁, hn, word⟩ := Option.bind_eq_some_iff.mp word
    rw [List.foldlM_append] at word
    obtain ⟨t₂, middle, word⟩ := Option.bind_eq_some_iff.mp word
    rw [List.foldlM_cons] at word
    obtain ⟨t₃, hn', -⟩ := Option.bind_eq_some_iff.mp word
    have sent : (t₂.next (.sent r b' among')).isSome = true := by
      rw [hn']
      rfl
    rcases Tries.sent_next hn with rfl | ⟨again, rfl⟩
    · rw [Tries.settled_run (.inl rfl) middle] at sent
      cases sent
    · obtain ⟨⟨r', event, unprocessed, hmem⟩, noHead, away⟩ := Tries.tried_run middle sent
      obtain ⟨hmem', rfl, -⟩ := mem_wordOf.mp hmem
      refine ⟨⟨event, unprocessed, hmem'⟩, fun id response endStream hhead => ?_, away⟩
      exact noHead _ id response endStream (mem_wordOf.mpr ⟨hhead, rfl, rfl⟩)

namespace Site

/-- In every run, every request is sent as it may be. -/
theorem retry_safe {s : Site} (h : machine.Reachable s) (r : Nat) : RetrySafe r s.shared.log := by
  have inStep : s.books.InStep := by
    refine h.invariant (I := fun s => s.books.InStep) ?_ ?_
    · rintro s ⟨backends, maxConns, policy, tuning, now, rfl⟩
      exact ⟨List.nodup_nil, fun r => ⟨_, rfl⟩, nofun, fun r _ => rfl, nofun⟩
    · intro s i hs _
      exact Books.Moves.invariant (fun _ _ hb hm => hb.move hm) (step_moves s i) hs
  obtain ⟨t, ht⟩ := inStep.accepted r
  exact retrySafe_of_tries ht

/-- The connection dies under a request, which is sent once more, to the other backend. -/
theorem resent_safe : RetrySafe 0 (machine.run
    (start (.withTuning [⟨1⟩, ⟨2⟩] 1 .default .default 0))
    [(0, .connect 0 none false),
      (1, .call 0 (.dispatch (.new 1) getRoot true)),
      (2, .report 0 .died),
      (3, .call 0 (.intercept (.gone (.new 1))))]).shared.log :=
  retry_safe (Machine.Reach.run (.init (show machine.init _ from ⟨_, _, _, _, _, rfl⟩)) _
    (Machine.Meets.of_all (fun _ _ => trivial) _ _)) 0

end Site

end H2Proxy
