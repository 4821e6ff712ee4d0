import H2Proxy.Proxy.Steps

/-
  What the statistics say about requests: the gauge and the latency histogram.

  The books are kept by every move but those that slip. Two steps do: a `Shed` for a routed
  request, which closes the gauge and records nothing, and an attempt in the place of one
  that failed which is itself answered here, where neither is done.
-/

namespace H2Proxy

namespace ProxyObs

/-- A request is recorded as over. -/
def records (r : Nat) : ProxyObs → Bool
  | observed r' _ => r' = r
  | _ => false

/-- The latency recorded. -/
def elapsed? : ProxyObs → Option Duration
  | observed _ elapsed => some elapsed
  | _ => none

/-- Neither the gauge nor the histogram was touched. -/
def silent : ProxyObs → Bool
  | opened _ | observed _ _ => false
  | _ => true

theorem silent_ne {o : ProxyObs} (h : o.silent = true) (r : Nat) : o ≠ .opened r := by
  rintro rfl
  cases h

theorem silent_records {o : ProxyObs} (h : o.silent = true) (r : Nat) : o.records r = false := by
  cases o with
  | observed r' elapsed => cases h
  | _ => rfl

theorem silent_elapsed {o : ProxyObs} (h : o.silent = true) : o.elapsed? = none := by
  cases o with
  | observed r' elapsed => cases h
  | _ => rfl

end ProxyObs

/-- How often a request was counted as open. -/
def opens (r : Nat) (log : List ProxyObs) : Nat := log.countP fun o => o = .opened r

/-- How often a request was recorded as over. -/
def recorded (r : Nat) (log : List ProxyObs) : Nat := log.countP (·.records r)

theorem opens_append (r : Nat) (log added : List ProxyObs) :
    opens r (log ++ added) = opens r log + opens r added := List.countP_append

theorem recorded_append (r : Nat) (log added : List ProxyObs) :
    recorded r (log ++ added) = recorded r log + recorded r added := List.countP_append

theorem opens_silent {added : List ProxyObs} (h : ∀ o ∈ added, o.silent = true) (r : Nat) :
    opens r added = 0 := by
  refine List.countP_eq_zero.mpr fun o ho => ?_
  rw [decide_eq_true_eq]
  exact ProxyObs.silent_ne (h o ho) r

theorem recorded_silent {added : List ProxyObs} (h : ∀ o ∈ added, o.silent = true) (r : Nat) :
    recorded r added = 0 := by
  refine List.countP_eq_zero.mpr fun o ho => ?_
  rw [ProxyObs.silent_records (h o ho)]
  exact Bool.false_ne_true

namespace Books

/-- The numbers of the requests whose routes are held. -/
def requests (b : Books) : List Nat := b.held.map (·.request)

/-- The gauge counts the routes held, and the histogram has the requests that are over. -/
structure Accounted (b : Books) : Prop where
  gauge : b.clientStreams = b.requests.length
  apart : b.requests.Nodup
  open_ : ∀ r ∈ b.requests, opens r b.log = 1 ∧ recorded r b.log = 0
  gone : ∀ r, r ∉ b.requests → recorded r b.log = opens r b.log ∧ opens r b.log ≤ 1
  fresh : ∀ r, b.serial ≤ r → opens r b.log = 0
  latest : ∀ r head endStream, b.log.getLast? = some (.asked r head endStream) →
    opens r b.log = 0
  histogram : b.log.filterMap (·.elapsed?) = b.latency

namespace Accounted

variable {b c : Books}

/-- What touches neither the gauge nor the histogram, and holds the same requests. -/
theorem quiet (h : b.Accounted) (added : List ProxyObs) (requests : b.requests.Perm c.requests)
    (streams : c.clientStreams = b.clientStreams) (latency : c.latency = b.latency)
    (serial : b.serial ≤ c.serial) (log : c.log = b.log ++ added)
    (silent : ∀ o ∈ added, o.silent = true)
    (asked : ∀ r head endStream, .asked r head endStream ∈ added → b.serial ≤ r) :
    c.Accounted := by
  have opens_eq : ∀ r, opens r c.log = opens r b.log := by
    intro r
    rw [log, opens_append, opens_silent silent]
    rfl
  have recorded_eq : ∀ r, recorded r c.log = recorded r b.log := by
    intro r
    rw [log, recorded_append, recorded_silent silent]
    rfl
  constructor
  · rw [streams, h.gauge]
    exact requests.length_eq
  · exact requests.nodup h.apart
  · intro r hr
    rw [opens_eq, recorded_eq]
    exact h.open_ r (requests.mem_iff.mpr hr)
  · intro r hr
    rw [opens_eq, recorded_eq]
    exact h.gone r fun hr' => hr (requests.mem_iff.mp hr')
  · intro r hr
    rw [opens_eq]
    exact h.fresh r (serial.trans hr)
  · intro r head endStream last
    rw [opens_eq]
    rw [log, List.getLast?_append] at last
    cases hadded : added.getLast? with
    | none =>
      rw [hadded] at last
      exact h.latest r head endStream last
    | some o =>
      rw [hadded] at last
      cases last
      exact h.fresh r (asked r head endStream (List.mem_of_getLast? hadded))
  · have nothing : added.filterMap (·.elapsed?) = [] :=
      List.filterMap_eq_nil_iff.mpr fun o ho => ProxyObs.silent_elapsed (silent o ho)
    rw [log, latency, List.filterMap_append, nothing, List.append_nil]
    exact h.histogram

/-- A request that just came is counted as open. -/
theorem opened (h : b.Accounted) {log : List ProxyObs} {head : RequestHead} {endStream : Bool}
    {route : Route} {among : List Backend} {health : Health}
    (asked : b.log = log ++ [.asked route.request head endStream])
    (latest : route.request + 1 = b.serial) :
    Accounted { b.observe [.sent route.request route.backend among, .opened route.request] with
      held := route :: b.held, clientStreams := b.clientStreams + 1, health } := by
  have last : b.log.getLast? = some (.asked route.request head endStream) := by
    rw [asked]
    exact List.getLast?_concat
  have unopened : opens route.request b.log = 0 := h.latest _ _ _ last
  have new : route.request ∉ b.requests := by
    intro hr
    have := (h.open_ _ hr).1
    omega
  have opens_eq : ∀ r, opens r (b.log ++ [.sent route.request route.backend among,
      .opened route.request]) = opens r b.log + if route.request = r then 1 else 0 := by
    intro r
    rw [opens_append]
    unfold opens
    simp [List.countP_cons]
  have recorded_eq : ∀ r, recorded r (b.log ++ [.sent route.request route.backend among,
      .opened route.request]) = recorded r b.log := fun r => recorded_append r _ _
  constructor
  · show b.clientStreams + 1 = b.requests.length + 1
    rw [h.gauge]
  · exact List.nodup_cons.mpr ⟨new, h.apart⟩
  · intro r hr
    show opens r (b.log ++ _) = 1 ∧ recorded r (b.log ++ _) = 0
    rw [opens_eq, recorded_eq]
    rcases List.mem_cons.mp hr with rfl | hr
    · rw [if_pos rfl, (h.gone _ new).1, unopened]
      exact ⟨rfl, rfl⟩
    · rw [if_neg (by rintro rfl; exact new hr)]
      exact h.open_ r hr
  · intro r hr
    show recorded r (b.log ++ _) = opens r (b.log ++ _) ∧ opens r (b.log ++ _) ≤ 1
    obtain ⟨other, absent⟩ := not_or.mp fun h => hr (List.mem_cons.mpr h)
    rw [opens_eq, recorded_eq, if_neg (Ne.symm other)]
    exact h.gone r absent
  · intro r hr
    have later : b.serial ≤ r := hr
    show opens r (b.log ++ _) = 0
    rw [opens_eq, if_neg (by omega)]
    exact h.fresh r later
  · intro r head endStream last
    replace last : (b.log ++ [_, ProxyObs.opened route.request]).getLast? = _ := last
    rw [List.getLast?_append] at last
    cases last
  · show (b.log ++ _).filterMap (·.elapsed?) = b.latency
    rw [List.filterMap_append, h.histogram]
    exact List.append_nil _

/-- A request is over. -/
theorem closed (h : b.Accounted) {old : Route} {rest : List Route} (held : b.held = old :: rest)
    (elapsed : Duration) :
    Accounted { b.observe [.observed old.request elapsed] with
      held := rest, clientStreams := b.clientStreams - 1, latency := b.latency ++ [elapsed] } := by
  have requests : b.requests = old.request :: rest.map (·.request) := by
    unfold Books.requests
    rw [held]
    rfl
  have apart := h.apart
  rw [requests] at apart
  obtain ⟨gone, apart⟩ := List.nodup_cons.mp apart
  have opens_eq : ∀ r, opens r (b.log ++ [.observed old.request elapsed]) = opens r b.log :=
    fun r => opens_append r _ _
  have recorded_eq : ∀ r, recorded r (b.log ++ [.observed old.request elapsed]) =
      recorded r b.log + if old.request = r then 1 else 0 := by
    intro r
    rw [recorded_append]
    unfold recorded
    simp [List.countP_cons, ProxyObs.records]
  constructor
  · show b.clientStreams - 1 = (rest.map (·.request)).length
    rw [h.gauge, requests]
    rfl
  · exact apart
  · intro r hr
    have still : r ∈ b.requests := by
      rw [requests]
      exact List.mem_cons_of_mem _ hr
    show opens r (b.log ++ _) = 1 ∧ recorded r (b.log ++ _) = 0
    rw [opens_eq, recorded_eq, if_neg (by rintro rfl; exact gone hr)]
    exact h.open_ r still
  · intro r hr
    show recorded r (b.log ++ _) = opens r (b.log ++ _) ∧ opens r (b.log ++ _) ≤ 1
    rw [opens_eq, recorded_eq]
    by_cases same : old.request = r
    · have was : r ∈ b.requests := by
        rw [requests, ← same]
        exact List.mem_cons_self
      obtain ⟨once, never⟩ := h.open_ r was
      rw [if_pos same]
      omega
    · have absent : r ∉ b.requests := by
        rw [requests, List.mem_cons, not_or]
        exact ⟨Ne.symm same, hr⟩
      rw [if_neg same]
      exact h.gone r absent
  · intro r hr
    show opens r (b.log ++ _) = 0
    rw [opens_eq]
    exact h.fresh r hr
  · intro r head endStream last
    replace last : (b.log ++ [ProxyObs.observed old.request elapsed]).getLast? = _ := last
    rw [List.getLast?_concat] at last
    cases last
  · show (b.log ++ _).filterMap (·.elapsed?) = b.latency ++ [elapsed]
    rw [List.filterMap_append, h.histogram]
    rfl

/-- Moves that lose no request keep the books. -/
theorem move {allows : Slip → Prop} (safe : ¬ allows .unrecorded) (h : b.Accounted)
    (hm : Move allows b c) : c.Accounted := by
  -- The route at the front is replaced by one of the same request.
  have swap : ∀ {old new : Route} {rest : List Route} {os : List ProxyObs} {health : Health},
      b.held = old :: rest → new.request = old.request → (∀ o ∈ os, o.silent = true) →
      (∀ r head endStream, .asked r head endStream ∉ os) →
      Accounted { b.observe os with held := new :: rest, health } := by
    intro old new rest os health held same silent asked
    refine h.quiet os ?_ rfl rfl (Nat.le_refl _) rfl silent
      fun r head endStream ha => absurd ha (asked r head endStream)
    have requests : b.requests = new.request :: rest.map (·.request) := by
      unfold Books.requests
      rw [held, same]
      rfl
    rw [requests]
    exact .refl _
  -- Only the health table changes.
  have health : ∀ health, Accounted { b with health } := fun health =>
    h.quiet [] (.refl _) rfl rfl (Nat.le_refl _) (List.append_nil _).symm nofun nofun
  cases hm with
  | shuffle hp =>
    exact h.quiet [] (hp.map _) rfl rfl (Nat.le_refl _) (List.append_nil _).symm nofun
      nofun
  | ask head endStream =>
    refine h.quiet [.asked b.serial head endStream] (.refl _) rfl rfl (Nat.le_succ _) rfl
      ?_ ?_
    · intro o ho
      rw [List.mem_singleton.mp ho]
      rfl
    · intro r head endStream ha
      cases List.mem_singleton.mp ha
      exact Nat.le_refl _
  | claim backend now _ => exact health _
  | fail backend now => exact health _
  | miss backend now => exact health _
  | place route among now asked latest _ _ _ => exact h.opened asked latest
  | resend event among now held _ _ same _ _ _ _ =>
    refine swap held same ?_ ?_
    · intro o ho
      simp only [List.mem_cons, List.not_mem_nil, or_false] at ho
      rcases ho with rfl | rfl
      · rfl
      · rfl
    · simp
  | giveUp event health held _ lost _ => exact absurd lost safe
  | shed id held lost _ => exact absurd lost safe
  | overwrite held lost _ => exact absurd lost safe
  | close elapsed held _ => exact h.closed held elapsed
  | answer id response endStream held =>
    refine swap held rfl ?_ ?_
    · intro o ho
      rw [List.mem_singleton.mp ho]
      rfl
    · simp
  | settle event now held _ _ _ =>
    refine swap held rfl ?_ ?_
    · intro o ho
      rw [List.mem_singleton.mp ho]
      rfl
    · simp
  | amend requestDone held =>
    refine h.quiet [] ?_ rfl rfl (Nat.le_refl _) (List.append_nil _).symm nofun nofun
    unfold Books.requests
    rw [held]
    exact .refl _

end Accounted

end Books

namespace Site

/-- The gauge counts the routes that live proxies hold, and a request that was counted as
    open is in the histogram once it is over, once, and not before. -/
def Accounted (s : Site) : Prop :=
  s.shared.stats.clientStreams = s.books.held.length ∧
    (∀ r, .opened r ∈ s.shared.log →
      opens r s.shared.log = 1 ∧
        recorded r s.shared.log = if r ∈ s.books.requests then 0 else 1) ∧
    s.shared.log.filterMap (·.elapsed?) = s.shared.stats.latency

theorem accounted_of_books {s : Site} (h : s.books.Accounted) : s.Accounted := by
  refine ⟨h.gauge.trans (List.length_map ..), fun r hr => ?_, h.histogram⟩
  have once : 0 < opens r s.shared.log :=
    List.countP_pos_iff.mpr ⟨_, hr, decide_eq_true rfl⟩
  split
  · rename_i held
    exact h.open_ r held
  · rename_i closed
    obtain ⟨all, most⟩ := h.gone r closed
    have all' : recorded r s.shared.log = opens r s.shared.log := all
    have most' : opens r s.shared.log ≤ 1 := most
    omega

theorem start_accounted (shared : Shared) (log : shared.log = [])
    (stats : shared.stats = .default) : (start shared).books.Accounted := by
  unfold start books
  dsimp only
  rw [log, stats]
  exact ⟨rfl, List.nodup_nil, nofun, fun r _ => ⟨rfl, Nat.zero_le _⟩, fun r _ => rfl, nofun, rfl⟩

/-- In a run in which no call loses a request, the numbers are right in every state. -/
theorem accounted_of_kept {s : Site} (h : machine.Reach (fun s i => ¬ s.slips i .unrecorded) s) :
    s.Accounted := by
  refine accounted_of_books (h.invariant (I := fun s => s.books.Accounted) ?_ ?_)
  · rintro s ⟨backends, maxConns, policy, tuning, now, rfl⟩
    exact start_accounted _ rfl rfl
  · intro s i hs safe
    exact Books.Moves.invariant (fun _ _ hb hm => hb.move safe hm) (step_moves s i) hs

/-- A GET request for `/`. -/
def getRoot : RequestHead := ⟨ascii "GET", ascii "https", none, ascii "/", []⟩

/-- One backend, one connection to it at most. -/
def single : Site :=
  start (.withTuning [⟨1⟩] 1 .default .default 0)

theorem single_init : machine.init single := ⟨_, _, _, _, _, rfl⟩

/-- A request that is answered, and one whose client hangs up. -/
theorem served_accounted : (machine.run single
    [(0, .connect 0 none false),
      (1, .call 0 (.dispatch (.new 1) getRoot true)),
      (2, .call 0 (.intercept (.head (.new 1) (.ofStatus 200) true))),
      (3, .call 0 (.finish (.new 1))),
      (4, .call 0 (.dispatch (.new 3) getRoot true)),
      (5, .call 0 .drop)]).Accounted :=
  accounted_of_kept (Machine.Reach.run (.init single_init) _ (by decide +kernel))

/-- A request is refused by the backend and the queue is full when it is to be sent again. -/
def refusedTwice : List (Instant × SiteInput) :=
  [(0, .connect 0 none false),
    (1, .call 0 (.dispatch (.new 1) getRoot true)),
    (2, .report 0 (.maxConcurrent 1)),
    (3, .report 0 (.queued Tuning.default.maxPending)),
    (4, .call 0 (.intercept (.reset (.new 1) .refusedStream)))]

/-- The request is over, and the gauge still counts it. -/
theorem refusedTwice_unaccounted : ¬ (machine.run single refusedTwice).Accounted := by
  intro h
  have gauge : (machine.run single refusedTwice).shared.stats.clientStreams = 1 := by
    decide +kernel
  have none : (machine.run single refusedTwice).books.held.length = 0 := by decide +kernel
  have := h.1
  omega

end Site

end H2Proxy
