import H2Proxy.Lib.Monitor
import H2Proxy.Up.Links

/-
  What an upstream connection remembers of a request that is done.

  Where the messages of every request come in the order in which its client sends them, a request
  comes once, so whoever had a stream never gets another and never waits again (`Owns`). Two
  things are remembered for good: a Cancel whose request has no stream, which no later message of
  that request removes from `cancelled`, and the maps' entries of a stream that a WINDOW_UPDATE
  severed (`Strays`).
-/

namespace H2Proxy

namespace UpstreamCore

/-- A request has had this stream, and will have no other. -/
structure Owns (c : UpstreamCore) (r : RequestId) (id : StreamId) : Prop where
  below : id ≤ c.streams.highestLocalId
  settled : ∀ p ∈ c.pending, p.request ≠ r
  only : ∀ id', c.requests.lookup r = some id' → id' = id
  live : (c.streams.get? id).isSome → c.requests.lookup r = some id

/-- What moves that arrive and dismiss what `allows` says leave of `c₀`. -/
structure Carries (allows : Mishap → Prop) (c₀ c : UpstreamCore) : Prop where
  top : c₀.streams.highestLocalId ≤ c.streams.highestLocalId
  given : ∀ r id, c.requests.lookup r = some id →
    c₀.requests.lookup r = some id ∨ ¬ id ≤ c₀.streams.highestLocalId
  arrived : ∀ r, c.inUse r → c₀.inUse r ∨ allows (.arrive r)
  settled : ∀ r, ¬ allows (.arrive r) → (∀ p ∈ c₀.pending, p.request ≠ r) →
    (∀ p ∈ c.pending, p.request ≠ r) ∧
      ∀ id, c.requests.lookup r = some id → c₀.requests.lookup r = some id
  quiet : (∀ r, ¬ allows (.dismiss r)) → c₀.cancelled = [] → c.cancelled = []

variable {allows : Mishap → Prop} {c₀ c c' : UpstreamCore}

theorem inUse_iff {r : RequestId} :
    c.inUse r ↔ (∃ id, c.requests.lookup r = some id) ∨ ∃ p ∈ c.pending, p.request = r := by
  unfold inUse
  rw [Bool.or_eq_true, Option.isSome_iff_exists, List.any_eq_true]
  simp only [decide_eq_true_eq]

namespace Carries

theorem refl (c : UpstreamCore) : Carries allows c c :=
  ⟨Nat.le_refl _, fun _ _ h => .inl h, fun _ h => .inl h, fun _ _ h => ⟨h, fun _ h => h⟩,
    fun _ h => h⟩

/-- Nothing is added. -/
theorem less (h : Carries allows c₀ c)
    (top : c'.streams.highestLocalId = c.streams.highestLocalId)
    (requests : ∀ r id, c'.requests.lookup r = some id → c.requests.lookup r = some id)
    (pending : ∀ p ∈ c'.pending, ∃ q ∈ c.pending, q.request = p.request)
    (cancelled : c.cancelled = [] → c'.cancelled = []) : Carries allows c₀ c' := by
  refine ⟨?_, fun r id hr => h.given r id (requests r id hr), fun r hr => h.arrived r ?_,
    fun r hno hr => ?_, fun hno hc => cancelled (h.quiet hno hc)⟩
  · rw [top]
    exact h.top
  · rw [inUse_iff] at hr ⊢
    rcases hr with ⟨id, hr⟩ | ⟨p, hp, rfl⟩
    · exact .inl ⟨id, requests r id hr⟩
    · exact .inr (pending p hp)
  · obtain ⟨hpending, hrequests⟩ := h.settled r hno hr
    refine ⟨fun p hp => ?_, fun id hid => hrequests id (requests r id hid)⟩
    obtain ⟨q, hq, same⟩ := pending p hp
    rw [← same]
    exact hpending q hq

/-- Neither who has a stream changes nor who waits. -/
theorem same (h : Carries allows c₀ c)
    (top : c'.streams.highestLocalId = c.streams.highestLocalId)
    (requests : c'.requests = c.requests) (pending : c'.pending = c.pending)
    (cancelled : c.cancelled = [] → c'.cancelled = []) : Carries allows c₀ c' := by
  refine h.less top (fun r id hr => ?_) (fun p hp => ?_) cancelled
  · rw [← requests]
    exact hr
  · rw [pending] at hp
    exact ⟨p, hp, rfl⟩

/-- A request that arrives or waited gets a stream. -/
theorem opened (h : Carries allows c₀ c) {id : StreamId} {request : RequestId}
    (clientId : StreamId) (events : Events) (hopen : (c.streams.openLocal id).2 = .ok ())
    (hr : allows (.arrive request) ∨ ∃ p ∈ c₀.pending, p.request = request) :
    Carries allows c₀ (c.opened id request clientId events) := by
  obtain ⟨-, above, -, table⟩ := StreamTable.openLocal_ok hopen
  have top : (c.streams.openLocal id).1.highestLocalId = id := by
    rw [table]
    rfl
  have requests : ∀ r id', (c.opened id request clientId events).requests.lookup r = some id' →
      r = request ∧ id' = id ∨ c.requests.lookup r = some id' := by
    intro r id' hr
    replace hr : (c.requests.insert request id).lookup r = some id' := hr
    rw [AList.lookup_insert_eq] at hr
    split at hr
    · rename_i own
      exact .inl ⟨own, (Option.some.inj hr).symm⟩
    · exact .inr hr
  have beyond : ¬ id ≤ c₀.streams.highestLocalId := fun le => above (Nat.le_trans le h.top)
  refine ⟨?_, fun r id' hr' => ?_, fun r hr' => ?_, fun r hno hsettled => ?_, h.quiet⟩
  · show c₀.streams.highestLocalId ≤ (c.streams.openLocal id).1.highestLocalId
    rw [top]
    exact Nat.le_of_lt (Nat.lt_of_not_le beyond)
  · rcases requests r id' hr' with ⟨-, rfl⟩ | old
    · exact .inr beyond
    · exact h.given r id' old
  · rcases inUse_iff.mp hr' with ⟨id', hr'⟩ | waiting
    · rcases requests r id' hr' with ⟨rfl, -⟩ | old
      · rcases hr with arrives | waited
        · exact .inr arrives
        · exact .inl (inUse_iff.mpr (.inr waited))
      · exact h.arrived r (inUse_iff.mpr (.inl ⟨id', old⟩))
    · exact h.arrived r (inUse_iff.mpr (.inr waiting))
  · obtain ⟨hpending, hrequests⟩ := h.settled r hno hsettled
    refine ⟨hpending, fun id' hr' => ?_⟩
    rcases requests r id' hr' with ⟨rfl, -⟩ | old
    · rcases hr with arrives | ⟨p, hp, same⟩
      · exact absurd arrives hno
      · exact absurd same (hsettled p hp)
    · exact hrequests id' old

theorem wait (h : Carries allows c₀ c) {p : Pending} (hp : allows (.arrive p.request)) :
    Carries allows c₀ { c with pending := c.pending ++ [p] } := by
  have waiting : ∀ q ∈ c.pending ++ [p], q ∈ c.pending ∨ q = p := by
    intro q hq
    rw [List.mem_append, List.mem_singleton] at hq
    exact hq
  refine ⟨h.top, h.given, fun r hr => ?_, fun r hno hsettled => ?_, h.quiet⟩
  · rcases inUse_iff.mp hr with hr | ⟨q, hq, rfl⟩
    · exact h.arrived r (inUse_iff.mpr (.inl hr))
    · rcases waiting q hq with old | rfl
      · exact h.arrived _ (inUse_iff.mpr (.inr ⟨q, old, rfl⟩))
      · exact .inr hp
  · obtain ⟨hpending, hrequests⟩ := h.settled r hno hsettled
    refine ⟨fun q hq => ?_, hrequests⟩
    rcases waiting q hq with old | rfl
    · exact hpending q old
    · rintro rfl
      exact hno hp

end Carries

theorem Move.carries (h : Carries allows c₀ c) (hm : Move allows c c') :
    Carries allows c₀ c' := by
  cases hm with
  | note | publish | answer | tell | skip | giveBack | overspend | stream | ceiling | shift | head
    | receive | release => exact h.same rfl rfl rfl fun quiet => quiet
  | advance => exact h.same (StreamTable.apply_highestLocalId _ _ _) rfl rfl fun quiet => quiet
  | sweep | orphan => exact h.same (StreamTable.retire_highestLocalId _ _) rfl rfl fun quiet => quiet
  | forget id =>
    have top : (c.forgotten id).streams.highestLocalId = c.streams.highestLocalId := by
      unfold forgotten unrouted
      split <;> exact StreamTable.retire_highestLocalId _ _
    have kept : (c.forgotten id).pending = c.pending ∧ (c.forgotten id).cancelled = c.cancelled := by
      unfold forgotten unrouted
      split <;> exact ⟨rfl, rfl⟩
    refine h.less top (fun r id' hr => ?_) (fun p hp => ⟨p, kept.1 ▸ hp, rfl⟩) fun quiet =>
      kept.2.trans quiet
    unfold forgotten unrouted at hr
    split at hr
    · replace hr : (c.requests.erase _).lookup r = some id' := hr
      rw [AList.lookup_erase_eq] at hr
      split at hr
      · cases hr
      · exact hr
    · exact hr
  | uncancel request =>
    refine h.same rfl rfl rfl fun quiet => ?_
    show c.cancelled.filter _ = []
    rw [quiet]
    rfl
  | cancel request ha =>
    exact ⟨h.top, h.given, h.arrived, h.settled, fun hno => absurd ha (hno request)⟩
  | unwait request =>
    exact h.less rfl (fun _ _ hr => hr) (fun p hp => ⟨p, (List.mem_filter.mp hp).1, rfl⟩)
      fun quiet => quiet
  | wait p ha => exact h.wait ha
  | amend request f hf =>
    refine h.less rfl (fun _ _ hr => hr) (fun p hp => ?_) fun quiet => quiet
    have named := List.mem_map_of_mem (f := fun p : Pending => p.request) hp
    rw [show (c.modifyPending request f).pending.map (·.request) = c.pending.map (·.request) from
      map_amended request f hf c.pending] at named
    exact List.mem_map.mp named
  | accept request clientId events hopen ha => exact h.opened clientId events hopen (.inl ha)
  | take hp =>
    exact h.less rfl (fun _ _ hr => hr) (fun q hq => ⟨q, hp ▸ List.mem_cons_of_mem _ hq, rfl⟩)
      fun quiet => quiet
  | @start p pending id hp hopen =>
    have mem : p ∈ c.pending := hp ▸ List.mem_cons_self
    have waited : allows (.arrive p.request) ∨ ∃ q ∈ c₀.pending, q.request = p.request := by
      by_contra hno
      rw [not_or] at hno
      refine (h.settled p.request hno.1 fun q hq same => ?_).1 p mem rfl
      exact hno.2 ⟨q, hq, same⟩
    have taken : Carries allows c₀ { c with pending } := h.less rfl (fun _ _ hr => hr)
      (fun q hq => ⟨q, hp ▸ List.mem_cons_of_mem _ hq, rfl⟩) fun quiet => quiet
    exact taken.opened p.clientId p.events hopen waited
  | drain last deadline =>
    exact h.less rfl (fun _ _ hr => hr) (fun p hp => (by cases hp)) fun quiet => quiet

theorem Moves.carries (hm : Moves allows c c') : Carries allows c c' :=
  hm.invariant (I := Carries allows c) (fun _ _ h hm => hm.carries h) (.refl c)

/-- Who has a stream owns it. -/
theorem Linked.owns (h : Linked c) {r : RequestId} {id : StreamId}
    (hr : c.requests.lookup r = some id) : Owns c r id := by
  obtain ⟨route, hroute, -⟩ := h.named.found hr
  have live := h.routed id
  rw [hroute] at live
  refine ⟨h.known id live.symm, fun p hp same => ?_, fun id' hr' => ?_, fun _ => hr⟩
  · have waits := h.waits p hp
    rw [same, hr] at waits
    cases waits
  · exact Option.some.inj (hr'.symm.trans hr)

/-- Who has had a stream keeps it until it is gone, where it does not come again. -/
theorem Owns.carried {r : RequestId} {id : StreamId} (h : Owns c₀ r id) (h₀ : Linked c₀)
    (hc : Linked c) (carries : Carries allows c₀ c) (once : ¬ allows (.arrive r)) :
    Owns c r id := by
  obtain ⟨settled, kept⟩ := carries.settled r once h.settled
  refine ⟨Nat.le_trans h.below carries.top, settled, fun id' hr => h.only id' (kept id' hr),
    fun live => ?_⟩
  rw [← hc.routed, Option.isSome_iff_exists] at live
  obtain ⟨route, hroute⟩ := live
  have found := hc.named.find hroute
  -- The stream is older than the moves, so its request had it before them.
  have before : c₀.requests.lookup route.request = some id := by
    rcases carries.given _ id found with before | new
    · exact before
    · exact absurd h.below new
  obtain ⟨route₀, hroute₀, same⟩ := h₀.named.found before
  have was := h.live (by rw [← h₀.routed, hroute₀]; rfl)
  rw [h₀.named, hroute₀] at was
  rw [← Option.some.inj was, same]
  exact found

end UpstreamCore

namespace Upstream

variable {b s : Upstream} {js is : List (Instant × UpInput)} {i : Instant × UpInput}
  {r : RequestId} {id : StreamId}

/-! ## The order of a request's messages -/

/-- How far the messages of a request have come. -/
inductive Course
  | unasked | asked | cancelled
deriving DecidableEq

/-- The request comes first and comes once; its Cancel is last. -/
def course : Monitor ToUpstream Course where
  start := .unasked
  next
    | .unasked, .request .. => some .asked
    | .asked, .body .. | .asked, .trailers .. | .asked, .released .. => some .asked
    | .asked, .cancel .. => some .cancelled
    | _, _ => none

/-- The message an input brings about a request. -/
def about (r : RequestId) (i : Instant × UpInput) : Option ToUpstream :=
  match i.2 with
  | .message m => if m.id = r then some m else none
  | _ => none

/-- The messages of every request come in the order in which its client sends them. -/
def Ordered (is : List (Instant × UpInput)) : Prop := ∀ r, course.Accepts (about r) is

theorem Ordered.earlier (h : Ordered is) (hjs : js <+: is) : Ordered js := by
  obtain ⟨rest, rfl⟩ := hjs
  exact fun r => Monitor.Accepts.earlier (h r)

/-- Some message of the request has come. -/
def Asked (js : List (Instant × UpInput)) (r : RequestId) : Prop :=
  course.watch (about r) js ≠ some .unasked

theorem Asked.later (h : Asked js r) (ordered : Ordered (js ++ [i])) : Asked (js ++ [i]) r := by
  unfold Asked at *
  cases hm : about r i with
  | none =>
    rw [Monitor.watch_silent fun o ho => by rw [List.mem_singleton.mp ho]; exact hm]
    exact h
  | some m =>
    obtain ⟨after, hafter⟩ := Option.isSome_iff_exists.mp (ordered r)
    obtain ⟨before, hbefore, hnext⟩ := Monitor.watch_concat_some hm hafter
    rw [hafter]
    rintro ⟨⟩
    cases before with
    | unasked => exact h hbefore
    | asked => cases m <;> cases hnext
    | cancelled => cases hnext

/-- A request comes where none of its messages has come. -/
theorem asked_once (ordered : Ordered (js ++ [i])) {m : ToUpstream} (hi : i.2 = .message m)
    (hm : m.brings = some r) : ¬ Asked js r ∧ Asked (js ++ [i]) r := by
  cases m with
  | request id clientId head endStream events =>
    obtain rfl : id = r := Option.some.inj hm
    have spelled : about id i = some (.request id clientId head endStream events) := by
      unfold about
      rw [hi]
      exact if_pos rfl
    obtain ⟨after, hafter⟩ := Option.isSome_iff_exists.mp (ordered id)
    obtain ⟨before, hbefore, hnext⟩ := Monitor.watch_concat_some spelled hafter
    cases before with
    | unasked =>
      cases hnext
      unfold Asked
      rw [hafter]
      exact ⟨fun asked => asked hbefore, fun no => (by cases no)⟩
    | asked => cases hnext
    | cancelled => cases hnext
  | _ => cases hm

/-! ## What is remembered -/

/-- The request has had this stream in some state so far. -/
def Given (b : Upstream) (js : List (Instant × UpInput)) (r : RequestId) (id : StreamId) : Prop :=
  ∃ ks, ks <+: js ∧ (machine.run b ks).requests.lookup r = some id

/-- Every stream of the request is gone, and one that had none does not wait for one. -/
def Gone (b : Upstream) (js : List (Instant × UpInput)) (r : RequestId) : Prop :=
  (∀ id, Given b js r id → (machine.run b js).streams.get? id = none) ∧
    ((∃ id, Given b js r id) ∨ ∀ p ∈ (machine.run b js).pending, p.request ≠ r)

/-- Nothing is held under the request's id. -/
structure Forgets (s : Upstream) (r : RequestId) : Prop where
  requests : s.requests.lookup r = none
  routes : ∀ id route, s.routes.lookup id = some route → route.request ≠ r
  pending : ∀ p ∈ s.pending, p.request ≠ r
  cancelled : r ∉ s.cancelled

/-- A request is cancelled while it has no stream. -/
def dismisses (s : Upstream) : UpInput → Bool
  | .message m => (s.dismissed m).isSome
  | _ => false

/-- What leaves something behind: a Cancel without a stream, or a severed stream. -/
def Strays (s : Upstream) (i : Instant × UpInput) : Prop :=
  s.stop = none ∧ (s.dismisses i.2 || s.severs i.2)

instance (s : Upstream) (i : Instant × UpInput) : Decidable (s.Strays i) :=
  inferInstanceAs (Decidable (_ ∧ _))

/-- What a run keeps that never strays, as long as it goes on. -/
structure Mindful (b : Upstream) (js : List (Instant × UpInput)) : Prop where
  linked : (machine.run b js).Linked
  quiet : (machine.run b js).cancelled = []
  asked : ∀ r, (machine.run b js).inUse r → Asked js r
  owns : ∀ r id, Given b js r id → Asked js r ∧ (machine.run b js).Owns r id

theorem run_concat (b : Upstream) (js : List (Instant × UpInput)) (i : Instant × UpInput) :
    machine.run b (js ++ [i]) = step i (machine.run b js) :=
  Machine.run_append ..

/-- A request has its stream now or had it before. -/
theorem Given.concat (h : Given b (js ++ [i]) r id) :
    (machine.run b (js ++ [i])).requests.lookup r = some id ∨ Given b js r id := by
  obtain ⟨ks, hks, hr⟩ := h
  rcases List.prefix_concat_iff.mp hks with rfl | hks
  · exact .inl hr
  · exact .inr ⟨ks, hks, hr⟩

theorem Mindful.moves {allows : Mishap → Prop} (h : Mindful b js) (ordered : Ordered (js ++ [i]))
    (hm : UpstreamCore.Moves allows (machine.run b js).toUpstreamCore
      (machine.run b (js ++ [i])).toUpstreamCore)
    (whole : ¬ allows .orphan) (new : ¬ allows .reuse) (kept : ∀ r, ¬ allows (.dismiss r))
    (arrives : ∀ r, allows (.arrive r) → ∃ m, i.2 = .message m ∧ m.brings = some r) :
    Mindful b (js ++ [i]) := by
  have linked : (machine.run b (js ++ [i])).Linked :=
    hm.invariant (fun _ _ hc hm => hm.linked whole new hc) h.linked
  have carries := hm.carries
  have asked : ∀ r, (machine.run b (js ++ [i])).inUse r → Asked (js ++ [i]) r := by
    intro r hr
    rcases carries.arrived r hr with old | arrive
    · exact (h.asked r old).later ordered
    · obtain ⟨m, hi, hm⟩ := arrives r arrive
      exact (asked_once ordered hi hm).2
  refine ⟨linked, carries.quiet kept h.quiet, asked, fun r id given => ?_⟩
  rcases given.concat with now | before
  · exact ⟨asked r (UpstreamCore.inUse_iff.mpr (.inl ⟨id, now⟩)), linked.owns now⟩
  · obtain ⟨was, owns⟩ := h.owns r id before
    refine ⟨was.later ordered, owns.carried h.linked linked carries fun arrive => ?_⟩
    obtain ⟨m, hi, hm⟩ := arrives r arrive
    exact (asked_once ordered hi hm).1 was

/-- A connection that never strayed is mindful, or holds nothing any more. -/
def Clean (b : Upstream) (js : List (Instant × UpInput)) : Prop :=
  Mindful b js ∨ (machine.run b js).Ended ∧ (machine.run b js).cancelled = []

theorem Mindful.step (h : Mindful b js) (ordered : Ordered (js ++ [i]))
    (heeds : ¬ (machine.run b js).Strays i) : Clean b (js ++ [i]) := by
  cases hstop : (machine.run b js).stop with
  | some stop =>
    have rests := step_rests (fun _ => False) (s := machine.run b js) i (by rw [hstop]; rfl)
    rw [← run_concat] at rests
    exact .inl (h.moves ordered rests (fun no => no) (fun no => no) (fun _ no => no)
      fun _ no => no.elim)
  | none =>
    have whole : ¬ (machine.run b js).mishaps i.2 .orphan := not_orphan hstop fun severs =>
      heeds ⟨hstop, by rw [severs.2, Bool.or_true]⟩
    have new : ¬ (machine.run b js).mishaps i.2 .reuse := by
      rintro ⟨m, hi, reuses⟩
      cases m with
      | request id => exact (asked_once ordered hi rfl).1 (h.asked id reuses)
      | _ => cases reuses
    have kept : ∀ r, ¬ (machine.run b js).mishaps i.2 (.dismiss r) := by
      rintro r ⟨m, hi, dismissed⟩
      refine heeds ⟨hstop, ?_⟩
      rw [hi, Bool.or_eq_true]
      have some : ((machine.run b js).dismissed m).isSome = true := by
        rw [dismissed]
        rfl
      exact .inl some
    rcases step_cases i hstop with hm | ⟨ended, c, hm, cancelled⟩
    · rw [← run_concat] at hm
      exact .inl (h.moves ordered hm whole new kept fun r arrive => arrive)
    · rw [← run_concat] at ended cancelled
      exact .inr ⟨ended, cancelled.trans (hm.carries.quiet kept h.quiet)⟩

theorem Clean.mindful (h : Clean b js) (running : (machine.run b js).stop = none) :
    Mindful b js := by
  rcases h with mindful | ⟨ended, -⟩
  · exact mindful
  · have stopped := ended.stopped
    rw [running] at stopped
    cases stopped

theorem Fresh.clean (h : b.Fresh) : Clean b [] := by
  obtain ⟨tuning, idle, timeout, now, -, -, rfl⟩ := h
  have linked := UpstreamCore.Linked.start tuning idle timeout now
  refine .inl ⟨linked, rfl, fun r used => (by cases used), fun r id given => ?_⟩
  obtain ⟨ks, hks, hr⟩ := given
  rw [List.prefix_nil.mp hks] at hr
  cases hr

theorem Clean.step (h : Clean b js) (ordered : Ordered (js ++ [i]))
    (heeds : ¬ (machine.run b js).Strays i) : Clean b (js ++ [i]) := by
  rcases h with mindful | ⟨ended, quiet⟩
  · exact mindful.step ordered heeds
  · obtain ⟨still, kept⟩ := ended.step i
    rw [← run_concat] at still kept
    exact .inr ⟨still, kept.trans quiet⟩

/-- A connection that never strayed forgets who is gone. -/
theorem Clean.forgets (h : Clean b js) (gone : Gone b js r) : (machine.run b js).Forgets r := by
  obtain ⟨dead, waits⟩ := gone
  rcases h with mindful | ⟨ended, quiet⟩
  · have linked := mindful.linked
    have requests : (machine.run b js).requests.lookup r = none := by
      cases hr : (machine.run b js).requests.lookup r with
      | none => rfl
      | some id =>
        obtain ⟨route, hroute, -⟩ := linked.named.found hr
        have live := linked.routed id
        rw [hroute, dead id ⟨js, List.prefix_refl _, hr⟩] at live
        cases live
    refine ⟨requests, fun id route hroute => linked.named.unnamed requests hroute, ?_, ?_⟩
    · rcases waits with ⟨id, given⟩ | waits
      · exact (mindful.owns r id given).2.settled
      · exact waits
    · rw [mindful.quiet]
      exact List.not_mem_nil
  · refine ⟨by rw [ended.requests]; rfl, fun id route hroute => ?_, fun p hp => ?_, ?_⟩
    · rw [ended.routes] at hroute
      cases hroute
    · rw [ended.pending] at hp
      cases hp
    · rw [quiet]
      exact List.not_mem_nil

/-! ## What strays -/

/-- A Cancel without a stream is remembered, and nothing else changes but who waits. -/
structure Dismissed (r : RequestId) (s t : Upstream) : Prop where
  streams : t.streams = s.streams
  requests : t.requests = s.requests
  pending : ∀ p ∈ t.pending, p.request ≠ r
  cancelled : r ∈ t.cancelled

theorem handleMessage_dismissed {request : RequestId} (code : ErrorCode)
    (unmapped : s.requests.lookup request = none) :
    Ends (handleMessage (.cancel request code) s) (fun _ => Dismissed request s)
      fun _ _ => False := by
  unfold handleMessage
  rw [ends_bind, ends_onCore]
  have kept : (s.withCore (s.observe (.took (.cancel request code)))).requests = s.requests := rfl
  dsimp only
  rw [ends_bind, ends_get, kept, unmapped]
  dsimp only
  rw [ends_bind, ends_onCore, ends_bind, syncQueued, ends_onCore, ends_onCore]
  refine ⟨rfl, rfl, fun p hp => ?_, List.mem_insert_self⟩
  exact of_decide_eq_true (List.mem_filter.mp hp).2

theorem step_dismissed (running : s.stop = none) (dismisses : s.dismisses i.2) :
    ∃ r, s.requests.lookup r = none ∧ Dismissed r s (step i s) := by
  obtain ⟨now, i⟩ := i
  cases i with
  | message m =>
    cases m with
    | cancel request code =>
      have unmapped : s.requests.lookup request = none := by
        by_contra hr
        have none : (s.dismissed (.cancel request code)).isSome = true := dismisses
        rw [Upstream.dismissed, if_neg hr] at none
        cases none
      refine ⟨request, unmapped, step_continues running (ends_bind.mpr
        ((handleMessage_dismissed (s := { s with now }) code unmapped).mono (fun _ t ht => ?_)
          fun _ _ h => h))⟩
      exact ⟨rfl, ht.streams, ht.requests, ht.pending, ht.cancelled⟩
    | _ => cases dismisses
  | _ => cases dismisses

/-- A dismissed request is gone, and held. -/
theorem Mindful.dismissed (h : Mindful b js) (running : (machine.run b js).stop = none)
    (dismisses : (machine.run b js).dismisses i.2) :
    ∃ r, Gone b (js ++ [i]) r ∧ ¬ (machine.run b (js ++ [i])).Forgets r := by
  obtain ⟨r, unmapped, dismissed⟩ := step_dismissed running dismisses
  rw [← run_concat] at dismissed
  refine ⟨r, ⟨fun id given => ?_, .inr dismissed.pending⟩, fun forgets =>
    forgets.cancelled dismissed.cancelled⟩
  rcases given.concat with now | before
  · rw [dismissed.requests, unmapped] at now
    cases now
  · rw [dismissed.streams]
    refine Option.not_isSome_iff_eq_none.mp fun live => ?_
    have mapped := (h.owns r id before).2.live live
    rw [unmapped] at mapped
    cases mapped

/-- The request of a severed stream is gone, and held. -/
theorem Mindful.severed (h : Mindful b js) (severs : (machine.run b js).Severs i) :
    ∃ r, Gone b (js ++ [i]) r ∧ ¬ (machine.run b (js ++ [i])).Forgets r := by
  obtain ⟨id, live, severed⟩ := step_severed severs
  rw [← run_concat] at severed
  rw [← h.linked.routed, Option.isSome_iff_exists] at live
  obtain ⟨route, hroute⟩ := live
  have found := h.linked.named.find hroute
  have given : Given b (js ++ [i]) route.request id := ⟨js, List.prefix_append _ _, found⟩
  refine ⟨route.request, ⟨fun id' given' => ?_, .inl ⟨id, given⟩⟩, fun forgets => ?_⟩
  · have same : id' = id := by
      rcases given'.concat with now | before
      · rw [severed.requests, found] at now
        exact (Option.some.inj now).symm
      · exact ((h.owns _ id' before).2.only id found).symm
    have gone := (machine.run b js).streams.get?_retire id id
    rw [if_pos rfl] at gone
    rw [same, severed.streams]
    exact gone
  · have requests := forgets.requests
    rw [severed.requests, found] at requests
    cases requests

/-- In a run whose requests' messages come in order, who is gone is forgotten after every step
    if and only if no step strays. -/
theorem forgets_iff (hb : b.Fresh) (is : List (Instant × UpInput)) (ordered : Ordered is) :
    machine.Meets (fun s i => ¬ s.Strays i) b is ↔
      ∀ js, js <+: is → ∀ r, Gone b js r → (machine.run b js).Forgets r := by
  refine Machine.meets_iff_forall_history (I := Clean b) is hb.clean
    (fun js _ h r gone => h.forgets gone) (fun js i hjs h heeds => h.step (ordered.earlier hjs) heeds)
    fun js i _ h forgets strays => ?_
  obtain ⟨running, strays⟩ := strays
  have mindful := h.mindful running
  have left : ∃ r, Gone b (js ++ [i]) r ∧ ¬ (machine.run b (js ++ [i])).Forgets r := by
    rcases Bool.or_eq_true_iff.mp strays with dismisses | severs
    · exact mindful.dismissed running dismisses
    · exact mindful.severed ⟨running, severs⟩
  obtain ⟨r, gone, held⟩ := left
  exact held (forgets r gone)

/-- A request and the whole of its response. -/
def answered : List (Instant × UpInput) :=
  [(0, .message (.request ⟨7⟩ (.new 1) ⟨ascii "GET", ascii "http", none, ascii "/", []⟩ true ⟨0⟩)),
    (0, .frame (.ofParts .headers ⟨5⟩ (.new 1) [0x88] (show 1 < 2 ^ 24 by decide)))]

/-- Its client cancels it before it hears of the end. -/
def crossed : List (Instant × UpInput) := answered ++ [(0, .message (.cancel ⟨7⟩ .cancel))]

/-- The messages of one request are in order where they are for that request. -/
theorem ordered_of_one {r : RequestId} (all : ∀ i ∈ is, ∀ r', r' ≠ r → about r' i = none)
    (ordered : course.Accepts (about r) is) : Ordered is := by
  intro r'
  by_cases same : r' = r
  · rw [same]
    exact ordered
  · exact .intro (Monitor.watch_start fun i hi => all i hi r' same)

theorem crossed_ordered : Ordered crossed := by
  refine ordered_of_one (r := ⟨7⟩) (fun i hi r' other => ?_) (by decide)
  have others : ∀ m : ToUpstream, m.id = ⟨7⟩ → about r' (0, .message m) = none :=
    fun m hm => if_neg (by rw [hm]; exact Ne.symm other)
  simp only [crossed, answered, List.cons_append, List.nil_append, List.mem_cons,
    List.not_mem_nil, or_false] at hi
  rcases hi with rfl | rfl | rfl
  · exact others _ rfl
  · rfl
  · exact others _ rfl

/-- Where no stream is live and nobody waits, every request is gone. -/
theorem gone_of_empty (live : (machine.run b js).streams.live.entries = [])
    (pending : (machine.run b js).pending.length = 0) (r : RequestId) : Gone b js r := by
  refine ⟨fun id _ => ?_, .inr ?_⟩
  · unfold StreamTable.get? AList.lookup
    rw [live]
    rfl
  · rw [List.length_eq_zero_iff.mp pending]
    exact fun p hp => (by cases hp)

theorem answered_forgotten :
    (machine.run (.start .default 0 0 0) answered).Forgets ⟨7⟩ :=
  (forgets_iff ⟨.default, 0, 0, 0, by decide, by decide, rfl⟩ answered
    (crossed_ordered.earlier (List.prefix_append _ _))).mp (by decide +kernel) answered
    (List.prefix_refl _) ⟨7⟩ (gone_of_empty (by decide +kernel) (by decide +kernel) _)

/-- The Cancel stays in `cancelled`, though nothing of its request is left to come. -/
theorem crossed_remembered :
    ¬ ∀ b is, Fresh b → Ordered is → ∀ js, js <+: is → ∀ r, Gone b js r →
      (machine.run b js).Forgets r := by
  intro h
  have held : ⟨7⟩ ∈ (machine.run (.start .default 0 0 0) crossed).cancelled := by decide +kernel
  exact (h _ crossed ⟨.default, 0, 0, 0, by decide, by decide, rfl⟩ crossed_ordered crossed
    (List.prefix_refl _) ⟨7⟩ (gone_of_empty (by decide +kernel) (by decide +kernel) _)).cancelled held

end Upstream

end H2Proxy
