import H2Proxy.Conn.Says

/-
  Events that lost the race with the end of their stream.

  The handler promises that an event for a stream that is gone is a silent drop. `Gone` and
  `Shed` break the promise: their refusal of the request opens the stream a second time,
  and an id that does not increase is a connection error (`stale_event_dropped_iff`).
-/

namespace H2Proxy

/-- Whether a stream of this id entered the table here. -/
def ConnObs.opens {μ : Type} (id : StreamId) : ConnObs μ → Bool
  | .opened id' => id' = id
  | _ => false

theorem ConnObs.any_opens {μ : Type} {log : List (ConnObs μ)} {id : StreamId} :
    log.any (·.opens id) = true ↔ .opened id ∈ log := by
  rw [List.any_eq_true]
  constructor
  · rintro ⟨o, ho, hopens⟩
    cases o with
    | opened id' =>
      cases of_decide_eq_true hopens
      exact ho
    | _ => cases hopens
  · exact fun h => ⟨_, h, decide_eq_true rfl⟩

namespace Conn

variable {σ μ : Type}

/-- A stream that was opened once and is live no longer. -/
def Spent (s : Conn σ μ) (id : StreamId) : Prop :=
  s.log.any (·.opens id) = true ∧ s.streams.get? id = none

instance (s : Conn σ μ) (id : StreamId) : Decidable (s.Spent id) :=
  inferInstanceAs (Decidable (_ ∧ _))

/-- The handler's answer at time `now` to an event, as a silent drop: it returns, queues no
    frame on the event's stream and leaves no stream live that was not. -/
def Drops [Service σ μ] (s : Conn σ μ) (now : Instant) (e : ServiceEvent) : Prop :=
  ∃ t : Conn σ μ, handleServiceEvent e { s with now } = .ok () t ∧
    (∃ added, t.log = s.log ++ added ∧
      ∀ f fields limit, .queued f fields limit ∈ added → f.streamId ≠ e.id) ∧
    ∀ id, s.streams.get? id = none → t.streams.get? id = none

/-- The frames that returned credit is announced with concern no stream. -/
theorem reclaim_grows (c : ConnCore σ μ) (limit : Nat) :
    ∃ added, (c.reclaim limit).log = c.log ++ added ∧
      ∀ o ∈ added, ∃ n, o = .queued (.windowUpdate .connection n) [] limit := by
  unfold ConnCore.reclaim
  dsimp only
  split
  · exact ⟨[], (List.append_nil _).symm, nofun⟩
  · refine ⟨_, rfl, ?_⟩
    intro o ho
    obtain ⟨n, -, rfl⟩ := Option.mem_map.mp (Option.mem_toList.mp ho)
    exact ⟨n, rfl⟩

variable [Service σ μ]

/-- In every run an id that was opened is odd and no higher than the highest seen. -/
theorem opened_le {s : Conn σ μ} (h : (machine σ μ).Reachable s) {id : StreamId} (opened : .opened id ∈ s.log) :
    id ≤ s.streams.highestPeerId ∧ id.isClientInitiated = true := by
  obtain ⟨s₀, h₀, ht⟩ := reach_traced (fun s i _ => permits_all s i) h
  obtain ⟨added, hlog, hsaid⟩ := ht.grows.log
  rw [hlog] at opened
  obtain hold | hnew := List.mem_append.mp opened
  · obtain ⟨service, localSettings, window, limits, policy, admission, now, -, -, -, rfl⟩ := h₀
    simp [start] at hold
  · cases hsaid _ hnew with
    | opened le odd => exact ⟨le, odd⟩

/-- A refusal for an id that was opened before is an error of the connection. -/
theorem refuseRequest_fails {s : Conn σ μ} {id : StreamId} (status : Nat)
    (gone : s.streams.get? id = none) (seen : id ≤ s.streams.highestPeerId) :
    Ends (refuseRequest id status s) (fun _ _ => False) fun e _ => e.code = .protocolError := by
  unfold refuseRequest rejectStream
  simp only [ends_bind, ends_get, gone, Option.any_none, Option.isSome_none, Bool.false_eq_true,
    if_false]
  refine (openRejected_ends s id).ok ?_
  rintro opened t ⟨hopened, -⟩
  obtain ⟨why, -, hc⟩ | ⟨-, hle, -⟩ := s.streams.openPeer_cases id
  · rw [hc] at hopened
    subst hopened
    rfl
  · exact absurd seen hle

/-- Acting on an event for a stream that is gone: nothing, or returned credit. -/
theorem actOn_gone {s : Conn σ μ} {e : ServiceEvent} (gone : s.streams.get? e.id = none)
    (notRefusal : e.isRefusal = false) :
    Ends (actOn e s)
      (fun _ t => s.Does s.toConnCore t ∨ s.Does (s.toConnCore.reclaim s.limit) t)
      fun _ _ => False := by
  have dead : ∀ id, e.id = id → ¬ (s.streams.get? id).isSome = true := by
    rintro - rfl
    simp [gone]
  unfold actOn
  cases e with
  | gone id => cases notRefusal
  | shed id => cases notRefusal
  | bodyAccepted id n =>
    refine (releaseRecvWindow_ends s id n).mono ?_ fun _ _ h => h
    intro _ t ht
    rw [show s.streams.get? id = none from gone] at ht
    by_cases hn : n = 0
    · rw [if_pos hn] at ht
      exact .inl ht
    · rw [if_neg hn] at ht
      exact .inr ht
  | _ =>
    simp only [ends_bind, ends_get, ends_ite, ends_pure]
    exact ⟨fun h => absurd h (dead _ rfl), fun _ => .inl ⟨rfl, .refl s⟩⟩

/-- What follows the responder's look at a stale event that is no refusal. -/
theorem drops_of_handed {s : Conn σ μ} {now : Instant} {e : ServiceEvent}
    (spent : e.id ≠ .connection) {t : Conn σ μ} {c : ConnCore σ μ} {said : List (ConnObs μ)}
    (handled : handleServiceEvent e { s with now } = .ok () t) (streams : c.streams = s.streams)
    (log : c.log = s.log ++ said) (quiet : ∀ f fields limit, .queued f fields limit ∉ said)
    (core : t.toConnCore = c ∨ ∃ limit, t.toConnCore = c.reclaim limit) : s.Drops now e := by
  refine ⟨t, handled, ?_, ?_⟩
  · obtain hcore | ⟨limit, hcore⟩ := core
    · refine ⟨said, by rw [hcore, log], ?_⟩
      exact fun f fields limit hf => absurd hf (quiet f fields limit)
    · obtain ⟨added, hadded, hsays⟩ := reclaim_grows c limit
      refine ⟨said ++ added, by rw [hcore, hadded, log, List.append_assoc], ?_⟩
      intro f fields limit' hf
      obtain hf | hf := List.mem_append.mp hf
      · exact absurd hf (quiet f fields limit')
      · obtain ⟨n, hn⟩ := hsays _ hf
        cases hn
        exact spent.symm
  · intro id hid
    obtain hcore | ⟨limit, hcore⟩ := core
    · rw [hcore, streams, hid]
    · rw [hcore, ConnCore.get?_reclaim, streams, hid]

theorem call_log_quiet (call : Call) (effects : List (Effect μ)) (f : Frame)
    (fields : List Header) (limit : Nat) :
    (.queued f fields limit : ConnObs μ) ∉ (.called call :: effects.filterMap fun
      | .emit _ => none
      | .send m => some (.sent m)) := by
  intro h
  obtain h | h := List.mem_cons.mp h
  · cases h
  · obtain ⟨x, -, hx⟩ := List.mem_filterMap.mp h
    cases x <;> cases hx

/-- The handler's answer to a stale event: as if it were not there, or an error. -/
theorem handleServiceEvent_gone [LawfulService σ] {s : Conn σ μ} {e : ServiceEvent}
    (gone : s.streams.get? e.id = none)
    (silent : (Service.intercept s.now e s.service).2 = none ∨ e.isRefusal = false) :
    Ends (handleServiceEvent e s)
      (fun _ t => ∃ c said, c.streams = s.streams ∧ c.log = s.log ++ said ∧
        (∀ f fields limit, .queued f fields limit ∉ said) ∧
        (t.toConnCore = c ∨ ∃ limit, t.toConnCore = c.reclaim limit))
      fun _ _ => False := by
  unfold handleServiceEvent
  simp only [ends_bind, ends_get, ends_onCore]
  have quiet := call_log_quiet (.intercept e) (Service.intercept s.now e s.service).1.2
  cases hi : (Service.intercept s.now e s.service).2 with
  | none =>
    exact ⟨s.toConnCore.call (.intercept e) (Service.intercept s.now e s.service).1, _, rfl, rfl,
      quiet, .inl rfl⟩
  | some e' =>
    obtain rfl := LawfulService.intercept_eq _ _ _ _ hi
    have notRefusal : e'.isRefusal = false := silent.resolve_left (by simp [hi])
    simp only [ends_bind, ends_onCore]
    have acted := actOn_gone (s := s.withCore ((s.seen e').observe (.handled e'))) gone notRefusal
    refine acted.mono ?_ fun _ _ h => h
    intro _ t ht
    refine ⟨(s.seen e').observe (.handled e'), _, rfl, List.append_assoc .., ?_, ?_⟩
    · intro f fields limit hf
      obtain hf | hf := List.mem_append.mp hf
      · exact quiet f fields limit hf
      · cases List.mem_singleton.mp hf
    · obtain ht | ht := ht
      · exact .inl ht.core
      · exact .inr ⟨_, ht.core⟩

theorem handleServiceEvent_refusal [LawfulService σ] {s : Conn σ μ} {e : ServiceEvent}
    (gone : s.streams.get? e.id = none) (seen : e.id ≤ s.streams.highestPeerId)
    (kept : (Service.intercept s.now e s.service).2 ≠ none) (refusal : e.isRefusal = true) :
    Ends (handleServiceEvent e s) (fun _ _ => False) fun e _ => e.code = .protocolError := by
  unfold handleServiceEvent
  simp only [ends_bind, ends_get, ends_onCore]
  cases hi : (Service.intercept s.now e s.service).2 with
  | none => exact absurd hi kept
  | some e' =>
    obtain rfl := LawfulService.intercept_eq _ _ _ _ hi
    simp only [ends_bind, ends_onCore]
    unfold actOn
    cases e' with
    | gone id => exact refuseRequest_fails 502 gone seen
    | shed id => exact refuseRequest_fails 503 gone seen
    | _ => cases refusal

/-- In every run, a responder that hands events on as they are has an event for a spent
    stream dropped in silence exactly when it swallows the event or the event is neither
    `Gone` nor `Shed`. -/
theorem stale_event_dropped_iff [LawfulService σ] {s : Conn σ μ} (h : (machine σ μ).Reachable s)
    (now : Instant) {e : ServiceEvent} (spent : s.Spent e.id) :
    s.Drops now e ↔
      (Service.intercept now e s.service).2 = none ∨ e.isRefusal = false := by
  obtain ⟨opened, gone⟩ := spent
  obtain ⟨le, odd⟩ := opened_le h (ConnObs.any_opens.mp opened)
  constructor
  · rintro ⟨t, handled, -⟩
    by_contra hc
    rw [not_or, Bool.not_eq_false] at hc
    have fails := handleServiceEvent_refusal (s := { s with now }) gone le hc.1 hc.2
    rw [handled] at fails
    exact fails
  · intro silent
    have notZero : e.id ≠ .connection := by
      intro h0
      rw [h0] at odd
      cases odd
    have ends := handleServiceEvent_gone (s := { s with now }) gone silent
    generalize hres : handleServiceEvent e { s with now } = res at ends
    cases res with
    | error e' t => exact ends.elim
    | ok u t =>
      obtain ⟨c, said, streams, log, quiet, core⟩ := ends
      exact drops_of_handed notZero hres streams log quiet core

/-! ### A reset that crosses a refusal -/

/-- `GET /` on stream 1, in one HEADERS frame. -/
def getRoot : WireFrame :=
  .ofParts .headers (Flags.endHeaders ||| Flags.endStream) (.new 1) [0x82, 0x86, 0x84] (by decide)

/-- RST_STREAM with CANCEL on stream 1. -/
def cancelFirst : WireFrame := .ofParts .rstStream 0 (.new 1) [0, 0, 0, 8] (by decide)

/-- A client that has taken its request back. -/
def crossed : Conn Echo Empty :=
  (machine Echo Empty).run (withService (.new 4)) [(0, .frame getRoot), (1, .frame cancelFirst)]

theorem crossed_reachable : (machine Echo Empty).Reachable crossed :=
  Machine.Reach.run (.init (fresh_withService _)) _ (by simp [Machine.Meets])

theorem crossed_spent : crossed.Spent (.new 1) := by decide +kernel

/-- A reset from upstream that comes too late is dropped. -/
theorem stale_reset_dropped : crossed.Drops 2 (.reset (.new 1) .cancel) :=
  (stale_event_dropped_iff (e := .reset (.new 1) .cancel) crossed_reachable 2 crossed_spent).mpr
    (.inr rfl)

/-- A client's reset crosses the death of the upstream, and the handler fails. -/
theorem gone_after_reset_fails :
    ¬ ∀ s, (machine Echo Empty).Reachable s → ∀ now e, s.Spent e.id → s.Drops now e := by
  intro all
  obtain ⟨t, handled, -⟩ := all crossed crossed_reachable 2 (.gone (.new 1)) crossed_spent
  have fails : (match handleServiceEvent (.gone (.new 1)) { crossed with now := 2 } with
    | .ok .. => true
    | .error .. => false) = false := by decide +kernel
  rw [handled] at fails
  cases fails

end Conn

end H2Proxy
