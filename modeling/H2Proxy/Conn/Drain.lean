import H2Proxy.Conn.Tidy
import H2Proxy.Conn.Known
import H2Proxy.Conn.Windows

/-
  What a drain promises.

  `heeds` says what may follow a GOAWAY: no GOAWAY with a higher id, and of the streams above its
  id nothing but refusals. A drain that has committed keeps the highest id of the peer where it
  is (`Draining`), so every run whose steps are `graceful` heeds each of its GOAWAYs
  (`drain_kept`); and whatever the run, a drain closes only when its streams or its time are done.
-/

namespace H2Proxy

namespace ConnObs

variable {μ : Type}

/-- An entry of the log that may come after a GOAWAY with this last stream id. -/
def within (last : StreamId) : ConnObs μ → Bool
  | opened id | called (.dispatch id ..) => !id.isClientInitiated || id ≤ last
  | queued (.goAway last' ..) _ _ => last' ≤ last
  | queued (.rstStream _ .refusedStream) _ _ => true
  | queued f fields _ => (f.reply? fields).isNone || !f.streamId.isClientInitiated || f.streamId ≤ last
  | _ => true

/-- `o'` may come after `o`. -/
def heeds (o o' : ConnObs μ) : Bool := o.goAway?.all o'.within

theorem within_mono {last last' : StreamId} (h : last ≤ last') {o : ConnObs μ}
    (ho : o.within last) : o.within last' := by
  have up : ∀ id : StreamId, id ≤ last → id ≤ last' := fun id hid => Nat.le_trans hid h
  cases o with
  | opened id =>
    simp only [within, Bool.or_eq_true, decide_eq_true_eq] at ho ⊢
    exact ho.imp_right (up id)
  | called call =>
    cases call with
    | dispatch id =>
      simp only [within, Bool.or_eq_true, decide_eq_true_eq] at ho ⊢
      exact ho.imp_right (up id)
    | _ => rfl
  | queued f fields limit =>
    cases f with
    | goAway last'' =>
      simp only [within, decide_eq_true_eq] at ho ⊢
      exact up _ ho
    | rstStream id code =>
      cases code with
      | refusedStream => rfl
      | _ =>
        simp only [within, Bool.or_eq_true, decide_eq_true_eq] at ho ⊢
        exact ho.imp_right (up _)
    | _ =>
      simp only [within, Bool.or_eq_true, decide_eq_true_eq] at ho ⊢
      exact ho.imp_right (up _)
  | _ => rfl

/-- Every id is at or below the one the first GOAWAY names. -/
theorem within_max (o : ConnObs μ) : o.within (.new maxLocalStreamId) := by
  have all : ∀ id : StreamId, id ≤ .new maxLocalStreamId := by
    intro id
    have lt := id.lt
    show id.get ≤ maxLocalStreamId % 2 ^ 31
    unfold maxLocalStreamId
    omega
  cases o with
  | opened id => simp [within, all]
  | called call =>
    cases call with
    | dispatch id => simp [within, all]
    | _ => rfl
  | queued f fields limit =>
    cases f with
    | rstStream id code => cases code <;> simp [within, all]
    | _ => simp [within, all]
  | _ => rfl

/-- What concerns a stream at or below the last id may come after its GOAWAY. -/
theorem About.within {on : Option StreamId} {last : StreamId} {o : ConnObs μ} (h : o.About on)
    (below : ∀ id, on = some id → id.isClientInitiated → id ≤ last)
    (opens : ∀ id, o = .opened id → id.isClientInitiated → id ≤ last) : o.within last := by
  have fits : ∀ id : StreamId, ¬ o.Apart id → !id.isClientInitiated || id ≤ last := by
    intro id notApart
    by_cases hon : on = some id
    · cases hid : id.isClientInitiated with
      | false => rfl
      | true => exact decide_eq_true (below id hon hid)
    · exact absurd (h.others id hon) notApart
  cases o with
  | opened id =>
    show (!id.isClientInitiated || id ≤ last) = true
    cases hid : id.isClientInitiated with
    | false => rfl
    | true => exact decide_eq_true (opens id rfl hid)
  | called call =>
    cases call with
    | dispatch id head es =>
      refine fits id fun apart => ?_
      have none_ := apart.call
      simp [call?, Call.id?] at none_
    | _ => rfl
  | queued f fields limit =>
    have reply : (f.reply? fields).isNone || !f.streamId.isClientInitiated || f.streamId ≤ last := by
      cases hr : f.reply? fields with
      | none => rfl
      | some r =>
        refine fits f.streamId fun apart => ?_
        have none_ := apart.reply
        simp [reply?, hr] at none_
    cases f with
    | goAway last' => cases h.calm
    | rstStream id code =>
      cases code with
      | refusedStream => rfl
      | _ => exact reply
    | _ => exact reply
  | _ => rfl

end ConnObs

section Drain

variable {σ μ : Type}

/-- Of the ids above the one a drain has committed to, none provokes a reset of its own, none has
    its header list answered, and none is refused by an event. -/
def graceful : Permit σ μ where
  frame c w := c.drainCommitted → ∀ id, w.decode = .ok (.frame (.windowUpdate id 0)) →
    id.isClientInitiated → id ≤ c.streams.highestPeerId
  block c id _ r := c.drainCommitted → (∃ size limit, r = .error (.headerListTooLarge size limit)) →
    id.isClientInitiated → id ≤ c.streams.highestPeerId
  event c e := c.drainCommitted → e.isRefusal → e.id.isClientInitiated →
    e.id ≤ c.streams.highestPeerId

instance (c : ConnCore σ μ) (w : WireFrame) : Decidable ((graceful : Permit σ μ).frame c w) :=
  match h : w.decode with
  | .ok (.frame (.windowUpdate id 0)) =>
    decidable_of_iff (c.drainCommitted → id.isClientInitiated → id ≤ c.streams.highestPeerId)
      ⟨fun hc hd id' hid => by
        cases h.symm.trans hid
        exact hc hd, fun hc hd => hc hd id h⟩
  | .ok (.frame (.windowUpdate _ (_ + 1))) => .isTrue fun _ _ hid => by cases h.symm.trans hid
  | .ok (.frame (.data ..)) | .ok (.frame (.headers ..)) | .ok (.frame (.rstStream ..))
  | .ok (.frame (.settings ..)) | .ok (.frame (.ping ..)) | .ok (.frame (.goAway ..))
  | .ok (.frame (.continuation ..)) | .ok (.ignored ..) | .error _ =>
    .isTrue fun _ _ hid => by cases h.symm.trans hid

instance (c : ConnCore σ μ) (id : StreamId) (endStream : Bool) :
    (r : Except HpackError (List Header)) → Decidable ((graceful : Permit σ μ).block c id endStream r)
  | .error (.headerListTooLarge size limit) =>
    decidable_of_iff (c.drainCommitted → id.isClientInitiated → id ≤ c.streams.highestPeerId)
      ⟨fun h hd _ => h hd, fun h hd => h hd ⟨size, limit, rfl⟩⟩
  | .error (.compression _) | .ok _ => .isTrue fun _ h => nomatch h

instance (c : ConnCore σ μ) (e : ServiceEvent) : Decidable ((graceful : Permit σ μ).event c e) :=
  inferInstanceAs (Decidable (c.drainCommitted → _ → _ → _ ≤ _))

instance : ∀ c id turn, Decidable ((graceful : Permit σ μ).turn c id turn) :=
  fun _ _ _ => .isTrue trivial

/-- Every entry heeds the GOAWAYs before it, and nothing has gone above the last of them. -/
structure ConnCore.Heeded (c : ConnCore σ μ) : Prop where
  order : c.log.Pairwise fun o o' => o.heeds o'
  above : ∀ o ∈ c.log, ∀ last, o.goAway? = some last → c.streams.highestPeerId ≤ last

/-- Before a drain commits, its GOAWAY names the highest id there is. -/
structure ConnCore.Draining (c : ConnCore σ μ) : Prop extends c.Heeded where
  advisory : c.drainCommitted = false → ∀ o ∈ c.log, ∀ last, o.goAway? = some last →
    last = .new maxLocalStreamId

namespace ConnCore

variable {c c' : ConnCore σ μ}

theorem le_max (id : StreamId) : id ≤ .new maxLocalStreamId := by
  have lt := id.lt
  show id.get ≤ maxLocalStreamId % 2 ^ 31
  unfold maxLocalStreamId
  omega

/-- Entries that are no GOAWAY and stay within the highest id of the peer. -/
theorem Heeded.add (h : c.Heeded) {added : List (ConnObs μ)} (hlog : c'.log = c.log ++ added)
    (calm : ∀ o ∈ added, o.goAway? = none)
    (inside : ∀ last, (∃ o ∈ c.log, o.goAway? = some last) → ∀ o ∈ added, o.within last)
    (above : ∀ last, (∃ o ∈ c.log, o.goAway? = some last) → c'.streams.highestPeerId ≤ last) :
    c'.Heeded := by
  refine ⟨?_, ?_⟩
  · rw [hlog, List.pairwise_append]
    refine ⟨h.order, ?_, ?_⟩
    · refine List.pairwise_of_forall_mem_list fun o ho o' _ => ?_
      unfold ConnObs.heeds
      rw [calm o ho]
      rfl
    · intro o ho o' ho'
      unfold ConnObs.heeds
      cases hg : o.goAway? with
      | none => rfl
      | some last => exact inside last ⟨o, ho, hg⟩ o' ho'
  · intro o ho last hg
    rw [hlog] at ho
    obtain ho | ho := List.mem_append.mp ho
    · exact above last ⟨o, ho, hg⟩
    · rw [calm o ho] at hg
      cases hg

/-- One more GOAWAY, with an id that no earlier one undercuts. -/
theorem Heeded.goAway (h : c.Heeded) {last : StreamId} {code : ErrorCode} {debug : Bytes}
    {limit : Nat} (hlog : c'.log = c.log ++ [.queued (.goAway last code debug) [] limit])
    (top : c'.streams.highestPeerId = c.streams.highestPeerId)
    (least : ∀ o ∈ c.log, ∀ last', o.goAway? = some last' → last ≤ last')
    (above : c.streams.highestPeerId ≤ last) : c'.Heeded := by
  refine ⟨?_, ?_⟩
  · rw [hlog, List.pairwise_append]
    refine ⟨h.order, List.pairwise_singleton _ _, ?_⟩
    intro o ho o' ho'
    obtain rfl := List.mem_singleton.mp ho'
    unfold ConnObs.heeds
    cases hg : o.goAway? with
    | none => rfl
    | some last' => exact decide_eq_true (least o ho last' hg)
  · intro o ho last' hg
    rw [hlog] at ho
    rw [top]
    obtain ho | ho := List.mem_append.mp ho
    · exact h.above o ho last' hg
    · obtain rfl := List.mem_singleton.mp ho
      cases hg
      exact above

/-- What concerns no stream above the highest id of a committed drain. -/
theorem Draining.concerns (h : c.Draining) {on : Option StreamId} (concerns : Concerns on c c')
    (grows : Says c c')
    (below : c.drainCommitted → ∀ id, on = some id → id.isClientInitiated →
      id ≤ c.streams.highestPeerId) : c'.Draining := by
  obtain ⟨added, hlog, about⟩ := concerns.log
  have calm : ∀ o ∈ added, o.goAway? = none := fun o ho => (about o ho).calm
  have committed : c'.drainCommitted = c.drainCommitted := by
    unfold ConnCore.drainCommitted
    rw [concerns.draining]
  cases hd : c.drainCommitted with
  | false =>
    have free := h.advisory hd
    refine ⟨h.toHeeded.add hlog calm ?_ ?_, ?_⟩
    · rintro last ⟨o, ho, hg⟩ o' -
      rw [free o ho last hg]
      exact o'.within_max
    · rintro last ⟨o, ho, hg⟩
      rw [free o ho last hg]
      exact le_max _
    · intro _ o ho last hg
      rw [hlog] at ho
      obtain ho | ho := List.mem_append.mp ho
      · exact free o ho last hg
      · rw [calm o ho] at hg
        cases hg
  | true =>
    have below := below hd
    have top : c'.streams.highestPeerId = c.streams.highestPeerId := by
      obtain same | ⟨id, hon, odd, new⟩ := concerns.highestPeerId
      · exact same
      · exact absurd (below id hon odd) new
    obtain ⟨added', hlog', sayable⟩ := grows.log
    obtain rfl : added = added' := List.append_cancel_left (hlog.symm.trans hlog')
    refine ⟨h.toHeeded.add hlog calm ?_ ?_, fun hf => ?_⟩
    · rintro last ⟨o, ho, hg⟩ o' ho'
      refine ConnObs.within_mono (h.above o ho last hg) ((about o' ho').within below ?_)
      rintro id rfl -
      cases sayable _ ho' with
      | opened le => exact top ▸ le
    · rintro last ⟨o, ho, hg⟩
      rw [top]
      exact h.above o ho last hg
    · rw [committed, hd] at hf
      cases hf

/-- Entries that may follow any GOAWAY, with the streams as they were. -/
theorem Draining.harmless (h : c.Draining) (added : List (ConnObs μ))
    (hlog : c'.log = c.log ++ added) (calm : ∀ o ∈ added, o.goAway? = none)
    (within : ∀ o ∈ added, ∀ last, o.within last)
    (top : c'.streams.highestPeerId = c.streams.highestPeerId)
    (draining : c'.draining = c.draining) : c'.Draining := by
  refine ⟨h.toHeeded.add hlog calm (fun last _ o ho => within o ho last) ?_, ?_⟩
  · rintro last ⟨o, ho, hg⟩
    rw [top]
    exact h.above o ho last hg
  · intro hf o ho last hg
    rw [hlog] at ho
    obtain ho | ho := List.mem_append.mp ho
    · refine h.advisory ?_ o ho last hg
      rw [← hf]
      unfold ConnCore.drainCommitted
      rw [draining]
    · rw [calm o ho] at hg
      cases hg

/-- A call that may follow any GOAWAY, with the messages the responder answers it with. -/
theorem free_call {x : Call} (free : ∀ last, (ConnObs.called x : ConnObs μ).within last)
    (r : σ × List (Effect μ)) (c : ConnCore σ μ) : ∃ added, (c.call x r).log = c.log ++ added ∧
      ∀ o ∈ added, o.goAway? = none ∧ ∀ last, o.within last := by
  refine ⟨_, rfl, fun o ho => ?_⟩
  obtain rfl | ho := List.mem_cons.mp ho
  · exact ⟨rfl, free⟩
  · obtain ⟨x, -, hx⟩ := List.mem_filterMap.mp ho
    cases x with
    | emit event => cases hx
    | send message => cases hx; exact ⟨rfl, fun _ => rfl⟩

variable [Service σ μ]

/-- A refusal may follow any GOAWAY. -/
theorem Draining.writeRst (h : c.Draining) (now : Instant) (id : StreamId) {limit : Nat}
    (fits : defaultMaxFrameSize ≤ limit) : (c.writeRst now id .refusedStream limit).Draining := by
  have told : (c.abandon now id .refusedStream).Draining := by
    obtain ⟨added, hlog, free⟩ := free_call (x := .cancel id .refusedStream) (fun _ => rfl)
      (Service.cancel now id .refusedStream c.service) { c with streams := c.streams.retire id }
    exact h.harmless added hlog (fun o ho => (free o ho).1) (fun o ho => (free o ho).2)
      (StreamTable.retire_top _ _) rfl
  have given : ((c.abandon now id .refusedStream).reclaim limit).Draining := by
    exact told.concerns ((Concerns.refl none _).reclaim limit) ((Says.refl _).reclaim fits) nofun
  refine given.harmless [.queued (.rstStream id .refusedStream) [] limit] rfl ?_ ?_ rfl rfl
  · intro o ho
    cases List.mem_singleton.mp ho
    rfl
  · intro o ho last
    cases List.mem_singleton.mp ho
    rfl

end ConnCore

variable {c c' : ConnCore σ μ}

/-- What is answered locally by a graceful run is not above the id of a committed drain. -/
theorem answers_below {id : StreamId} (h : (graceful : Permit σ μ).Answers c id)
    (committed : c.drainCommitted) (odd : id.isClientInitiated) : id ≤ c.streams.highestPeerId := by
  obtain ⟨endStream, size, limit, block⟩ | ⟨c₀, e, rfl, event, refusal, rfl⟩ := h
  · exact block committed ⟨size, limit, rfl⟩ odd
  · exact event committed refusal odd

theorem opens_below {id : StreamId} (h : (graceful : Permit σ μ).Opens c id)
    (committed : c.drainCommitted) (odd : id.isClientInitiated) : id ≤ c.streams.highestPeerId := by
  obtain ⟨endStream, headers, -, open_⟩ | answers := h
  · rw [open_] at committed
    cases committed
  · exact answers_below answers committed odd

variable [Service σ μ]

theorem StreamMove.heeding {on : StreamId} (h : StreamMove graceful c on c') (hd : c.Draining)
    (tidy : c.Tidy) : c'.Draining := by
  have concerned : (c.drainCommitted → on.isClientInitiated → on ≤ c.streams.highestPeerId) →
      c'.Draining := by
    intro below
    refine hd.concerns h.concerns h.grows fun committed id hid => ?_
    obtain rfl := Option.some.inj hid
    exact below committed
  have own : ∀ {st : Stream}, c.streams.get? on = some st → c'.Draining := fun live =>
    concerned fun _ _ => tidy.numbered on (by rw [live]; rfl)
  cases h with
  | handled =>
    refine hd.harmless [_] rfl ?_ ?_ rfl rfl
    · intro o ho
      cases List.mem_singleton.mp ho
      rfl
    · intro o ho last
      cases List.mem_singleton.mp ho
      rfl
  | dropped _ _ _ _ live | withdrawn _ _ _ live | trailered _ _ live | delivered _ _ _ live
  | mismatched _ _ _ _ live | overspent _ _ _ live | credited _ live | responded _ _ _ live
  | refused _ _ _ _ _ live | oversized _ _ _ live | pushed _ live | trailersDue _ _ _ live
  | turned _ _ _ _ live | overgranted _ _ _ _ live | mistrailed _ _ _ live => exact own live
  | stray now code heard frame =>
    obtain ⟨c₀, rfl, permit⟩ := heard
    exact concerned fun committed odd => permit committed on frame odd
  | @flushed now es e limit owed =>
    refine concerned fun _ _ => (tidy.owing e.stream ?_).seen
    unfold ConnCore.owed
    rw [owed]
    simp [List.countP_append]
  | crowded now cause => exact concerned (opens_below cause)
  | malformed now _ _ _ cause | dispatched now _ _ cause =>
    exact concerned (opens_below (.inl ⟨_, _, cause⟩))
  | answered now _ _ _ cause => exact concerned (answers_below cause)
  | turnedAway now permit idle drained fits => exact hd.writeRst now on fits
  | late now permit frame gone =>
    refine concerned fun _ odd => ?_
    have seen := (StreamTable.lookup_closed gone).2
    unfold StreamTable.seen at seen
    rw [tidy.highestLocalId] at seen
    obtain peer | zero := StreamId.le_max_iff.mp (of_decide_eq_true seen)
    · exact peer
    · exact Nat.le_trans zero (Nat.zero_le _)

theorem Move.heeding (h : Move graceful c c') (hd : c.Draining) (tidy : c.Tidy) : c'.Draining := by
  obtain noted | ⟨last, announced⟩ | quiet | ⟨on, move⟩ := h.kinds
  · exact hd.harmless [] (noted.log.trans (List.append_nil _).symm) nofun nofun
      noted.alike.highestPeerId noted.draining
  · obtain ⟨limit, hlog⟩ := announced.log
    have free := hd.advisory announced.uncommitted
    have top : c'.streams.highestPeerId = c.streams.highestPeerId := by rw [announced.streams]
    refine ⟨hd.toHeeded.goAway hlog top ?_ ?_, fun open_ o ho last' hg => ?_⟩
    · intro o ho last' hg
      rw [free o ho last' hg]
      exact ConnCore.le_max last
    · obtain rfl | ⟨rfl, -⟩ := announced.names
      · exact ConnCore.le_max _
      · exact Nat.le_refl _
    · rw [hlog] at ho
      obtain ho | ho := List.mem_append.mp ho
      · exact free o ho last' hg
      · cases List.mem_singleton.mp ho
        cases hg
        obtain first | ⟨-, committed⟩ := announced.names
        · exact first
        · rw [open_] at committed
          cases committed
  · exact hd.concerns quiet h.grows nofun
  · exact move.heeding hd tidy

/-- What an error leaves of the core still heeds the GOAWAYs. -/
theorem Fault.heeding (h : Fault graceful c c') (hd : c.Draining) (tidy : c.Tidy) : c'.Draining := by
  have grows := h.grows
  have quiet : Concerns Option.none c c' → c'.Draining := fun k => hd.concerns k grows nofun
  have concerned : ∀ {on : StreamId}, Concerns (some on) c c' →
      (c.drainCommitted → on.isClientInitiated → on ≤ c.streams.highestPeerId) → c'.Draining := by
    intro on k below
    refine hd.concerns k grows fun committed id hid => ?_
    obtain rfl := Option.some.inj hid
    exact below committed
  have here : ∀ on, Concerns on c c := fun on => .refl on c
  cases h with
  | none => exact hd
  | heard w => exact quiet ((here _).observe (.heard w))
  | @idleData w =>
    exact quiet (((here _).observe (.heard w)).table rfl rfl rfl rfl rfl fun _ _ => rfl)
  | @opened now id endStream limit isOpen cause =>
    exact concerned ((here _).openRequest now limit endStream) (opens_below cause)
  | @unanswerable now id enc fields limit isOpen cause =>
    exact concerned (((here _).openRequest now limit true).observe (.encoded enc fields limit))
      (answers_below cause)
  | @received w id _ _ _ _ _ frame live =>
    exact concerned ((here _).receive w _ _ _) fun _ _ => tidy.numbered id (by rw [live]; rfl)
  | @transmitted now id stream budget sendWindow limit permit live =>
    exact concerned ((here _).transmit now limit _ sendWindow) fun _ _ =>
      tidy.numbered id (by rw [live]; rfl)
  | unencodableEvent e enc fields limit =>
    refine hd.harmless [.handled e, .encoded enc fields limit] (by simp [ConnCore.observe])
      ?_ ?_ rfl rfl
    · simp [ConnObs.goAway?]
    · simp [ConnObs.within]
  | @unencodable now id stream budget sendWindow enc fields limit permit live =>
    exact concerned ((((here _).transmit now limit _ sendWindow).reportReleased now _).observe
      (.encoded enc fields limit)) fun _ _ => tidy.numbered id (by rw [live]; rfl)

omit [Service σ μ] in
theorem Conn.Fresh.draining {s : Conn σ μ} (h : Fresh s) : s.toConnCore.Draining := by
  obtain ⟨service, localSettings, window, limits, policy, admission, now, -, -, -, rfl⟩ := h
  refine ⟨⟨?_, ?_⟩, ?_⟩ <;>
    simp [start, Settings.toFrame, ConnObs.heeds, ConnObs.goAway?]

/-- The GOAWAY of a connection that fails names the highest id of the peer. -/
theorem Conn.Closing.heeded (h : Conn.Closing c c') (hd : c.Heeded) : c'.Heeded := by
  have told : ∀ {c : ConnCore σ μ} (now : Instant), c.Heeded →
      (c.call .drop (Service.drop now c.service)).Heeded := by
    intro c now hc
    obtain ⟨added, hlog, free⟩ := ConnCore.free_call (x := .drop) (fun _ => rfl)
      (Service.drop now c.service) c
    refine hc.add hlog (fun o ho => (free o ho).1) (fun last _ o ho => (free o ho).2 last) ?_
    rintro last ⟨o, ho, hg⟩
    exact hc.above o ho last hg
  cases h with
  | quiet now => exact told now hd
  | failed now fits =>
    refine told now ?_
    exact hd.goAway rfl rfl (fun o ho last' hg => hd.above o ho last' hg) (Nat.le_refl _)

namespace Conn

/-- A drain stops the connection only when no stream is live or its deadline has come. -/
def PatientDrain (s : Conn σ μ) : Prop :=
  s.stop = none → ∀ now timerFired, (step (now, .advance timerFired) s).stop.isSome →
    (∀ id, s.streams.get? id = none) ∨ ∃ drain, s.draining = some drain ∧ drain.deadlineAt ≤ now

omit [Service σ μ] in
theorem advanceDrain_closes (s : Conn σ μ) (timerFired : Bool) :
    Ends (advanceDrain timerFired s)
      (fun next t => t.stop = s.stop ∧ (next = .close → (∀ id, s.streams.get? id = none) ∨
        ∃ drain, s.draining = some drain ∧ drain.deadlineAt ≤ s.now))
      fun _ _ => False := by
  unfold advanceDrain
  rw [ends_bind, ends_get]
  cases hd : s.draining with
  | none => exact ⟨rfl, fun h => nomatch h⟩
  | some drain =>
    have last : ∀ t : Conn σ μ, t.streams = s.streams → t.now = s.now → t.stop = s.stop →
        Ends ((do
          let s ← get
          if s.drainCommitted && (s.streams.liveCount = 0 || s.now ≥ drain.deadlineAt) then
            pure .close
          else pure .continue_ : ConnM σ μ Next) t)
          (fun next t => t.stop = s.stop ∧ (next = .close → (∀ id, s.streams.get? id = none) ∨
            ∃ drain', some drain = some drain' ∧ drain'.deadlineAt ≤ s.now)) fun _ _ => False := by
      intro t streams now stop
      rw [ends_bind, ends_get, ends_ite, streams, now]
      refine ⟨fun due => ⟨stop, fun _ => ?_⟩, fun _ => ⟨stop, fun h => nomatch h⟩⟩
      rw [Bool.and_eq_true, Bool.or_eq_true, decide_eq_true_eq, decide_eq_true_eq] at due
      obtain empty | late := due.2
      · left
        intro id
        unfold StreamTable.get? AList.lookup
        rw [List.eq_nil_of_length_eq_zero empty]
        rfl
      · exact .inr ⟨drain, rfl, late⟩
    dsimp only
    rw [ends_ite]
    refine ⟨fun _ => ?_, fun _ => last s rfl rfl rfl⟩
    rw [ends_bind]
    refine (queueFrame_ends s (f := .goAway s.streams.highestPeerId .noError [])
      (small_le (show 8 ≤ 16384 by decide))).ok ?_
    rintro - t ht
    rw [ends_bind, ends_onCore]
    refine last _ ?_ ht.kept.now ht.kept.stop
    show t.streams = s.streams
    rw [ht.core]
    rfl

/-- Whatever was said before, a drain is patient. -/
theorem patientDrain (s : Conn σ μ) : s.PatientDrain := by
  intro running now timerFired stopped
  have closes := advanceDrain_closes { s with now } timerFired
  rw [step_eq running] at stopped
  change Ends (react (.advance timerFired) { s with now }) _ _ at closes
  generalize react (.advance timerFired) { s with now } = res at closes stopped
  cases res with
  | error e t => exact closes.elim
  | ok next t =>
    obtain ⟨stop, patient⟩ := closes
    cases next with
    | close => exact patient rfl
    | continue_ =>
      change t.stop.isSome at stopped
      rw [stop, running] at stopped
      cases stopped

/-- In a graceful run whatever follows a GOAWAY heeds it: no later one names a higher id, and no
    stream above it is opened, handed on or answered but with a refusal. A drain ends the
    connection only when no stream is live or its deadline has come. -/
theorem drain_kept {s : Conn σ μ} (h : (machine σ μ).Reach (Permits graceful) s) :
    s.log.Pairwise (fun o o' => o.heeds o') ∧ s.PatientDrain := by
  obtain ⟨s₀, fresh, traced⟩ := reach_traced (fun _ _ h => h) h
  have heeded : s.Heeded := traced.invariant (I := fun c => c.Draining ∧ c.Tidy)
    ⟨fresh.draining, fresh.tidy⟩ (fun c c' hc m => ⟨m.heeding hc.1 hc.2, m.tidy hc.2⟩)
    (fun c hc => hc.1.toHeeded) (fun c c' hc f => (f.heeding hc.1 hc.2).toHeeded)
    fun c c' hc closing => closing.heeded hc
  exact ⟨heeded.order, s.patientDrain⟩

end Conn

end Drain

namespace Conn

/-- A drain that commits to a stream the client is still sent on. -/
def drainInputs : List (Instant × ConnInput) :=
  [(0, .frame getRoot), (1, .shutdown), (2, .advance true), (3, .frame getThird), (4, .event),
    (5, .pump 0), (6, .advance false)]

theorem drained_kept : ((machine Echo Empty).run (withService (.new 4)) drainInputs).log.Pairwise
      (fun o o' => o.heeds o') ∧
    ((machine Echo Empty).run (withService (.new 4)) drainInputs).PatientDrain :=
  drain_kept (Machine.Reach.run (.init (fresh_withService _)) _ (by decide +kernel))

/-- Settings under which a header list has hardly room for more than the pseudo-headers. -/
def narrow : Settings := { Settings.server with maxHeaderListSize := some 128 }

/-- `GET /` on stream 3, with an `accept-encoding`. -/
def getLong : WireFrame :=
  .ofParts .headers (Flags.endHeaders ||| Flags.endStream) (.new 3) [0x82, 0x86, 0x84, 0x90]
    (by decide)

/-- A drain has committed to stream 1, and a header list past the limit comes on stream 3. -/
def narrowInputs : List (Instant × ConnInput) :=
  [(0, .frame postRoot), (1, .shutdown), (2, .advance true), (3, .frame getLong)]

/-- The stream is opened and answered 431. -/
theorem oversized_not_heeded : ¬ ∀ s : Conn Echo Empty, (machine Echo Empty).Reachable s →
    s.log.Pairwise (fun o o' => o.heeds o') ∧ s.PatientDrain := by
  intro all
  have fresh : Fresh (start (.new 4) narrow connectionWindow .default .default none 0 :
      Conn Echo Empty) :=
    ⟨.new 4, narrow, connectionWindow, .default, .default, none, 0,
      ⟨by decide, by decide, by decide⟩, by decide, by decide, rfl⟩
  have reachable : (machine Echo Empty).Reachable ((machine Echo Empty).run
      (start (.new 4) narrow connectionWindow .default .default none 0) narrowInputs) :=
    Machine.Reach.run (.init fresh) _ (by simp [Machine.Meets, narrowInputs])
  exact absurd (all _ reachable).1 (by decide +kernel)

end Conn

end H2Proxy
