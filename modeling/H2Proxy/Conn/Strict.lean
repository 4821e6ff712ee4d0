import H2Proxy.Conn.Idle
import H2Proxy.Conn.Rejection

/-
  Frames on idle streams, at a client connection.

  A step is strict if a frame that needs a stream ends the connection on an idle one, and no idle
  stream is reset. It is so exactly when the frame is not overlooked (`strict_iff`): a
  WINDOW_UPDATE of zero is answered before its stream is looked up, an even id passes for a closed
  one below the highest id of the client, and a drain refuses an id whatever its parity.
-/

namespace H2Proxy

namespace ConnCore

variable {σ μ : Type} {c : ConnCore σ μ}

theorem idle_stream {id : StreamId} (idle : c.idle id) : id.isConnection = false := by
  unfold ConnCore.idle at idle
  rw [Bool.and_eq_true, Bool.not_eq_true'] at idle
  exact idle.1

/-- A frame that is missed is one that needs a stream, on an idle one. -/
theorem misses_needs {w : WireFrame} (missed : c.misses w) :
    w.needsStream ∧ c.idle w.header.streamId := by
  have needs : ∀ {f : Frame}, w.decode = .ok (.frame f) →
      f.kind = .data ∨ f.kind = .rstStream ∨ f.kind = .windowUpdate → c.idle f.streamId →
      w.needsStream ∧ c.idle w.header.streamId := by
    intro f decoded kind idle
    have stream := (WireFrame.decode_header decoded).2
    exact ⟨WireFrame.needsStream_of decoded kind (idle_stream idle), stream ▸ idle⟩
  unfold misses at missed
  split at missed
  · rename_i decoded
    simp only [Bool.and_eq_true] at missed
    exact needs decoded (.inl rfl) missed.1.1
  · rename_i decoded
    simp only [Bool.and_eq_true] at missed
    exact needs decoded (.inr (.inl rfl)) missed.1
  · rename_i decoded
    simp only [Bool.and_eq_true] at missed
    exact needs decoded (.inr (.inr rfl)) missed.1
  · cases missed

end ConnCore

namespace Conn

variable {σ μ : Type}

/-- Frames on an idle stream that are dealt with as if it were none. -/
inductive Overlooks (s : Conn σ μ) (w : WireFrame) : Prop
  | missed (handled : s.handles w) (missed : s.misses w)
  /-- HEADERS on an even id, which a committed drain refuses. -/
  | refused {id : StreamId} {endStream : Bool} {r : Except HpackError (List Header)}
    (completes : s.completes w = some (id, endStream, r)) (forgets : s.Forgets id r)
    (even : id.isClientInitiated = false)

/-- No frame is overlooked. -/
def Heeds (s : Conn σ μ) (i : Instant × ConnInput) : Prop :=
  s.stop = none → ∀ w, i.2 = .frame w → ¬ s.Overlooks w

section Step

variable [Service σ μ]

/-- What may not come on an idle stream is a connection error, and no idle stream is reset. -/
structure Strict (s : Conn σ μ) (i : Instant × ConnInput) : Prop where
  fatal : s.stop = none → ∀ w, i.2 = .frame w → w.needsStream → s.idle w.header.streamId →
    ∃ e, (step i s).stop = some (.failed e)
  spared : ∀ added, (step i s).log = s.log ++ added → ∀ o ∈ added, ∀ id, o.resets id →
    (step i s).idle id = false

end Step

variable {s : Conn σ μ} {id : StreamId}

/-! ## A frame on an idle stream -/

theorem headerBlockError_handles {w : WireFrame} {f : Frame} {e : ConnectionError}
    (frame : w.decode = .ok (.frame f)) (cut : s.headerBlockError f.kind f.streamId = some e) :
    s.handles w = false := by
  unfold handles
  rw [frame]
  dsimp only
  rw [cut, Option.isNone_some, Bool.and_false, Bool.false_and]

variable [Service σ μ]

/-- DATA that is in order. -/
theorem recvData_idle {t : Conn σ μ} {w : WireFrame} {data : Bytes} {endStream : Bool}
    (core : t.toConnCore = s.toConnCore.observe (.heard w)) (guard : t.guard = s.guard)
    (frame : w.decode = .ok (.frame (.data id data endStream)))
    (passes : s.handles w = s.passesGuard (.data id data endStream))
    (idle : s.idle id) (gone : s.streams.get? id = none) :
    Ends (recvData id data endStream t) (fun _ _ => s.handles w ∧ s.misses w)
      fun _ _ => ¬ (s.handles w ∧ s.misses w) := by
  have misses : s.misses w = (s.idle id && s.streams.seen id &&
      (s.connRecvWindow.record data.length).isOk) := by
    unfold ConnCore.misses
    rw [frame]
  unfold recvData
  dsimp only
  by_cases passed : (t.guard.onData data.length endStream).2 = .ok
  · have handled : s.handles w := passes.trans (decide_eq_true (guard ▸ passed))
    rw [ends_bind, guarded_eq passed, ends_ok, ends_bind, ends_get]
    have window : t.connRecvWindow = s.connRecvWindow := by rw [core]; rfl
    have streams : t.streams = s.streams := by rw [core]; rfl
    dsimp only
    rw [window]
    cases record : s.connRecvWindow.record data.length with
    | error code =>
      rintro ⟨-, missed⟩
      rw [misses, record] at missed
      simp [Except.isOk, Except.toBool] at missed
    | ok window' =>
      dsimp only
      rw [ends_bind, ends_onCore, ends_bind, ends_get]
      dsimp only [withCore]
      rw [streams]
      cases found : s.streams.lookup id with
      | live stream =>
        rw [StreamTable.lookup_live.mp found] at gone
        cases gone
      | idle =>
        rintro ⟨-, missed⟩
        rw [misses, (StreamTable.lookup_idle found).2] at missed
        simp at missed
      | closed =>
        have missed : s.misses w := by
          rw [misses, (StreamTable.lookup_closed found).2, record, idle]
          rfl
        dsimp only
        rw [ends_bind]
        refine (releaseConnWindow_ends _ _).ok fun _ u _ => ?_
        exact (writeRstStream_ends u id .streamClosed).ok fun _ _ _ => ⟨handled, missed⟩
  · rw [ends_bind]
    unfold guarded
    rw [ends_bind, ends_get]
    have handled : s.handles w = false := by
      rw [passes]
      exact decide_eq_false (guard ▸ passed)
    dsimp only
    generalize t.guard.onData data.length endStream = res at passed
    rcases res with ⟨guard', verdict⟩
    cases verdict with
    | ok => exact absurd rfl passed
    | trip signal =>
      rintro ⟨handles, -⟩
      rw [handled] at handles
      cases handles

theorem recvRstStream_idle {t : Conn σ μ} {w : WireFrame} {code : ErrorCode}
    (streams : t.streams = s.streams) (frame : w.decode = .ok (.frame (.rstStream id code)))
    (handled : s.handles w) (idle : s.idle id) (gone : s.streams.get? id = none) :
    Ends (recvRstStream id code t) (fun _ _ => s.handles w ∧ s.misses w)
      fun _ _ => ¬ (s.handles w ∧ s.misses w) := by
  have misses : s.misses w = (s.idle id && s.streams.seen id) := by
    unfold ConnCore.misses
    rw [frame]
  unfold recvRstStream
  rw [ends_bind, ends_get, streams]
  cases found : s.streams.lookup id with
  | live stream =>
    rw [StreamTable.lookup_live.mp found] at gone
    cases gone
  | idle =>
    rintro ⟨-, missed⟩
    rw [misses, (StreamTable.lookup_idle found).2, Bool.and_false] at missed
    cases missed
  | closed =>
    refine ⟨handled, ?_⟩
    rw [misses, (StreamTable.lookup_closed found).2, idle]
    rfl

theorem recvWindowUpdate_idle {t : Conn σ μ} {w : WireFrame} {increment : Nat}
    (streams : t.streams = s.streams)
    (frame : w.decode = .ok (.frame (.windowUpdate id increment)))
    (handled : s.handles w) (stream : id.isConnection = false) (idle : s.idle id)
    (gone : s.streams.get? id = none) :
    Ends (recvWindowUpdate id increment t) (fun _ _ => s.handles w ∧ s.misses w)
      fun _ _ => ¬ (s.handles w ∧ s.misses w) := by
  have misses : s.misses w = (s.idle id && (increment = 0 || s.streams.seen id)) := by
    unfold ConnCore.misses
    rw [frame]
  unfold recvWindowUpdate
  by_cases zero : increment = 0
  · have missed : s.misses w := by
      rw [misses, zero, idle]
      rfl
    rw [if_pos zero, stream, if_neg Bool.false_ne_true]
    exact (writeRstStream_ends t id .protocolError).ok fun _ _ _ => ⟨handled, missed⟩
  · rw [if_neg zero, stream, if_neg Bool.false_ne_true, ends_bind, ends_get, streams]
    cases found : s.streams.lookup id with
    | live stream =>
      rw [StreamTable.lookup_live.mp found] at gone
      cases gone
    | idle =>
      rintro ⟨-, missed⟩
      rw [misses, (StreamTable.lookup_idle found).2] at missed
      simp [zero] at missed
    | closed =>
      refine ⟨handled, ?_⟩
      rw [misses, (StreamTable.lookup_closed found).2, idle]
      simp

theorem handleFrame_idle {t : Conn σ μ} {w : WireFrame} {f : Frame}
    (core : t.toConnCore = s.toConnCore.observe (.heard w)) (guard : t.guard = s.guard)
    (block : t.openHeaderBlock = s.openHeaderBlock)
    (fits : w.header.length ≤ s.localSettings.maxFrameSize) (decoded : w.decode = .ok (.frame f))
    (needy : WireFrame.Needy id (.frame f)) (stream : id.isConnection = false) (idle : s.idle id)
    (gone : s.streams.get? id = none) :
    Ends (handleFrame f t) (fun next _ => next = .continue_ ∧ s.handles w ∧ s.misses w)
      fun _ _ => ¬ (s.handles w ∧ s.misses w) := by
  have streams : t.streams = s.streams := by rw [core]; rfl
  have order : t.headerBlockError f.kind f.streamId = s.headerBlockError f.kind f.streamId := by
    unfold headerBlockError
    rw [block]
  unfold handleFrame
  rw [ends_bind, ends_get, order]
  cases cut : s.headerBlockError f.kind f.streamId with
  | some e =>
    rintro ⟨handled, -⟩
    rw [headerBlockError_handles decoded cut] at handled
    cases handled
  | none =>
    have passes := handles_eq decoded fits cut
    cases needy with
    | data data endStream =>
      dsimp only
      rw [ends_bind]
      exact (recvData_idle core guard decoded passes idle gone).mono (fun _ _ h => ⟨rfl, h⟩)
        fun _ _ h => h
    | rstStream code =>
      dsimp only
      rw [ends_bind]
      exact (recvRstStream_idle streams decoded passes idle gone).mono (fun _ _ h => ⟨rfl, h⟩)
        fun _ _ h => h
    | windowUpdate increment =>
      dsimp only
      rw [ends_bind]
      exact (recvWindowUpdate_idle streams decoded passes stream idle gone).mono
        (fun _ _ h => ⟨rfl, h⟩) fun _ _ h => h

omit [Service σ μ] in
theorem not_handles {w : WireFrame} (cut : s.handles w = false) :
    ¬ (s.handles w ∧ s.misses w) := by
  rintro ⟨handled, -⟩
  rw [cut] at handled
  cases handled

/-- A frame that needs a stream ends the connection on an idle one, unless it is overlooked. -/
theorem recvWire_idle {w : WireFrame} (needs : w.needsStream) (idle : s.idle w.header.streamId)
    (gone : s.streams.get? w.header.streamId = none) :
    Ends (recvWire w s) (fun next _ => next = .continue_ ∧ s.handles w ∧ s.misses w)
      fun _ _ => ¬ (s.handles w ∧ s.misses w) := by
  unfold recvWire
  rw [ends_bind, ends_onCore, ends_bind, ends_get, ends_ite]
  refine ⟨fun long => not_handles ?_, fun fits => ?_⟩
  · have long : ¬ w.header.length ≤ s.localSettings.maxFrameSize := Nat.not_le.mpr long
    unfold handles
    split
    · rw [decide_eq_false long, Bool.false_and, Bool.false_and]
    · rfl
  cases decoded : w.decode with
  | error e =>
    refine not_handles ?_
    unfold handles
    rw [decoded]
  | ok d =>
    have stream : w.header.streamId.isConnection = false := by
      unfold WireFrame.needsStream at needs
      simp only [Bool.and_eq_true, Bool.not_eq_true'] at needs
      exact needs.1
    have needy := WireFrame.needy needs decoded
    cases d with
    | ignored kind id => cases needy
    | frame f =>
      refine handleFrame_idle ?_ ?_ ?_ (Nat.not_lt.mp fits) decoded needy stream idle gone
      · rfl
      · rfl
      · rfl

/-! ## Steps -/

omit [Service σ μ] in
/-- A frame that completes a header block carries its last fragment. -/
theorem completes_fragment {w : WireFrame} {x : StreamId × Bool × Except HpackError (List Header)}
    (completes : s.completes w = some x) : ∃ f fragment endHeaders, w.decode = .ok (.frame f) ∧
      s.headerBlockError f.kind f.streamId = none ∧ fragment? f = some (x.1, fragment, endHeaders) := by
  unfold Conn.completes at completes
  cases decoded : w.decode with
  | error e => rw [decoded] at completes; cases completes
  | ok d =>
    cases d with
    | ignored kind id => rw [decoded] at completes; cases completes
    | frame f =>
      rw [decoded] at completes
      dsimp only at completes
      split at completes
      case isFalse => cases completes
      rename_i fits
      rw [Bool.and_eq_true, Option.isNone_iff_eq_none] at fits
      obtain ⟨⟨id, fragment, endHeaders⟩, hfragment, hc⟩ := Option.bind_eq_some_iff.mp completes
      obtain ⟨r, -, rfl⟩ := Option.map_eq_some_iff.mp hc
      exact ⟨f, fragment, endHeaders, rfl, fits.2, hfragment⟩

omit [Service σ μ] in
/-- A header block that a frame completes was asked for. -/
theorem Anchored.asked (anchored : s.Anchored) {w : WireFrame}
    {x : StreamId × Bool × Except HpackError (List Header)} (completes : s.completes w = some x) :
    ∃ o ∈ (s.toConnCore.observe (.heard w)).log, o.asks x.1 := by
  obtain ⟨f, fragment, endHeaders, decoded, inOrder, hfragment⟩ := completes_fragment completes
  cases f with
  | headers id block endStream endHeaders =>
    obtain ⟨rfl, -⟩ := Prod.mk.inj (Option.some.inj hfragment)
    refine ⟨.heard w, List.mem_append_right _ List.mem_cons_self, ?_⟩
    have asks : w.asks = some x.1 := by
      unfold WireFrame.asks
      rw [decoded]
    show w.asks.any (x.1 ≤ ·) = true
    rw [asks]
    exact decide_eq_true (Nat.le_refl _)
  | continuation id block endHeaders =>
    obtain ⟨rfl, -⟩ := Prod.mk.inj (Option.some.inj hfragment)
    obtain ⟨o, ho, asks⟩ := anchored x.1 (openHeaderBlock_of_continuation inOrder)
    exact ⟨o, List.mem_append_left _ ho, asks⟩
  | _ => cases hfragment

theorem Heeds.permits {i : Instant × ConnInput} (heeds : s.Heeds i) (running : s.stop = none)
    (anchored : s.Anchored) : Permits minding s i := by
  obtain ⟨now, input⟩ := i
  cases input with
  | frame w =>
    have heeded := heeds running w rfl
    refine ⟨fun handled => ?_, fun x completes => ⟨anchored.asked completes, ?_⟩⟩
    · refine Bool.eq_false_iff.mpr fun missed => ?_
      exact heeded (.missed handled missed)
    · intro drained idle fine
      refine by_contra fun even => ?_
      exact heeded (.refused (r := x.2.2) completes ⟨drained, idle, fine⟩ (Bool.eq_false_iff.mpr even))
  | event => exact fun _ _ => trivial
  | pump budget => exact fun _ _ _ _ => trivial
  | _ => trivial

/-- In a run in which no frame is overlooked. -/
structure Minded (s : Conn σ μ) : Prop where
  traced : ∃ s₀, Fresh s₀ ∧ Traced minding s₀ s
  anchored : s.stop = none → s.Anchored

theorem Fresh.minded (h : Fresh s) : s.Minded := by
  refine ⟨⟨s, h, .running .refl h.sound⟩, fun _ => ?_⟩
  obtain ⟨service, localSettings, window, limits, policy, admission, now, -, -, -, rfl⟩ := h
  intro id open_
  cases open_

theorem Minded.step (h : s.Minded) {i : Instant × ConnInput} (heeds : s.Heeds i) :
    (step i s).Minded := by
  obtain ⟨s₀, fresh, traced⟩ := h.traced
  cases running : s.stop with
  | some stop =>
    have stays : Conn.step i s = s := by
      unfold Conn.step
      rw [running]
      rfl
    rw [stays]
    exact h
  | none =>
    have anchored := h.anchored running
    exact ⟨⟨s₀, fresh, step_traced traced (heeds.permits running anchored)⟩,
      fun goesOn => step_anchored anchored running i goesOn⟩

omit [Service σ μ] in
theorem Fresh.minds (h : Fresh s) : s.toConnCore.Minds := by
  obtain ⟨service, localSettings, window, limits, policy, admission, now, -, -, -, rfl⟩ := h
  intro id knows
  obtain live | owed | ⟨o, ho, resets⟩ := ConnCore.knows_iff.mp knows
  · cases live
  · exact absurd owed (Nat.lt_irrefl 0)
  · obtain rfl | ho := List.mem_cons.mp ho
    · cases resets
    · obtain rfl := List.mem_singleton.mp ho
      cases resets

theorem Minded.minds (h : s.Minded) (running : s.stop = none) : s.toConnCore.Minds := by
  obtain ⟨s₀, fresh, traced⟩ := h.traced
  exact traced.running_invariant running fresh.minds fun _ _ hc move => move.minds hc

theorem Minded.spares (h : s.Minded) : s.toConnCore.Spares := by
  obtain ⟨s₀, fresh, traced⟩ := h.traced
  exact traced.invariant fresh.minds (fun _ _ hc move => move.minds hc) (fun _ hc => hc.spares)
    (fun _ _ hc fault => fault.spares hc) fun _ _ hc closing => closing.spares hc

/-- What a frame on an idle stream does. -/
theorem Minded.idle (h : s.Minded) (running : s.stop = none) (now : Instant) {w : WireFrame}
    (needs : w.needsStream) (idle : s.idle w.header.streamId) :
    (∃ e, (Conn.step (now, .frame w) s).stop = some (.failed e)) ↔
      ¬ (s.handles w ∧ s.misses w) := by
  have gone : s.streams.get? w.header.streamId = none := by
    refine Option.eq_none_iff_forall_ne_some.mpr fun st live => ?_
    have opened := h.minds running _ (ConnCore.knows_iff.mpr (.inl (by rw [live]; rfl)))
    unfold ConnCore.idle at idle
    rw [opened] at idle
    simp at idle
  have ends := recvWire_idle (s := { s with now }) needs idle gone
  obtain ⟨s₀, fresh, traced⟩ := h.traced
  have sound := traced.sound running
  have made := recvWire_makes (P := {}) (r := { s with now })
    ⟨sound.frameSize, sound.decoder, sound.capacity, sound.maxFrameSize⟩
    (w := w) (fun _ => trivial) fun _ _ _ _ => trivial
  rw [step_eq running]
  change Ends (react (.frame w) { s with now }) _ _ at ends made
  generalize react (.frame w) { s with now } = res at ends made ⊢
  cases res with
  | ok next t =>
    obtain ⟨rfl, overlooked⟩ := ends
    have made : Makes {} { s with now } t := made
    refine ⟨?_, fun heeded => absurd overlooked heeded⟩
    rintro ⟨e, failed⟩
    have stop : t.stop = none := made.paced.stop.trans running
    rw [stop] at failed
    cases failed
  | error e t => exact ⟨fun _ => ends, fun _ => ⟨e, rfl⟩⟩

/-! ## Refused requests -/

omit [Service σ μ] in
theorem completes_stream {w : WireFrame} {x : StreamId × Bool × Except HpackError (List Header)}
    (completes : s.completes w = some x) : x.1.isConnection = false := by
  obtain ⟨f, fragment, endHeaders, decoded, -, hfragment⟩ := completes_fragment completes
  have inRange := (Frame.fromParts_accepts decoded).1
  cases f with
  | headers id block endStream endHeaders =>
    obtain ⟨rfl, -⟩ := Prod.mk.inj (Option.some.inj hfragment)
    simpa [Frame.InRange] using inRange
  | continuation id block endHeaders =>
    obtain ⟨rfl, -⟩ := Prod.mk.inj (Option.some.inj hfragment)
    simpa [Frame.InRange] using inRange
  | _ => cases hfragment

/-- The stream was reset since. -/
def ResetSince (log : List (ConnObs μ)) (id : StreamId) (c : ConnCore σ μ) : Prop :=
  ∃ added, c.log = log ++ added ∧ ∃ o ∈ added, o.resets id

/-- A request that a committed drain refuses is reset. -/
theorem step_refused (running : s.stop = none) (now : Instant) {w : WireFrame}
    {endStream : Bool} {headers : List Header}
    (completes : s.completes w = some (id, endStream, .ok headers)) (drained : s.drainCommitted)
    (idle : s.streams.lookup id = .idle) :
    ResetSince s.log id (Conn.step (now, .frame w) s).toConnCore := by
  refine step_frame running now (Q := ResetSince s.log id) ?_
  refine recvWire_request (s := { s with now }) completes fun t core => ?_
  have drained : t.drainCommitted := by rw [core]; exact drained
  have idle : t.streams.lookup id = .idle := by rw [core]; exact idle
  unfold recvRequest
  rw [ends_bind, ends_get, idle]
  dsimp only
  rw [if_pos drained]
  refine (writeRstStream_ends t id .refusedStream).ok ?_
  rintro - u hu
  rw [hu.core]
  obtain ⟨added, log, -⟩ := (((ConnCore.Passes.refl id t.toConnCore).abandon t.now id
    .refusedStream).reclaim t.limit).untold
  refine ⟨.heard w :: added ++ [.queued (.rstStream id .refusedStream) [] t.limit], ?_,
    .queued (.rstStream id .refusedStream) [] t.limit, List.mem_append_right _ List.mem_cons_self,
    decide_eq_true rfl⟩
  refine (congrArg (· ++ _) log).trans ?_
  rw [core]
  show s.log ++ [_] ++ added ++ [_] = _
  simp only [List.append_assoc, List.cons_append, List.nil_append]

/-! ## Strictness -/

/-- A step is strict exactly when its frame is not overlooked. -/
theorem strict_iff (h : s.Minded) (i : Instant × ConnInput) : s.Strict i ↔ s.Heeds i := by
  constructor
  · intro strict running w frame overlooked
    obtain ⟨now, input⟩ := i
    obtain rfl : input = .frame w := frame
    cases overlooked with
    | missed handled missed =>
      have on := ConnCore.misses_needs missed
      have fatal := strict.fatal running w rfl on.1 on.2
      exact (h.idle running now on.1 on.2).mp fatal ⟨handled, missed⟩
    | @refused id endStream r completes forgets even =>
      cases r with
      | error e => cases forgets.2.2
      | ok headers =>
        obtain ⟨added, log, o, ho, resets⟩ :=
          step_refused running now completes forgets.1 forgets.2.1
        have opened := ConnCore.opened_of_not_idle (strict.spared added log o ho id resets)
          (completes_stream completes)
        rw [(ConnCore.opened_iff.mp opened).1] at even
        cases even
  · intro heeds
    constructor
    · intro running w frame needs idle
      obtain ⟨now, input⟩ := i
      obtain rfl : input = .frame w := frame
      refine (h.idle running now needs idle).mpr fun overlooked => ?_
      exact heeds running w rfl (.missed overlooked.1 overlooked.2)
    · intro added log o ho id resets
      have opened := (h.step heeds).spares id ⟨o, log ▸ List.mem_append_right _ ho, resets⟩
      unfold ConnCore.idle
      rw [opened, Bool.not_true, Bool.and_false]

/-- A run is strict exactly when no frame of it is overlooked. -/
theorem strict_run_iff (h : Fresh s) (is : List (Instant × ConnInput)) :
    (machine σ μ).Meets Strict s is ↔ (machine σ μ).Meets Heeds s is := by
  refine Machine.Reach.meets_iff (M := machine σ μ) (fun t ht i => ?_) (.init h) is
  have minded := ht.invariant (I := Minded) (fun _ fresh => Fresh.minded fresh)
    fun _ _ minded heeds => Minded.step minded heeds
  exact strict_iff minded i

end Conn

end H2Proxy
