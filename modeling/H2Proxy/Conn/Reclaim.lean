import H2Proxy.Conn.Steps

/-
  What retired streams leave of the connection's window is handed back.

  A stream that is retired leaves the octets it holds to the table, and what retires it hands
  them back, except where an event comes for a stream that has ended: then the stream is owed a
  reset, and they come back with that. So nothing is left while no reset is owed (`startedAt_clear`).
  An RST_STREAM of the client retires a stream in one move and hands back in the next
  (`recvRstStream_clear`); of every other input each move leaves nothing (`Move.clear`).
-/

namespace H2Proxy

/-- Retired streams have left nothing, but while a reset is owed. -/
def ConnCore.Clear {σ μ : Type} (c : ConnCore σ μ) : Prop :=
  c.pendingReset = [] → c.streams.reclaimed = 0

namespace ConnCore

variable {σ μ : Type} {c c' : ConnCore σ μ}

theorem Clear.same (h : c.Clear) (reclaimed : c'.streams.reclaimed = c.streams.reclaimed)
    (pendingReset : c'.pendingReset = c.pendingReset) : c'.Clear :=
  fun none_ => reclaimed.trans (h (pendingReset.symm.trans none_))

theorem reclaim_reclaimed (c : ConnCore σ μ) (limit : Nat) :
    (c.reclaim limit).streams.reclaimed = 0 := by
  unfold reclaim
  dsimp only
  split <;> rfl

theorem Clear.reclaim (c : ConnCore σ μ) (limit : Nat) : (c.reclaim limit).Clear :=
  fun _ => c.reclaim_reclaimed limit

theorem Clear.declare (h : c.Clear) (id : StreamId) (contentLength : Option Nat) :
    (c.declare id contentLength).Clear := by
  cases contentLength with
  | none => exact h
  | some n => exact h.same rfl rfl

variable [Service σ μ]

theorem Clear.writeRst (c : ConnCore σ μ) (now : Instant) (id : StreamId) (code : ErrorCode)
    (limit : Nat) : (c.writeRst now id code limit).Clear :=
  (Clear.reclaim (c.abandon now id code) limit).same rfl rfl

/-- A stream that an event ends leaves nothing, or is owed a reset. -/
theorem Clear.settle (h : c.Clear) (now : Instant) (id : StreamId) (event : StreamEvent)
    (limit : Nat) : (c.settle now id event limit).Clear := by
  have failed : ∀ e : StreamError, (if e.code = .protocolError then c
      else { c with streams := c.streams.retire id, pendingReset := c.pendingReset ++ [e] }).Clear := by
    intro e
    split
    · exact h
    · exact fun none_ => absurd none_ (List.append_ne_nil_of_right_ne_nil _ (List.cons_ne_nil _ _))
  unfold ConnCore.settle StreamTable.apply
  cases c.streams.get? id with
  | none => exact failed _
  | some stream =>
    dsimp only
    cases stream.state.transition event with
    | error code => exact failed _
    | ok next =>
      dsimp only
      cases next.isClosed with
      | true => exact Clear.reclaim _ limit
      | false => exact h.same rfl rfl

theorem Clear.openRequest (h : c.Clear) (now : Instant) {id : StreamId} (endStream : Bool)
    (limit : Nat) (isOpen : (c.streams.openPeer id).2 = .ok ()) :
    (c.openRequest now id endStream limit).Clear := by
  obtain ⟨-, -, htable⟩ := StreamTable.openPeer_ok isOpen
  refine Clear.settle ?_ now id _ limit
  refine h.same ?_ rfl
  show (c.streams.openPeer id).1.reclaimed = _
  rw [htable]
  rfl

theorem Clear.respond (h : c.Clear) (now : Instant) (id : StreamId) (response : Response)
    (endStream : Bool) (enc : HpackEncoder) (limit : Nat) :
    (c.respond now id response endStream enc limit).Clear := by
  refine Clear.settle ?_ now id _ limit
  exact h.same rfl rfl

theorem Clear.sendTrailers (h : c.Clear) (now : Instant) (id : StreamId) (fields : List Header)
    (enc : HpackEncoder) (limit : Nat) : (c.sendTrailers now id fields enc limit).Clear := by
  unfold ConnCore.sendTrailers
  split
  · exact h.same rfl rfl
  · split
    · exact h.same rfl rfl
    · refine Clear.settle ?_ now id _ limit
      exact h.same rfl rfl

theorem Clear.transmit (h : c.Clear) (now : Instant) (id : StreamId) (turn : Stream.Turn)
    (sendWindow : Window) (limit : Nat) : (c.transmit now id turn sendWindow limit).Clear := by
  unfold ConnCore.transmit
  dsimp only
  split
  · refine Clear.settle ?_ now id _ limit
    exact h.same rfl rfl
  · exact h.same rfl rfl

theorem Clear.takeTurn (h : c.Clear) (now : Instant) (id : StreamId) (turn : Stream.Turn)
    (sendWindow : Window) (enc : HpackEncoder) (limit : Nat) :
    (c.takeTurn now id turn sendWindow enc limit).Clear := by
  have reported : ∀ n, ((c.transmit now id turn sendWindow limit).reportReleased now id n).Clear := by
    intro n
    unfold ConnCore.reportReleased
    split
    · exact (h.transmit now id turn sendWindow limit).same rfl rfl
    · exact h.transmit now id turn sendWindow limit
  unfold ConnCore.takeTurn
  dsimp only
  cases turn.trailers with
  | none => exact reported _
  | some fields => exact (reported _).sendTrailers now id fields enc limit

theorem Clear.deliver (h : c.Clear) (now : Instant) (id : StreamId) (data : Bytes)
    (endStream : Bool) (limit : Nat) : (c.deliver now id data endStream limit).Clear := by
  have settled := h.settle now id (.recvData endStream) limit
  unfold ConnCore.deliver
  dsimp only
  split
  · exact settled.same rfl rfl
  · exact settled

end ConnCore

/-- The client resets no stream. -/
def unreset (σ μ : Type) : Permit σ μ where
  frame _ w := ∀ id code, w.decode ≠ .ok (.frame (.rstStream id code))

section Moves

variable {σ μ : Type} [Service σ μ] {c c' : ConnCore σ μ}

theorem StreamMove.clear {id : StreamId} (m : StreamMove (unreset σ μ) c id c') (h : c.Clear) :
    c'.Clear := by
  cases m with
  | handled | credited | pushed => exact h.same rfl rfl
  | dropped | overgranted | stray | flushed | crowded | turnedAway | malformed | mistrailed
  | mismatched | overspent | late => exact .writeRst _ _ _ _ _
  | withdrawn now heard frame live =>
    obtain ⟨c₀, -, permit⟩ := heard
    exact absurd frame (permit _ _)
  | dispatched now contentLength isOpen =>
    exact ((h.openRequest now _ _ isOpen).declare _ contentLength).same rfl rfl
  | answered now status enc isOpen =>
    exact (h.openRequest now true _ isOpen).respond now _ _ true enc _
  | trailered now =>
    refine ConnCore.Clear.settle ?_ now _ _ _
    exact h.same rfl rfl
  | delivered now =>
    refine ConnCore.Clear.deliver ?_ now _ _ _ _
    exact h.same rfl rfl
  | responded now enc =>
    refine ConnCore.Clear.respond ?_ now _ _ _ enc _
    exact h.same rfl rfl
  | refused now status enc =>
    refine ConnCore.Clear.respond ?_ now _ _ true enc _
    exact h.same rfl rfl
  | oversized now enc => exact h.respond now _ _ true enc _
  | trailersDue now enc =>
    refine ConnCore.Clear.sendTrailers ?_ now _ _ enc _
    exact h.same rfl rfl
  | turned now sendWindow enc => exact h.takeTurn now _ _ sendWindow enc _

theorem Move.clear (m : Move (unreset σ μ) c c') (h : c.Clear) : c'.Clear := by
  cases m with
  | alike alike => exact h.same alike.reclaimed rfl
  | reclaimed => exact .reclaim _ _
  | on move => exact move.clear h
  | note | events | intercepted | draining | committed => exact h.same rfl rfl

end Moves

namespace Conn

variable {σ μ : Type} [Service σ μ] {s : Conn σ μ}

/-- An RST_STREAM leaves nothing of the stream it ends. -/
theorem recvRstStream_clear (h : s.Clear) (id : StreamId) (code : ErrorCode) :
    Ends (recvRstStream id code s) (fun _ t => t.Clear) fun _ _ => True := by
  unfold recvRstStream
  simp only [ends_bind, ends_get]
  cases s.streams.lookup id with
  | idle => exact trivial
  | closed => exact h
  | live stream =>
    dsimp only
    rw [ends_bind, ends_get, ends_bind]
    refine (guarded_ends s (Guard.onReset_drawn ..)).mono (fun _ t _ => ?_) fun _ _ _ => trivial
    rw [ends_bind]
    refine (abandon_ends t id code).ok fun _ u _ => (drainReclaimed_ends u).ok fun _ v hv => ?_
    show v.toConnCore.Clear
    rw [hv.core]
    exact .reclaim _ _

theorem recvWire_clear (h : s.Clear) {w : WireFrame} {id : StreamId} {code : ErrorCode}
    (reset : w.decode = .ok (.frame (.rstStream id code))) :
    Ends (recvWire w s) (fun _ t => t.Clear) fun _ _ => True := by
  unfold recvWire
  rw [ends_bind, ends_onCore, ends_bind, ends_get, ends_ite]
  refine ⟨fun _ => trivial, fun _ => ?_⟩
  rw [reset]
  unfold handleFrame
  rw [ends_bind, ends_get]
  cases Conn.headerBlockError _ _ _ with
  | some e => exact trivial
  | none =>
    dsimp only
    rw [ends_bind]
    refine recvRstStream_clear ?_ id code
    exact h.same rfl rfl

/-- A step leaves nothing of the streams it retires, but while their resets are owed. -/
theorem step_clear (sound : Sound s) (h : s.Clear) (going : s.stop = none) (i : Instant × ConnInput)
    (running : (step i s).stop = none) : (step i s).Clear := by
  have moved : Permits (unreset σ μ) s i → (step i s).Clear := fun permits =>
    (step_traced (.running .refl sound) permits).running_invariant running h fun _ _ h m => m.clear h
  obtain ⟨now, input⟩ := i
  cases input with
  | frame w =>
    by_cases reset : ∃ id code, w.decode = .ok (.frame (.rstStream id code))
    · obtain ⟨id, code, reset⟩ := reset
      have cleared : Ends (react (.frame w) { s with now }) (fun _ t => t.Clear) fun _ _ => True :=
        recvWire_clear (s := { s with now }) (h.same rfl rfl) reset
      rw [step_goes_on going running] at cleared
      exact cleared
    · exact moved ⟨fun _ id code same => reset ⟨id, code, same⟩, fun _ _ => trivial⟩
  | event => exact moved fun _ _ => trivial
  | pump budget => exact moved fun _ _ _ _ => trivial
  | _ => exact moved trivial

/-- In every run a connection that runs on has left nothing unreturned of the streams that were
    retired, but while a reset is owed. -/
theorem startedAt_clear {ok : Conn σ μ → Instant × ConnInput → Prop} {s₀ : Conn σ μ}
    (fresh : Fresh s₀) (h : ((machine σ μ).startedAt s₀).Reach ok s) (running : s.stop = none) :
    s.Clear := by
  have both : Traced {} s₀ s ∧ (s.stop = none → s.Clear) := by
    refine h.invariant (I := fun s => Traced {} s₀ s ∧ (s.stop = none → s.Clear)) ?_ ?_
    · rintro _ rfl
      obtain ⟨service, localSettings, window, limits, policy, admission, now, -, -, -, same⟩ := id fresh
      exact ⟨.running .refl fresh.sound, fun _ _ => same ▸ rfl⟩
    · rintro s i ⟨traced, clear⟩ -
      refine ⟨step_traced traced (permits_all s i), fun running => ?_⟩
      cases going : s.stop with
      | none => exact step_clear (traced.sound going) (clear going) going i running
      | some stop =>
        have still : s.stop = none := step_stopped (s := s) (by rw [going]; rfl) i ▸ running
        rw [going] at still
        cases still
  exact both.2 running

end Conn

end H2Proxy
