import H2Proxy.Conn.Steps
import H2Proxy.Conn.Legal

/-
  What waits to be written while the peer reads nothing.

  `pump_outbound` stops at `MAX_WRITE_QUEUE`; the replies do not. A WINDOW_UPDATE with a zero
  increment on a stream is answered with RST_STREAM, is charged to no budget of the guard
  and ends nothing, so a peer that reads nothing can have as many of them queued as it
  likes, whatever the limits are.
-/

namespace H2Proxy

namespace Conn

variable {σ μ : Type} [Service σ μ]

/-- There is a bound on what waits to be written past `MAX_WRITE_QUEUE` in any run from `s`
    in which nothing is written and the connection is not ended. -/
def Backlogged (s : Conn σ μ) : Prop :=
  ∃ bound : Nat, ∀ is : List (Instant × ConnInput), (∀ i ∈ is, ∀ n, i.2 ≠ .wrote n) →
    ((machine σ μ).run s is).stop = none → ((machine σ μ).run s is).out ≤ maxWriteQueue + bound

/-- A running connection with no stream 1, between header blocks. -/
structure Bare (s : Conn σ μ) : Prop where
  running : s.stop = none
  noBlock : s.openHeaderBlock = none
  frameSize : 4 ≤ s.localSettings.maxFrameSize
  noStream : s.streams.get? (.new 1) = none
  noCredit : s.streams.reclaimed = 0

omit [Service σ μ] in
/-- Queueing a RST_STREAM adds thirteen octets to what waits. -/
theorem queueReset_ends (s : Conn σ μ) (id : StreamId) (code : ErrorCode) :
    Ends (queueFrame (.rstStream id code) s)
      (fun _ t => t = { s.withCore (s.toConnCore.observe
        (.queued (.rstStream id code) [] s.peerSettings.maxFrameSize)) with out := s.out + 13 })
      fun _ _ => False := by
  obtain ⟨octets, hw, hlen⟩ := Frame.write_of_le (f := .rstStream id code)
    (show 4 ≤ maxAllowedFrameSize by decide)
  unfold queueFrame queueFields
  rw [hw]
  simp only [ends_bind, ends_get, ends_onCore, ends_modify]
  have octets_length : octets.length = 13 := hlen
  rw [octets_length]
  rfl

/-- The frame is answered with a reset, and nothing else comes of it. -/
theorem recvZeroUpdate_ends {s : Conn σ μ} (h : s.Bare) :
    Ends (recvWindowUpdate (.new 1) 0 s)
      (fun _ t => t.Bare ∧ t.out = s.out + 13) fun _ _ => False := by
  have hretire : s.streams.retire (.new 1) = s.streams := StreamTable.retire_of_none h.noStream
  have notConnection : ¬ (StreamId.new 1).isConnection = true := by decide
  unfold recvWindowUpdate
  rw [if_pos rfl, if_neg notConnection]
  unfold writeRstStream abandon drainReclaimed unready
  simp only [ends_bind, ends_get, ends_onCore, ends_modify, ends_ite, ends_pure]
  have noCredit : (s.streams.retire (.new 1)).reclaimed = 0 := by
    rw [hretire]
    exact h.noCredit
  refine ⟨fun _ => ?_, fun hc => absurd noCredit hc⟩
  refine (queueReset_ends _ _ _).ok ?_
  rintro - t rfl
  refine ⟨⟨h.running, h.noBlock, h.frameSize, ?_, rfl⟩, rfl⟩
  show (s.streams.retire (.new 1)).get? (.new 1) = none
  rw [hretire]
  exact h.noStream

theorem handleZeroUpdate_ends {s : Conn σ μ} (h : s.Bare) :
    Ends (handleFrame (.windowUpdate (.new 1) 0) s)
      (fun next t => next = .continue_ ∧ t.Bare ∧ t.out = s.out + 13) fun _ _ => False := by
  have inOrder : s.headerBlockError (Frame.windowUpdate (.new 1) 0).kind
      (Frame.windowUpdate (.new 1) 0).streamId = none := by
    unfold headerBlockError
    rw [h.noBlock]
    rfl
  unfold handleFrame
  simp only [ends_bind, ends_get]
  rw [inOrder]
  simp only [ends_bind, ends_pure]
  exact (recvZeroUpdate_ends h).ok fun _ t ht => ⟨trivial, ht⟩

/-- A step that adds a reset to what waits and changes nothing that matters. -/
theorem step_zeroUpdate {s : Conn σ μ} (h : s.Bare) (now : Instant) :
    (step (now, .frame zeroUpdate) s).Bare ∧
      (step (now, .frame zeroUpdate) s).out = s.out + 13 := by
  have hdecode : zeroUpdate.decode = .ok (.frame (.windowUpdate (.new 1) 0)) := rfl
  have answered : Ends (react (.frame zeroUpdate) { s with now } : EStateM.Result _ _ _)
      (fun next t => next = .continue_ ∧ t.Bare ∧ t.out = s.out + 13) fun _ _ => False := by
    unfold react recvWire
    simp only [ends_bind, ends_get, ends_onCore, ends_ite]
    refine ⟨fun hlong => absurd hlong (Nat.not_lt.mpr h.frameSize), fun _ => ?_⟩
    rw [hdecode]
    exact handleZeroUpdate_ends ⟨h.running, h.noBlock, h.frameSize, h.noStream, h.noCredit⟩
  rw [step_eq h.running]
  revert answered
  cases react (.frame zeroUpdate) { s with now } with
  | ok next t =>
    rintro ⟨rfl, ht⟩
    exact ht
  | error e t => exact False.elim

/-- As many resets wait as the frame came. -/
theorem run_zeroUpdates {s : Conn σ μ} (h : s.Bare) (n : Nat) :
    ((machine σ μ).run s (List.replicate n (0, .frame zeroUpdate))).Bare ∧
      ((machine σ μ).run s (List.replicate n (0, .frame zeroUpdate))).out = s.out + 13 * n := by
  induction n generalizing s with
  | zero => exact ⟨h, rfl⟩
  | succ n ih =>
    obtain ⟨bare, out⟩ := step_zeroUpdate h 0
    obtain ⟨bare', out'⟩ := ih bare
    refine ⟨bare', out'.trans ?_⟩
    rw [out]
    omega

theorem not_backlogged {s : Conn σ μ} (h : s.Bare) : ¬ s.Backlogged := by
  rintro ⟨bound, hb⟩
  have inputs : ∀ i ∈ List.replicate (maxWriteQueue + bound + 1) ((0, .frame zeroUpdate) :
      Instant × ConnInput), ∀ n, i.2 ≠ .wrote n := by
    intro i hi n
    rw [List.eq_of_mem_replicate hi]
    nofun
  obtain ⟨bare, out⟩ := run_zeroUpdates h (maxWriteQueue + bound + 1)
  have := hb _ inputs bare.running
  omega

omit [Service σ μ] in
theorem start_bare (service : σ) (tuning : Tuning) (limits : Limits) (policy : DrainPolicy)
    (admission : Option Nat) (now : Instant) :
    (start service tuning.serverSettings tuning.connectionWindow limits policy admission now :
      Conn σ μ).Bare := by
  refine ⟨rfl, rfl, ?_, rfl, rfl⟩
  cases admission <;> exact (show 4 ≤ 16384 by decide)

/-- Whatever the configuration, what waits to be written has no bound: for every bound there
    is a run in which more waits, nothing is written and the connection goes on. -/
theorem backlog_unbounded (service : σ) (tuning : Tuning) (limits : Limits) (policy : DrainPolicy)
    (admission : Option Nat) (now : Instant) :
    ¬ (start service tuning.serverSettings tuning.connectionWindow limits policy admission now :
      Conn σ μ).Backlogged :=
  not_backlogged (start_bare service tuning limits policy admission now)

/-- The control server with its defaults. -/
theorem control_unbounded : ¬ (withService (.new 4) : Conn Echo Empty).Backlogged :=
  not_backlogged ⟨rfl, rfl, by decide, rfl, rfl⟩

end Conn

end H2Proxy
