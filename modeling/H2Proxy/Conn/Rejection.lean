import H2Proxy.Conn.Body
import H2Proxy.Conn.Charge
import H2Proxy.Conn.Known

/-
  Requests that are rejected for the length of their bodies.

  A frame that would end a request at another length than it declares (`Misjudged`) resets its
  stream with PROTOCOL_ERROR, and the responder is told of no part of the request
  (`ConnCore.Rejects`). With `bodies_agree` this is the whole of the guard: an end is told at
  the declared length or not at all.
-/

namespace H2Proxy

variable {σ μ : Type} {c c' c'' : ConnCore σ μ} {id : StreamId}

/-- The responder is told of no part of the request on `id`. -/
def ConnCore.Untold (id : StreamId) (c c' : ConnCore σ μ) : Prop :=
  ∃ added, c'.log = c.log ++ added ∧
    ∀ call, .called call ∈ added → (ConnObs.called call : ConnObs μ).portion? id = none

namespace ConnCore

theorem Untold.trans (h : c.Untold id c') (h' : c'.Untold id c'') : c.Untold id c'' := by
  obtain ⟨added, hlog, silent⟩ := h
  obtain ⟨added', hlog', silent'⟩ := h'
  refine ⟨added ++ added', by rw [hlog', hlog, List.append_assoc], fun call mem => ?_⟩
  exact (List.mem_append.mp mem).elim (silent call) (silent' call)

theorem Passes.untold (h : c.Passes id c') : c.Untold id c' := by
  obtain ⟨added, hlog, silent⟩ := h.log
  exact ⟨added, hlog, fun call mem => silent _ mem⟩

/-- A frame is heard. -/
theorem Untold.heard (id : StreamId) {w : WireFrame} (hlog : c'.log = c.log ++ [.heard w]) :
    c.Untold id c' :=
  ⟨[.heard w], hlog, by simp⟩

variable [Service σ μ]

end ConnCore

namespace Conn

variable [Service σ μ]

/-- A frame that completes a request's header block has the request received. -/
theorem recvWire_request {s : Conn σ μ} {w : WireFrame} {headers : List Header} {endStream : Bool}
    (completes : s.completes w = some (id, endStream, .ok headers)) {Q : ConnCore σ μ → Prop}
    (received : ∀ t : Conn σ μ, t.toConnCore = s.toConnCore.observe (.heard w) →
      Ends (recvRequest id headers endStream t) (fun _ u => Q u.toConnCore) fun _ _ => False) :
    Ends (recvWire w s) (fun next u => next = .continue_ ∧ Q u.toConnCore) fun _ _ => False := by
  -- The block is gathered and decoded on the way, which the core does not show.
  have read : ∀ (t : Conn σ μ) (fragment : Bytes) (endHeaders : Bool),
      t.toConnCore = s.toConnCore.observe (.heard w) → t.openHeaderEndStream = endStream →
      t.completion fragment endHeaders = some (.ok headers) →
      Ends (readHeaderBlock id fragment endHeaders t) (fun _ u => Q u.toConnCore)
        fun _ _ => False := by
    intro t fragment endHeaders core ended whole
    unfold completion at whole
    dsimp only at whole
    split at whole
    case isFalse => cases whole
    rename_i fits
    rw [Bool.and_eq_true, decide_eq_true_eq] at fits
    obtain ⟨rfl, fits⟩ := fits
    have decoded := Option.some.inj whole
    unfold readHeaderBlock
    rw [ends_bind, gatherBlock_whole fits, ends_ok]
    simp only [ends_bind, ends_get, ends_modify]
    rw [decoded]
    dsimp only
    rw [ends_bind, ends_get]
    dsimp only
    rw [ended]
    exact received _ core
  unfold Conn.completes at completes
  cases hdec : w.decode with
  | error e => rw [hdec] at completes; cases completes
  | ok d =>
    cases d with
    | ignored kind id => rw [hdec] at completes; cases completes
    | frame f =>
      rw [hdec] at completes
      dsimp only at completes
      split at completes
      case isFalse => cases completes
      rename_i fits
      rw [Bool.and_eq_true, decide_eq_true_eq, Option.isNone_iff_eq_none] at fits
      obtain ⟨fits, inOrder⟩ := fits
      obtain ⟨⟨on, fragment, endHeaders⟩, hfragment, hc⟩ := Option.bind_eq_some_iff.mp completes
      obtain ⟨r', whole, heq⟩ := Option.map_eq_some_iff.mp hc
      cases heq
      have inOrder : (s.withCore (s.toConnCore.observe (.heard w))).headerBlockError f.kind
        f.streamId = none := inOrder
      unfold recvWire
      rw [ends_bind, ends_onCore, ends_bind, ends_get, ends_ite]
      refine ⟨fun long => absurd fits (Nat.not_le.mpr long), fun _ => ?_⟩
      rw [hdec]
      dsimp only
      unfold handleFrame
      rw [ends_bind, ends_get, inOrder]
      cases f with
      | headers on' block endStream' endHeaders' =>
        cases hfragment
        dsimp only
        rw [ends_bind, ends_modify, ends_bind]
        refine (read _ fragment endHeaders ?_ ?_ (by exact whole)).mono ?_ fun _ _ h => h
        · rfl
        · rfl
        · exact fun _ t ht => ⟨rfl, ht⟩
      | continuation on' block endHeaders' =>
        cases hfragment
        dsimp only
        rw [ends_bind]
        refine (read _ fragment endHeaders ?_ ?_ (by exact whole)).mono ?_ fun _ _ h => h
        · rfl
        · rfl
        · exact fun _ t ht => ⟨rfl, ht⟩
      | _ => cases hfragment

/-- A frame that ends without an error is the step. -/
theorem step_frame {s : Conn σ μ} (running : s.stop = none) (now : Instant) {w : WireFrame}
    {Q : ConnCore σ μ → Prop}
    (ends : Ends (recvWire w { s with now }) (fun next u => next = .continue_ ∧ Q u.toConnCore)
      fun _ _ => False) : Q (step (now, .frame w) s).toConnCore := by
  rw [step_eq running]
  change Ends (react (.frame w) { s with now }) _ _ at ends
  generalize react (.frame w) { s with now } = res at ends ⊢
  cases res with
  | ok next t =>
    obtain ⟨rfl, ht⟩ := ends
    exact ht
  | error e t => exact ends.elim

/-! ## The ends of a request -/

end Conn

end H2Proxy
