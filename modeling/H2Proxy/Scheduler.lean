import H2Proxy.Conn.Known
import H2Proxy.Conn.Ring
import H2Proxy.Up.Ring

/-
  The write scheduler of both engines.

  The two engines hold a scheduler each, of the same make. What is said here is said of both.
-/

namespace H2Proxy

/-- The ring and the flags of the streams are two copies of one fact, and no stream with
    something left to send is missing from them. -/
structure Scheduled (t : StreamTable) (ready : List StreamId) : Prop where
  once : ∀ id s, t.get? id = some s → s.hasPendingSend = true → ready.count id = 1
  nodup : ready.Nodup
  flag : ∀ id s, t.get? id = some s → (s.queued = true ↔ id ∈ ready)

theorem Lap.scheduled {t : StreamTable} {ready : List StreamId} (h : Ring t ready) :
    Scheduled t ready := by
  have step := h.inStep
  rw [List.append_nil] at step
  refine ⟨fun id s hs busy => ?_, step.nodup, fun id s hs => ?_⟩
  · refine List.count_eq_one_of_mem step.nodup ((step.mem id).mpr ?_)
    rw [hs]
    exact busy
  · rw [h.flags id s hs List.not_mem_nil, step.mem id, hs]
    rfl

/-- Between two passes no stream with something left to send waits outside the ring, on
    either side of the proxy. -/
theorem no_lost_wakeup {σ μ : Type} [Service σ μ] :
    (∀ s : Conn σ μ, (Conn.machine σ μ).Reachable s → s.stop = none →
      Scheduled s.streams s.ready) ∧
    ∀ s : Upstream, Upstream.machine.Reach (fun s i => s.inOrder i.2 = true) s → s.stop = none →
      Scheduled s.streams s.ready :=
  ⟨fun _ h running => (Conn.reachable_inRing h running).scheduled,
    fun _ h running => (Upstream.reach_orderly h running).ring.scheduled⟩

/-- A response of four octets that waits for the scheduler. -/
def answered : Conn Echo Empty :=
  (Conn.machine Echo Empty).run (Conn.withService (.new 4))
    [(0, .frame Conn.getRoot), (0, .event), (0, .event)]

/-- `POST /` over `http`. -/
def postRoot : RequestHead := ⟨ascii "POST", ascii "http", some (ascii "a"), ascii "/", []⟩

/-- A request of one octet that waits for the scheduler. -/
def posted : Upstream :=
  Upstream.machine.run (.start .default 0 0 0)
    [(0, .message (.request ⟨1⟩ (.new 1) postRoot false ⟨0⟩)),
      (0, .message (.body ⟨1⟩ [0x61] true))]

theorem waiting_scheduled :
    Scheduled answered.streams answered.ready ∧ answered.ready = [.new 1] ∧
      Scheduled posted.streams posted.ready ∧ posted.ready = [.new 1] := by
  have fresh : Upstream.Fresh (.start .default 0 0 0) :=
    ⟨.default, 0, 0, 0, by decide, by decide, rfl⟩
  refine ⟨no_lost_wakeup.1 answered ?_ (by decide +kernel), by decide +kernel,
    (@no_lost_wakeup Echo Empty _).2 posted ?_ (by decide +kernel), by decide +kernel⟩
  · exact Machine.Reach.run (.init (Conn.fresh_withService _)) _ (by simp [Machine.Meets])
  · exact Machine.Reach.run (.init fresh) _ (by decide +kernel)

end H2Proxy
