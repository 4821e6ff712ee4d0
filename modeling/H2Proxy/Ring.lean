import H2Proxy.Lib.RoundRobin
import H2Proxy.Stream

/-
  The ring of the write scheduler, on either side of the proxy.

  `Ring` is what both engines keep between two passes: the ring holds the live streams with
  something left to send, each of them once, and their flags agree. Inside a pass the ring is
  taken out of the state; `Lap` says the same of the streams that are yet to be visited and
  of those that were kept, whose flags wait for the end of the lap.
-/

namespace H2Proxy

namespace Stream

/-- What the scheduler reads of a stream, and the state it sends in. -/
structure Sending where
  queue : List Bytes
  endStream : Bool
  trailers : Option (List Header)
  queued : Bool
  state : StreamState

def sending (s : Stream) : Sending :=
  ⟨s.sendQueue, s.sendEndStream, s.pendingTrailers, s.queued, s.state⟩

theorem sendQueue_congr {s s' : Stream} (h : s'.sending = s.sending) : s'.sendQueue = s.sendQueue :=
  congrArg Sending.queue h

theorem queued_congr {s s' : Stream} (h : s'.sending = s.sending) : s'.queued = s.queued :=
  congrArg Sending.queued h

theorem state_congr {s s' : Stream} (h : s'.sending = s.sending) : s'.state = s.state :=
  congrArg Sending.state h

theorem hasPendingSend_congr {s s' : Stream} (h : s'.sending = s.sending) :
    s'.hasPendingSend = s.hasPendingSend := by
  unfold hasPendingSend
  rw [sendQueue_congr h, show s'.sendEndStream = s.sendEndStream from congrArg Sending.endStream h,
    show s'.pendingTrailers = s.pendingTrailers from congrArg Sending.trailers h]

theorem hasPendingSend_of_pendingSend {s : Stream} (h : s.pendingSend > 0) :
    s.hasPendingSend = true := by
  have some : s.sendQueue ≠ [] := by
    intro empty
    rw [pendingSend, empty] at h
    exact absurd h (Nat.lt_irrefl 0)
  unfold hasPendingSend
  simp [some]

/-- A queue without empty chunks holds octets, or is empty. -/
theorem pendingSend_pos {s : Stream} (chunks : [] ∉ s.sendQueue) (h : s.sendQueue ≠ []) :
    s.pendingSend > 0 := by
  cases hq : s.sendQueue with
  | nil => exact absurd hq h
  | cons front rest =>
    have front_ne : front ≠ [] := by
      rintro rfl
      exact chunks (hq ▸ List.mem_cons_self)
    have := List.length_pos_iff.mpr front_ne
    rw [pendingSend, hq, List.map_cons, List.sum_cons]
    omega

section Turn

variable {s : Stream} {budget : Nat}

/-- What a turn leaves of a queue without empty chunks has none. -/
theorem turn_chunks (chunks : [] ∉ s.sendQueue) : [] ∉ (s.turn budget).rest.sendQueue := by
  show [] ∉ (takeFromQueue s.sendQueue budget).2
  cases hq : s.sendQueue with
  | nil => exact List.not_mem_nil
  | cons front rest =>
    rw [hq] at chunks
    have rest_ok : [] ∉ rest := fun h => chunks (List.mem_cons_of_mem _ h)
    dsimp only [takeFromQueue]
    by_cases fits : front.length ≤ budget
    · rw [if_pos fits]
      exact rest_ok
    · rw [if_neg fits]
      refine fun h => (List.mem_cons.mp h).elim (fun empty => ?_) rest_ok
      have := congrArg List.length empty
      rw [List.length_nil, List.length_drop] at this
      omega

/-- A turn that takes octets where there are some. -/
theorem turn_chunk_ne (chunks : [] ∉ s.sendQueue) (some : s.sendQueue ≠ []) (credit : budget ≠ 0) :
    (s.turn budget).chunk ≠ [] := by
  show (takeFromQueue s.sendQueue budget).1 ≠ []
  cases hq : s.sendQueue with
  | nil => exact absurd hq some
  | cons front rest =>
    have front_ne : front ≠ [] := by
      rintro rfl
      exact chunks (hq ▸ List.mem_cons_self)
    dsimp only [takeFromQueue]
    by_cases fits : front.length ≤ budget
    · rw [if_pos fits]
      exact front_ne
    · rw [if_neg fits]
      intro empty
      have := congrArg List.length empty
      rw [List.length_nil, List.length_take] at this
      omega

/-- A turn that has nothing to do leaves nothing. -/
theorem turn_idle (chunks : [] ∉ s.sendQueue) (credit : ¬ (s.pendingSend > 0 ∧ budget = 0))
    (noChunk : (s.turn budget).chunk = []) (noEnd : (s.turn budget).endStream = false)
    (noTrailers : (s.turn budget).trailers = none) :
    (s.turn budget).rest.hasPendingSend = false := by
  have empty : s.sendQueue = [] := by
    by_contra some
    have octets := pendingSend_pos chunks some
    exact turn_chunk_ne chunks some (fun h => credit ⟨octets, h⟩) noChunk
  have drained : (takeFromQueue s.sendQueue budget).2 = [] := by
    rw [empty]
    rfl
  obtain ⟨keepsEnd, keepsTrailers⟩ := turn_keeps s budget noEnd noTrailers
  simp only [turn, drained] at noEnd noTrailers
  unfold hasPendingSend
  rw [keepsEnd, keepsTrailers, show (s.turn budget).rest.sendQueue = [] from drained]
  simp_all

/-- Where nothing is left to send a turn has nothing to do. -/
theorem turn_of_idle (idle : s.hasPendingSend = false) :
    (s.turn budget).chunk = [] ∧ (s.turn budget).endStream = false ∧
      (s.turn budget).trailers = none := by
  unfold hasPendingSend at idle
  simp only [Bool.or_eq_false_iff, decide_eq_false_iff_not, not_not, Option.isSome_eq_false_iff,
    Option.isNone_iff_eq_none] at idle
  obtain ⟨⟨queue, noEnd⟩, noTrailers⟩ := idle
  unfold turn
  simp [queue, noEnd, noTrailers, takeFromQueue]

/-- Once the end or the trailers are taken nothing is left. -/
theorem turn_spent (h : (s.turn budget).endStream = true ∨ (s.turn budget).trailers.isSome) :
    (s.turn budget).rest.hasPendingSend = false := by
  unfold hasPendingSend
  obtain he | ht := h
  · obtain ⟨-, queue, -, -, trailers, ends⟩ := turn_endStream s budget he
    simp [queue, trailers, ends]
  · obtain ⟨fields, hf⟩ := Option.isSome_iff_exists.mp ht
    obtain ⟨-, queue, -, trailers, ends⟩ := turn_trailers s budget hf
    simp [queue, trailers, ends]

end Turn

end Stream

/-- Where the scheduler reads the same, the same is left to send. -/
theorem any_hasPendingSend {o o' : Option Stream}
    (h : o'.map Stream.sending = o.map Stream.sending) :
    o'.any Stream.hasPendingSend = o.any Stream.hasPendingSend := by
  cases o with
  | none => rw [Option.map_eq_none_iff.mp h]
  | some s =>
    cases o' with
    | none => cases h
    | some s' => exact Stream.hasPendingSend_congr (Option.some.inj h)

/-- In the middle of a lap: `rest` is yet to be visited, `kept` goes back into the ring. -/
structure Lap (t : StreamTable) (rest kept : List StreamId) : Prop where
  inStep : InStep Stream.hasPendingSend t.get? (rest ++ kept)
  chunks : ∀ id s, t.get? id = some s → [] ∉ s.sendQueue
  flags : ∀ id s, t.get? id = some s → id ∉ kept → s.queued = s.hasPendingSend

/-- Between two passes. -/
abbrev Ring (t : StreamTable) (ready : List StreamId) : Prop := Lap t ready []

/-- The scheduler reads the same of both tables. -/
def StreamTable.SameSending (t t' : StreamTable) : Prop :=
  ∀ id, (t'.get? id).map Stream.sending = (t.get? id).map Stream.sending

namespace StreamTable

variable {t t' t'' : StreamTable} {id : StreamId}

/-- A legal event that does not end its stream changes the state of it. -/
theorem apply_ok {event : StreamEvent} {next : StreamState}
    (legal : (t.apply id event).2 = .ok next) (goesOn : next.isClosed = false) :
    (t.apply id event).1 = t.modify id ({ · with state := next }) := by
  unfold apply at *
  cases hs : t.get? id with
  | none => rw [hs] at legal; cases legal
  | some s =>
    rw [hs] at legal
    dsimp only at *
    cases ht : s.state.transition event with
    | error code => rw [ht] at legal; cases legal
    | ok next' =>
      rw [ht] at legal
      obtain rfl : next' = next := Except.ok.inj legal
      dsimp only
      rw [if_neg (by rw [goesOn]; exact Bool.false_ne_true)]

theorem SameSending.refl (t : StreamTable) : t.SameSending t := fun _ => rfl

theorem SameSending.trans (h : t.SameSending t') (h' : t'.SameSending t'') : t.SameSending t'' :=
  fun id => (h' id).trans (h id)

theorem SameSending.of_get? (h : ∀ id, t'.get? id = t.get? id) : t.SameSending t' :=
  fun id => by rw [h id]

theorem live_of_sending {o : Option Stream} {s' : Stream}
    (h : (some s').map Stream.sending = o.map Stream.sending) :
    ∃ s, o = some s ∧ s'.sending = s.sending := by
  cases o with
  | none => cases h
  | some s => exact ⟨s, rfl, Option.some.inj h⟩

theorem SameSending.live (h : t.SameSending t') {s' : Stream} (hs : t'.get? id = some s') :
    ∃ s, t.get? id = some s ∧ s'.sending = s.sending :=
  live_of_sending (by rw [← hs]; exact h id)

theorem SameSending.modify (t : StreamTable) (id : StreamId) {f : Stream → Stream}
    (h : ∀ s, t.get? id = some s → (f s).sending = s.sending) : t.SameSending (t.modify id f) := by
  intro id'
  rw [get?_modify]
  split
  · rename_i heq
    subst heq
    cases hs : t.get? id' with
    | none => rfl
    | some s => exact congrArg some (h s hs)
  · rfl

theorem SameSending.applyInitialWindowDelta (t : StreamTable) (delta : Int) :
    t.SameSending (t.applyInitialWindowDelta delta).1 := by
  intro id
  obtain ⟨s, s', hs, hf, hs'⟩ | h := AList.lookup_updateAll
    (fun s : Stream => (s.sendWindow.applyDelta delta).map fun w => { s with sendWindow := w })
    t.live id
  · rw [show (t.applyInitialWindowDelta delta).1.get? id = some s' from hs',
      show t.get? id = some s from hs]
    cases hd : s.sendWindow.applyDelta delta with
    | error e => rw [hd] at hf; cases hf
    | ok w =>
      rw [hd] at hf
      cases hf
      rfl
  · rw [show (t.applyInitialWindowDelta delta).1.get? id = t.get? id from h]

end StreamTable

namespace Lap

variable {t t' : StreamTable} {rest kept ready : List StreamId} {id : StreamId}

theorem new (maxConcurrent : Nat) (sendWindow recvWindow : Int) :
    Ring (.new maxConcurrent sendWindow recvWindow) [] :=
  ⟨.empty fun _ => rfl, fun _ _ h => (by cases h), fun _ _ h => (by cases h)⟩

theorem sameSending (h : Lap t rest kept) (same : t.SameSending t') : Lap t' rest kept := by
  refine ⟨h.inStep.congr fun id => any_hasPendingSend (same id), fun id s' hs' => ?_,
    fun id s' hs' notKept => ?_⟩
  · obtain ⟨s, hs, eq⟩ := same.live hs'
    rw [Stream.sendQueue_congr eq]
    exact h.chunks id s hs
  · obtain ⟨s, hs, eq⟩ := same.live hs'
    rw [Stream.queued_congr eq, Stream.hasPendingSend_congr eq]
    exact h.flags id s hs notKept

/-- A stream goes, and its place in the ring with it. -/
theorem retired (h : Ring t ready) (gone : t'.get? id = none)
    (others : ∀ id', id' ≠ id → t'.get? id' = t.get? id') :
    Ring t' (ready.filter (· ≠ id)) := by
  have step := h.inStep
  rw [List.append_nil] at step
  refine ⟨?_, fun id' s hs => ?_, fun id' s hs => ?_⟩
  · rw [List.append_nil]
    exact step.remove (by rw [gone]; rfl) fun id' other => by rw [others id' other]
  all_goals
    have other : id' ≠ id := by
      rintro rfl
      rw [gone] at hs
      cases hs
    rw [others id' other] at hs
  · exact h.chunks id' s hs
  · exact h.flags id' s hs

/-- A stream that was not there comes with nothing to send. -/
theorem opened (h : Ring t ready) {s : Stream} (fresh : t.get? id = none)
    (here : t'.get? id = some s) (others : ∀ id', id' ≠ id → t'.get? id' = t.get? id')
    (empty : s.sendQueue = []) (idle : s.hasPendingSend = false) (flag : s.queued = false) :
    Ring t' ready := by
  refine ⟨h.inStep.congr fun id' => ?_, fun id' s' hs => ?_, fun id' s' hs notKept => ?_⟩
  all_goals by_cases other : id' = id
  · rw [other, here, fresh]
    exact idle
  · rw [others id' other]
  · rw [other, here] at hs
    cases hs
    rw [empty]
    exact List.not_mem_nil
  · rw [others id' other] at hs
    exact h.chunks id' s' hs
  · rw [other, here] at hs
    cases hs
    rw [idle, flag]
  · rw [others id' other] at hs
    exact h.flags id' s' hs notKept

/-- A stream is changed in what the scheduler does not read. -/
theorem modified (h : Ring t ready) (id : StreamId) {f : Stream → Stream}
    (keeps : ∀ s, (f s).sendQueue = s.sendQueue ∧ (f s).hasPendingSend = s.hasPendingSend ∧
      (f s).queued = s.queued) : Ring (t.modify id f) ready := by
  have here : ∀ id' s', (t.modify id f).get? id' = some s' → ∃ s, t.get? id' = some s ∧
      s'.sendQueue = s.sendQueue ∧ s'.hasPendingSend = s.hasPendingSend ∧ s'.queued = s.queued := by
    intro id' s' hs'
    rw [StreamTable.get?_modify] at hs'
    split at hs'
    · rename_i heq
      obtain ⟨s, hs, rfl⟩ := Option.map_eq_some_iff.mp hs'
      exact ⟨s, heq ▸ hs, keeps s⟩
    · exact ⟨s', hs', rfl, rfl, rfl⟩
  refine ⟨h.inStep.congr fun id' => ?_, fun id' s' hs' => ?_, fun id' s' hs' notKept => ?_⟩
  · rw [StreamTable.get?_modify]
    split
    · rename_i heq
      subst heq
      cases t.get? id' with
      | none => rfl
      | some s => exact (keeps s).2.1
    · rfl
  · obtain ⟨s, hs, queue, -, -⟩ := here id' s' hs'
    rw [queue]
    exact h.chunks id' s hs
  · obtain ⟨s, hs, -, busy, flag⟩ := here id' s' hs'
    rw [busy, flag]
    exact h.flags id' s hs notKept

/-- An event that does not end its stream leaves it its place. -/
theorem applied (h : Ring t ready) {event : StreamEvent} {next : StreamState}
    (legal : (t.apply id event).2 = .ok next) (goesOn : next.isClosed = false) :
    Ring (t.apply id event).1 ready := by
  rw [StreamTable.apply_ok legal goesOn]
  exact h.modified id fun s => ⟨rfl, rfl, rfl⟩

/-! ## Putting a stream on the ring -/

section Enqueue

variable {s : Stream} {f : Stream → Stream}

/-- A stream that is on the ring is given more to send. -/
theorem given (h : Ring t ready) (hs : t.get? id = some s) (chunks : [] ∉ (f s).sendQueue)
    (flag : (f s).queued = (f s).hasPendingSend) (busy : (f s).hasPendingSend = s.hasPendingSend) :
    Ring (t.modify id f) ready := by
  refine ⟨h.inStep.congr fun id' => ?_, fun id' s' hs' => ?_, fun id' s' hs' notKept => ?_⟩
  · rw [StreamTable.get?_modify]
    split
    · rename_i heq
      rw [heq, hs]
      exact busy
    · rfl
  all_goals
    rw [StreamTable.get?_modify] at hs'
    split at hs'
  · rw [hs] at hs'
    cases hs'
    exact chunks
  · exact h.chunks id' s' hs'
  · rw [hs] at hs'
    cases hs'
    exact flag
  · exact h.flags id' s' hs' notKept

/-- A stream that had nothing to send has, and is put at the end. -/
theorem woken (h : Ring t ready) (hs : t.get? id = some s) (idle : s.hasPendingSend = false)
    (chunks : [] ∉ (f s).sendQueue) (flag : (f s).queued = true)
    (busy : (f s).hasPendingSend = true) : Ring (t.modify id f) (ready ++ [id]) := by
  have step := h.inStep
  rw [List.append_nil] at step
  have here : (t.modify id f).get? id = some (f s) := by
    rw [StreamTable.get?_modify, if_pos rfl, hs]
    rfl
  have others : ∀ id', id' ≠ id → (t.modify id f).get? id' = t.get? id' := fun id' other => by
    rw [StreamTable.get?_modify, if_neg other]
  refine ⟨?_, fun id' s' hs' => ?_, fun id' s' hs' notKept => ?_⟩
  · rw [List.append_nil]
    refine step.wake (k := id) ?_ ?_ fun id' other => by rw [others id' other]
    · rw [hs]
      exact idle
    · rw [here]
      exact busy
  all_goals by_cases other : id' = id
  · rw [other, here] at hs'
    cases hs'
    exact chunks
  · rw [others id' other] at hs'
    exact h.chunks id' s' hs'
  · rw [other, here] at hs'
    cases hs'
    rw [flag, busy]
  · rw [others id' other] at hs'
    exact h.flags id' s' hs' notKept

/-- What is left to send of a stream after a change that only adds to it. -/
structure Gives (s : Stream) (f : Stream → Stream) : Prop where
  chunks : [] ∉ s.sendQueue → [] ∉ (f s).sendQueue
  flag : (f s).queued = s.queued
  busy : s.hasPendingSend = true → (f s).hasPendingSend = true

theorem Gives.body (s : Stream) (data : Bytes) (endStream : Bool) : Gives s fun s =>
    { s with
      sendQueue := if data ≠ [] then s.sendQueue ++ [data] else s.sendQueue
      sendEndStream := s.sendEndStream || endStream } := by
  refine ⟨fun chunks => ?_, rfl, fun busy => ?_⟩
  · by_cases empty : data = []
    · simpa [empty] using chunks
    · simp [empty, chunks, Ne.symm empty]
  · unfold Stream.hasPendingSend at *
    by_cases empty : data = []
    · simp_all
      tauto
    · simp [empty]

theorem Gives.ending (s : Stream) (trailers : Stream → Option (List Header)) : Gives s fun s =>
    { s with pendingTrailers := trailers s, sendEndStream := true } := by
  refine ⟨fun chunks => chunks, rfl, fun _ => ?_⟩
  unfold Stream.hasPendingSend
  simp

/-- A stream that was given more and is not put on the ring is there, or still has nothing. -/
theorem settled (h : Ring t ready) (hs : t.get? id = some s) (gives : Gives s f)
    (stays : ((f s).queued || !(f s).hasPendingSend) = true) : Ring (t.modify id f) ready := by
  have agree := h.flags id s hs List.not_mem_nil
  have same : (f s).hasPendingSend = s.hasPendingSend := by
    cases hb : s.hasPendingSend with
    | true => exact gives.busy hb
    | false =>
      rw [gives.flag, agree, hb] at stays
      simpa using stays
  exact h.given hs (gives.chunks (h.chunks id s hs)) (by rw [gives.flag, agree, same]) same

/-- A stream that was given something and had nothing is put at the end of the ring. -/
theorem waiting (h : Ring t ready) (hs : t.get? id = some s) (gives : Gives s f)
    (goes : ((f s).queued || !(f s).hasPendingSend) = false) :
    Ring ((t.modify id f).modify id ({ · with queued := true })) (ready ++ [id]) := by
  have agree := h.flags id s hs List.not_mem_nil
  rw [Bool.or_eq_false_iff, gives.flag, agree, Bool.not_eq_false'] at goes
  rw [StreamTable.modify_modify]
  exact h.woken hs goes.1 (gives.chunks (h.chunks id s hs)) rfl goes.2

end Enqueue

/-! ## A lap -/

/-- The stream at the front of a lap has been visited. -/
theorem visited (h : Lap t (id :: rest) kept) {more : Bool}
    (others : ∀ id', id' ≠ id →
      (t'.get? id').map Stream.sending = (t.get? id').map Stream.sending)
    (busy : (t'.get? id).any Stream.hasPendingSend = more)
    (chunks : ∀ s, t'.get? id = some s → [] ∉ s.sendQueue)
    (flag : ∀ s, t'.get? id = some s → s.queued = true → s.hasPendingSend = true) :
    Lap t' rest (if more then id :: kept else kept) := by
  have same : ∀ id', id' ≠ id → (t'.get? id').any Stream.hasPendingSend =
      (t.get? id').any Stream.hasPendingSend := fun id' other => any_hasPendingSend (others id' other)
  refine ⟨?_, fun id' s' hs' => ?_, fun id' s' hs' notKept => ?_⟩
  · cases more with
    | true => exact (h.inStep.stay busy same).perm List.perm_middle.symm
    | false => exact h.inStep.leave busy same
  · by_cases other : id' = id
    · subst other
      exact chunks s' hs'
    · obtain ⟨s, hs, eq⟩ := StreamTable.live_of_sending (hs' ▸ others id' other)
      rw [Stream.sendQueue_congr eq]
      exact h.chunks id' s hs
  · by_cases other : id' = id
    · subst other
      rw [hs'] at busy
      cases more with
      | true => exact absurd List.mem_cons_self notKept
      | false =>
        have idle : s'.hasPendingSend = false := busy
        rw [idle]
        by_contra queued
        rw [flag s' hs' (by simpa using queued)] at idle
        cases idle
    · obtain ⟨s, hs, eq⟩ := StreamTable.live_of_sending (hs' ▸ others id' other)
      rw [Stream.queued_congr eq, Stream.hasPendingSend_congr eq]
      refine h.flags id' s hs fun member => notKept ?_
      cases more with
      | true => exact List.mem_cons_of_mem _ member
      | false => exact member

theorem perm (h : Lap t rest kept) {kept' : List StreamId} (hp : kept.Perm kept') :
    Lap t rest kept' :=
  ⟨h.inStep.perm (List.Perm.append_left rest hp), h.chunks,
    fun id s hs notKept => h.flags id s hs fun member => notKept (hp.mem_iff.mp member)⟩

/-- At the end of a lap the streams that were kept are flagged again. -/
theorem flagged (h : Lap t rest (id :: kept)) :
    Lap (t.modify id ({ · with queued := true })) (rest ++ [id]) kept := by
  have others : ∀ id', id' ≠ id →
      (t.modify id ({ · with queued := true })).get? id' = t.get? id' := fun id' other => by
    rw [StreamTable.get?_modify, if_neg other]
  have busy := (h.inStep.mem id).mp (List.mem_append_right _ List.mem_cons_self)
  have step := h.inStep
  rw [List.append_cons] at step
  refine ⟨step.congr fun id' => ?_, fun id' s hs => ?_, fun id' s hs notKept => ?_⟩
  all_goals by_cases other : id' = id
  · subst other
    rw [StreamTable.get?_modify, if_pos rfl]
    cases t.get? id' <;> rfl
  · rw [others id' other]
  · subst other
    rw [StreamTable.get?_modify, if_pos rfl] at hs
    obtain ⟨s₀, hs₀, rfl⟩ := Option.map_eq_some_iff.mp hs
    exact h.chunks id' s₀ hs₀
  · rw [others id' other] at hs
    exact h.chunks id' s hs
  · subst other
    rw [StreamTable.get?_modify, if_pos rfl] at hs
    obtain ⟨s₀, hs₀, rfl⟩ := Option.map_eq_some_iff.mp hs
    rw [hs₀] at busy
    exact busy.symm
  · rw [others id' other] at hs
    refine h.flags id' s hs fun member => ?_
    exact (List.mem_cons.mp member).elim other notKept

end Lap

end H2Proxy
