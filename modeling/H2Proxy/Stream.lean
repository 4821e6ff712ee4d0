import H2Proxy.Lib.Map
import H2Proxy.Flow
import H2Proxy.Hpack.Codec

/-
  Streams (`core/src/stream.rs`): the RFC 9113 state machine, one stream's buffers, and the
  table of live streams. A closed stream is removed from the table, not kept.
-/

namespace H2Proxy

/-! ## The state machine -/

inductive StreamState
  | idle | open_ | halfClosedLocal | halfClosedRemote | closed
deriving DecidableEq

inductive StreamEvent
  | sendHeaders (endStream : Bool)
  | recvHeaders (endStream : Bool)
  | sendData (endStream : Bool)
  | recvData (endStream : Bool)
  | sendRstStream
  | recvRstStream
deriving DecidableEq

namespace StreamState

def isClosed (s : StreamState) : Bool := s == closed

/-- May the peer still send DATA or HEADERS? -/
def peerCanSend (s : StreamState) : Bool := s == open_ || s == halfClosedLocal

/-- May we still send DATA or HEADERS? -/
def weCanSend (s : StreamState) : Bool := s == open_ || s == halfClosedRemote

theorem weCanSend_cases {s : StreamState} (h : s.weCanSend) : s = open_ ∨ s = halfClosedRemote := by
  cases s <;> first
    | exact .inl rfl
    | exact .inr rfl
    | cases h

/-- The next state, or the error code of an illegal transition. -/
def transition : StreamState → StreamEvent → Except ErrorCode StreamState
  | idle, .sendHeaders endStream => .ok (if endStream then halfClosedLocal else open_)
  | idle, .recvHeaders endStream => .ok (if endStream then halfClosedRemote else open_)
  | idle, _ => .error .protocolError
  | _, .sendRstStream => .ok closed
  | _, .recvRstStream => .ok closed
  | open_, .sendHeaders endStream => .ok (if endStream then halfClosedLocal else open_)
  | open_, .sendData endStream => .ok (if endStream then halfClosedLocal else open_)
  | open_, .recvHeaders endStream => .ok (if endStream then halfClosedRemote else open_)
  | open_, .recvData endStream => .ok (if endStream then halfClosedRemote else open_)
  | halfClosedLocal, .recvHeaders endStream => .ok (if endStream then closed else halfClosedLocal)
  | halfClosedLocal, .recvData endStream => .ok (if endStream then closed else halfClosedLocal)
  | halfClosedLocal, _ => .error .streamClosed
  | halfClosedRemote, .sendHeaders endStream => .ok (if endStream then closed else halfClosedRemote)
  | halfClosedRemote, .sendData endStream => .ok (if endStream then closed else halfClosedRemote)
  | halfClosedRemote, _ => .error .streamClosed
  | closed, _ => .error .streamClosed

end StreamState

/-! ## One stream -/

structure Stream where
  state : StreamState
  /-- Credit the peer gave us. -/
  sendWindow : Window
  /-- Credit we gave the peer. -/
  recvWindow : RecvWindow
  /-- Body waiting for the scheduler, oldest chunk first. -/
  sendQueue : List Bytes
  /-- Whether END_STREAM rides the last chunk of `sendQueue`. -/
  sendEndStream : Bool
  /-- A trailer section to send once the body has drained. -/
  pendingTrailers : Option (List Header)
  /-- Whether the stream is in the round-robin ring. -/
  queued : Bool
  /-- Whether a response head has gone out. -/
  responseStarted : Bool
  contentLength : Option Nat
  dataReceived : Nat
  /-- Octets recorded against the connection window and not yet released. -/
  pendingConnRelease : Nat
deriving DecidableEq

namespace Stream

def new (sendWindow recvWindow : Int) : Stream where
  state := .idle
  sendWindow := ⟨sendWindow⟩
  recvWindow := .new recvWindow
  sendQueue := []
  sendEndStream := false
  pendingTrailers := none
  queued := false
  responseStarted := false
  contentLength := none
  dataReceived := 0
  pendingConnRelease := 0

def contentLengthMatches (s : Stream) : Bool :=
  match s.contentLength with
  | some declared => declared == s.dataReceived
  | none => true

/-- Octets still queued. -/
def pendingSend (s : Stream) : Nat := (s.sendQueue.map List.length).sum

def hasPendingSend (s : Stream) : Bool :=
  s.sendQueue ≠ [] || s.sendEndStream || s.pendingTrailers.isSome

/-- What a visit of the scheduler takes off a stream, and what it leaves. -/
structure Turn where
  chunk : Bytes
  endStream : Bool
  trailers : Option (List Header)
  rest : Stream

/-- Take up to `budget` octets off the front of a send queue. -/
def takeFromQueue (queue : List Bytes) (budget : Nat) : Bytes × List Bytes :=
  match queue with
  | [] => ([], [])
  | front :: rest =>
    if front.length ≤ budget then (front, rest)
    else (front.take budget, front.drop budget :: rest)

/-- One chunk of the queue, and END_STREAM or the trailers once the queue has drained. -/
def turn (s : Stream) (budget : Nat) : Turn :=
  let (chunk, sendQueue) := takeFromQueue s.sendQueue budget
  let drained := sendQueue = []
  let trailers := if drained then s.pendingTrailers else none
  let endStream := drained && s.sendEndStream && trailers.isNone
  { chunk, endStream, trailers
    rest :=
      { s with
        queued := false
        sendQueue
        pendingTrailers := if drained then none else s.pendingTrailers
        sendEndStream := s.sendEndStream && !endStream && trailers.isNone } }

theorem takeFromQueue_flatten (queue : List Bytes) (budget : Nat) :
    (takeFromQueue queue budget).1 ++ (takeFromQueue queue budget).2.flatten = queue.flatten := by
  cases queue with
  | nil => rfl
  | cons front rest =>
    unfold takeFromQueue
    by_cases h : front.length ≤ budget
    · simp [h]
    · simp [h, ← List.append_assoc]

theorem takeFromQueue_length (queue : List Bytes) (budget : Nat) :
    (takeFromQueue queue budget).1.length ≤ budget := by
  cases queue with
  | nil => exact Nat.zero_le _
  | cons front rest =>
    by_cases h : front.length ≤ budget
    · simp only [takeFromQueue, if_pos h]
      exact h
    · simp only [takeFromQueue, if_neg h, List.length_take]
      exact Nat.min_le_left _ _

section Turn

variable (s : Stream) (budget : Nat)

@[simp] theorem turn_state : (s.turn budget).rest.state = s.state := rfl

/-- No octet is lost: the chunk is the front of what was queued. -/
theorem turn_octets :
    s.sendQueue.flatten = (s.turn budget).chunk ++ (s.turn budget).rest.sendQueue.flatten :=
  (takeFromQueue_flatten s.sendQueue budget).symm

theorem turn_chunk_length : (s.turn budget).chunk.length ≤ budget :=
  takeFromQueue_length s.sendQueue budget

/-- Trailers are those that waited, behind a body that has drained. -/
theorem turn_trailers {fields : List Header} (h : (s.turn budget).trailers = some fields) :
    s.pendingTrailers = some fields ∧ (s.turn budget).rest.sendQueue = [] ∧
      (s.turn budget).endStream = false ∧ (s.turn budget).rest.pendingTrailers = none ∧
      (s.turn budget).rest.sendEndStream = false := by
  simp only [turn] at h ⊢
  split at h
  · rename_i hd
    exact ⟨h, by simpa using hd, by simp [hd, h], by simp [hd], by simp [hd, h]⟩
  · cases h

/-- END_STREAM rides the chunk only where it was asked for and nothing is left. -/
theorem turn_endStream (h : (s.turn budget).endStream = true) :
    s.sendEndStream = true ∧ (s.turn budget).rest.sendQueue = [] ∧ s.pendingTrailers = none ∧
      (s.turn budget).trailers = none ∧ (s.turn budget).rest.pendingTrailers = none ∧
      (s.turn budget).rest.sendEndStream = false := by
  simp only [turn, Bool.and_eq_true, decide_eq_true_eq] at h ⊢
  obtain ⟨⟨hd, he⟩, ht⟩ := h
  simp only [hd, if_true] at ht ⊢
  simp [he, Option.isNone_iff_eq_none.mp ht]

/-- Where no ending is taken, the endings asked for stay asked for. -/
theorem turn_keeps (he : (s.turn budget).endStream = false) (ht : (s.turn budget).trailers = none) :
    (s.turn budget).rest.sendEndStream = s.sendEndStream ∧
      (s.turn budget).rest.pendingTrailers = s.pendingTrailers := by
  simp only [turn] at he ht ⊢
  constructor
  · rw [he, ht]
    simp
  · split at ht
    · rename_i hd; simp [hd, ht]
    · rename_i hd; simp [hd]

end Turn

end Stream

/-! ## The table -/

/-- Why an attempt to open a stream was rejected. -/
inductive OpenRejection
  | protocol (msg : String)
  | refused
deriving DecidableEq

/-- What a frame's stream id refers to. -/
inductive Lookup
  | live (s : Stream)
  | closed
  | idle
deriving DecidableEq

structure StreamTable where
  live : FinMap StreamId Stream
  /-- Highest peer-initiated id seen. -/
  highestPeerId : StreamId
  /-- Highest id we opened. -/
  highestLocalId : StreamId
  maxConcurrent : Nat
  initialSendWindow : Int
  initialRecvWindow : Int
  /-- Connection-level receive credit owed back by retired streams. -/
  reclaimed : Nat

namespace StreamTable

def new (maxConcurrent : Nat) (initialSendWindow initialRecvWindow : Int) : StreamTable :=
  ⟨∅, .connection, .connection, maxConcurrent, initialSendWindow, initialRecvWindow, 0⟩

def liveCount (t : StreamTable) : Nat := t.live.entries.length

def get? (t : StreamTable) (id : StreamId) : Option Stream := t.live.lookup id

/-- Whether the id is at or below the highest either side has used. -/
def seen (t : StreamTable) (id : StreamId) : Bool := id ≤ t.highestPeerId.max t.highestLocalId

def canOpenLocal (t : StreamTable) : Bool :=
  t.liveCount < t.maxConcurrent && t.highestLocalId.get < maxLocalStreamId

/-- Put a fresh stream in the table. -/
def insertNew (t : StreamTable) (id : StreamId) : StreamTable :=
  { t with live := t.live.insert id (.new t.initialSendWindow t.initialRecvWindow) }

/-- Admit a new peer-initiated stream. A refused id is noted as seen. -/
def openPeer (t : StreamTable) (id : StreamId) : StreamTable × Except OpenRejection Unit :=
  if !id.isClientInitiated then
    (t, .error (.protocol "a client may only open odd-numbered streams"))
  else if id ≤ t.highestPeerId then
    (t, .error (.protocol "stream ids must strictly increase"))
  else if t.liveCount ≥ t.maxConcurrent then
    ({ t with highestPeerId := id }, .error .refused)
  else
    ({ t with highestPeerId := id }.insertNew id, .ok ())

/-- Admit a stream we are opening. -/
def openLocal (t : StreamTable) (id : StreamId) : StreamTable × Except OpenRejection Unit :=
  if !id.isClientInitiated then
    (t, .error (.protocol "a client may only open odd-numbered streams"))
  else if id ≤ t.highestLocalId then
    (t, .error (.protocol "stream ids must strictly increase"))
  else if t.liveCount ≥ t.maxConcurrent then
    (t, .error .refused)
  else
    ({ t with highestLocalId := id }.insertNew id, .ok ())

/-- Resolve a frame's stream id against the table. -/
def lookup (t : StreamTable) (id : StreamId) : Lookup :=
  match t.get? id with
  | some s => .live s
  | none => if t.seen id then .closed else .idle

/-- Change a live stream in place. -/
def modify (t : StreamTable) (id : StreamId) (f : Stream → Stream) : StreamTable :=
  { t with live := t.live.modify id f }

/-- Drop a finished stream, keeping the connection credit it held. -/
def retire (t : StreamTable) (id : StreamId) : StreamTable :=
  match t.get? id with
  | some s =>
    { t with live := t.live.erase id, reclaimed := satAdd32 t.reclaimed s.pendingConnRelease }
  | none => t

/-- Apply an event to a stream, retiring it if it closes. -/
def apply (t : StreamTable) (id : StreamId) (event : StreamEvent) :
    StreamTable × Except StreamError StreamState :=
  match t.get? id with
  | none => (t, .error ⟨id, if t.seen id then .streamClosed else .protocolError⟩)
  | some s =>
    match s.state.transition event with
    | .error code => (t, .error ⟨id, code⟩)
    | .ok next =>
      let t := t.modify id ({ · with state := next })
      (if next.isClosed then t.retire id else t, .ok next)

/-- The retroactive change of the peer's `INITIAL_WINDOW_SIZE`. -/
def applyInitialWindowDelta (t : StreamTable) (delta : Int) : StreamTable × Except ErrorCode Unit :=
  let initial := max (-(2 ^ 31)) (min maxWindowSize (t.initialSendWindow + delta))
  let (live, failure) := t.live.updateAll fun s =>
    (s.sendWindow.applyDelta delta).map fun w => { s with sendWindow := w }
  ({ t with live, initialSendWindow := initial },
    match failure with
    | some code => .error code
    | none => .ok ())

/-! ### Lookups -/

theorem get?_insertNew (t : StreamTable) (id id' : StreamId) :
    (t.insertNew id).get? id' =
      if id' = id then some (.new t.initialSendWindow t.initialRecvWindow) else t.get? id' :=
  AList.lookup_insert_eq t.live id id' _

theorem get?_modify (t : StreamTable) (id id' : StreamId) (f : Stream → Stream) :
    (t.modify id f).get? id' = if id' = id then (t.get? id).map f else t.get? id' :=
  AList.lookup_modify t.live id id' f

theorem modify_modify (t : StreamTable) (id : StreamId) (f g : Stream → Stream) :
    (t.modify id f).modify id g = t.modify id fun s => g (f s) := by
  unfold modify
  simp only [AList.modify_modify]

theorem get?_retire (t : StreamTable) (id id' : StreamId) :
    (t.retire id).get? id' = if id' = id then none else t.get? id' := by
  unfold retire
  cases h : t.get? id with
  | some s => exact AList.lookup_erase_eq t.live id id'
  | none =>
    dsimp only
    split
    · rename_i heq
      rw [heq, h]
    · rfl

theorem retire_of_none {t : StreamTable} {id : StreamId} (h : t.get? id = none) :
    t.retire id = t := by
  unfold retire
  rw [h]

theorem modify_of_none {t : StreamTable} {id : StreamId} (f : Stream → Stream)
    (h : t.get? id = none) : t.modify id f = t := by
  unfold modify
  rw [AList.modify_of_none f h]

theorem modify_congr {t : StreamTable} {id : StreamId} {f g : Stream → Stream}
    (h : ∀ s, t.get? id = some s → f s = g s) : t.modify id f = t.modify id g :=
  congrArg (fun live => { t with live }) (AList.modify_congr h)

theorem lookup_live {t : StreamTable} {id : StreamId} {s : Stream} :
    t.lookup id = .live s ↔ t.get? id = some s := by
  unfold lookup
  cases t.get? id with
  | some s' => simp
  | none =>
    dsimp only
    split <;> simp

theorem lookup_closed {t : StreamTable} {id : StreamId} (h : t.lookup id = .closed) :
    t.get? id = none ∧ t.seen id = true := by
  unfold lookup at h
  cases hs : t.get? id with
  | some s' => rw [hs] at h; cases h
  | none =>
    rw [hs] at h
    dsimp only at h
    split at h
    · exact ⟨rfl, by assumption⟩
    · cases h

theorem lookup_idle {t : StreamTable} {id : StreamId} (h : t.lookup id = .idle) :
    t.get? id = none ∧ t.seen id = false := by
  unfold lookup at h
  cases hs : t.get? id with
  | some s' => rw [hs] at h; cases h
  | none =>
    rw [hs] at h
    dsimp only at h
    split at h
    · cases h
    · rename_i hn
      exact ⟨rfl, by simpa using hn⟩

/-- An event changes the state of its stream, or takes it out of the table. -/
theorem get?_apply (t : StreamTable) (id id' : StreamId) (event : StreamEvent) :
    (t.apply id event).1.get? id' =
      if id' = id then
        (t.get? id).bind fun s =>
          match s.state.transition event with
          | .error _ => some s
          | .ok next => if next.isClosed then none else some { s with state := next }
      else t.get? id' := by
  unfold apply
  cases hs : t.get? id with
  | none =>
    dsimp only [Option.bind_none]
    split
    · rename_i heq
      rw [heq, hs]
    · rfl
  | some s =>
    dsimp only [Option.bind_some]
    cases s.state.transition event with
    | error code =>
      dsimp only
      split
      · rename_i heq
        rw [heq, hs]
      · rfl
    | ok next =>
      dsimp only
      by_cases closed : next.isClosed = true
      · rw [if_pos closed, if_pos closed, get?_retire, get?_modify]
        split <;> rfl
      · rw [if_neg closed, if_neg closed, get?_modify, hs]
        rfl

theorem get?_apply_ne (t : StreamTable) (event : StreamEvent) {id on : StreamId} (other : id ≠ on) :
    (t.apply on event).1.get? id = t.get? id := by
  rw [get?_apply, if_neg other]

/-- An illegal event leaves the table as it is. -/
theorem apply_error {t : StreamTable} {id : StreamId} {event : StreamEvent} {e : StreamError}
    (h : (t.apply id event).2 = .error e) : (t.apply id event).1 = t := by
  unfold apply at *
  cases hs : t.get? id with
  | none => rfl
  | some s =>
    rw [hs] at h
    dsimp only at *
    cases ht : s.state.transition event with
    | error code => rfl
    | ok next => rw [ht] at h; cases h

theorem retire_top (t : StreamTable) (id : StreamId) :
    (t.retire id).highestPeerId = t.highestPeerId := by
  unfold retire
  split <;> rfl

theorem apply_top (t : StreamTable) (id : StreamId) (event : StreamEvent) :
    (t.apply id event).1.highestPeerId = t.highestPeerId := by
  unfold apply
  split
  · rfl
  split
  · rfl
  dsimp only
  split
  · exact retire_top _ _
  · rfl

theorem retire_highestLocalId (t : StreamTable) (id : StreamId) :
    (t.retire id).highestLocalId = t.highestLocalId := by
  unfold retire
  split <;> rfl

theorem apply_highestLocalId (t : StreamTable) (id : StreamId) (event : StreamEvent) :
    (t.apply id event).1.highestLocalId = t.highestLocalId := by
  unfold apply
  split
  · rfl
  split
  · rfl
  dsimp only
  split
  · exact retire_highestLocalId _ _
  · rfl

theorem retire_maxConcurrent (t : StreamTable) (id : StreamId) :
    (t.retire id).maxConcurrent = t.maxConcurrent := by
  unfold retire
  split <;> rfl

theorem apply_maxConcurrent (t : StreamTable) (id : StreamId) (event : StreamEvent) :
    (t.apply id event).1.maxConcurrent = t.maxConcurrent := by
  unfold apply
  split
  · rfl
  split
  · rfl
  dsimp only
  split
  · exact retire_maxConcurrent _ _
  · rfl

theorem canOpenLocal_modify (t : StreamTable) (id : StreamId) (f : Stream → Stream) :
    (t.modify id f).canOpenLocal = t.canOpenLocal := by
  unfold canOpenLocal liveCount modify
  rw [AList.length_modify]

/-- An event that closes nothing leaves as much room as there was. -/
theorem canOpenLocal_apply {t : StreamTable} {id : StreamId} {event : StreamEvent}
    {next : StreamState} (h : (t.apply id event).2 = .ok next) (hopen : next.isClosed = false) :
    (t.apply id event).1.canOpenLocal = t.canOpenLocal := by
  unfold apply at *
  cases hs : t.get? id with
  | none => rfl
  | some s =>
    rw [hs] at h
    dsimp only at *
    cases ht : s.state.transition event with
    | error code => rfl
    | ok next' =>
      rw [ht] at h
      obtain rfl : next' = next := Except.ok.inj h
      dsimp only
      rw [if_neg (by rw [hopen]; exact Bool.false_ne_true), canOpenLocal_modify]

/-- A stream that closes is no longer live. -/
theorem apply_closed {t : StreamTable} {id : StreamId} {event : StreamEvent} {next : StreamState}
    (h : (t.apply id event).2 = .ok next) (closed : next.isClosed) :
    (t.apply id event).1.get? id = none := by
  unfold apply at *
  cases hs : t.get? id with
  | none => rw [hs] at h; cases h
  | some s =>
    rw [hs] at h
    dsimp only at *
    cases ht : s.state.transition event with
    | error code => rw [ht] at h; cases h
    | ok next' =>
      rw [ht] at h
      cases h
      dsimp only
      rw [if_pos closed, get?_retire, if_pos rfl]

/-- An id we may not open leaves the table as it is. -/
theorem openLocal_error {t : StreamTable} {id : StreamId} {e : OpenRejection}
    (h : (t.openLocal id).2 = .error e) : (t.openLocal id).1 = t := by
  unfold openLocal at *
  split at h
  · rw [if_pos (by assumption)]
  split at h
  · rw [if_neg (by assumption), if_pos (by assumption)]
  split at h
  · rw [if_neg (by assumption), if_neg (by assumption), if_pos (by assumption)]
  · cases h

theorem openLocal_ok {t : StreamTable} {id : StreamId} (h : (t.openLocal id).2 = .ok ()) :
    id.isClientInitiated = true ∧ ¬ id ≤ t.highestLocalId ∧ t.liveCount < t.maxConcurrent ∧
      (t.openLocal id).1 = { t with highestLocalId := id }.insertNew id := by
  unfold openLocal at *
  split at h
  · cases h
  split at h
  · cases h
  split at h
  · cases h
  · rename_i hodd hle hroom
    refine ⟨by simpa using hodd, hle, by omega, ?_⟩
    rw [if_neg hodd, if_neg hle, if_neg hroom]

/-- Everything an attempt of the peer to open a stream can come to. -/
theorem openPeer_cases (t : StreamTable) (id : StreamId) :
    (∃ why : String, why.length ≤ 60 ∧ t.openPeer id = (t, .error (.protocol why))) ∨
      id.isClientInitiated = true ∧ ¬ id ≤ t.highestPeerId ∧
        (t.openPeer id = ({ t with highestPeerId := id }, .error .refused) ∨
          t.openPeer id = ({ t with highestPeerId := id }.insertNew id, .ok ())) := by
  unfold openPeer
  by_cases hodd : id.isClientInitiated = true
  · by_cases hle : id ≤ t.highestPeerId
    · refine Or.inl ⟨"stream ids must strictly increase", by decide, ?_⟩
      rw [if_neg (by simp [hodd]), if_pos hle]
    · refine Or.inr ⟨hodd, hle, ?_⟩
      rw [if_neg (by simp [hodd]), if_neg hle]
      by_cases hroom : t.liveCount ≥ t.maxConcurrent
      · exact Or.inl (if_pos hroom)
      · exact Or.inr (if_neg hroom)
  · refine Or.inl ⟨"a client may only open odd-numbered streams", by decide, ?_⟩
    exact if_pos (by simp [hodd])

theorem openPeer_ok {t : StreamTable} {id : StreamId} (h : (t.openPeer id).2 = .ok ()) :
    id.isClientInitiated = true ∧ ¬ id ≤ t.highestPeerId ∧
      (t.openPeer id).1 = { t with highestPeerId := id }.insertNew id := by
  obtain ⟨why, -, hc⟩ | ⟨hodd, hle, hc | hc⟩ := t.openPeer_cases id
  · rw [hc] at h; cases h
  · rw [hc] at h; cases h
  · exact ⟨hodd, hle, congrArg Prod.fst hc⟩

theorem openPeer_refused {t : StreamTable} {id : StreamId}
    (h : (t.openPeer id).2 = .error .refused) :
    id.isClientInitiated = true ∧ ¬ id ≤ t.highestPeerId ∧
      (t.openPeer id).1 = { t with highestPeerId := id } := by
  obtain ⟨why, -, hc⟩ | ⟨hodd, hle, hc | hc⟩ := t.openPeer_cases id
  · rw [hc] at h; cases h
  · exact ⟨hodd, hle, congrArg Prod.fst hc⟩
  · rw [hc] at h; cases h

/-- A stream is refused only where the table is full. -/
theorem openPeer_full {t : StreamTable} {id : StreamId}
    (h : (t.openPeer id).2 = .error .refused) : t.maxConcurrent ≤ t.liveCount := by
  unfold openPeer at h
  repeat' split at h
  · cases h
  · cases h
  · assumption
  · cases h

theorem openPeer_protocol {t : StreamTable} {id : StreamId} {why : String}
    (h : (t.openPeer id).2 = .error (.protocol why)) :
    (t.openPeer id).1 = t ∧ why.length ≤ 60 := by
  obtain ⟨why', hw, hc⟩ | ⟨hodd, hle, hc | hc⟩ := t.openPeer_cases id
  · rw [hc] at h
    cases h
    exact ⟨congrArg Prod.fst hc, hw⟩
  · rw [hc] at h; cases h
  · rw [hc] at h; cases h

end StreamTable

end H2Proxy
