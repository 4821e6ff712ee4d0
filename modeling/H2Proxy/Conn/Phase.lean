import H2Proxy.Conn.Steps
import H2Proxy.Grammar

/-
  What a client sees of its responses.

  `replies` accepts the frames of a legal response: one HEADERS with a status, DATA, and an
  ending that only a reset may follow. `tellings` accepts the events of a responder that
  keeps to the grammar. `Phase` ties the two to the state of a live stream, and is kept by
  every move as long as a status is only ever asked of a stream that has none
  (`unanswered`); a second header block past its limit, or a reset sent before the stream
  was opened, are the ways to break that.
-/

namespace H2Proxy

/-! ## Replies -/

/-- One frame of a response; WINDOW_UPDATE is none. -/
inductive Reply
  | headers (status endStream : Bool)
  | data (endStream : Bool)
  | rst
deriving DecidableEq

/-- How far a response has come on the wire. -/
inductive Progress
  | silent | headed | ended | reset
deriving DecidableEq

def Progress.next : Progress → Reply → Option Progress
  | _, .rst => some .reset
  | .silent, .headers true endStream => some (if endStream then .ended else .headed)
  | .headed, .headers false true => some .ended
  | .headed, .data endStream => some (if endStream then .ended else .headed)
  | _, _ => none

def replies : Monitor Reply Progress := ⟨.silent, Progress.next⟩

def carriesStatus (fields : List Header) : Bool := fields.any (·.name = ascii ":status")

/-- The reply a frame is, with the fields of its block. -/
def Frame.reply? (fields : List Header) : Frame → Option Reply
  | .headers _ _ endStream _ => some (.headers (carriesStatus fields) endStream)
  | .data _ _ endStream => some (.data endStream)
  | .rstStream .. => some .rst
  | _ => none

/-- What a responder is asked and what it answers. -/
inductive Word
  | dispatched
  | told (event : ServiceEvent)

def tellings : Monitor Word Telling where
  start := .unknown
  next
    | .unknown, .dispatched => some .due
    | _, .dispatched => none
    | g, .told event => g.hear event

namespace ConnObs

variable {μ : Type} (id : StreamId)

/-- The reply on stream `id` that an entry of the log is. -/
def reply? : ConnObs μ → Option Reply
  | queued frame fields _ => if frame.streamId = id then frame.reply? fields else none
  | _ => none

/-- The word about stream `id` that an entry of the log is. -/
def word? : ConnObs μ → Option Word
  | called (.dispatch id' ..) => if id' = id then some .dispatched else none
  | handled event => if event.id = id then some (.told event) else none
  | _ => none

/-- An entry that is neither. -/
structure Mute (o : ConnObs μ) : Prop where
  reply : o.reply? id = none
  word : o.word? id = none

variable {id}

theorem Mute.queued {f : Frame} {fields : List Header} {limit : Nat}
    (h : f.streamId ≠ id ∨ f.reply? fields = none) :
    (queued f fields limit : ConnObs μ).Mute id := by
  refine ⟨?_, rfl⟩
  show (if f.streamId = id then f.reply? fields else none) = none
  split
  · rename_i heq
    exact h.resolve_left fun hn => hn heq
  · rfl

theorem Mute.handled {e : ServiceEvent} (h : e.id ≠ id) : (handled e : ConnObs μ).Mute id :=
  ⟨rfl, if_neg h⟩

theorem Neutral.mute {o : ConnObs μ} (h : o.Neutral) : o.Mute id := by
  cases h with
  | heard => exact ⟨rfl, rfl⟩
  | encoded => exact ⟨rfl, rfl⟩
  | @queued f _ fits kind =>
    refine .queued (.inr ?_)
    cases f with
    | headers | data | rstStream => obtain h | h := kind <;> cases h
    | _ => rfl

end ConnObs

/-! ## Asking for a status -/

section Ask

variable {σ μ : Type}

/-- Neither a status nor a reset was sent for the stream. -/
def ConnCore.Unanswered (id : StreamId) (c : ConnCore σ μ) : Prop :=
  (∀ o ∈ c.log, o.reply? id ≠ some .rst) ∧ (c.streams.get? id).all (!·.responseStarted)

instance (id : StreamId) (c : ConnCore σ μ) : Decidable (c.Unanswered id) :=
  inferInstanceAs (Decidable (_ ∧ _ = true))

/-- Whether an event asks for a status: a head of a live stream, or a refusal of one whose
    response has not started. -/
def ConnCore.asksStatus (c : ConnCore σ μ) : ServiceEvent → Bool
  | .head id .. => (c.streams.get? id).isSome
  | .gone id | .shed id => (c.streams.get? id).any (!·.responseStarted)
  | _ => false

/-- Whether a header list past its limit is answered: its stream is live, or can be opened. -/
def ConnCore.answers431 (c : ConnCore σ μ) (id : StreamId) : Bool :=
  (c.streams.get? id).isSome || (c.streams.openPeer id).2 = .ok ()

/-- The responder keeps to the grammar of events. -/
def obeying : Permit σ μ where
  event c e := tellings.Accepts (ConnObs.word? e.id) (c.observe (.handled e)).log

instance (c : ConnCore σ μ) (e : ServiceEvent) :
    Decidable ((obeying : Permit σ μ).event c e) :=
  inferInstanceAs (Decidable (tellings.Accepts (ConnObs.word? e.id) (c.observe (.handled e)).log))

instance : ∀ c w, Decidable ((obeying : Permit σ μ).frame c w) := fun _ _ => .isTrue trivial
instance : ∀ c id endStream r, Decidable ((obeying : Permit σ μ).block c id endStream r) :=
  fun _ _ _ _ => .isTrue trivial
instance : ∀ c id turn, Decidable ((obeying : Permit σ μ).turn c id turn) :=
  fun _ _ _ => .isTrue trivial

/-- A status is asked of no stream that has sent one, or was reset. -/
def unanswered : Permit σ μ where
  event c e := c.asksStatus e → c.Unanswered e.id
  block c id _ r := (∃ size limit, r = .error (.headerListTooLarge size limit)) →
    c.answers431 id → c.Unanswered id

instance : ∀ c w, Decidable ((unanswered : Permit σ μ).frame c w) := fun _ _ => .isTrue trivial
instance : ∀ c id turn, Decidable ((unanswered : Permit σ μ).turn c id turn) :=
  fun _ _ _ => .isTrue trivial

instance (c : ConnCore σ μ) (e : ServiceEvent) :
    Decidable ((unanswered : Permit σ μ).event c e) :=
  inferInstanceAs (Decidable (c.asksStatus e → c.Unanswered e.id))

instance (c : ConnCore σ μ) (id : StreamId) (endStream : Bool) :
    (r : Except HpackError (List Header)) → Decidable ((unanswered : Permit σ μ).block c id endStream r)
  | .error (.headerListTooLarge size limit) =>
    decidable_of_iff (c.answers431 id → c.Unanswered id)
      ⟨fun h _ => h, fun h => h ⟨size, limit, rfl⟩⟩
  | .error (.compression _) | .ok _ => .isTrue nofun

end Ask

/-! ## Where a stream stands -/

/-- The stream after an event of the state machine, where it stays live. -/
def Stream.settled (st : Stream) (event : StreamEvent) : Option Stream :=
  match st.state.transition event with
  | .ok next => if next.isClosed then none else some { st with state := next }
  | .error code => if code = .protocolError then some st else none

/-- Nothing waits to be sent. -/
structure Stream.Still (st : Stream) : Prop where
  body : st.sendQueue.flatten = []
  endStream : st.sendEndStream = false
  trailers : st.pendingTrailers = none

/-- What was sent and told of a stream that was opened, and what is left of it. -/
inductive Phase : Progress → Telling → Option Stream → Prop
  | gone (a : Progress) (g : Telling) : Phase a g none
  | quiet {a : Progress} {g : Telling} {st : Stream} (state : st.state.weCanSend)
    (started : st.responseStarted = false) (still : st.Still) (silent : a = .silent ∨ a = .reset)
    (untold : g = .unknown ∨ g = .due) : Phase a g (some st)
  | flowing {st : Stream} (state : st.state.weCanSend) (started : st.responseStarted)
    (endStream : st.sendEndStream = false) (trailers : st.pendingTrailers = none) :
    Phase .headed .body (some st)
  | ending {st : Stream} (state : st.state.weCanSend) (started : st.responseStarted)
    (endStream : st.sendEndStream) : Phase .headed .done (some st)
  | spent {g : Telling} {st : Stream} (state : st.state = .halfClosedLocal)
    (started : st.responseStarted) (still : st.Still) (told : g ≠ .body) : Phase .ended g (some st)

/-- What was sent and told on `id`, and what is live of it. -/
structure ConnCore.Stands {σ μ : Type} (c : ConnCore σ μ) (id : StreamId) (a : Progress) (g : Telling)
    (st : Option Stream) : Prop where
  replied : replies.watch (ConnObs.reply? id) c.log = some a
  told : tellings.watch (ConnObs.word? id) c.log = some g
  live : c.streams.get? id = st

/-- Every stream is in its phase, and an id that was never opened has at most been reset. -/
def ConnCore.Orderly {σ μ : Type} (c : ConnCore σ μ) (id : StreamId) : Prop :=
  ∃ a g st, c.Stands id a g st ∧
    (id ≤ c.streams.highestPeerId ∧ Phase a g st ∨
      ¬ id ≤ c.streams.highestPeerId ∧ st = none ∧ (a = .silent ∨ a = .reset) ∧ g = .unknown)

namespace Phase

variable {a : Progress} {g : Telling} {st : Stream}

theorem started (h : Phase a g (some st)) (hs : st.responseStarted = false) :
    st.state.weCanSend ∧ st.Still ∧ (a = .silent ∨ a = .reset) ∧ (g = .unknown ∨ g = .due) := by
  cases h with
  | quiet state started still silent untold => exact ⟨state, still, silent, untold⟩
  | flowing _ started | ending _ started | spent _ started => rw [hs] at started; cases started

/-- A stream with something left to send has sent its head. -/
theorem busy (h : Phase a g (some st)) (busy : ¬ st.Still) :
    a = .headed ∧ st.state.weCanSend ∧ st.responseStarted := by
  cases h with
  | quiet _ _ still | spent _ _ still => exact absurd still busy
  | flowing state started | ending state started => exact ⟨rfl, state, started⟩

theorem body (h : Phase a .body (some st)) :
    a = .headed ∧ st.state.weCanSend ∧ st.responseStarted ∧ st.sendEndStream = false ∧
      st.pendingTrailers = none := by
  cases h with
  | quiet _ _ _ _ untold => obtain h | h := untold <;> cases h
  | flowing state started endStream trailers => exact ⟨rfl, state, started, endStream, trailers⟩
  | spent _ _ _ told => exact absurd rfl told

/-- A stream that differs in nothing a phase speaks of. -/
theorem same {st' : Stream} (h : Phase a g (some st)) (state : st'.state = st.state)
    (queue : st'.sendQueue.flatten = st.sendQueue.flatten)
    (endStream : st'.sendEndStream = st.sendEndStream)
    (trailers : st'.pendingTrailers = st.pendingTrailers)
    (started : st'.responseStarted = st.responseStarted) : Phase a g (some st') := by
  have hstill : st.Still → st'.Still := fun s =>
    ⟨queue ▸ s.body, endStream ▸ s.endStream, trailers ▸ s.trailers⟩
  cases h with
  | quiet hs hr still silent untold =>
    exact .quiet (state ▸ hs) (started ▸ hr) (hstill still) silent untold
  | flowing hs hr he ht => exact .flowing (state ▸ hs) (started ▸ hr) (endStream ▸ he) (trailers ▸ ht)
  | ending hs hr he => exact .ending (state ▸ hs) (started ▸ hr) (endStream ▸ he)
  | spent hs hr still told => exact .spent (state.trans hs) (started ▸ hr) (hstill still) told

/-- A turn that takes no ending leaves the endings asked for. -/
theorem rested (h : Phase a g (some st)) {budget : Nat} (sendWindow : Window)
    (endStream : (st.turn budget).endStream = false) (trailers : (st.turn budget).trailers = none) :
    Phase a g (some { (st.turn budget).rest with sendWindow }) := by
  obtain ⟨hend, htrailers⟩ := st.turn_keeps budget endStream trailers
  have hstill : st.Still → ({ (st.turn budget).rest with sendWindow } : Stream).Still := by
    intro still
    have hbody := still.body
    rw [st.turn_octets budget, List.append_eq_nil_iff] at hbody
    exact ⟨hbody.2, hend.trans still.endStream, htrailers.trans still.trailers⟩
  cases h with
  | quiet state started still silent untold => exact .quiet state started (hstill still) silent untold
  | flowing state started he ht => exact .flowing state started (hend.trans he) (htrailers.trans ht)
  | ending state started he => exact .ending state started (hend.trans he)
  | spent state started still told => exact .spent state started (hstill still) told

/-- What the peer sends moves only the half of the stream that is its own. -/
theorem advanced (h : Phase a g (some st)) {event : StreamEvent}
    (recv : ∃ es, event = .recvData es ∨ event = .recvHeaders es) :
    Phase a g (st.settled event) := by
  have hopen : st.state.weCanSend →
      (∃ next : StreamState, next.weCanSend ∧ st.settled event = some { st with state := next }) ∨
        st.settled event = none := by
    intro state
    unfold Stream.settled
    obtain hst | hst := StreamState.weCanSend_cases state <;> rw [hst] <;>
      obtain ⟨es, rfl | rfl⟩ := recv <;> cases es <;> first
        | exact .inl ⟨_, rfl, rfl⟩
        | exact .inr rfl
  cases h with
  | quiet state started still silent untold =>
    obtain ⟨next, hnext, heq⟩ | heq := hopen state <;> rw [heq]
    · exact .quiet hnext started ⟨still.body, still.endStream, still.trailers⟩ silent untold
    · exact .gone _ _
  | flowing state started endStream trailers =>
    obtain ⟨next, hnext, heq⟩ | heq := hopen state <;> rw [heq]
    · exact .flowing hnext started endStream trailers
    · exact .gone _ _
  | ending state started endStream =>
    obtain ⟨next, hnext, heq⟩ | heq := hopen state <;> rw [heq]
    · exact .ending hnext started endStream
    · exact .gone _ _
  | spent state started still told =>
    unfold Stream.settled
    rw [state]
    obtain ⟨es, rfl | rfl⟩ := recv <;> cases es
    · exact .spent rfl started ⟨still.body, still.endStream, still.trailers⟩ told
    · exact .gone _ _
    · exact .spent rfl started ⟨still.body, still.endStream, still.trailers⟩ told
    · exact .gone _ _

end Phase

namespace Stream

/-- Sending more on a stream we can send on leaves its state as it is. -/
theorem settled_more {st : Stream} (state : st.state.weCanSend) {event : StreamEvent}
    (more : event = .sendHeaders false ∨ event = .sendData false) :
    st.settled event = some st := by
  have stays : st.state.transition event = .ok st.state := by
    obtain hst | hst := StreamState.weCanSend_cases state <;> obtain rfl | rfl := more <;>
      rw [hst] <;> rfl
  unfold settled
  rw [stays]
  exact if_neg (by obtain hst | hst := StreamState.weCanSend_cases state <;> rw [hst] <;> nofun)

/-- END_STREAM leaves the stream half closed, or closes it. -/
theorem settled_end {st : Stream} (state : st.state.weCanSend) {event : StreamEvent}
    (last : event = .sendHeaders true ∨ event = .sendData true) :
    st.settled event = some { st with state := .halfClosedLocal } ∨ st.settled event = none := by
  unfold settled
  obtain hst | hst := StreamState.weCanSend_cases state <;> obtain rfl | rfl := last <;> rw [hst]
  · exact .inl rfl
  · exact .inl rfl
  · exact .inr rfl
  · exact .inr rfl

end Stream

end H2Proxy
