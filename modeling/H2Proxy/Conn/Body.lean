import H2Proxy.Conn.Tidy
import H2Proxy.Validation

/-
  The length of a request's body.

  `bodies` reads what is heard of a request's DATA and what the responder is told, and is
  stuck where the responder is told of an end at another length than the request declared.
  The engine counts the octets on the stream and compares them with the first declared length
  (`Counted`); where all fields that declare one spell the same number, the responder is told
  of no other end (`bodies_agree`).
-/

namespace H2Proxy

/-! ## Declared lengths -/

/-- Every `content-length` of the request is this number, in digits. -/
def RequestHead.Declares (head : RequestHead) (n : Nat) : Prop :=
  ∀ f ∈ head.fields, f.name = ascii "content-length" →
    f.value ≠ [] ∧ (∀ b ∈ f.value, isAsciiDigit b) ∧ numeral f.value = n

instance (head : RequestHead) (n : Nat) : Decidable (head.Declares n) :=
  inferInstanceAs (Decidable (∀ f ∈ head.fields, _))

/-- Where the first `content-length` is read as a number, all of them are that number, in
    digits; and it is not the one at which the count of octets saturates. -/
def RequestHead.Spelled (head : RequestHead) : Prop :=
  match (value? (ascii "content-length") head.fields).bind (parseUint u64Max) with
  | some n => n < u64Max ∧ head.Declares n
  | none => True

instance (head : RequestHead) : Decidable head.Spelled := by
  unfold RequestHead.Spelled
  split <;> infer_instance

namespace RequestHead

variable {head : RequestHead} {n : Nat}

theorem contentLength_none (none_declared : head.contentLength = none) (n : Nat) : head.Declares n := by
  intro f hmem named
  have absent := List.find?_eq_none.mp (Option.map_eq_none_iff.mp none_declared) f hmem
  exact absurd (decide_eq_true named) absent

theorem Spelled.declares (spelled : head.Spelled) (read : head.contentLength = some (.ok n)) :
    n < u64Max ∧ head.Declares n := by
  obtain ⟨f, found, parsed⟩ := Option.map_eq_some_iff.mp read
  have value : value? (ascii "content-length") head.fields = some f.value := by
    unfold value?
    rw [found]
    rfl
  have number : parseUint u64Max f.value = some n := by
    cases h : parseUint (2 ^ 64 - 1) f.value with
    | none => rw [h] at parsed; cases parsed
    | some m => rw [h] at parsed; cases parsed; exact h
  unfold Spelled at spelled
  rw [value, Option.bind_some, number] at spelled
  exact spelled

end RequestHead

/-! ## What is heard and told -/

/-- A part of a request: its head, some octets of its body, its end. -/
inductive Portion
  | asked (head : RequestHead) (endStream : Bool)
  | heard (n : Nat)
  | ended

/-- The head of a request and how much of its body has come. -/
structure Reading where
  head : Option RequestHead
  octets : Nat

/-- The body that has come has the length the request declared. -/
def Reading.Whole (r : Reading) : Prop := ∀ head ∈ r.head, head.Declares r.octets

instance (r : Reading) : Decidable r.Whole := inferInstanceAs (Decidable (∀ head ∈ r.head, _))

def Reading.next (r : Reading) : Portion → Option Reading
  | .asked head endStream =>
    if endStream → (Reading.mk (some head) r.octets).Whole then some ⟨some head, r.octets⟩ else none
  | .heard n => some ⟨r.head, r.octets + n⟩
  | .ended => if r.Whole then some r else none

def bodies : Monitor Portion Reading := ⟨⟨none, 0⟩, Reading.next⟩

/-- The part of the request on stream `id` that an entry of the log is. -/
def ConnObs.portion? {μ : Type} (id : StreamId) : ConnObs μ → Option Portion
  | .heard w =>
    match w.data? with
    | some (id', data, _) => if id' = id then some (.heard data.length) else none
    | none => none
  | .called (.dispatch id' head endStream) => if id' = id then some (.asked head endStream) else none
  | .called (.body id' _ true) | .called (.trailers id' _) => if id' = id then some .ended else none
  | _ => none

theorem ConnObs.portion?_heard {μ : Type} (id : StreamId) (w : WireFrame) :
    (heard w : ConnObs μ).portion? id =
      match w.data? with
      | some (id', data, _) => if id' = id then some (.heard data.length) else none
      | none => none := rfl

/-- The responder was told of no end of the request but at the declared length. -/
def ConnCore.Agrees {σ μ : Type} (id : StreamId) (c : ConnCore σ μ) : Prop :=
  bodies.Accepts (ConnObs.portion? id) c.log

instance {σ μ : Type} (id : StreamId) (c : ConnCore σ μ) : Decidable (c.Agrees id) :=
  inferInstanceAs (Decidable (bodies.Accepts (ConnObs.portion? id) c.log))

/-! ## What leaves a body alone -/

variable {σ μ : Type} {id : StreamId}

/-- Nothing of the request on `id` was heard or told, and its counts stay; a stream may be new. -/
structure ConnCore.Passes (id : StreamId) (c c' : ConnCore σ μ) : Prop where
  top : c.streams.highestPeerId ≤ c'.streams.highestPeerId
  live : ∀ st', c'.streams.get? id = some st' →
    (∃ st, c.streams.get? id = some st ∧ st'.dataReceived = st.dataReceived ∧
      st'.contentLength = st.contentLength) ∨
    ¬ id ≤ c.streams.highestPeerId ∧ st'.dataReceived = 0 ∧ st'.contentLength = none
  log : ∃ added, c'.log = c.log ++ added ∧ ∀ o ∈ added, o.portion? id = none

namespace ConnCore.Passes

variable {a c c' : ConnCore σ μ}

theorem refl (id : StreamId) (c : ConnCore σ μ) : c.Passes id c :=
  ⟨Nat.le_refl _, fun st' live => .inl ⟨st', live, rfl, rfl⟩, [], (List.append_nil _).symm, nofun⟩

theorem trans (h : a.Passes id c) (h' : c.Passes id c') : a.Passes id c' := by
  obtain ⟨added, hlog, silent⟩ := h.log
  obtain ⟨added', hlog', silent'⟩ := h'.log
  refine ⟨Nat.le_trans h.top h'.top, fun st'' live => ?_, added ++ added', ?_, ?_⟩
  · obtain ⟨st', live', received, declared⟩ | ⟨unseen, new⟩ := h'.live st'' live
    · rw [received, declared]
      exact h.live st' live'
    · exact .inr ⟨fun seen => unseen (Nat.le_trans seen h.top), new⟩
  · rw [hlog', hlog, List.append_assoc]
  · exact fun o ho => (List.mem_append.mp ho).elim (silent o) (silent' o)

/-- The table stays, up to what it says of no stream. -/
theorem aside (h : a.Passes id c) (live : c'.streams.live = c.streams.live)
    (top : c'.streams.highestPeerId = c.streams.highestPeerId) (added : List (ConnObs μ))
    (log : c'.log = c.log ++ added) (silent : ∀ o ∈ added, o.portion? id = none) :
    a.Passes id c' := by
  refine h.trans ⟨Nat.le_of_eq (congrArg _ top.symm), fun st' hst => ?_, added, log, silent⟩
  unfold StreamTable.get? at hst
  rw [live] at hst
  exact .inl ⟨st', hst, rfl, rfl⟩

theorem observe (h : a.Passes id c) {o : ConnObs μ} (silent : o.portion? id = none) :
    a.Passes id (c.observe o) :=
  h.aside rfl rfl [o] rfl (by simpa using silent)

theorem call (h : a.Passes id c) {call : Call} (r : σ × List (Effect μ))
    (silent : (ConnObs.called call : ConnObs μ).portion? id = none) :
    a.Passes id (c.call call r) := by
  refine h.aside rfl rfl _ rfl fun o ho => ?_
  obtain rfl | ho := List.mem_cons.mp ho
  · exact silent
  · obtain ⟨x, -, hx⟩ := List.mem_filterMap.mp ho
    cases x with
    | emit event => cases hx
    | send message => cases hx; rfl

theorem releaseConn (h : a.Passes id c) (n limit : Nat) : a.Passes id (c.releaseConn n limit) := by
  refine h.aside rfl rfl _ rfl fun o ho => ?_
  obtain ⟨increment, -, rfl⟩ := Option.mem_map.mp (Option.mem_toList.mp ho)
  rfl

theorem reclaim (h : a.Passes id c) (limit : Nat) : a.Passes id (c.reclaim limit) := by
  have emptied : a.Passes id { c with streams := { c.streams with reclaimed := 0 } } :=
    h.aside rfl rfl [] (List.append_nil _).symm nofun
  unfold ConnCore.reclaim
  dsimp only
  split
  · exact emptied
  · exact emptied.releaseConn _ limit

/-- A stream is changed in place, and its counts are not. -/
theorem modifyStream (h : a.Passes id c) (on : StreamId) {f : Stream → Stream}
    (keeps : ∀ st, c.streams.get? on = some st →
      (f st).dataReceived = st.dataReceived ∧ (f st).contentLength = st.contentLength) :
    a.Passes id (c.modifyStream on f) := by
  refine h.trans ⟨Nat.le_refl _, fun st' live => .inl ?_, [], (List.append_nil _).symm, nofun⟩
  have live : (c.streams.modify on f).get? id = some st' := live
  rw [StreamTable.get?_modify] at live
  split at live
  · rename_i heq
    subst heq
    obtain ⟨st, hst, rfl⟩ := Option.map_eq_some_iff.mp live
    exact ⟨st, hst, keeps st hst⟩
  · exact ⟨st', live, rfl, rfl⟩

theorem retire (h : a.Passes id c) (on : StreamId) :
    a.Passes id { c with streams := c.streams.retire on } := by
  refine h.trans ⟨Nat.le_of_eq (congrArg _ (StreamTable.retire_top _ _).symm),
    fun st' live => .inl ⟨st', ?_, rfl, rfl⟩, [], (List.append_nil _).symm, nofun⟩
  have live : (c.streams.retire on).get? id = some st' := live
  rw [StreamTable.get?_retire] at live
  split at live
  · cases live
  · exact live

theorem apply (h : a.Passes id c) (on : StreamId) (event : StreamEvent) :
    a.Passes id { c with streams := (c.streams.apply on event).1 } := by
  unfold StreamTable.apply
  cases hs : c.streams.get? on with
  | none => exact h
  | some s =>
    dsimp only
    cases s.state.transition event with
    | error code => exact h
    | ok next =>
      have moved := h.modifyStream on (f := ({ · with state := next })) fun _ _ => ⟨rfl, rfl⟩
      dsimp only
      split
      · exact moved.retire on
      · exact moved

theorem openPeer (h : a.Passes id c) (on : StreamId) :
    a.Passes id { c with streams := (c.streams.openPeer on).1 } := by
  refine h.trans ?_
  obtain ⟨why, -, heq⟩ | ⟨-, unseen, heq | heq⟩ := c.streams.openPeer_cases on <;> rw [heq]
  · exact .refl id c
  · exact ⟨Nat.le_of_lt (Nat.lt_of_not_le unseen), fun st' live => .inl ⟨st', live, rfl, rfl⟩, [],
      (List.append_nil _).symm, nofun⟩
  · refine ⟨Nat.le_of_lt (Nat.lt_of_not_le unseen), fun st' live => ?_, [],
      (List.append_nil _).symm, nofun⟩
    have live := (StreamTable.get?_insertNew ..).symm.trans live
    split at live
    · rename_i heq
      cases live
      exact .inr ⟨heq ▸ unseen, rfl, rfl⟩
    · exact .inl ⟨st', live, rfl, rfl⟩

theorem credit (h : a.Passes id c) (on : StreamId) (stream : Stream) (n limit : Nat) :
    a.Passes id (c.credit on stream n limit) := by
  have modified := h.modifyStream on (f := fun s =>
    { s with
      recvWindow := (stream.recvWindow.release n).1
      pendingConnRelease := s.pendingConnRelease - n }) fun _ _ => ⟨rfl, rfl⟩
  unfold ConnCore.credit
  refine releaseConn ?_ n limit
  refine modified.aside rfl rfl _ rfl fun o ho => ?_
  obtain ⟨increment, -, rfl⟩ := Option.mem_map.mp (Option.mem_toList.mp ho)
  rfl

theorem headersOut (h : a.Passes id c) (on : StreamId) (fields : List Header) (endStream : Bool)
    (enc : HpackEncoder) (limit : Nat) :
    a.Passes id (c.headersOut on fields endStream enc limit) :=
  (h.observe rfl).observe rfl

section Service

variable [Service σ μ] (now : Instant) (enc : HpackEncoder) (limit : Nat) (on : StreamId)

theorem abandon (h : a.Passes id c) (code : ErrorCode) : a.Passes id (c.abandon now on code) :=
  (h.retire on).call _ rfl

theorem writeRst (h : a.Passes id c) (code : ErrorCode) :
    a.Passes id (c.writeRst now on code limit) :=
  ((h.abandon now on code).reclaim limit).observe rfl

theorem settle (h : a.Passes id c) (event : StreamEvent) :
    a.Passes id (c.settle now on event limit) := by
  have applied := h.apply on event
  unfold ConnCore.settle
  generalize c.streams.apply on event = res at applied
  obtain ⟨streams, result⟩ := res
  cases result with
  | ok state =>
    dsimp only
    split
    · exact (applied.call _ rfl).reclaim limit
    · exact applied
  | error e =>
    dsimp only
    split
    · exact applied
    · refine (applied.retire on).aside rfl rfl [] (List.append_nil _).symm nofun

theorem respond (h : a.Passes id c) (response : Response) (endStream : Bool) :
    a.Passes id (c.respond now on response endStream enc limit) :=
  ((h.headersOut on _ _ _ _).modifyStream on (f := ({ · with responseStarted := true }))
    fun _ _ => ⟨rfl, rfl⟩).settle now limit on _

theorem sendTrailers (h : a.Passes id c) (fields : List Header) :
    a.Passes id (c.sendTrailers now on fields enc limit) := by
  unfold ConnCore.sendTrailers
  split
  · exact h.modifyStream on fun _ _ => ⟨rfl, rfl⟩
  · split
    · exact h.modifyStream on fun _ _ => ⟨rfl, rfl⟩
    · exact (h.headersOut on _ _ _ _).settle now limit on _

theorem openRequest (h : a.Passes id c) (endStream : Bool) :
    a.Passes id (c.openRequest now on endStream limit) :=
  ((h.openPeer on).observe rfl).settle now limit on _

theorem transmit (h : a.Passes id c) {stream : Stream} (live : c.streams.get? on = some stream)
    (budget : Nat) (sendWindow : Window) :
    a.Passes id (c.transmit now on (stream.turn budget) sendWindow limit) := by
  have taken := h.modifyStream on (f := fun _ => { (stream.turn budget).rest with sendWindow })
    fun st hst => by cases live.symm.trans hst; exact ⟨rfl, rfl⟩
  unfold ConnCore.transmit
  dsimp only
  split
  · exact (taken.observe rfl).settle now limit on _
  · exact taken

theorem reportReleased (h : a.Passes id c) (n : Nat) :
    a.Passes id (c.reportReleased now on n) := by
  unfold ConnCore.reportReleased
  split
  · exact h.call _ rfl
  · exact h

theorem takeTurn (h : a.Passes id c) {stream : Stream} (live : c.streams.get? on = some stream)
    (budget : Nat) (sendWindow : Window) :
    a.Passes id (c.takeTurn now on (stream.turn budget) sendWindow enc limit) := by
  have sent := (h.transmit now limit on live budget sendWindow).reportReleased now on
    (stream.turn budget).chunk.length
  unfold ConnCore.takeTurn
  dsimp only
  split
  · exact sent.sendTrailers now enc limit on _
  · exact sent

end Service

end ConnCore.Passes

/-! ## The count -/

/-- What was read of a request is what its stream has counted. -/
structure ConnCore.Counted (c : ConnCore σ μ) (id : StreamId) (r : Reading) : Prop where
  read : bodies.watch (ConnObs.portion? id) c.log = some r
  unseen : ¬ id ≤ c.streams.highestPeerId → r = ⟨none, 0⟩
  live : ∀ st, c.streams.get? id = some st → st.dataReceived = min r.octets u64Max ∧
    ∀ head ∈ r.head, head.contentLength = st.contentLength.map .ok ∧ head.Spelled

namespace ConnCore.Counted

variable {c c' : ConnCore σ μ} {r : Reading} {st : Stream}

theorem agrees (h : c.Counted id r) : c.Agrees id := .intro h.read

theorem passes (h : c.Counted id r) (same : c.Passes id c') : c'.Counted id r := by
  obtain ⟨added, hlog, silent⟩ := same.log
  refine ⟨?_, fun unseen => h.unseen fun seen => unseen (Nat.le_trans seen same.top), ?_⟩
  · rw [hlog, Monitor.watch_silent silent]
    exact h.read
  · intro st' live
    obtain ⟨st, hst, received, declared⟩ | ⟨unseen, received, declared⟩ := same.live st' live
    · rw [received, declared]
      exact h.live st hst
    · rw [h.unseen unseen, received]
      exact ⟨rfl, nofun⟩

/-- Where the count is the declared one, the body has the length of every declaration. -/
theorem whole (h : c.Counted id r) (live : c.streams.get? id = some st)
    (counted : st.contentLengthMatches) : r.Whole := by
  obtain ⟨received, declared⟩ := h.live st live
  intro head asked
  obtain ⟨same, spelled⟩ := declared head asked
  unfold Stream.contentLengthMatches at counted
  cases hn : st.contentLength with
  | none =>
    rw [hn] at same
    exact RequestHead.contentLength_none same _
  | some n =>
    rw [hn] at same counted
    obtain ⟨small, agrees⟩ := spelled.declares same
    have exact_ : n = min r.octets u64Max := (eq_of_beq counted).trans received
    have all : r.octets = n := by omega
    rw [all]
    exact agrees

/-- DATA of the request is heard, and counted on its stream. -/
theorem receive (h : c.Counted id r) {w : WireFrame} {data : Bytes} {endStream : Bool}
    (frame : w.data? = some (id, data, endStream)) (seen : id ≤ c.streams.highestPeerId)
    (window : RecvWindow) (recvWindow : Option RecvWindow) :
    (c.receive w id data.length window recvWindow).Counted id ⟨r.head, r.octets + data.length⟩ := by
  have spelled : (ConnObs.heard w : ConnObs μ).portion? id = some (.heard data.length) := by
    rw [ConnObs.portion?_heard, frame]
    exact if_pos rfl
  refine ⟨Monitor.watch_concat h.read spelled, fun unseen => absurd seen unseen, ?_⟩
  intro st' live
  have live : (c.streams.modify id _).get? id = some st' := live
  rw [StreamTable.get?_modify, if_pos rfl] at live
  obtain ⟨st, hst, rfl⟩ := Option.map_eq_some_iff.mp live
  obtain ⟨received, declared⟩ := h.live st hst
  refine ⟨?_, declared⟩
  show satAdd64 st.dataReceived data.length = min (r.octets + data.length) u64Max
  unfold satAdd64
  omega

/-- DATA on some stream is heard, and counted there. -/
theorem received (h : c.Counted id r) {on : StreamId} {w : WireFrame} {data : Bytes}
    {endStream : Bool} (frame : w.data? = some (on, data, endStream))
    (seen : on ≤ c.streams.highestPeerId) (window : RecvWindow) (recvWindow : Option RecvWindow) :
    ∃ r', (c.receive w on data.length window recvWindow).Counted id r' := by
  by_cases own : on = id
  · subst own
    exact ⟨_, h.receive frame seen window recvWindow⟩
  · have silent : (ConnObs.heard w : ConnObs μ).portion? id = none := by
      rw [ConnObs.portion?_heard, frame]
      exact if_neg own
    refine ⟨r, ?_, h.unseen, fun st live => h.live st ?_⟩
    · exact (Monitor.watch_silent (by simpa using silent)).trans h.read
    · have live : (c.streams.modify on _).get? id = some st := live
      rwa [StreamTable.get?_modify, if_neg (Ne.symm own)] at live

/-- DATA that comes after its stream is gone. -/
theorem late (h : c.Counted id r) {w : WireFrame} {data : Bytes} {endStream : Bool}
    (frame : w.data? = some (id, data, endStream)) (seen : id ≤ c.streams.highestPeerId)
    (gone : c.streams.get? id = none) (window : RecvWindow) :
    ({ c.observe (.heard w) with connRecvWindow := window } : ConnCore σ μ).Counted id
      ⟨r.head, r.octets + data.length⟩ := by
  have spelled : (ConnObs.heard w : ConnObs μ).portion? id = some (.heard data.length) := by
    rw [ConnObs.portion?_heard, frame]
    exact if_pos rfl
  refine ⟨Monitor.watch_concat h.read spelled, fun unseen => absurd seen unseen, fun st live => ?_⟩
  cases gone.symm.trans live

/-- A length is noted before the responder is asked. -/
theorem declare (h : c.Counted id r) {on : StreamId} (contentLength : Option Nat)
    (unasked : on = id → r.head = none) : (c.declare on contentLength).Counted id r := by
  cases contentLength with
  | none => exact h
  | some n =>
    refine ⟨h.read, h.unseen, fun st' live => ?_⟩
    have live : (c.streams.modify on _).get? id = some st' := live
    rw [StreamTable.get?_modify] at live
    split at live
    · rename_i heq
      subst heq
      obtain ⟨st, hst, rfl⟩ := Option.map_eq_some_iff.mp live
      refine ⟨(h.live st hst).1, ?_⟩
      rw [unasked rfl]
      nofun
    · exact h.live st' live

/-- A call that is a part of the request, in its turn. -/
theorem call (h : c.Counted id r) {call : Call} (reply : σ × List (Effect μ)) {part : Portion}
    {r' : Reading} (spelled : (ConnObs.called call : ConnObs μ).portion? id = some part)
    (next : r.next part = some r') (seen : id ≤ c.streams.highestPeerId)
    (octets : r'.octets = r.octets)
    (head : ∀ st, c.streams.get? id = some st → ∀ head ∈ r'.head,
      head.contentLength = st.contentLength.map .ok ∧ head.Spelled) :
    (c.call call reply).Counted id r' := by
  have told : bodies.watch (ConnObs.portion? id) (c.log ++ [.called call]) = some r' :=
    (Monitor.watch_concat h.read spelled).trans next
  refine ⟨?_, fun unseen => absurd seen unseen, fun st live => ?_⟩
  · show bodies.watch _ (c.log ++ .called call :: _) = _
    rw [List.append_cons, Monitor.watch_silent]
    · exact told
    · intro o ho
      obtain ⟨x, -, hx⟩ := List.mem_filterMap.mp ho
      cases x with
      | emit event => cases hx
      | send message => cases hx; rfl
  · rw [octets]
    exact ⟨(h.live st live).1, head st live⟩

/-- The end of a request is told where its body is whole. -/
theorem ended (h : c.Counted id r) {call : Call} (reply : σ × List (Effect μ))
    (spelled : (ConnObs.called call : ConnObs μ).portion? id = some .ended) (whole : r.Whole)
    (seen : id ≤ c.streams.highestPeerId) : (c.call call reply).Counted id r :=
  h.call reply spelled (if_pos whole) seen rfl fun st live => (h.live st live).2

end ConnCore.Counted

/-! ## Moves -/

/-- Every request declares one length, in digits, where the first it declares is a number. -/
def spelled : Permit σ μ where
  block _ _ _ r := ∀ headers, r = .ok headers → ∀ head, RequestHead.fromHeaders headers = .ok head →
    head.Spelled

instance : ∀ c w, Decidable ((spelled : Permit σ μ).frame c w) := fun _ _ => .isTrue trivial
instance : ∀ c e, Decidable ((spelled : Permit σ μ).event c e) := fun _ _ => .isTrue trivial
instance : ∀ c id turn, Decidable ((spelled : Permit σ μ).turn c id turn) :=
  fun _ _ _ => .isTrue trivial

instance (c : ConnCore σ μ) (id : StreamId) (endStream : Bool) :
    (r : Except HpackError (List Header)) → Decidable ((spelled : Permit σ μ).block c id endStream r)
  | .error _ => .isTrue nofun
  | .ok headers =>
    decidable_of_iff (∀ head ∈ (RequestHead.fromHeaders headers).toOption, head.Spelled)
      ⟨fun h _ same head valid => h head (by cases same; rw [valid]; rfl), fun h head valid =>
        h headers rfl head (by
          cases read : RequestHead.fromHeaders headers with
          | error code => rw [read] at valid; cases valid
          | ok head' => rw [read] at valid; cases valid; rfl)⟩

variable [Service σ μ] {c c' : ConnCore σ μ}

theorem StreamMove.counted {on : StreamId} (h : StreamMove spelled c on c') (tidy : c.Tidy)
    {r : Reading} (hc : c.Counted id r) : ∃ r', c'.Counted id r' := by
  have here := ConnCore.Passes.refl id c
  have seen : ∀ {st : Stream}, c.streams.get? on = some st → on ≤ c.streams.highestPeerId :=
    fun live => tidy.numbered on (by rw [live]; rfl)
  -- The responder was not asked for a stream that is yet to be opened.
  have unasked : (c.streams.openPeer on).2 = .ok () → on = id → r.head = none := by
    rintro isOpen rfl
    rw [hc.unseen (StreamTable.openPeer_ok isOpen).2.1]
  cases h with
  | @handled e => exact ⟨r, hc.passes (here.observe rfl)⟩
  | @dropped now e stream code limit =>
    exact ⟨r, hc.passes ((here.observe (o := .handled e) rfl).writeRst now limit _ code)⟩
  | @withdrawn now w _ code => exact ⟨r, hc.passes (here.abandon now on code)⟩
  | @overgranted now w _ n stream code limit => exact ⟨r, hc.passes (here.writeRst now limit on code)⟩
  | @stray now w _ code limit => exact ⟨r, hc.passes (here.writeRst now limit on code)⟩
  | @flushed now es e limit =>
    have taken : c.Passes id { c with pendingReset := es } :=
      here.aside rfl rfl [] (List.append_nil _).symm nofun
    exact ⟨r, hc.passes (taken.writeRst now limit _ e.code)⟩
  | @crowded now _ limit =>
    exact ⟨r, hc.passes ((here.openPeer on).writeRst now limit on .refusedStream)⟩
  | @turnedAway now _ endStream headers limit =>
    exact ⟨r, hc.passes (here.writeRst now limit on .refusedStream)⟩
  | @malformed now _ endStream headers contentLength code limit isOpen =>
    have opened := hc.passes (here.openRequest now limit on endStream)
    have noted := opened.declare contentLength (unasked isOpen)
    exact ⟨r, noted.passes (.writeRst now limit on (.refl id _) code)⟩
  | @dispatched now _ headers head endStream contentLength limit isOpen cause valid served fits
      declared =>
    have opened := hc.passes (here.openRequest now limit on endStream)
    have noted := opened.declare contentLength (unasked isOpen)
    by_cases own : on = id
    · subst own
      have spelled := cause.1 headers rfl head valid
      have start := hc.unseen (StreamTable.openPeer_ok isOpen).2.1
      subst start
      have whole : endStream → (Reading.mk (some head) 0).Whole := by
        rintro rfl head' ⟨⟩
        unfold servable at served
        rw [valid] at served
        dsimp only at served
        cases read : head.contentLength with
        | none => exact RequestHead.contentLength_none read 0
        | some result =>
          rw [read] at served
          cases result with
          | error code => cases served
          | ok n =>
            obtain rfl : n = 0 := by simpa using served
            exact (spelled.declares read).2
      refine ⟨⟨some head, 0⟩, noted.call _ (if_pos rfl) (if_pos whole) ?_ rfl ?_⟩
      · exact Nat.le_trans (ConnCore.openRequest_top now endStream limit isOpen)
          ((Says.refl _).declare on contentLength).top
      · rintro st live head' ⟨⟩
        have new := ConnCore.get?_declare (ConnCore.get?_openRequest now endStream limit isOpen)
          contentLength
        cases new.symm.trans live
        refine ⟨declared.trans ?_, spelled⟩
        cases contentLength with
        | none => rfl
        | some n => rfl
    · exact ⟨r, noted.passes ((ConnCore.Passes.refl id _).call _ (if_neg own))⟩
  | @answered now _ status enc limit =>
    exact ⟨r, hc.passes ((here.openRequest now limit on true).respond now enc limit on _ true)⟩
  | @mistrailed now _ headers endStream stream code limit =>
    exact ⟨r, hc.passes (here.writeRst now limit on code)⟩
  | @trailered now _ headers stream limit permit live canSend fits whole =>
    by_cases own : on = id
    · subst own
      have told : (c.call (.trailers on headers)
          (Service.trailers now on headers c.service)).Counted on r :=
        hc.ended _ (if_pos rfl) (hc.whole live whole) (seen live)
      exact ⟨r, told.passes (.settle now limit on (.refl on _) _)⟩
    · have other : (ConnObs.called (.trailers on headers) : ConnObs μ).portion? id = none := if_neg own
      exact ⟨r, hc.passes ((here.call _ other).settle now limit on _)⟩
  | @delivered now w _ data endStream stream window recvWindow limit permit frame live conn within
      whole =>
    by_cases own : on = id
    · subst own
      have heard := hc.receive frame (seen live) window (some recvWindow)
      have settled := heard.passes (.settle now limit on (.refl on _) (.recvData endStream))
      have grown := (ConnCore.Passes.settle now limit on
        (.refl on (c.receive w on data.length window (some recvWindow))) (.recvData endStream)).top
      have top : on ≤ ((c.receive w on data.length window (some recvWindow)).settle now on
        (.recvData endStream) limit).streams.highestPeerId := Nat.le_trans (seen live) grown
      unfold ConnCore.deliver
      dsimp only
      split
      · cases endStream with
        | true =>
          have counted : (c.receive w on data.length window (some recvWindow)).streams.get? on =
              some { stream with
                dataReceived := satAdd64 stream.dataReceived data.length
                pendingConnRelease := satAdd32 stream.pendingConnRelease data.length
                recvWindow := recvWindow } := by
            refine (StreamTable.get?_modify ..).trans ?_
            rw [if_pos rfl]
            exact congrArg _ live
          exact ⟨_, settled.ended _ (if_pos rfl) (heard.whole counted (whole rfl)) top⟩
        | false => exact ⟨_, settled.passes (.call (.refl on _) _ rfl)⟩
      · exact ⟨_, settled⟩
    · have other : (ConnObs.called (.body on data endStream) : ConnObs μ).portion? id = none := by
        cases endStream with
        | true => exact if_neg own
        | false => rfl
      obtain ⟨r', heard⟩ := hc.received frame (seen live) window (some recvWindow)
      have settled := heard.passes (.settle now limit on (.refl id _) (.recvData endStream))
      unfold ConnCore.deliver
      dsimp only
      split
      · exact ⟨r', settled.passes (.call (.refl id _) _ other)⟩
      · exact ⟨r', settled⟩
  | @mismatched now w _ data stream window recvWindow code limit permit frame live =>
    obtain ⟨r', counted⟩ := hc.received frame (seen live) window (some recvWindow)
    exact ⟨r', counted.passes (.writeRst now limit on (.refl id _) code)⟩
  | @overspent now w _ data endStream stream window code limit permit frame live =>
    obtain ⟨r', counted⟩ := hc.received frame (seen live) window none
    exact ⟨r', counted.passes (.writeRst now limit on (.refl id _) code)⟩
  | @late now w _ data endStream window limit permit frame gone =>
    obtain ⟨absent, was⟩ := StreamTable.lookup_closed gone
    have top : on ≤ c.streams.highestPeerId := by
      have below := of_decide_eq_true was
      rw [StreamId.le_max_iff, tidy.highestLocalId] at below
      exact below.elim (fun le => le) fun zero => Nat.le_trans zero (Nat.zero_le _)
    by_cases own : on = id
    · subst own
      exact ⟨_, (hc.late frame top absent window).passes
        (.writeRst now limit on (.releaseConn (.refl on _) _ limit) .streamClosed)⟩
    · have silent : (ConnObs.heard w : ConnObs μ).portion? id = none := by
        rw [ConnObs.portion?_heard, frame]
        exact if_neg own
      have heard : c.Passes id { c.observe (.heard w) with connRecvWindow := window } :=
        here.aside rfl rfl [.heard w] rfl (by simpa using silent)
      exact ⟨r, hc.passes ((heard.releaseConn _ limit).writeRst now limit on .streamClosed)⟩
  | @credited _ n stream limit =>
    exact ⟨r, hc.passes ((here.observe (o := .handled (.bodyAccepted on n)) rfl).credit on stream n
      limit)⟩
  | @responded now _ response endStream stream enc limit =>
    exact ⟨r, hc.passes ((here.observe (o := .handled (.head on response endStream)) rfl).respond
      now enc limit on _ _)⟩
  | @refused now e stream status enc limit =>
    exact ⟨r, hc.passes ((here.observe (o := .handled e) rfl).respond now enc limit _ _ _)⟩
  | @oversized now _ size max stream endStream enc limit =>
    exact ⟨r, hc.passes (here.respond now enc limit on _ _)⟩
  | @pushed _ data endStream =>
    exact ⟨r, hc.passes ((here.observe (o := .handled (.data on data endStream)) rfl).modifyStream on
      fun _ _ => ⟨rfl, rfl⟩)⟩
  | @trailersDue now _ fields stream enc limit =>
    exact ⟨r, hc.passes ((here.observe (o := .handled (.trailers on fields)) rfl).sendTrailers
      now enc limit on _)⟩
  | @turned now _ stream budget sendWindow enc limit permit live =>
    exact ⟨r, hc.passes (here.takeTurn now enc limit on live budget sendWindow)⟩

omit [Service σ μ] in
theorem Notes.counted (h : Notes c c') {r : Reading} (hc : c.Counted id r) : c'.Counted id r := by
  refine ⟨h.log ▸ hc.read, fun unseen => hc.unseen (h.alike.highestPeerId ▸ unseen), ?_⟩
  intro st' live
  have alike := h.alike.live id
  rw [live] at alike
  generalize was : c.streams.get? id = o at alike
  cases alike with
  | some same =>
    rw [same.dataReceived, same.contentLength]
    exact hc.live _ was

/-- What a run keeps: what was read of every request is what its stream has counted. -/
theorem Move.counted (h : Move spelled c c') (tidy : c.Tidy)
    (hc : ∀ id, ∃ r, c.Counted id r) (id : StreamId) : ∃ r, c'.Counted id r := by
  obtain ⟨r, hr⟩ := hc id
  have here := ConnCore.Passes.refl id c
  cases h with
  | @note o neutral =>
    refine ⟨r, hr.passes (here.observe ?_)⟩
    cases neutral with
    | heard other =>
      rw [ConnObs.portion?_heard, other]
    | encoded | queued => rfl
  | @alike streams alike =>
    have noted : Notes c { c with streams } := ⟨alike, rfl, rfl, rfl⟩
    exact ⟨r, noted.counted hr⟩
  | events => exact ⟨r, hr.passes (here.aside rfl rfl [] (List.append_nil _).symm nofun)⟩
  | intercepted => exact ⟨r, hr.passes (here.call _ rfl)⟩
  | draining => exact ⟨r, hr.passes (here.aside rfl rfl [_] rfl (by simp [ConnObs.portion?]))⟩
  | committed => exact ⟨r, hr.passes (here.aside rfl rfl [_] rfl (by simp [ConnObs.portion?]))⟩
  | reclaimed => exact ⟨r, hr.passes (here.reclaim _)⟩
  | on move => exact move.counted tidy hr

/-! ## Runs -/

omit [Service σ μ] in
theorem ConnCore.Agrees.passes (h : c.Agrees id) (same : c.Passes id c') : c'.Agrees id := by
  obtain ⟨added, hlog, silent⟩ := same.log
  unfold ConnCore.Agrees Monitor.Accepts at *
  rw [hlog, Monitor.watch_silent silent]
  exact h

omit [Service σ μ] in
/-- What is heard is never out of turn. -/
theorem ConnCore.Agrees.heard (h : c.Agrees id) (w : WireFrame) (hlog : c'.log = c.log ++ [.heard w]) :
    c'.Agrees id := by
  obtain ⟨r, hr⟩ := Option.isSome_iff_exists.mp h
  unfold ConnCore.Agrees
  rw [hlog]
  cases spelled : (ConnObs.heard w : ConnObs μ).portion? id with
  | none => exact .intro ((Monitor.watch_silent (by simpa using spelled)).trans hr)
  | some part =>
    cases part with
    | heard n => exact .intro ((Monitor.watch_concat hr spelled).trans rfl)
    | _ =>
      rw [ConnObs.portion?_heard] at spelled
      split at spelled
      · split at spelled <;> cases spelled
      · cases spelled

theorem Fault.agrees (h : Fault spelled c c') (ha : c.Agrees id) : c'.Agrees id := by
  have here := ConnCore.Passes.refl id c
  cases h with
  | none => exact ha
  | heard w => exact ha.heard w rfl
  | @idleData w => exact ha.heard w rfl
  | @opened now on endStream limit => exact ha.passes (here.openRequest now limit on endStream)
  | @unanswerable now on enc fields limit =>
    exact ha.passes ((here.openRequest now limit on true).observe rfl)
  | @received w => exact ha.heard w rfl
  | @transmitted now on stream budget sendWindow limit permit live =>
    exact ha.passes (here.transmit now limit on live budget sendWindow)
  | unencodableEvent e enc fields limit => exact ha.passes ((here.observe rfl).observe rfl)
  | @unencodable now on stream budget sendWindow enc fields limit permit live =>
    exact ha.passes (((here.transmit now limit on live budget sendWindow).reportReleased now on
      _).observe rfl)

theorem Conn.Closing.agrees (h : Conn.Closing c c') (ha : c.Agrees id) : c'.Agrees id := by
  have here := ConnCore.Passes.refl id c
  cases h with
  | quiet now => exact ha.passes (here.call _ rfl)
  | failed now fits => exact ha.passes ((here.observe rfl).call _ rfl)

namespace Conn

omit [Service σ μ] in
theorem Fresh.counted {s : Conn σ μ} (h : Fresh s) (id : StreamId) :
    s.toConnCore.Counted id ⟨none, 0⟩ := by
  obtain ⟨service, localSettings, window, limits, policy, admission, now, -, -, -, rfl⟩ := h
  refine ⟨Monitor.watch_start fun o ho => ?_, fun _ => rfl, nofun⟩
  obtain rfl | ho := List.mem_cons.mp ho
  · rfl
  · obtain rfl := List.mem_singleton.mp ho
    rfl

end Conn

end H2Proxy
