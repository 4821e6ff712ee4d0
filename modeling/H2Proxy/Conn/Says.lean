import H2Proxy.Conn.Steps

/-
  What a client connection can add to its log.

  `Says c c'` is the coarse account of a stretch of moves: the log grows at its end, by
  observations of the kinds `ConnObs.Sayable` lists, and the highest id opened by the peer
  never falls. It holds of every effect, hence of every move and of every run.
-/

namespace H2Proxy

namespace ConnObs

variable {μ : Type}

/-- An observation made while `top` is the highest id of the peer, next to `others`: frames
    other than header blocks are within the limit, a header block is encoded next to it. -/
inductive Sayable (top : StreamId) (others : List (ConnObs μ)) : ConnObs μ → Prop
  | heard (w : WireFrame) : Sayable top others (.heard w)
  | opened {id : StreamId} (le : id ≤ top) (odd : id.isClientInitiated = true) :
    Sayable top others (.opened id)
  | encoded (enc : HpackEncoder) (fields : List Header) (limit : Nat) :
    Sayable top others (.encoded enc fields limit)
  | queued {f : Frame} {limit : Nat} (fits : f.payloadLen ≤ limit) (headers : f.kind ≠ .headers)
    (continuation : f.kind ≠ .continuation) : Sayable top others (.queued f [] limit)
  | headers {enc : HpackEncoder} {fields : List Header} {limit : Nat} (id : StreamId)
    (endStream : Bool) (encoded : .encoded enc fields limit ∈ others) :
    Sayable top others (.queued (.headers id (enc.encode fields).2 endStream true) fields limit)
  | handled (event : ServiceEvent) : Sayable top others (.handled event)
  | called (call : Call) : Sayable top others (.called call)
  | sent (message : μ) : Sayable top others (.sent message)

theorem Sayable.goAway {top : StreamId} {others : List (ConnObs μ)} {limit : Nat} (last : StreamId)
    (code : ErrorCode) (fits : 8 ≤ limit) :
    Sayable top others (.queued (.goAway last code []) [] limit) :=
  .queued fits nofun nofun

theorem Sayable.mono {top top' : StreamId} {others others' : List (ConnObs μ)} {o : ConnObs μ}
    (h : o.Sayable top others) (ht : top ≤ top') (ho : ∀ x ∈ others, x ∈ others') :
    o.Sayable top' others' := by
  cases h with
  | heard w => exact .heard w
  | opened le odd => exact .opened (Nat.le_trans le ht) odd
  | encoded enc fields limit => exact .encoded enc fields limit
  | queued fits hh hc => exact .queued fits hh hc
  | headers id endStream he => exact .headers id endStream (ho _ he)
  | handled event => exact .handled event
  | called call => exact .called call
  | sent message => exact .sent message

end ConnObs

variable {σ μ : Type}

/-- The log has grown by what may be said, and the ids of the peer have not fallen. -/
structure Says (c c' : ConnCore σ μ) : Prop where
  top : c.streams.highestPeerId ≤ c'.streams.highestPeerId
  log : ∃ added, c'.log = c.log ++ added ∧
    ∀ o ∈ added, o.Sayable c'.streams.highestPeerId added

namespace Says

theorem refl (c : ConnCore σ μ) : Says c c :=
  ⟨Nat.le_refl _, [], (List.append_nil _).symm, nofun⟩

theorem trans {c c' c'' : ConnCore σ μ} (h : Says c c') (h' : Says c' c'') : Says c c'' := by
  obtain ⟨added, hlog, hadded⟩ := h.log
  obtain ⟨added', hlog', hadded'⟩ := h'.log
  refine ⟨Nat.le_trans h.top h'.top, added ++ added', ?_, ?_⟩
  · rw [hlog', hlog, List.append_assoc]
  · intro o ho
    obtain ho | ho := List.mem_append.mp ho
    · exact (hadded o ho).mono h'.top fun _ hx => List.mem_append_left _ hx
    · exact (hadded' o ho).mono (Nat.le_refl _) fun _ hx => List.mem_append_right _ hx

/-! ### The effects

Each lemma extends an account by one effect. -/

variable {a c : ConnCore σ μ}

theorem add (h : Says a c) {c' : ConnCore σ μ} (added : List (ConnObs μ))
    (hlog : c'.log = c.log ++ added) (top : c.streams.highestPeerId ≤ c'.streams.highestPeerId)
    (said : ∀ o ∈ added, o.Sayable c'.streams.highestPeerId added) : Says a c' :=
  h.trans ⟨top, added, hlog, said⟩

/-- Nothing is said, and the ids of the peer may have grown. -/
theorem quiet (h : Says a c) {c' : ConnCore σ μ} (hlog : c'.log = c.log)
    (top : c.streams.highestPeerId ≤ c'.streams.highestPeerId) : Says a c' :=
  h.add [] (hlog.trans (List.append_nil _).symm) top nofun

theorem quiet' (h : Says a c) {c' : ConnCore σ μ} (hlog : c'.log = c.log)
    (top : c'.streams.highestPeerId = c.streams.highestPeerId) : Says a c' :=
  h.quiet hlog (top ▸ Nat.le_refl _)

/-- One observation that needs no other. -/
theorem observe (h : Says a c) {o : ConnObs μ} (said : o.Sayable c.streams.highestPeerId [o]) :
    Says a (c.observe o) := by
  refine h.add [o] rfl (Nat.le_refl _) ?_
  intro x hx
  cases List.mem_singleton.mp hx
  exact said

/-- A queued frame that is short and carries no header block. -/
theorem short (h : Says a c) {f : Frame} {limit : Nat} (fits : f.payloadLen ≤ limit)
    (headers : f.kind ≠ .headers) (continuation : f.kind ≠ .continuation) :
    Says a (c.observe (.queued f [] limit)) :=
  h.observe (.queued fits headers continuation)

theorem call (h : Says a c) (call : Call) (r : σ × List (Effect μ)) : Says a (c.call call r) := by
  refine h.add _ rfl (Nat.le_refl _) ?_
  intro o ho
  obtain rfl | ho := List.mem_cons.mp ho
  · exact .called call
  · obtain ⟨x, -, hx⟩ := List.mem_filterMap.mp ho
    cases x with
    | emit event => cases hx
    | send message => cases hx; exact .sent message

/-- Window updates, where there is one to announce. -/
theorem windowUpdates {id : StreamId} {limit : Nat} (increment : Option Nat)
    (fits : defaultMaxFrameSize ≤ limit) {t : StreamId} {others : List (ConnObs μ)} :
    ∀ o ∈ (increment.map fun n => ConnObs.queued (.windowUpdate id n) [] limit).toList,
      o.Sayable t others := by
  intro o ho
  obtain ⟨n, -, rfl⟩ := Option.mem_map.mp (Option.mem_toList.mp ho)
  exact .queued (Nat.le_trans (show 4 ≤ 16384 by decide) fits) nofun nofun

variable {limit : Nat}

theorem releaseConn (h : Says a c) (n : Nat) (fits : defaultMaxFrameSize ≤ limit) :
    Says a (c.releaseConn n limit) :=
  h.add _ rfl (Nat.le_refl _) (windowUpdates _ fits)

theorem reclaim (h : Says a c) (fits : defaultMaxFrameSize ≤ limit) :
    Says a (c.reclaim limit) := by
  unfold ConnCore.reclaim
  dsimp only
  split
  · exact h.quiet' rfl rfl
  · refine releaseConn ?_ _ fits
    exact h.quiet' rfl rfl

theorem modifyStream (h : Says a c) (id : StreamId) (f : Stream → Stream) :
    Says a (c.modifyStream id f) :=
  h.quiet' rfl rfl

theorem declare (h : Says a c) (id : StreamId) (contentLength : Option Nat) :
    Says a (c.declare id contentLength) := by
  cases contentLength with
  | none => exact h
  | some n => exact h.modifyStream id _

theorem credit (h : Says a c) (id : StreamId) (stream : Stream) (n : Nat)
    (fits : defaultMaxFrameSize ≤ limit) : Says a (c.credit id stream n limit) := by
  unfold ConnCore.credit
  refine releaseConn ?_ n fits
  exact h.add _ rfl (Nat.le_refl _) (windowUpdates (stream.recvWindow.release n).2 fits)

theorem receive (h : Says a c) (w : WireFrame) (id : StreamId) (len : Nat)
    (window : RecvWindow) (recvWindow : Option RecvWindow) :
    Says a (c.receive w id len window recvWindow) := by
  unfold ConnCore.receive
  refine modifyStream ?_ id _
  exact (h.observe (.heard w)).quiet' rfl rfl

theorem headersOut (h : Says a c) (id : StreamId) (fields : List Header) (endStream : Bool)
    (enc : HpackEncoder) : Says a (c.headersOut id fields endStream enc limit) := by
  refine h.add [.encoded enc fields limit,
    .queued (.headers id (enc.encode fields).2 endStream true) fields limit]
    (List.append_assoc ..) (Nat.le_refl _) ?_
  intro o ho
  obtain rfl | ho := List.mem_cons.mp ho
  · exact .encoded enc fields limit
  · cases List.mem_singleton.mp ho
    exact .headers id endStream List.mem_cons_self

theorem neutral (h : Says a c) {o : ConnObs μ} (neutral : o.Neutral) : Says a (c.observe o) := by
  cases neutral with
  | heard other => exact h.observe (.heard _)
  | encoded enc fields limit => exact h.observe (.encoded enc fields limit)
  | queued fits kind =>
    refine h.short fits ?_ ?_ <;>
      obtain kind | kind := kind <;> rw [kind] <;> nofun

variable [Service σ μ]

theorem abandon (h : Says a c) (now : Instant) (id : StreamId) (code : ErrorCode) :
    Says a (c.abandon now id code) := by
  unfold ConnCore.abandon
  refine call ?_ _ _
  exact h.quiet' rfl (StreamTable.retire_top _ _)

theorem writeRst (h : Says a c) (now : Instant) (id : StreamId) (code : ErrorCode)
    (fits : defaultMaxFrameSize ≤ limit) : Says a (c.writeRst now id code limit) :=
  ((h.abandon now id code).reclaim fits).short (Nat.le_trans (show 4 ≤ 16384 by decide) fits)
    nofun nofun

theorem settle (h : Says a c) (now : Instant) (id : StreamId) (event : StreamEvent)
    (fits : defaultMaxFrameSize ≤ limit) : Says a (c.settle now id event limit) := by
  have top := StreamTable.apply_top c.streams id event
  unfold ConnCore.settle
  generalize c.streams.apply id event = r at top
  obtain ⟨streams, result⟩ := r
  have keep : Says a { c with streams } := h.quiet' rfl top
  cases result with
  | ok state =>
    dsimp only
    split
    · exact reclaim (keep.call _ _) fits
    · exact keep
  | error e =>
    dsimp only
    split
    · exact keep
    · exact keep.quiet' rfl (StreamTable.retire_top _ _)

theorem respond (h : Says a c) (now : Instant) (id : StreamId) (response : Response)
    (endStream : Bool) (enc : HpackEncoder) (fits : defaultMaxFrameSize ≤ limit) :
    Says a (c.respond now id response endStream enc limit) := by
  unfold ConnCore.respond
  exact settle ((h.headersOut id _ endStream enc).modifyStream id _) now id _ fits

theorem sendTrailers (h : Says a c) (now : Instant) (id : StreamId) (fields : List Header)
    (enc : HpackEncoder) (fits : defaultMaxFrameSize ≤ limit) :
    Says a (c.sendTrailers now id fields enc limit) := by
  unfold ConnCore.sendTrailers
  split
  · exact h.modifyStream id _
  split
  · exact h.modifyStream id _
  · exact (h.headersOut id fields true enc).settle now id _ fits

theorem openRequest (h : Says a c) (now : Instant) {id : StreamId} (endStream : Bool)
    (isOpen : (c.streams.openPeer id).2 = .ok ()) (fits : defaultMaxFrameSize ≤ limit) :
    Says a (c.openRequest now id endStream limit) := by
  obtain ⟨hodd, hle, htable⟩ := StreamTable.openPeer_ok isOpen
  have top : (c.streams.openPeer id).1.highestPeerId = id := by rw [htable]; rfl
  unfold ConnCore.openRequest
  refine settle ?_ now id _ fits
  refine observe ?_ (.opened ?_ hodd)
  · refine h.quiet rfl ?_
    show c.streams.highestPeerId ≤ (c.streams.openPeer id).1.highestPeerId
    rw [top]
    exact Nat.le_of_lt (Nat.lt_of_not_le hle)
  · show id ≤ (c.streams.openPeer id).1.highestPeerId
    rw [top]
    exact Nat.le_refl _

theorem deliver (h : Says a c) (now : Instant) (id : StreamId) (data : Bytes) (endStream : Bool)
    (fits : defaultMaxFrameSize ≤ limit) : Says a (c.deliver now id data endStream limit) := by
  have settled := h.settle now id (.recvData endStream) fits
  unfold ConnCore.deliver
  dsimp only
  split
  · exact settled.call _ _
  · exact settled

theorem transmit (h : Says a c) (now : Instant) (id : StreamId) (turn : Stream.Turn)
    (sendWindow : Window) (fits : defaultMaxFrameSize ≤ limit) (chunk : turn.chunk.length ≤ limit) :
    Says a (c.transmit now id turn sendWindow limit) := by
  unfold ConnCore.transmit
  dsimp only
  split
  · exact ((h.modifyStream id _).short (f := .data id turn.chunk turn.endStream) chunk
      (by simp [Frame.kind]) (by simp [Frame.kind])).settle now id _ fits
  · exact h.modifyStream id _

theorem reportReleased (h : Says a c) (now : Instant) (id : StreamId) (n : Nat) :
    Says a (c.reportReleased now id n) := by
  unfold ConnCore.reportReleased
  split
  · exact h.call _ _
  · exact h

theorem takeTurn (h : Says a c) (now : Instant) (id : StreamId) (turn : Stream.Turn)
    (sendWindow : Window) (enc : HpackEncoder) (fits : defaultMaxFrameSize ≤ limit)
    (chunk : turn.chunk.length ≤ limit) :
    Says a (c.takeTurn now id turn sendWindow enc limit) := by
  have sent := (h.transmit now id turn sendWindow fits chunk).reportReleased now id
    turn.chunk.length
  unfold ConnCore.takeTurn
  dsimp only
  split
  · exact sent.sendTrailers now id _ enc fits
  · exact sent

end Says

section Moves

variable [Service σ μ] {P : Permit σ μ} {c c' : ConnCore σ μ}

theorem StreamMove.grows {id : StreamId} (h : StreamMove P c id c') : Says c c' := by
  have here := Says.refl c
  cases h with
  | handled => exact here.observe (.handled _)
  | dropped now code permit ending live fits =>
    exact (here.observe (.handled _)).writeRst now _ _ fits
  | withdrawn => exact here.abandon _ _ _
  | overgranted now code heard frame live bad fits => exact here.writeRst now _ _ fits
  | stray now code heard frame stream gone fits => exact here.writeRst now _ _ fits
  | flushed now owed fits =>
    refine Says.writeRst ?_ now _ _ fits
    exact here.quiet' rfl rfl
  | crowded now cause refused fits =>
    obtain ⟨-, hle, htable⟩ := StreamTable.openPeer_refused refused
    refine Says.writeRst ?_ now _ _ fits
    refine here.quiet rfl ?_
    rw [htable]
    exact Nat.le_of_lt (Nat.lt_of_not_le hle)
  | turnedAway now permit idle drained fits => exact here.writeRst now _ _ fits
  | malformed now contentLength code isOpen cause fits =>
    exact ((here.openRequest now _ isOpen fits).declare _ _).writeRst now _ _ fits
  | dispatched now contentLength isOpen cause valid served fits =>
    exact ((here.openRequest now _ isOpen fits).declare _ _).call _ _
  | answered now status enc isOpen cause fits =>
    exact (here.openRequest now true isOpen fits).respond now _ _ true enc fits
  | mistrailed now code permit live bad fits => exact here.writeRst now _ _ fits
  | trailered now permit live canSend fits => exact (here.call _ _).settle now _ _ fits
  | delivered now permit frame live conn within whole fits =>
    exact (here.receive _ _ _ _ _).deliver now _ _ _ fits
  | mismatched now code permit frame live conn within wrong fits =>
    exact (here.receive _ _ _ _ _).writeRst now _ _ fits
  | overspent now permit frame live conn past fits =>
    exact (here.receive _ _ _ _ _).writeRst now _ _ fits
  | late now permit frame gone conn fits =>
    refine Says.writeRst (Says.releaseConn ?_ _ fits) now _ _ fits
    exact (here.observe (.heard _)).quiet' rfl rfl
  | credited permit live fits => exact (here.observe (.handled _)).credit _ _ _ fits
  | responded now enc permit live fits =>
    exact (here.observe (.handled _)).respond now _ _ _ enc fits
  | refused now status enc permit refusal live started fits =>
    exact (here.observe (.handled _)).respond now _ _ _ enc fits
  | oversized now enc permit live fits => exact here.respond now _ _ _ enc fits
  | pushed => exact (here.observe (.handled _)).modifyStream _ _
  | trailersDue now enc permit live fits =>
    exact (here.observe (.handled _)).sendTrailers now _ _ enc fits
  | turned now sendWindow enc permit live fits chunk =>
    exact here.takeTurn now _ _ sendWindow enc fits ((Stream.turn_chunk_length _ _).trans chunk)

theorem Move.grows (h : Move P c c') : Says c c' := by
  have here := Says.refl c
  cases h with
  | note neutral => exact here.neutral neutral
  | alike alike => exact here.quiet' rfl alike.highestPeerId
  | events => exact here.quiet' rfl rfl
  | intercepted => exact here.call _ _
  | draining quiet uncommitted fits =>
    refine Says.observe ?_ (.goAway _ _ (Nat.le_trans (show 8 ≤ 16384 by decide) fits))
    exact here.quiet' rfl rfl
  | committed begun uncommitted fits =>
    exact (here.observe (.goAway _ _ (Nat.le_trans (show 8 ≤ 16384 by decide) fits))).quiet' rfl rfl
  | reclaimed fits => exact here.reclaim fits
  | on move => exact move.grows

theorem Fault.grows (h : Fault P c c') : Says c c' := by
  have here := Says.refl c
  cases h with
  | none => exact here
  | heard w => exact here.observe (.heard w)
  | idleData => exact (here.observe (.heard _)).quiet' rfl rfl
  | opened now endStream isOpen cause fits => exact here.openRequest now endStream isOpen fits
  | unanswerable now enc fields isOpen cause fits =>
    exact (here.openRequest now true isOpen fits).observe (.encoded enc fields _)
  | received => exact here.receive _ _ _ _ _
  | transmitted now sendWindow permit live fits chunk =>
    exact here.transmit now _ _ sendWindow fits ((Stream.turn_chunk_length _ _).trans chunk)
  | unencodableEvent e enc fields limit =>
    exact (here.observe (.handled e)).observe (.encoded enc fields limit)
  | unencodable now sendWindow enc fields permit live fits chunk =>
    exact ((here.transmit now _ _ sendWindow fits
      ((Stream.turn_chunk_length _ _).trans chunk)).reportReleased now _ _).observe
      (.encoded enc fields _)

theorem Conn.Closing.grows (h : Conn.Closing c c') : Says c c' := by
  cases h with
  | quiet => exact (Says.refl c).call _ _
  | failed now fits => exact ((Says.refl c).short fits nofun nofun).call _ _

/-- What a run has added to its first log. -/
theorem Conn.Traced.grows {s₀ s : Conn σ μ} (h : Conn.Traced P s₀ s) :
    Says s₀.toConnCore s.toConnCore :=
  h.invariant (.refl _) (fun _ _ h m => h.trans m.grows) (fun _ h => h)
    (fun _ _ h f => h.trans f.grows) fun _ _ h cl => h.trans cl.grows

end Moves

end H2Proxy
