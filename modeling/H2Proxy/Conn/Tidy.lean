import H2Proxy.Conn.Apart
import H2Proxy.Conn.Says

/-
  What the table and the owed resets say of an id: every live stream is at or below the highest
  id of the peer (`Numbered`), and a reset is owed only to a stream that was seen and has left
  the table (`Owing`). Every move keeps both (`Move.tidy`).
-/

namespace H2Proxy

variable {σ μ : Type} [Service σ μ] {P : Permit σ μ} {c c' : ConnCore σ μ}

/-! ## Live streams are numbered -/

/-- A stream that a move is about was live, is gone now, or is at or below the highest id. -/
theorem StreamMove.numbered {on : StreamId} (h : StreamMove P c on c') :
    (c.streams.get? on).isSome ∨ c'.streams.get? on = none ∨ on ≤ c'.streams.highestPeerId := by
  have isLive : ∀ {st : Stream}, c.streams.get? on = some st → (c.streams.get? on).isSome :=
    fun h => by rw [h]; rfl
  cases h with
  | handled permit idle =>
    cases hs : c.streams.get? _ with
    | none => exact .inr (.inl hs)
    | some st => exact .inl rfl
  | dropped _ _ _ _ live | withdrawn _ _ _ live | trailered _ _ live | delivered _ _ _ live
  | mismatched _ _ _ _ live | overspent _ _ _ live | credited _ live | responded _ _ _ live
  | refused _ _ _ _ _ live | oversized _ _ _ live | pushed _ live | trailersDue _ _ _ live
  | turned _ _ _ _ live => exact .inl (isLive live)
  | overgranted | stray | flushed | crowded | turnedAway | malformed | mistrailed | late =>
    exact .inr (.inl (ConnCore.get?_writeRst ..))
  | @dispatched now _ headers head endStream contentLength limit isOpen cause valid served fits =>
    refine .inr (.inr ?_)
    show on ≤ ((c.openRequest now on endStream limit).declare on contentLength).streams.highestPeerId
    exact Nat.le_trans (ConnCore.openRequest_top now endStream limit isOpen)
      ((Says.refl _).declare on contentLength).top
  | @answered now _ status enc limit isOpen cause fits =>
    exact .inr (.inr (Nat.le_trans (ConnCore.openRequest_top now true limit isOpen)
      ((Says.refl _).respond now on _ true enc fits).top))

/-- Every live stream is at or below the highest id of the peer. -/
def ConnCore.Numbered (c : ConnCore σ μ) : Prop :=
  ∀ id, (c.streams.get? id).isSome → id ≤ c.streams.highestPeerId

theorem Move.numbered (h : Move P c c') (hc : c.Numbered) : c'.Numbered := by
  have top := h.grows.top
  intro id live
  obtain noted | ⟨last, announced⟩ | quiet | ⟨on, move⟩ := h.kinds
  · refine Nat.le_trans (hc id ?_) top
    have hrel := noted.alike.live id
    generalize c.streams.get? id = o, c'.streams.get? id = o' at hrel live
    cases hrel with
    | none => exact live
    | some => rfl
  · rw [(announced.untouched id).live] at live
    exact Nat.le_trans (hc id live) top
  · rw [(quiet.untouched nofun).live] at live
    exact Nat.le_trans (hc id live) top
  · by_cases hid : on = id
    · subst hid
      obtain was | gone | seen := move.numbered
      · exact Nat.le_trans (hc on was) top
      · rw [gone] at live
        cases live
      · exact seen
    · rw [(move.concerns.untouched fun h => hid (Option.some.inj h)).live] at live
      exact Nat.le_trans (hc id live) top

/-! ## Owed resets -/

/-- A stream that was seen, and has left the table where a reset of it is owed. -/
structure ConnCore.Settled (id : StreamId) (c : ConnCore σ μ) : Prop where
  seen : id ≤ c.streams.highestPeerId
  gone : 0 < c.owed id → c.streams.get? id = none

namespace ConnCore.Settled

variable {id : StreamId}

omit [Service σ μ] in
theorem keeps (h : c.Settled id) (top : c'.streams.highestPeerId = c.streams.highestPeerId)
    (owed : c'.pendingReset = c.pendingReset)
    (gone : c.streams.get? id = none → c'.streams.get? id = none) : c'.Settled id := by
  refine ⟨top ▸ h.seen, fun ho => gone (h.gone ?_)⟩
  unfold ConnCore.owed at *
  rwa [owed] at ho

omit [Service σ μ] in
theorem modifyStream (h : c.Settled id) (f : Stream → Stream) : (c.modifyStream id f).Settled id := by
  refine h.keeps rfl rfl fun gone => ?_
  refine (StreamTable.get?_modify ..).trans ?_
  rw [if_pos rfl, gone]
  rfl

omit [Service σ μ] in
theorem reclaim (h : c.Settled id) (limit : Nat) : (c.reclaim limit).Settled id := by
  refine h.keeps (ConnCore.reclaim_top c limit) ?_ fun gone => (ConnCore.get?_reclaim ..).trans gone
  unfold ConnCore.reclaim
  dsimp only
  split <;> rfl

omit [Service σ μ] in
theorem declare (h : c.Settled id) (contentLength : Option Nat) :
    (c.declare id contentLength).Settled id := by
  cases contentLength with
  | none => exact h
  | some n => exact h.modifyStream _

variable (now : Instant) (limit : Nat)

theorem writeRst (h : c.Settled id) (code : ErrorCode) :
    (c.writeRst now id code limit).Settled id := by
  have retired : ({ c with streams := c.streams.retire id } : ConnCore σ μ).Settled id :=
    h.keeps (StreamTable.retire_top _ _) rfl fun _ => (StreamTable.get?_retire ..).trans (if_pos rfl)
  have told : (c.abandon now id code).Settled id := retired.keeps rfl rfl fun gone => gone
  exact (told.reclaim limit).keeps rfl rfl fun gone => gone

theorem settle (h : c.Settled id) (event : StreamEvent) :
    (c.settle now id event limit).Settled id := by
  have top := StreamTable.apply_top c.streams id event
  have applied : ∀ st, c.streams.get? id = some st → c.owed id = 0 := fun st live => by
    by_contra some_
    cases live.symm.trans (h.gone (Nat.pos_of_ne_zero some_))
  have alone : c.streams.get? id = none → (c.streams.apply id event).1.get? id = none := by
    intro gone
    unfold StreamTable.apply
    rw [gone]
    exact gone
  unfold ConnCore.settle
  generalize c.streams.apply id event = res at top alone
  obtain ⟨streams, result⟩ := res
  have kept : ({ c with streams } : ConnCore σ μ).Settled id := h.keeps top rfl alone
  cases result with
  | ok state =>
    dsimp only
    split
    · refine reclaim ?_ limit
      exact kept.keeps rfl rfl fun gone => gone
    · exact kept
  | error e =>
    dsimp only
    split
    · exact kept
    · refine ⟨?_, fun _ => (StreamTable.get?_retire ..).trans (if_pos rfl)⟩
      exact Nat.le_trans kept.seen (Nat.le_of_eq (congrArg _ (StreamTable.retire_top _ _).symm))

variable (enc : HpackEncoder)

theorem respond (h : c.Settled id) (response : Response) (endStream : Bool) :
    (c.respond now id response endStream enc limit).Settled id := by
  have out : (c.headersOut id response.toHeaders endStream enc limit).Settled id :=
    h.keeps rfl rfl fun gone => gone
  exact (out.modifyStream _).settle now limit _

theorem sendTrailers (h : c.Settled id) (fields : List Header) :
    (c.sendTrailers now id fields enc limit).Settled id := by
  have out : (c.headersOut id fields true enc limit).Settled id := h.keeps rfl rfl fun gone => gone
  unfold ConnCore.sendTrailers
  split
  · exact h.modifyStream _
  · split
    · exact h.modifyStream _
    · exact out.settle now limit _

theorem transmit (h : c.Settled id) (turn : Stream.Turn) (sendWindow : Window) :
    (c.transmit now id turn sendWindow limit).Settled id := by
  have taken := h.modifyStream fun _ => { turn.rest with sendWindow }
  unfold ConnCore.transmit
  dsimp only
  split
  · refine settle now limit ?_ _
    exact taken.keeps rfl rfl fun gone => gone
  · exact taken

theorem takeTurn (h : c.Settled id) (turn : Stream.Turn) (sendWindow : Window) :
    (c.takeTurn now id turn sendWindow enc limit).Settled id := by
  have sent := h.transmit now limit turn sendWindow
  have told : ((c.transmit now id turn sendWindow limit).reportReleased now id
      turn.chunk.length).Settled id := by
    unfold ConnCore.reportReleased
    split
    · exact sent.keeps rfl rfl fun gone => gone
    · exact sent
  unfold ConnCore.takeTurn
  dsimp only
  split
  · exact told.sendTrailers now limit enc _
  · exact told

end ConnCore.Settled

/-- A reset is owed only to a stream that was seen and has left the table. -/
def ConnCore.Owing (id : StreamId) (c : ConnCore σ μ) : Prop := 0 < c.owed id → c.Settled id

omit [Service σ μ] in
theorem ConnCore.Owing.settled {id : StreamId} (h : c.Owing id)
    (seen : id ≤ c.streams.highestPeerId) : c.Settled id :=
  ⟨seen, fun ho => (h ho).gone ho⟩

theorem StreamMove.owing {on : StreamId} (h : StreamMove P c on c') (numbered : c.Numbered)
    (ho : c.Owing on) : c'.Owing on := by
  have own : ∀ {st : Stream}, c.streams.get? on = some st → c.Settled on := fun live =>
    ho.settled (numbered on (by rw [live]; rfl))
  -- Nothing is owed to an id that was never seen, and a reset of it adds nothing.
  have reset : ∀ (b : ConnCore σ μ) now code limit, b.Owing on → (b.writeRst now on code limit).Owing on := by
    intro b now code limit hb hpos
    have same : (b.writeRst now on code limit).owed on = b.owed on := by
      unfold ConnCore.writeRst ConnCore.reclaim
      dsimp only
      split <;> rfl
    exact (hb (same ▸ hpos)).writeRst now limit code
  have opened : ∀ now endStream limit, (c.streams.openPeer on).2 = .ok () →
      (c.openRequest now on endStream limit).Settled on := by
    intro now endStream limit isOpen
    obtain ⟨-, unseen, htable⟩ := StreamTable.openPeer_ok isOpen
    have nothing : c.owed on = 0 := by
      by_contra some_
      exact unseen (ho (Nat.pos_of_ne_zero some_)).seen
    have seated : ({ c with streams := (c.streams.openPeer on).1 } : ConnCore σ μ).Settled on := by
      refine ⟨?_, fun hpos => ?_⟩
      · show on ≤ (c.streams.openPeer on).1.highestPeerId
        rw [htable]
        exact Nat.le_refl _
      · have hpos : 0 < c.owed on := hpos
        omega
    refine ConnCore.Settled.settle now limit ?_ _
    exact seated.keeps rfl rfl fun gone => gone
  have noted : ∀ {o : ConnObs μ} {st : Stream}, c.streams.get? on = some st →
      (c.observe o).Settled on := fun live => (own live).keeps rfl rfl fun gone => gone
  have received : ∀ {st : Stream} w len window recvWindow, c.streams.get? on = some st →
      (c.receive w on len window recvWindow).Settled on := by
    intro st w len window recvWindow live
    refine ConnCore.Settled.modifyStream ?_ _
    exact (own live).keeps rfl rfl fun gone => gone
  cases h with
  | handled permit idle => exact fun hpos => (ho hpos).keeps rfl rfl fun gone => gone
  | dropped now code permit ending live fits =>
    exact fun _ => (noted live).writeRst now _ code
  | withdrawn now heard frame live =>
    refine fun _ => (own live).keeps (StreamTable.retire_top _ _) rfl fun _ => ?_
    exact ConnCore.get?_abandon ..
  | overgranted | stray | turnedAway | mistrailed => exact reset _ _ _ _ ho
  | @flushed now es e limit owed fits =>
    refine reset _ _ _ _ fun hpos => ?_
    have settled := ho (by unfold ConnCore.owed at hpos ⊢; simp [owed, List.countP_append])
    exact ⟨settled.seen, fun _ => settled.gone (by
      unfold ConnCore.owed; simp [owed, List.countP_append])⟩
  | @crowded now _ limit cause refused fits =>
    obtain ⟨-, unseen, htable⟩ := StreamTable.openPeer_refused refused
    refine reset _ _ _ _ fun hpos => ?_
    exact absurd (ho hpos).seen unseen
  | malformed now contentLength code isOpen cause fits =>
    exact fun _ => ((opened now _ _ isOpen).declare contentLength).writeRst now _ code
  | dispatched now contentLength isOpen cause valid served fits =>
    exact fun _ => ((opened now _ _ isOpen).declare contentLength).keeps rfl rfl fun gone => gone
  | answered now status enc isOpen cause fits =>
    exact fun _ => (opened now true _ isOpen).respond now _ enc _ true
  | @trailered now _ headers stream limit permit live canSend fits =>
    have told : (c.call (.trailers on headers)
        (Service.trailers now on headers c.service)).Settled on :=
      (own live).keeps rfl rfl fun gone => gone
    exact fun _ => told.settle now limit _
  | @delivered now w _ data endStream stream window recvWindow limit permit frame live =>
    have settled := (received w data.length window (some recvWindow) live).settle now limit
      (.recvData endStream)
    intro _
    unfold ConnCore.deliver
    dsimp only
    split
    · exact settled.keeps rfl rfl fun gone => gone
    · exact settled
  | mismatched now code permit frame live conn within wrong fits =>
    exact fun _ => (received _ _ _ _ live).writeRst now _ code
  | overspent now permit frame live conn past fits =>
    exact fun _ => (received _ _ _ _ live).writeRst now _ _
  | @late now w _ data endStream window limit permit frame gone conn fits =>
    exact reset _ _ _ _ fun hpos => (ho hpos).keeps rfl rfl fun gone => gone
  | @credited _ n stream limit permit live fits =>
    have modified := (noted (o := .handled (.bodyAccepted on n)) live).modifyStream fun s =>
      { s with
        recvWindow := (stream.recvWindow.release n).1
        pendingConnRelease := s.pendingConnRelease - n }
    exact fun _ => modified.keeps rfl rfl fun gone => gone
  | responded now enc permit live fits => exact fun _ => (noted live).respond now _ enc _ _
  | refused now status enc permit refusal live started fits =>
    exact fun _ => (noted live).respond now _ enc _ true
  | oversized now enc permit live fits => exact fun _ => (own live).respond now _ enc _ true
  | pushed permit live => exact fun _ => (noted live).modifyStream _
  | trailersDue now enc permit live fits => exact fun _ => (noted live).sendTrailers now _ enc _
  | turned now sendWindow enc permit live fits chunk =>
    exact fun _ => (own live).takeTurn now _ enc _ sendWindow

/-- Every live stream is numbered, and every reset that is owed is of a stream that was. -/
structure ConnCore.Tidy (c : ConnCore σ μ) : Prop where
  numbered : c.Numbered
  owing : ∀ id, c.Owing id
  highestLocalId : c.streams.highestLocalId = .connection

theorem Move.tidy (h : Move P c c') (hc : c.Tidy) : c'.Tidy := by
  have top := h.grows.top
  have untouched : ∀ id, Untouched id c c' → c.Owing id → c'.Owing id := by
    intro id same ho hpos
    rw [same.owed] at hpos
    exact ⟨Nat.le_trans (ho hpos).seen top, fun _ => same.live.trans ((ho hpos).gone hpos)⟩
  refine ⟨h.numbered hc.numbered, fun id => ?_, ?_⟩
  · refine h.each (I := fun id c => c.Owing id) untouched (fun noted id ho hpos => ?_)
      (fun id move ho => move.owing hc.numbered ho) (hc.owing id)
    have owed : c'.owed id = c.owed id := by
      unfold ConnCore.owed
      rw [noted.owed]
    rw [owed] at hpos
    refine ⟨Nat.le_trans (ho hpos).seen top, fun _ => ?_⟩
    have hrel := noted.alike.live id
    rw [(ho hpos).gone hpos] at hrel
    generalize c'.streams.get? id = o at hrel
    cases hrel
    rfl
  · obtain noted | ⟨last, announced⟩ | quiet | ⟨on, move⟩ := h.kinds
    · exact noted.alike.highestLocalId.trans hc.highestLocalId
    · rw [announced.streams]
      exact hc.highestLocalId
    · exact quiet.highestLocalId.trans hc.highestLocalId
    · exact move.concerns.highestLocalId.trans hc.highestLocalId

omit [Service σ μ] in
theorem Conn.Fresh.tidy {s : Conn σ μ} (h : Fresh s) : s.toConnCore.Tidy := by
  obtain ⟨service, localSettings, window, limits, policy, admission, now, -, -, -, rfl⟩ := h
  exact ⟨nofun, fun _ => nofun, rfl⟩

end H2Proxy
