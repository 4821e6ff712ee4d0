import H2Proxy.Conn.StaleEvent

/-
  The ledger of received DATA.

  Every octet of body a client has sent is in exactly one place: still debited from a
  stream's window and held for it (`pendingConnRelease`), held by a stream that was retired
  (`reclaimed`), handed back but not announced (`unreleased`), or announced. `Ledger` says so
  for the connection's window and for the window of each live stream; `owed` counts the
  octets an effect has taken out of one place and not yet put in another.
-/

namespace H2Proxy

namespace ConnObs

variable {μ : Type}

/-- The octets of body heard here on the streams of `p`. -/
def received (p : StreamId → Bool) : ConnObs μ → Nat
  | .heard w => w.octets p
  | _ => 0

/-- What the DATA heard here costs the windows of the streams of `p`. -/
def charged (p : StreamId → Bool) : ConnObs μ → Nat
  | .heard w => w.cost p
  | _ => 0

/-- The credit announced here for the window of `id`. -/
def announced (id : StreamId) : ConnObs μ → Nat
  | .queued (.windowUpdate id' increment) _ _ => if id' = id then increment else 0
  | _ => 0

/-- The octets of body the responder is given here for `id`. -/
def given (id : StreamId) : ConnObs μ → Nat
  | .called (.body id' data _) => if id' = id then data.length else 0
  | _ => 0

/-- The octets of body the responder accepts here for `id`. -/
def accepted (id : StreamId) : ConnObs μ → Nat
  | .handled (.bodyAccepted id' n) => if id' = id then n else 0
  | _ => 0

/-- Neither DATA nor credit, and no body given or accepted. -/
structure Silent (o : ConnObs μ) : Prop where
  received : ∀ p, o.received p = 0
  announced : ∀ id, o.announced id = 0
  given : ∀ id, o.given id = 0
  accepted : ∀ id, o.accepted id = 0

theorem Silent.of {o : ConnObs μ}
    (h : ∀ p id, (o.received p, o.announced id, o.given id, o.accepted id) = (0, 0, 0, 0)) :
    o.Silent where
  received p := congrArg (·.1) (h p .connection)
  announced id := congrArg (·.2.1) (h (fun _ => true) id)
  given id := congrArg (·.2.2.1) (h (fun _ => true) id)
  accepted id := congrArg (·.2.2.2) (h (fun _ => true) id)

theorem silent_handled {e : ServiceEvent} (other : ∀ id n, e ≠ .bodyAccepted id n) :
    (.handled e : ConnObs μ).Silent := by
  cases e with
  | bodyAccepted id n => exact absurd rfl (other id n)
  | _ => exact .of fun _ _ => rfl

end ConnObs

/-- The sum of a measure over a log. -/
def tally {α : Type} (f : α → Nat) (log : List α) : Nat := (log.map f).sum

section Tally

variable {α : Type} (f : α → Nat)

@[simp] theorem tally_nil : tally f [] = 0 := rfl

@[simp] theorem tally_cons (a : α) (log : List α) : tally f (a :: log) = f a + tally f log := by
  simp [tally]

@[simp] theorem tally_append (log log' : List α) :
    tally f (log ++ log') = tally f log + tally f log' := by
  simp [tally]

theorem tally_eq_zero {log : List α} (h : ∀ a ∈ log, f a = 0) : tally f log = 0 := by
  induction log with
  | nil => rfl
  | cons a log ih =>
    rw [tally_cons, h a List.mem_cons_self, ih fun b hb => h b (List.mem_cons_of_mem a hb)]

theorem tally_le {f g : α → Nat} (h : ∀ a, f a ≤ g a) (log : List α) :
    tally f log ≤ tally g log := by
  induction log with
  | nil => exact Nat.le_refl _
  | cons a log ih =>
    rw [tally_cons, tally_cons]
    exact Nat.add_le_add (h a) ih

/-- Sums of measures of which one bounds the other agree where the measures do. -/
theorem tally_eq_iff (f g : α → Nat) (h : ∀ a, f a ≤ g a) {log : List α} :
    tally f log = tally g log ↔ ∀ a ∈ log, f a = g a := by
  induction log with
  | nil => simp
  | cons a log ih =>
    have ha := h a
    have hlog := tally_le h log
    rw [tally_cons, tally_cons, List.forall_mem_cons, ← ih]
    omega

end Tally

namespace StreamTable

/-- The octets held for live streams and for streams that were retired. -/
def held (t : StreamTable) : Nat := t.live.total (·.pendingConnRelease) + t.reclaimed

/-- The tables hold the same octets, and every live stream was live with the same account. -/
structure Holds (t t' : StreamTable) : Prop where
  held : t'.held = t.held
  reclaimed : t.reclaimed ≤ t'.reclaimed
  highestPeerId : t.highestPeerId ≤ t'.highestPeerId
  highestLocalId : t'.highestLocalId = t.highestLocalId
  initialRecvWindow : t'.initialRecvWindow = t.initialRecvWindow
  live : ∀ id s', t'.get? id = some s' → ∃ s, t.get? id = some s ∧
    s'.recvWindow = s.recvWindow ∧ s'.pendingConnRelease = s.pendingConnRelease

theorem Holds.refl (t : StreamTable) : t.Holds t :=
  ⟨rfl, Nat.le_refl _, Nat.le_refl _, rfl, rfl, fun _ s h => ⟨s, h, rfl, rfl⟩⟩

theorem Holds.trans {t t' t'' : StreamTable} (h : t.Holds t') (h' : t'.Holds t'') : t.Holds t'' := by
  refine ⟨h'.held.trans h.held, Nat.le_trans h.reclaimed h'.reclaimed,
    Nat.le_trans h.highestPeerId h'.highestPeerId, h'.highestLocalId.trans h.highestLocalId,
    h'.initialRecvWindow.trans h.initialRecvWindow, ?_⟩
  intro id s'' hs''
  obtain ⟨s', hs', hw', hp'⟩ := h'.live id s'' hs''
  obtain ⟨s, hs, hw, hp⟩ := h.live id s' hs'
  exact ⟨s, hs, hw'.trans hw, hp'.trans hp⟩

theorem holds_modify (t : StreamTable) (id : StreamId) {f : Stream → Stream}
    (h : ∀ s, t.get? id = some s → (f s).recvWindow = s.recvWindow ∧
      (f s).pendingConnRelease = s.pendingConnRelease) : t.Holds (t.modify id f) := by
  refine ⟨?_, Nat.le_refl _, Nat.le_refl _, rfl, rfl, ?_⟩
  · show (t.live.modify id f).total _ + t.reclaimed = _
    congr 1
    refine AList.total_congr _ fun k => ?_
    rw [AList.lookup_modify]
    split
    · rename_i hk
      subst hk
      cases hs : t.live.lookup k with
      | none => rfl
      | some s => simp [(h s hs).2]
    · rfl
  · intro id' s' hs'
    rw [get?_modify] at hs'
    split at hs'
    · rename_i hk
      subst hk
      obtain ⟨s, hs, rfl⟩ := Option.map_eq_some_iff.mp hs'
      exact ⟨s, hs, h s hs⟩
    · exact ⟨s', hs', rfl, rfl⟩

theorem holds_retire {t : StreamTable} (id : StreamId) (h : t.held ≤ u32Max) :
    t.Holds (t.retire id) := by
  unfold retire
  cases hs : t.get? id with
  | none => exact .refl t
  | some s =>
    have hsum := AList.total_eq_erase (·.pendingConnRelease) hs
    have hheld : t.held = s.pendingConnRelease +
      (t.live.erase id).total (·.pendingConnRelease) + t.reclaimed := by rw [held, hsum]
    have hsat : satAdd32 t.reclaimed s.pendingConnRelease = t.reclaimed + s.pendingConnRelease :=
      satAdd32_eq (by omega)
    refine ⟨?_, ?_, Nat.le_refl _, rfl, rfl, ?_⟩
    · simp only [held, hsat]
      rw [hsum]
      omega
    · simp only [hsat]
      omega
    · intro id' s' hs'
      have hl : (t.live.erase id).lookup id' = some s' := hs'
      rw [AList.lookup_erase_eq] at hl
      split at hl
      · cases hl
      · exact ⟨s', hl, rfl, rfl⟩

theorem holds_apply {t : StreamTable} (id : StreamId) (event : StreamEvent)
    (h : t.held ≤ u32Max) : t.Holds (t.apply id event).1 := by
  unfold apply
  split
  · exact .refl t
  split
  · exact .refl t
  dsimp only
  have hm : ∀ next, t.Holds (t.modify id ({ · with state := next })) :=
    fun next => holds_modify t id fun _ _ => ⟨rfl, rfl⟩
  split
  · exact (hm _).trans (holds_retire id ((hm _).held ▸ h))
  · exact hm _

theorem Alike.holds {t t' : StreamTable} (h : t.Alike t') : t.Holds t' := by
  refine ⟨?_, Nat.le_of_eq h.reclaimed.symm, Nat.le_of_eq (congrArg _ h.highestPeerId.symm),
    h.highestLocalId, h.initialRecvWindow, ?_⟩
  · rw [held, held, h.reclaimed]
    congr 1
    refine AList.total_congr _ fun k => ?_
    have hk := h.live k
    show (t'.get? k).map _ = (t.get? k).map _
    generalize t.get? k = o, t'.get? k = o' at hk ⊢
    cases hk with
    | none => rfl
    | some ha => simp [ha.pendingConnRelease]
  · intro id s' hs'
    have hk := h.live id
    rw [hs'] at hk
    cases hs : t.get? id with
    | none => rw [hs] at hk; cases hk
    | some s =>
      rw [hs] at hk
      cases hk with
      | some ha => exact ⟨s, rfl, ha.recvWindow, ha.pendingConnRelease⟩

end StreamTable

/-! ## The accounts -/

/-- The account of one window: `held` octets are neither available nor batched, and what is
    available is what was granted and announced less what was heard. -/
structure RecvWindow.Account (r : RecvWindow) (granted : Int) (held heard announced : Nat) : Prop where
  initial : r.initial = granted
  balance : r.available + r.unreleased + held = granted
  counted : r.available + heard = granted + announced
  batch : (r.unreleased : Int) * 2 < granted ∨ r.unreleased = 0
  low : -(2 ^ 31) ≤ r.available

namespace RecvWindow.Account

variable {r r' : RecvWindow} {granted : Int} {held heard announced : Nat}

theorem new {granted : Int} (low : -(2 ^ 31) ≤ granted) :
    (RecvWindow.new granted).Account granted 0 0 0 :=
  ⟨rfl, by simp [RecvWindow.new, available], by simp [RecvWindow.new, available], .inr rfl, low⟩

/-- Octets that arrive are held. -/
theorem record (h : r.Account granted held heard announced) {len : Nat}
    (hr : r.record len = .ok r') : r'.Account granted (held + len) (heard + len) announced := by
  obtain ⟨hle, ha, hu, hi⟩ := RecvWindow.record_ok hr
  refine ⟨hi.trans h.initial, ?_, ?_, hu ▸ h.batch, by omega⟩
  · have := h.balance
    rw [ha, hu]
    push_cast
    omega
  · have := h.counted
    rw [ha]
    push_cast
    omega

/-- Octets that were held are released, and what is announced is what the window grows by. -/
theorem release {n : Nat} (h : r.Account granted (held + n) heard announced)
    (high : granted ≤ maxWindowSize) :
    (r.release n).1.Account granted held heard (announced + (r.release n).2.getD 0) := by
  have hb := h.balance
  have hc := h.counted
  push_cast at hb
  have hsum := RecvWindow.release_sum r n (by omega) h.low
  have hinc := RecvWindow.release_increment r n (by omega) h.low
  have hlow := h.low
  refine ⟨(release_initial r n).trans h.initial, by omega, ?_, ?_, by omega⟩
  · push_cast
    omega
  · rw [← h.initial]
    exact release_batch r n

end RecvWindow.Account

/-- The ledger of a connection whose windows were granted as `window` and `initial`, and
    whose handshake announced `boot` octets; `fresh` counts the octets of each stream that
    the responder has yet to be given. -/
structure Ledger {σ μ : Type} (window initial : Int) (boot : Nat) (fresh : StreamId → Nat)
    (owed : Nat) (c : ConnCore σ μ) : Prop where
  conn : ∃ announced, tally (ConnObs.announced .connection) c.log = boot + announced ∧
    c.connRecvWindow.Account window (c.streams.held + owed)
      (tally (ConnObs.received fun _ => true) c.log) announced
  initialRecvWindow : c.streams.initialRecvWindow = initial
  highestLocalId : c.streams.highestLocalId = .connection
  live : ∀ id s, c.streams.get? id = some s → id ≠ .connection ∧ id ≤ c.streams.highestPeerId ∧
    s.recvWindow.Account initial s.pendingConnRelease (tally (ConnObs.received (· = id)) c.log)
      (tally (ConnObs.announced id) c.log)
  /-- What the responder was given and has not accepted is held. -/
  backed : ∀ id s, c.streams.get? id = some s →
    tally (ConnObs.given id) c.log + fresh id =
      tally (ConnObs.accepted id) c.log + s.pendingConnRelease
  unseen : ∀ id, ¬ id ≤ c.streams.highestPeerId →
    tally (ConnObs.received (· = id)) c.log = 0 ∧ tally (ConnObs.announced id) c.log = 0 ∧
      tally (ConnObs.given id) c.log = 0 ∧ tally (ConnObs.accepted id) c.log = 0

namespace Ledger

variable {σ μ : Type} {window initial : Int} {boot owed : Nat} {fresh : StreamId → Nat}
  {c c' : ConnCore σ μ}

theorem tally_silent (log : List (ConnObs μ)) {added : List (ConnObs μ)}
    (silent : ∀ o ∈ added, o.Silent) :
    (∀ p, tally (ConnObs.received p) (log ++ added) = tally (ConnObs.received p) log) ∧
      (∀ id, tally (ConnObs.announced id) (log ++ added) = tally (ConnObs.announced id) log) ∧
      (∀ id, tally (ConnObs.given id) (log ++ added) = tally (ConnObs.given id) log) ∧
      ∀ id, tally (ConnObs.accepted id) (log ++ added) = tally (ConnObs.accepted id) log := by
  refine ⟨fun p => ?_, fun id => ?_, fun id => ?_, fun id => ?_⟩
  · rw [tally_append, tally_eq_zero _ fun o ho => (silent o ho).received p, Nat.add_zero]
  · rw [tally_append, tally_eq_zero _ fun o ho => (silent o ho).announced id, Nat.add_zero]
  · rw [tally_append, tally_eq_zero _ fun o ho => (silent o ho).given id, Nat.add_zero]
  · rw [tally_append, tally_eq_zero _ fun o ho => (silent o ho).accepted id, Nat.add_zero]

/-- Neither window moves, nothing is heard or announced, and the tables hold the same. -/
theorem quiet (h : Ledger window initial boot fresh owed c) (added : List (ConnObs μ))
    (log : c'.log = c.log ++ added) (silent : ∀ o ∈ added, o.Silent)
    (conn : c'.connRecvWindow = c.connRecvWindow) (holds : c.streams.Holds c'.streams) :
    Ledger window initial boot fresh owed c' := by
  obtain ⟨received, announced, given, accepted⟩ := tally_silent c.log silent
  constructor
  · obtain ⟨n, hn, hacc⟩ := h.conn
    refine ⟨n, by rw [log, announced, hn], ?_⟩
    rw [conn, holds.held, log, received]
    exact hacc
  · exact holds.initialRecvWindow.trans h.initialRecvWindow
  · exact holds.highestLocalId.trans h.highestLocalId
  · intro id s' hs'
    obtain ⟨s, hs, hw, hp⟩ := holds.live id s' hs'
    obtain ⟨hid, hle, hacc⟩ := h.live id s hs
    refine ⟨hid, Nat.le_trans hle holds.highestPeerId, ?_⟩
    rw [hw, hp, log, received, announced]
    exact hacc
  · intro id s' hs'
    obtain ⟨s, hs, -, hp⟩ := holds.live id s' hs'
    rw [hp, log, given, accepted]
    exact h.backed id s hs
  · intro id hid
    rw [log, received, announced, given, accepted]
    exact h.unseen id fun hle => hid (Nat.le_trans hle holds.highestPeerId)

/-- No octet count saturates. -/
theorem held_le (h : Ledger window initial boot fresh owed c) (high : window ≤ maxWindowSize) :
    c.streams.held ≤ u32Max := by
  obtain ⟨n, -, hacc⟩ := h.conn
  have hb := hacc.balance
  have hlow := hacc.low
  unfold maxWindowSize at high
  unfold u32Max
  push_cast at hb
  omega

theorem observe (h : Ledger window initial boot fresh owed c) {o : ConnObs μ} (silent : o.Silent) :
    Ledger window initial boot fresh owed (c.observe o) :=
  h.quiet [o] rfl (by simpa using silent) rfl (.refl _)

theorem call (h : Ledger window initial boot fresh owed c) {call : Call} (r : σ × List (Effect μ))
    (other : ∀ id, (ConnObs.called call : ConnObs μ).given id = 0) :
    Ledger window initial boot fresh owed (c.call call r) := by
  refine h.quiet _ rfl ?_ rfl (.refl _)
  intro o ho
  obtain rfl | ho := List.mem_cons.mp ho
  · exact ⟨fun _ => rfl, fun _ => rfl, other, fun _ => rfl⟩
  · obtain ⟨x, -, hx⟩ := List.mem_filterMap.mp ho
    cases x with
    | emit event => cases hx
    | send message => cases hx; exact (.of fun _ _ => rfl)

theorem table (h : Ledger window initial boot fresh owed c) {streams : StreamTable}
    (holds : c.streams.Holds streams) : Ledger window initial boot fresh owed { c with streams } :=
  h.quiet [] (List.append_nil _).symm nofun rfl holds

theorem modifyStream (h : Ledger window initial boot fresh owed c) (id : StreamId) {f : Stream → Stream}
    (keeps : ∀ s, c.streams.get? id = some s → (f s).recvWindow = s.recvWindow ∧
      (f s).pendingConnRelease = s.pendingConnRelease) :
    Ledger window initial boot fresh owed (c.modifyStream id f) :=
  h.table (StreamTable.holds_modify _ id keeps)

/-- Credit that is owed goes back to the connection's window. -/
theorem releaseConn {n limit : Nat} (h : Ledger window initial boot fresh (owed + n) c)
    (high : window ≤ maxWindowSize) : Ledger window initial boot fresh owed (c.releaseConn n limit) := by
  obtain ⟨announced, hann, hacc⟩ := h.conn
  rw [← Nat.add_assoc] at hacc
  have hrel := hacc.release high
  have hlog : (c.releaseConn n limit).log = c.log ++
      ((c.connRecvWindow.release n).2.map fun increment =>
        ConnObs.queued (.windowUpdate .connection increment) [] limit).toList := rfl
  have received : ∀ p, tally (ConnObs.received p) (c.releaseConn n limit).log =
      tally (ConnObs.received p) c.log := by
    intro p
    rw [hlog]
    cases (c.connRecvWindow.release n).2 <;> simp [ConnObs.received]
  have given : ∀ id, tally (ConnObs.given id) (c.releaseConn n limit).log =
      tally (ConnObs.given id) c.log := by
    intro id
    rw [hlog]
    cases (c.connRecvWindow.release n).2 <;> simp [ConnObs.given]
  have accepted : ∀ id, tally (ConnObs.accepted id) (c.releaseConn n limit).log =
      tally (ConnObs.accepted id) c.log := by
    intro id
    rw [hlog]
    cases (c.connRecvWindow.release n).2 <;> simp [ConnObs.accepted]
  have others : ∀ id, id ≠ .connection → tally (ConnObs.announced id) (c.releaseConn n limit).log =
      tally (ConnObs.announced id) c.log := by
    intro id hid
    rw [hlog]
    cases (c.connRecvWindow.release n).2 <;> simp [ConnObs.announced, hid.symm]
  constructor
  · refine ⟨announced + (c.connRecvWindow.release n).2.getD 0, ?_, ?_⟩
    · rw [hlog]
      cases (c.connRecvWindow.release n).2 <;> simp [ConnObs.announced, hann, Nat.add_assoc]
    · rw [received]
      exact hrel
  · exact h.initialRecvWindow
  · exact h.highestLocalId
  · intro id s hs
    obtain ⟨hid, hle, hs⟩ := h.live id s hs
    refine ⟨hid, hle, ?_⟩
    rw [received, others id hid]
    exact hs
  · intro id s hs
    rw [given, accepted]
    exact h.backed id s hs
  · intro id hid
    obtain ⟨hr, ha, hg, hacc⟩ := h.unseen id hid
    refine ⟨(received _).trans hr, (others id ?_).trans ha, (given _).trans hg,
      (accepted _).trans hacc⟩
    rintro rfl
    exact hid (Nat.zero_le _)

theorem reclaim {limit : Nat} (h : Ledger window initial boot fresh owed c)
    (high : window ≤ maxWindowSize) : Ledger window initial boot fresh owed (c.reclaim limit) := by
  have taken : Ledger window initial boot fresh (owed + c.streams.reclaimed)
      { c with streams := { c.streams with reclaimed := 0 } } := by
    refine ⟨?_, h.initialRecvWindow, h.highestLocalId, h.live, h.backed, h.unseen⟩
    obtain ⟨announced, hann, hacc⟩ := h.conn
    refine ⟨announced, hann, ?_⟩
    have hheld : c.streams.held + owed =
        StreamTable.held { c.streams with reclaimed := 0 } + (owed + c.streams.reclaimed) := by
      unfold StreamTable.held
      dsimp only
      omega
    rw [← hheld]
    exact hacc
  unfold ConnCore.reclaim
  dsimp only
  split
  · rename_i hz
    rw [hz] at taken
    exact taken
  · exact taken.releaseConn high

theorem held_modify {t : StreamTable} {id : StreamId} {s : Stream} (f : Stream → Stream)
    (h : t.get? id = some s) :
    (t.modify id f).held + s.pendingConnRelease = (f s).pendingConnRelease + t.held := by
  have := AList.total_modify (·.pendingConnRelease) f h
  show (t.live.modify id f).total _ + t.reclaimed + _ = _ + (t.live.total _ + t.reclaimed)
  omega

/-- A stream's credit goes back to its own window, and to the connection's. -/
theorem credit {n limit : Nat} {id : StreamId} {stream : Stream}
    (h : Ledger window initial boot (fun id' => if id = id' then n else 0) owed c)
    (high : window ≤ maxWindowSize) (high' : initial ≤ maxWindowSize)
    (live : c.streams.get? id = some stream) (held : n ≤ stream.pendingConnRelease) :
    Ledger window initial boot (fun _ => 0) owed (c.credit id stream n limit) := by
  have backed := h.backed id stream live
  rw [if_pos rfl] at backed
  obtain ⟨notConn, hle, hacc⟩ := h.live id stream live
  rw [show stream.pendingConnRelease = stream.pendingConnRelease - n + n by omega] at hacc
  have hrel := hacc.release high'
  unfold ConnCore.credit
  dsimp only
  refine releaseConn ?_ high
  generalize hf : (fun s : Stream => { s with
    recvWindow := (stream.recvWindow.release n).1
    pendingConnRelease := s.pendingConnRelease - n }) = f
  have hfs : (f stream).recvWindow = (stream.recvWindow.release n).1 ∧
      (f stream).pendingConnRelease = stream.pendingConnRelease - n := by rw [← hf]; exact ⟨rfl, rfl⟩
  have hmod := held_modify f live
  rw [hfs.2] at hmod
  have received : ∀ p, tally (ConnObs.received p) (c.log ++
      ((stream.recvWindow.release n).2.map fun increment =>
        ConnObs.queued (.windowUpdate id increment) [] limit).toList) =
      tally (ConnObs.received p) c.log := by
    intro p
    cases (stream.recvWindow.release n).2 <;> simp [ConnObs.received]
  have announced : ∀ id', tally (ConnObs.announced id') (c.log ++
      ((stream.recvWindow.release n).2.map fun increment =>
        ConnObs.queued (.windowUpdate id increment) [] limit).toList) =
      tally (ConnObs.announced id') c.log +
        if id = id' then (stream.recvWindow.release n).2.getD 0 else 0 := by
    intro id'
    cases (stream.recvWindow.release n).2 <;> simp [ConnObs.announced]
  have given : ∀ id', tally (ConnObs.given id') (c.log ++
      ((stream.recvWindow.release n).2.map fun increment =>
        ConnObs.queued (.windowUpdate id increment) [] limit).toList) =
      tally (ConnObs.given id') c.log := by
    intro id'
    cases (stream.recvWindow.release n).2 <;> simp [ConnObs.given]
  have accepted : ∀ id', tally (ConnObs.accepted id') (c.log ++
      ((stream.recvWindow.release n).2.map fun increment =>
        ConnObs.queued (.windowUpdate id increment) [] limit).toList) =
      tally (ConnObs.accepted id') c.log := by
    intro id'
    cases (stream.recvWindow.release n).2 <;> simp [ConnObs.accepted]
  constructor
  · obtain ⟨a, ha, hconn⟩ := h.conn
    refine ⟨a, ?_, ?_⟩
    · show tally _ (c.log ++ _) = _
      rw [announced, if_neg notConn, ha, Nat.add_zero]
    · show RecvWindow.Account c.connRecvWindow window ((c.streams.modify id f).held + (owed + n))
        (tally _ (c.log ++ _)) a
      rw [received, show (c.streams.modify id f).held + (owed + n) = c.streams.held + owed by omega]
      exact hconn
  · exact h.initialRecvWindow
  · exact h.highestLocalId
  · intro id' s' hs'
    have hs' : (c.streams.modify id f).get? id' = some s' := hs'
    show id' ≠ .connection ∧ _ ∧ RecvWindow.Account _ _ _ (tally _ (c.log ++ _)) (tally _ (c.log ++ _))
    rw [received, announced]
    rw [StreamTable.get?_modify] at hs'
    split at hs'
    · rename_i hid
      subst hid
      rw [live] at hs'
      cases hs'
      rw [if_pos rfl, hfs.1, hfs.2]
      exact ⟨notConn, hle, hrel⟩
    · rename_i hid
      rw [if_neg (Ne.symm hid), Nat.add_zero]
      exact h.live id' s' hs'
  · intro id' s' hs'
    have hs' : (c.streams.modify id f).get? id' = some s' := hs'
    show tally _ (c.log ++ _) + _ = tally _ (c.log ++ _) + _
    rw [given, accepted]
    rw [StreamTable.get?_modify] at hs'
    split at hs'
    · rename_i hid
      subst hid
      rw [live] at hs'
      cases hs'
      rw [hfs.2]
      omega
    · rename_i hid
      have := h.backed id' s' hs'
      rwa [if_neg (Ne.symm hid)] at this
  · intro id' hid'
    have hne : id ≠ id' := fun he => hid' (he ▸ hle)
    show tally _ (c.log ++ _) = 0 ∧ tally _ (c.log ++ _) = 0 ∧ tally _ (c.log ++ _) = 0 ∧
      tally _ (c.log ++ _) = 0
    rw [received, announced, given, accepted, if_neg hne, Nat.add_zero]
    exact h.unseen id' hid'

theorem octets_of {w : WireFrame} {id : StreamId} {data : Bytes} {endStream : Bool}
    (frame : w.data? = some (id, data, endStream)) (p : StreamId → Bool) :
    w.octets p = if p id then data.length else 0 := by
  unfold WireFrame.octets
  rw [frame]

/-- DATA is heard on a stream that has been seen: the connection's window is charged, and
    the tables after it account for the octets. -/
theorem hear {owed' : Nat} {fresh' : StreamId → Nat} (h : Ledger window initial boot fresh owed c) {w : WireFrame}
    {id : StreamId} {data : Bytes} {endStream : Bool} {connRecvWindow : RecvWindow}
    (streams : StreamTable) (frame : w.data? = some (id, data, endStream))
    (conn : c.connRecvWindow.record data.length = .ok connRecvWindow)
    (seen : id ≤ c.streams.highestPeerId)
    (held : streams.held + owed' = c.streams.held + owed + data.length)
    (top : streams.highestPeerId = c.streams.highestPeerId)
    (locals : streams.highestLocalId = c.streams.highestLocalId)
    (grant : streams.initialRecvWindow = c.streams.initialRecvWindow)
    (others : ∀ id' s', id' ≠ id → streams.get? id' = some s' → c.streams.get? id' = some s')
    (own : ∀ s', streams.get? id = some s' → id ≠ .connection ∧
      s'.recvWindow.Account initial s'.pendingConnRelease
        (tally (ConnObs.received (· = id)) c.log + data.length)
        (tally (ConnObs.announced id) c.log) ∧
      tally (ConnObs.given id) c.log + fresh' id =
        tally (ConnObs.accepted id) c.log + s'.pendingConnRelease)
    (rest : ∀ id', id' ≠ id → fresh' id' = fresh id') :
    Ledger window initial boot fresh' owed'
      { c.observe (.heard w) with connRecvWindow := connRecvWindow, streams := streams } := by
  have received : ∀ p, tally (ConnObs.received p) (c.log ++ [.heard w]) =
      tally (ConnObs.received p) c.log + if p id then data.length else 0 := by
    intro p
    simp [ConnObs.received, octets_of frame]
  have announced : ∀ id', tally (ConnObs.announced id') (c.log ++ [.heard w]) =
      tally (ConnObs.announced id') c.log := by
    intro id'
    simp [ConnObs.announced]
  have given : ∀ id', tally (ConnObs.given id') (c.log ++ [.heard w]) =
      tally (ConnObs.given id') c.log := by
    intro id'
    simp [ConnObs.given]
  have accepted : ∀ id', tally (ConnObs.accepted id') (c.log ++ [.heard w]) =
      tally (ConnObs.accepted id') c.log := by
    intro id'
    simp [ConnObs.accepted]
  obtain ⟨a, ha, hacc⟩ := h.conn
  constructor
  · refine ⟨a, (announced _).trans ha, ?_⟩
    show RecvWindow.Account _ _ _ (tally _ (c.log ++ [.heard w])) a
    rw [received, if_pos rfl]
    show RecvWindow.Account _ _ (streams.held + owed') _ a
    rw [held]
    exact hacc.record conn
  · exact grant.trans h.initialRecvWindow
  · exact locals.trans h.highestLocalId
  · intro id' s' hs'
    show id' ≠ .connection ∧ id' ≤ streams.highestPeerId ∧
      RecvWindow.Account _ _ _ (tally _ (c.log ++ [.heard w])) (tally _ (c.log ++ [.heard w]))
    rw [received, announced, top]
    by_cases hid : id' = id
    · subst hid
      rw [if_pos (by simp)]
      obtain ⟨hc, hown, -⟩ := own s' hs'
      exact ⟨hc, seen, hown⟩
    · rw [if_neg (by simpa using Ne.symm hid), Nat.add_zero]
      exact h.live id' s' (others id' s' hid hs')
  · intro id' s' hs'
    show tally _ (c.log ++ [.heard w]) + _ = tally _ (c.log ++ [.heard w]) + _
    rw [given, accepted]
    by_cases hid : id' = id
    · subst hid
      exact (own s' hs').2.2
    · rw [rest id' hid]
      exact h.backed id' s' (others id' s' hid hs')
  · intro id' hid'
    have hid' : ¬ id' ≤ c.streams.highestPeerId := top ▸ hid'
    have hne : id ≠ id' := fun he => hid' (he ▸ seen)
    show tally _ (c.log ++ [.heard w]) = 0 ∧ tally _ (c.log ++ [.heard w]) = 0 ∧
      tally _ (c.log ++ [.heard w]) = 0 ∧ tally _ (c.log ++ [.heard w]) = 0
    rw [received, announced, given, accepted, if_neg (by simpa using hne), Nat.add_zero]
    exact h.unseen id' hid'

section Receive

variable {w : WireFrame} {id : StreamId} {data : Bytes} {endStream : Bool} {stream : Stream}
  {connRecvWindow : RecvWindow}

/-- The octets a live stream holds do not saturate its counter. -/
theorem pending_sat (h : Ledger window initial boot fresh owed c) (high : window ≤ maxWindowSize)
    (live : c.streams.get? id = some stream)
    (conn : c.connRecvWindow.record data.length = .ok connRecvWindow) :
    satAdd32 stream.pendingConnRelease data.length = stream.pendingConnRelease + data.length := by
  obtain ⟨a, -, hacc⟩ := h.conn
  have hle := AList.le_total (·.pendingConnRelease) live
  have hb := (hacc.record conn).balance
  have hlow := (hacc.record conn).low
  apply satAdd32_eq
  unfold StreamTable.held at hb
  unfold u32Max
  unfold maxWindowSize at high
  push_cast at hb
  omega

theorem receive (h : Ledger window initial boot (fun _ => 0) owed c) (high : window ≤ maxWindowSize)
    (frame : w.data? = some (id, data, endStream)) (live : c.streams.get? id = some stream)
    (conn : c.connRecvWindow.record data.length = .ok connRecvWindow) {recvWindow : RecvWindow}
    (within : stream.recvWindow.record data.length = .ok recvWindow) :
    Ledger window initial boot (fun id' => if id' = id then data.length else 0) owed
      (c.receive w id data.length connRecvWindow (some recvWindow)) := by
  obtain ⟨notConn, hle, hacc⟩ := h.live id stream live
  have hsat := h.pending_sat high live conn
  refine h.hear _ frame conn hle ?_ rfl rfl rfl ?_ ?_ fun id' hid => if_neg hid
  · have := held_modify (fun s => { s with
      dataReceived := satAdd64 s.dataReceived data.length
      pendingConnRelease := satAdd32 s.pendingConnRelease data.length
      recvWindow := (some recvWindow).getD s.recvWindow }) live
    dsimp only at this
    show StreamTable.held (c.streams.modify id _) + owed = _
    omega
  · intro id' s' hid hs'
    rw [StreamTable.get?_modify, if_neg hid] at hs'
    exact hs'
  · intro s' hs'
    rw [StreamTable.get?_modify, if_pos rfl, ConnCore.observe_streams, live] at hs'
    cases hs'
    have := h.backed id stream live
    refine ⟨notConn, ?_, ?_⟩
    · dsimp only [Option.getD_some]
      rw [hsat]
      exact hacc.record within
    · dsimp only
      rw [hsat, if_pos rfl]
      omega

/-- DATA past the window of its stream is the connection's once the stream is retired. -/
theorem overspend [Service σ μ] (h : Ledger window initial boot fresh owed c)
    (high : window ≤ maxWindowSize) (frame : w.data? = some (id, data, endStream))
    (live : c.streams.get? id = some stream)
    (conn : c.connRecvWindow.record data.length = .ok connRecvWindow) (now : Instant)
    (code : ErrorCode) :
    Ledger window initial boot fresh owed
      ((c.receive w id data.length connRecvWindow none).abandon now id code) := by
  obtain ⟨notConn, hle, hacc⟩ := h.live id stream live
  have hsat := h.pending_sat high live conn
  generalize hf : (fun s : Stream => { s with
    dataReceived := satAdd64 s.dataReceived data.length
    pendingConnRelease := satAdd32 s.pendingConnRelease data.length
    recvWindow := (none : Option RecvWindow).getD s.recvWindow }) = f
  have hheld : (c.streams.modify id f).held = c.streams.held + data.length := by
    have := held_modify f live
    rw [← hf] at this ⊢
    dsimp only at this
    omega
  have hbound : (c.streams.modify id f).held ≤ u32Max := by
    obtain ⟨a, -, hconn⟩ := h.conn
    have hb := (hconn.record conn).balance
    have hlow := (hconn.record conn).low
    rw [hheld]
    unfold u32Max
    unfold maxWindowSize at high
    push_cast at hb
    omega
  have retired := StreamTable.holds_retire id hbound
  have heard : Ledger window initial boot fresh owed
      { c.observe (.heard w) with
        connRecvWindow := connRecvWindow, streams := (c.streams.modify id f).retire id } := by
    refine h.hear _ frame conn hle ?_ (StreamTable.retire_top _ _) retired.highestLocalId
      retired.initialRecvWindow ?_ ?_ fun _ _ => rfl
    · rw [retired.held, hheld]
      omega
    · intro id' s' hid hs'
      rw [StreamTable.get?_retire, if_neg hid, StreamTable.get?_modify, if_neg hid] at hs'
      exact hs'
    · intro s' hs'
      rw [StreamTable.get?_retire, if_pos rfl] at hs'
      cases hs'
  rw [← hf] at heard
  exact heard.call _ fun _ => rfl

/-- DATA for a stream that is gone is credited back at once. -/
theorem receiveLate {limit : Nat} (h : Ledger window initial boot fresh owed c)
    (high : window ≤ maxWindowSize) (frame : w.data? = some (id, data, endStream))
    (gone : c.streams.lookup id = .closed)
    (conn : c.connRecvWindow.record data.length = .ok connRecvWindow) :
    Ledger window initial boot fresh owed
      ({ c.observe (.heard w) with connRecvWindow }.releaseConn data.length limit) := by
  obtain ⟨hnone, hseen⟩ := StreamTable.lookup_closed gone
  have hle : id ≤ c.streams.highestPeerId := by
    have hmax := of_decide_eq_true hseen
    rw [StreamId.le_max_iff, h.highestLocalId] at hmax
    exact hmax.elim (fun hl => hl) fun h0 => Nat.le_trans h0 (Nat.zero_le _)
  refine releaseConn ?_ high
  refine h.hear c.streams frame conn hle (by omega) rfl rfl rfl (fun _ _ _ h => h) ?_ fun _ _ => rfl
  intro s' hs'
  rw [hnone] at hs'
  cases hs'

end Receive

variable {limit : Nat}

theorem neutral (h : Ledger window initial boot fresh owed c) {o : ConnObs μ} (neutral : o.Neutral) :
    Ledger window initial boot fresh owed (c.observe o) := by
  refine h.observe ?_
  cases neutral with
  | heard other =>
    refine ⟨fun p => ?_, fun _ => rfl, fun _ => rfl, fun _ => rfl⟩
    simp [ConnObs.received, WireFrame.octets, other]
  | encoded enc fields limit => exact (.of fun _ _ => rfl)
  | @queued f limit fits kind =>
    refine ⟨fun _ => rfl, fun id => ?_, fun _ => rfl, fun _ => rfl⟩
    cases f with
    | windowUpdate => obtain kind | kind := kind <;> cases kind
    | _ => rfl

theorem headersOut (h : Ledger window initial boot fresh owed c) (id : StreamId)
    (fields : List Header) (endStream : Bool) (enc : HpackEncoder) :
    Ledger window initial boot fresh owed (c.headersOut id fields endStream enc limit) := by
  unfold ConnCore.headersOut
  exact (h.observe (.of fun _ _ => rfl)).observe (.of fun _ _ => rfl)

theorem declare (h : Ledger window initial boot fresh owed c) (id : StreamId)
    (contentLength : Option Nat) : Ledger window initial boot fresh owed (c.declare id contentLength) := by
  cases contentLength with
  | none => exact h
  | some n => exact h.modifyStream id fun _ _ => ⟨rfl, rfl⟩

variable [Service σ μ]

theorem abandon (h : Ledger window initial boot fresh owed c) (high : window ≤ maxWindowSize)
    (now : Instant) (id : StreamId) (code : ErrorCode) :
    Ledger window initial boot fresh owed (c.abandon now id code) := by
  unfold ConnCore.abandon
  refine call ?_ _ fun _ => rfl
  exact h.table (StreamTable.holds_retire id (h.held_le high))

theorem writeRst (h : Ledger window initial boot fresh owed c) (high : window ≤ maxWindowSize)
    (now : Instant) (id : StreamId) (code : ErrorCode) :
    Ledger window initial boot fresh owed (c.writeRst now id code limit) :=
  ((h.abandon high now id code).reclaim high).observe (.of fun _ _ => rfl)

theorem settle (h : Ledger window initial boot fresh owed c) (high : window ≤ maxWindowSize)
    (now : Instant) (id : StreamId) (event : StreamEvent) :
    Ledger window initial boot fresh owed (c.settle now id event limit) := by
  have holds := StreamTable.holds_apply id event (h.held_le high)
  unfold ConnCore.settle
  generalize c.streams.apply id event = r at holds
  obtain ⟨streams, result⟩ := r
  have applied : Ledger window initial boot fresh owed { c with streams } := h.table holds
  cases result with
  | ok state =>
    dsimp only
    split
    · exact (applied.call _ fun _ => rfl).reclaim high
    · exact applied
  | error e =>
    dsimp only
    split
    · exact applied
    · refine applied.quiet [] (List.append_nil _).symm nofun rfl ?_
      exact StreamTable.holds_retire id (applied.held_le high)

theorem respond (h : Ledger window initial boot fresh owed c) (high : window ≤ maxWindowSize)
    (now : Instant) (id : StreamId) (response : Response) (endStream : Bool) (enc : HpackEncoder) :
    Ledger window initial boot fresh owed (c.respond now id response endStream enc limit) := by
  unfold ConnCore.respond
  refine settle ?_ high now id _
  exact (h.headersOut id _ endStream enc).modifyStream id fun _ _ => ⟨rfl, rfl⟩

theorem sendTrailers (h : Ledger window initial boot fresh owed c) (high : window ≤ maxWindowSize)
    (now : Instant) (id : StreamId) (fields : List Header) (enc : HpackEncoder) :
    Ledger window initial boot fresh owed (c.sendTrailers now id fields enc limit) := by
  unfold ConnCore.sendTrailers
  split
  · exact h.modifyStream id fun _ _ => ⟨rfl, rfl⟩
  split
  · exact h.modifyStream id fun _ _ => ⟨rfl, rfl⟩
  · exact (h.headersOut id fields true enc).settle high now id _

theorem openRequest (h : Ledger window initial boot (fun _ => 0) owed c)
    (high : window ≤ maxWindowSize) (low : -(2 ^ 31) ≤ initial) (now : Instant) {id : StreamId}
    (endStream : Bool) (isOpen : (c.streams.openPeer id).2 = .ok ()) :
    Ledger window initial boot (fun _ => 0) owed (c.openRequest now id endStream limit) := by
  obtain ⟨odd, hle, htable⟩ := StreamTable.openPeer_ok isOpen
  have notConn : id ≠ .connection := by
    rintro rfl
    cases odd
  have gone : c.streams.get? id = none := by
    cases hs : c.streams.get? id with
    | none => rfl
    | some s => exact absurd (h.live id s hs).2.1 hle
  unfold ConnCore.openRequest
  refine settle (observe ?_ (.of fun _ _ => rfl)) high now id _
  rw [htable]
  obtain ⟨a, ha, hacc⟩ := h.conn
  refine ⟨⟨a, ha, ?_⟩, h.initialRecvWindow, h.highestLocalId, ?_, ?_, ?_⟩
  · have hheld : ({ c.streams with highestPeerId := id }.insertNew id).held = c.streams.held := by
      unfold StreamTable.held StreamTable.insertNew
      dsimp only
      rw [AList.total_insert_of_none _ _ gone]
      simp [Stream.new]
    show RecvWindow.Account _ _ (StreamTable.held _ + owed) _ a
    rw [hheld]
    exact hacc
  · intro id' s' hs'
    have hs' : ({ c.streams with highestPeerId := id }.insertNew id).get? id' = some s' := hs'
    rw [StreamTable.get?_insertNew] at hs'
    split at hs'
    · rename_i hid
      subst hid
      cases hs'
      obtain ⟨hr, hann, -⟩ := h.unseen id' hle
      refine ⟨notConn, Nat.le_refl _, ?_⟩
      rw [hr, hann]
      show RecvWindow.Account (.new c.streams.initialRecvWindow) initial 0 0 0
      rw [h.initialRecvWindow]
      exact .new low
    · obtain ⟨hc, hl, hs⟩ := h.live id' s' hs'
      exact ⟨hc, Nat.le_trans hl (Nat.le_of_lt (Nat.lt_of_not_le hle)), hs⟩
  · intro id' s' hs'
    have hs' : ({ c.streams with highestPeerId := id }.insertNew id).get? id' = some s' := hs'
    rw [StreamTable.get?_insertNew] at hs'
    split at hs'
    · rename_i hid
      subst hid
      cases hs'
      obtain ⟨-, -, given, accepted⟩ := h.unseen id' hle
      show _ + 0 = tally _ c.log + 0
      rw [given, accepted]
    · exact h.backed id' s' hs'
  · intro id' hid'
    exact h.unseen id' fun hl => hid' (Nat.le_trans hl (Nat.le_of_lt (Nat.lt_of_not_le hle)))

theorem transmit (h : Ledger window initial boot fresh owed c) (high : window ≤ maxWindowSize)
    (now : Instant) {id : StreamId} {stream : Stream} (budget : Nat) (sendWindow : Window)
    (live : c.streams.get? id = some stream) :
    Ledger window initial boot fresh owed (c.transmit now id (stream.turn budget) sendWindow limit) := by
  have turned := h.modifyStream id (f := fun _ => { (stream.turn budget).rest with sendWindow })
    fun s hs => by
      cases live.symm.trans hs
      exact ⟨rfl, rfl⟩
  unfold ConnCore.transmit
  dsimp only
  split
  · exact (turned.observe (.of fun _ _ => rfl)).settle high now id _
  · exact turned

theorem reportReleased (h : Ledger window initial boot fresh owed c) (now : Instant) (id : StreamId)
    (n : Nat) : Ledger window initial boot fresh owed (c.reportReleased now id n) := by
  unfold ConnCore.reportReleased
  split
  · exact h.call _ fun _ => rfl
  · exact h

theorem takeTurn (h : Ledger window initial boot fresh owed c) (high : window ≤ maxWindowSize)
    (now : Instant) {id : StreamId} {stream : Stream} (budget : Nat) (sendWindow : Window)
    (enc : HpackEncoder) (live : c.streams.get? id = some stream) :
    Ledger window initial boot fresh owed
      (c.takeTurn now id (stream.turn budget) sendWindow enc limit) := by
  have transmitted : Ledger window initial boot fresh owed
      (c.transmit now id (stream.turn budget) sendWindow limit) :=
    h.transmit high now budget sendWindow live
  have sent := transmitted.reportReleased now id (stream.turn budget).chunk.length
  unfold ConnCore.takeTurn
  dsimp only
  split
  · exact sent.sendTrailers high now id _ enc
  · exact sent

omit [Service σ μ] in
/-- What a stream that is gone has yet to be given counts for nothing. -/
theorem forget (h : Ledger window initial boot fresh owed c)
    (gone : ∀ id, fresh id = 0 ∨ c.streams.get? id = none) :
    Ledger window initial boot (fun _ => 0) owed c := by
  refine ⟨h.conn, h.initialRecvWindow, h.highestLocalId, h.live, fun id s hs => ?_, h.unseen⟩
  have backed := h.backed id s hs
  obtain none_ | gone := gone id
  · rwa [none_] at backed
  · rw [gone] at hs
    cases hs

omit [Service σ μ] in
/-- The responder is given the octets that have come in. -/
theorem body {id : StreamId} {data : Bytes}
    (h : Ledger window initial boot (fun id' => if id' = id then data.length else 0) owed c)
    (endStream : Bool) (r : σ × List (Effect μ)) (seen : id ≤ c.streams.highestPeerId) :
    Ledger window initial boot (fun _ => 0) owed (c.call (.body id data endStream) r) := by
  have sent : ∀ f : ConnObs μ → Nat, (∀ m, f (.sent m) = 0) →
      tally f (c.call (.body id data endStream) r).log =
        tally f c.log + f (.called (.body id data endStream)) := by
    intro f hf
    unfold ConnCore.call
    rw [tally_append, tally_cons]
    refine congrArg (tally f c.log + ·) (Nat.add_eq_left.mpr (tally_eq_zero f fun o ho => ?_))
    obtain ⟨x, -, hx⟩ := List.mem_filterMap.mp ho
    cases x with
    | emit event => cases hx
    | send message => cases hx; exact hf message
  have received := fun p => sent (ConnObs.received p) fun _ => rfl
  have announced := fun id' => sent (ConnObs.announced id') fun _ => rfl
  have given := fun id' => sent (ConnObs.given id') fun _ => rfl
  have accepted := fun id' => sent (ConnObs.accepted id') fun _ => rfl
  obtain ⟨a, ha, hacc⟩ := h.conn
  refine ⟨⟨a, (announced _).trans ha, ?_⟩, h.initialRecvWindow, h.highestLocalId, ?_, ?_, ?_⟩
  · rw [received]
    exact hacc
  · intro id' s hs
    rw [received, announced]
    exact h.live id' s hs
  · intro id' s hs
    have backed := h.backed id' s hs
    rw [given, accepted]
    simp only [ConnObs.given, ConnObs.accepted, eq_comm (a := id)]
    exact backed
  · intro id' hid
    have other : ¬ id = id' := fun he => hid (he ▸ seen)
    rw [received, announced, given, accepted]
    simp only [ConnObs.received, ConnObs.announced, ConnObs.given, ConnObs.accepted, if_neg other]
    exact h.unseen id' hid

/-- The rest of `recv_data`. -/
theorem deliver {id : StreamId} {data : Bytes}
    (h : Ledger window initial boot (fun id' => if id' = id then data.length else 0) owed c)
    (high : window ≤ maxWindowSize) (now : Instant) (endStream : Bool)
    (seen : id ≤ c.streams.highestPeerId) :
    Ledger window initial boot (fun _ => 0) owed (c.deliver now id data endStream limit) := by
  have settled : Ledger _ _ _ _ _ (c.settle now id (.recvData endStream) limit) :=
    h.settle high now id (.recvData endStream)
  have top := ConnCore.settle_top c now id (.recvData endStream) limit
  unfold ConnCore.deliver
  dsimp only
  split
  · exact settled.body endStream _ (top ▸ seen)
  · rename_i hz
    have none_ : data = [] := by
      by_contra hd
      exact hz (by simp [hd])
    refine settled.forget fun id' => .inl ?_
    rw [none_]
    exact ite_self _

end Ledger

/-! ## Moves -/

/-- The responder accepts no more octets of a stream than it was given. -/
def honest {σ μ : Type} : Permit σ μ where
  event c
    | .bodyAccepted id n =>
      tally (ConnObs.accepted id) c.log + n ≤ tally (ConnObs.given id) c.log
    | _ => True

section Honest

variable {σ μ : Type}

instance : ∀ c w, Decidable ((honest : Permit σ μ).frame c w) := fun _ _ => .isTrue trivial
instance : ∀ c id endStream r, Decidable ((honest : Permit σ μ).block c id endStream r) :=
  fun _ _ _ _ => .isTrue trivial
instance : ∀ c id turn, Decidable ((honest : Permit σ μ).turn c id turn) :=
  fun _ _ _ => .isTrue trivial

instance (c : ConnCore σ μ) : (e : ServiceEvent) → Decidable ((honest : Permit σ μ).event c e)
  | .bodyAccepted id n => inferInstanceAs (Decidable
      (tally (ConnObs.accepted id) c.log + n ≤ tally (ConnObs.given id) c.log))
  | .head .. | .data .. | .trailers .. | .gone _ | .shed _ | .reset .. => .isTrue trivial

end Honest

/-- What an event accepts of a stream has yet to be credited. -/
theorem Ledger.handled {σ μ : Type} {window initial : Int} {boot : Nat} {c : ConnCore σ μ}
    (h : Ledger window initial boot (fun _ => 0) 0 c) {e : ServiceEvent}
    (permit : honest.event c e) :
    Ledger window initial boot (ConnObs.handled e : ConnObs μ).accepted 0
      (c.observe (.handled e)) := by
  have logged : ∀ f : ConnObs μ → Nat,
      tally f (c.observe (.handled e)).log = tally f c.log + f (.handled e) := by
    intro f
    show tally f (c.log ++ [_]) = _
    rw [tally_append, tally_cons, tally_nil, Nat.add_zero]
  have received := fun p => logged (ConnObs.received p)
  have announced := fun id => logged (ConnObs.announced id)
  have given := fun id => logged (ConnObs.given id)
  have accepted := fun id => logged (ConnObs.accepted id)
  obtain ⟨a, ha, hacc⟩ := h.conn
  refine ⟨⟨a, (announced _).trans ha, ?_⟩, h.initialRecvWindow, h.highestLocalId, ?_, ?_, ?_⟩
  · rw [received]
    exact hacc
  · intro id s hs
    rw [received, announced]
    exact h.live id s hs
  · intro id s hs
    have backed := h.backed id s hs
    rw [given, accepted]
    simp only [ConnObs.given]
    omega
  · intro id hid
    obtain ⟨hr, ha, hg, hc⟩ := h.unseen id hid
    rw [received, announced, given, accepted]
    refine ⟨hr, ha, hg, ?_⟩
    rw [hc, Nat.zero_add]
    cases e with
    | bodyAccepted id' n =>
      show (if id' = id then n else 0) = 0
      split
      · rename_i hid
        subst hid
        have permit : tally (ConnObs.accepted id') c.log + n ≤ tally (ConnObs.given id') c.log :=
          permit
        omega
      · rfl
    | _ => rfl

/-- An event of no effect accepts nothing of a live stream. -/
theorem Ledger.idle {σ μ : Type} {window initial : Int} {boot : Nat} {c : ConnCore σ μ}
    (h : Ledger window initial boot (fun _ => 0) 0 c) {e : ServiceEvent}
    (permit : honest.event c e) (idle : c.streams.get? e.id = none ∨ e = .bodyAccepted e.id 0) :
    Ledger window initial boot (fun _ => 0) 0 (c.observe (.handled e)) := by
  refine (h.handled permit).forget fun id => ?_
  cases e with
  | bodyAccepted id' n =>
    show (if id' = id then n else 0) = 0 ∨ _
    split
    · rename_i hid
      subst hid
      obtain gone | none_ := idle
      · exact .inr gone
      · injection none_ with _ hn
        exact .inl hn
    · exact .inl rfl
  | _ => exact .inl rfl

theorem StreamMove.ledger {σ μ : Type} [Service σ μ] {window initial : Int}
    {boot : Nat} {c c' : ConnCore σ μ} {id : StreamId} (m : StreamMove honest c id c')
    (high : window ≤ maxWindowSize) (high' : initial ≤ maxWindowSize) (low : -(2 ^ 31) ≤ initial)
    (h : Ledger window initial boot (fun _ => 0) 0 c) :
    Ledger window initial boot (fun _ => 0) 0 c' := by
  cases m with
  | @handled e permit idle => exact h.idle permit idle
  | dropped now code permit ending live fits =>
    refine Ledger.writeRst (h.observe (ConnObs.silent_handled ?_)) high now _ code
    rintro id n rfl
    obtain h | h := ending <;> cases h
  | withdrawn now => exact h.abandon high now _ _
  | overgranted now code heard frame live bad fits => exact h.writeRst high now _ code
  | stray now code heard frame stream gone fits => exact h.writeRst high now _ code
  | flushed now owed fits =>
    refine Ledger.writeRst ?_ high now _ _
    exact h.quiet [] (List.append_nil _).symm nofun rfl (.refl _)
  | crowded now cause refused fits =>
    refine Ledger.writeRst ?_ high now _ _
    obtain ⟨-, hle, htable⟩ := StreamTable.openPeer_refused refused
    refine h.table ?_
    rw [htable]
    exact ⟨rfl, Nat.le_refl _, Nat.le_of_lt (Nat.lt_of_not_le hle), rfl, rfl,
      fun _ s hs => ⟨s, hs, rfl, rfl⟩⟩
  | turnedAway now => exact h.writeRst high now _ _
  | malformed now contentLength code isOpen cause fits =>
    exact ((h.openRequest high low now _ isOpen).declare _ _).writeRst high now _ code
  | dispatched now contentLength isOpen cause valid served fits =>
    exact ((h.openRequest high low now _ isOpen).declare _ _).call _ fun _ => rfl
  | answered now status enc isOpen cause fits =>
    exact (h.openRequest high low now true isOpen).respond high now _ _ true enc
  | mistrailed now code permit live bad fits => exact h.writeRst high now _ code
  | trailered now permit live canSend fits =>
    exact (h.call _ fun _ => rfl).settle high now _ _
  | delivered now permit frame live conn within whole fits =>
    exact (h.receive high frame live conn within).deliver high now _ (h.live _ _ live).2.1
  | @mismatched now w id data stream window recvWindow code limit permit frame live conn within
      wrong fits =>
    refine ((h.receive high frame live conn within).writeRst high now _ code).forget fun id' => ?_
    by_cases hid : id' = id
    · exact .inr (hid ▸ ConnCore.get?_writeRst ..)
    · exact .inl (if_neg hid)
  | overspent now permit frame live conn past fits =>
    exact ((h.overspend high frame live conn now _).reclaim high).observe
      (.of fun _ _ => rfl)
  | late now permit frame gone conn fits =>
    exact (h.receiveLate high frame gone conn).writeRst high now _ _
  | @credited id n stream limit permit live fits =>
    have backed := h.backed id stream live
    have bound : tally (ConnObs.accepted id) c.log + n ≤ tally (ConnObs.given id) c.log := permit
    exact (h.handled permit).credit high high' live (by omega)
  | responded now enc permit live fits =>
    exact (h.observe (.of fun _ _ => rfl)).respond high now _ _ _ enc
  | refused now status enc permit refusal live started fits =>
    refine Ledger.respond (h.observe (ConnObs.silent_handled ?_)) high now _ _ _ enc
    rintro id n rfl
    cases refusal
  | oversized now enc permit live fits => exact h.respond high now _ _ _ enc
  | pushed =>
    refine Ledger.modifyStream ?_ _ fun _ _ => ⟨rfl, rfl⟩
    exact h.observe (.of fun _ _ => rfl)
  | trailersDue now enc permit live fits =>
    exact (h.observe (.of fun _ _ => rfl)).sendTrailers high now _ _ enc
  | turned now sendWindow enc permit live fits chunk =>
    exact h.takeTurn high now _ sendWindow enc live

theorem Move.ledger {σ μ : Type} [Service σ μ] {window initial : Int}
    {boot : Nat} {c c' : ConnCore σ μ} (m : Move honest c c')
    (high : window ≤ maxWindowSize) (high' : initial ≤ maxWindowSize) (low : -(2 ^ 31) ≤ initial)
    (h : Ledger window initial boot (fun _ => 0) 0 c) :
    Ledger window initial boot (fun _ => 0) 0 c' := by
  cases m with
  | note neutral => exact h.neutral neutral
  | alike alike => exact h.table alike.holds
  | events => exact h.quiet [] (List.append_nil _).symm nofun rfl (.refl _)
  | intercepted => exact h.call _ fun _ => rfl
  | draining =>
    exact h.quiet [_] rfl (by simpa using .of fun _ _ => rfl) rfl (.refl _)
  | committed =>
    exact h.quiet [_] rfl (by simpa using .of fun _ _ => rfl) rfl (.refl _)
  | reclaimed => exact h.reclaim high
  | on move => exact move.ledger high high' low h

end H2Proxy
