import H2Proxy.Conn.Calm
import H2Proxy.Conn.Dealings
import H2Proxy.Lib.Notice

/-
  The limit on streams of a client connection that follows a shared budget.

  The budget is announced by SETTINGS, and the client goes by what it acknowledged. What it may be
  going by is read off the log (`Tap.relied`); the connection keeps a `Notice` that is lenient
  towards it, so a client within the limit it acknowledged is not refused, and a client that has
  acknowledged everything is held to the latest limit (`obedient_not_refused`).
-/

namespace H2Proxy

namespace Frame

/-- The limit on its streams that a SETTINGS frame announces. -/
def limit? : Frame → Option Nat
  | .settings false params => (params.lookup SettingId.maxConcurrentStreams).map (·.toNat)
  | _ => none

def isSettingsAck : Frame → Bool
  | .settings true _ => true
  | _ => false

end Frame

namespace Tap

variable {α : Type} (T : Tap α)

/-- The limits announced, oldest first. -/
def limits (log : List α) : List Nat := log.filterMap fun a => (T.sent a).bind Frame.limit?

/-- How many SETTINGS were acknowledged. -/
def acks (log : List α) : Nat := log.countP fun a => (T.heard a).any Frame.isSettingsAck

/-- The limits the peer may be going by: the one it acknowledged last, before the first
    acknowledgement `ceiling`, and those on their way. -/
def relied (ceiling : Nat) (log : List α) : List Nat := (ceiling :: T.limits log).drop (T.acks log)

/-- The limit the peer acknowledged last. -/
def acknowledged (ceiling : Nat) (log : List α) : Nat := (T.relied ceiling log).headD ceiling

/-- Nothing announced or acknowledged. -/
def Mute (a : α) : Prop :=
  (T.sent a).bind Frame.limit? = none ∧ (T.heard a).any Frame.isSettingsAck = false

variable {T} {ceiling : Nat} {log log' : List α} {a : α}

theorem relied_mute (h : Adds T.Mute log log') : T.relied ceiling log' = T.relied ceiling log := by
  obtain ⟨added, rfl, mute⟩ := h
  have limits : T.limits added = [] := List.filterMap_eq_nil_iff.mpr fun a ha => (mute a ha).1
  have acks : T.acks added = 0 := List.countP_eq_zero.mpr fun a ha => by simp [(mute a ha).2]
  unfold relied
  rw [show T.limits (log ++ added) = T.limits log ++ T.limits added from List.filterMap_append,
    show T.acks (log ++ added) = T.acks log + T.acks added from List.countP_append, limits, acks,
    List.append_nil, Nat.add_zero]

/-- A limit goes out. -/
theorem relied_announce {v : Nat} (sent : (T.sent a).bind Frame.limit? = some v)
    (heard : T.heard a = none) (obeys : T.acks log ≤ (T.limits log).length) :
    T.relied ceiling (log ++ [a]) = T.relied ceiling log ++ [v] := by
  have limits : T.limits [a] = [v] := by
    unfold Tap.limits
    rw [List.filterMap_cons, sent]
    rfl
  have acks : T.acks [a] = 0 := by
    unfold Tap.acks
    rw [List.countP_singleton, heard]
    rfl
  unfold relied
  rw [show T.limits (log ++ [a]) = T.limits log ++ T.limits [a] from List.filterMap_append,
    show T.acks (log ++ [a]) = T.acks log + T.acks [a] from List.countP_append, limits, acks,
    Nat.add_zero, ← List.cons_append, List.drop_append_of_le_length]
  exact Nat.le_succ_of_le obeys

/-- An acknowledgement comes in. -/
theorem relied_ack (heard : (T.heard a).any Frame.isSettingsAck) (sent : T.sent a = none) :
    T.relied ceiling (log ++ [a]) = (T.relied ceiling log).tail := by
  have limits : T.limits [a] = [] := by
    unfold Tap.limits
    rw [List.filterMap_cons, sent]
    rfl
  have acks : T.acks [a] = 1 := by
    unfold Tap.acks
    rw [List.countP_singleton, if_pos heard]
  unfold relied
  rw [show T.limits (log ++ [a]) = T.limits log ++ T.limits [a] from List.filterMap_append,
    show T.acks (log ++ [a]) = T.acks log + T.acks [a] from List.countP_append, limits, acks,
    List.append_nil, List.tail_drop]

theorem length_relied (ceiling : Nat) (log : List α) :
    (T.relied ceiling log).length = (T.limits log).length + 1 - T.acks log := by
  unfold relied
  rw [List.length_drop, List.length_cons]

end Tap

namespace Conn

variable {σ μ : Type}

theorem mute_of_plain (o : ConnObs μ) (plain : o.plain) : (ConnObs.tap μ).Mute o := by
  cases o with
  | heard w => cases plain
  | queued f =>
    refine ⟨?_, rfl⟩
    cases f with
    | settings => cases plain
    | _ => rfl
  | _ => exact ⟨rfl, rfl⟩

/-- The limit is neither announced nor acknowledged, and what is known of it stays. -/
structure HoldsLimit (s t : Conn σ μ) : Prop where
  log : Adds (ConnObs.tap μ).Mute s.log t.log
  maxConcurrent : t.streams.maxConcurrent = s.streams.maxConcurrent
  admission : t.admission = s.admission
  advertisedStreams : t.advertisedStreams = s.advertisedStreams
  outstandingSettings : t.outstandingSettings = s.outstandingSettings
  enforcedStreams : t.enforcedStreams = s.enforcedStreams

instance : Std.Refl (HoldsLimit (σ := σ) (μ := μ)) :=
  ⟨fun _ => ⟨.refl _ _, rfl, rfl, rfl, rfl, rfl⟩⟩

instance : IsTrans (Conn σ μ) HoldsLimit :=
  ⟨fun _ _ _ h h' => ⟨h.log.trans h'.log, h'.maxConcurrent.trans h.maxConcurrent,
    h'.admission.trans h.admission, h'.advertisedStreams.trans h.advertisedStreams,
    h'.outstandingSettings.trans h.outstandingSettings,
    h'.enforcedStreams.trans h.enforcedStreams⟩⟩

variable {s t : Conn σ μ} {α : Type}

theorem Calm.holds (h : Calm s t) : HoldsLimit s t :=
  ⟨h.core.log.mono mute_of_plain, h.core.maxConcurrent, h.admission, h.advertisedStreams,
    h.outstandingSettings, h.enforcedStreams⟩

theorem holds_of_calm {r : EStateM.Result ConnectionError (Conn σ μ) α} (h : Follows Calm s r) :
    Follows HoldsLimit s r :=
  h.mono fun _ => Calm.holds

theorem HoldsLimit.same (log : t.log = s.log)
    (maxConcurrent : t.streams.maxConcurrent = s.streams.maxConcurrent)
    (admission : t.admission = s.admission)
    (advertisedStreams : t.advertisedStreams = s.advertisedStreams)
    (outstandingSettings : t.outstandingSettings = s.outstandingSettings)
    (enforcedStreams : t.enforcedStreams = s.enforcedStreams) : HoldsLimit s t :=
  ⟨log ▸ .refl _ _, maxConcurrent, admission, advertisedStreams, outstandingSettings,
    enforcedStreams⟩

/-! ## What holds the limit -/

theorem queueFrame_holds (s : Conn σ μ) {frame : Frame} (silent : frame.limit? = none) :
    Follows HoldsLimit s (queueFrame frame s) := by
  unfold queueFrame queueFields
  cases frame.write with
  | error e => exact .throw _
  | ok octets =>
    refine .get (.bind (x := onCore _) ?_ fun _ t _ => .modify (HoldsLimit.same rfl rfl rfl rfl rfl rfl))
    exact ⟨.one ⟨silent, rfl⟩, rfl, rfl, rfl, rfl, rfl⟩

theorem recvSettings_holds (s : Conn σ μ) (params : List (UInt16 × UInt32)) :
    Follows HoldsLimit s (recvSettings params s) := by
  unfold recvSettings
  refine .get (.get (.bind (.modify (HoldsLimit.same rfl rfl rfl rfl rfl rfl)) fun _ t _ => ?_))
  cases (s.peerSettings.apply params).2 with
  | error e => exact .throw _
  | ok u =>
    refine .bind (.modify (HoldsLimit.same rfl rfl rfl rfl rfl rfl)) fun _ t _ => .ite (fun _ => ?_) fun _ =>
      queueFrame_holds t rfl
    refine .get ?_
    rcases hshift : t.streams.applyInitialWindowDelta _ with ⟨streams, shifted⟩
    have kept : streams.maxConcurrent = t.streams.maxConcurrent :=
      (congrArg (·.1.maxConcurrent) hshift).symm
    refine .bind (x := onCore _) (HoldsLimit.same rfl kept rfl rfl rfl rfl) fun _ u _ => ?_
    cases shifted with
    | error code => exact .throw _
    | ok => exact queueFrame_holds u rfl

variable [Service σ μ]

theorem recvWindowUpdate_holds (s : Conn σ μ) (id : StreamId) (increment : Nat) :
    Follows HoldsLimit s (recvWindowUpdate id increment s) := by
  unfold recvWindowUpdate
  refine .ite (fun _ => .ite (fun _ => .throw _) fun _ => holds_of_calm (writeRstStream_calm s id _))
    fun _ => .ite (fun _ => .get ?_) fun _ => .get ?_
  · cases s.connSendWindow.increase increment with
    | error code => exact .throw _
    | ok connSendWindow => exact .modify (HoldsLimit.same rfl rfl rfl rfl rfl rfl)
  · cases s.streams.lookup id with
    | idle => exact .throw _
    | closed => exact .pure _
    | live stream =>
      dsimp only
      cases stream.sendWindow.increase increment with
      | error code => exact holds_of_calm (writeRstStream_calm s id _)
      | ok sendWindow =>
        refine .bind (x := onCore _) (HoldsLimit.same rfl rfl rfl rfl rfl rfl) fun _ t _ => ?_
        exact holds_of_calm (enqueueReady_calm t id)

/-- Of all frames only an acknowledgement touches the limit. -/
theorem handleFrame_holds (s : Conn σ μ) {f : Frame} (h : f.isSettingsAck = false) :
    Follows HoldsLimit s (handleFrame f s) := by
  have setBlock : ∀ (t : Conn σ μ) open_, Follows HoldsLimit t ((do
      modify fun s => { s with openHeaderBlock := open_ }
      pure .continue_ : ConnM σ μ Next) t) := fun t open_ =>
    .bind (.modify (HoldsLimit.same rfl rfl rfl rfl rfl rfl)) fun _ _ _ => .pure _
  unfold handleFrame
  refine .get ?_
  cases s.headerBlockError f.kind f.streamId with
  | some e => exact .throw _
  | none =>
    cases f with
    | settings ack params =>
      cases ack with
      | true => cases h
      | false =>
        exact .bind (holds_of_calm (calm_guarded s _)) fun _ t _ =>
          .bind (recvSettings_holds t params) fun _ u _ => .pure _
    | ping data ack =>
      refine .bind (holds_of_calm (calm_guarded s _)) fun _ t _ => ?_
      cases ack with
      | true => exact .pure _
      | false => exact .bind (queueFrame_holds t rfl) fun _ u _ => .pure _
    | goAway => exact .pure _
    | windowUpdate id increment =>
      exact .bind (recvWindowUpdate_holds s id increment) fun _ t _ => .pure _
    | headers id block endStream endHeaders =>
      refine .bind (.modify (HoldsLimit.same rfl rfl rfl rfl rfl rfl)) fun _ t _ => ?_
      exact .bind (holds_of_calm (readHeaderBlock_calm t id block endHeaders)) fun _ u _ => setBlock u _
    | continuation id block endHeaders =>
      exact .bind (holds_of_calm (readHeaderBlock_calm s id block endHeaders)) fun _ u _ => setBlock u _
    | data id data endStream =>
      exact .bind (holds_of_calm (recvData_calm s id data endStream)) fun _ t _ => .pure _
    | rstStream id code =>
      exact .bind (holds_of_calm (recvRstStream_calm s id code)) fun _ t _ => .pure _

/-- A frame off the wire that is no acknowledgement of SETTINGS. -/
theorem recvWire_holds (s : Conn σ μ) {w : WireFrame}
    (h : w.frame?.any Frame.isSettingsAck = false) : Follows HoldsLimit s (recvWire w s) := by
  unfold recvWire
  refine .bind (x := onCore _) ⟨.one ⟨rfl, h⟩, rfl, rfl, rfl, rfl, rfl⟩ fun _ t _ => .get ?_
  refine .ite (fun _ => .throw _) fun _ => ?_
  cases hdec : w.decode with
  | error e => exact .throw _
  | ok d =>
    cases d with
    | ignored kind id =>
      dsimp only
      cases t.openHeaderBlock with
      | none => exact .pure _
      | some open_ =>
        dsimp only
        cases t.headerBlockError kind id with
        | none => exact .pure _
        | some e => exact .throw _
    | frame f =>
      rw [WireFrame.frame?_of_decode hdec] at h
      exact handleFrame_holds t h

/-! ## The scheduler -/

omit [Service σ μ] in
/-- The streams are changed in place. -/
theorem HoldsLimit.modifyStream (s : Conn σ μ) (id : StreamId) (f : Stream → Stream) :
    Follows HoldsLimit s (onCore (.modifyStream id f) s) :=
  HoldsLimit.same rfl rfl rfl rfl rfl rfl

omit [Service σ μ] in
theorem spend_holds (s : Conn σ μ) (id : StreamId) (stream : Stream) (len : Nat) :
    Follows HoldsLimit s (spend id stream len s) := by
  refine .ite (fun _ => .get ?_) fun _ => .pure _
  cases stream.sendWindow.consume len with
  | error code => exact .throw _
  | ok sendWindow =>
    cases s.connSendWindow.consume len with
    | error code => exact .throw _
    | ok connSendWindow =>
      refine .bind (HoldsLimit.modifyStream s id _) fun _ t _ => ?_
      exact .modify (HoldsLimit.same rfl rfl rfl rfl rfl rfl)

theorem visitReadyStream_holds (s : Conn σ μ) (id : StreamId) :
    Follows HoldsLimit s (visitReadyStream id s) := by
  unfold visitReadyStream
  refine .get ?_
  cases s.streams.get? id with
  | none => exact .pure _
  | some stream =>
    refine .ite (fun _ => .bind (HoldsLimit.modifyStream s id _) fun _ t _ => .pure _) fun _ => ?_
    refine .bind (HoldsLimit.modifyStream s id _) fun _ t _ => .ite (fun _ => .pure _) fun _ => ?_
    refine .bind (spend_holds t id stream _) fun _ u _ => ?_
    refine .bind (x := transmit id _) (.ite (fun _ => ?_) fun _ => .pure _) fun _ v _ => ?_
    · exact .bind (queueFrame_holds u rfl) fun _ v _ =>
        holds_of_calm (applyStreamEvent_calm v id _ _)
    refine .bind (holds_of_calm (reportReleased_calm v id _)) fun _ w _ => ?_
    cases (stream.turn (s.budget stream)).trailers with
    | none => exact .get (.pure _)
    | some fields => exact .bind (holds_of_calm (sendTrailers_calm w id fields)) fun _ x _ => .get (.pure _)

theorem visitLap_holds (s : Conn σ μ) (ids : List StreamId) :
    Follows HoldsLimit s (visitLap ids s) := by
  induction ids generalizing s with
  | nil => exact .pure _
  | cons id lap ih =>
    exact .bind (visitReadyStream_holds s id) fun _ t _ => .bind (ih t) fun _ u _ => .pure _

omit [Service σ μ] in
theorem requeue_holds (s : Conn σ μ) (ids : List StreamId) :
    Follows HoldsLimit s (requeue ids s) := by
  induction ids generalizing s with
  | nil => exact .pure _
  | cons id ids ih => exact .bind (HoldsLimit.modifyStream s id _) fun _ t _ => ih t

theorem pumpLap_holds (s : Conn σ μ) : Follows HoldsLimit s (pumpLap s) := by
  refine .get (.bind (.modify (HoldsLimit.same rfl rfl rfl rfl rfl rfl)) fun _ t _ => ?_)
  refine .bind (visitLap_holds t _) fun _ u _ => .bind (requeue_holds u _) fun _ v _ => ?_
  exact .bind (.modify (HoldsLimit.same rfl rfl rfl rfl rfl rfl)) fun _ w _ => .pure _

theorem pumpLaps_holds (s : Conn σ μ) (fuel : Nat) : Follows HoldsLimit s (pumpLaps fuel s) := by
  induction fuel generalizing s with
  | zero => exact .pure _
  | succ fuel ih =>
    refine .get (.ite (fun _ => .pure _) fun _ => .bind (pumpLap_holds s) fun wrote t _ => ?_)
    exact .ite (fun _ => ih t) fun _ => .pure _

theorem pumpOutbound_holds (s : Conn σ μ) : Follows HoldsLimit s (pumpOutbound s) :=
  .get (.bind (pumpLaps_holds s _) fun _ t _ => .get (holds_of_calm (flushPendingResets_calm t _)))

/-! ## The limit -/

/-- The limit as the connection enforces and announces it. -/
def notice (s : Conn σ μ) : Notice Nat :=
  ⟨s.enforcedStreams, s.advertisedStreams, s.outstandingSettings⟩

/-- The client goes by one of these limits, and the one enforced is lenient towards each. -/
structure GoesBy (relied : List Nat) (s : Conn σ μ) : Prop where
  admission : s.admission
  table : s.streams.maxConcurrent = s.enforcedStreams
  notice : s.notice.Lenient relied

variable {relied : List Nat} {ceiling : Nat}

omit [Service σ μ] in
theorem GoesBy.holds (h : s.GoesBy relied) (held : HoldsLimit s t) : t.GoesBy relied := by
  refine ⟨held.admission ▸ h.admission, ?_, ?_⟩
  · rw [held.maxConcurrent, held.enforcedStreams, h.table]
  · unfold Conn.notice
    rw [held.enforcedStreams, held.advertisedStreams, held.outstandingSettings]
    exact h.notice

/-- The limit enforced is lenient towards what the client may be going by. -/
def Lenient (ceiling : Nat) (s : Conn σ μ) : Prop :=
  s.GoesBy ((ConnObs.tap μ).relied ceiling s.log)

omit [Service σ μ] in
theorem Lenient.holds (h : s.Lenient ceiling) (held : HoldsLimit s t) : t.Lenient ceiling := by
  unfold Lenient
  rw [Tap.relied_mute held.log]
  exact GoesBy.holds h held

omit [Service σ μ] in
/-- No more is acknowledged than was announced. -/
theorem Lenient.obeys (h : s.Lenient ceiling) :
    (ConnObs.tap μ).acks s.log ≤ ((ConnObs.tap μ).limits s.log).length := by
  have length := h.notice.length
  rw [Tap.length_relied] at length
  omega

omit [Service σ μ] in
theorem recvSettingsAck_goesBy (h : s.GoesBy relied) (open_ : 0 < s.outstandingSettings) :
    Ends (recvSettingsAck s) (fun _ t => t.GoesBy relied.tail ∧ t.log = s.log)
      fun _ _ => False := by
  have confirmed := h.notice.confirm open_
  unfold Notice.confirm notice at confirmed
  dsimp only at confirmed
  unfold recvSettingsAck
  rw [ends_bind, ends_modify, ends_bind, ends_get, ends_ite]
  refine ⟨fun lowers => ?_, fun keeps => ?_⟩
  · obtain ⟨⟨none_, -⟩, -⟩ : (s.outstandingSettings - 1 = 0 ∧ _) ∧ _ := by simpa using lowers
    rw [ends_bind, ends_modify, ends_onCore]
    rw [if_pos none_] at confirmed
    exact ⟨⟨h.admission, rfl, confirmed⟩, rfl⟩
  · rw [ends_pure]
    refine ⟨⟨h.admission, h.table, ?_⟩, rfl⟩
    have same : (if s.outstandingSettings - 1 = 0 then s.advertisedStreams
        else s.enforcedStreams) = s.enforcedStreams := by
      split
      · rename_i none_
        simpa [none_, h.admission] using keeps
      · rfl
    rwa [same] at confirmed

omit [Service σ μ] in
/-- The budget is looked at: a new one is announced, and holds at once where it is higher. -/
theorem syncAdmission_lenient (h : s.Lenient ceiling) {budget : Nat} (fits : budget ≤ u32Max)
    (room : s.outstandingSettings < u32Max) :
    Ends (syncAdmission budget s) (fun _ => Lenient ceiling) fun _ _ => True := by
  have announced := h.notice.announce budget
  have counted : satAdd32 s.outstandingSettings 1 = s.outstandingSettings + 1 := satAdd32_eq room
  have limit : (Frame.settings false [(SettingId.maxConcurrentStreams, UInt32.ofNat budget)]).limit? =
      some budget := by
    have value : (UInt32.ofNat budget).toNat = budget :=
      Nat.mod_eq_of_lt (Nat.lt_succ_of_le fits)
    exact congrArg some value
  have sent : ∀ t : Conn σ μ, t.log = s.log → t.admission →
      t.streams.maxConcurrent = t.enforcedStreams → t.notice = s.notice.announce budget →
      Ends (queueFrame (.settings false [(SettingId.maxConcurrentStreams, UInt32.ofNat budget)]) t)
        (fun _ => Lenient ceiling) fun _ _ => True := by
    intro t log admission table notice
    unfold queueFrame queueFields
    cases Frame.write _ with
    | error e => exact trivial
    | ok octets =>
      refine ⟨admission, table, ?_⟩
      show t.notice.Lenient ((ConnObs.tap μ).relied ceiling (t.log ++ [_]))
      rw [log, notice]
      rw [Tap.relied_announce (T := ConnObs.tap μ) (v := budget) ?_ rfl h.obeys]
      · exact announced
      · exact limit
  unfold syncAdmission
  rw [ends_bind, ends_get, ends_ite]
  refine ⟨fun _ => h, fun _ => ?_⟩
  rw [ends_bind, ends_modify, ends_ite]
  refine ⟨fun higher => ?_, fun lower => ?_⟩
  · rw [ends_bind, ends_modify, ends_bind, ends_onCore]
    refine sent _ rfl h.admission rfl ?_
    unfold Notice.announce notice
    rw [max_eq_right (Nat.le_of_lt higher), ← counted]
    rfl
  · refine sent _ rfl h.admission h.table ?_
    unfold Notice.announce notice
    rw [max_eq_left (Nat.le_of_not_lt lower), ← counted]

/-! ## Steps and runs -/

/-- What a client and a shared budget do: the client acknowledges no SETTINGS that it was not
    sent, the budget fits its `u32`, and the count of open SETTINGS does not saturate. -/
def obliges (s : Conn σ μ) (i : Instant × ConnInput) : Bool :=
  match i.2 with
  | .frame w => !w.frame?.any Frame.isSettingsAck ||
      (ConnObs.tap μ).acks s.log < ((ConnObs.tap μ).limits s.log).length
  | .pump budget => budget ≤ u32Max && s.outstandingSettings < u32Max
  | _ => true

/-- SETTINGS are acknowledged. -/
theorem recvWire_acked (h : s.Lenient ceiling) {w : WireFrame}
    (ack : w.frame?.any Frame.isSettingsAck)
    (owed : (ConnObs.tap μ).acks s.log < ((ConnObs.tap μ).limits s.log).length) :
    Ends (recvWire w s) (fun _ => Lenient ceiling) fun _ _ => True := by
  have log : (ConnObs.tap μ).relied ceiling (s.log ++ [.heard w]) =
      ((ConnObs.tap μ).relied ceiling s.log).tail := Tap.relied_ack ack rfl
  have open_ : 0 < s.outstandingSettings := by
    have length := h.notice.length
    rw [Tap.length_relied] at length
    have : s.notice.awaiting = s.outstandingSettings := rfl
    omega
  obtain ⟨f, decoded, acked⟩ : ∃ f, w.decode = .ok (.frame f) ∧ f.isSettingsAck := by
    unfold WireFrame.frame? at ack
    split at ack
    · rename_i f decoded
      exact ⟨f, decoded, ack⟩
    · cases ack
  obtain ⟨params, rfl⟩ : ∃ params, f = .settings true params := by
    unfold Frame.isSettingsAck at acked
    split at acked
    · exact ⟨_, rfl⟩
    · cases acked
  unfold recvWire
  rw [ends_bind, ends_onCore, ends_bind, ends_get, ends_ite]
  refine ⟨fun _ => trivial, fun _ => ?_⟩
  rw [decoded]
  unfold handleFrame
  rw [ends_bind, ends_get]
  cases Conn.headerBlockError _ _ _ with
  | some e => exact trivial
  | none =>
    dsimp only
    rw [ends_bind]
    refine Ends.mono (holds_of_calm (calm_guarded _ _)) (fun _ t held => ?_) fun _ _ _ => trivial
    have kept : t.GoesBy ((ConnObs.tap μ).relied ceiling s.log) :=
      GoesBy.holds (s := s.withCore (s.toConnCore.observe (.heard w)))
        ⟨h.admission, h.table, h.notice⟩ held
    have still : 0 < t.outstandingSettings := held.outstandingSettings ▸ open_
    rw [ends_bind]
    refine (recvSettingsAck_goesBy kept still).mono (fun _ u ⟨goes, same⟩ => ?_) fun _ _ no => no.elim
    show u.GoesBy ((ConnObs.tap μ).relied ceiling u.log)
    rw [same, Tap.relied_mute held.log]
    exact log ▸ goes

theorem react_lenient (h : s.Lenient ceiling) {i : Instant × ConnInput} (obliges : s.obliges i) :
    Ends (react i.2 { s with now := i.1 }) (fun _ => Lenient ceiling) fun _ _ => True := by
  have here : Lenient ceiling { s with now := i.1 } :=
    ⟨h.admission, h.table, h.notice⟩
  have held : ∀ {α : Type} {r : EStateM.Result ConnectionError (Conn σ μ) α},
      Follows HoldsLimit { s with now := i.1 } r → Ends r (fun _ => Lenient ceiling) fun _ _ => True :=
    fun hr => Ends.mono hr (fun _ t ht => here.holds ht) fun _ _ _ => trivial
  obtain ⟨now, input⟩ := i
  cases input with
  | frame w =>
    cases ack : w.frame?.any Frame.isSettingsAck with
    | false => exact held (recvWire_holds _ ack)
    | true =>
      refine recvWire_acked here ack ?_
      unfold Conn.obliges at obliges
      simpa [ack] using obliges
  | arrival event => exact held (.bind (x := onCore _) (HoldsLimit.same rfl rfl rfl rfl rfl rfl)
      fun _ _ _ => .pure _)
  | event =>
    refine held (.get ?_)
    dsimp only
    cases s.events with
    | nil => exact .pure _
    | cons event events =>
      refine .bind (x := onCore _) (HoldsLimit.same rfl rfl rfl rfl rfl rfl) fun _ t _ => ?_
      exact .bind (holds_of_calm (handleServiceEvent_calm t event)) fun _ _ _ => .pure _
  | pump budget =>
    obtain ⟨fits, room⟩ : budget ≤ u32Max ∧ s.outstandingSettings < u32Max := by
      simpa [Conn.obliges] using obliges
    refine ends_bind.mpr ((syncAdmission_lenient here fits room).mono
      (fun _ t ht => ?_) fun _ _ _ => trivial)
    refine ends_bind.mpr (Ends.mono (pumpOutbound_holds t) (fun _ u hu => ?_) fun _ _ _ => trivial)
    exact ht.holds hu
  | wrote n => exact held (.bind (.modify (HoldsLimit.same rfl rfl rfl rfl rfl rfl)) fun _ _ _ => .pure _)
  | shutdown =>
    refine held (.get (.ite (fun _ => ?_) fun _ => .pure _))
    exact .bind (holds_of_calm (beginDrain_calm _)) fun _ _ _ => .pure _
  | advance timerFired => exact held (holds_of_calm (advanceDrain_calm _ timerFired))
  | hangup => exact held (.pure _)

theorem step_lenient (h : s.stop = none → s.Lenient ceiling) {i : Instant × ConnInput}
    (obliges : s.obliges i) : (step i s).stop = none → (step i s).Lenient ceiling := by
  cases hs : s.stop with
  | some stop =>
    rw [step_stopped (by rw [hs]; rfl), hs]
    exact nofun
  | none =>
    have reacts := react_lenient (h hs) obliges
    rw [step_live hs]
    generalize react i.2 { s with now := i.1 } = r at reacts
    cases r with
    | error e t => exact nofun
    | ok next t =>
      cases next with
      | continue_ => exact fun _ => reacts
      | close => exact nofun

omit [Service σ μ] in
/-- The first SETTINGS announce the budget, under the limit that is enforced. -/
theorem start_lenient (service : σ) (localSettings : Settings) (window : Int) (limits : Limits)
    (policy : DrainPolicy) {initial : Nat} (now : Instant) (fits : initial ≤ u32Max)
    (below : initial ≤ localSettings.maxConcurrentStreams.getD u32Max) :
    (start service localSettings window limits policy (some initial) now : Conn σ μ).Lenient
      (localSettings.maxConcurrentStreams.getD u32Max) := by
  have value : (UInt32.ofNat initial).toNat = initial := Nat.mod_eq_of_lt (Nat.lt_succ_of_le fits)
  have announced : ({ localSettings with maxConcurrentStreams := some initial }).toFrame.limit? =
      some initial := by
    show ((List.lookup _ _).map _ : Option Nat) = _
    rw [List.append_assoc, List.append_assoc, List.append_assoc]
    split
    · exact congrArg some value
    · exact congrArg some value
  refine ⟨rfl, rfl, ?_⟩
  have relied : (ConnObs.tap μ).relied (localSettings.maxConcurrentStreams.getD u32Max)
      (start service localSettings window limits policy (some initial) now : Conn σ μ).log =
      [localSettings.maxConcurrentStreams.getD u32Max, initial] := by
    have first : ∀ (f : Frame) limit rest, f.limit? = some initial →
        (ConnObs.tap μ).limits (.queued f [] limit :: rest) =
          initial :: (ConnObs.tap μ).limits rest :=
      fun f limit rest h => List.filterMap_cons_some h
    exact congrArg (_ :: ·) (first _ _ _ announced)
  rw [relied]
  exact .start below

/-- In every run of a client connection whose budget starts no higher than its limit, and whose
    client acknowledges what it is sent, the limit enforced is no less than the one the client
    acknowledged last: within that, no stream is refused for concurrency. A client that has
    acknowledged every announcement is held to the last. -/
theorem obedient_not_refused {service : σ} {localSettings : Settings} {window : Int} {limits : Limits}
    {policy : DrainPolicy} {initial : Nat} {now : Instant} (fits : initial ≤ u32Max)
    (below : initial ≤ localSettings.maxConcurrentStreams.getD u32Max)
    (h : ((machine σ μ).startedAt (start service localSettings window limits policy
      (some initial) now)).Reach (fun s i => s.obliges i) s) (running : s.stop = none) :
    (ConnObs.tap μ).acknowledged (localSettings.maxConcurrentStreams.getD u32Max) s.log ≤
      s.streams.maxConcurrent ∧
    (∀ id, s.streams.liveCount < (ConnObs.tap μ).acknowledged
        (localSettings.maxConcurrentStreams.getD u32Max) s.log →
      (s.streams.openPeer id).2 ≠ .error .refused) ∧
    ((ConnObs.tap μ).acks s.log = ((ConnObs.tap μ).limits s.log).length →
      s.streams.maxConcurrent = (ConnObs.tap μ).acknowledged
        (localSettings.maxConcurrentStreams.getD u32Max) s.log) := by
  have lenient : s.Lenient (localSettings.maxConcurrentStreams.getD u32Max) := by
    refine h.invariant (I := fun s => s.stop = none →
      s.Lenient (localSettings.maxConcurrentStreams.getD u32Max)) ?_ ?_ running
    · rintro s rfl -
      exact start_lenient service localSettings window limits policy now fits below
    · exact fun s i hs obliges => step_lenient hs obliges
  have least : (ConnObs.tap μ).acknowledged (localSettings.maxConcurrentStreams.getD u32Max) s.log ≤
      s.streams.maxConcurrent := by
    rw [lenient.table]
    exact lenient.notice.headD_le _
  refine ⟨least, ?_, ?_⟩
  · intro id room refused
    have full := StreamTable.openPeer_full refused
    omega
  · intro all
    rw [lenient.table]
    refine lenient.notice.all_confirmed ?_
    rw [Tap.length_relied, all]
    omega

/-- SETTINGS are acknowledged. -/
def settingsAck : WireFrame := .ofParts .settings Flags.ack .connection [] (show 0 < 256 ^ 3 by decide)

/-- The budget falls from 100 to 1; the client acknowledges the 100 and opens a stream. -/
def lowered : List (Instant × ConnInput) :=
  [(0, .pump 1), (1, .frame settingsAck), (2, .frame postRoot)]

/-- The client may open another one. -/
theorem obedient_not_refused_lowered :
    (((machine Echo Empty).run (start (.new 4) .server connectionWindow .default .default
      (some 100) 0) lowered).streams.openPeer (.new 3)).2 ≠ .error .refused :=
  (obedient_not_refused (by decide) (by decide) (Machine.Reach.run (.init rfl) lowered
    (by decide +kernel)) (by decide +kernel)).2.1 (.new 3) (by decide +kernel)

end Conn

end H2Proxy
