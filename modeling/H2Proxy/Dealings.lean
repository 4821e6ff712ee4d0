import H2Proxy.Answers
import H2Proxy.FrameSize
import H2Proxy.Lib.Ends
import H2Proxy.Outlet

/-
  An engine's dealings with its peer.

  What it sends is paid for, what the peer asks is answered in order, no frame is longer than the
  peer takes, and the header encoder keeps to the table that the peer allows. One walk over the
  programs of an engine keeps them all (`Pays`): most steps are of no account (`Saves`), a frame
  that was heard is acted on and answered, DATA is taken from both windows. The first three are read
  off the log, and an engine that sends nothing of account when it ends is `Fair` to the end.
-/

namespace H2Proxy

namespace Tap

variable {α : Type} (T : Tap α)

/-- DATA was paid for, no answer came out of turn, and every frame was short enough. -/
structure Fair (log : List α) : Prop where
  covered : T.Covered log
  punctual : T.Punctual log
  fitting : T.Fitting log

variable {T} {log log' : List α}

theorem Fair.aside (h : T.Fair log) (grows : Adds T.Aside log log') : T.Fair log' :=
  ⟨h.covered.adds grows fun _ aside => aside.free.2,
    h.punctual.adds (grows.mono fun _ => Aside.offhand), h.fitting.aside grows⟩

theorem Fair.nil : T.Fair [] := ⟨.nil, .nil, .nil⟩

end Tap

namespace Outlet

variable {α : Type} {T : Tap α} {v v' : Outlet α} {due answer : Option Frame} {f : Frame} {a : α}
  {id : StreamId}

/-- The windows hold what the peer has left them up to the frame that is due, all is answered but
    the answer that is due, every frame was short enough, and the encoder keeps to the table size
    that the peer's settings allow. -/
structure Deals (T : Tap α) (due answer : Option Frame) (v : Outlet α) : Prop where
  affords : v.Affords T due
  owes : T.Owes answer v.log
  fitting : T.Fitting v.log
  encodes : v.encoder.Within v.peer.headerTableSize

namespace Deals

/-- An engine that has only sent what is of no account, on a connection of default settings. -/
theorem start {log : List α} (aside : Adds T.Aside [] log) {table : StreamTable} {top : StreamId}
    {encoder : HpackEncoder} (empty : ∀ id, table.get? id = none)
    (initial : table.initialSendWindow = 65535) (encodes : encoder.Within 4096) :
    (⟨log, table, top, .connection, ⟨65535⟩, .default, encoder⟩ : Outlet α).Deals T none none := by
  have affords : (⟨[], table, top, .connection, ⟨65535⟩, .default, encoder⟩ : Outlet α).Affords T
      none := by
    refine ⟨rfl, show (65535 : Int) ≤ _ by decide, initial, rfl, fun id st live => ?_,
      fun id new => ?_, rfl, .nil⟩
    · cases (empty id).symm.trans live
    · have stream : id ≠ .connection := by
        rintro rfl
        exact new (Nat.zero_le _)
      show initialCredit _ id = _
      unfold initialCredit
      rw [if_neg stream]
      rfl
  have owes : T.Owes none [] := ⟨.nil, rfl⟩
  exact ⟨affords.spare (aside.mono fun _ => Tap.Aside.free),
    owes.adds (aside.mono fun _ => Tap.Aside.offhand), Tap.Fair.nil.fitting.aside aside, encodes⟩

theorem fair (h : v.Deals T due answer) : T.Fair v.log :=
  ⟨h.affords.covered, h.owes.punctual, h.fitting⟩

theorem quiet (h : v.Deals T due answer) (steady : v.Steady T v') : v'.Deals T due answer :=
  ⟨h.affords.quiet steady, h.owes.adds (steady.log.mono fun _ => Tap.Aside.offhand),
    h.fitting.aside steady.log, steady.peer ▸ steady.encoder _ h.encodes⟩

/-- What is due is acted on. -/
theorem act {due' : Option Frame} (h : v.Deals T due answer) (acted : v'.Affords T due')
    (log : v'.log = v.log) (encodes : v'.encoder.Within v'.peer.headerTableSize) :
    v'.Deals T due' answer :=
  ⟨acted, log ▸ h.owes, log ▸ h.fitting, encodes⟩

/-- SETTINGS move the bound and the table together. -/
theorem resized (h : v.Deals T due answer) (params : List (UInt16 × UInt32)) :
    (v.encoder.setMaxTableSize (v.peer.apply params).1.headerTableSize).Within
      (v.peer.apply params).1.headerTableSize :=
  h.encodes.setMaxTableSize (Settings.apply_headerTableSize h.encodes.bound_lt params)

/-- A frame that neither grants nor settles anything is acted on. -/
theorem heed (h : v.Deals T (some f) answer) (silent : f.increment? = none)
    (settles : ∀ s, f.settle s = s) : v.Deals T none answer :=
  h.act (h.affords.heed silent settles) rfl h.encodes

/-- A frame is heard, and is to be acted on and answered. -/
theorem hear (h : v.Deals T none none) (heard : T.heard a = some f) (sent : T.sent a = none) :
    ({ v with log := v.log ++ [a] } : Outlet α).Deals T (some f) f.answer? := by
  refine ⟨h.affords.hear heard sent, h.owes.hear heard sent,
    h.fitting.within fun f' same => ?_, h.encodes⟩
  rw [sent] at same
  cases same

/-- Whatever was heard, all was fair so far. -/
theorem heard (h : v.Deals T none none) (sent : T.sent a = none) : T.Fair (v.log ++ [a]) := by
  cases heard : T.heard a with
  | none => exact h.fair.aside (.one (.silent heard sent))
  | some f => exact (h.hear heard sent).fair

/-- The answer that is due is sent. -/
theorem reply (h : v.Deals T due (some f)) (heard : T.heard a = none) (sent : T.sent a = some f)
    (answers : f.answers) (brief : f.brief) :
    ({ v with log := v.log ++ [a] } : Outlet α).Deals T due none := by
  have free : T.Free a := by
    refine ⟨heard, fun id => ?_⟩
    show (T.sent a).elim 0 _ = 0
    rw [sent]
    cases f with
    | data => cases answers
    | _ => rfl
  refine ⟨h.affords.spare (.one free), h.owes.pay heard sent answers,
    h.fitting.within fun f' same => ?_, h.encodes⟩
  cases sent.symm.trans same
  exact Tap.fits_of_brief brief v.log

/-- DATA that both windows hold and the peer takes is sent, and paid for. -/
theorem pay (h : v.Deals T none none) {st : Stream} (live : v.table.get? id = some st)
    {octets : Bytes} {endStream : Bool} (heard : T.heard a = none)
    (sent : T.sent a = some (.data id octets endStream)) {own window : Window}
    (spentOwn : own.available = st.sendWindow.available - octets.length)
    (spent : window.available = v.window.available - octets.length)
    (fits : 0 < octets.length → 0 ≤ own.available ∧ 0 ≤ window.available)
    (short : octets.length ≤ v.peer.maxFrameSize) :
    ({ v with
      log := v.log ++ [a], table := v.table.modify id ({ · with sendWindow := own }), window } :
      Outlet α).Deals T none none := by
  have offhand : T.Offhand a := ⟨by rw [heard]; rfl, by rw [sent]; rfl⟩
  refine ⟨h.affords.pay live heard sent spentOwn spent fits, h.owes.offhand offhand,
    h.fitting.within fun f' same => .inr ?_, h.encodes⟩
  cases sent.symm.trans same
  have settings : T.settings v.log = v.peer := h.affords.settings
  rw [settings]
  exact short

end Deals

/-- Between two steps an engine has been fair, and while it runs it deals. -/
structure Dealing (T : Tap α) (running : Prop) (v : Outlet α) : Prop where
  fair : T.Fair v.log
  running : running → v.Deals T none none

namespace Dealing

variable {running : Prop}

/-- While an engine runs, it has answered all it was asked. -/
theorem answered (h : v.Dealing T running) (runs : running) :
    T.answered v.log = T.owed v.log := by
  have owed := (h.running runs).owes.owed
  exact (List.append_nil _).symm.trans owed.symm

end Dealing

end Outlet

/-! ## Programs -/

section Programs

variable {S α β γ ε : Type} {T : Tap α} {view : S → Outlet α} {s t : S}
  {due answer due' answer' : Option Frame}

/-- Nothing is heard or sent that the peer reckons with, and no send window is touched. -/
def Saves (T : Tap α) (view : S → Outlet α) (s t : S) : Prop := (view s).Steady T (view t)

instance : Std.Refl (Saves T view) := ⟨fun s => .refl (view s)⟩

instance : IsTrans S (Saves T view) := ⟨fun _ _ _ h h' => Outlet.Steady.trans h h'⟩

/-- What is due is dealt with, however a program ends. -/
def Pays (T : Tap α) (view : S → Outlet α) (due answer : Option Frame)
    (r : EStateM.Result ε S β) : Prop :=
  Ends r (fun _ s => (view s).Deals T due answer) fun _ s => T.Fair (view s).log

theorem Outlet.Deals.follows {r : EStateM.Result ε S β} (h : (view s).Deals T due answer)
    (saves : Follows (Saves T view) s r) : Pays T view due answer r :=
  Ends.mono saves (fun _ _ ht => h.quiet ht) fun _ _ ht => (h.quiet ht).fair

theorem Pays.bind {x : EStateM ε S β} {f : β → EStateM ε S γ} (hx : Pays T view due answer (x s))
    (hf : ∀ b t, (view t).Deals T due answer → Pays T view due' answer' (f b t)) :
    Pays T view due' answer' ((x >>= f) s) :=
  ends_bind.mpr (Ends.mono hx hf fun _ _ h => h)

/-- A turn of its loop leaves an engine dealing, if it ends fairly. -/
theorem Pays.concluded {r : EStateM.Result ConnectionError S Next} (h : Pays T view none none r)
    {conclude : Stop → S → S} (running : S → Prop)
    (ended : ∀ stop t, ¬ running (conclude stop t))
    (saves : ∀ stop t, Adds T.Aside (view t).log (view (conclude stop t)).log) :
    (view (concluded conclude r)).Dealing T (running (concluded conclude r)) := by
  have closed : ∀ stop t, T.Fair (view t).log →
      (view (conclude stop t)).Dealing T (running (conclude stop t)) := fun stop t fair =>
    ⟨fair.aside (saves stop t), fun runs => absurd runs (ended stop t)⟩
  cases r with
  | error e t => exact closed (.failed e) t h
  | ok next t =>
    have deals : (view t).Deals T none none := h
    cases next with
    | continue_ => exact ⟨deals.fair, fun _ => deals⟩
    | close => exact closed .quiet t deals.fair

end Programs

end H2Proxy
