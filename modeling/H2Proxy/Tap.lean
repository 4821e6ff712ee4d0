import H2Proxy.Credit

/-
  What passes between an engine and its peer.

  A `Tap` says where an engine's log names the frames it heard and those it sent; what the peer
  granted, what its SETTINGS come to and what it asked for is read off the log alone. Of what an
  engine sends most is of no account (`Aside`): it costs the peer no window, answers nothing and is
  no longer than any peer takes.
-/

namespace H2Proxy

theorem StreamId.eq_connection {id : StreamId} (h : id.isConnection = true) : id = .connection :=
  ext_get (beq_iff_eq.mp h)

/-- The octets of body that a frame spends of a window. -/
def Frame.spends (f : Frame) (id : StreamId) : Nat :=
  match f with
  | .data id' octets _ => if id = .connection ∨ id' = id then octets.length else 0
  | _ => 0

/-- A frame that spends nothing, asks and answers nothing, and fits wherever a header block does. -/
def Frame.plain : Frame → Bool
  | .headers .. | .windowUpdate .. | .rstStream .. => true
  | .goAway _ _ debug => debug.isEmpty
  | _ => false

/-- The settings of a peer that has sent a frame. -/
def Frame.settle (f : Frame) (s : Settings) : Settings :=
  match f with
  | .settings false params => (s.apply params).1
  | _ => s

/-- The frame on the wire, where it is one we know. -/
def WireFrame.frame? (w : WireFrame) : Option Frame :=
  match w.decode with
  | .ok (.frame f) => some f
  | _ => none

theorem WireFrame.frame?_of_decode {w : WireFrame} {f : Frame} (h : w.decode = .ok (.frame f)) :
    w.frame? = some f := by
  unfold frame?
  rw [h]

namespace Frame

/-- The answer a frame asks for. -/
def answer? : Frame → Option Frame
  | .settings false _ => some (.settings true [])
  | .ping octets false => some (.ping octets true)
  | _ => none

/-- A frame that is an answer. -/
def answers : Frame → Bool
  | .settings true _ | .ping _ true => true
  | _ => false

end Frame

/-- A frame that is never cut to size. -/
def Frame.whole : Frame → Bool
  | .headers .. | .goAway .. => true
  | _ => false

/-- A frame that any peer takes. -/
def Frame.brief (f : Frame) : Bool := f.whole || f.payloadLen ≤ 36

theorem Settings.toFrame_brief (s : Settings) : s.toFrame.brief := by
  unfold toFrame Frame.brief Frame.payloadLen
  simp only [Bool.or_eq_true, decide_eq_true_eq]
  right
  simp only [List.length_append, List.length_cons, List.length_nil]
  have limit : (s.maxConcurrentStreams.map fun n =>
      (SettingId.maxConcurrentStreams, UInt32.ofNat n)).toList.length ≤ 1 := by
    cases s.maxConcurrentStreams <;> simp
  have list : (s.maxHeaderListSize.map fun n =>
      (SettingId.maxHeaderListSize, UInt32.ofNat n)).toList.length ≤ 1 := by
    cases s.maxHeaderListSize <;> simp
  split <;> split <;> split <;> simp only [List.length_cons, List.length_nil] <;> omega

/-- Where a log names the frames that were heard and those that were sent. -/
structure Tap (α : Type) where
  heard : α → Option Frame
  sent : α → Option Frame

namespace Tap

variable {α : Type} (T : Tap α)

/-- WINDOW_UPDATEs heard grant, DATA sent spends. -/
def meter : Meter StreamId α where
  grant a := (T.heard a).bind Frame.increment?
  spend id a := (T.sent a).elim 0 (·.spends id)

/-- The peer's settings, by the SETTINGS heard. -/
def settings (log : List α) : Settings :=
  log.foldl (fun s a => (T.heard a).elim s (·.settle s)) .default

/-- What the peer lets us send before any WINDOW_UPDATE, by its SETTINGS so far. -/
def opening (log : List α) (id : StreamId) : Int :=
  initialCredit (T.settings log).initialWindowSize id

/-- What the peer has left us of an account. -/
def credit (log : List α) (id : StreamId) : Int := T.meter.left (T.opening log) id log

/-- No DATA was sent beyond what the peer granted, on the connection or on its stream. -/
def Covered (log : List α) : Prop := T.meter.Covered T.opening log

/-- Nothing was heard, and nothing sent that spends. -/
def Free (a : α) : Prop := T.heard a = none ∧ ∀ id, T.meter.spend id a = 0

/-- Nothing was heard, and nothing sent that spends, answers or may be too long. -/
def Aside (a : α) : Prop :=
  T.heard a = none ∧ ∀ f, T.sent a = some f → (∀ id, f.spends id = 0) ∧ f.answers = false ∧ f.brief

variable {T} {log : List α} {a : α} {f : Frame}

theorem settings_snoc (log : List α) (a : α) :
    T.settings (log ++ [a]) = (T.heard a).elim (T.settings log) (·.settle (T.settings log)) := by
  unfold settings
  rw [List.foldl_append]
  rfl

/-- The settings change only by what is heard. -/
theorem settings_unheard {log' : List α} (grows : Adds (fun a => T.heard a = none) log log') :
    T.settings log' = T.settings log := by
  refine grows.keeps (I := fun log' => T.settings log' = T.settings log) rfl
    fun log' a same unheard => ?_
  rw [settings_snoc, unheard]
  exact same

theorem grant_free (free : T.Free a) : T.meter.grant a = none := by
  show (T.heard a).bind _ = none
  rw [free.1]
  rfl

/-- Nothing was heard and nothing sent. -/
theorem Aside.silent (heard : T.heard a = none) (sent : T.sent a = none) : T.Aside a :=
  ⟨heard, fun f hf => by rw [sent] at hf; cases hf⟩

theorem Aside.plain (heard : T.heard a = none) (sent : T.sent a = some f) (plain : f.plain) :
    T.Aside a := by
  refine ⟨heard, fun f' hf => ?_⟩
  cases sent.symm.trans hf
  cases f with
  | data | settings | ping | continuation => cases plain
  | _ => exact ⟨fun _ => rfl, rfl, rfl⟩

/-- DATA without octets. -/
theorem Aside.emptyData {id : StreamId} {octets : Bytes} {endStream : Bool}
    (heard : T.heard a = none) (sent : T.sent a = some (.data id octets endStream))
    (empty : octets = []) : T.Aside a := by
  refine ⟨heard, fun f hf => ?_⟩
  cases sent.symm.trans hf
  subst empty
  exact ⟨fun _ => ite_self _, rfl, rfl⟩

theorem Aside.free (aside : T.Aside a) : T.Free a := by
  refine ⟨aside.1, fun id => ?_⟩
  show (T.sent a).elim 0 _ = 0
  cases sent : T.sent a with
  | none => rfl
  | some f => exact (aside.2 f sent).1 id

end Tap

end H2Proxy
