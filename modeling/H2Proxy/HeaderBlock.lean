import H2Proxy.Frame
import H2Proxy.Lib.Machine
import H2Proxy.Lib.Overlay
import H2Proxy.Settings

/-
  Header blocks in more than one frame: what a connection keeps between two of them, the
  frames a block may be cut into, and the induction over those frames and whatever else comes
  between them. A machine that `Reads` its frames piece by piece reads a block in pieces as it
  reads it in one (`Reads.reassembled`).
-/

namespace H2Proxy

/-- What is kept between two frames of a header block. -/
structure Block where
  /-- The stream whose block is open. -/
  stream : Option StreamId
  /-- END_STREAM of its HEADERS frame. -/
  endStream : Bool
  buffer : Bytes
deriving DecidableEq

/-- No block is open. -/
def Block.closed (endStream : Bool) : Block := ⟨none, endStream, []⟩

/-- The CONTINUATION frames that carry the rest of a header block. -/
def continuations (id : StreamId) : List Bytes → List Frame
  | [] => []
  | piece :: pieces => .continuation id piece pieces.isEmpty :: continuations id pieces

/-- The frames that carry a header block in these pieces. -/
def cut (id : StreamId) (endStream : Bool) : List Bytes → List Frame
  | [] => []
  | piece :: pieces => .headers id piece endStream pieces.isEmpty :: continuations id pieces

/-- These frames came off the wire as those. -/
def Arrive (ws : List WireFrame) (frames : List Frame) : Prop :=
  ws.map WireFrame.decode = frames.map fun f => .ok (.frame f)

instance (ws : List WireFrame) (frames : List Frame) : Decidable (Arrive ws frames) :=
  inferInstanceAs (Decidable (_ = _))

theorem arrive_nil {ws : List WireFrame} (h : Arrive ws []) : ws = [] :=
  List.map_eq_nil_iff.mp h

theorem arrive_cons {w : WireFrame} {ws : List WireFrame} {f : Frame} {frames : List Frame} :
    Arrive (w :: ws) (f :: frames) ↔ w.decode = .ok (.frame f) ∧ Arrive ws frames := by
  unfold Arrive
  rw [List.map_cons, List.map_cons, List.cons.injEq]

/-- The frame with the next piece of a header block: HEADERS opens one, CONTINUATION goes on. -/
inductive Block.Next (b : Block) (id : StreamId) (endStream : Bool) (piece : Bytes) (last : Bool) :
    Frame → Prop
  | headers : b.stream = none → Next b id endStream piece last (.headers id piece endStream last)
  | continuation : b.stream = some id → b.endStream = endStream →
    Next b id endStream piece last (.continuation id piece last)

/-- The frames that are to come where a header block in these pieces is. -/
inductive Block.Due (b : Block) (id : StreamId) (endStream : Bool) (pieces : List Bytes) :
    List Frame → Prop
  | start : b.stream = none → Due b id endStream pieces (cut id endStream pieces)
  | rest : b.stream = some id → b.endStream = endStream →
    Due b id endStream pieces (continuations id pieces)

namespace Block.Due

variable {b : Block} {id : StreamId} {endStream : Bool} {piece : Bytes} {pieces : List Bytes}
  {frames : List Frame}

theorem nil (h : b.Due id endStream [] frames) : frames = [] := by
  cases h with
  | start => rfl
  | rest => rfl

theorem cons (h : b.Due id endStream (piece :: pieces) frames) :
    ∃ f, b.Next id endStream piece pieces.isEmpty f ∧ frames = f :: continuations id pieces := by
  cases h with
  | start closed => exact ⟨_, .headers closed, rfl⟩
  | rest open_ same => exact ⟨_, .continuation open_ same, rfl⟩

end Block.Due

theorem Frame.eq_continuation {f : Frame} (h : f.kind = .continuation) :
    ∃ piece last, f = .continuation f.streamId piece last := by
  cases f with
  | continuation id piece last => exact ⟨piece, last, rfl⟩
  | _ => cases h

/-- CONTINUATION is never among the ignored kinds. -/
theorem WireFrame.decode_ignored {w : WireFrame} {kind : FrameType} {id : StreamId}
    (h : w.decode = .ok (.ignored kind id)) : kind ≠ .continuation := by
  unfold decode Frame.fromParts at h
  split at h
  case h_9 =>
    unfold Frame.validatePriority at h
    repeat' split at h
    all_goals cases h
    all_goals nofun
  all_goals
    obtain ⟨f, -, hf⟩ := Frame.map_ok h
    cases hf

/-! ## A block in the midst of other inputs -/

section Reads

variable {S I : Type} {M : Machine S I} {wire : Instant → WireFrame → I}
  {frame? : I → Option WireFrame} {fits : S → I → Prop} {live : S → Prop} {block : S → Block}
  {Alike Agree : S → S → Prop} {Pace : Nat → S → S → Prop} {hear : Instant → Frame → S → S}

/-- A turn of the loop does the same whatever its end does the same with. -/
theorem concluded_onState {σ : Type} {g : σ → σ} {conclude : Stop → σ → σ}
    (h : ∀ stop s, conclude stop (g s) = g (conclude stop s))
    (r : EStateM.Result ConnectionError σ Next) :
    concluded conclude (onState g r) = g (concluded conclude r) := by
  cases r with
  | ok next s =>
    cases next with
    | continue_ => rfl
    | close => exact h .quiet s
  | error e s => exact h (.failed e) s

/-- The frames among some inputs. -/
def framesOf (frame? : I → Option WireFrame) (is : List I) : List WireFrame := is.filterMap frame?

/-- The inputs besides frames. -/
def besides (frame? : I → Option WireFrame) (is : List I) : List I :=
  is.filter fun i => (frame? i).isNone

/-- How a machine reads header blocks. `Alike` leaves out what is kept of one and which frames were
    heard, `Agree` only the latter. `Pace n s t` is what else it takes for `s` to read `n` pieces more
    and be where `t` is, and `hear` what a frame does once it is off the wire. -/
structure Reads (M : Machine S I) (wire : Instant → WireFrame → I)
    (frame? : I → Option WireFrame) (fits : S → I → Prop) (live : S → Prop) (block : S → Block)
    (Alike Agree : S → S → Prop) (Pace : Nat → S → S → Prop)
    (hear : Instant → Frame → S → S) : Prop where
  wires : ∀ {i w}, frame? i = some w → ∃ now, i = wire now w
  /-- Inputs other than frames do the same to states that are alike. -/
  beside : ∀ {s t i}, Alike s t → frame? i = none → Alike (M.step i s) (M.step i t)
  keeps : ∀ {s i}, live s → frame? i = none → block (M.step i s) = block s
  paces : ∀ {n s t i}, live s → Pace n s t → frame? i = none → Pace n (M.step i s) (M.step i t)
  /-- A piece before the last is put with those before it, and nothing else is done. -/
  piece : ∀ {n s t now w f id endStream piece}, live s → fits s (wire now w) →
    w.decode = .ok (.frame f) → (block s).Next id endStream piece false f →
      ((block s).buffer ++ piece).length ≤ maxHeaderBlockBytes → Alike s t → Pace (n + 1) s t →
        block (M.step (wire now w) s) = ⟨some id, endStream, (block s).buffer ++ piece⟩ ∧
          Alike (M.step (wire now w) s) t ∧ Pace n (M.step (wire now w) s) t
  /-- The last piece has the effect of the whole. -/
  last : ∀ {s t now w f id endStream piece}, live s → fits s (wire now w) →
    w.decode = .ok (.frame f) → (block s).Next id endStream piece true f →
      ((block s).buffer ++ piece).length ≤ maxHeaderBlockBytes → Alike s t → Pace 0 s t →
        block t = .closed (block t).endStream →
          Agree (M.step (wire now w) s)
              (hear now (.headers id ((block s).buffer ++ piece) endStream true) t) ∧
            ∀ w', w'.decode = .ok (.frame (.headers id ((block s).buffer ++ piece) endStream true)) →
              fits t (wire now w') → Agree (M.step (wire now w) s) (M.step (wire now w') t)
  /-- What has stopped hears nothing any more. -/
  deaf : ∀ {s now w}, ¬live s → M.step (wire now w) s = s
  still : ∀ {s now f}, ¬live s → hear now f s = s
  stays : ∀ {s i}, ¬live s → ¬live (M.step i s)
  alike_live : ∀ {s t}, Alike s t → (live s ↔ live t)
  agree_stopped : ∀ {s t}, ¬live s → Alike s t → Agree s t

/-- `s` is in a block of which these pieces are left, in these frames; `t` has heard none of it. -/
structure Gathering (block : S → Block) (Alike : S → S → Prop) (Pace : Nat → S → S → Prop)
    (id : StreamId) (endStream : Bool) (whole : Bytes) (pieces : List Bytes) (frames : List Frame)
    (s t : S) : Prop where
  alike : Alike s t
  due : (block s).Due id endStream pieces frames
  whole : (block s).buffer ++ pieces.flatten = whole
  pace : Pace (pieces.length - 1) s t

theorem framesOf_cons_none {i : I} (h : frame? i = none) (is : List I) :
    framesOf frame? (i :: is) = framesOf frame? is := List.filterMap_cons_none h

theorem framesOf_cons_some {i : I} {w : WireFrame} (h : frame? i = some w) (is : List I) :
    framesOf frame? (i :: is) = w :: framesOf frame? is := List.filterMap_cons_some h

theorem besides_cons_none {i : I} (h : frame? i = none) (is : List I) :
    besides frame? (i :: is) = i :: besides frame? is :=
  List.filter_cons_of_pos (by rw [h]; rfl)

theorem besides_cons_some {i : I} {w : WireFrame} (h : frame? i = some w) (is : List I) :
    besides frame? (i :: is) = besides frame? is :=
  List.filter_cons_of_neg (by rw [h]; nofun)

namespace Reads

variable {id : StreamId} {endStream : Bool} {whole : Bytes} {pieces : List Bytes}
  {frames : List Frame} {s t : S} (R : Reads M wire frame? fits live block Alike Agree Pace hear)

include R

theorem run_stays (is : List I)
    (stopped : ¬live s) : ¬live (M.run s is) := by
  induction is generalizing s with
  | nil => exact stopped
  | cons i is ih => exact ih (R.stays stopped)

/-- Without frames, what is kept of a block stays as it is. -/
theorem run_besides (is : List I)
    (running : live (M.run s (besides frame? is))) :
    block (M.run s (besides frame? is)) = block s := by
  induction is generalizing s with
  | nil => rfl
  | cons i is ih =>
    cases hi : frame? i with
    | none =>
      rw [besides_cons_none hi] at running ⊢
      by_cases hs : live s
      · exact (ih running).trans (R.keeps hs hi)
      · exact absurd running (R.run_stays _ hs)
    | some w =>
      rw [besides_cons_some hi] at running ⊢
      exact ih running

/-- Once it has stopped, a machine does the same with the frames as without them. -/
theorem run_stopped (is : List I)
    (stopped : ¬live s) (h : Alike s t) : Alike (M.run s is) (M.run t (besides frame? is)) := by
  induction is generalizing s t with
  | nil => exact h
  | cons i is ih =>
    cases hi : frame? i with
    | none =>
      rw [besides_cons_none hi]
      exact ih (R.stays stopped) (R.beside h hi)
    | some w =>
      rw [besides_cons_some hi]
      obtain ⟨now, rfl⟩ := R.wires hi
      show Alike (M.run (M.step (wire now w) s) is) _
      rw [R.deaf stopped]
      exact ih stopped h

theorem gathering_beside {i : I}
    (h : Gathering block Alike Pace id endStream whole pieces frames s t) (running : live s)
    (other : frame? i = none) :
    Gathering block Alike Pace id endStream whole pieces frames (M.step i s) (M.step i t) := by
  have kept := R.keeps running other
  exact ⟨R.beside h.alike other, by rw [kept]; exact h.due, by rw [kept]; exact h.whole,
    R.paces running h.pace other⟩

theorem gathering_piece
    {piece piece' : Bytes} {f : Frame} {now : Instant} {w : WireFrame}
    (short : whole.length ≤ maxHeaderBlockBytes)
    (h : Gathering block Alike Pace id endStream whole (piece :: piece' :: pieces)
      (f :: continuations id (piece' :: pieces)) s t) (running : live s) (fit : fits s (wire now w))
    (decoded : w.decode = .ok (.frame f)) :
    Gathering block Alike Pace id endStream whole (piece' :: pieces)
      (continuations id (piece' :: pieces)) (M.step (wire now w) s) t := by
  obtain ⟨f', next, hf⟩ := h.due.cons
  cases hf
  have split : (block s).buffer ++ piece ++ (piece' :: pieces).flatten = whole := by
    rw [List.append_assoc]
    exact h.whole
  have room : ((block s).buffer ++ piece).length ≤ maxHeaderBlockBytes := by
    rw [← split, List.length_append] at short
    omega
  obtain ⟨kept, alike, pace⟩ := R.piece running fit decoded next room h.alike h.pace
  refine ⟨alike, ?_, ?_, pace⟩
  · rw [kept]
    exact .rest rfl rfl
  · rw [kept]
    exact split

/-- Up to the last frame of a block its pieces are gathered, and all else goes on without them. -/
theorem run (is : List I)
    {last : WireFrame} (short : whole.length ≤ maxHeaderBlockBytes)
    (h : Gathering block Alike Pace id endStream whole pieces frames s t)
    (arrive : Arrive (framesOf frame? is ++ [last]) frames) (fit : M.Meets fits s is) :
    Alike (M.run s is) (M.run t (besides frame? is)) ∧
      (live (M.run s is) → ∃ piece f, last.decode = .ok (.frame f) ∧
        Gathering block Alike Pace id endStream whole [piece] [f] (M.run s is)
          (M.run t (besides frame? is))) := by
  induction is generalizing s t pieces frames with
  | nil =>
    refine ⟨h.alike, fun _ => ?_⟩
    have due := h.due
    cases pieces with
    | nil =>
      rw [due.nil] at arrive
      cases arrive_nil arrive
    | cons piece pieces =>
      obtain ⟨f, next, rfl⟩ := due.cons
      obtain ⟨decoded, nothing⟩ := arrive_cons.mp arrive
      cases pieces with
      | nil => exact ⟨piece, f, decoded, h⟩
      | cons piece' pieces => cases nothing
  | cons i is ih =>
    by_cases hs : live s
    · cases hi : frame? i with
      | none =>
        rw [framesOf_cons_none hi] at arrive
        rw [besides_cons_none hi]
        exact ih (R.gathering_beside h hs hi) arrive fit.2
      | some w =>
        rw [framesOf_cons_some hi] at arrive
        rw [besides_cons_some hi]
        have due := h.due
        cases pieces with
        | nil =>
          rw [due.nil] at arrive
          cases arrive_nil arrive
        | cons piece pieces =>
          obtain ⟨f, -, rfl⟩ := due.cons
          obtain ⟨decoded, arrive⟩ := arrive_cons.mp arrive
          cases pieces with
          | nil =>
            have nothing := arrive_nil arrive
            simp at nothing
          | cons piece' pieces =>
            obtain ⟨now, rfl⟩ := R.wires hi
            exact ih (R.gathering_piece short h hs fit.1 decoded) arrive fit.2
    · refine ⟨R.run_stopped (i :: is) hs h.alike, fun running => absurd running ?_⟩
      exact R.run_stays (i :: is) hs

/-- Whatever pieces a header block comes in, and whatever but frames comes between them, it has
    the effect of the one frame that holds all of it, on the wire or not. -/
theorem reassembled {is : List I}
    {now : Instant} {last : WireFrame} (alike : Alike s s)
    (closed : block s = .closed (block s).endStream) (pace : Pace (pieces.length - 1) s s)
    (arrive : Arrive (framesOf frame? is ++ [last]) (cut id endStream pieces))
    (short : pieces.flatten.length ≤ maxHeaderBlockBytes)
    (fit : M.Meets fits s (is ++ [wire now last])) :
    Agree (M.run s (is ++ [wire now last]))
        (hear now (.headers id pieces.flatten endStream true) (M.run s (besides frame? is))) ∧
      ∀ w, w.decode = .ok (.frame (.headers id pieces.flatten endStream true)) →
        fits (M.run s (besides frame? is)) (wire now w) →
          Agree (M.run s (is ++ [wire now last])) (M.run s (besides frame? is ++ [wire now w])) := by
  have start : Gathering block Alike Pace id endStream pieces.flatten pieces
      (cut id endStream pieces) s s :=
    ⟨alike, .start (congrArg Block.stream closed), by rw [closed]; rfl, pace⟩
  obtain ⟨fit, fitLast, -⟩ := Machine.Meets.append.mp fit
  obtain ⟨alike, gathered⟩ := R.run is short start arrive fit
  have kept := R.run_besides (s := s) is
  simp only [Machine.run_append]
  show Agree (M.step (wire now last) _) _ ∧ ∀ w, _ → _ →
    Agree (M.step (wire now last) _) (M.step (wire now w) _)
  generalize M.run s is = u at alike gathered fitLast
  generalize M.run s (besides frame? is) = v at alike gathered kept
  by_cases running : live u
  · obtain ⟨piece, f, decoded, gathered⟩ := gathered running
    obtain ⟨f', next, hf⟩ := gathered.due.cons
    cases hf
    have all : (block u).buffer ++ piece = pieces.flatten := by
      rw [← gathered.whole, List.flatten_cons, List.flatten_nil, List.append_nil]
    have fresh : block v = .closed (block v).endStream := by
      rw [kept ((R.alike_live alike).mp running)]
      exact closed
    rw [← all] at short ⊢
    exact R.last running fitLast decoded next short alike gathered.pace fresh
  · have stopped : ¬live v := fun h => running ((R.alike_live alike).mpr h)
    have agree := R.agree_stopped running alike
    rw [R.deaf running]
    refine ⟨?_, fun w _ _ => ?_⟩
    · rw [R.still stopped]
      exact agree
    · rw [R.deaf stopped]
      exact agree

end Reads

end Reads

end H2Proxy
