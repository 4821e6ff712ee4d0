import H2Proxy.Lib.Machine
import H2Proxy.Stream
import Mathlib.Data.List.Nodup

/-
  A stream table told from its history.

  `Chronicle` runs the operations of a table beside a log of the streams opened, refused and
  retired. A closed stream is only an absence below a high-water mark, so what `lookup` says
  of an id is a fact about the log: `Told` ties the two, step by step, and
  `table_tells_history` reads the answers off it.

  Between operations the caller holds the streams that `lookup` lends it, and may do anything
  to them.
-/

namespace H2Proxy

/-- Who opens the streams of a table: the peer, where we serve, or we, as a client. -/
inductive Role
  | server | client
deriving DecidableEq

inductive TableOp
  | open_ (id : StreamId)
  | apply (id : StreamId) (event : StreamEvent)
  | retire (id : StreamId)
  /-- The stream, where it is live, is lent to the caller, which changes it so. -/
  | lookup (id : StreamId) (change : Stream → Stream)
  | maxConcurrent (limit : Nat)
  | initialWindow (delta : Int)
  | takeReclaimed

inductive TableEvent
  | opened (id : StreamId)
  | refused (id : StreamId)
  /-- A stream left the table with so many octets uncredited. -/
  | retired (id : StreamId) (held : Nat)
  | taken (n : Nat)
deriving DecidableEq

namespace Role

def open_ (role : Role) (t : StreamTable) (id : StreamId) :
    StreamTable × Except OpenRejection Unit :=
  match role with
  | server => t.openPeer id
  | client => t.openLocal id

/-- The high-water mark of the role's ids. -/
def top (role : Role) (t : StreamTable) : StreamId :=
  match role with
  | server => t.highestPeerId
  | client => t.highestLocalId

/-- The mark that the role never moves. -/
def rest (role : Role) (t : StreamTable) : StreamId :=
  match role with
  | server => t.highestLocalId
  | client => t.highestPeerId

/-- The id an event counts as seen. What we refuse ourselves was never seen. -/
def notes : Role → TableEvent → Option StreamId
  | _, .opened id => some id
  | server, .refused id => some id
  | _, _ => none

end Role

namespace TableEvent

def opening? : TableEvent → Option StreamId
  | opened id => some id
  | _ => none

def departure? : TableEvent → Option StreamId
  | retired id _ => some id
  | _ => none

/-- The octets owed back once the event has happened. -/
def owing (n : Nat) : TableEvent → Nat
  | retired _ held => n + held
  | taken _ => 0
  | _ => n

end TableEvent

/-- A table beside what has happened on it, oldest first. -/
structure Chronicle where
  table : StreamTable
  log : List TableEvent

namespace Chronicle

def start (maxConcurrent : Nat) (sendWindow recvWindow : Int) : Chronicle :=
  ⟨.new maxConcurrent sendWindow recvWindow, []⟩

/-- How a stream's leave of the table is entered. -/
def leave (t : StreamTable) (id : StreamId) : List TableEvent :=
  match t.get? id with
  | some stream => [.retired id stream.pendingConnRelease]
  | none => []

/-- Whether an event closes its stream. -/
def closes (t : StreamTable) (id : StreamId) (event : StreamEvent) : Bool :=
  match (t.apply id event).2 with
  | .ok next => next.isClosed
  | .error _ => false

def step (role : Role) (op : TableOp) (s : Chronicle) : Chronicle :=
  match op with
  | .open_ id =>
    match role.open_ s.table id with
    | (table, .ok ()) => ⟨table, s.log ++ [.opened id]⟩
    | (table, .error .refused) => ⟨table, s.log ++ [.refused id]⟩
    | (table, .error (.protocol _)) => ⟨table, s.log⟩
  | .apply id event =>
    ⟨(s.table.apply id event).1, s.log ++ if closes s.table id event then leave s.table id else []⟩
  | .retire id => ⟨s.table.retire id, s.log ++ leave s.table id⟩
  | .lookup id change => ⟨s.table.modify id change, s.log⟩
  | .maxConcurrent limit => ⟨{ s.table with maxConcurrent := limit }, s.log⟩
  | .initialWindow delta => ⟨(s.table.applyInitialWindowDelta delta).1, s.log⟩
  | .takeReclaimed =>
    ⟨{ s.table with reclaimed := 0 }, s.log ++ [.taken s.table.reclaimed]⟩

def machine (role : Role) : Machine Chronicle TableOp where
  init s := ∃ maxConcurrent sendWindow recvWindow, s = start maxConcurrent sendWindow recvWindow
  step := step role

/-- The ids opened, oldest first. -/
def openings (s : Chronicle) : List StreamId := s.log.filterMap TableEvent.opening?

/-- The ids retired, oldest first. -/
def departures (s : Chronicle) : List StreamId := s.log.filterMap TableEvent.departure?

/-- The octets of retired streams that were not taken since. -/
def owed (s : Chronicle) : Nat := s.log.foldl TableEvent.owing 0

/-- The id was opened and not retired since. -/
def Open (s : Chronicle) (id : StreamId) : Prop := id ∈ s.openings ∧ id ∉ s.departures

/-- The id is at or below one that counts as seen. -/
def Passed (role : Role) (s : Chronicle) (id : StreamId) : Prop :=
  ∃ id' ∈ s.log.filterMap role.notes, id ≤ id'

/-- What the table keeps agrees with what has happened. -/
structure Told (role : Role) (s : Chronicle) : Prop where
  live : ∀ id, (s.table.get? id).isSome = true ↔ s.Open id
  odd : ∀ id ∈ s.openings, id.isClientInitiated = true
  still : role.rest s.table = .connection
  noted : ∀ id ∈ s.log.filterMap role.notes, id ≤ role.top s.table
  reached : role.top s.table = .connection ∨ role.top s.table ∈ s.log.filterMap role.notes
  rising : s.openings.Pairwise (· < ·)
  parted : ∀ id ∈ s.departures, id ∈ s.openings
  once : s.departures.Nodup
  owed : s.table.reclaimed = min u32Max s.owed

/-! ## What an operation can do to a table -/

/-- Nothing that a log tells of has changed. -/
structure Steady (t t' : StreamTable) : Prop where
  live : ∀ id, (t'.get? id).isSome = (t.get? id).isSome
  highestPeerId : t'.highestPeerId = t.highestPeerId
  highestLocalId : t'.highestLocalId = t.highestLocalId
  reclaimed : t'.reclaimed = t.reclaimed

/-- One stream left the table, and what it held is owed back. -/
structure Departs (id : StreamId) (stream : Stream) (t t' : StreamTable) : Prop where
  was : t.get? id = some stream
  live : ∀ id', (t'.get? id').isSome = if id' = id then false else (t.get? id').isSome
  highestPeerId : t'.highestPeerId = t.highestPeerId
  highestLocalId : t'.highestLocalId = t.highestLocalId
  reclaimed : t'.reclaimed = satAdd32 t.reclaimed stream.pendingConnRelease

theorem modify_steady (t : StreamTable) (id : StreamId) (f : Stream → Stream) :
    Steady t (t.modify id f) := by
  refine ⟨fun id' => ?_, rfl, rfl, rfl⟩
  rw [StreamTable.get?_modify]
  split
  · rename_i same
    rw [same, Option.isSome_map]
  · rfl

theorem initialWindow_steady (t : StreamTable) (delta : Int) :
    Steady t (t.applyInitialWindowDelta delta).1 :=
  ⟨fun id => AList.lookup_updateAll_isSome _ t.live id, rfl, rfl, rfl⟩

theorem retire_departs {t : StreamTable} {id : StreamId} {stream : Stream}
    (h : t.get? id = some stream) : Departs id stream t (t.retire id) := by
  refine ⟨h, fun id' => ?_, StreamTable.retire_top t id, StreamTable.retire_highestLocalId t id, ?_⟩
  · rw [StreamTable.get?_retire]
    split
    · rfl
    · rfl
  · unfold StreamTable.retire
    rw [h]

/-- An event that closes its stream retires it, and any other leaves the table as full as it was. -/
theorem apply_cases (t : StreamTable) (id : StreamId) (event : StreamEvent) :
    (∃ stream, closes t id event = true ∧ Departs id stream t (t.apply id event).1) ∨
      closes t id event = false ∧ Steady t (t.apply id event).1 := by
  have quiet : Steady t t := ⟨fun _ => rfl, rfl, rfl, rfl⟩
  unfold closes StreamTable.apply
  cases h : t.get? id with
  | none => exact .inr ⟨rfl, quiet⟩
  | some stream =>
    dsimp only
    cases stream.state.transition event with
    | error code => exact .inr ⟨rfl, quiet⟩
    | ok next =>
      dsimp only
      have moved := modify_steady t id ({ · with state := next })
      cases closed : next.isClosed with
      | false => exact .inr ⟨rfl, moved⟩
      | true =>
        have there : (t.modify id ({ · with state := next })).get? id =
            some { stream with state := next } := by
          rw [StreamTable.get?_modify, if_pos rfl, h]
          rfl
        have gone := retire_departs there
        refine .inl ⟨stream, rfl, h, fun id' => ?_, gone.highestPeerId, gone.highestLocalId, ?_⟩
        · rw [if_pos rfl, gone.live, moved.live]
        · rw [if_pos rfl, gone.reclaimed]
          rfl

/-- Everything an attempt to open a stream can come to, in either role. -/
theorem open_cases (role : Role) (t : StreamTable) (id : StreamId) :
    (∃ why, role.open_ t id = (t, .error (.protocol why))) ∨
      id.isClientInitiated = true ∧ ¬ id ≤ role.top t ∧
        ((t.maxConcurrent ≤ t.liveCount ∧ ∃ t', role.open_ t id = (t', .error .refused) ∧
            t'.live = t.live ∧ t'.reclaimed = t.reclaimed ∧ role.rest t' = role.rest t ∧
            role.top t' = if role = .server then id else role.top t) ∨
          t.liveCount < t.maxConcurrent ∧ ∃ t', role.open_ t id = (t', .ok ()) ∧
            t'.reclaimed = t.reclaimed ∧ role.rest t' = role.rest t ∧ role.top t' = id ∧
            ∀ id', (t'.get? id').isSome = if id' = id then true else (t.get? id').isSome) := by
  have inserted : ∀ (t : StreamTable) (id' : StreamId), ((t.insertNew id).get? id').isSome =
      if id' = id then true else (t.get? id').isSome := by
    intro t id'
    rw [StreamTable.get?_insertNew]
    split
    · rfl
    · rfl
  cases role with
  | server =>
    show (∃ why, t.openPeer id = _) ∨ _ ∧ ¬ id ≤ t.highestPeerId ∧
      ((_ ∧ ∃ t', t.openPeer id = _ ∧ _) ∨ _ ∧ ∃ t', t.openPeer id = _ ∧ _)
    unfold StreamTable.openPeer
    by_cases odd : id.isClientInitiated = true
    · by_cases below : id ≤ t.highestPeerId
      · exact .inl ⟨_, by rw [if_neg (by simp [odd]), if_pos below]⟩
      · rw [if_neg (by simp [odd]), if_neg below]
        refine .inr ⟨odd, below, ?_⟩
        by_cases full : t.liveCount ≥ t.maxConcurrent
        · rw [if_pos full]
          exact .inl ⟨full, _, rfl, rfl, rfl, rfl, rfl⟩
        · rw [if_neg full]
          exact .inr ⟨Nat.lt_of_not_le full, _, rfl, rfl, rfl, rfl, fun id' => inserted _ id'⟩
    · exact .inl ⟨_, by rw [if_pos (by simpa using odd)]⟩
  | client =>
    show (∃ why, t.openLocal id = _) ∨ _ ∧ ¬ id ≤ t.highestLocalId ∧
      ((_ ∧ ∃ t', t.openLocal id = _ ∧ _) ∨ _ ∧ ∃ t', t.openLocal id = _ ∧ _)
    unfold StreamTable.openLocal
    by_cases odd : id.isClientInitiated = true
    · by_cases below : id ≤ t.highestLocalId
      · exact .inl ⟨_, by rw [if_neg (by simp [odd]), if_pos below]⟩
      · rw [if_neg (by simp [odd]), if_neg below]
        refine .inr ⟨odd, below, ?_⟩
        by_cases full : t.liveCount ≥ t.maxConcurrent
        · rw [if_pos full]
          exact .inl ⟨full, _, rfl, rfl, rfl, rfl, rfl⟩
        · rw [if_neg full]
          exact .inr ⟨Nat.lt_of_not_le full, _, rfl, rfl, rfl, rfl, fun id' => inserted _ id'⟩
    · exact .inl ⟨_, by rw [if_pos (by simpa using odd)]⟩

/-! ## The log, event by event -/

section Log

variable (t : StreamTable) (log : List TableEvent) (e : TableEvent)

theorem openings_snoc : (⟨t, log ++ [e]⟩ : Chronicle).openings =
    log.filterMap TableEvent.opening? ++ e.opening?.toList := by
  unfold openings
  rw [List.filterMap_append]
  cases h : e.opening? <;> simp [h]

theorem departures_snoc : (⟨t, log ++ [e]⟩ : Chronicle).departures =
    log.filterMap TableEvent.departure? ++ e.departure?.toList := by
  unfold departures
  rw [List.filterMap_append]
  cases h : e.departure? <;> simp [h]

theorem owed_snoc : (⟨t, log ++ [e]⟩ : Chronicle).owed = e.owing (log.foldl TableEvent.owing 0) := by
  unfold owed
  rw [List.foldl_append]
  rfl

theorem notes_snoc (role : Role) : (log ++ [e]).filterMap role.notes =
    log.filterMap role.notes ++ (role.notes e).toList := by
  rw [List.filterMap_append]
  cases h : role.notes e <;> simp [h]

end Log

variable {role : Role} {s : Chronicle} {t : StreamTable} {id : StreamId}

theorem satAdd32_min (a b : Nat) : satAdd32 (min u32Max a) b = min u32Max (a + b) := by
  unfold satAdd32
  omega

theorem Told.steady (h : s.Told role) (same : Steady s.table t) : Told role ⟨t, s.log⟩ := by
  have tops : role.top t = role.top s.table ∧ role.rest t = role.rest s.table := by
    cases role
    · exact ⟨same.highestPeerId, same.highestLocalId⟩
    · exact ⟨same.highestLocalId, same.highestPeerId⟩
  refine ⟨fun id => ?_, h.odd, tops.2.trans h.still, ?_, ?_, h.rising, h.parted, h.once,
    same.reclaimed.trans h.owed⟩
  · rw [same.live]
    exact h.live id
  · rw [tops.1]
    exact h.noted
  · rw [tops.1]
    exact h.reached

theorem Told.departs (h : s.Told role) {stream : Stream} (gone : Departs id stream s.table t) :
    Told role ⟨t, s.log ++ [.retired id stream.pendingConnRelease]⟩ := by
  have tops : role.top t = role.top s.table ∧ role.rest t = role.rest s.table := by
    cases role
    · exact ⟨gone.highestPeerId, gone.highestLocalId⟩
    · exact ⟨gone.highestLocalId, gone.highestPeerId⟩
  have open_ : s.Open id := (h.live id).mp (by rw [gone.was]; rfl)
  have notes : role.notes (.retired id stream.pendingConnRelease) = none := by cases role <;> rfl
  have opens : (⟨t, s.log ++ [.retired id stream.pendingConnRelease]⟩ : Chronicle).openings =
      s.openings := (openings_snoc ..).trans (List.append_nil _)
  have parts : (⟨t, s.log ++ [.retired id stream.pendingConnRelease]⟩ : Chronicle).departures =
      s.departures ++ [id] := departures_snoc ..
  have marks : (s.log ++ [TableEvent.retired id stream.pendingConnRelease]).filterMap role.notes =
      s.log.filterMap role.notes := by
    rw [notes_snoc, notes]
    exact List.append_nil _
  refine ⟨fun id' => ?_, ?_, tops.2.trans h.still, ?_, ?_, ?_, ?_, ?_, ?_⟩
  · unfold Open
    rw [gone.live, opens, parts, List.mem_append, List.mem_singleton]
    split
    · rename_i same
      exact ⟨fun no => (by cases no), fun still => absurd (Or.inr same) still.2⟩
    · rename_i other
      rw [h.live id']
      unfold Open
      exact ⟨fun o => ⟨o.1, by rintro (was | same); exacts [o.2 was, other same]⟩,
        fun o => ⟨o.1, fun was => o.2 (.inl was)⟩⟩
  · rw [opens]
    exact h.odd
  · rw [tops.1, marks]
    exact h.noted
  · rw [tops.1, marks]
    exact h.reached
  · rw [opens]
    exact h.rising
  · rw [opens, parts]
    intro id' mem
    obtain was | same := List.mem_append.mp mem
    · exact h.parted id' was
    · obtain rfl := List.mem_singleton.mp same
      exact open_.1
  · rw [parts]
    exact List.nodup_append.mpr ⟨h.once, List.nodup_singleton _, by
      rintro a was b now rfl
      obtain rfl := List.mem_singleton.mp now
      exact open_.2 was⟩
  · rw [gone.reclaimed, h.owed, satAdd32_min, owed_snoc]
    rfl

/-- An id is opened above every id seen before it, so it was never opened. -/
theorem Told.opens (h : s.Told role) (odd : id.isClientInitiated = true)
    (above : ¬ id ≤ role.top s.table) (top : role.top t = id) (rest : role.rest t = role.rest s.table)
    (reclaimed : t.reclaimed = s.table.reclaimed)
    (live : ∀ id', (t.get? id').isSome = if id' = id then true else (s.table.get? id').isSome) :
    Told role ⟨t, s.log ++ [.opened id]⟩ := by
  have noted : role.notes (.opened id) = some id := by cases role <;> rfl
  have opens : (⟨t, s.log ++ [.opened id]⟩ : Chronicle).openings = s.openings ++ [id] :=
    openings_snoc ..
  have parts : (⟨t, s.log ++ [.opened id]⟩ : Chronicle).departures = s.departures :=
    (departures_snoc ..).trans (List.append_nil _)
  have marks : (s.log ++ [TableEvent.opened id]).filterMap role.notes = s.log.filterMap role.notes ++ [id] := by
    rw [notes_snoc, noted]
    rfl
  -- an opening is noted, and what is noted is below the mark
  have below : ∀ id' ∈ s.openings, id' < id := by
    intro id' mem
    obtain ⟨e, he, opened⟩ := List.mem_filterMap.mp mem
    have note : role.notes e = some id' := by
      cases e <;> cases opened
      cases role <;> rfl
    have le := h.noted id' (List.mem_filterMap.mpr ⟨e, he, note⟩)
    rw [StreamId.le_def] at le above
    rw [StreamId.lt_def]
    omega
  have fresh : id ∉ s.openings := fun mem => Nat.lt_irrefl _ (StreamId.lt_def.mp (below id mem))
  refine ⟨fun id' => ?_, ?_, rest.trans h.still, ?_, .inr ?_, ?_, ?_, ?_, ?_⟩
  · unfold Open
    rw [live, opens, parts, List.mem_append, List.mem_singleton]
    split
    · rename_i same
      subst same
      exact ⟨fun _ => ⟨.inr rfl, fun gone => fresh (h.parted _ gone)⟩, fun _ => rfl⟩
    · rename_i other
      rw [h.live id']
      unfold Open
      exact ⟨fun o => ⟨.inl o.1, o.2⟩, fun o => ⟨o.1.resolve_right other, o.2⟩⟩
  · rw [opens]
    intro id' mem
    obtain was | same := List.mem_append.mp mem
    · exact h.odd id' was
    · obtain rfl := List.mem_singleton.mp same
      exact odd
  · rw [marks, top]
    intro id' mem
    obtain was | same := List.mem_append.mp mem
    · have le := h.noted id' was
      rw [StreamId.le_def] at le above ⊢
      omega
    · obtain rfl := List.mem_singleton.mp same
      exact Nat.le_refl _
  · rw [marks, top]
    exact List.mem_append_right _ (List.mem_singleton_self _)
  · rw [opens]
    refine List.pairwise_append.mpr ⟨h.rising, List.pairwise_singleton _ _, fun a was b now => ?_⟩
    obtain rfl := List.mem_singleton.mp now
    exact below a was
  · rw [parts, opens]
    exact fun id' gone => List.mem_append_left _ (h.parted id' gone)
  · rw [parts]
    exact h.once
  · rw [reclaimed, h.owed, owed_snoc]
    rfl

theorem Told.refuses (h : s.Told role) (above : ¬ id ≤ role.top s.table)
    (top : role.top t = if role = .server then id else role.top s.table)
    (rest : role.rest t = role.rest s.table) (reclaimed : t.reclaimed = s.table.reclaimed)
    (live : t.live = s.table.live) : Told role ⟨t, s.log ++ [.refused id]⟩ := by
  have opens : (⟨t, s.log ++ [.refused id]⟩ : Chronicle).openings = s.openings :=
    (openings_snoc ..).trans (List.append_nil _)
  have parts : (⟨t, s.log ++ [.refused id]⟩ : Chronicle).departures = s.departures :=
    (departures_snoc ..).trans (List.append_nil _)
  have owes : (⟨t, s.log ++ [.refused id]⟩ : Chronicle).owed = s.owed := owed_snoc ..
  have marked : (∀ id' ∈ (s.log ++ [TableEvent.refused id]).filterMap role.notes, id' ≤ role.top t) ∧
      (role.top t = .connection ∨ role.top t ∈ (s.log ++ [TableEvent.refused id]).filterMap role.notes) := by
    rw [notes_snoc]
    cases role with
    | server =>
      have top : Role.server.top t = id := top
      rw [top]
      refine ⟨fun id' mem => ?_, .inr (List.mem_append_right _ (List.mem_singleton_self _))⟩
      obtain was | same := List.mem_append.mp mem
      · have le := h.noted id' was
        rw [StreamId.le_def] at le above ⊢
        omega
      · obtain rfl := List.mem_singleton.mp same
        exact Nat.le_refl _
    | client =>
      have top : Role.client.top t = Role.client.top s.table := top
      rw [top]
      exact ⟨fun id' mem => h.noted id' (by simpa [Role.notes] using mem), by
        simpa [Role.notes] using h.reached⟩
  refine ⟨fun id' => ?_, ?_, rest.trans h.still, marked.1, marked.2, ?_, ?_, ?_, ?_⟩
  · unfold Open StreamTable.get?
    rw [opens, parts, live]
    exact h.live id'
  · rw [opens]
    exact h.odd
  · rw [opens]
    exact h.rising
  · rw [opens, parts]
    exact h.parted
  · rw [parts]
    exact h.once
  · rw [reclaimed, owes]
    exact h.owed

theorem Told.takes (h : s.Told role) : Told role
    ⟨{ s.table with reclaimed := 0 }, s.log ++ [.taken s.table.reclaimed]⟩ := by
  have opens : (⟨{ s.table with reclaimed := 0 }, s.log ++ [.taken s.table.reclaimed]⟩ :
      Chronicle).openings = s.openings := (openings_snoc ..).trans (List.append_nil _)
  have parts : (⟨{ s.table with reclaimed := 0 }, s.log ++ [.taken s.table.reclaimed]⟩ :
      Chronicle).departures = s.departures := (departures_snoc ..).trans (List.append_nil _)
  have notes : role.notes (.taken s.table.reclaimed) = none := by cases role <;> rfl
  have marks : (s.log ++ [TableEvent.taken s.table.reclaimed]).filterMap role.notes =
      s.log.filterMap role.notes := by
    rw [notes_snoc, notes]
    exact List.append_nil _
  have tops : role.top { s.table with reclaimed := 0 } = role.top s.table ∧
      role.rest { s.table with reclaimed := 0 } = role.rest s.table := by
    cases role
    · exact ⟨rfl, rfl⟩
    · exact ⟨rfl, rfl⟩
  refine ⟨fun id => ?_, ?_, tops.2.trans h.still, ?_, ?_, ?_, ?_, ?_, ?_⟩
  · unfold Open
    rw [opens, parts]
    exact h.live id
  · rw [opens]
    exact h.odd
  · rw [tops.1, marks]
    exact h.noted
  · rw [tops.1, marks]
    exact h.reached
  · rw [opens]
    exact h.rising
  · rw [opens, parts]
    exact h.parted
  · rw [parts]
    exact h.once
  · rw [owed_snoc]
    rfl

/-! ## Every step, and every run -/

theorem Told.step (h : s.Told role) (op : TableOp) : (s.step role op).Told role := by
  cases op with
  | open_ id =>
    obtain ⟨why, result⟩ | ⟨odd, above, ⟨-, t, result, live, reclaimed, rest, top⟩ |
      ⟨-, t, result, reclaimed, rest, top, live⟩⟩ := open_cases role s.table id
    · unfold Chronicle.step
      dsimp only
      rw [result]
      exact h
    · unfold Chronicle.step
      dsimp only
      rw [result]
      exact h.refuses above top rest reclaimed live
    · unfold Chronicle.step
      dsimp only
      rw [result]
      exact h.opens odd above top rest reclaimed live
  | apply id event =>
    obtain ⟨stream, closed, gone⟩ | ⟨stays, same⟩ := apply_cases s.table id event
    · unfold Chronicle.step leave
      dsimp only
      rw [closed, gone.was]
      exact h.departs gone
    · unfold Chronicle.step
      dsimp only
      rw [stays, if_neg Bool.false_ne_true, List.append_nil]
      exact h.steady same
  | retire id =>
    unfold Chronicle.step leave
    dsimp only
    cases was : s.table.get? id with
    | none =>
      rw [StreamTable.retire_of_none was, List.append_nil]
      exact h
    | some stream => exact h.departs (retire_departs was)
  | lookup id change => exact h.steady (modify_steady s.table id change)
  | maxConcurrent limit => exact h.steady ⟨fun _ => rfl, rfl, rfl, rfl⟩
  | initialWindow delta => exact h.steady (initialWindow_steady s.table delta)
  | takeReclaimed => exact h.takes

theorem start_told (role : Role) (maxConcurrent : Nat) (sendWindow recvWindow : Int) :
    (start maxConcurrent sendWindow recvWindow).Told role := by
  refine ⟨fun id => ⟨fun h => (by cases h), fun h => (by cases h.1)⟩, fun _ h => (by cases h), ?_,
    fun _ h => (by cases h), .inl ?_, .nil, fun _ h => (by cases h), List.nodup_nil, rfl⟩
  · cases role <;> rfl
  · cases role <;> rfl

theorem reach_told (h : (machine role).Reachable s) : s.Told role := by
  refine h.invariant (fun s init => ?_) fun s op told _ => told.step op
  obtain ⟨maxConcurrent, sendWindow, recvWindow, rfl⟩ := init
  exact start_told role maxConcurrent sendWindow recvWindow

/-- A stream that leaves the table is entered with what it held then. -/
theorem step_leaves (op : TableOp) {stream : Stream} (was : s.table.get? id = some stream)
    (gone : (s.step role op).table.get? id = none) :
    (s.step role op).log = s.log ++ [.retired id stream.pendingConnRelease] := by
  have stays : ∀ {t : StreamTable}, (t.get? id).isSome = (s.table.get? id).isSome →
      t.get? id ≠ none := by
    intro t same none_
    rw [was, none_] at same
    cases same
  cases op with
  | open_ id' =>
    exfalso
    unfold Chronicle.step at gone
    dsimp only at gone
    obtain ⟨why, result⟩ | ⟨-, -, ⟨-, t, result, live, -⟩ | ⟨-, t, result, -, -, -, live⟩⟩ :=
      open_cases role s.table id'
    · rw [result] at gone
      exact stays rfl gone
    · rw [result] at gone
      refine stays ?_ gone
      unfold StreamTable.get?
      rw [live]
    · rw [result] at gone
      have kept := live id
      rw [show t.get? id = none from gone, was] at kept
      split at kept <;> cases kept
  | apply id' event =>
    unfold Chronicle.step leave at *
    obtain ⟨stream', closed, left⟩ | ⟨-, same⟩ := apply_cases s.table id' event
    · have kept := left.live id
      rw [show (s.table.apply id' event).1.get? id = none from gone, was] at kept
      split at kept
      · rename_i same
        subst same
        dsimp only
        rw [closed, was]
        rfl
      · cases kept
    · exact absurd gone (stays (same.live id))
  | retire id' =>
    unfold Chronicle.step leave at *
    rw [show (s.table.retire id').get? id = if id = id' then none else s.table.get? id from
      StreamTable.get?_retire ..] at gone
    split at gone
    · rename_i same
      subst same
      dsimp only
      rw [was]
    · rw [was] at gone
      cases gone
  | lookup id' change => exact absurd gone (stays ((modify_steady s.table id' change).live id))
  | maxConcurrent limit => exact absurd gone (stays rfl)
  | initialWindow delta => exact absurd gone (stays ((initialWindow_steady s.table delta).live id))
  | takeReclaimed => exact absurd gone (stays rfl)

theorem Told.seen_iff (h : s.Told role) (odd : id.isClientInitiated = true) :
    s.table.seen id = true ↔ s.Passed role id := by
  have nonzero : ¬ id ≤ .connection := by
    intro zero
    have get : id.get = 0 := Nat.le_zero.mp zero
    unfold StreamId.isClientInitiated at odd
    rw [get] at odd
    cases odd
  have below : s.table.seen id = true ↔ id ≤ role.top s.table := by
    unfold StreamTable.seen
    rw [decide_eq_true_iff, StreamId.le_max_iff]
    cases role with
    | server =>
      have still : s.table.highestLocalId = .connection := h.still
      rw [still]
      exact ⟨fun le => le.resolve_right nonzero, .inl⟩
    | client =>
      have still : s.table.highestPeerId = .connection := h.still
      rw [still]
      exact ⟨fun le => le.resolve_left nonzero, .inr⟩
  rw [below]
  refine ⟨fun le => ?_, ?_⟩
  · obtain zero | noted := h.reached
    · exact absurd (zero ▸ le) nonzero
    · exact ⟨_, noted, le⟩
  · rintro ⟨id', noted, le⟩
    exact Nat.le_trans le (h.noted id' noted)

/-- Whatever is done to a table, in either role: live ids are odd and below the mark; ids are
opened in ascending order, each below the limit and never again; an event that closes leaves no
entry and one that fails changes nothing; `lookup` answers as the log says; and each stream that
left is entered once with what it held, all of it owed back until it is taken. -/
theorem table_tells_history (reached : (machine role).Reachable s) :
    (∀ id, (s.table.get? id).isSome = true →
      id.isClientInitiated = true ∧ id ≤ role.top s.table) ∧
    s.openings.Pairwise (· < ·) ∧
    (∀ id, (role.open_ s.table id).2 = .ok () →
      s.table.liveCount < s.table.maxConcurrent ∧ id ∉ s.openings) ∧
    (∀ id event next, (s.table.apply id event).2 = .ok next → next.isClosed = true →
      (s.table.apply id event).1.get? id = none) ∧
    (∀ id event e, (s.table.apply id event).2 = .error e → (s.table.apply id event).1 = s.table) ∧
    (∀ id, id.isClientInitiated = true →
      ((∃ stream, s.table.lookup id = .live stream) ↔ s.Open id) ∧
      (s.table.lookup id = .closed ↔ ¬ s.Open id ∧ s.Passed role id) ∧
      (s.table.lookup id = .idle ↔ ¬ s.Open id ∧ ¬ s.Passed role id)) ∧
    (s.table.reclaimed = min u32Max s.owed ∧ s.departures.Nodup ∧
      ∀ op id stream, s.table.get? id = some stream → (s.step role op).table.get? id = none →
        (s.step role op).log = s.log ++ [.retired id stream.pendingConnRelease]) := by
  have h := reach_told reached
  refine ⟨fun id live => ?_, h.rising, fun id opens => ?_, fun id event next result closed =>
    StreamTable.apply_closed result closed, fun id event e fails => StreamTable.apply_error fails,
    fun id odd => ?_, h.owed, h.once, fun op id stream was gone => step_leaves op was gone⟩
  · have opened := ((h.live id).mp live).1
    obtain ⟨e, he, opening⟩ := List.mem_filterMap.mp opened
    refine ⟨h.odd id opened, h.noted id (List.mem_filterMap.mpr ⟨e, he, ?_⟩)⟩
    cases e <;> cases opening
    cases role <;> rfl
  · obtain ⟨why, result⟩ | ⟨-, above, ⟨-, t, result, -⟩ | ⟨room, -⟩⟩ := open_cases role s.table id
    · rw [result] at opens
      cases opens
    · rw [result] at opens
      cases opens
    · refine ⟨room, fun opened => above ?_⟩
      obtain ⟨e, he, opening⟩ := List.mem_filterMap.mp opened
      refine h.noted id (List.mem_filterMap.mpr ⟨e, he, ?_⟩)
      cases e <;> cases opening
      cases role <;> rfl
  · have seen := h.seen_iff odd
    have live := h.live id
    unfold StreamTable.lookup
    cases held : s.table.get? id with
    | some stream =>
      rw [held] at live
      have open_ := live.mp rfl
      exact ⟨⟨fun _ => open_, fun _ => ⟨stream, rfl⟩⟩,
        ⟨fun no => (by cases no), fun no => absurd open_ no.1⟩,
        ⟨fun no => (by cases no), fun no => absurd open_ no.1⟩⟩
    | none =>
      rw [held] at live
      have shut : ¬ s.Open id := fun open_ => by cases live.mpr open_
      dsimp only
      split
      · rename_i passed
        exact ⟨⟨fun ⟨_, no⟩ => (by cases no), fun no => absurd no shut⟩,
          ⟨fun _ => ⟨shut, seen.mp passed⟩, fun _ => rfl⟩,
          ⟨fun no => (by cases no), fun no => absurd (seen.mp passed) no.2⟩⟩
      · rename_i unseen
        exact ⟨⟨fun ⟨_, no⟩ => (by cases no), fun no => absurd no shut⟩,
          ⟨fun no => (by cases no), fun no => absurd (seen.mpr no.2) unseen⟩,
          ⟨fun _ => ⟨shut, fun passed => unseen (seen.mpr passed)⟩, fun _ => rfl⟩⟩

/-- One stream is allowed; it is lent out, a second id is refused, and the first is retired. -/
theorem table_tells_history_refused :
    let s := (machine .server).run (start 1 100 100)
      [.open_ (.new 1), .lookup (.new 1) ({ · with pendingConnRelease := 7 }), .open_ (.new 5),
        .retire (.new 1), .retire (.new 1)]
    s.table.lookup (.new 3) = .closed ∧ s.table.lookup (.new 7) = .idle ∧
      s.table.reclaimed = 7 := by
  intro s
  have started : (machine .server).Reachable (start 1 100 100) := .init ⟨1, 100, 100, rfl⟩
  have reached : (machine .server).Reachable s :=
    started.run _ (.of_all (fun _ _ => trivial) _ _)
  obtain ⟨-, -, -, -, -, answers, owed, -⟩ := table_tells_history reached
  refine ⟨((answers (.new 3) (by decide)).2.1).mpr ⟨?_, .new 5, ?_, ?_⟩,
    ((answers (.new 7) (by decide)).2.2).mpr ⟨?_, ?_⟩, owed.trans (by decide)⟩
  · exact fun open_ => absurd open_.1 (by decide)
  · decide
  · decide
  · exact fun open_ => absurd open_.1 (by decide)
  · rintro ⟨id, noted, le⟩
    revert id
    decide

end Chronicle

end H2Proxy
