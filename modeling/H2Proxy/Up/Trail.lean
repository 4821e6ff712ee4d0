import H2Proxy.Hpack.RoundTrip
import H2Proxy.Up.Calm

/-
  How an upstream connection opens streams.

  Whatever it does, it does in strides: either it opens the next stream, for a request whose
  HEADERS it queues with it where the block fits a frame, or it opens none, and every HEADERS it
  queues is on a stream it opened before. A `Trail` is a sequence of strides with the openings among
  them; `Tracks` says which openings a program may make, in terms of the requests that wait before
  and after.
-/

namespace H2Proxy

/-- The head fits one frame, whatever the state of the encoder. -/
def RequestHead.fits (head : RequestHead) : Bool :=
  (head.toHeaders.map Header.listSize).sum + 11 ≤ maxAllowedFrameSize

/-- The message that a waiting request came with. -/
def Pending.asked (p : Pending) : ToUpstream :=
  .request p.request p.clientId p.head p.endStream p.events

/-- The request a message was taken for. -/
def UpObs.arrival : UpObs → Option ToUpstream
  | took (.request id clientId head endStream events) =>
    some (.request id clientId head endStream events)
  | _ => none

/-- The requests taken off the inbox, in order. -/
def arrivals (log : List UpObs) : List ToUpstream := log.filterMap UpObs.arrival

/-- Nothing opened, and no HEADERS frame but on a stream of ours up to `top`. -/
def UpObs.minor (top : StreamId) : UpObs → Bool
  | opened .. => false
  | queued (.headers id ..) _ _ => id ≤ top && id.isClientInitiated
  | _ => true

/-- The request an input asks for. -/
def UpInput.asks : UpInput → Option ToUpstream
  | message m => (UpObs.took m).arrival
  | _ => none

/-- The head of a request fits. -/
def ToUpstream.fits : ToUpstream → Bool
  | request _ _ head _ _ => head.fits
  | _ => true

/-- The head of a request that comes fits. -/
def UpInput.fits : UpInput → Bool
  | message m => m.fits
  | _ => true

namespace Upstream

open scoped List

/-- The requests that wait, oldest first. -/
def waiting (s : Upstream) : List ToUpstream := s.pending.map Pending.asked

/-- A stream opened, and the request it was opened for. -/
structure Opening where
  id : StreamId
  request : ToUpstream

/-! ## Strides -/

/-- Nothing is opened. -/
structure Quiet (s t : Upstream) : Prop where
  top : t.streams.highestLocalId = s.streams.highestLocalId
  next : t.nextStreamId = s.nextStreamId
  live : ∀ id, (t.streams.get? id).isSome → (s.streams.get? id).isSome
  log : ∃ added, t.log = s.log ++ added ∧
    ∀ o ∈ added, o.minor s.streams.highestLocalId = true

/-- What is noted when a head is sent: its HEADERS is queued, unless the block is longer than any
    frame. -/
def announced (id : StreamId) (fields : List Header) (endStream : Bool) (e : HpackEncoder)
    (limit : Nat) : List UpObs :=
  .encoded e fields limit ::
    if (e.encode fields).2.length ≤ maxAllowedFrameSize then
      [.queued (.headers id (e.encode fields).2 endStream true) fields limit]
    else []

/-- The next stream is opened: its id is odd and above all before it, the streams live beside it
    leave one free under the limit the backend has set by the SETTINGS heard, and its HEADERS
    follows. -/
structure Opens (o : Opening) (s t : Upstream) : Prop where
  slot : s.streams.liveCount < (UpObs.tap.settings s.log).maxConcurrentStreams.getD u32Max
  next : o.id.get = s.nextStreamId
  odd : o.id.isClientInitiated = true
  above : s.streams.highestLocalId < o.id
  top : t.streams.highestLocalId = o.id
  after : t.nextStreamId = s.nextStreamId + 2
  live : ∀ id, (t.streams.get? id).isSome → id = o.id ∨ (s.streams.get? id).isSome
  log : ∃ request clientId head endStream events e limit,
    o.request = .request request clientId head endStream events ∧
      t.log = s.log ++ .opened o.id s.streams.liveCount ::
        announced o.id head.toHeaders endStream e limit

/-- Strides from `s`, and the openings among them. -/
inductive Trail (s : Upstream) : List Opening → Upstream → Prop
  | refl : Trail s [] s
  | quiet {os : List Opening} {t u : Upstream} : Trail s os t → Quiet t u → Trail s os u
  | opens {os : List Opening} {o : Opening} {t u : Upstream} :
    Trail s os t → Opens o t u → Trail s (os ++ [o]) u

namespace Trail

variable {s t u : Upstream} {os os' : List Opening}

theorem trans (h : Trail s os t) (h' : Trail t os' u) : Trail s (os ++ os') u := by
  induction h' with
  | refl =>
    rw [List.append_nil]
    exact h
  | quiet _ hq ih => exact ih.quiet hq
  | opens _ ho ih =>
    rw [← List.append_assoc]
    exact ih.opens ho

/-- The ids are odd, increase, and lie above what was opened before. -/
theorem ids (h : Trail s os t) :
    (os.map (·.id.get)).Pairwise (· < ·) ∧ (∀ o ∈ os, o.id.isClientInitiated = true) ∧
      (∀ o ∈ os, s.streams.highestLocalId < o.id ∧ o.id ≤ t.streams.highestLocalId) ∧
      s.streams.highestLocalId ≤ t.streams.highestLocalId := by
  induction h with
  | refl => exact ⟨.nil, nofun, nofun, Nat.le_refl _⟩
  | quiet _ hq ih =>
    rw [hq.top]
    exact ih
  | @opens os o t u _ ho ih =>
    obtain ⟨hpair, hodd, hbetween, hle⟩ := ih
    have htop := ho.top
    have habove : t.streams.highestLocalId.get < o.id.get := ho.above
    refine ⟨?_, fun o' ho' => ?_, fun o' ho' => ?_, ?_⟩
    · rw [List.map_append, List.pairwise_append]
      refine ⟨hpair, List.pairwise_singleton _ _, fun a ha b hb => ?_⟩
      obtain ⟨o', ho', rfl⟩ := List.mem_map.mp ha
      obtain rfl := List.mem_singleton.mp hb
      exact Nat.lt_of_le_of_lt (hbetween o' ho').2 habove
    · obtain ho' | ho' := List.mem_append.mp ho'
      · exact hodd o' ho'
      · rw [List.mem_singleton.mp ho']
        exact ho.odd
    · rw [htop]
      obtain ho' | ho' := List.mem_append.mp ho'
      · exact ⟨(hbetween o' ho').1, Nat.le_of_lt (Nat.lt_of_le_of_lt (hbetween o' ho').2 habove)⟩
      · rw [List.mem_singleton.mp ho']
        exact ⟨Nat.lt_of_le_of_lt hle habove, Nat.le_refl _⟩
    · rw [htop]
      exact Nat.le_of_lt (Nat.lt_of_le_of_lt hle habove)

end Trail

/-! ## What is tracked -/

/-- The id is one a stream was opened under. -/
def Used (s : Upstream) (id : StreamId) : Prop :=
  id ≤ s.streams.highestLocalId ∧ id.isClientInitiated = true

/-- The table obeys the backend's limit, the next id follows the highest, every live stream was
    opened, and the settings are those heard, but for a frame that is still to be acted on. -/
structure CountedBut (due : Option Frame) (s : Upstream) : Prop where
  limit : s.streams.maxConcurrent = s.peerSettings.maxConcurrentStreams.getD u32Max
  next : s.nextStreamId = s.streams.highestLocalId.get + 2 ∧ s.streams.highestLocalId.get % 2 = 1 ∨
    s.nextStreamId = 1 ∧ s.streams.highestLocalId.get = 0
  below : ∀ id, (s.streams.get? id).isSome → s.Used id
  heard : UpObs.tap.settings s.log = due.elim s.peerSettings (·.settle s.peerSettings)

/-- What holds between two frames. -/
abbrev Counted (s : Upstream) : Prop := s.CountedBut none

/-- From `s` on, streams were opened for the requests `q` allows: those opened and then those that
    wait. -/
structure Picks (s : Upstream) (q : List ToUpstream → Prop) (t : Upstream) : Prop where
  trail : ∃ os, Trail s os t ∧ q (os.map (·.request) ++ t.waiting)
  arrivals : arrivals t.log = arrivals s.log

/-- What `Picks` says, of a connection that goes on as it was. -/
structure Tracks (s : Upstream) (q : List ToUpstream → Prop) (t : Upstream) : Prop
    extends Picks s q t where
  counted : t.Counted
  peerDraining : t.peerDraining = s.peerDraining

/-- Only requests that waited are opened, in their order, and none comes to wait. -/
abbrev Tracked (s t : Upstream) : Prop := s.Counted → Tracks s (· <+ s.waiting) t

theorem Picks.step {s t u : Upstream} {q : List ToUpstream → Prop}
    (hq : ∀ l l', l <+ l' → q l' → q l) (h : Picks s q t) (h' : Picks t (· <+ t.waiting) u) :
    Picks s q u := by
  obtain ⟨os, htrail, hqt⟩ := h.trail
  obtain ⟨os', htrail', hqu⟩ := h'.trail
  refine ⟨⟨os ++ os', htrail.trans htrail', hq _ _ ?_ hqt⟩, h'.arrivals.trans h.arrivals⟩
  rw [List.map_append, List.append_assoc]
  exact (List.Sublist.refl _).append hqu

theorem Tracks.step {s t u : Upstream} {q : List ToUpstream → Prop}
    (hq : ∀ l l', l <+ l' → q l' → q l) (h : Tracks s q t) (hu : Tracked t u) : Tracks s q u :=
  have h' := hu h.counted
  ⟨h.toPicks.step hq h'.toPicks, h'.counted, h'.peerDraining.trans h.peerDraining⟩

theorem Picks.refl (s : Upstream) : Picks s (· <+ s.waiting) s := ⟨⟨[], .refl, .refl _⟩, rfl⟩

instance : Std.Refl Tracked where
  refl s h := ⟨.refl s, h, rfl⟩

instance : IsTrans Upstream Tracked where
  trans _ _ _ h h' hs := (h hs).step (fun _ _ hl hl' => hl.trans hl') h'

theorem Tracks.top_le {s t : Upstream} {q : List ToUpstream → Prop} (h : Tracks s q t) :
    s.streams.highestLocalId ≤ t.streams.highestLocalId := by
  obtain ⟨os, htrail, -⟩ := h.trail
  exact htrail.ids.2.2.2

theorem Tracks.used {s t : Upstream} {q : List ToUpstream → Prop} (h : Tracks s q t)
    {id : StreamId} (hid : s.Used id) : t.Used id :=
  ⟨Nat.le_trans hid.1 h.top_le, hid.2⟩

/-- Nothing that is tracked changes, save that streams or waiting requests may go. -/
structure Unmoved (s t : Upstream) : Prop where
  top : t.streams.highestLocalId = s.streams.highestLocalId
  limit : t.streams.maxConcurrent = s.streams.maxConcurrent
  live : ∀ id, (t.streams.get? id).isSome → (s.streams.get? id).isSome
  next : t.nextStreamId = s.nextStreamId
  peerSettings : t.peerSettings = s.peerSettings
  peerDraining : t.peerDraining = s.peerDraining
  waiting : t.waiting <+ s.waiting
  log : t.log = s.log

theorem Unmoved.tracked {s t : Upstream} (h : Unmoved s t) : Tracked s t := by
  intro hs
  refine ⟨⟨⟨[], ?_, h.waiting⟩, by rw [h.log]⟩,
    ⟨?_, ?_, fun id hid => ?_, ?_⟩, h.peerDraining⟩
  · exact Trail.refl.quiet ⟨h.top, h.next, h.live, [], by rw [h.log, List.append_nil], nofun⟩
  · rw [h.limit, h.peerSettings]
    exact hs.limit
  · rw [h.next, h.top]
    exact hs.next
  · unfold Used
    rw [h.top]
    exact hs.below id (h.live id hid)
  · rw [h.log, h.peerSettings]
    exact hs.heard

/-- Nothing is heard, so the settings stay those heard. -/
theorem CountedBut.quiet {due : Option Frame} {s : Upstream} (hs : s.CountedBut due)
    {log : List UpObs} (grows : Adds (fun o => UpObs.tap.heard o = none) s.log log) :
    UpObs.tap.settings log = due.elim s.peerSettings (·.settle s.peerSettings) :=
  (Tap.settings_unheard grows).trans hs.heard

/-- Something minor is observed. -/
theorem tracked_observe {s : Upstream} {o : UpObs}
    (h : s.Counted → o.minor s.streams.highestLocalId = true) (ha : o.arrival = none)
    (hheard : UpObs.tap.heard o = none) :
    Tracked s (s.withCore (s.toUpstreamCore.observe o)) := by
  intro hs
  refine ⟨⟨⟨[], Trail.refl.quiet ⟨rfl, rfl, fun _ h => h, [o], rfl, ?_⟩, .refl _⟩, ?_⟩,
    ⟨hs.limit, hs.next, hs.below, hs.quiet (.one hheard)⟩, rfl⟩
  · intro o' ho'
    rw [List.mem_singleton.mp ho']
    exact h hs
  · show H2Proxy.arrivals (s.log ++ [o]) = _
    unfold H2Proxy.arrivals
    rw [List.filterMap_append, List.filterMap_cons, ha, List.filterMap_nil, List.append_nil]

/-! ## Small changes -/

namespace Unmoved

variable {s : Upstream}

theorem same {t : Upstream} (hstreams : t.streams = s.streams) (hpending : t.pending = s.pending)
    (hnext : t.nextStreamId = s.nextStreamId) (hsettings : t.peerSettings = s.peerSettings)
    (hdraining : t.peerDraining = s.peerDraining) (hlog : t.log = s.log) : Unmoved s t := by
  refine ⟨by rw [hstreams], by rw [hstreams], fun id => ?_, hnext, hsettings, hdraining, ?_, hlog⟩
  · rw [hstreams]
    exact fun h => h
  · unfold Upstream.waiting
    rw [hpending]

/-- Only the streams change, and none is added. -/
theorem streams {streams : StreamTable} (htop : streams.highestLocalId = s.streams.highestLocalId)
    (hlimit : streams.maxConcurrent = s.streams.maxConcurrent)
    (hlive : ∀ id, (streams.get? id).isSome → (s.streams.get? id).isSome) :
    Unmoved s (s.withCore { s.toUpstreamCore with streams }) :=
  ⟨htop, hlimit, hlive, rfl, rfl, rfl, .refl _, rfl⟩

/-- Only the queue changes, and nothing comes to it. -/
theorem pending {pending : List Pending}
    (h : pending.map Pending.asked <+ s.pending.map Pending.asked) :
    Unmoved s (s.withCore { s.toUpstreamCore with pending }) :=
  ⟨rfl, rfl, fun _ h => h, rfl, rfl, rfl, h, rfl⟩

theorem modifyStream (id : StreamId) (f : Stream → Stream) :
    Unmoved s (s.withCore (s.toUpstreamCore.modifyStream id f)) := by
  refine streams rfl rfl fun id' => ?_
  rw [StreamTable.get?_modify]
  split
  · rename_i heq
    rw [heq, Option.isSome_map]
    exact fun h => h
  · exact fun h => h

theorem retire (id : StreamId) : Unmoved s (s.withCore (s.toUpstreamCore.retire id)) := by
  refine streams ?_ ?_ fun id' => ?_
  · exact StreamTable.retire_highestLocalId _ _
  · exact StreamTable.retire_maxConcurrent _ _
  · show ((s.streams.retire id).get? id').isSome → _
    rw [StreamTable.get?_retire]
    split
    · exact nofun
    · exact fun h => h

theorem apply (id : StreamId) (event : StreamEvent) :
    Unmoved s (s.withCore { s.toUpstreamCore with streams := (s.streams.apply id event).1 }) := by
  refine streams (StreamTable.apply_highestLocalId _ _ _) (StreamTable.apply_maxConcurrent _ _ _)
    fun id' => ?_
  rw [StreamTable.get?_apply]
  split
  · rename_i heq
    rw [heq]
    cases s.streams.get? id with
    | none => exact fun h => h
    | some st => exact fun _ => rfl
  · exact fun h => h

/-- A waiting request is amended. -/
theorem modifyPending (request : RequestId) (f : Pending → Pending)
    (hf : ∀ p, (f p).asked = p.asked) :
    Unmoved s (s.withCore (s.toUpstreamCore.modifyPending request f)) := by
  have hsame : ∀ ps : List Pending,
      (ps.replaceF fun p => if p.request = request then some (f p) else none).map Pending.asked =
        ps.map Pending.asked := by
    intro ps
    induction ps with
    | nil => rfl
    | cons p ps ih =>
      rw [List.replaceF_cons]
      split
      · rename_i hnone
        rw [List.map_cons, List.map_cons, ih]
      · rename_i p' hsome
        split at hsome
        · cases hsome
          rw [List.map_cons, List.map_cons, hf]
        · cases hsome
  refine pending ?_
  rw [hsame]

end Unmoved

theorem follows_counted {α : Type} {s : Upstream}
    {r : EStateM.Result ConnectionError Upstream α} (h : s.Counted → Follows Tracked s r) :
    Follows Tracked s r := by
  cases r with
  | ok a t => exact fun hs => h hs hs
  | error e t => exact fun hs => h hs hs

theorem Tracks.follows {α : Type} {b s : Upstream} {q : List ToUpstream → Prop}
    (h : Tracks b q s) (hq : ∀ l l', l <+ l' → q l' → q l)
    {r : EStateM.Result ConnectionError Upstream α} (hr : Follows Tracked s r) :
    Ends r (fun _ => Tracks b q) fun _ => Tracks b q :=
  Ends.mono hr (fun _ _ => h.step hq) fun _ _ => h.step hq

theorem follows_onCore {s : Upstream} {f : UpstreamCore → UpstreamCore}
    (h : Unmoved s (s.withCore (f s.toUpstreamCore))) : Follows Tracked s (onCore f s) := h.tracked

theorem follows_observe {s : Upstream} {o : UpObs}
    (h : s.Counted → o.minor s.streams.highestLocalId = true) (ha : o.arrival = none)
    (hheard : UpObs.tap.heard o = none) :
    Follows Tracked s (onCore (.observe o) s) := tracked_observe h ha hheard

theorem follows_modify {s : Upstream} {f : Upstream → Upstream} (h : Unmoved s (f s)) :
    Follows Tracked s ((modify f : UpM Unit) s) := h.tracked

/-- What a program does not track it may say. -/
theorem follows_tell (s : Upstream) (request : RequestId) (events : Events)
    (event : ServiceEvent) : Follows Tracked s (tell request events event s) :=
  follows_observe (fun _ => rfl) rfl rfl

theorem follows_ignore {x : UpM Unit} {s : Upstream} (h : Follows Tracked s (x s)) :
    Follows Tracked s (ignore x s) := by
  unfold ignore
  cases hx : x s with
  | ok a t =>
    rw [hx] at h
    exact h
  | error e t =>
    rw [hx] at h
    exact h

theorem follows_unready (s : Upstream) (id : StreamId) : Follows Tracked s (unready id s) :=
  follows_modify (.same rfl rfl rfl rfl rfl rfl)

theorem follows_syncQueued (s : Upstream) : Follows Tracked s (syncQueued s) :=
  follows_onCore (.same rfl rfl rfl rfl rfl rfl)

/-! ## Writing -/

theorem queueFields_tracked (s : Upstream) {frame : Frame} (fields : List Header)
    (h : s.Counted → ∀ limit, (UpObs.queued frame fields limit).minor s.streams.highestLocalId = true) :
    Follows Tracked s (queueFields frame fields s) := by
  unfold queueFields
  cases frame.write with
  | error e => exact .throw _
  | ok octets =>
    refine .get (.bind (follows_observe (fun hs => h hs _) rfl rfl) fun _ t _ => ?_)
    exact follows_modify (.same rfl rfl rfl rfl rfl rfl)

/-- Frames other than HEADERS. -/
theorem queueFrame_tracked (s : Upstream) {frame : Frame} (h : frame.kind ≠ .headers) :
    Follows Tracked s (queueFrame frame s) := by
  refine queueFields_tracked s [] fun _ limit => ?_
  cases frame with
  | headers => exact absurd rfl h
  | _ => rfl

/-- HEADERS on a stream that was opened before. -/
theorem queueHeaders_tracked (s : Upstream) {id : StreamId} (fields : List Header)
    (endStream : Bool) (h : s.Counted → s.Used id) :
    Follows Tracked s (queueHeaders id fields endStream s) := by
  refine follows_counted fun hs => ?_
  refine .get (.bind (follows_observe (fun _ => rfl) rfl rfl) fun _ t ht => ?_)
  refine .bind (follows_modify (.same rfl rfl rfl rfl rfl rfl)) fun _ u hu => ?_
  have hused := Tracks.used (IsTrans.trans _ _ _ ht hu hs) (h hs)
  refine queueFields_tracked u fields fun _ _ => ?_
  exact Bool.and_eq_true_iff.mpr ⟨decide_eq_true hused.1, hused.2⟩

theorem enqueueReady_tracked (s : Upstream) (id : StreamId) :
    Follows Tracked s (enqueueReady id s) := by
  refine .get ?_
  cases s.streams.get? id with
  | none => exact .pure _
  | some stream =>
    refine .ite (fun _ => .pure _) fun _ => ?_
    refine .bind (follows_onCore (.modifyStream id _)) fun _ t _ => ?_
    exact follows_modify (.same rfl rfl rfl rfl rfl rfl)

/-! ## Credit -/

theorem releaseConnWindow_tracked (s : Upstream) (len : Nat) :
    Follows Tracked s (releaseConnWindow len s) := by
  refine .get ?_
  rcases s.connRecvWindow.release len with ⟨window, increment⟩
  refine .bind (follows_onCore (.same rfl rfl rfl rfl rfl rfl)) fun _ t _ => ?_
  cases increment with
  | none => exact .pure _
  | some increment => exact queueFrame_tracked t nofun

theorem releaseStream_tracked (s : Upstream) (id : StreamId) (n : Nat) :
    Follows Tracked s (releaseStream id n s) := by
  refine .get ?_
  cases s.streams.get? id with
  | none => exact .pure _
  | some stream =>
    dsimp only
    rcases stream.recvWindow.release n with ⟨window, increment⟩
    refine .bind (follows_onCore (.modifyStream id _)) fun _ t _ => ?_
    cases increment with
    | none => exact .pure _
    | some increment => exact queueFrame_tracked t nofun

theorem release_tracked (s : Upstream) (id : StreamId) (n : Nat) :
    Follows Tracked s (release id n s) := by
  refine .ite (fun _ => .pure _) fun _ => ?_
  refine .bind (follows_onCore (.same rfl rfl rfl rfl rfl rfl)) fun _ t _ => ?_
  exact .bind (releaseStream_tracked t id n) fun _ u _ => releaseConnWindow_tracked u n

/-! ## The next stream -/

/-- A stream that may be opened is opened under the next id. -/
theorem Counted.openLocal {s : Upstream} (h : s.Counted) (hopen : s.streams.canOpenLocal = true) :
    (s.streams.openLocal (.new s.nextStreamId)).2 = .ok () ∧
      (StreamId.new s.nextStreamId).get = s.nextStreamId ∧ s.nextStreamId < 2 ^ 31 := by
  have hmax : maxLocalStreamId = 2 ^ 31 - 1 := rfl
  unfold StreamTable.canOpenLocal at hopen
  simp only [Bool.and_eq_true, decide_eq_true_eq] at hopen
  obtain ⟨hroom, htop⟩ := hopen
  have hnext : s.nextStreamId < 2 ^ 31 ∧ s.nextStreamId % 2 = 1 ∧
      s.streams.highestLocalId.get < s.nextStreamId := by
    have := h.next
    omega
  have hget : (StreamId.new s.nextStreamId).get = s.nextStreamId := Nat.mod_eq_of_lt hnext.1
  have hodd : (StreamId.new s.nextStreamId).isClientInitiated = true := by
    unfold StreamId.isClientInitiated
    rw [hget]
    simp only [Bool.and_eq_true, bne_iff_ne, beq_iff_eq]
    omega
  refine ⟨?_, hget, hnext.1⟩
  unfold StreamTable.openLocal
  rw [if_neg (by simp [hodd]), if_neg, if_neg (by omega)]
  rw [StreamId.le_def, hget]
  omega

/-- What is noted when a head is sent was not heard and brings no request. -/
theorem announced_silent {id : StreamId} {fields : List Header} {endStream : Bool}
    {e : HpackEncoder} {limit : Nat} {o : UpObs} (ho : o ∈ announced id fields endStream e limit) :
    o.arrival = none ∧ UpObs.tap.heard o = none := by
  unfold announced at ho
  obtain rfl | ho := List.mem_cons.mp ho
  · exact ⟨rfl, rfl⟩
  split at ho
  · rw [List.mem_singleton.mp ho]
    exact ⟨rfl, rfl⟩
  · cases ho

/-- A stream that is opened under the next id, and its head sent, is the next stride. -/
theorem Counted.opens {s t : Upstream} (hs : s.Counted) (request : RequestId)
    (clientId : StreamId) (events : Events) (hcan : s.streams.canOpenLocal = true)
    {head : RequestHead} {endStream : Bool} {e : HpackEncoder} {limit : Nat}
    (hstreams : t.streams = (s.streams.openLocal (.new s.nextStreamId)).1)
    (hnext : t.nextStreamId = satAdd32 s.nextStreamId 2) (hpeer : t.peerSettings = s.peerSettings)
    (hlog : t.log = s.log ++ .opened (.new s.nextStreamId) s.streams.liveCount ::
      announced (.new s.nextStreamId) head.toHeaders endStream e limit) :
    Opens ⟨.new s.nextStreamId, .request request clientId head endStream events⟩ s t ∧
      t.Counted := by
  obtain ⟨hopened, hget, hsmall⟩ := hs.openLocal hcan
  obtain ⟨hodd, habove, hroom, htable⟩ := StreamTable.openLocal_ok hopened
  rw [htable] at hstreams
  have htop : t.streams.highestLocalId = .new s.nextStreamId := by rw [hstreams]; rfl
  have hafter : t.nextStreamId = s.nextStreamId + 2 := by
    have hmax : u32Max = 2 ^ 32 - 1 := rfl
    rw [hnext, satAdd32_eq (by omega)]
  refine ⟨⟨?_, hget, hodd, ?_, htop, hafter, fun id hid => ?_, request, clientId, head,
    endStream, events, e, limit, rfl, hlog⟩, ?_, .inl ?_, fun id hid => ?_, ?_⟩
  · rw [hs.heard]
    exact hs.limit ▸ hroom
  · rw [StreamId.le_def] at habove
    exact Nat.lt_of_not_le habove
  · rw [hstreams, StreamTable.get?_insertNew] at hid
    split at hid
    · rename_i heq
      exact .inl heq
    · exact .inr hid
  · rw [hstreams, hpeer]
    exact hs.limit
  · have hodd' := hs.next
    rw [htop, hafter, hget]
    omega
  · rw [hstreams, StreamTable.get?_insertNew] at hid
    unfold Used
    rw [htop]
    split at hid
    · rename_i heq
      rw [heq]
      exact ⟨Nat.le_refl _, hodd⟩
    · obtain ⟨hle, hodd'⟩ := hs.below id hid
      rw [StreamId.le_def] at habove hle
      exact ⟨by rw [StreamId.le_def]; omega, hodd'⟩
  · rw [hlog, hpeer]
    refine hs.quiet ⟨_, rfl, fun o ho => ?_⟩
    obtain rfl | ho := List.mem_cons.mp ho
    · rfl
    · exact (announced_silent ho).2

/-- A head was sent: it is noted, and the rest stays. -/
structure Announces (s : Upstream) (id : StreamId) (fields : List Header) (endStream : Bool)
    (t : Upstream) : Prop where
  streams : t.streams = s.streams
  pending : t.pending = s.pending
  next : t.nextStreamId = s.nextStreamId
  peerSettings : t.peerSettings = s.peerSettings
  peerDraining : t.peerDraining = s.peerDraining
  log : t.log = s.log ++ announced id fields endStream s.hpackEnc s.peerSettings.maxFrameSize

/-- A header list is encoded, and queued where its block fits a frame. -/
theorem queueHeaders_ends (s : Upstream) (id : StreamId) (fields : List Header)
    (endStream : Bool) :
    Ends (queueHeaders id fields endStream s) (fun _ => Announces s id fields endStream)
      fun _ t => Announces s id fields endStream t ∧
        maxAllowedFrameSize < (s.hpackEnc.encode fields).2.length := by
  have hlen : (Frame.headers id (s.hpackEnc.encode fields).2 endStream true).payloadLen =
      (s.hpackEnc.encode fields).2.length := rfl
  unfold queueHeaders queueFields
  rw [ends_bind, ends_get, ends_bind, ends_onCore]
  dsimp only
  rw [ends_bind, ends_modify]
  cases hwrite : (Frame.headers id (s.hpackEnc.encode fields).2 endStream true).write with
  | error e =>
    have hlong := Frame.write_error hwrite
    refine ⟨⟨rfl, rfl, rfl, rfl, rfl, ?_⟩, by omega⟩
    unfold announced
    rw [if_neg (by omega)]
    rfl
  | ok octets =>
    refine ⟨rfl, rfl, rfl, rfl, rfl, ?_⟩
    unfold announced
    rw [if_pos (show (s.hpackEnc.encode fields).2.length ≤ _ from Frame.write_ok hwrite)]
    exact List.append_assoc ..

/-! ## Ending streams -/

theorem writeRstStream_tracked (s : Upstream) (id : StreamId) (code : ErrorCode) :
    Follows Tracked s (writeRstStream id code s) := by
  refine .bind (follows_onCore (.retire id)) fun _ t _ => ?_
  exact .bind (follows_unready t id) fun _ u _ => queueFrame_tracked u nofun

section Drain

variable {drain : UpM Unit} (hdrain' : ∀ s, Follows Tracked s (drain s))

include hdrain'

theorem forgetWith_tracked (s : Upstream) (id : StreamId) :
    Follows Tracked s (forgetWith drain id s) := by
  have last : ∀ t : Upstream, Follows Tracked t (ignore drain t) :=
    fun t => follows_ignore (hdrain' t)
  refine .bind (follows_onCore (.retire id)) fun _ t _ => ?_
  refine .bind (follows_unready t id) fun _ u _ => .get ?_
  cases u.routes.lookup id with
  | none => exact last u
  | some route =>
    refine .bind (follows_onCore (.same rfl rfl rfl rfl rfl rfl)) fun _ v _ => ?_
    refine .ite (fun _ => ?_) fun _ => last v
    exact .bind (follows_ignore (releaseConnWindow_tracked v _)) fun _ w _ => last w

theorem failStreamWith_tracked (s : Upstream) (id : StreamId) (status : Nat) :
    Follows Tracked s (failStreamWith drain id status s) := by
  have rest : ∀ t : Upstream, Follows Tracked t ((do
      if ((← get).streams.get? id).isSome then writeRstStream id .cancel else pure ()
      forgetWith drain id : UpM Unit) t) := by
    refine fun t => .get (.ite (fun _ => ?_) fun _ => forgetWith_tracked hdrain' t id)
    exact .bind (writeRstStream_tracked t id _) fun _ u _ => forgetWith_tracked hdrain' u id
  refine .get ?_
  cases s.routes.lookup id with
  | none => exact rest s
  | some route => exact .bind (follows_tell s _ _ _) fun _ t _ => rest t

theorem applyStreamEventWith_tracked (s : Upstream) (id : StreamId) (event : StreamEvent) :
    Follows Tracked s (applyStreamEventWith drain id event s) := by
  have moved := Unmoved.apply (s := s) id event
  refine .get ?_
  generalize s.streams.apply id event = r at moved
  obtain ⟨streams, result⟩ := r
  refine .bind (follows_onCore moved) fun _ t _ => ?_
  cases result with
  | ok state => exact .ite (fun _ => follows_unready t id) fun _ => .pure _
  | error e =>
    exact .ite (fun _ => .throw _) fun _ => failStreamWith_tracked hdrain' t id 502

/-! ## Starting streams -/

/-- A request is dropped or refused, comes to wait, or gets a stream. -/
theorem sendRequestWith_tracks {b s : Upstream} {q : List ToUpstream → Prop}
    (hq : ∀ l l', l <+ l' → q l' → q l) {os : List Opening} (htrail : Trail b os s)
    (hs : s.Counted) (hdraining : s.peerDraining = b.peerDraining)
    (harrivals : arrivals s.log = arrivals b.log) {request : RequestId} {clientId : StreamId}
    {head : RequestHead} {endStream : Bool} {events : Events}
    (hdrop : q (os.map (·.request) ++ s.waiting))
    (hopen : s.streams.canOpenLocal = true →
      q (os.map (·.request) ++ .request request clientId head endStream events :: s.waiting))
    (hwait : s.streams.canOpenLocal = false →
      q (os.map (·.request) ++
        (s.waiting ++ [.request request clientId head endStream events]))) :
    Ends (sendRequestWith drain request clientId head endStream events s)
      (fun _ => Tracks b q) fun _ => Tracks b q := by
  have here : Tracks b q s := ⟨⟨⟨os, htrail, hdrop⟩, harrivals⟩, hs, hdraining⟩
  unfold sendRequestWith
  rw [ends_bind, ends_get]
  split
  · exact here.follows hq (follows_onCore (.same rfl rfl rfl rfl rfl rfl))
  split
  · exact here.follows hq (follows_tell s _ _ _)
  split
  · rename_i hfull
    split
    · exact here.follows hq (follows_tell s _ _ _)
    · have hwait := hwait (by simpa using hfull)
      have later : Tracks b q (s.withCore { s.toUpstreamCore with
          pending := s.pending ++ [⟨request, clientId, head, endStream, events, [], none⟩] }) := by
        have still : Quiet s (s.withCore { s.toUpstreamCore with
            pending := s.pending ++ [⟨request, clientId, head, endStream, events, [], none⟩] }) :=
          ⟨rfl, rfl, fun _ h => h, [], (List.append_nil _).symm, nofun⟩
        refine ⟨⟨⟨os, htrail.quiet still, ?_⟩, harrivals⟩,
          ⟨hs.limit, hs.next, hs.below, hs.heard⟩, hdraining⟩
        unfold waiting at hwait ⊢
        dsimp only [withCore]
        rw [List.map_append]
        exact hwait
      exact later.follows hq (follows_syncQueued _)
  · rename_i hcan
    have hcan : s.streams.canOpenLocal = true := by simpa using hcan
    rw [ends_bind, ends_onCore, (hs.openLocal hcan).1]
    dsimp only
    rw [ends_bind, ends_onCore, ends_bind, ends_onCore, ends_bind]
    have now : ∀ t e limit, t.streams = (s.streams.openLocal (.new s.nextStreamId)).1 →
        t.pending = s.pending → t.nextStreamId = satAdd32 s.nextStreamId 2 →
        t.peerSettings = s.peerSettings → t.peerDraining = s.peerDraining →
        t.log = s.log ++ [.opened (.new s.nextStreamId) s.streams.liveCount] ++
          announced (.new s.nextStreamId) head.toHeaders endStream e limit → Tracks b q t := by
      intro t e limit hstreams hpending hnext hpeer hdrain hlog
      have hlog' : t.log = s.log ++ .opened (.new s.nextStreamId) s.streams.liveCount ::
          announced (.new s.nextStreamId) head.toHeaders endStream e limit :=
        hlog.trans (List.append_assoc ..)
      obtain ⟨hopens, hcounted⟩ := hs.opens request clientId events hcan hstreams hnext hpeer hlog'
      have hwaiting : t.waiting = s.waiting := congrArg (List.map Pending.asked) hpending
      refine ⟨⟨⟨_, htrail.opens hopens, ?_⟩, ?_⟩, hcounted, hdrain.trans hdraining⟩
      · rw [hwaiting, List.map_append, List.append_assoc]
        exact hopen hcan
      · have silent : (UpObs.opened (.new s.nextStreamId) s.streams.liveCount ::
            announced (.new s.nextStreamId) head.toHeaders endStream e limit).filterMap
              UpObs.arrival = [] := by
          refine List.filterMap_eq_nil_iff.mpr fun o ho => ?_
          obtain rfl | ho := List.mem_cons.mp ho
          · rfl
          · exact (announced_silent ho).1
        rw [hlog', ← harrivals]
        unfold arrivals
        rw [List.filterMap_append, silent, List.append_nil]
    refine (queueHeaders_ends _ _ head.toHeaders endStream).mono (fun _ t ht => ?_) fun _ t ht => ?_
    · refine (now t _ _ ht.streams ht.pending ht.next ht.peerSettings ht.peerDraining ht.log).follows
        hq (applyStreamEventWith_tracked hdrain' t _ _)
    · exact now t _ _ ht.1.streams ht.1.pending ht.1.next ht.1.peerSettings ht.1.peerDraining ht.1.log

end Drain

theorem sendWaiting_tracked (s : Upstream) (p : Pending) (id : StreamId) :
    Follows Tracked s (sendWaiting p id s) :=
  .bind (follows_onCore (.modifyStream id _)) fun _ t _ => enqueueReady_tracked t id

/-- What waits is started in its order. -/
theorem drainPendingFrom_tracked (fuel : Nat) (s : Upstream) :
    Follows Tracked s (drainPendingFrom fuel s) := by
  induction fuel generalizing s with
  | zero => exact .pure _
  | succ fuel ih =>
    refine .get (.ite (fun hcan => ?_) fun _ => .pure _)
    cases hp : s.pending with
    | nil => exact follows_syncQueued s
    | cons p pending =>
      dsimp only
      refine follows_counted fun hs => ?_
      have hwaiting : s.waiting = p.asked :: pending.map Pending.asked := by
        unfold waiting
        rw [hp]
        rfl
      have hsub : ∀ l l', l <+ l' → l' <+ s.waiting → l <+ s.waiting := fun _ _ h h' => h.trans h'
      have taken : Unmoved s (s.withCore { s.toUpstreamCore with pending }) :=
        .pending (by rw [hp]; exact List.sublist_cons_self _ _)
      refine ends_bind.mpr ?_
      rw [ends_onCore]
      refine ends_bind.mpr ?_
      unfold syncQueued
      rw [ends_onCore]
      generalize ht : (s.withCore { s.toUpstreamCore with pending }).withCore _ = t
      have still : Unmoved s t := by
        rw [← ht]
        exact ⟨rfl, rfl, fun _ h => h, rfl, rfl, rfl, taken.waiting, rfl⟩
      have hpending : t.waiting = pending.map Pending.asked := by
        rw [← ht]
        rfl
      have hstreams : t.streams = s.streams := by rw [← ht]; rfl
      have here := still.tracked hs
      refine ends_bind.mpr ((sendRequestWith_tracks ih hsub (Trail.refl.quiet ⟨still.top, still.next,
        still.live, [], by rw [still.log, List.append_nil], nofun⟩) here.counted still.peerDraining
        here.arrivals
        (by rw [hpending, hwaiting]; exact List.sublist_cons_self _ _)
        (fun _ => by rw [hpending, hwaiting]; exact .refl _)
        (fun hfull => by rw [hstreams, hcan] at hfull; cases hfull)).mono (fun _ u hu => ?_)
        fun _ u hu _ => hu)
      refine (hu.follows hsub (.get ?_)).mono (fun _ _ hv _ => hv) fun _ _ hv _ => hv
      cases u.requests.lookup p.request with
      | none => exact ih u
      | some id => exact .bind (sendWaiting_tracked u p id) fun _ v _ => ih v

theorem drainPending_tracked (s : Upstream) : Follows Tracked s (drainPending s) :=
  .get (drainPendingFrom_tracked _ s)

theorem forget_tracked (s : Upstream) (id : StreamId) : Follows Tracked s (forget id s) :=
  forgetWith_tracked drainPending_tracked s id

theorem failStream_tracked (s : Upstream) (id : StreamId) (status : Nat) :
    Follows Tracked s (failStream id status s) :=
  failStreamWith_tracked drainPending_tracked s id status

theorem applyStreamEvent_tracked (s : Upstream) (id : StreamId) (event : StreamEvent) :
    Follows Tracked s (applyStreamEvent id event s) :=
  applyStreamEventWith_tracked drainPending_tracked s id event

/-! ## Messages -/

/-- A message that asks for nothing new. -/
theorem handleMessage_tracked (s : Upstream) {m : ToUpstream} (h : (UpObs.took m).arrival = none) :
    Follows Tracked s (handleMessage m s) := by
  refine .bind (follows_observe (fun _ => rfl) h rfl) fun _ t _ => ?_
  cases m with
  | request => cases h
  | body request data endStream =>
    refine .get ?_
    cases t.requests.lookup request with
    | none => exact follows_onCore (.modifyPending request _ fun _ => rfl)
    | some id =>
      exact .bind (follows_onCore (.modifyStream id _)) fun _ u _ => enqueueReady_tracked u id
  | trailers request fields =>
    refine .get ?_
    cases t.requests.lookup request with
    | none => exact follows_onCore (.modifyPending request _ fun _ => rfl)
    | some id =>
      exact .bind (follows_onCore (.modifyStream id _)) fun _ u _ => enqueueReady_tracked u id
  | released request n =>
    refine .get ?_
    cases t.requests.lookup request with
    | none => exact .pure _
    | some id => exact release_tracked t id n
  | cancel request code =>
    refine .get ?_
    cases t.requests.lookup request with
    | none =>
      have fewer : Unmoved t (t.withCore { t.toUpstreamCore with
          pending := t.pending.filter (·.request ≠ request) }) :=
        .pending (List.filter_sublist.map _)
      refine .bind (follows_onCore fewer) fun _ u _ => ?_
      refine .bind (follows_syncQueued u) fun _ v _ => ?_
      exact follows_onCore (.same rfl rfl rfl rfl rfl rfl)
    | some id =>
      refine .get (.ite (fun _ => ?_) fun _ => forget_tracked t id)
      exact .bind (writeRstStream_tracked t id code) fun _ u _ => forget_tracked u id

/-! ## Frames -/

theorem recvResponse_tracked (s : Upstream) (id : StreamId) (headers : List Header)
    (endStream : Bool) : Follows Tracked s (recvResponse id headers endStream s) := by
  have finish : ∀ t : Upstream, Follows Tracked t ((do
      applyStreamEvent id (.recvHeaders endStream)
      if endStream then forget id else pure () : UpM Unit) t) := fun t =>
    .bind (applyStreamEvent_tracked t id _) fun _ u _ =>
      .ite (fun _ => forget_tracked u id) fun _ => .pure _
  have routed : ∀ route : Route, Follows Tracked s (passSection id headers endStream route s) := by
    refine fun route => .ite (fun _ => ?_) fun _ => ?_
    · cases validateTrailers headers with
      | error => exact finish s
      | ok => exact .bind (follows_tell s _ _ _) fun _ t _ => finish t
    · cases ResponseHead.fromHeaders headers with
      | error => exact failStream_tracked s id 502
      | ok head =>
        refine .ite (fun _ => applyStreamEvent_tracked s id _) fun _ => ?_
        refine .bind (follows_onCore (.same rfl rfl rfl rfl rfl rfl)) fun _ t _ => ?_
        exact .bind (follows_tell t _ _ _) fun _ u _ => finish u
  refine .get ?_
  cases s.streams.lookup id with
  | idle => exact .throw _
  | closed | live =>
    cases s.routes.lookup id with
    | none => exact .pure _
    | some route => exact routed route

theorem readHeaderBlock_tracked (s : Upstream) (id : StreamId) (fragment : Bytes)
    (endHeaders : Bool) : Follows Tracked s (readHeaderBlock id fragment endHeaders s) := by
  refine .get (.ite (fun _ => ?_) fun _ => .ite (fun _ => ?_) fun _ => ?_)
  · exact .bind (follows_modify (.same rfl rfl rfl rfl rfl rfl)) fun _ t _ => .throw _
  · exact follows_modify (.same rfl rfl rfl rfl rfl rfl)
  · refine .bind (follows_modify (.same rfl rfl rfl rfl rfl rfl)) fun _ t _ => .get ?_
    rcases t.hpackDec.decode (s.headerBlock ++ fragment) with ⟨hpackDec, result⟩
    refine .bind (follows_modify (.same rfl rfl rfl rfl rfl rfl)) fun _ u _ => ?_
    cases result with
    | ok headers => exact .get (recvResponse_tracked u id headers _)
    | error e =>
      cases e with
      | headerListTooLarge => exact failStream_tracked u id 502
      | _ => exact .throw _

theorem recvData_tracked (s : Upstream) (id : StreamId) (data : Bytes) (endStream : Bool) :
    Follows Tracked s (recvData id data endStream s) := by
  have finish : ∀ t : Upstream, Follows Tracked t ((do
      applyStreamEvent id (.recvData endStream)
      if endStream then forget id else pure () : UpM Unit) t) := fun t =>
    .bind (applyStreamEvent_tracked t id _) fun _ u _ =>
      .ite (fun _ => forget_tracked u id) fun _ => .pure _
  refine .get ?_
  cases s.connRecvWindow.record data.length with
  | error code => exact .throw _
  | ok window =>
    refine .bind (follows_onCore (.same rfl rfl rfl rfl rfl rfl)) fun _ t _ => .get ?_
    cases t.streams.lookup id with
    | idle => exact .throw _
    | closed => exact releaseConnWindow_tracked t _
    | live stream =>
      dsimp only
      cases stream.recvWindow.record data.length with
      | error =>
        exact .bind (writeRstStream_tracked t id _) fun _ u _ => failStream_tracked u id 502
      | ok recvWindow =>
        refine .bind (follows_onCore (.modifyStream id _)) fun _ u _ => .get ?_
        cases u.routes.lookup id with
        | none => exact finish u
        | some route =>
          refine .bind (follows_onCore (.same rfl rfl rfl rfl rfl rfl)) fun _ v _ => ?_
          exact .bind (follows_tell v _ _ _) fun _ w _ => finish w

theorem recvWindowUpdate_tracked (s : Upstream) (id : StreamId) (increment : Nat) :
    Follows Tracked s (recvWindowUpdate id increment s) := by
  refine .ite (fun _ => .ite (fun _ => .throw _) fun _ => writeRstStream_tracked s id _)
    fun _ => .ite (fun _ => .get ?_) fun _ => .get ?_
  · cases s.connSendWindow.increase increment with
    | error code => exact .throw _
    | ok window => exact follows_modify (.same rfl rfl rfl rfl rfl rfl)
  · cases s.streams.lookup id with
    | idle => exact .throw _
    | closed => exact .pure _
    | live stream =>
      dsimp only
      cases stream.sendWindow.increase increment with
      | error => exact writeRstStream_tracked s id _
      | ok window =>
        exact .bind (follows_onCore (.modifyStream id _)) fun _ t _ => enqueueReady_tracked t id

theorem recvRstStream_tracked (s : Upstream) (id : StreamId) (code : ErrorCode) :
    Follows Tracked s (recvRstStream id code s) := by
  refine .get ?_
  cases s.routes.lookup id with
  | none => exact forget_tracked s id
  | some route => exact .bind (follows_tell s _ _ _) fun _ t _ => forget_tracked t id

/-! ## The scheduler -/

theorem spend_tracked (s : Upstream) (id : StreamId) (stream : Stream) (len : Nat) :
    Follows Tracked s (spend id stream len s) := by
  refine .ite (fun _ => ?_) fun _ => .pure _
  cases stream.sendWindow.consume len with
  | error code => exact .throw _
  | ok window =>
    refine .bind (follows_onCore (.modifyStream id _)) fun _ t _ => .get ?_
    cases t.connSendWindow.consume len with
    | error code => exact .throw _
    | ok window => exact follows_modify (.same rfl rfl rfl rfl rfl rfl)

theorem transmit_tracked (s : Upstream) (id : StreamId) (turn : Stream.Turn) :
    Follows Tracked s (transmit id turn s) :=
  .ite (fun _ => .bind (queueFrame_tracked s nofun) fun _ t _ => applyStreamEvent_tracked t id _)
    fun _ => .pure _

theorem reportAccepted_tracked (s : Upstream) (id : StreamId) (len : Nat) :
    Follows Tracked s (reportAccepted id len s) := by
  refine .get ?_
  cases s.routes.lookup id with
  | none => exact .pure _
  | some route => exact .ite (fun _ => follows_tell s _ _ _) fun _ => .pure _

theorem transmitTrailers_tracked (s : Upstream) {id : StreamId} (fields : List Header)
    (h : s.Counted → s.Used id) :
    Follows Tracked s (transmitTrailers id fields s) :=
  .bind (queueHeaders_tracked s fields true h) fun _ t _ => applyStreamEvent_tracked t id _

theorem visitReadyStream_tracked (s : Upstream) (id : StreamId) :
    Follows Tracked s (visitReadyStream id s) := by
  refine follows_counted fun hs => .get ?_
  cases hid : s.streams.get? id with
  | none => exact .pure _
  | some stream =>
    have hused : s.Used id := hs.below id (by rw [hid]; rfl)
    refine .ite (fun _ => ?_) fun _ => ?_
    · exact .bind (follows_onCore (.modifyStream id _)) fun _ t _ => .pure _
    refine .bind (follows_onCore (.modifyStream id _)) fun _ t ht => ?_
    refine .ite (fun _ => .pure _) fun _ => ?_
    refine .bind (spend_tracked t id stream _) fun _ u hu => ?_
    refine .bind (transmit_tracked u id _) fun _ v hv => ?_
    refine .bind (reportAccepted_tracked v id _) fun _ w hw => ?_
    have hsw : Tracked s w := IsTrans.trans _ _ _ ht (IsTrans.trans _ _ _ hu
      (IsTrans.trans _ _ _ hv hw))
    have hused' := (hsw hs).used hused
    cases (stream.turn (s.budget stream)).trailers with
    | none => exact .get (.pure _)
    | some fields =>
      exact .bind (transmitTrailers_tracked w fields fun _ => hused') fun _ x _ => .get (.pure _)

theorem visitLap_tracked (s : Upstream) (lap : List StreamId) :
    Follows Tracked s (visitLap lap s) := by
  induction lap generalizing s with
  | nil => exact .pure _
  | cons id lap ih =>
    refine .bind (visitReadyStream_tracked s id) fun _ t _ => ?_
    exact .bind (ih t) fun _ u _ => .pure _

theorem requeue_tracked (s : Upstream) (ids : List StreamId) : Follows Tracked s (requeue ids s) := by
  induction ids generalizing s with
  | nil => exact .pure _
  | cons id ids ih => exact .bind (follows_onCore (.modifyStream id _)) fun _ t _ => ih t

theorem pumpLap_tracked (s : Upstream) : Follows Tracked s (pumpLap s) := by
  refine .get (.bind (follows_modify (.same rfl rfl rfl rfl rfl rfl)) fun _ t _ => ?_)
  refine .bind (visitLap_tracked t _) fun _ u _ => ?_
  refine .bind (requeue_tracked u _) fun _ v _ => ?_
  exact .bind (follows_modify (.same rfl rfl rfl rfl rfl rfl)) fun _ w _ => .pure _

theorem pumpLaps_tracked (fuel : Nat) (s : Upstream) : Follows Tracked s (pumpLaps fuel s) := by
  induction fuel generalizing s with
  | zero => exact .pure _
  | succ fuel ih =>
    refine .get (.ite (fun _ => .pure _) fun _ => ?_)
    refine .bind (pumpLap_tracked s) fun wrote t _ => ?_
    exact .ite (fun _ => ih t) fun _ => .pure _

theorem probeTimer_tracked (s : Upstream) : Follows Tracked s (probeTimer s) := by
  refine .get ?_
  rcases s.probe.due s.now with ⟨probe, action⟩
  refine .bind (follows_modify (.same rfl rfl rfl rfl rfl rfl)) fun _ t _ => ?_
  cases action with
  | nothing => exact .pure _
  | send nonce => exact .bind (queueFrame_tracked t nofun) fun _ u _ => .pure _
  | expired =>
    refine .bind (follows_modify (.same rfl rfl rfl rfl rfl rfl)) fun _ u _ => ?_
    exact .bind (follows_onCore (.same rfl rfl rfl rfl rfl rfl)) fun _ v _ => .pure _

/-! ## SETTINGS and GOAWAY -/

/-- New settings leave an error behind half applied, and else the limit in force. -/
theorem recvSettings_ends (s : Upstream) (params : List (UInt16 × UInt32)) :
    Ends (recvSettings params s)
      (fun _ t => s.CountedBut (some (.settings false params)) → Tracks s (· <+ s.waiting) t)
      fun _ t => s.CountedBut (some (.settings false params)) → Picks s (· <+ s.waiting) t := by
  have rest : ∀ (t : Upstream) (delta : Int), Follows Tracked t (shiftWindows delta t) := by
    refine fun t delta => .ite (fun _ => .get ?_) fun _ => queueFrame_tracked t nofun
    have shifted : Unmoved t (t.withCore { t.toUpstreamCore with
        streams := (t.streams.applyInitialWindowDelta delta).1 }) := by
      refine .streams rfl rfl fun id hid => ?_
      unfold StreamTable.get? StreamTable.applyInitialWindowDelta at hid
      rwa [AList.lookup_updateAll_isSome] at hid
    generalize t.streams.applyInitialWindowDelta delta = r at shifted
    obtain ⟨streams, result⟩ := r
    refine .bind (follows_onCore shifted) fun _ u _ => ?_
    cases result with
    | error code => exact .throw _
    | ok => exact queueFrame_tracked u nofun
  unfold recvSettings
  rw [ends_bind, ends_get, ends_bind, ends_get]
  have hlimit := @Settings.apply_maxConcurrentStreams s.peerSettings params
  generalize hr : s.peerSettings.apply params = r at hlimit
  obtain ⟨peerSettings, applied⟩ := r
  rw [ends_bind, ends_modify]
  cases applied with
  | error e =>
    intro hs
    exact ⟨⟨[], Trail.refl.quiet ⟨rfl, rfl, fun _ h => h, [], (List.append_nil _).symm, nofun⟩, .refl _⟩, rfl⟩
  | ok =>
    dsimp only at hlimit ⊢
    rw [ends_bind, ends_modify]
    have tracks : ∀ t : Upstream, t.peerSettings = peerSettings →
        t.streams.maxConcurrent =
          peerSettings.maxConcurrentStreams.getD s.streams.maxConcurrent →
        t.streams.highestLocalId = s.streams.highestLocalId → t.streams.live = s.streams.live →
        t.nextStreamId = s.nextStreamId → t.pending = s.pending → t.log = s.log →
        t.peerDraining = s.peerDraining → s.CountedBut (some (.settings false params)) →
          Tracks s (· <+ s.waiting) t := by
      intro t hpeer hmax htop hlive hnext hpending hlog hdraining hs
      have hwaiting : t.waiting = s.waiting := by
        unfold waiting
        rw [hpending]
      have hsame : ∀ id, (t.streams.get? id).isSome → (s.streams.get? id).isSome := by
        intro id hid
        unfold StreamTable.get? at hid ⊢
        rwa [hlive] at hid
      refine ⟨⟨⟨[], Trail.refl.quiet ⟨htop, hnext, hsame, [], by rw [hlog, List.append_nil],
        nofun⟩, ?_⟩, by rw [hlog]⟩, ⟨?_, ?_, fun id hid => ?_, ?_⟩, hdraining⟩
      · rw [hwaiting]
        exact .refl _
      · rw [hmax, hpeer]
        cases hnew : peerSettings.maxConcurrentStreams with
        | some max => rfl
        | none =>
          have hold := hs.limit
          rwa [hlimit hnew] at hold
      · rw [hnext, htop]
        exact hs.next
      · unfold Used
        rw [htop]
        exact hs.below id (hsame id hid)
      · rw [hlog, hpeer, hs.heard]
        exact congrArg Prod.fst hr
    have after : ∀ t : Upstream, (s.CountedBut (some (.settings false params)) →
        Tracks s (· <+ s.waiting) t) → ∀ delta, Ends (shiftWindows delta t)
          (fun _ u => s.CountedBut (some (.settings false params)) → Tracks s (· <+ s.waiting) u)
          fun _ u => s.CountedBut (some (.settings false params)) → Picks s (· <+ s.waiting) u := by
      intro t ht delta
      refine Ends.mono (rest t delta) (fun _ u hu hs => ?_) fun _ u hu hs => ?_
      · exact (ht hs).step (fun _ _ h h' => h.trans h') hu
      · exact ((ht hs).step (fun _ _ h h' => h.trans h') hu).toPicks
    cases hnew : peerSettings.maxConcurrentStreams with
    | some max =>
      dsimp only
      rw [ends_bind, ends_onCore]
      refine after _ ?_ _
      refine tracks _ rfl ?_ rfl rfl rfl rfl rfl rfl
      rw [hnew]
      rfl
    | none =>
      refine after _ ?_ _
      refine tracks _ rfl ?_ rfl rfl rfl rfl rfl rfl
      rw [hnew]
      rfl

theorem refusePending_tracked (s : Upstream) (ps : List Pending) :
    Follows Tracked s (refusePending ps s) := by
  induction ps generalizing s with
  | nil => exact .pure _
  | cons p ps ih => exact .bind (follows_tell s _ _ _) fun _ t _ => ih t

theorem abandon_tracked (s : Upstream) (ids : List StreamId) :
    Follows Tracked s (abandon ids s) := by
  induction ids generalizing s with
  | nil => exact .pure _
  | cons id ids ih =>
    have rest : ∀ t : Upstream, Follows Tracked t ((do forget id; abandon ids : UpM Unit) t) :=
      fun t => .bind (forget_tracked t id) fun _ u _ => ih u
    refine .get ?_
    cases s.routes.lookup id with
    | none => exact rest s
    | some route => exact .bind (follows_tell s _ _ _) fun _ t _ => rest t

/-- The requests that wait are given up. -/
theorem beginPeerDrain_picks (s : Upstream) (last : StreamId) :
    Follows (fun s t => s.Counted → Picks s (· <+ s.waiting) t ∧ t.Counted) s
      (beginPeerDrain last s) := by
  unfold beginPeerDrain Follows
  rw [ends_bind, ends_get, ends_bind, ends_onCore]
  generalize ht : s.withCore _ = t
  have here : s.Counted → Picks s (· <+ s.waiting) t ∧ t.Counted := by
    rw [← ht]
    intro hs
    refine ⟨⟨⟨[], Trail.refl.quiet ⟨rfl, rfl, fun _ h => h, [], (List.append_nil _).symm, nofun⟩, ?_⟩, rfl⟩,
      hs.limit, hs.next, hs.below, hs.heard⟩
    exact List.nil_sublist _
  have rest : Follows Tracked t ((do
      refusePending s.pending
      abandon (s.routes.keys.filter (last < ·)) : UpM Unit) t) :=
    .bind (refusePending_tracked t _) fun _ u _ => abandon_tracked u _
  have both : ∀ u, Tracked t u → s.Counted → Picks s (· <+ s.waiting) u ∧ u.Counted := by
    intro u hu hs
    obtain ⟨hpicks, hcounted⟩ := here hs
    have htracks := hu hcounted
    exact ⟨hpicks.step (fun _ _ h h' => h.trans h') htracks.toPicks, htracks.counted⟩
  exact Ends.mono rest (fun _ u => both u) fun _ u => both u

/-- A frame that settles nothing is acted on. -/
theorem CountedBut.settled {s : Upstream} {frame : Frame} (hs : s.CountedBut (some frame))
    (same : ∀ settings, frame.settle settings = settings) : s.Counted :=
  ⟨hs.limit, hs.next, hs.below, hs.heard.trans (same _)⟩

/-- What a frame leads to: none but waiting requests are started, and only a GOAWAY sets the
    drain. -/
theorem handleFrame_ends (s : Upstream) (frame : Frame) :
    Ends (handleFrame frame s)
      (fun _ t => s.CountedBut (some frame) → Picks s (· <+ s.waiting) t ∧ t.Counted ∧
        (frame.kind ≠ .goAway → t.peerDraining = s.peerDraining))
      fun _ t => s.CountedBut (some frame) → Picks s (· <+ s.waiting) t := by
  have tracked : ∀ {x : UpM Unit}, (∀ settings, frame.settle settings = settings) →
      Follows Tracked s (x s) → Ends (x s)
      (fun _ t => s.CountedBut (some frame) → Picks s (· <+ s.waiting) t ∧ t.Counted ∧
        (frame.kind ≠ .goAway → t.peerDraining = s.peerDraining))
      fun _ t => s.CountedBut (some frame) → Picks s (· <+ s.waiting) t := by
    intro x same h
    refine Ends.mono h (fun _ t ht hs => ?_) fun _ t ht hs => (ht (hs.settled same)).toPicks
    have := ht (hs.settled same)
    exact ⟨this.toPicks, this.counted, fun _ => this.peerDraining⟩
  have kept : ∀ {t : Upstream} (f : Upstream → Upstream), (∀ t, Unmoved t (f t)) →
      Follows Tracked t ((modify f : UpM Unit) t) := fun f h => follows_modify (h _)
  unfold handleFrame
  rw [ends_bind, ends_get]
  cases s.headerBlockError frame with
  | some e => exact fun _ => .refl s
  | none =>
    cases frame with
    | settings ack params =>
      cases ack with
      | true => exact tracked (fun _ => rfl) (.pure ())
      | false =>
        refine (recvSettings_ends s params).mono (fun _ t ht hs => ?_) fun _ _ h => h
        have := ht hs
        exact ⟨this.toPicks, this.counted, fun _ => this.peerDraining⟩
    | ping data ack =>
      refine tracked (fun _ => rfl) (.ite (fun _ => queueFrame_tracked s nofun) fun _ =>
        .ite (fun _ => ?_) fun _ => .pure _)
      exact follows_modify (.same rfl rfl rfl rfl rfl rfl)
    | goAway last code debug =>
      refine Ends.mono (beginPeerDrain_picks s last) (fun _ t ht hs => ?_)
        fun _ t ht hs => (ht (hs.settled fun _ => rfl)).1
      obtain ⟨hpicks, hcounted⟩ := ht (hs.settled fun _ => rfl)
      exact ⟨hpicks, hcounted, fun hne => absurd rfl hne⟩
    | windowUpdate id increment =>
      exact tracked (fun _ => rfl) (recvWindowUpdate_tracked s id increment)
    | headers id block endStream endHeaders =>
      refine tracked (fun _ => rfl) (.bind (kept _ fun _ => .same rfl rfl rfl rfl rfl rfl)
        fun _ t _ => ?_)
      refine .bind (readHeaderBlock_tracked t id block endHeaders) fun _ u _ => ?_
      exact kept _ fun _ => .same rfl rfl rfl rfl rfl rfl
    | continuation id block endHeaders =>
      refine tracked (fun _ => rfl) (.bind (readHeaderBlock_tracked s id block endHeaders)
        fun _ t _ => ?_)
      exact kept _ fun _ => .same rfl rfl rfl rfl rfl rfl
    | data id data endStream => exact tracked (fun _ => rfl) (recvData_tracked s id data endStream)
    | rstStream id code => exact tracked (fun _ => rfl) (recvRstStream_tracked s id code)

/-! ## Steps -/

/-- A frame comes; what it says of the settings is still to be acted on. -/
theorem Counted.hear {s : Upstream} (hs : s.Counted) (w : WireFrame) :
    Picks s (· <+ s.waiting) (s.withCore (s.toUpstreamCore.observe (.heard w))) ∧
      (s.withCore (s.toUpstreamCore.observe (.heard w))).CountedBut w.frame? := by
  refine ⟨⟨⟨[], Trail.refl.quiet ⟨rfl, rfl, fun _ h => h, [.heard w], rfl, fun o ho => ?_⟩, .refl _⟩,
    ?_⟩, hs.limit, hs.next, hs.below, ?_⟩
  · rw [List.mem_singleton.mp ho]
    rfl
  · show H2Proxy.arrivals (s.log ++ [_]) = _
    unfold H2Proxy.arrivals
    rw [List.filterMap_append]
    exact List.append_nil _
  · show UpObs.tap.settings (s.log ++ [_]) = _
    rw [Tap.settings_snoc, hs.heard]
    rfl

theorem recvWire_ends (s : Upstream) (w : WireFrame) :
    Ends (recvWire w s)
      (fun _ t => s.Counted → Picks s (· <+ s.waiting) t ∧ t.Counted ∧
        (w.lastStreamId = none → t.peerDraining = s.peerDraining))
      fun _ t => s.Counted → Picks s (· <+ s.waiting) t := by
  have hear := fun hs : s.Counted => hs.hear w
  unfold recvWire
  rw [ends_bind, ends_onCore, ends_bind, ends_get]
  have hdrain : (s.withCore (s.toUpstreamCore.observe (.heard w))).peerDraining = s.peerDraining :=
    rfl
  generalize s.withCore (s.toUpstreamCore.observe (.heard w)) = t at hear hdrain
  have first : ∀ u : Upstream, s.Counted →
      (t.CountedBut w.frame? → Picks t (· <+ t.waiting) u) → Picks s (· <+ s.waiting) u :=
    fun u hs hu => (hear hs).1.step (fun _ _ h h' => h.trans h') (hu (hear hs).2)
  have failed : s.Counted → Picks s (· <+ s.waiting) t := fun hs => (hear hs).1
  refine ends_ite.mpr ⟨fun _ => failed, fun _ => ?_⟩
  cases hw : w.decode with
  | error e => exact failed
  | ok decoded =>
    cases decoded with
    | ignored kind id =>
      have hnone : w.frame? = none := by
        unfold WireFrame.frame?
        rw [hw]
      have hrejects : Follows Tracked t (rejectIfMidHeaderBlock kind id t) := by
        refine .get ?_
        cases t.openHeaderBlock with
        | none => exact .pure _
        | some open_ => exact .throw _
      rw [hnone] at hear first
      refine Ends.mono hrejects (fun _ u hu hs => ?_) fun _ u hu hs =>
        first u hs fun h => (hu h).toPicks
      have htracks := hu (hear hs).2
      exact ⟨first u hs fun _ => htracks.toPicks, htracks.counted, fun _ =>
        htracks.peerDraining.trans hdrain⟩
    | frame frame =>
      rw [WireFrame.frame?_of_decode hw] at hear first
      refine (handleFrame_ends t frame).mono (fun _ u hu hs => ?_) fun _ u hu hs => first u hs hu
      obtain ⟨hpicks, hcounted, hdraining⟩ := hu (hear hs).2
      refine ⟨first u hs fun _ => hpicks, hcounted, fun hnone => ?_⟩
      refine (hdraining fun hkind => ?_).trans hdrain
      unfold WireFrame.lastStreamId at hnone
      rw [hw] at hnone
      cases frame with
      | goAway last code debug => cases hnone
      | _ => cases hkind

/-- The end of a connection opens nothing and leaves nobody waiting. -/
theorem conclude_quiet (stop : Stop) (s : Upstream) :
    Quiet s (conclude stop s) ∧ arrivals (conclude stop s).log = arrivals s.log ∧
      (conclude stop s).waiting = [] := by
  have ending : ∀ (t : Upstream) (added : List UpObs), t.streams = s.streams →
      t.nextStreamId = s.nextStreamId → t.log = s.log ++ added →
      (∀ o ∈ added, o.minor s.streams.highestLocalId = true ∧ o.arrival = none) →
      Quiet s { t.failAllRoutes with stop := some stop } ∧
        arrivals { t.failAllRoutes with stop := some stop }.log = arrivals s.log ∧
        Upstream.waiting { t.failAllRoutes with stop := some stop } = [] := by
    intro t added hstreams hnext hlog hadded
    generalize hlast : added ++ (t.pending.map fun p =>
      UpObs.told p.request p.events (.gone p.clientId)) ++
        t.routes.entries.map (fun r => UpObs.told r.2.request r.2.events r.2.lastWord) = last
    have hlog' : t.failAllRoutes.log = s.log ++ last := by
      show t.log ++ _ ++ _ = _
      rw [hlog, ← hlast]
      simp only [List.append_assoc]
    have hminor : ∀ o ∈ last, o.minor s.streams.highestLocalId = true ∧ o.arrival = none := by
      intro o ho
      rw [← hlast] at ho
      simp only [List.mem_append, List.mem_map] at ho
      rcases ho with (ho | ⟨p, -, rfl⟩) | ⟨r, -, rfl⟩
      · exact hadded o ho
      · exact ⟨rfl, rfl⟩
      · exact ⟨rfl, rfl⟩
    refine ⟨⟨by rw [← hstreams]; rfl, hnext, fun id hid => ?_, last, hlog', fun o ho =>
      (hminor o ho).1⟩, ?_, rfl⟩
    · rw [← hstreams]
      exact hid
    · show arrivals t.failAllRoutes.log = _
      rw [hlog']
      unfold arrivals
      rw [List.filterMap_append, List.filterMap_eq_nil_iff.mpr fun o ho => (hminor o ho).2,
        List.append_nil]
  unfold conclude queueFrame queueFields
  cases stop with
  | quiet => exact ending s [] rfl rfl (List.append_nil _).symm nofun
  | failed e =>
    dsimp only
    cases (Frame.goAway s.streams.highestLocalId e.code (ascii e.debug)).write with
    | error e' => exact ending s [] rfl rfl (List.append_nil _).symm nofun
    | ok octets =>
      refine ending _ [.queued (.goAway s.streams.highestLocalId e.code (ascii e.debug)) []
        s.peerSettings.maxFrameSize] rfl rfl rfl fun o ho => ?_
      rw [List.mem_singleton.mp ho]
      exact ⟨rfl, rfl⟩

/-- From `s` on, `asked` came and streams were opened for the requests `q` allows. -/
structure Takes (s : Upstream) (asked : List ToUpstream) (q : List ToUpstream → Prop)
    (t : Upstream) : Prop where
  trail : ∃ os, Trail s os t ∧ q (os.map (·.request) ++ t.waiting)
  arrivals : arrivals t.log = arrivals s.log ++ asked

theorem Takes.conclude {s t : Upstream} {asked : List ToUpstream} {q : List ToUpstream → Prop}
    (hq : ∀ l l', l <+ l' → q l' → q l) (h : Takes s asked q t) (stop : Stop) :
    Takes s asked q (conclude stop t) := by
  obtain ⟨hquiet, harrivals, hwaiting⟩ := conclude_quiet stop t
  obtain ⟨os, htrail, hqt⟩ := h.trail
  refine ⟨⟨os, htrail.quiet hquiet, hq _ _ ?_ hqt⟩, harrivals.trans h.arrivals⟩
  rw [hwaiting]
  exact (List.Sublist.refl _).append (List.nil_sublist _)

section React

variable {s : Upstream} {i : UpInput} {q : List ToUpstream → Prop}
  (hq : ∀ l l', l <+ l' → q l' → q l) (hs : s.Counted)
  (hdrop : q s.waiting)
  (hopen : ∀ m, i.asks = some m → s.streams.canOpenLocal = true → q (m :: s.waiting))
  (hwait : ∀ m, i.asks = some m → s.streams.canOpenLocal = false → q (s.waiting ++ [m]))
include hq hs hdrop hopen hwait

/-- What an input leads to: at most the request it brings is started beside those that
    waited. -/
theorem react_ends : Ends (react i s)
    (fun _ t => Takes s i.asks.toList q t ∧ t.Counted ∧
      ((∀ w, i = .frame w → w.lastStreamId = none) → t.peerDraining = s.peerDraining))
    fun _ => Takes s i.asks.toList q := by
  have takes : ∀ t, i.asks = none → Picks s (· <+ s.waiting) t → Takes s i.asks.toList q t := by
    intro t hnone h
    obtain ⟨os, htrail, hsub⟩ := h.trail
    refine ⟨⟨os, htrail, hq _ _ hsub hdrop⟩, ?_⟩
    rw [hnone, h.arrivals]
    exact (List.append_nil _).symm
  have tracked : ∀ {x : UpM Next}, i.asks = none → Follows Tracked s (x s) → Ends (x s)
      (fun _ t => Takes s i.asks.toList q t ∧ t.Counted ∧
        ((∀ w, i = .frame w → w.lastStreamId = none) → t.peerDraining = s.peerDraining))
      fun _ => Takes s i.asks.toList q := by
    intro x hnone h
    refine Ends.mono h (fun _ t ht => ?_) fun _ t ht => takes t hnone (ht hs).toPicks
    exact ⟨takes t hnone (ht hs).toPicks, (ht hs).counted, fun _ => (ht hs).peerDraining⟩
  unfold react
  cases i with
  | frame w =>
    refine ends_bind.mpr ((recvWire_ends s w).mono (fun _ t ht => ?_) fun _ t ht =>
      takes t rfl (ht hs))
    obtain ⟨hpicks, hcounted, hdraining⟩ := ht hs
    exact ⟨takes t rfl hpicks, hcounted, fun h => hdraining (h w rfl)⟩
  | message m =>
    cases m with
    | request id clientId head endStream events =>
      unfold handleMessage
      rw [ends_bind, ends_bind, ends_onCore]
      generalize hb : s.withCore _ = b
      have quiet : Quiet s b := by
        rw [← hb]
        refine ⟨rfl, rfl, fun _ h => h, [_], rfl, fun o ho => ?_⟩
        rw [List.mem_singleton.mp ho]
        rfl
      have hcounted : b.Counted :=
        hb ▸ ⟨hs.limit, hs.next, hs.below, hs.quiet (.one rfl)⟩
      have harrivals : arrivals b.log = arrivals s.log ++
          [.request id clientId head endStream events] := by
        rw [← hb]
        show arrivals (s.log ++ [_]) = _
        unfold arrivals
        rw [List.filterMap_append]
        rfl
      have hwaiting : b.waiting = s.waiting := by rw [← hb]; rfl
      have hstreams : b.streams = s.streams := by rw [← hb]; rfl
      have hdrain : b.peerDraining = s.peerDraining := by rw [← hb]; rfl
      have done : ∀ t, Tracks b q t → Takes s [.request id clientId head endStream events] q t := by
        intro t ht
        obtain ⟨os, htrail, hqt⟩ := ht.trail
        exact ⟨⟨os, (Trail.refl.quiet quiet).trans htrail, hqt⟩, by rw [ht.arrivals, harrivals]⟩
      refine (sendRequestWith_tracks drainPending_tracked hq .refl hcounted rfl rfl ?_ ?_
        ?_).mono (fun _ t ht => ⟨done t ht, ht.counted, fun _ => ht.peerDraining.trans hdrain⟩)
        fun _ t ht => done t ht
      · rw [hwaiting]
        exact hdrop
      · rw [hwaiting, hstreams]
        exact hopen _ rfl
      · rw [hwaiting, hstreams]
        exact hwait _ rfl
    | _ => exact tracked rfl (.bind (handleMessage_tracked s rfl) fun _ t _ => .pure _)
  | pump => exact tracked rfl (.bind (.get (pumpLaps_tracked _ s)) fun _ t _ => .pure _)
  | wrote n =>
    exact tracked rfl (.bind (follows_modify (.same rfl rfl rfl rfl rfl rfl)) fun _ t _ => .pure _)
  | heard =>
    exact tracked rfl (.bind (follows_modify (.same rfl rfl rfl rfl rfl rfl)) fun _ t _ => .pure _)
  | probe => exact tracked rfl (probeTimer_tracked s)
  | drained => exact tracked rfl (.get (.pure _))
  | hangup => exact tracked rfl (.pure _)

/-- What one step of a connection that goes on leads to. -/
theorem step_takes (now : Instant) (hlive : s.stop = none) :
    Takes s i.asks.toList q (step (now, i) s) ∧
      ((step (now, i) s).stop = none → (step (now, i) s).Counted ∧
        ((∀ w, i = .frame w → w.lastStreamId = none) →
          (step (now, i) s).peerDraining = s.peerDraining)) := by
  have ticked : Quiet s { s with now := now } :=
    ⟨rfl, rfl, fun _ h => h, [], (List.append_nil _).symm, nofun⟩
  have before : ∀ t, Takes { s with now := now } i.asks.toList q t → Takes s i.asks.toList q t := by
    intro t h
    obtain ⟨os, htrail, hqt⟩ := h.trail
    exact ⟨⟨os, (Trail.refl.quiet ticked).trans htrail, hqt⟩, h.arrivals⟩
  have h := react_ends (s := { s with now := now }) hq ⟨hs.limit, hs.next, hs.below, hs.heard⟩
    hdrop hopen hwait
  unfold step
  rw [if_neg (by rw [hlive]; exact Bool.false_ne_true)]
  dsimp only
  generalize react i { s with now := now } = r at h
  cases r with
  | ok next t =>
    cases next with
    | continue_ => exact ⟨before t h.1, fun _ => ⟨h.2.1, h.2.2⟩⟩
    | close => exact ⟨(before t h.1).conclude hq _, nofun⟩
  | error e t => exact ⟨(before t h).conclude hq _, nofun⟩

end React

/-- A connection that has stopped opens nothing more. -/
theorem step_stopped {s : Upstream} (i : Instant × UpInput) (h : s.stop.isSome = true) :
    Quiet s (step i s) ∧ arrivals (step i s).log = arrivals s.log ∧
      (step i s).waiting = s.waiting ∧ (step i s).stop = s.stop := by
  have same : Quiet s s := ⟨rfl, rfl, fun _ h => h, [], (List.append_nil _).symm, nofun⟩
  unfold step
  rw [if_pos h]
  cases i.2 with
  | message m =>
    cases m with
    | request id clientId head endStream events =>
      refine ⟨⟨rfl, rfl, fun _ h => h, [_], rfl, fun o ho => ?_⟩, ?_, rfl, rfl⟩
      · rw [List.mem_singleton.mp ho]
        rfl
      · show arrivals (s.log ++ [_]) = _
        unfold arrivals
        rw [List.filterMap_append]
        exact List.append_nil _
    | _ => exact ⟨same, rfl, rfl, rfl⟩
  | _ => exact ⟨same, rfl, rfl, rfl⟩

/-- From `b` on streams were opened, and `r` relates the requests they were opened for, and then
    those that wait, to those that came. -/
def Served (b : Upstream) (r : List ToUpstream → List ToUpstream → Prop) (s : Upstream) : Prop :=
  ∃ os, Trail b os s ∧ r (os.map (·.request) ++ s.waiting) (arrivals s.log)

/-- A step serves those that came, where what it may start is allowed. -/
theorem Served.step {b s : Upstream} {r : List ToUpstream → List ToUpstream → Prop}
    {i : Instant × UpInput} (hr : ∀ l l' a, l <+ l' → r l' a → r l a)
    (hmore : ∀ l a a', r l a → r l (a ++ a'))
    (hopen : ∀ os : List Opening, r (os.map (·.request) ++ s.waiting) (arrivals s.log) → ∀ m,
      s.streams.canOpenLocal = true →
        r (os.map (·.request) ++ m :: s.waiting) (arrivals s.log ++ [m]))
    (hwait : ∀ (os : List Opening) m, r (os.map (·.request) ++ s.waiting) (arrivals s.log) →
      r (os.map (·.request) ++ (s.waiting ++ [m])) (arrivals s.log ++ [m]))
    (h : Served b r s) (hs : s.stop = none → s.Counted) :
    Served b r (step i s) ∧ ((step i s).stop = none → (step i s).Counted) := by
  obtain ⟨os, htrail, hrs⟩ := h
  cases hstop : s.stop with
  | some stop =>
    obtain ⟨hquiet, harrivals, hwaiting, hsame⟩ := step_stopped i (by rw [hstop]; rfl)
    refine ⟨⟨os, htrail.quiet hquiet, by rwa [hwaiting, harrivals]⟩, fun hnone => ?_⟩
    rw [hsame, hstop] at hnone
    cases hnone
  | none =>
    obtain ⟨htakes, hcounted⟩ := step_takes (s := s) (i := i.2)
      (q := fun l => r (os.map (·.request) ++ l) (arrivals s.log ++ i.2.asks.toList))
      (fun l l' hl => hr _ _ _ ((List.Sublist.refl _).append hl)) (hs hstop) (hmore _ _ _ hrs)
      (fun m hm hcan => by
        rw [hm]
        exact hopen os hrs m hcan)
      (fun m hm _ => by
        rw [hm]
        exact hwait os m hrs) i.1 hstop
    obtain ⟨os', htrail', hr'⟩ := htakes.trail
    refine ⟨⟨os ++ os', htrail.trans htrail', ?_⟩, fun h => (hcounted h).1⟩
    rw [htakes.arrivals, List.map_append, List.append_assoc]
    exact hr'

theorem Fresh.counted {s : Upstream} (h : s.Fresh) : s.Counted := by
  obtain ⟨tuning, idle, timeout, now, -, -, rfl⟩ := h
  refine ⟨rfl, .inr ⟨rfl, rfl⟩, fun id hid => ?_, rfl⟩
  cases hid

/-- In every run each stream is opened for a request of its own that came. -/
theorem reach_served {b s : Upstream} (hb : b.Fresh) (h : (machine.startedAt b).Reachable s) :
    Served b List.Subperm s ∧ (s.stop = none → s.Counted) := by
  refine h.invariant (I := fun s => Served b List.Subperm s ∧ (s.stop = none → s.Counted))
    (fun s hs => ?_) fun s i hs _ => ?_
  · obtain rfl : s = b := hs
    refine ⟨⟨[], .refl, ?_⟩, fun _ => hb.counted⟩
    obtain ⟨tuning, idle, timeout, now, -, -, rfl⟩ := hb
    exact .refl _
  · refine hs.1.step (fun l l' a hl hla => hl.subperm.trans hla)
      (fun l a a' hla => hla.trans (List.sublist_append_left a a').subperm)
      (fun os hrs m _ => ?_) (fun os m hrs => ?_) hs.2
    · have hperm : os.map (·.request) ++ m :: s.waiting ~
          os.map (·.request) ++ s.waiting ++ [m] :=
        List.perm_middle.trans (List.perm_append_singleton m _).symm
      exact hperm.subperm.trans ((List.subperm_append_right [m]).mpr hrs)
    · rw [← List.append_assoc]
      exact (List.subperm_append_right [m]).mpr hrs

/-- The backend allows one stream; of two requests one is opened and one waits. -/
def openAndWaiting : List (Instant × UpInput) :=
  [(0, .frame (.ofParts .settings ⟨0⟩ .connection [0, 3, 0, 0, 0, 1] (by decide))),
    (0, .message (.request ⟨0⟩ (.new 1) ⟨ascii "GET", ascii "http", none, ascii "/", []⟩ true ⟨0⟩)),
    (0, .message (.request ⟨1⟩ (.new 3) ⟨ascii "GET", ascii "http", none, ascii "/", []⟩ true ⟨0⟩))]

end Upstream

end H2Proxy
