import H2Proxy.Lib.Log
import H2Proxy.Proxy.Rotation
import H2Proxy.Up.Trail

/-
  The ids under which an upstream connection opens streams.

  They are the odd numbers from one on, in order and without a gap, whatever requests, cancels
  and frames come, and each is used while fewer streams are live than the SETTINGS heard so far
  allow (`opens_in_order`); and a connection whose requests all come through leases of the pool
  never gets to the last of them.
-/

namespace H2Proxy

/-- The stream of a HEADERS frame that was queued. -/
def UpObs.headersId : UpObs → Option StreamId
  | queued (.headers id ..) _ _ => some id
  | _ => none

/-- The streams of the HEADERS frames that were queued, in order. -/
def headersIds (log : List UpObs) : List StreamId := log.filterMap UpObs.headersId

/-- The stream that was opened. -/
def UpObs.openedId : UpObs → Option StreamId
  | opened id _ => some id
  | _ => none

/-- The streams that were opened, in order. -/
def openedIds (log : List UpObs) : List StreamId := log.filterMap UpObs.openedId

namespace Upstream

/-- What is right about an event between those before it and those after. A stream is opened under
    the next odd id, while fewer streams are live than the SETTINGS heard before allow, and its
    head follows at once; HEADERS is on a stream that was opened before. -/
def InPlace (before : List UpObs) : UpObs → List UpObs → Prop
  | .opened id live, after =>
    id.get = 1 + 2 * (openedIds before).length ∧
      live < (UpObs.tap.settings before).maxConcurrentStreams.getD u32Max ∧
      ∃ head endStream e limit rest,
        after = announced id (RequestHead.toHeaders head) endStream e limit ++ rest
  | .queued (.headers id ..) _ _, _ => id ∈ openedIds before
  | _, _ => True

/-- The streams of the HEADERS frames that open requests, in order: where the block of a head fits
    a frame, its HEADERS follows the opening. -/
def openers : List UpObs → List StreamId
  | .opened _ _ :: .encoded e fields _ :: log =>
    (if (e.encode fields).2.length ≤ maxAllowedFrameSize then
      (log.head?.bind UpObs.headersId).toList else []) ++ openers log
  | _ :: log => openers log
  | [] => []

open scoped List

variable {b s t : Upstream} {os : List Opening}

theorem InPlace.mono {before after : List UpObs} {o : UpObs} (h : InPlace before o after)
    (added : List UpObs) : InPlace before o (after ++ added) := by
  cases o with
  | opened id live =>
    obtain ⟨hnext, hroom, head, endStream, e, limit, rest, rfl⟩ := h
    exact ⟨hnext, hroom, head, endStream, e, limit, rest ++ added, List.append_assoc ..⟩
  | queued frame => cases frame <;> exact h
  | _ => trivial

/-! ## The ids -/

theorem openedId_of_minor {top : StreamId} {o : UpObs} (h : o.minor top = true) :
    o.openedId = none := by
  cases o with
  | opened => cases h
  | _ => rfl

theorem headersId_of_minor {top id : StreamId} {o : UpObs} (h : o.minor top = true)
    (ho : o.headersId = some id) : id ≤ top ∧ id.isClientInitiated = true := by
  unfold UpObs.headersId at ho
  split at ho
  · cases ho
    unfold UpObs.minor at h
    simpa using h
  · cases ho

/-- Before anything was opened. -/
structure Unopened (b : Upstream) : Prop where
  next : b.nextStreamId = 1
  top : b.streams.highestLocalId.get = 0
  headers : headersIds b.log = []
  opened : openedIds b.log = []

theorem Fresh.unopened (h : b.Fresh) : b.Unopened := by
  obtain ⟨tuning, idle, timeout, now, -, -, rfl⟩ := h
  exact ⟨rfl, rfl, rfl, rfl⟩

/-- How far the ids have come. -/
structure Numbered (os : List Opening) (t : Upstream) : Prop where
  ids : os.map (·.id.get) = (List.range os.length).map (1 + 2 * ·)
  next : t.nextStreamId = 1 + 2 * os.length
  top : t.streams.highestLocalId.get = 2 * os.length - 1
  opened : openedIds t.log = os.map (·.id)
  inPlace : Amid InPlace t.log

/-- Every odd id up to the highest was opened. -/
theorem Numbered.mem (h : Numbered os t) {id : StreamId} (hle : id ≤ t.streams.highestLocalId)
    (hodd : id.isClientInitiated = true) : id ∈ openedIds t.log := by
  unfold StreamId.isClientInitiated at hodd
  simp only [Bool.and_eq_true, bne_iff_ne, beq_iff_eq] at hodd
  rw [StreamId.le_def, h.top] at hle
  have hget : id.get ∈ os.map (·.id.get) := by
    rw [h.ids]
    exact List.mem_map.mpr ⟨id.get / 2, List.mem_range.mpr (by omega), by omega⟩
  obtain ⟨o, ho, heq⟩ := List.mem_map.mp hget
  rw [h.opened, ← StreamId.ext_get heq]
  exact List.mem_map_of_mem ho

/-- No id is opened twice. -/
theorem Numbered.new (h : Numbered os t) {id : StreamId} (hid : id.get = t.nextStreamId) :
    id ∉ openedIds t.log := by
  intro hmem
  rw [h.opened] at hmem
  obtain ⟨o, ho, rfl⟩ := List.mem_map.mp hmem
  have hget : o.id.get ∈ os.map (·.id.get) := List.mem_map_of_mem ho
  rw [h.ids, hid, h.next] at hget
  obtain ⟨k, hk, hlt⟩ := List.mem_map.mp hget
  have := List.mem_range.mp hk
  omega

/-- What is minor is in place. -/
theorem Numbered.minor (h : Numbered os t) {o : UpObs}
    (ho : o.minor t.streams.highestLocalId = true) (before after : List UpObs) :
    InPlace (t.log ++ before) o after := by
  cases o with
  | opened => cases ho
  | queued frame =>
    cases frame with
    | headers id block endStream endHeaders =>
      obtain ⟨hle, hodd⟩ := headersId_of_minor ho (show UpObs.headersId _ = some id from rfl)
      unfold InPlace openedIds
      rw [List.filterMap_append]
      exact List.mem_append_left _ (h.mem hle hodd)
    | _ => trivial
  | _ => trivial

/-- No stream is opened where a head is sent. -/
theorem openedIds_announced (id : StreamId) (fields : List Header) (endStream : Bool)
    (e : HpackEncoder) (limit : Nat) : openedIds (announced id fields endStream e limit) = [] := by
  unfold announced
  split <;> rfl

/-- An opening is in place, and so is the head that follows. -/
theorem Opens.inPlace {o : Opening} (h : Numbered os s) (ho : Opens o s t) :
    Amid InPlace t.log := by
  obtain ⟨request, clientId, head, endStream, events, e, limit, -, hlog⟩ := ho.log
  rw [hlog]
  refine h.inPlace.append (fun _ _ _ hin => hin.mono _) fun before a after parts => ?_
  cases before with
  | nil =>
    obtain ⟨rfl, rfl⟩ := List.cons.inj parts
    rw [List.append_nil]
    refine ⟨?_, ho.slot, head, endStream, e, limit, [], (List.append_nil _).symm⟩
    rw [h.opened, List.length_map, ho.next, h.next]
  | cons first before =>
    obtain ⟨rfl, hparts⟩ := List.cons.inj parts
    have hmem : a ∈ announced o.id head.toHeaders endStream e limit := by
      rw [hparts]
      exact List.mem_append_right _ List.mem_cons_self
    unfold announced at hmem
    obtain rfl | hmem := List.mem_cons.mp hmem
    · trivial
    split at hmem
    · rw [List.mem_singleton.mp hmem]
      refine List.mem_filterMap.mpr ⟨.opened o.id s.streams.liveCount, ?_, rfl⟩
      exact List.mem_append_right _ List.mem_cons_self
    · cases hmem

theorem Trail.numbered (hb : b.Unopened) (h : Trail b os t) : Numbered os t := by
  induction h with
  | refl =>
    refine ⟨rfl, hb.next, hb.top, hb.opened, fun before a after parts => ?_⟩
    have hopened := hb.opened
    have hheaders := hb.headers
    unfold openedIds at hopened
    unfold headersIds at hheaders
    have ha : a ∈ b.log := parts ▸ List.mem_append_right _ List.mem_cons_self
    have hquiet := List.filterMap_eq_nil_iff.mp hopened a ha
    have hquiet' := List.filterMap_eq_nil_iff.mp hheaders a ha
    cases a with
    | opened => cases hquiet
    | queued frame =>
      cases frame with
      | headers => cases hquiet'
      | _ => trivial
    | _ => trivial
  | @quiet os t u _ hq ih =>
    obtain ⟨added, hlog, hminor⟩ := hq.log
    refine ⟨ih.ids, hq.next.trans ih.next, by rw [hq.top, ih.top], ?_, ?_⟩
    · have none : added.filterMap UpObs.openedId = [] :=
        List.filterMap_eq_nil_iff.mpr fun o ho => openedId_of_minor (hminor o ho)
      have hopened := ih.opened
      unfold openedIds at hopened ⊢
      rw [hlog, List.filterMap_append, none, List.append_nil]
      exact hopened
    · rw [hlog]
      refine ih.inPlace.append (fun _ _ _ hin => hin.mono _) fun before a after parts => ?_
      refine ih.minor (hminor a ?_) before after
      rw [parts]
      exact List.mem_append_right _ List.mem_cons_self
  | @opens os o t u _ ho ih =>
    obtain ⟨request, clientId, head, endStream, events, e, limit, -, hlog⟩ := ho.log
    have hid : o.id.get = 1 + 2 * os.length := ho.next.trans ih.next
    refine ⟨?_, ?_, ?_, ?_, ho.inPlace ih⟩
    · rw [List.map_append, ih.ids, List.length_append, List.length_singleton, List.range_succ,
        List.map_append]
      exact congrArg _ (congrArg (fun n => [n]) hid)
    · rw [ho.after, ih.next, List.length_append, List.length_singleton]
      omega
    · rw [ho.top, hid, List.length_append, List.length_singleton]
      omega
    · have hopened := ih.opened
      have hsent := openedIds_announced o.id head.toHeaders endStream e limit
      unfold openedIds at hopened hsent ⊢
      rw [hlog, List.filterMap_append, List.filterMap_cons, hsent, hopened, List.map_append]
      rfl

/-! ## On the wire -/

/-- Where every head fits a frame, the HEADERS frames go out on the streams that were opened, first
    on each in their order. -/
theorem Trail.headers (hb : b.Unopened) (h : Trail b os t)
    (hfits : ∀ o ∈ os, o.request.fits = true) :
    (headersIds t.log).eraseDups = openedIds t.log := by
  induction h with
  | refl => rw [hb.headers, hb.opened]; rfl
  | @quiet os t u htrail hq ih =>
    obtain ⟨added, hlog, hminor⟩ := hq.log
    have hnumbered := htrail.numbered hb
    have hold : (headersIds added).removeAll (headersIds t.log) = [] := by
      unfold List.removeAll
      refine List.filter_eq_nil_iff.mpr fun id hid => ?_
      obtain ⟨o, ho, hoid⟩ := List.mem_filterMap.mp hid
      obtain ⟨hle, hodd⟩ := headersId_of_minor (hminor o ho) hoid
      have hmem := hnumbered.mem hle hodd
      rw [← ih hfits, List.mem_eraseDups] at hmem
      simpa using hmem
    rw [(htrail.quiet hq).numbered hb |>.opened, ← hnumbered.opened, ← ih hfits]
    unfold headersIds at hold ⊢
    rw [hlog, List.filterMap_append, List.eraseDups_append, hold]
    exact List.append_nil _
  | @opens os o t u htrail ho ih =>
    obtain ⟨request, clientId, head, endStream, events, e, limit, hrequest, hlog⟩ := ho.log
    have hnumbered := htrail.numbered hb
    have ih := ih fun o' ho' => hfits o' (List.mem_append_left _ ho')
    have hfits : head.fits = true := by
      have := hfits o (List.mem_append_right _ List.mem_cons_self)
      rwa [hrequest] at this
    have hshort : (e.encode head.toHeaders).2.length ≤ maxAllowedFrameSize :=
      Nat.le_trans (HpackEncoder.length_encode e head.toHeaders) (of_decide_eq_true hfits)
    have hadded : headersIds u.log = headersIds t.log ++ [o.id] := by
      unfold headersIds announced at *
      rw [hlog, List.filterMap_append, if_pos hshort]
      rfl
    have hkept : [o.id].removeAll (headersIds t.log) = [o.id] := by
      have hnew := hnumbered.new ho.next
      rw [← ih, List.mem_eraseDups] at hnew
      unfold List.removeAll
      rw [List.filter_cons_of_pos (by simpa using hnew), List.filter_nil]
    rw [(htrail.opens ho).numbered hb |>.opened, hadded, List.eraseDups_append, hkept, ih,
      hnumbered.opened, List.map_append]
    rfl

/-- A head goes out on the stream that was opened for it. -/
theorem openers_sublist {log : List UpObs} (h : Amid InPlace log) :
    openers log <+ openedIds log := by
  have rests : ∀ after before, log = before ++ after → openers after <+ openedIds after := by
    intro after
    fun_induction openers after with
    | case1 id live e fields limit after ih =>
      intro before parts
      obtain ⟨-, -, head, endStream, e', limit', rest, sent⟩ := h before _ _ parts
      have ih := ih (before ++ [.opened id live, .encoded e fields limit])
        (by rw [parts, List.append_assoc]; rfl)
      unfold announced at sent
      obtain ⟨hencoded, hafter⟩ := List.cons.inj sent
      cases hencoded
      show _ <+ id :: openedIds after
      split
      · rename_i hshort
        rw [if_pos hshort] at hafter
        rw [hafter] at ih ⊢
        exact ih.cons_cons id
      · exact ih.cons id
    | case2 o after _ ih =>
      intro before parts
      have ih := ih (before ++ [o]) (by rw [parts, List.append_assoc]; rfl)
      exact ih.trans ((List.sublist_cons_self o after).filterMap _)
    | case3 => exact fun _ _ => .slnil
  exact rests log [] rfl

/-! ## The pool -/

/-- Every request that came, came through a lease on the connection, and none through the lease
    of another. -/
def Drawn (f : Fleet) (conn : ConnId) (s : Upstream) : Prop :=
  ((arrivals s.log).map ToUpstream.id).Nodup ∧
    ∀ m ∈ arrivals s.log, (⟨conn, m.id⟩ : Lease) ∈ f.given

instance (f : Fleet) (conn : ConnId) (s : Upstream) : Decidable (Drawn f conn s) :=
  inferInstanceAs (Decidable (_ ∧ _))

/-- A connection is leased for fewer requests than there are ids. -/
theorem Drawn.length_le {f : Fleet} {conn : ConnId} (hf : f.Sound) (h : Drawn f conn s) :
    (arrivals s.log).length ≤ Fleet.spent := by
  obtain ⟨hnodup, hgiven⟩ := h
  have hinj : Function.Injective fun id : RequestId => id.get.toNat := by
    intro id id' heq
    cases id
    cases id'
    simpa [UInt32.toNat_inj] using heq
  have hsub : ((arrivals s.log).map ToUpstream.id).map (·.get.toNat) ⊆
      List.range Fleet.spent := by
    intro n hn
    obtain ⟨id, hid, rfl⟩ := List.mem_map.mp hn
    obtain ⟨m, hm, rfl⟩ := List.mem_map.mp hid
    obtain ⟨hconn, hlt⟩ := hf.named _ (hgiven m hm)
    exact List.mem_range.mpr (Nat.lt_of_lt_of_le hlt (hf.issued conn hconn))
  have hle := (List.subperm_of_subset (hnodup.map hinj) hsub).length_le
  rwa [List.length_map, List.length_map, List.length_range] at hle

/-! ## Every run -/

/-- In every run the streams that are opened bear the odd ids from one on, in order, each opened
    while fewer are live than the SETTINGS heard so far allow, its head sent at once; so the HEADERS
    that open requests bear these ids in this order. No other HEADERS is on a new stream, and each
    is opened for a request of its own that came. Where those heads fit a frame, as clients' heads
    do, the first HEADERS on each stream are they, and none is missing. An id that may be opened is
    opened, so that none is taken in vain; and where all requests came through leases of a pool the
    ids do not run out. -/
theorem opens_in_order (hb : b.Fresh) (h : (machine.startedAt b).Reachable s) :
    ∃ os, Trail b os s ∧ openedIds s.log = os.map (·.id) ∧
      os.map (·.request) ++ s.waiting <+~ arrivals s.log ∧
      (openedIds s.log).map StreamId.get =
        (List.range (openedIds s.log).length).map (1 + 2 * ·) ∧
      Amid InPlace s.log ∧ openers s.log <+ openedIds s.log ∧
      ((∀ m ∈ arrivals s.log, m.fits = true) →
        (headersIds s.log).eraseDups = openedIds s.log) ∧
      s.nextStreamId = 1 + 2 * (openedIds s.log).length ∧
      (s.stop = none → s.streams.canOpenLocal = true →
        (s.streams.openLocal (.new s.nextStreamId)).2 = .ok ()) ∧
      ∀ maxConns policy tuning epoch f conn,
        (Fleet.machine maxConns policy tuning epoch).Reachable f → Drawn f conn s →
          s.nextStreamId ≤ maxLocalStreamId := by
  obtain ⟨⟨os, htrail, hown⟩, hcounted⟩ := reach_served hb h
  have hnumbered := htrail.numbered hb.unopened
  have hcount : (openedIds s.log).length = os.length := by rw [hnumbered.opened, List.length_map]
  refine ⟨os, htrail, hnumbered.opened, hown, ?_, hnumbered.inPlace,
    openers_sublist hnumbered.inPlace, fun hfits => ?_, ?_,
    fun hlive hopen => ((hcounted hlive).openLocal hopen).1, ?_⟩
  · rw [hcount, hnumbered.opened, List.map_map]
    exact hnumbered.ids
  · refine htrail.headers hb.unopened fun o ho => hfits _ (hown.subset ?_)
    exact List.mem_append_left _ (List.mem_map_of_mem ho)
  · rw [hcount]
    exact hnumbered.next
  · intro maxConns policy tuning epoch f conn hf hdrawn
    have hle := hdrawn.length_le (Fleet.reachable_sound hf)
    have hcame := hown.length_le
    have hspent : 2 * Fleet.spent < maxLocalStreamId := by decide
    rw [List.length_append, List.length_map] at hcame
    rw [hnumbered.next]
    omega

/-- A connection on which two requests were opened, the second after the first was answered. -/
def answeredOnce : Upstream :=
  machine.run (.start .default 0 0 0)
    [(0, .frame (.ofParts .settings ⟨0⟩ .connection [0, 3, 0, 0, 0, 1] (show 6 < 2 ^ 24 by decide))),
      (0, .message (.request ⟨0⟩ (.new 1) ⟨ascii "GET", ascii "http", none, ascii "/", []⟩ true ⟨0⟩)),
      (0, .message (.request ⟨1⟩ (.new 3) ⟨ascii "GET", ascii "http", none, ascii "/", []⟩ true ⟨0⟩)),
      (0, .frame (.ofParts .headers ⟨0x5⟩ (.new 1) [0x88] (by decide)))]

theorem opens_in_order_twice :
    (headersIds answeredOnce.log).eraseDups.map StreamId.get = [1, 3] ∧
      answeredOnce.nextStreamId ≤ maxLocalStreamId := by
  have fresh : Fresh (.start .default 0 0 0) := ⟨.default, 0, 0, 0, by decide, by decide, rfl⟩
  have reached : (machine.startedAt (.start .default 0 0 0)).Reachable answeredOnce :=
    Machine.Reach.run (.init rfl) _ (Machine.Meets.of_all (fun _ _ => trivial) _ _)
  obtain ⟨os, -, -, -, hids, -, -, hwire, -, -, hroom⟩ := opens_in_order fresh reached
  have leased : (Fleet.machine 8 .default .default 0).Reachable
      ((Fleet.machine 8 .default .default 0).run (.start (.withPolicy 8 .default .default 0))
        [.checkout ⟨1⟩ 0, .checkout ⟨1⟩ 0]) :=
    Machine.Reach.run (.init rfl) _ (Machine.Meets.of_all (fun _ _ => trivial) _ _)
  refine ⟨?_, hroom _ _ _ _ _ 0 leased (by decide +kernel)⟩
  have two : (openedIds answeredOnce.log).length = 2 := by decide +kernel
  rw [hwire (by decide +kernel), hids, two]
  rfl

end Upstream

end H2Proxy
