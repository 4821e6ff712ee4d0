import H2Proxy.FrameCodec
import H2Proxy.Up.State
import Mathlib.Data.List.Induction

/-
  The liveness probe, over any history of calls whose times do not go back.

  `Watched` ties what the probe keeps to the calls made so far: `lastHeard` is no earlier than
  anything heard, and the PING that is out was sent by one of the calls, at the end of a silence
  of at least `idle`. So what `due` says of a backend is true of what the backend did.
-/

namespace H2Proxy

theorem put32_injective {m n : Nat} (h : put32 m = put32 n) : m % 2 ^ 32 = n % 2 ^ 32 := by
  unfold put32 put16 at h
  injection h with h₁ h
  injection h with h₂ h
  injection h with h₃ h
  injection h with h₄
  rw [← be32_ofNat, ← be32_ofNat, h₁, h₂, h₃, h₄]

namespace Probe

theorem nonceOf_injective {m n : Nat} (h : nonceOf m = nonceOf n) : m % 2 ^ 64 = n % 2 ^ 64 := by
  have octets : put32 (m / 2 ^ 32) ++ put32 m = put32 (n / 2 ^ 32) ++ put32 n :=
    congrArg Subtype.val h
  obtain ⟨high, low⟩ := List.append_inj octets rfl
  have high := put32_injective high
  have low := put32_injective low
  omega

/-! ## Calls -/

inductive Call
  | heard (now : Instant)
  | acked (data : PingData) (now : Instant)
  | due (now : Instant)

namespace Call

def now : Call → Instant
  | heard now | acked _ now | due now => now

/-- The backend said something. -/
def hears : Call → Bool
  | heard _ | acked .. => true
  | due _ => false

end Call

def call (p : Probe) : Call → Probe
  | .heard now => p.heard now
  | .acked data now => (p.acked data now).1
  | .due now => (p.due now).1

def after (p : Probe) (calls : List Call) : Probe := calls.foldl call p

/-- The nonce of the PING that a call sends. -/
def sending (p : Probe) : Call → Option PingData
  | .due now =>
    match (p.due now).2 with
    | .send nonce => some nonce
    | .nothing | .expired => none
  | .heard _ | .acked .. => none

/-- The nonces of the PINGs sent, oldest first. -/
def sent (p : Probe) : List Call → List PingData
  | [] => []
  | c :: calls => (p.sending c).toList ++ (p.call c).sent calls

/-- Each time is at or after the one the probe asked to be woken at. -/
def Punctual (p : Probe) : List Instant → Prop
  | [] => True
  | now :: times => (∃ wake, p.nextWake = some wake ∧ wake ≤ now) ∧ (p.due now).1.Punctual times

/-- The calls were made from `start` on, in the order of their times. -/
def Ordered (start : Instant) (calls : List Call) : Prop :=
  (start :: calls.map Call.now).Pairwise (· ≤ ·)

variable {p : Probe} {idle timeout : Duration} {start now : Instant} {calls : List Call}

theorem after_snoc (p : Probe) (calls : List Call) (c : Call) :
    p.after (calls ++ [c]) = (p.after calls).call c := by
  unfold after
  rw [List.foldl_append]
  rfl

theorem sent_snoc (p : Probe) (calls : List Call) (c : Call) :
    p.sent (calls ++ [c]) = p.sent calls ++ ((p.after calls).sending c).toList := by
  induction calls generalizing p with
  | nil => exact List.append_nil _
  | cons d calls ih =>
    show (p.sending d).toList ++ (p.call d).sent (calls ++ [c]) = _
    rw [ih, ← List.append_assoc]
    rfl

theorem Ordered.snoc {c : Call} (h : Ordered start (calls ++ [c])) :
    Ordered start calls ∧ start ≤ c.now ∧ ∀ d ∈ calls, d.now ≤ c.now := by
  unfold Ordered at h
  rw [List.map_append, ← List.cons_append, List.pairwise_append] at h
  obtain ⟨before, -, last⟩ := h
  have last : ∀ t ∈ start :: calls.map Call.now, t ≤ c.now := fun t ht =>
    last t ht c.now (List.mem_singleton_self _)
  refine ⟨before, last start List.mem_cons_self, fun d hd => ?_⟩
  exact last d.now (List.mem_cons_of_mem _ (List.mem_map_of_mem hd))

/-! ## What the timer can do -/

/-- What a firing of the timer of an enabled probe can be. -/
inductive Fires (p : Probe) (now : Instant) : Probe × ProbeAction → Prop
  | waits {o : Outstanding} (out : p.outstanding = some o) (early : now < o.deadline) :
      Fires p now (p, .nothing)
  | answered {o : Outstanding} (out : p.outstanding = some o) (late : o.deadline ≤ now)
      (spoke : o.sentAt < p.lastHeard) : Fires p now ({ p with outstanding := none }, .nothing)
  | expired {o : Outstanding} (out : p.outstanding = some o) (late : o.deadline ≤ now)
      (silent : p.lastHeard ≤ o.sentAt) : Fires p now (p, .expired)
  | sends (out : p.outstanding = none) (quiet : p.lastHeard + p.idle ≤ now) :
      Fires p now ({ p with
        nextNonce := p.nextNonce + 1
        outstanding := some ⟨nonceOf p.nextNonce, now, now + p.timeout⟩ },
        .send (nonceOf p.nextNonce))
  | rests (out : p.outstanding = none) (busy : now < p.lastHeard + p.idle) :
      Fires p now (p, .nothing)

theorem enabled_of_idle (enabled : 0 < p.idle) : (!p.enabled) = false := by
  unfold Probe.enabled
  rw [decide_eq_true (Nat.pos_iff_ne_zero.mp enabled)]
  rfl

/-- Subtraction of times saturates, so a zero span would be silence at any time. -/
theorem silence_iff {idle last now : Nat} (enabled : 0 < idle) :
    idle ≤ now - last ↔ last + idle ≤ now := by
  omega

theorem due_fires (enabled : 0 < p.idle) (now : Instant) : p.Fires now (p.due now) := by
  unfold due
  rw [if_neg (by rw [enabled_of_idle enabled]; exact Bool.false_ne_true)]
  cases out : p.outstanding with
  | some o =>
    dsimp only
    split
    · rename_i late
      split
      · rename_i spoke
        exact .answered out late spoke
      · rename_i silent
        exact .expired out late (Nat.le_of_not_lt silent)
    · rename_i early
      exact .waits out (Nat.lt_of_not_le early)
  | none =>
    dsimp only
    split
    · rename_i quiet
      exact .sends out ((silence_iff enabled).mp quiet)
    · rename_i busy
      exact .rests out (Nat.lt_of_not_le fun quiet => busy ((silence_iff enabled).mpr quiet))

theorem nextWake_of_outstanding {o : Outstanding} (enabled : 0 < p.idle)
    (out : p.outstanding = some o) : p.nextWake = some o.deadline := by
  unfold nextWake
  rw [if_neg (by rw [enabled_of_idle enabled]; exact Bool.false_ne_true), out]

theorem nextWake_of_none (enabled : 0 < p.idle) (out : p.outstanding = none) :
    p.nextWake = some (p.lastHeard + p.idle) := by
  unfold nextWake
  rw [if_neg (by rw [enabled_of_idle enabled]; exact Bool.false_ne_true), out]

/-! ## What the probe keeps of a history -/

/-- One of the calls sent this PING, and all that was heard before it is `idle` old by then. -/
def Asked (idle timeout : Duration) (start : Instant) (calls : List Call) (o : Outstanding) :
    Prop :=
  ∃ before later, calls = before ++ .due o.sentAt :: later ∧
    (((new idle timeout start).after before).due o.sentAt).2 = .send o.nonce ∧
    start + idle ≤ o.sentAt ∧ (∀ c ∈ before, c.hears = true → c.now + idle ≤ o.sentAt) ∧
    o.deadline = o.sentAt + timeout

theorem Asked.snoc {o : Outstanding} (h : Asked idle timeout start calls o) (c : Call) :
    Asked idle timeout start (calls ++ [c]) o := by
  obtain ⟨before, later, rfl, sent, quiet, deadline⟩ := h
  exact ⟨before, later ++ [c], by rw [List.append_assoc, List.cons_append], sent, quiet, deadline⟩

/-- What the probe keeps agrees with the calls made. -/
structure Watched (idle timeout : Duration) (start : Instant) (calls : List Call) (p : Probe) :
    Prop where
  span : p.idle = idle
  patience : p.timeout = timeout
  since : start ≤ p.lastHeard
  heard : ∀ c ∈ calls, c.hears = true → c.now ≤ p.lastHeard
  asked : ∀ o, p.outstanding = some o → Asked idle timeout start calls o
  counted : p.nextNonce = ((new idle timeout start).sent calls).length + 1
  nonces : (new idle timeout start).sent calls =
    (List.range ((new idle timeout start).sent calls).length).map fun n => nonceOf (n + 1)

namespace Watched

variable {c : Call}

/-- Something was heard: at the time of the call, whatever becomes of the PING that is out. -/
theorem hears (h : Watched idle timeout start calls p) {out : Option Outstanding}
    (kept : ∀ o, out = some o → p.outstanding = some o)
    (silent : ((new idle timeout start).after calls).sending c = none)
    (order : start ≤ c.now ∧ ∀ d ∈ calls, d.now ≤ c.now) :
    Watched idle timeout start (calls ++ [c])
      { p with lastHeard := c.now, outstanding := out } := by
  have same : (new idle timeout start).sent (calls ++ [c]) =
      (new idle timeout start).sent calls := by
    rw [sent_snoc, silent]
    exact List.append_nil _
  refine ⟨h.span, h.patience, order.1, fun d hd _ => ?_,
    fun o out => (h.asked o (kept o out)).snoc c, ?_, ?_⟩
  · obtain before | last := List.mem_append.mp hd
    · exact order.2 d before
    · rw [List.mem_singleton.mp last]
  · rw [same]
    exact h.counted
  · rw [same]
    exact h.nonces

/-- A firing that sends nothing. -/
theorem fires (h : Watched idle timeout start calls p) {out : Option Outstanding}
    (kept : ∀ o, out = some o → p.outstanding = some o)
    (silent : ((new idle timeout start).after calls).sending (.due now) = none) :
    Watched idle timeout start (calls ++ [.due now]) { p with outstanding := out } := by
  have same : (new idle timeout start).sent (calls ++ [.due now]) =
      (new idle timeout start).sent calls := by
    rw [sent_snoc, silent]
    exact List.append_nil _
  refine ⟨h.span, h.patience, h.since, fun d hd hears => ?_,
    fun o out => (h.asked o (kept o out)).snoc _, ?_, ?_⟩
  · obtain before | last := List.mem_append.mp hd
    · exact h.heard d before hears
    · rw [List.mem_singleton.mp last] at hears
      cases hears
  · rw [same]
    exact h.counted
  · rw [same]
    exact h.nonces

/-- A firing that sends a PING. -/
theorem sends (h : Watched idle timeout start calls p)
    (quiet : p.lastHeard + p.idle ≤ now)
    (was : (((new idle timeout start).after calls).due now).2 = .send (nonceOf p.nextNonce)) :
    Watched idle timeout start (calls ++ [.due now])
      { p with
        nextNonce := p.nextNonce + 1
        outstanding := some ⟨nonceOf p.nextNonce, now, now + p.timeout⟩ } := by
  have grown : (new idle timeout start).sent (calls ++ [.due now]) =
      (new idle timeout start).sent calls ++ [nonceOf p.nextNonce] := by
    rw [sent_snoc]
    unfold sending
    dsimp only
    rw [was]
    rfl
  have quiet : p.lastHeard + idle ≤ now := h.span ▸ quiet
  refine ⟨h.span, h.patience, h.since, fun d hd hears => ?_, fun o out => ?_, ?_, ?_⟩
  · obtain before | last := List.mem_append.mp hd
    · exact h.heard d before hears
    · rw [List.mem_singleton.mp last] at hears
      cases hears
  · cases out
    refine ⟨calls, [], rfl, was, ?_, fun c hc hears => ?_, by rw [← h.patience]⟩
    · exact Nat.le_trans (Nat.add_le_add_right h.since idle) quiet
    · exact Nat.le_trans (Nat.add_le_add_right (h.heard c hc hears) idle) quiet
  · rw [grown, List.length_append]
    exact congrArg (· + 1) h.counted
  · rw [grown, List.length_append]
    refine (congrArg (· ++ [nonceOf p.nextNonce]) h.nonces).trans ?_
    rw [h.counted]
    exact (List.range_succ ▸ List.map_append ..).symm

end Watched

/-- The probe agrees with any history of calls. -/
theorem after_watched (enabled : 0 < idle) (timeout : Duration) (ordered : Ordered start calls) :
    Watched idle timeout start calls ((new idle timeout start).after calls) := by
  induction calls using List.reverseRecOn with
  | nil =>
    exact ⟨rfl, rfl, Nat.le_refl _, fun _ h => (by cases h), fun _ h => (by cases h), rfl, rfl⟩
  | append_singleton calls c ih =>
    obtain ⟨before, order⟩ := ordered.snoc
    have h := ih before
    rw [after_snoc]
    cases c with
    | heard now => exact h.hears (fun _ out => out) rfl order
    | acked data now =>
      unfold call acked
      dsimp only
      cases out : ((new idle timeout start).after calls |>.heard now).outstanding with
      | some o =>
        dsimp only
        split
        · exact h.hears (fun _ no => by cases no) rfl order
        · exact h.hears (fun _ out => out) rfl order
      | none => exact h.hears (fun _ out => out) rfl order
    | due now =>
      have fires := due_fires (h.span ▸ enabled) now
      unfold call
      dsimp only
      generalize result : ((new idle timeout start).after calls).due now = outcome at fires
      have silent : outcome.2 = .nothing ∨ outcome.2 = .expired →
          ((new idle timeout start).after calls).sending (.due now) = none := by
        unfold sending
        dsimp only
        rw [result]
        rintro (nothing | expired)
        · rw [nothing]
        · rw [expired]
      cases fires with
      | waits | rests => exact h.fires (fun _ out => out) (silent (.inl rfl))
      | answered => exact h.fires (fun _ no => by cases no) (silent (.inl rfl))
      | expired => exact h.fires (fun _ out => out) (silent (.inr rfl))
      | sends out quiet => exact h.sends quiet (by rw [result])

/-! ## What `due` says of the backend -/

/-- One firing finds out a backend that has said nothing since its PING. -/
theorem expired_of_silent {o : Outstanding} (enabled : 0 < p.idle) (out : p.outstanding = some o)
    (silent : p.lastHeard ≤ o.sentAt) (wakes : ∃ wake, p.nextWake = some wake ∧ wake ≤ now) :
    (p.due now).2 = .expired := by
  obtain ⟨wake, asked, wake_le⟩ := wakes
  rw [nextWake_of_outstanding enabled out] at asked
  cases asked
  have fires := due_fires enabled now
  generalize p.due now = outcome at fires
  cases fires with
  | expired => rfl
  | waits out' early =>
    cases out.symm.trans out'
    exact absurd wake_le (Nat.not_le_of_lt early)
  | answered out' _ spoke =>
    cases out.symm.trans out'
    exact absurd silent (Nat.not_le_of_lt spoke)
  | sends out' | rests out' => cases out.symm.trans out'

/-- Two find it out where no PING is out. -/
theorem expired_of_none (enabled : 0 < p.idle) (out : p.outstanding = none) {next : Instant}
    (wakes : ∃ wake, p.nextWake = some wake ∧ wake ≤ now)
    (again : ∃ wake, (p.due now).1.nextWake = some wake ∧ wake ≤ next) :
    ((p.due now).1.due next).2 = .expired := by
  obtain ⟨wake, asked, wake_le⟩ := wakes
  rw [nextWake_of_none enabled out] at asked
  cases asked
  have fires := due_fires enabled now
  generalize p.due now = outcome at fires again ⊢
  cases fires with
  | sends out quiet =>
    refine expired_of_silent ?_ rfl ?_ again
    · exact enabled
    · exact Nat.le_trans (Nat.le_add_right _ _) quiet
  | rests _ busy => exact absurd wake_le (Nat.not_le_of_lt busy)
  | waits out' | answered out' | expired out' => cases out.symm.trans out'

/-- Three firings, each no earlier than asked for, find out a backend that says nothing. -/
theorem silent_expired (enabled : 0 < p.idle) :
    ∀ times, p.Punctual times → 3 ≤ times.length → ∃ before now, before ++ [now] <+: times ∧
      ((p.after (before.map .due)).due now).2 = .expired := by
  rintro (_ | ⟨a, _ | ⟨b, _ | ⟨c, times⟩⟩⟩) punctual long
  · cases long
  · cases long with | step long => cases long
  · cases long with | step long => cases long with | step long => cases long
  · obtain ⟨first, second, third, -⟩ := punctual
    cases out : p.outstanding with
    | none =>
      exact ⟨[a], b, List.prefix_append [a, b] _, expired_of_none enabled out first second⟩
    | some o =>
      by_cases silent : p.lastHeard ≤ o.sentAt
      · exact ⟨[], a, List.prefix_append [a] _, expired_of_silent enabled out silent first⟩
      · refine ⟨[a, b], c, List.prefix_append [a, b, c] _, ?_⟩
        -- Something was heard since the PING, so the first firing only takes it back.
        have fires := due_fires enabled a
        show (((p.due a).1.due b).1.due c).2 = .expired
        generalize p.due a = outcome at fires second third ⊢
        cases fires with
        | answered =>
          refine expired_of_none ?_ rfl second third
          exact enabled
        | waits out' early =>
          obtain ⟨wake, asked, wake_le⟩ := first
          rw [nextWake_of_outstanding enabled out'] at asked
          cases asked
          exact absurd wake_le (Nat.not_le_of_lt early)
        | expired out' _ silent' =>
          cases out.symm.trans out'
          exact absurd silent' silent
        | sends out' | rests out' => cases out.symm.trans out'

theorem sent_differ (h : Watched idle timeout start calls p) {i j : Nat} {m n : PingData}
    (hm : ((new idle timeout start).sent calls)[i]? = some m)
    (hn : ((new idle timeout start).sent calls)[j]? = some n) (lt : i < j)
    (near : j < i + 2 ^ 64) : m ≠ n := by
  have at_ : ∀ {k : Nat} {q : PingData}, ((new idle timeout start).sent calls)[k]? = some q →
      q = nonceOf (k + 1) := by
    intro k q hq
    rw [h.nonces, List.getElem?_map] at hq
    obtain ⟨k', hk', rfl⟩ := Option.map_eq_some_iff.mp hq
    obtain ⟨below, same⟩ := List.getElem?_eq_some_iff.mp hk'
    rw [List.getElem_range] at same
    rw [same]
  rw [at_ hm, at_ hn]
  intro same
  have same := nonceOf_injective same
  omega

/-- The probe of an enabled connection, after any history of calls: `expired` is only said of a
backend that was silent for `idle`, then asked, and silent for `timeout` more; a PING stays out
whatever else is acknowledged; no nonce comes back while 2^64 others have not; and a backend that
says nothing more is found out at the third firing, each no earlier than the probe asks for. -/
theorem probe_watches (enabled : 0 < idle) (timeout : Duration) (ordered : Ordered start calls) :
    let p := (new idle timeout start).after calls
    (∀ now, (p.due now).2 = .expired → ∃ o, p.outstanding = some o ∧
      Asked idle timeout start calls o ∧ o.sentAt + timeout ≤ now ∧
      ∀ c ∈ calls, c.hears = true → c.now ≤ o.sentAt) ∧
    (∀ o data now, p.outstanding = some o → data ≠ o.nonce →
      (p.call (.acked data now)).outstanding = some o) ∧
    (∀ i j m n, ((new idle timeout start).sent calls)[i]? = some m →
      ((new idle timeout start).sent calls)[j]? = some n → i < j → j < i + 2 ^ 64 → m ≠ n) ∧
    (∃ wake, p.nextWake = some wake) ∧
    ∀ times, p.Punctual times → 3 ≤ times.length → ∃ before now, before ++ [now] <+: times ∧
      ((p.after (before.map .due)).due now).2 = .expired := by
  intro p
  have h : Watched idle timeout start calls p := after_watched enabled timeout ordered
  have on : 0 < p.idle := h.span ▸ enabled
  refine ⟨fun now dead => ?_, fun o data now out other => ?_, fun _ _ _ _ => sent_differ h, ?_,
    fun times => ?_⟩
  · have fires := due_fires on now
    generalize p.due now = outcome at fires dead
    cases fires with
    | expired out late silent =>
      obtain ⟨-, -, -, -, -, -, deadline⟩ := h.asked _ out
      exact ⟨_, out, h.asked _ out, deadline ▸ late,
        fun c hc hears => Nat.le_trans (h.heard c hc hears) silent⟩
    | waits | answered | sends | rests => cases dead
  · unfold call acked
    have out' : (p.heard now).outstanding = some o := out
    dsimp only
    rw [out']
    dsimp only
    rw [if_neg (Ne.symm other)]
    exact out'
  · cases out : p.outstanding with
    | some o => exact ⟨_, nextWake_of_outstanding on out⟩
    | none => exact ⟨_, nextWake_of_none on out⟩
  · exact silent_expired on times

/-- A probe asked after 5 and answered at 6 is asked again at 11, and expires at 16. -/
theorem probe_watches_second :
    let calls := [Call.due 5, .acked (nonceOf 1) 6, .due 11]
    (∀ c ∈ calls, c.hears = true → c.now ≤ 11) ∧ nonceOf 1 ≠ nonceOf 2 ∧
      ∃ before now, before ++ [now] <+: [16, 21, 26] ∧
        ((((new 5 5 0).after calls).after (before.map .due)).due now).2 = .expired := by
  intro calls
  have h := probe_watches (show 0 < 5 by decide) 5
    (show Ordered 0 calls by unfold Ordered; decide)
  refine ⟨?_, h.2.2.1 0 1 _ _ rfl rfl (by decide) (by decide), ?_⟩
  · obtain ⟨o, out, -, -, silent⟩ := h.1 16 rfl
    cases out
    exact silent
  · refine h.2.2.2.2 _ ?_ (by decide)
    exact ⟨⟨16, rfl, by decide⟩, ⟨16, rfl, by decide⟩, ⟨16, rfl, by decide⟩, trivial⟩

end Probe

end H2Proxy
