import H2Proxy.Proxy.Health
import Mathlib.Data.List.Induction

/-
  When a backend is ejected, and for how long.

  `Standing` is what the reports about one backend since its last success come to, told
  without a counter that restarts or a backoff that doubles. `Reads` connects an entry of
  the table to it: the table follows the standing of every backend over any history
  (`reads_after`).
-/

namespace H2Proxy

open scoped List

namespace Health

/-- What the table is told about a backend. -/
inductive Report
  | failure | success | trial
deriving DecidableEq

structure Event where
  backend : Backend
  now : Instant
  report : Report
deriving DecidableEq

def hear (h : Health) (ev : Event) : Health :=
  match ev.report with
  | .failure => h.failure ev.backend ev.now
  | .success => h.success ev.backend
  | .trial => h.claimTrial ev.backend ev.now

/-- The table after a history. -/
def after (policy : Policy) (history : List Event) : Health := history.foldl hear (new policy)

def state (backend : Backend) (now : Instant) (h : Health) : State := (h.entry backend).state now

/-! ## The standing of a backend -/

/-- How long the `k`-th ejection since a success lasts. -/
def Policy.term (policy : Policy) (k : Nat) : Duration :=
  min (policy.baseBackoff * 2 ^ (k - 1)) policy.maxBackoff

/-- What was reported about a backend since its last success. -/
structure Standing where
  /-- The failures reported while it was not ejected. -/
  failures : Nat
  ejections : Nat
  /-- When the last of the ejections began. -/
  since : Instant
  onTrial : Bool
deriving DecidableEq

namespace Standing

def new : Standing := ⟨0, 0, 0, false⟩

def expiry (policy : Policy) (s : Standing) : Instant := s.since + policy.term s.ejections

def state (policy : Policy) (now : Instant) (s : Standing) : State :=
  if s.ejections = 0 then .healthy else if now < s.expiry policy then .ejected else .halfOpen

/-- Whether a failure reported now ejects: on trial, or as the last of `ejectAfter` while
    it was not ejected. -/
def ejects (policy : Policy) (now : Instant) (s : Standing) : Prop :=
  s.onTrial = true ∨ s.state policy now ≠ .ejected ∧ s.failures + 1 = policy.ejectAfter

instance (policy : Policy) (now : Instant) (s : Standing) : Decidable (s.ejects policy now) :=
  inferInstanceAs (Decidable (_ ∨ _))

def failure (policy : Policy) (now : Instant) (s : Standing) : Standing where
  failures := if s.state policy now = .ejected then s.failures else s.failures + 1
  ejections := if s.ejects policy now then s.ejections + 1 else s.ejections
  since := if s.ejects policy now then now else s.since
  onTrial := false

def hear (policy : Policy) (now : Instant) (s : Standing) : Report → Standing
  | .failure => s.failure policy now
  | .success => new
  | .trial => { s with onTrial := s.onTrial || decide (s.state policy now = .halfOpen) }

end Standing

/-- The standing of a backend after a history; what is reported about others is nothing to it. -/
def standing (policy : Policy) (b : Backend) (history : List Event) : Standing :=
  history.foldl (fun s ev => if ev.backend = b then s.hear policy ev.now ev.report else s) .new

/-! ## The terms of ejections -/

theorem term_one {policy : Policy} (grows : policy.baseBackoff ≤ policy.maxBackoff) :
    policy.term 1 = policy.baseBackoff := by
  unfold Policy.term
  rw [Nat.sub_self, Nat.pow_zero, Nat.mul_one, Nat.min_eq_left grows]

theorem min_double (d m : Nat) : min (min d m * 2) m = min (d * 2) m := by
  omega

/-- Doubling under the ceiling gives the next term. -/
theorem term_succ (policy : Policy) {k : Nat} (pos : 0 < k) :
    min (policy.term k * 2) policy.maxBackoff = policy.term (k + 1) := by
  obtain ⟨j, rfl⟩ : ∃ j, k = j + 1 := ⟨k - 1, by omega⟩
  unfold Policy.term
  rw [Nat.add_sub_cancel, Nat.add_sub_cancel, Nat.pow_succ, ← Nat.mul_assoc]
  exact min_double _ _

/-! ## The table follows -/

/-- An entry of the table reads as a standing. -/
structure Reads (policy : Policy) (e : Entry) (s : Standing) : Prop where
  expiry : e.ejectedUntil = if s.ejections = 0 then none else some (s.expiry policy)
  trial : e.trialInFlight = s.onTrial
  backoff : e.backoff = policy.term (max 1 s.ejections)
  /-- Until the first ejection every failure counts, and they are fewer than it takes. -/
  calm : s.ejections = 0 →
    s.onTrial = false ∧ e.consecutiveFailures = s.failures ∧ s.failures < policy.ejectAfter
  /-- The first ejection has used up the failures it takes. -/
  spent : 0 < s.ejections → policy.ejectAfter ≤ s.failures

namespace Entry

variable {policy : Policy} {e : Entry} {now : Instant}

theorem failure_of_trial (out : e.trialInFlight = true) :
    e.failure policy now =
      ({ e with
          trialInFlight := false
          backoff := min (e.backoff * 2) policy.maxBackoff
          ejectedUntil := some (now + min (e.backoff * 2) policy.maxBackoff)
          ejections := e.ejections + 1 }, true) := by
  unfold failure
  rw [if_pos out]
  rfl

theorem failure_of_last (free : e.trialInFlight = false) (in_rotation : e.ejectedUntil = none)
    (last : policy.ejectAfter ≤ e.consecutiveFailures + 1) :
    e.failure policy now =
      ({ e with
          consecutiveFailures := e.consecutiveFailures + 1
          ejectedUntil := some (now + e.backoff)
          ejections := e.ejections + 1 }, true) := by
  unfold failure
  rw [if_neg (Bool.eq_false_iff.mp free)]
  dsimp only
  rw [if_pos ⟨last, in_rotation⟩]
  rfl

theorem failure_of_more (free : e.trialInFlight = false)
    (more : ¬ (e.ejectedUntil = none ∧ policy.ejectAfter ≤ e.consecutiveFailures + 1)) :
    e.failure policy now =
      ({ e with consecutiveFailures := e.consecutiveFailures + 1 }, false) := by
  unfold failure
  rw [if_neg (Bool.eq_false_iff.mp free)]
  dsimp only
  rw [if_neg fun ⟨last, in_rotation⟩ => more ⟨in_rotation, last⟩]

/-- The count of ejections goes up when the failure ejects. -/
theorem failure_ejections :
    (e.failure policy now).1.ejections = e.ejections + 1 ↔ (e.failure policy now).2 = true := by
  have same : e.ejections ≠ e.ejections + 1 := Nat.ne_of_lt (Nat.lt_succ_self _)
  unfold failure
  split
  · exact iff_of_true rfl rfl
  · dsimp only
    split
    · exact iff_of_true rfl rfl
    · exact iff_of_false same Bool.false_ne_true

end Entry

namespace Standing

variable {policy : Policy} {s : Standing} {now : Instant}

theorem le_failure (policy : Policy) (now : Instant) (s : Standing) :
    s.failures ≤ (s.failure policy now).failures := by
  unfold failure
  dsimp only
  split
  · exact Nat.le_refl _
  · exact Nat.le_succ _

theorem failure_of_ejects (ejects : s.ejects policy now) :
    s.failure policy now =
      { failures := (s.failure policy now).failures
        ejections := s.ejections + 1
        since := now
        onTrial := false } := by
  unfold failure
  rw [if_pos ejects, if_pos ejects]

theorem failure_of_not_ejects (stays : ¬ s.ejects policy now) :
    s.failure policy now =
      { failures := (s.failure policy now).failures
        ejections := s.ejections
        since := s.since
        onTrial := false } := by
  unfold failure
  rw [if_neg stays, if_neg stays]

end Standing

namespace Reads

variable {policy : Policy} {e : Entry} {s : Standing}

theorem state (rd : Reads policy e s) (now : Instant) : e.state now = s.state policy now := by
  unfold Entry.state Standing.state
  rw [rd.expiry]
  by_cases none_yet : s.ejections = 0
  · rw [if_pos none_yet, if_pos none_yet]
  · rw [if_neg none_yet, if_neg none_yet]

theorem start (some_failures : 1 ≤ policy.ejectAfter)
    (grows : policy.baseBackoff ≤ policy.maxBackoff) {n : Nat} :
    Reads policy ⟨0, none, false, policy.baseBackoff, n⟩ .new where
  expiry := rfl
  trial := rfl
  backoff := (term_one grows).symm
  calm _ := ⟨rfl, rfl, some_failures⟩
  spent pos := absurd pos (Nat.lt_irrefl 0)

/-- Only an ejected backend is on trial. -/
theorem ejected_of_trial (rd : Reads policy e s) (out : s.onTrial = true) : 0 < s.ejections := by
  by_contra none_yet
  have free := (rd.calm (by omega)).1
  rw [out] at free
  exact Bool.noConfusion free

/-- An entry that has just been ejected, for the first time or after a trial. -/
theorem ejected {e : Entry} {k failures : Nat} {now : Instant} (free : e.trialInFlight = false)
    (longer : e.backoff = policy.term (k + 1)) (expires : e.ejectedUntil = some (now + e.backoff))
    (spent : policy.ejectAfter ≤ failures) : Reads policy e ⟨failures, k + 1, now, false⟩ where
  expiry := by
    rw [expires, longer, if_neg (Nat.succ_ne_zero k)]
    rfl
  trial := free
  backoff := by rw [longer, Nat.max_eq_right (Nat.succ_pos k)]
  calm none_yet := absurd none_yet (Nat.succ_ne_zero k)
  spent _ := spent

/-- A failure ejects by the table when it does by the standing, and the table follows. -/
theorem failure (rd : Reads policy e s) (now : Instant) :
    (e.failure policy now).2 = decide (s.ejects policy now) ∧
      Reads policy (e.failure policy now).1 (s.failure policy now) := by
  by_cases out : s.onTrial = true
  · have ejects : s.ejects policy now := .inl out
    have pos := rd.ejected_of_trial out
    have longer : min (e.backoff * 2) policy.maxBackoff = policy.term (s.ejections + 1) := by
      rw [rd.backoff, Nat.max_eq_right pos, term_succ policy pos]
    rw [Entry.failure_of_trial (rd.trial.trans out), Standing.failure_of_ejects ejects]
    exact ⟨(decide_eq_true ejects).symm, ejected rfl longer rfl
      (Nat.le_trans (rd.spent pos) (Standing.le_failure policy now s))⟩
  have free : e.trialInFlight = false := rd.trial.trans (Bool.eq_false_iff.mpr out)
  by_cases none_yet : s.ejections = 0
  · obtain ⟨-, same, few⟩ := rd.calm none_yet
    have healthy : s.state policy now ≠ .ejected := by
      rw [Standing.state, if_pos none_yet]
      exact State.noConfusion
    have in_rotation : e.ejectedUntil = none := by rw [rd.expiry, if_pos none_yet]
    have counted : (s.failure policy now).failures = s.failures + 1 := if_neg healthy
    by_cases last : s.failures + 1 = policy.ejectAfter
    · have ejects : s.ejects policy now := .inr ⟨healthy, last⟩
      have longer : e.backoff = policy.term (s.ejections + 1) := by
        rw [rd.backoff, none_yet]
        rfl
      rw [Entry.failure_of_last free in_rotation (by omega), Standing.failure_of_ejects ejects,
        counted]
      exact ⟨(decide_eq_true ejects).symm, ejected free longer rfl (Nat.le_of_eq last.symm)⟩
    · have stays : ¬ s.ejects policy now := fun ejects => ejects.elim out fun h => last h.2
      rw [Entry.failure_of_more free (by omega), Standing.failure_of_not_ejects stays, counted]
      refine ⟨(decide_eq_false stays).symm, ?_⟩
      exact
        { expiry := rd.expiry
          trial := free
          backoff := rd.backoff
          calm := fun _ => ⟨rfl, congrArg Nat.succ same, by dsimp only; omega⟩
          spent := fun pos => absurd pos (by dsimp only; omega) }
  · have spent := rd.spent (Nat.pos_of_ne_zero none_yet)
    have gone : e.ejectedUntil ≠ none := by
      rw [rd.expiry, if_neg none_yet]
      exact Option.some_ne_none _
    have stays : ¬ s.ejects policy now := by
      rintro (trial | ⟨-, last⟩)
      · exact out trial
      · omega
    rw [Entry.failure_of_more free fun h => gone h.1, Standing.failure_of_not_ejects stays]
    refine ⟨(decide_eq_false stays).symm, ?_⟩
    exact
      { expiry := rd.expiry
        trial := free
        backoff := rd.backoff
        calm := fun h => absurd h none_yet
        spent := fun _ => Nat.le_trans spent (Standing.le_failure policy now s) }

theorem claim (rd : Reads policy e s) (now : Instant) :
    Reads policy
      (if e.state now = .halfOpen ∧ e.trialInFlight = false then { e with trialInFlight := true }
       else e)
      (s.hear policy now .trial) := by
  rw [rd.state now, rd.trial]
  unfold Standing.hear
  dsimp only
  by_cases half : s.state policy now = .halfOpen
  · have pos : 0 < s.ejections := by
      by_contra none_yet
      rw [Standing.state, if_pos (by omega)] at half
      cases half
    rw [decide_eq_true half, Bool.or_true]
    refine
      { expiry := ?_
        trial := ?_
        backoff := ?_
        calm := fun none_yet => absurd pos (by dsimp only at none_yet; omega)
        spent := rd.spent }
    · split
      · exact rd.expiry
      · exact rd.expiry
    · split
      · rfl
      · rename_i taken
        exact rd.trial.trans (by simpa [half] using taken)
    · split
      · exact rd.backoff
      · exact rd.backoff
  · rw [if_neg fun h => half h.1, decide_eq_false half, Bool.or_false]
    exact rd

end Reads

/-! ## Over any history -/

variable {policy : Policy}

theorem hear_policy (h : Health) (ev : Event) : (h.hear ev).policy = h.policy := by
  unfold hear
  split
  · rfl
  · rfl
  · unfold claimTrial
    split
    · rfl
    · split
      · rfl
      · rfl

theorem entry_insert (h : Health) (c b : Backend) (e : Entry) (n : Nat) :
    entry b { h with backends := h.backends.insert c e, ejections := n } =
      if b = c then e else h.entry b := by
  unfold entry
  dsimp only
  rw [AList.lookup_insert_eq]
  split
  · rfl
  · rfl

/-- What is heard changes the entry of the backend it is about. -/
theorem entry_hear (h : Health) (ev : Event) (b : Backend) :
    (h.hear ev).entry b =
      if ev.backend = b then
        match ev.report with
        | .failure => ((h.entry b).failure h.policy ev.now).1
        | .success => (h.entry b).success h.policy
        | .trial =>
          if (h.entry b).state ev.now = .halfOpen ∧ (h.entry b).trialInFlight = false then
            { h.entry b with trialInFlight := true }
          else h.entry b
      else h.entry b := by
  unfold hear
  cases ev.report with
  | failure =>
    refine (entry_insert h ev.backend b _ _).trans ?_
    by_cases about : b = ev.backend
    · subst about
      rw [if_pos rfl, if_pos rfl]
      rfl
    · rw [if_neg about, if_neg (Ne.symm about)]
  | success =>
    refine (entry_insert h ev.backend b _ _).trans ?_
    by_cases about : b = ev.backend
    · subst about
      rw [if_pos rfl]
    · rw [if_neg about, if_neg (Ne.symm about)]
  | trial =>
    dsimp only
    unfold claimTrial
    cases known : h.backends.lookup ev.backend with
    | none =>
      by_cases about : ev.backend = b
      · subst about
        have untouched : h.entry ev.backend = .new h.policy := by rw [entry, known]; rfl
        have healthy : ¬ ((Entry.new h.policy).state ev.now = .halfOpen ∧
            (Entry.new h.policy).trialInFlight = false) :=
          fun half => State.noConfusion (half.1 : State.healthy = .halfOpen)
        rw [if_pos rfl, untouched, if_neg healthy]
      · rw [if_neg about]
    | some e =>
      have entry_eq : h.entry ev.backend = e := by rw [entry, known]; rfl
      dsimp only
      by_cases free : e.state ev.now = .halfOpen ∧ e.trialInFlight = false
      · rw [if_pos free]
        refine (entry_insert h ev.backend b _ _).trans ?_
        by_cases about : b = ev.backend
        · subst about
          rw [if_pos rfl, if_pos rfl, entry_eq, if_pos free]
        · rw [if_neg about, if_neg (Ne.symm about)]
      · rw [if_neg free]
        by_cases about : ev.backend = b
        · rw [if_pos about, ← about, entry_eq, if_neg free]
        · rw [if_neg about]

theorem reads_after (some_failures : 1 ≤ policy.ejectAfter)
    (grows : policy.baseBackoff ≤ policy.maxBackoff) (b : Backend) (history : List Event) :
    (after policy history).policy = policy ∧
      Reads policy ((after policy history).entry b) (standing policy b history) := by
  induction history using List.reverseRecOn with
  | nil => exact ⟨rfl, .start some_failures grows⟩
  | append_singleton history ev ih =>
    obtain ⟨same, reads⟩ := ih
    unfold after standing at *
    rw [List.foldl_concat, List.foldl_concat, hear_policy]
    refine ⟨same, ?_⟩
    rw [entry_hear, same]
    by_cases about : ev.backend = b
    · rw [if_pos about, if_pos about]
      cases ev.report with
      | failure => exact (reads.failure ev.now).2
      | success => exact .start some_failures grows
      | trial => exact reads.claim ev.now
    · rw [if_neg about, if_neg about]
      exact reads

/-- A backend nothing was reported about is healthy. -/
theorem admits_eq (now : Instant) (h : Health) (b : Backend) :
    h.admits now b = (h.entry b).eligible now := by
  unfold admits entry
  split
  · rename_i unknown
    rw [unknown]
    rfl
  · rename_i e known
    rw [known]
    rfl

theorem onTrial_eq (h : Health) (b : Backend) : h.onTrial b = (h.entry b).trialInFlight := by
  unfold onTrial entry
  cases h.backends.lookup b with
  | none => rfl
  | some e => rfl

theorem after_snoc (policy : Policy) (history : List Event) (ev : Event) :
    after policy (history ++ [ev]) = (after policy history).hear ev := List.foldl_concat ..

/-- The candidates that are offered when there are any. -/
theorem offered_of_eligible (h : Health) (candidates : List BackendLoad) (now : Instant) :
    ∃ offered, offered <+ candidates ∧
      candidates.filter (fun c => h.state c.backend now = .healthy) <+ offered ∧
      (∀ c ∈ offered, h.state c.backend now ≠ .ejected) ∧
      h.eligible candidates now = if offered = [] then candidates else offered := by
  refine ⟨candidates.filter fun c => h.admits now c.backend, List.filter_sublist, ?_, ?_, rfl⟩
  · refine List.monotone_filter_right candidates fun c healthy => ?_
    rw [admits_eq, Entry.eligible]
    rw [show (h.entry c.backend).state now = .healthy from of_decide_eq_true healthy]
  · intro c hc ejected
    have admitted := (List.mem_filter.mp hc).2
    rw [admits_eq, Entry.eligible] at admitted
    rw [show (h.entry c.backend).state now = .ejected from ejected] at admitted
    exact Bool.noConfusion admitted

/-- The machine of ejections, over any history of what was reported about the backends: a
    failure ejects a backend exactly when it is on trial or when, since its last success,
    `ejectAfter` failures have now been reported while it was not ejected; its `k`-th ejection
    since then lasts `min (base · 2 ^ (k - 1)) max`; a success clears it. The backends offered
    are some of the candidates, every healthy one and none ejected, or all if that is none. -/
theorem passive_health {policy : Policy} (some_failures : 1 ≤ policy.ejectAfter)
    (grows : policy.baseBackoff ≤ policy.maxBackoff) (history : List Event) :
    (∀ b, (∀ now,
        (after policy history).state b now = (standing policy b history).state policy now) ∧
      (after policy history).onTrial b = (standing policy b history).onTrial ∧
      (∀ ev, ((after policy (history ++ [ev])).entry b).ejections =
          ((after policy history).entry b).ejections + 1 ↔
        ev.backend = b ∧ ev.report = .failure ∧
          (standing policy b history).ejects policy ev.now) ∧
      ∀ now, (after policy (history ++ [⟨b, now, .success⟩])).entry b =
        { Entry.new policy with ejections := ((after policy history).entry b).ejections }) ∧
    ∀ candidates now, ∃ offered, offered <+ candidates ∧
      candidates.filter (fun c => (after policy history).state c.backend now = .healthy) <+ offered ∧
      (∀ c ∈ offered, (after policy history).state c.backend now ≠ .ejected) ∧
      (after policy history).eligible candidates now =
        if offered = [] then candidates else offered := by
  refine ⟨fun b => ?_, offered_of_eligible _⟩
  obtain ⟨same, reads⟩ := reads_after some_failures grows b history
  refine ⟨reads.state, ?_, fun ev => ?_, fun now => ?_⟩
  · rw [onTrial_eq]
    exact reads.trial
  · rw [after_snoc, entry_hear, same]
    by_cases about : ev.backend = b
    · rw [if_pos about]
      cases told : ev.report with
      | failure =>
        rw [Entry.failure_ejections, (reads.failure ev.now).1, decide_eq_true_iff]
        exact ⟨fun ejects => ⟨about, rfl, ejects⟩, fun h => h.2.2⟩
      | success => exact iff_of_false (Nat.ne_of_lt (Nat.lt_succ_self _)) fun h => nomatch h.2.1
      | trial =>
        have kept : ∀ e : Entry, (if e.state ev.now = .halfOpen ∧ e.trialInFlight = false then
            { e with trialInFlight := true } else e).ejections = e.ejections := by
          intro e
          split
          · rfl
          · rfl
        refine iff_of_false (fun h => ?_) fun h => nomatch h.2.1
        exact Nat.ne_of_lt (Nat.lt_succ_self _) ((kept _).symm.trans h)
    · rw [if_neg about]
      exact iff_of_false (Nat.ne_of_lt (Nat.lt_succ_self _)) fun h => about h.1
  · rw [after_snoc, entry_hear, if_pos rfl, same]
    rfl

/-- Two failures eject for the base backoff, and a failed trial for twice as long. -/
theorem passive_health_two :
    let policy : Policy := ⟨2, 10, 30, 60⟩
    let history : List Event :=
      [⟨⟨1⟩, 0, .failure⟩, ⟨⟨1⟩, 3, .failure⟩, ⟨⟨1⟩, 13, .trial⟩, ⟨⟨1⟩, 14, .failure⟩]
    (after policy history).state ⟨1⟩ 33 = .ejected ∧
      (after policy history).state ⟨1⟩ 34 = .halfOpen := by
  have failures : 1 ≤ (⟨2, 10, 30, 60⟩ : Policy).ejectAfter := by decide
  have h := (passive_health failures (by decide)
    [⟨⟨1⟩, 0, .failure⟩, ⟨⟨1⟩, 3, .failure⟩, ⟨⟨1⟩, 13, .trial⟩, ⟨⟨1⟩, 14, .failure⟩]).1 ⟨1⟩
  exact ⟨(h.1 33).trans (by decide), (h.1 34).trans (by decide)⟩

end Health

end H2Proxy
