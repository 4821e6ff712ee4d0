import H2Proxy.Guard
import Mathlib.Tactic.Linarith

/-
  A token bucket refuses an event exactly when, on some window that ends there, the events
  outnumber the burst and what the rate allows in the window's time.

  `le_level_feed` is the invariant: the tokens of a bucket that has refused nothing are the
  least that any window leaves.
-/

namespace H2Proxy

/-- A span of time in seconds. -/
def seconds (d : Duration) : Rat := (d : Rat) / 1000000000

/-- On some window that ends with the last of these events, they outnumber the budget. -/
def Over (burst rate : Rat) (times : List Instant) : Prop :=
  ∃ last, times.getLast? = some last ∧ ∃ (m : Nat) (t : Instant), times[m]? = some t ∧
    burst + rate * seconds (last - t) < (times.length : Rat) - m

namespace Bucket

/-- The answers to events at these times, and the bucket after them. -/
def answers (b : Bucket) : List Instant → List Bool
  | [] => []
  | t :: times => (b.take t).2 :: (b.take t).1.answers times

def feed (b : Bucket) (times : List Instant) : Bucket := times.foldl (fun b t => (b.take t).1) b

theorem feed_snoc (b : Bucket) (times : List Instant) (t : Instant) :
    b.feed (times ++ [t]) = ((b.feed times).take t).1 := by
  unfold feed
  rw [List.foldl_append, List.foldl_cons, List.foldl_nil]

theorem answers_getElem? (b : Bucket) (times : List Instant) (n : Nat) :
    (b.answers times)[n]? = times[n]?.map fun t => ((b.feed (times.take n)).take t).2 := by
  induction times generalizing b n with
  | nil => rfl
  | cons t times ih =>
    cases n with
    | zero => rfl
    | succ n => exact ih (b.take t).1 n

theorem feed_rate (b : Bucket) (times : List Instant) : (b.feed times).rate = b.rate := by
  induction times generalizing b with
  | nil => rfl
  | cons t times ih => exact (ih _).trans take_rate

theorem feed_burst (b : Bucket) (times : List Instant) : (b.feed times).burst = b.burst := by
  induction times generalizing b with
  | nil => rfl
  | cons t times ih => exact (ih _).trans take_burst

/-- The level of a bucket that has just let an event through. -/
theorem level_after_take {b : Bucket} {u : Instant} (h : (b.take u).2 = true) (t : Instant) :
    (b.take u).1.level t = min (b.level u - 1 + seconds (t - u) * b.rate) b.burst := by
  have enough : ¬ b.level u < 1 := not_lt.mpr (take_iff.mp h)
  unfold take
  dsimp only
  unfold level at enough
  rw [if_neg enough]
  rfl

theorem seconds_add {t u v : Nat} (htu : t ≤ u) (huv : u ≤ v) :
    seconds (v - t) = seconds (v - u) + seconds (u - t) := by
  have whole : v - t = (v - u) + (u - t) := by omega
  unfold seconds
  rw [whole, Nat.cast_add, add_div]

/-- No event is refused. -/
def Passes (b : Bucket) (times : List Instant) : Prop :=
  ∀ (n : Nat) (t : Instant), times[n]? = some t → ((b.feed (times.take n)).take t).2 = true

theorem Passes.snoc {b : Bucket} {times : List Instant} {u : Instant} :
    b.Passes (times ++ [u]) ↔ b.Passes times ∧ ((b.feed times).take u).2 = true := by
  constructor
  · intro h
    refine ⟨fun n t ht => ?_, ?_⟩
    · obtain ⟨hn, -⟩ := List.getElem?_eq_some_iff.mp ht
      have := h n t (by rw [List.getElem?_append_left hn, ht])
      rwa [List.take_append_of_le_length (Nat.le_of_lt hn)] at this
    · have := h times.length u (by simp)
      rwa [List.take_left] at this
  · rintro ⟨h, hu⟩ n t ht
    by_cases hn : n < times.length
    · rw [List.getElem?_append_left hn] at ht
      rw [List.take_append_of_le_length (Nat.le_of_lt hn)]
      exact h n t ht
    · have hlast : n = times.length := by
        obtain ⟨hlt, -⟩ := List.getElem?_eq_some_iff.mp ht
        rw [List.length_append, List.length_singleton] at hlt
        omega
      subst hlast
      rw [List.getElem?_concat_length] at ht
      cases ht
      rw [List.take_left]
      exact hu

/-- The tokens of a bucket that has refused nothing are the least that any window leaves. The
    induction is on the events from the last: each one turns the windows so far into longer
    ones and begins one of its own. -/
theorem le_level_feed {burst rate : Rat} {start : Instant} (hrate : 0 ≤ rate)
    {times : List Instant} (mono : times.Pairwise (· ≤ ·))
    (passed : (new burst rate start).Passes times) {t : Instant} (later : ∀ u ∈ times, u ≤ t)
    (x : Rat) :
    x ≤ ((new burst rate start).feed times).level t ↔
      x ≤ burst ∧ ∀ (m : Nat) (u : Instant), times[m]? = some u →
        x + ((times.length : Rat) - m) ≤ burst + rate * seconds (t - u) := by
  induction times using List.reverseRecOn generalizing t x with
  | nil =>
    have grown : 0 ≤ seconds (t - start) * rate := by
      unfold seconds
      positivity
    show x ≤ min (burst + seconds (t - start) * rate) burst ↔ _
    rw [min_eq_right (by linarith)]
    exact ⟨fun h => ⟨h, nofun⟩, fun h => h.1⟩
  | append_singleton times u ih =>
    obtain ⟨hpass, htake⟩ := Passes.snoc.mp passed
    obtain ⟨hmono, -, hlast⟩ := List.pairwise_append.mp mono
    have before : ∀ v ∈ times, v ≤ u := fun v hv => hlast v hv u List.mem_cons_self
    have hut : u ≤ t := later u (by simp)
    have shifted := ih hmono hpass before (x + 1 - rate * seconds (t - u))
    rw [feed_snoc, level_after_take htake, feed_rate, feed_burst, le_min_iff]
    have hmove : x ≤ ((new burst rate start).feed times).level u - 1 + seconds (t - u) * rate ↔
        x + 1 - rate * seconds (t - u) ≤ ((new burst rate start).feed times).level u := by
      constructor <;> intro h <;> linarith
    show x ≤ _ - 1 + seconds (t - u) * rate ∧ x ≤ burst ↔ _
    rw [hmove, shifted, List.length_append, List.length_singleton]
    constructor
    · rintro ⟨⟨hnow, hwindows⟩, hburst⟩
      refine ⟨hburst, fun m v hv => ?_⟩
      by_cases hm : m < times.length
      · rw [List.getElem?_append_left hm] at hv
        have hold := hwindows m v hv
        rw [seconds_add (before v (List.mem_of_getElem? hv)) hut, mul_add]
        push_cast
        linarith
      · have hm : m = times.length := by
          obtain ⟨hlt, -⟩ := List.getElem?_eq_some_iff.mp hv
          rw [List.length_append, List.length_singleton] at hlt
          omega
        subst hm
        rw [List.getElem?_concat_length] at hv
        cases hv
        push_cast
        linarith
    · rintro ⟨hburst, hwindows⟩
      refine ⟨⟨?_, fun m v hv => ?_⟩, hburst⟩
      · have hown := hwindows times.length u List.getElem?_concat_length
        push_cast at hown
        linarith
      · obtain ⟨hm, -⟩ := List.getElem?_eq_some_iff.mp hv
        have hlong := hwindows m v (by rw [List.getElem?_append_left hm, hv])
        rw [seconds_add (before v (List.mem_of_getElem? hv)) hut, mul_add] at hlong
        push_cast at hlong
        linarith

/-- After events that were let through, the next is refused where it makes them too many on some
    window that it ends. -/
theorem refuses_iff {burst rate : Rat} {start : Instant} (hrate : 0 ≤ rate)
    {times : List Instant} {u : Instant} (mono : (times ++ [u]).Pairwise (· ≤ ·))
    (passed : (new burst rate start).Passes times) :
    (((new burst rate start).feed times).take u).2 = false ↔ Over burst rate (times ++ [u]) := by
  obtain ⟨hmono, -, hlast⟩ := List.pairwise_append.mp mono
  have before : ∀ v ∈ times, v ≤ u := fun v hv => hlast v hv u List.mem_cons_self
  have level := le_level_feed hrate hmono passed before 1
  rw [← Bool.not_eq_true, take_iff, level]
  have none_since : seconds (u - u) = 0 := by
    unfold seconds
    rw [Nat.sub_self, Nat.cast_zero, zero_div]
  constructor
  · intro short
    refine ⟨u, List.getLast?_concat, ?_⟩
    rw [List.length_append, List.length_singleton]
    by_contra within
    push Not at within
    refine short ⟨?_, fun m v hv => ?_⟩
    · have := within times.length u List.getElem?_concat_length
      rw [none_since] at this
      push_cast at this
      linarith
    · obtain ⟨hm, -⟩ := List.getElem?_eq_some_iff.mp hv
      have := within m v (by rw [List.getElem?_append_left hm, hv])
      push_cast at this
      linarith
  · rintro ⟨last, hlast, m, v, hv, hover⟩ ⟨hburst, hwindows⟩
    rw [List.getLast?_concat] at hlast
    cases hlast
    rw [List.length_append, List.length_singleton] at hover
    push_cast at hover
    by_cases hm : m < times.length
    · rw [List.getElem?_append_left hm] at hv
      have := hwindows m v hv
      linarith
    · have hm : m = times.length := by
        obtain ⟨hlt, -⟩ := List.getElem?_eq_some_iff.mp hv
        rw [List.length_append, List.length_singleton] at hlt
        omega
      subst hm
      rw [List.getElem?_concat_length] at hv
      cases hv
      rw [none_since] at hover
      linarith

/-- A bucket has refused nothing while no window was over its budget. -/
theorem passes_iff {burst rate : Rat} {start : Instant} (hrate : 0 ≤ rate) {times : List Instant}
    (mono : times.Pairwise (· ≤ ·)) :
    (new burst rate start).Passes times ↔
      ∀ n < times.length, ¬ Over burst rate (times.take (n + 1)) := by
  induction times using List.reverseRecOn with
  | nil => exact ⟨fun _ => nofun, fun _ => nofun⟩
  | append_singleton times u ih =>
    have hmono := (List.pairwise_append.mp mono).1
    rw [Passes.snoc, ih hmono]
    have front : ∀ n < times.length, (times ++ [u]).take (n + 1) = times.take (n + 1) :=
      fun n hn => List.take_append_of_le_length hn
    have whole : (times ++ [u]).take (times.length + 1) = times ++ [u] := by
      rw [List.take_of_length_le (by simp)]
    constructor
    · rintro ⟨hold, htook⟩ n hn
      rw [List.length_append, List.length_singleton] at hn
      by_cases hlt : n < times.length
      · rw [front n hlt]
        exact hold n hlt
      · have hn : n = times.length := by omega
        subst hn
        rw [whole, ← refuses_iff hrate mono ((ih hmono).mpr hold), htook]
        nofun
    · intro hall
      have hold : ∀ n < times.length, ¬ Over burst rate (times.take (n + 1)) := by
        intro n hn
        rw [← front n hn]
        exact hall n (by rw [List.length_append]; omega)
      refine ⟨hold, ?_⟩
      have hlast := hall times.length (by simp)
      rw [whole, ← refuses_iff hrate mono ((ih hmono).mpr hold)] at hlast
      simpa using hlast

/-- The first refusal, among the answers to events at these times. -/
def FirstRefuses (b : Bucket) (times : List Instant) (n : Nat) : Prop :=
  (b.answers times)[n]? = some false ∧ ∀ k < n, (b.answers times)[k]? = some true

theorem passes_take {b : Bucket} {times : List Instant} {n : Nat} (hn : n ≤ times.length) :
    b.Passes (times.take n) ↔ ∀ k < n, (b.answers times)[k]? = some true := by
  have prior : ∀ k < n, (times.take n).take k = times.take k := by
    intro k hk
    rw [List.take_take, Nat.min_eq_left (Nat.le_of_lt hk)]
  constructor
  · intro h k hk
    obtain ⟨t, ht⟩ : ∃ t, times[k]? = some t := ⟨times[k], List.getElem?_eq_getElem (by omega)⟩
    have := h k t (by rw [List.getElem?_take_of_lt hk, ht])
    rw [prior k hk] at this
    rw [answers_getElem?, ht, Option.map_some, this]
  · intro h k t ht
    obtain ⟨hlt, -⟩ := List.getElem?_eq_some_iff.mp ht
    have hk : k < n := by
      rw [List.length_take] at hlt
      omega
    rw [List.getElem?_take_of_lt hk] at ht
    have := h k hk
    rw [answers_getElem?, ht, Option.map_some] at this
    rw [prior k hk]
    exact Option.some.inj this

/-- A bucket first refuses the event that is the first to be one too many on a window. -/
theorem firstRefuses_iff {burst rate : Rat} {start : Instant} (hrate : 0 ≤ rate)
    {times : List Instant} (mono : times.Pairwise (· ≤ ·)) (n : Nat) :
    (new burst rate start).FirstRefuses times n ↔
      n < times.length ∧ Over burst rate (times.take (n + 1)) ∧
        ∀ k < n, ¬ Over burst rate (times.take (k + 1)) := by
  unfold FirstRefuses
  by_cases hn : n < times.length
  · have hmono : (times.take n).Pairwise (· ≤ ·) := mono.sublist (List.take_sublist _ _)
    have next : times.take (n + 1) = times.take n ++ [times[n]] :=
      (List.take_concat_get' times n hn).symm
    have hmono' : (times.take n ++ [times[n]]).Pairwise (· ≤ ·) :=
      next ▸ mono.sublist (List.take_sublist _ _)
    have earlier : ((∀ k < n, ((new burst rate start).answers times)[k]? = some true) ↔
        ∀ k < n, ¬ Over burst rate (times.take (k + 1))) := by
      rw [← passes_take (Nat.le_of_lt hn), passes_iff hrate hmono, List.length_take,
        Nat.min_eq_left (Nat.le_of_lt hn)]
      refine forall₂_congr fun k hk => ?_
      rw [List.take_take, Nat.min_eq_left hk]
    rw [answers_getElem?, List.getElem?_eq_getElem hn, Option.map_some, Option.some_inj]
    constructor
    · rintro ⟨hrefused, hpassed⟩
      have passes := (passes_take (Nat.le_of_lt hn)).mpr hpassed
      refine ⟨hn, ?_, earlier.mp hpassed⟩
      rw [next]
      exact (refuses_iff hrate hmono' passes).mp hrefused
    · rintro ⟨-, hover, hleast⟩
      have hpassed := earlier.mpr hleast
      have passes := (passes_take (Nat.le_of_lt hn)).mpr hpassed
      rw [next] at hover
      exact ⟨(refuses_iff hrate hmono' passes).mpr hover, hpassed⟩
  · constructor
    · rintro ⟨hrefused, -⟩
      rw [answers_getElem?, List.getElem?_eq_none (Nat.le_of_not_lt hn)] at hrefused
      cases hrefused
    · exact fun h => absurd h.1 hn

theorem Passes.snoc_iff {burst rate : Rat} {start : Instant} (hrate : 0 ≤ rate)
    {times : List Instant} {u : Instant} (mono : (times ++ [u]).Pairwise (· ≤ ·)) :
    (new burst rate start).Passes (times ++ [u]) ↔
      (new burst rate start).Passes times ∧ ¬ Over burst rate (times ++ [u]) := by
  rw [Passes.snoc]
  refine and_congr_right fun passed => ?_
  rw [← refuses_iff hrate mono passed, Bool.not_eq_false]

theorem Passes.not_over {burst rate : Rat} {start : Instant} (hrate : 0 ≤ rate)
    {times : List Instant} (mono : times.Pairwise (· ≤ ·))
    (passed : (new burst rate start).Passes times) : ¬ Over burst rate times := by
  rcases List.eq_nil_or_concat' times with rfl | ⟨front, u, rfl⟩
  · rintro ⟨last, hlast, -⟩
    cases hlast
  · exact ((Passes.snoc_iff hrate mono).mp passed).2

end Bucket

/-! ## The two buckets of resets -/

namespace Guard

/-- A client reset: whether its stream had been answered, and when. -/
structure Reset where
  answered : Bool
  at_ : Instant

def times (resets : List Reset) : List Instant := resets.map Reset.at_

/-- The times of the resets of streams not yet answered. -/
def unansweredTimes (resets : List Reset) : List Instant :=
  times (resets.filter fun r => !r.answered)

/-- With the last of these resets one of the two budgets is exceeded on some window. -/
def Exceeded (limits : Limits) (resets : List Reset) : Prop :=
  Over limits.resetBurst limits.resetRate (times resets) ∨
    Over limits.unansweredBurst limits.unansweredRate (unansweredTimes resets)

/-- The guard after these resets. -/
def afterResets (g : Guard) (resets : List Reset) : Guard :=
  resets.foldl (fun g r => (g.onReset r.answered r.at_).1) g

/-- The verdicts on these resets. -/
def verdicts (g : Guard) : List Reset → List Verdict
  | [] => []
  | r :: resets => (g.onReset r.answered r.at_).2 :: (g.onReset r.answered r.at_).1.verdicts resets

theorem verdicts_getElem? (g : Guard) (resets : List Reset) (n : Nat) :
    (g.verdicts resets)[n]? =
      resets[n]?.map fun r => ((g.afterResets (resets.take n)).onReset r.answered r.at_).2 := by
  induction resets generalizing g n with
  | nil => rfl
  | cons r resets ih =>
    cases n with
    | zero => rfl
    | succ n => exact ih _ n

theorem onReset_limits (g : Guard) (answered : Bool) (now : Instant) :
    (g.onReset answered now).1.limits = g.limits := (onReset_drawn g answered).limits

theorem onReset_resets (g : Guard) (answered : Bool) (now : Instant) :
    (g.onReset answered now).1.resets = (g.resets.take now).1 := by
  unfold onReset
  dsimp only
  split
  · rfl
  · split
    · rfl
    · rfl

/-- The second bucket is charged only where the first let the reset through. -/
theorem onReset_unanswered {g : Guard} {now : Instant} (took : (g.resets.take now).2 = true)
    (answered : Bool) : (g.onReset answered now).1.unanswered =
      if answered then g.unanswered else (g.unanswered.take now).1 := by
  unfold onReset
  dsimp only
  rw [took]
  cases answered with
  | true => rfl
  | false => rfl

/-- A verdict trips only where the guard enforces. -/
theorem verdict_eq_ok (g : Guard) (signal : Signal) :
    g.verdict signal = .ok ↔ g.limits.observeOnly = true := by
  unfold verdict
  split
  · rename_i h
    exact ⟨fun _ => h, fun _ => rfl⟩
  · rename_i h
    exact ⟨nofun, fun h' => absurd h' h⟩

theorem onReset_eq_ok (g : Guard) (answered : Bool) (now : Instant) :
    (g.onReset answered now).2 = .ok ↔ g.limits.observeOnly = true ∨
      (g.resets.take now).2 = true ∧ (answered = true ∨ (g.unanswered.take now).2 = true) := by
  unfold onReset
  dsimp only
  cases (g.resets.take now).2 with
  | false =>
    simp only [Bool.not_false, if_true]
    rw [verdict_eq_ok]
    simp
  | true =>
    simp only [Bool.not_true, Bool.false_eq_true, if_false]
    cases answered with
    | true => simp
    | false =>
      simp only [Bool.not_false, if_true]
      cases (g.unanswered.take now).2 with
      | true => simp
      | false =>
        simp only [Bool.false_eq_true, if_false]
        rw [verdict_eq_ok]
        simp

variable {limits : Limits} {start : Instant}

/-- Both buckets would let these resets through. -/
structure Within (limits : Limits) (start : Instant) (resets : List Reset) : Prop where
  all : (Bucket.new limits.resetBurst limits.resetRate start).Passes (times resets)
  unanswered :
    (Bucket.new limits.unansweredBurst limits.unansweredRate start).Passes (unansweredTimes resets)

theorem times_snoc (resets : List Reset) (r : Reset) :
    times (resets ++ [r]) = times resets ++ [r.at_] := List.map_append ..

theorem unansweredTimes_snoc (resets : List Reset) (r : Reset) :
    unansweredTimes (resets ++ [r]) =
      if r.answered then unansweredTimes resets else unansweredTimes resets ++ [r.at_] := by
  unfold unansweredTimes
  rw [List.filter_append]
  cases h : r.answered with
  | true =>
    rw [List.filter_cons_of_neg (by simp [h]), List.filter_nil, List.append_nil]
    rfl
  | false =>
    rw [List.filter_cons_of_pos (by simp [h]), List.filter_nil, times_snoc]
    rfl

theorem unansweredTimes_sublist (resets : List Reset) :
    (unansweredTimes resets).Sublist (times resets) := List.filter_sublist.map _

/-- What the buckets hold while neither has refused. -/
theorem afterResets_buckets {resets : List Reset} (h : Within limits start resets) :
    ((new limits start).afterResets resets).limits = limits ∧
      ((new limits start).afterResets resets).resets =
        (Bucket.new limits.resetBurst limits.resetRate start).feed (times resets) ∧
      ((new limits start).afterResets resets).unanswered =
        (Bucket.new limits.unansweredBurst limits.unansweredRate start).feed
          (unansweredTimes resets) := by
  induction resets using List.reverseRecOn with
  | nil => exact ⟨rfl, rfl, rfl⟩
  | append_singleton resets r ih =>
    obtain ⟨hresets, hunanswered⟩ := h
    rw [times_snoc, Bucket.Passes.snoc] at hresets
    have hpast : (Bucket.new limits.unansweredBurst limits.unansweredRate start).Passes
        (unansweredTimes resets) := by
      rw [unansweredTimes_snoc] at hunanswered
      split at hunanswered
      · exact hunanswered
      · exact (Bucket.Passes.snoc.mp hunanswered).1
    obtain ⟨hl, hr, hu⟩ := ih ⟨hresets.1, hpast⟩
    have step : (new limits start).afterResets (resets ++ [r]) =
        (((new limits start).afterResets resets).onReset r.answered r.at_).1 :=
      List.foldl_append ..
    have took := hresets.2
    rw [← hr] at took
    rw [step, onReset_limits, onReset_resets, onReset_unanswered took, hl, hr, hu, times_snoc,
      unansweredTimes_snoc, Bucket.feed_snoc]
    refine ⟨rfl, rfl, ?_⟩
    split
    · rfl
    · rw [Bucket.feed_snoc]

/-- A reset is let through where the guard only observes, or where both buckets let it. -/
theorem onReset_ok_iff {resets : List Reset} (h : Within limits start resets) (r : Reset) :
    (((new limits start).afterResets resets).onReset r.answered r.at_).2 = .ok ↔
      limits.observeOnly = true ∨ Within limits start (resets ++ [r]) := by
  obtain ⟨hl, hr, hu⟩ := afterResets_buckets h
  rw [onReset_eq_ok, hl, hr, hu]
  refine or_congr_right ?_
  constructor
  · rintro ⟨htook, hsecond⟩
    refine ⟨?_, ?_⟩
    · rw [times_snoc, Bucket.Passes.snoc]
      exact ⟨h.all, htook⟩
    · rw [unansweredTimes_snoc]
      split
      · exact h.unanswered
      · rename_i open_
        exact Bucket.Passes.snoc.mpr ⟨h.unanswered, hsecond.resolve_left open_⟩
  · rintro ⟨hresets, hunanswered⟩
    rw [times_snoc, Bucket.Passes.snoc] at hresets
    refine ⟨hresets.2, ?_⟩
    rw [unansweredTimes_snoc] at hunanswered
    split at hunanswered
    · rename_i closed
      exact .inl closed
    · exact .inr (Bucket.Passes.snoc.mp hunanswered).2

/-- Resets in order of time. -/
def InOrder (resets : List Reset) : Prop := (times resets).Pairwise (· ≤ ·)

theorem InOrder.take {resets : List Reset} (h : InOrder resets) (n : Nat) :
    InOrder (resets.take n) := by
  unfold InOrder times at *
  rw [List.map_take]
  exact h.sublist (List.take_sublist _ _)

/-- Both buckets let one more reset through while it exceeds no budget. -/
theorem within_snoc (hreset : 0 ≤ limits.resetRate) (hunanswered : 0 ≤ limits.unansweredRate)
    {resets : List Reset} {r : Reset} (mono : InOrder (resets ++ [r])) :
    Within limits start (resets ++ [r]) ↔
      Within limits start resets ∧ ¬ Exceeded limits (resets ++ [r]) := by
  have hmono := mono
  unfold InOrder at hmono
  rw [times_snoc] at hmono
  have hsome : (unansweredTimes (resets ++ [r])).Pairwise (· ≤ ·) :=
    List.Pairwise.sublist (unansweredTimes_sublist _) mono
  unfold Exceeded
  constructor
  · rintro ⟨hfirst, hsecond⟩
    have hnot := hsecond.not_over hunanswered hsome
    rw [times_snoc, Bucket.Passes.snoc_iff hreset hmono] at hfirst
    refine ⟨⟨hfirst.1, ?_⟩, ?_⟩
    · rw [unansweredTimes_snoc] at hsecond
      split at hsecond
      · exact hsecond
      · exact (Bucket.Passes.snoc.mp hsecond).1
    · rw [times_snoc]
      exact not_or.mpr ⟨hfirst.2, hnot⟩
  · rintro ⟨⟨hfirst, hsecond⟩, hnot⟩
    obtain ⟨hfirst', hsecond'⟩ := not_or.mp hnot
    rw [times_snoc] at hfirst'
    refine ⟨?_, ?_⟩
    · rw [times_snoc]
      exact (Bucket.Passes.snoc_iff hreset hmono).mpr ⟨hfirst, hfirst'⟩
    · rw [unansweredTimes_snoc] at hsecond' hsome ⊢
      split
      · exact hsecond
      · rename_i open_
        rw [if_neg open_] at hsecond' hsome
        exact (Bucket.Passes.snoc_iff hunanswered hsome).mpr ⟨hsecond, hsecond'⟩

theorem within_iff (hreset : 0 ≤ limits.resetRate) (hunanswered : 0 ≤ limits.unansweredRate)
    {resets : List Reset} (mono : InOrder resets) :
    Within limits start resets ↔
      ∀ n < resets.length, ¬ Exceeded limits (resets.take (n + 1)) := by
  induction resets using List.reverseRecOn with
  | nil => exact ⟨fun _ => nofun, fun _ => ⟨nofun, nofun⟩⟩
  | append_singleton resets r ih =>
    have hmono : InOrder resets := by
      have := mono.take resets.length
      rwa [List.take_left] at this
    rw [within_snoc hreset hunanswered mono, ih hmono, List.length_append, List.length_singleton]
    have front : ∀ n < resets.length, (resets ++ [r]).take (n + 1) = resets.take (n + 1) :=
      fun n hn => List.take_append_of_le_length hn
    have whole : (resets ++ [r]).take (resets.length + 1) = resets ++ [r] :=
      List.take_of_length_le (by simp)
    constructor
    · rintro ⟨hold, hlast⟩ n hn
      by_cases hlt : n < resets.length
      · rw [front n hlt]
        exact hold n hlt
      · have hn : n = resets.length := by omega
        rw [hn, whole]
        exact hlast
    · intro hall
      refine ⟨fun n hn => ?_, ?_⟩
      · rw [← front n hn]
        exact hall n (by omega)
      · rw [← whole]
        exact hall resets.length (by omega)

/-- Where the guard enforces, it has let every reset through while both buckets did. -/
theorem verdicts_ok_iff (enforcing : limits.observeOnly = false) {resets : List Reset} {n : Nat}
    (hn : n ≤ resets.length) :
    (∀ k < n, ((new limits start).verdicts resets)[k]? = some .ok) ↔
      Within limits start (resets.take n) := by
  induction n with
  | zero => exact ⟨fun _ => ⟨nofun, nofun⟩, fun _ => nofun⟩
  | succ n ih =>
    have hlt : n < resets.length := by omega
    have next : resets.take (n + 1) = resets.take n ++ [resets[n]] :=
      (List.take_concat_get' resets n hlt).symm
    have last : Within limits start (resets.take n) →
        (((new limits start).verdicts resets)[n]? = some .ok ↔
          Within limits start (resets.take (n + 1))) := by
      intro h
      rw [verdicts_getElem?, List.getElem?_eq_getElem hlt, Option.map_some, Option.some_inj,
        onReset_ok_iff h, next, enforcing]
      exact or_iff_right nofun
    have earlier : Within limits start (resets.take (n + 1)) →
        Within limits start (resets.take n) := by
      rintro ⟨hall, hunanswered⟩
      rw [next, times_snoc, Bucket.Passes.snoc] at hall
      refine ⟨hall.1, ?_⟩
      rw [next, unansweredTimes_snoc] at hunanswered
      split at hunanswered
      · exact hunanswered
      · exact (Bucket.Passes.snoc.mp hunanswered).1
    constructor
    · intro h
      have hpast := (ih (by omega)).mp fun k hk => h k (by omega)
      exact (last hpast).mp (h n (by omega))
    · intro h k hk
      have hpast := earlier h
      rcases Nat.lt_succ_iff_lt_or_eq.mp hk with hk | rfl
      · exact (ih (by omega)).mpr hpast k hk
      · exact (last hpast).mpr h

theorem afterResets_limits (resets : List Reset) :
    ((new limits start).afterResets resets).limits = limits := by
  induction resets using List.reverseRecOn with
  | nil => rfl
  | append_singleton resets r ih =>
    have step : (new limits start).afterResets (resets ++ [r]) =
        (((new limits start).afterResets resets).onReset r.answered r.at_).1 :=
      List.foldl_append ..
    rw [step, onReset_limits, ih]

theorem trip_iff (v : Verdict) : (∃ signal, v = .trip signal) ↔ v ≠ .ok := by
  cases v with
  | ok => exact ⟨fun ⟨_, h⟩ => (nomatch h), fun h => absurd rfl h⟩
  | trip signal => exact ⟨fun _ => nofun, fun _ => ⟨signal, rfl⟩⟩

/-- The guard first trips where it enforces and a budget is first exceeded. -/
theorem firstTrips_iff (hreset : 0 ≤ limits.resetRate) (hunanswered : 0 ≤ limits.unansweredRate)
    {resets : List Reset} (mono : InOrder resets) (n : Nat) :
    ((∃ signal, ((new limits start).verdicts resets)[n]? = some (.trip signal)) ∧
      ∀ k < n, ((new limits start).verdicts resets)[k]? = some .ok) ↔
    limits.observeOnly = false ∧ n < resets.length ∧ Exceeded limits (resets.take (n + 1)) ∧
      ∀ k < n, ¬ Exceeded limits (resets.take (k + 1)) := by
  by_cases hn : n < resets.length
  · rw [verdicts_getElem?, List.getElem?_eq_getElem hn, Option.map_some]
    simp only [Option.some_inj, trip_iff]
    cases henforce : limits.observeOnly with
    | true =>
      have lax : (((new limits start).afterResets (resets.take n)).onReset resets[n].answered
          resets[n].at_).2 = .ok :=
        (onReset_eq_ok ..).mpr (.inl (by rw [afterResets_limits, henforce]))
      exact ⟨fun h => absurd lax h.1, fun h => (nomatch h.1)⟩
    | false =>
      have earlier : (∀ k < n, ((new limits start).verdicts resets)[k]? = some .ok) ↔
          ∀ k < n, ¬ Exceeded limits (resets.take (k + 1)) := by
        rw [verdicts_ok_iff henforce (Nat.le_of_lt hn),
          within_iff hreset hunanswered (mono.take n), List.length_take,
          Nat.min_eq_left (Nat.le_of_lt hn)]
        refine forall₂_congr fun k hk => ?_
        rw [List.take_take, Nat.min_eq_left hk]
      have next : resets.take (n + 1) = resets.take n ++ [resets[n]] :=
        (List.take_concat_get' resets n hn).symm
      have now : Within limits start (resets.take n) →
          ((((new limits start).afterResets (resets.take n)).onReset resets[n].answered
            resets[n].at_).2 ≠ .ok ↔ Exceeded limits (resets.take (n + 1))) := by
        intro h
        rw [Ne, onReset_ok_iff h, henforce, or_iff_right nofun,
          within_snoc hreset hunanswered (next ▸ mono.take (n + 1)), next]
        exact ⟨fun h' => by_contra fun hnot => h' ⟨h, hnot⟩, fun h' h'' => h''.2 h'⟩
      rw [earlier]
      constructor
      · rintro ⟨htrip, hleast⟩
        have h := (verdicts_ok_iff henforce (Nat.le_of_lt hn)).mp (earlier.mpr hleast)
        exact ⟨rfl, hn, (now h).mp htrip, hleast⟩
      · rintro ⟨-, -, hexceeded, hleast⟩
        have h := (verdicts_ok_iff henforce (Nat.le_of_lt hn)).mp (earlier.mpr hleast)
        exact ⟨(now h).mpr hexceeded, hleast⟩
  · constructor
    · rintro ⟨⟨signal, htrip⟩, -⟩
      rw [verdicts_getElem?, List.getElem?_eq_none (Nat.le_of_not_lt hn)] at htrip
      cases htrip
    · exact fun h => absurd h.2.1 hn

/-- Over exact arithmetic a bucket first refuses the event that is the first to outnumber, on
    some window it ends, the burst and what the rate gives in the window's time. So the guard
    first trips on the reset with which all resets, or those of unanswered streams, first
    exceed their budget on a window; and never where none does. -/
theorem budgets_exact {burst rate : Rat} (hrate : 0 ≤ rate) {limits : Limits}
    (hreset : 0 ≤ limits.resetRate) (hunanswered : 0 ≤ limits.unansweredRate) (start : Instant) :
    (∀ times : List Instant, times.Pairwise (· ≤ ·) → ∀ n : Nat,
      (Bucket.new burst rate start).FirstRefuses times n ↔
        n < times.length ∧ Over burst rate (times.take (n + 1)) ∧
          ∀ k < n, ¬ Over burst rate (times.take (k + 1))) ∧
    ∀ resets : List Reset, InOrder resets →
      (∀ n : Nat, ((∃ signal, ((new limits start).verdicts resets)[n]? = some (.trip signal)) ∧
          ∀ k < n, ((new limits start).verdicts resets)[k]? = some .ok) ↔
        limits.observeOnly = false ∧ n < resets.length ∧ Exceeded limits (resets.take (n + 1)) ∧
          ∀ k < n, ¬ Exceeded limits (resets.take (k + 1))) ∧
      ((∀ n < resets.length, ¬ Exceeded limits (resets.take (n + 1))) →
        ∀ n < resets.length, ((new limits start).verdicts resets)[n]? = some .ok) := by
  refine ⟨fun times mono n => Bucket.firstRefuses_iff hrate mono n, fun resets mono =>
    ⟨firstTrips_iff hreset hunanswered mono, fun none_over n hn => ?_⟩⟩
  have within : ∀ n ≤ resets.length, Within limits start (resets.take n) := by
    intro n hn
    rw [within_iff hreset hunanswered (mono.take n), List.length_take, Nat.min_eq_left hn]
    intro k hk
    rw [List.take_take, Nat.min_eq_left hk]
    exact none_over k (by omega)
  have next : resets.take (n + 1) = resets.take n ++ [resets[n]] :=
    (List.take_concat_get' resets n hn).symm
  rw [verdicts_getElem?, List.getElem?_eq_getElem hn, Option.map_some,
    (onReset_ok_iff (within n (Nat.le_of_lt hn)) resets[n]).mpr
      (.inr (next ▸ within (n + 1) hn))]

/-- Three events in one nanosecond against a burst of two: the third is refused, so a window is
    over its budget. -/
theorem budgets_exact_three : Over 2 0 [0, 0, 1] :=
  (((budgets_exact (le_refl 0) (by decide : (0 : Rat) ≤ Limits.default.resetRate)
    (by decide : (0 : Rat) ≤ Limits.default.unansweredRate) 0).1 [0, 0, 1] (by decide) 2).mp
    ⟨by decide +kernel, by decide +kernel⟩).2.1

end Guard

end H2Proxy
