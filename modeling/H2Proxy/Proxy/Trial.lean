import H2Proxy.Proxy.Accounts

/-
  Trials end: while the trial of a backend is out, some attempt to it waits.

  `claim_trial` is made when a backend is picked, and only a success or a failure that is
  reported ends it. An attempt that ends in no report of either kind leaves the flag set
  with nothing behind it; the calls after which that is so are those that `strands` names.
-/

namespace H2Proxy

theorem covers_iff {held : List Route} {h : Health} {c : Backend} :
    covers held h c = true ↔
      (h.onTrial c = true → ∃ r ∈ held, r.waiting = true ∧ r.backend = c) := by
  unfold covers
  rw [Bool.or_eq_true, List.any_eq_true]
  cases h.onTrial c with
  | false => exact ⟨nofun, fun _ => .inl rfl⟩
  | true =>
    constructor
    · rintro (no | ⟨r, hr, hw⟩) -
      · cases no
      · rw [Bool.and_eq_true, decide_eq_true_eq] at hw
        exact ⟨r, hr, hw⟩
    · intro hc
      obtain ⟨r, hr, hw⟩ := hc rfl
      refine .inr ⟨r, hr, ?_⟩
      rw [Bool.and_eq_true, decide_eq_true_eq]
      exact hw

namespace Books

/-- Every trial that is out is an attempt that waits. -/
def Covered (b : Books) : Prop := ∀ c, covers b.held b.health c = true

variable {b c : Books}

/-- A route goes, and what is spared is still covered. -/
theorem Covered.left (h : b.Covered) {old : Route} {rest left : List Route} {after : Health}
    (held : b.held = old :: rest) (spares : Spares old left b.health after) (sub : rest ⊆ left) :
    ∀ c, covers left after c = true := by
  intro c
  rw [covers_iff]
  intro trial
  rcases spares c trial with covered | ⟨other, was⟩
  · exact covers_iff.mp covered trial
  · obtain ⟨r, hr, waiting, same⟩ := covers_iff.mp (h c) was
    rw [held] at hr
    rcases List.mem_cons.mp hr with rfl | hr
    · exact absurd same.symm other
    · exact ⟨r, sub hr, waiting, same⟩

/-- The table forgets trials, and starts none that is not covered. -/
theorem Covered.health (h : b.Covered) {held : List Route} {health : Health}
    (sub : b.held ⊆ held)
    (fewer : ∀ c, health.onTrial c = true → covers held health c = true ∨
      b.health.onTrial c = true) : ∀ c, covers held health c = true := by
  intro c
  rw [covers_iff]
  intro trial
  rcases fewer c trial with covered | was
  · exact covers_iff.mp covered trial
  · obtain ⟨r, hr, hw⟩ := covers_iff.mp (h c) was
    exact ⟨r, sub hr, hw⟩

/-- The route in hand is replaced by one that waits for the same backend. -/
theorem Covered.swap (h : b.Covered) {old new : Route} {rest : List Route}
    (held : b.held = old :: rest) (backend : new.backend = old.backend)
    (waiting : new.waiting = old.waiting) : ∀ c, covers (new :: rest) b.health c = true := by
  intro c
  rw [covers_iff]
  intro trial
  obtain ⟨r, hr, waits, same⟩ := covers_iff.mp (h c) trial
  rw [held] at hr
  rcases List.mem_cons.mp hr with rfl | hr
  · exact ⟨new, List.mem_cons_self, waiting.trans waits, backend.trans same⟩
  · exact ⟨r, List.mem_cons_of_mem _ hr, waits, same⟩

theorem onTrial_of_failure {h : Health} {b c : Backend} {now : Instant}
    (trial : (h.failure b now).onTrial c = true) : h.onTrial c = true := by
  have ended : (h.ended (.gone .connection) b now).onTrial c = true := trial
  exact Health.onTrial_ended ended

/-- Moves that strand no trial keep them covered. -/
theorem Covered.move {allows : Slip → Prop} (safe : ¬ allows .stranded) (h : b.Covered)
    (hm : Move allows b c) : c.Covered := by
  cases hm with
  | shuffle hp =>
    exact h.health hp.subset fun c trial => .inr trial
  | ask head endStream => exact h
  | claim backend now hs =>
    refine h.health (List.Subset.refl _) fun c trial => ?_
    rcases Health.onTrial_claimTrial trial with rfl | was
    · exact .inl (hs.resolve_left safe)
    · exact .inr was
  | fail backend now =>
    exact h.health (List.Subset.refl _) fun c trial => .inr (onTrial_of_failure trial)
  | miss backend now =>
    refine h.health (List.Subset.refl _) fun c trial => .inr ?_
    have failed := trial
    rw [Health.onTrial_failure] at failed
    split at failed
    · cases failed
    · rename_i other
      exact (Health.onTrial_claimTrial failed).resolve_left other
  | place route among now asked latest spare first waiting =>
    refine h.health (List.subset_cons_self _ _) fun c trial => ?_
    rcases Health.onTrial_claimTrial trial with rfl | was
    · refine .inl (covers_of_waiting _ List.mem_cons_self ?_)
      unfold Route.waiting
      rw [waiting.1, waiting.2]
      rfl
    · exact .inr was
  | resend event among now held unprocessed spare same counted waiting away hs =>
    exact h.left held (hs.resolve_left safe) (List.subset_cons_self _ _)
  | giveUp event health held unprocessed lost hs =>
    exact h.left held (hs.resolve_left safe) (List.Subset.refl _)
  | shed id held lost hs => exact h.left held (hs.resolve_left safe) (List.Subset.refl _)
  | overwrite held lost hs => exact h.left held (hs.resolve_left safe) (List.Subset.refl _)
  | close elapsed held hs => exact h.left held (hs.resolve_left safe) (List.Subset.refl _)
  | answer id response endStream held =>
    refine h.left held ?_ (List.subset_cons_self _ _)
    intro c trial
    rw [Health.onTrial_success] at trial
    split at trial
    · cases trial
    · exact .inr ⟨‹_›, trial⟩
  | settle event now held final silent hs =>
    refine h.left held ?_ (List.subset_cons_self _ _)
    intro c trial
    exact (hs.resolve_left safe c trial).imp_left (covers_of_subset (List.subset_cons_self _ _))
  | amend requestDone held => exact h.swap held rfl rfl

end Books

namespace Site

/-- While the trial of a backend is out, some live proxy holds a route whose attempt went to
    that backend, has not been answered, and has not ended. -/
def Resolvable (s : Site) : Prop :=
  ∀ backend, s.shared.health.onTrial backend = true →
    ∃ client id route, s.route? client id = some route ∧ route.backend = backend ∧
      route.responseStarted = false ∧ route.ended = false

theorem mem_held {s : Site} {client : Nat} {id : StreamId} {route : Route}
    (h : s.route? client id = some route) : route ∈ s.books.held := by
  obtain ⟨proxy, hp, hr⟩ := Option.bind_eq_some_iff.mp h
  exact List.mem_flatMap.mpr
    ⟨proxy, AList.mem_values.mpr ⟨client, hp⟩, AList.mem_values.mpr ⟨id, hr⟩⟩

theorem resolvable_of_books {s : Site} (h : s.books.Covered) : s.Resolvable := by
  intro backend trial
  obtain ⟨route, hr, waiting, same⟩ := covers_iff.mp (h backend) trial
  obtain ⟨proxy, hp, hr⟩ := List.mem_flatMap.mp hr
  obtain ⟨client, hclient⟩ := AList.mem_values.mp hp
  obtain ⟨id, hid⟩ := AList.mem_values.mp hr
  have unanswered : route.responseStarted = false ∧ route.ended = false := by
    unfold Route.waiting at waiting
    simpa using waiting
  refine ⟨client, id, route, ?_, same, unanswered⟩
  unfold route?
  rw [hclient]
  exact hid

/-- In a run in which no call strands a trial, every trial can end. -/
theorem resolvable_of_kept {s : Site} (h : machine.Reach (fun s i => ¬ s.slips i .stranded) s) :
    s.Resolvable := by
  refine resolvable_of_books (h.invariant (I := fun s => s.books.Covered) ?_ ?_)
  · rintro s ⟨backends, maxConns, policy, tuning, now, rfl⟩ c
    rfl
  · intro s i hs safe
    exact Books.Moves.invariant (fun _ _ hb hm => hb.move safe hm) (step_moves s i) hs

/-- A backend fails until it is ejected; once its backoff is over a request is let through. -/
def trialRun : List (Instant × SiteInput) :=
  List.replicate 5 (0, .report 0 (.silent ⟨1⟩)) ++
    [(1, .connect 0 none false),
      (Health.Policy.default.baseBackoff, .call 0 (.dispatch (.new 1) getRoot true))]

/-- The trial is answered. -/
theorem answered_resolvable : (machine.run single
    (trialRun ++ [(Health.Policy.default.baseBackoff + 1,
      .call 0 (.intercept (.head (.new 1) (.ofStatus 200) true)))])).Resolvable :=
  resolvable_of_kept (Machine.Reach.run (.init single_init) _ (by decide +kernel))

/-- The client of the trial gives up: nothing ends the trial any more. -/
theorem cancelled_unresolvable : ¬ (machine.run single
    (trialRun ++ [(Health.Policy.default.baseBackoff + 1,
      .call 0 (.cancel (.new 1) .cancel))])).Resolvable := by
  intro h
  have trial : (machine.run single (trialRun ++ [(Health.Policy.default.baseBackoff + 1,
      .call 0 (.cancel (.new 1) .cancel))])).shared.health.onTrial ⟨1⟩ = true := by
    decide +kernel
  have none : (machine.run single (trialRun ++ [(Health.Policy.default.baseBackoff + 1,
      .call 0 (.cancel (.new 1) .cancel))])).books.held = [] := by
    decide +kernel
  obtain ⟨client, id, route, hr, -⟩ := h ⟨1⟩ trial
  have held := mem_held hr
  rw [none] at held
  cases held

end Site

end H2Proxy
