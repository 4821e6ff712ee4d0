import H2Proxy.Proxy.Rotation

/-
  Who keeps a connection's inbox open.

  A connection is told that nobody needs it by the end of its inbox, which comes when the last
  holder of its record is gone. Its own task is one of the holders, so the end never comes
  while the task runs: `freed_iff` says in which runs every connection given up was over by then.
-/

namespace H2Proxy

namespace Fleet

def Leased (c : ConnId) (s : Fleet) : Prop := ∃ l ∈ s.leases, l.record = c

instance (c : ConnId) (s : Fleet) : Decidable (s.Leased c) := by
  unfold Leased
  infer_instance

/-- The sockets open to a backend. -/
def sockets (backend : Backend) (s : Fleet) : List ConnId :=
  (List.range s.pool.nextConn).filter fun c =>
    s.home c = backend ∧ (s.task c = .serving ∨ s.task c = .draining)

/-- The connections to a backend that are off the rotation, and leased or draining. -/
def leaving (backend : Backend) (s : Fleet) : List ConnId :=
  (List.range s.pool.nextConn).filter fun c =>
    s.home c = backend ∧ c ∉ s.pool.conns backend ∧ (s.Leased c ∨ s.task c = .draining)

/-- A connection off the rotation and without a lease has no holder left: its inbox is closed. -/
def Freed (s : Fleet) : Prop :=
  ∀ c < s.pool.nextConn, c ∉ s.pool.conns (s.home c) → ¬ s.Leased c → s.holders c = []

/-- The sockets to a backend are those of its rotation and those leased or draining. -/
def Bounded (s : Fleet) : Prop :=
  ∀ b, (s.sockets b).length ≤ (s.pool.conns b).length + (s.leaving b).length

/-- A task that runs holds its connection's record. -/
theorem holders_eq_nil {c : ConnId} {s : Fleet} :
    s.holders c = [] ↔ c ∉ s.pool.conns (s.home c) ∧ ¬ s.Leased c ∧ s.task c = .over := by
  unfold holders Leased
  simp

theorem freed_iff_over {s : Fleet} :
    s.Freed ↔ ∀ c < s.pool.nextConn, c ∉ s.pool.conns (s.home c) → ¬ s.Leased c →
      s.task c = .over := by
  unfold Freed
  constructor
  · intro h c hc hout hfree
    exact (holders_eq_nil.mp (h c hc hout hfree)).2.2
  · intro h c hc hout hfree
    exact holders_eq_nil.mpr ⟨hout, hfree, h c hc hout hfree⟩

theorem Freed.bounded {s : Fleet} (h : s.Freed) : s.Bounded := by
  intro b
  have hsub : ∀ c ∈ s.sockets b, c ∈ s.pool.conns b ++ s.leaving b := by
    intro c hc
    unfold sockets at hc
    simp only [List.mem_filter, List.mem_range, decide_eq_true_eq] at hc
    obtain ⟨hlt, rfl, htask⟩ := hc
    by_cases hin : c ∈ s.pool.conns (s.home c)
    · exact List.mem_append_left _ hin
    · refine List.mem_append_right _ ?_
      unfold leaving
      simp only [List.mem_filter, List.mem_range, decide_eq_true_eq]
      refine ⟨hlt, trivial, hin, ?_⟩
      by_contra hnot
      obtain ⟨hfree, -⟩ := not_or.mp hnot
      have hover := freed_iff_over.mp h c hlt hin hfree
      rw [hover] at htask
      simp at htask
  have hnodup : (s.sockets b).Nodup := List.Nodup.filter _ List.nodup_range
  have hlen := (List.subperm_of_subset hnodup hsub).length_le
  rwa [List.length_append] at hlen

/-! ## Giving a connection up -/

/-- A step gives up only connections whose task is over: those a checkout takes off the rotation,
    and one off the rotation whose last lease is dropped. -/
def Frees (s : Fleet) : FleetInput → Prop
  | .checkout backend now =>
    ∀ c ∈ s.pool.conns backend, c ∉ s.usable backend now → s.Leased c ∨ s.task c = .over
  | .drop lease =>
    lease ∈ s.leases → lease.record ∉ s.pool.conns (s.home lease.record) →
      (∃ l ∈ s.leases.erase lease, l.record = lease.record) ∨ s.task lease.record = .over
  | _ => True

instance (s : Fleet) (i : FleetInput) : Decidable (s.Frees i) := by
  cases i <;> unfold Frees <;> infer_instance

/-- What a checkout leaves, by connection: the ones there were keep their task and their leases,
    and are on the rotation where `retain` keeps them; a new one is on it. -/
structure After (backend : Backend) (now : Instant) (s t : Fleet) : Prop where
  home : ∀ c < s.pool.nextConn, t.home c = s.home c
  task : ∀ c < s.pool.nextConn, t.task c = s.task c
  listed : ∀ c < s.pool.nextConn, ∀ b,
    c ∈ t.pool.conns b ↔ c ∈ (s.retain backend (s.pool.nowMs now)).pool.conns b
  leased : ∀ c < s.pool.nextConn, c ∉ s.usable backend now → (t.Leased c ↔ s.Leased c)
  keeps : ∀ c, s.Leased c → t.Leased c
  more : s.pool.nextConn ≤ t.pool.nextConn
  fresh : ∀ c, s.pool.nextConn ≤ c → c < t.pool.nextConn → c ∈ t.pool.conns (t.home c)

theorem leased_lend {conn c : ConnId} {nowMs : Nat} {s : Fleet} :
    (s.lend conn nowMs).Leased c ↔ conn = c ∨ s.Leased c := by
  unfold Leased lend Pool.lease
  simp

theorem checkout_after {s : Fleet} (h : s.Sound) (backend : Backend) (now : Instant) :
    After backend now s (s.checkout backend now).2 := by
  have cases := checkout_cases backend now h.ceiling
  dsimp only at cases
  obtain ⟨conn, hmem, heq⟩ | ⟨-, heq⟩ | heq := cases
  · rw [heq]
    refine ⟨fun _ _ => rfl, fun _ _ => rfl, fun _ _ _ => Iff.rfl, fun c _ hout => ?_,
      fun c hc => leased_lend.mpr (.inr hc), Nat.le_refl _, fun c hle hlt => ?_⟩
    · rw [leased_lend]
      exact ⟨fun hc => hc.resolve_left fun hc => hout (hc ▸ hmem), .inr⟩
    · exact absurd hlt (Nat.not_lt_of_le hle)
  · rw [heq]
    have hconns := Pool.conns_open backend (s.pool.nowMs now)
      (s.pool.retain backend (s.pool.nowMs now))
    refine ⟨fun c hc => if_neg (Nat.ne_of_lt hc), fun c hc => if_neg (Nat.ne_of_lt hc),
      fun c hc b => ?_, fun c hc _ => ?_, fun c hc => leased_lend.mpr (.inr hc), Nat.le_succ _,
      fun c hle hlt => ?_⟩
    · show c ∈ ((s.pool.retain backend (s.pool.nowMs now)).open_ backend
          (s.pool.nowMs now)).2.conns b ↔
        c ∈ (s.pool.retain backend (s.pool.nowMs now)).conns b
      rw [hconns]
      have hne : c ≠ s.pool.nextConn := Nat.ne_of_lt hc
      split
      · rename_i hb
        rw [hb, List.mem_append, List.mem_singleton]
        exact ⟨fun hc => hc.resolve_right hne, .inl⟩
      · exact Iff.rfl
    · rw [leased_lend]
      exact ⟨fun hl => hl.resolve_left (Nat.ne_of_gt hc), .inr⟩
    · have hnew : c = s.pool.nextConn := Nat.le_antisymm (Nat.le_of_lt_succ hlt) hle
      subst hnew
      show s.pool.nextConn ∈ ((s.pool.retain backend (s.pool.nowMs now)).open_ backend
        (s.pool.nowMs now)).2.conns (if s.pool.nextConn = s.pool.nextConn then backend else _)
      rw [if_pos rfl, hconns, if_pos rfl]
      exact List.mem_append_right _ (List.mem_singleton.mpr rfl)
  · rw [heq]
    exact ⟨fun _ _ => rfl, fun _ _ => rfl, fun _ _ _ => Iff.rfl, fun _ _ _ => Iff.rfl,
      fun _ hc => hc, Nat.le_refl _, fun c hle hlt => absurd hlt (Nat.not_lt_of_le hle)⟩

theorem freed_checkout {s : Fleet} (h : s.Sound) (hs : s.Freed) (backend : Backend)
    (now : Instant) :
    (s.checkout backend now).2.Freed ↔ s.Frees (.checkout backend now) := by
  have after := checkout_after h backend now
  generalize (s.checkout backend now).2 = t at after
  rw [freed_iff_over] at hs ⊢
  constructor
  · intro ht c hc hout
    obtain ⟨hlt, rfl⟩ := h.listed _ c hc
    by_cases hleased : s.Leased c
    · exact .inl hleased
    · refine .inr ?_
      rw [← after.task c hlt]
      refine ht c (Nat.lt_of_lt_of_le hlt after.more) ?_ ?_
      · rw [after.home c hlt, after.listed c hlt]
        exact hout
      · rw [after.leased c hlt hout]
        exact hleased
  · intro hfrees c hc hout hfree
    by_cases hlt : c < s.pool.nextConn
    · rw [after.home c hlt, after.listed c hlt] at hout
      have hfree' : ¬ s.Leased c := fun hl => hfree (after.keeps c hl)
      rw [after.task c hlt]
      by_cases hin : c ∈ s.pool.conns (s.home c)
      · by_cases hb : s.home c = backend
        · subst hb
          exact (hfrees c hin hout).resolve_left hfree'
        · refine absurd ?_ hout
          show c ∈ (s.pool.retain backend (s.pool.nowMs now)).conns (s.home c)
          rw [Pool.conns_retain, if_neg hb]
          exact hin
      · exact hs c hlt hin hfree'
    · exact absurd (after.fresh c (Nat.le_of_not_lt hlt) hc) hout

theorem freed_drop {s : Fleet} (hs : s.Freed) (lease : Lease) (h : s.Sound) :
    (step (.drop lease) s).Freed ↔ s.Frees (.drop lease) := by
  simp only [step]
  split
  · rename_i hl
    have hlt := (h.named lease (h.leased lease hl)).1
    rw [freed_iff_over] at hs ⊢
    constructor
    · intro ht _ hout
      by_cases hleft : ∃ l ∈ s.leases.erase lease, l.record = lease.record
      · exact .inl hleft
      · exact .inr (ht lease.record hlt hout hleft)
    · intro hfrees c hc hout hfree
      by_cases hc' : c = lease.record
      · subst hc'
        exact (hfrees hl hout).resolve_left hfree
      · refine hs c hc hout fun hleased => hfree ?_
        obtain ⟨l, hmem, hrecord⟩ := hleased
        have hne : l ≠ lease := by
          rintro rfl
          exact hc' hrecord.symm
        exact ⟨l, (List.mem_erase_of_ne hne).mpr hmem, hrecord⟩
  · rename_i hl
    exact ⟨fun _ hmem => absurd hmem hl, fun _ => hs⟩

/-- What a task does alone gives nothing up. -/
theorem freed_of_over {s t : Fleet} (hs : s.Freed) (hnext : t.pool.nextConn = s.pool.nextConn)
    (hhome : t.home = s.home) (hconns : ∀ b, t.pool.conns b = s.pool.conns b)
    (hleases : t.leases = s.leases) (htask : ∀ c, s.task c = .over → t.task c = .over) :
    t.Freed := by
  rw [freed_iff_over] at hs ⊢
  intro c hc hout hfree
  rw [hnext] at hc
  rw [hhome, hconns] at hout
  refine htask c (hs c hc hout ?_)
  unfold Leased at hfree ⊢
  rwa [hleases] at hfree

theorem freed_step {s : Fleet} (h : s.Sound) (hs : s.Freed) (i : FleetInput) :
    (step i s).Freed ↔ s.Frees i := by
  have hset : ∀ conn task, (task = .over ∨ s.task conn ≠ .over) →
      ∀ c, s.task c = .over → (s.setTask conn task).task c = .over := by
    intro conn task hor c hover
    unfold setTask
    dsimp only
    split
    · rename_i hc
      subst hc
      exact hor.resolve_right fun hne => hne hover
    · exact hover
  cases i with
  | checkout backend now => exact freed_checkout h hs backend now
  | drop lease => exact freed_drop hs lease h
  | queued | maxConcurrent =>
    exact ⟨fun _ => trivial, fun _ => freed_of_over hs rfl rfl (fun _ => rfl) rfl fun _ hc => hc⟩
  | established conn =>
    refine ⟨fun _ => trivial, fun _ => ?_⟩
    simp only [step]
    split
    · rename_i htask
      refine freed_of_over hs rfl rfl (fun _ => rfl) rfl (hset conn _ (.inr ?_))
      rw [htask]
      decide
    · exact hs
  | retire conn =>
    refine ⟨fun _ => trivial, fun _ => ?_⟩
    simp only [step]
    split
    · rename_i htask
      refine freed_of_over hs rfl rfl (fun _ => rfl) rfl (hset conn _ (.inr ?_))
      rw [htask]
      decide
    · exact hs
  | finish conn =>
    exact ⟨fun _ => trivial, fun _ =>
      freed_of_over hs rfl rfl (fun _ => rfl) rfl (hset conn _ (.inl rfl))⟩
  | starved conn =>
    refine ⟨fun _ => trivial, fun _ => ?_⟩
    simp only [step]
    split
    · exact freed_of_over hs rfl rfl (fun _ => rfl) rfl (hset conn _ (.inl rfl))
    · exact hs

theorem start_freed (pool : Pool) (h : pool.nextConn = 0) : (start pool).Freed := by
  intro c hc
  rw [show (start pool).pool.nextConn = 0 from h] at hc
  exact absurd hc (Nat.not_lt_zero c)

/-- In a run, every connection given up is freed, and the sockets stay within the rotation and the
    connections that leave, exactly when every step gives up only connections whose task is
    over. -/
theorem freed_iff (maxConns : Nat) (policy : Health.Policy) (tuning : Tuning) (epoch : Instant)
    (inputs : List FleetInput) :
    (∀ before, before <+: inputs →
      let s := (machine maxConns policy tuning epoch).run
        (start (.withPolicy maxConns policy tuning epoch)) before
      s.Freed ∧ s.Bounded) ↔
    (machine maxConns policy tuning epoch).Meets Frees
      (start (.withPolicy maxConns policy tuning epoch)) inputs := by
  have hmeets := @Machine.meets_iff_forall_isPrefix _ _ (machine maxConns policy tuning epoch)
    Frees Sound Freed (fun _ i hs => step_sound hs i) (fun _ i hI hP => freed_step hI hP i) _
    (start_sound maxConns policy tuning epoch) (start_freed _ rfl) inputs
  rw [hmeets]
  constructor
  · exact fun h js hjs => (h js hjs).1
  · exact fun h js hjs => ⟨h js hjs, (h js hjs).bounded⟩

/-- A healthy connection, idle for a minute, is replaced; its task goes on for ever. -/
def recycled : List FleetInput :=
  [.checkout ⟨1⟩ 0, .established 0, .drop ⟨0, ⟨0⟩⟩, .checkout ⟨1⟩ (60 * 10 ^ 9), .established 1]

theorem recycled_lingers :
    let s := (machine 8 .default .default 0).run (start (.withPolicy 8 .default .default 0)) recycled
    0 ∉ s.pool.conns ⟨1⟩ ∧ ¬ s.Leased 0 ∧ s.holders 0 = [.task] ∧
      (s.pool.conns ⟨1⟩).length + (s.leaving ⟨1⟩).length < (s.sockets ⟨1⟩).length := by
  decide +kernel

end Fleet

end H2Proxy
