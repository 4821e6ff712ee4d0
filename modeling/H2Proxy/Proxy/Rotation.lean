import H2Proxy.Lib.Machine
import H2Proxy.Proxy.Pool

/-
  The pool with the connections' tasks and the leases in clients' hands.

  A step is one checkout, one lease dropped, or something a task does; a checkout holds the
  pool's lock and is one step. The clock of a checkout is left open. `checkout_outcome` says all
  that a checkout can do, and `Fleet.Sound` is what every run keeps.
-/

namespace H2Proxy

/-! ## The least and the greatest -/

theorem maxByKey_eq_none {α : Type} {key : α → Nat} {l : List α} (h : maxByKey key l = none) :
    l = [] := by
  cases l with
  | nil => rfl
  | cons x l =>
    rw [maxByKey] at h
    cases hm : maxByKey key l <;> rw [hm] at h <;> cases h

theorem maxByKey_eq_some {α : Type} {key : α → Nat} {l : List α} {m : α}
    (h : maxByKey key l = some m) : m ∈ l ∧ ∀ x ∈ l, key x ≤ key m := by
  induction l generalizing m with
  | nil => cases h
  | cons x l ih =>
    rw [maxByKey] at h
    cases hm : maxByKey key l with
    | none =>
      rw [hm] at h
      cases h
      rw [maxByKey_eq_none hm]
      simp
    | some y =>
      rw [hm] at h
      obtain ⟨hy, hall⟩ := ih hm
      dsimp only at h
      split at h
      · rename_i hlt
        cases h
        refine ⟨List.mem_cons_self, fun z hz => ?_⟩
        obtain rfl | hz := List.mem_cons.mp hz
        · exact Nat.le_refl _
        · exact Nat.le_of_lt (Nat.lt_of_le_of_lt (hall z hz) hlt)
      · rename_i hle
        cases h
        refine ⟨List.mem_cons_of_mem _ hy, fun z hz => ?_⟩
        obtain rfl | hz := List.mem_cons.mp hz
        · exact Nat.le_of_not_lt hle
        · exact hall z hz

theorem minByKey_eq_none {α : Type} {key : α → Nat × Nat} {l : List α} (h : minByKey key l = none) :
    l = [] := by
  cases l with
  | nil => rfl
  | cons x l =>
    rw [minByKey] at h
    cases hm : minByKey key l <;> rw [hm] at h <;> cases h

theorem minByKey_eq_some {α : Type} {key : α → Nat × Nat} {l : List α} {m : α}
    (h : minByKey key l = some m) : m ∈ l ∧ ∀ x ∈ l, (key m).1 ≤ (key x).1 := by
  induction l generalizing m with
  | nil => cases h
  | cons x l ih =>
    rw [minByKey] at h
    cases hm : minByKey key l with
    | none =>
      rw [hm] at h
      cases h
      rw [minByKey_eq_none hm]
      simp
    | some y =>
      rw [hm] at h
      obtain ⟨hy, hall⟩ := ih hm
      dsimp only at h
      split at h
      · rename_i hle
        cases h
        refine ⟨List.mem_cons_self, fun z hz => ?_⟩
        obtain rfl | hz := List.mem_cons.mp hz
        · exact Nat.le_refl _
        · have hfirst := hall z hz
          omega
      · rename_i hlt
        cases h
        refine ⟨List.mem_cons_of_mem _ hy, fun z hz => ?_⟩
        obtain rfl | hz := List.mem_cons.mp hz
        · omega
        · exact hall z hz

/-! ## What a checkout does -/

namespace Pool

@[simp] theorem record_modify (conn : ConnId) (f : UpstreamRecord → UpstreamRecord) (p : Pool)
    (c : ConnId) : (p.modify conn f).record c = if c = conn then f (p.record c) else p.record c := rfl

theorem conns_retain (backend : Backend) (nowMs : Nat) (p : Pool) (b : Backend) :
    (p.retain backend nowMs).conns b =
      if b = backend then
        (p.conns backend).filter fun c => (p.record c).usable nowMs p.idleTimeoutMs
      else p.conns b := by
  unfold retain conns
  dsimp only
  rw [AList.lookup_insert_eq]
  split <;> rfl

theorem mem_conns_retain {backend : Backend} {nowMs : Nat} {p : Pool} {c : ConnId} :
    c ∈ (p.retain backend nowMs).conns backend ↔
      c ∈ p.conns backend ∧ (p.record c).usable nowMs p.idleTimeoutMs = true := by
  rw [conns_retain, if_pos rfl, List.mem_filter]

theorem conns_open (backend : Backend) (nowMs : Nat) (p : Pool) (b : Backend) :
    (p.open_ backend nowMs).2.conns b =
      if b = backend then p.conns backend ++ [p.nextConn] else p.conns b := by
  unfold open_ conns
  dsimp only
  rw [AList.lookup_insert_eq]
  split <;> rfl

theorem record_open (backend : Backend) (nowMs : Nat) (p : Pool) (c : ConnId) :
    (p.open_ backend nowMs).2.record c =
      if c = p.nextConn then UpstreamRecord.new nowMs else p.record c := rfl

/-- No connection a pool may use has room. -/
def Full (backend : Backend) (p : Pool) : Prop :=
  ∀ c ∈ p.conns backend, (p.record c).hasRoom = false

/-- What a checkout comes to, once the connections that may not be used are gone. -/
inductive Outcome (backend : Backend) (nowMs : Nat) (p : Pool) : Except PoolError Lease × Pool → Prop
  /-- The fullest connection with room takes the request. -/
  | reuse (conn : ConnId) : conn ∈ p.conns backend → (p.record conn).hasRoom = true →
      (∀ c ∈ p.conns backend, (p.record c).hasRoom = true →
        (p.record c).live ≤ (p.record conn).live) →
      Outcome backend nowMs p (.ok (p.lease conn nowMs).1, (p.lease conn nowMs).2)
  | grow : p.Full backend → (p.conns backend).length < p.maxConnsPerBackend →
      p.grows backend = true →
      Outcome backend nowMs p
        (.ok ((p.open_ backend nowMs).2.lease p.nextConn nowMs).1,
          ((p.open_ backend nowMs).2.lease p.nextConn nowMs).2)
  /-- The connection where the fewest wait takes one more. -/
  | queue (conn : ConnId) : p.Full backend → conn ∈ p.conns backend →
      ¬ ((p.conns backend).length < p.maxConnsPerBackend ∧ p.grows backend = true) →
      (p.record conn).saturated p.tuning.maxPending = false →
      Outcome backend nowMs p (.ok (p.lease conn nowMs).1, (p.lease conn nowMs).2)
  | shed : p.Full backend → p.conns backend ≠ [] →
      ¬ ((p.conns backend).length < p.maxConnsPerBackend ∧ p.grows backend = true) →
      (∀ c ∈ p.conns backend, (p.record c).saturated p.tuning.maxPending = true) →
      Outcome backend nowMs p (.error (.atCapacity backend), p)

theorem grows_iff {backend : Backend} {p : Pool} :
    p.grows backend = true ↔ p.conns backend = [] ∨ p.tuning.growth = .eager ∨
      ∀ c ∈ p.conns backend, (p.record c).backedUp = true := by
  unfold grows
  cases p.tuning.growth <;> simp

theorem checkout_outcome (backend : Backend) (now : Instant) {p : Pool}
    (hmax : 0 < p.maxConnsPerBackend) :
    Outcome backend (p.nowMs now) (p.retain backend (p.nowMs now)) (p.checkout backend now) := by
  unfold checkout
  dsimp only
  generalize hq : p.retain backend (p.nowMs now) = q
  have hmax' : 0 < q.maxConnsPerBackend := by
    rw [← hq]
    exact hmax
  cases hroom : maxByKey (fun c => (q.record c).live)
      ((q.conns backend).filter fun c => (q.record c).hasRoom) with
  | some conn =>
    obtain ⟨hmem, hall⟩ := maxByKey_eq_some hroom
    obtain ⟨hconn, hasRoom⟩ := List.mem_filter.mp hmem
    exact .reuse conn hconn hasRoom fun c hc h => hall c (List.mem_filter.mpr ⟨hc, h⟩)
  | none =>
    have hfull : q.Full backend := by
      intro c hc
      have hnil := List.filter_eq_nil_iff.mp (maxByKey_eq_none hroom) c hc
      simpa using hnil
    dsimp only
    split
    · rename_i h
      exact .grow hfull h.1 h.2
    · rename_i h
      cases hleast : minByKey (fun c => ((q.record c).queued, (q.record c).live))
          (q.conns backend) with
      | none =>
        have hnil := minByKey_eq_none hleast
        exact absurd ⟨by rw [hnil]; exact hmax', grows_iff.mpr (.inl hnil)⟩ h
      | some conn =>
        obtain ⟨hmem, hall⟩ := minByKey_eq_some hleast
        dsimp only
        split
        · rename_i hsat
          refine .shed hfull (List.ne_nil_of_mem hmem) h fun c hc => ?_
          have hle := hall c hc
          unfold UpstreamRecord.saturated at hsat ⊢
          simp only [ge_iff_le, decide_eq_true_eq] at hsat ⊢
          exact Nat.le_trans hsat hle
        · rename_i hsat
          exact .queue conn hfull hmem h (by simpa using hsat)

end Pool

/-! ## The fleet -/

/-- A connection's own task. -/
inductive Task
  | connecting
  | serving
  /-- The backend is leaving, and finishes what it promised. -/
  | draining
  | over
deriving DecidableEq

/-- The pool, the connections' tasks and the leases. -/
structure Fleet where
  pool : Pool
  /-- The leases not dropped yet. -/
  leases : List Lease
  /-- Every lease there was, newest first. -/
  given : List Lease
  /-- The backend a connection was opened to. -/
  home : ConnId → Backend
  task : ConnId → Task

/-- Who holds a connection's record, and in it a sender of the connection's inbox. -/
inductive Holder
  | rotation
  | lease (id : RequestId)
  | task
deriving DecidableEq

inductive FleetInput
  | checkout (backend : Backend) (now : Instant)
  | drop (lease : Lease)
  | queued (conn : ConnId) (depth : Nat)
  | maxConcurrent (conn : ConnId) (max : Nat)
  /-- The socket is there. -/
  | established (conn : ConnId)
  /-- The backend announced that it goes, or left a probe unanswered. -/
  | retire (conn : ConnId)
  /-- The task ends for a reason of its own: no socket, the socket's end, an error, a drain done. -/
  | finish (conn : ConnId)
  /-- The task's receiver finds that no sender is left, and the task ends. -/
  | starved (conn : ConnId)

namespace Fleet

def start (pool : Pool) : Fleet := ⟨pool, [], [], fun _ => ⟨0⟩, fun _ => .over⟩

/-- The holders of a connection's record: the pool's list, the leases on it, and its task, which
    keeps the record until it is over. -/
def holders (conn : ConnId) (s : Fleet) : List Holder :=
  (if conn ∈ s.pool.conns (s.home conn) then [.rotation] else []) ++
    ((s.leases.filter (·.record = conn)).map fun l => .lease l.id) ++
    if s.task conn = .over then [] else [.task]

def setTask (conn : ConnId) (task : Task) (s : Fleet) : Fleet :=
  { s with task := fun c => if c = conn then task else s.task c }

def tell (conn : ConnId) (f : UpstreamRecord → UpstreamRecord) (s : Fleet) : Fleet :=
  { s with pool := s.pool.modify conn f }

/-- The pool after a checkout. A connection that was opened bears the next name, and its task
    starts. -/
def install (backend : Backend) (pool : Pool) (s : Fleet) : Fleet :=
  if pool.nextConn = s.pool.nextConn then { s with pool }
  else
    { s with
      pool
      home := fun c => if c = s.pool.nextConn then backend else s.home c
      task := fun c => if c = s.pool.nextConn then .connecting else s.task c }

def settle (backend : Backend) (s : Fleet) :
    Except PoolError Lease × Pool → Except PoolError Lease × Fleet
  | (.ok lease, pool) =>
    let s := s.install backend pool
    (.ok lease, { s with leases := lease :: s.leases, given := lease :: s.given })
  | (.error e, pool) => (.error e, s.install backend pool)

def checkout (backend : Backend) (now : Instant) (s : Fleet) : Except PoolError Lease × Fleet :=
  s.settle backend (s.pool.checkout backend now)

def step : FleetInput → Fleet → Fleet
  | .checkout backend now, s => (s.checkout backend now).2
  | .drop lease, s =>
    if lease ∈ s.leases then
      { s with pool := s.pool.dropLease lease, leases := s.leases.erase lease }
    else s
  | .queued conn depth, s => s.tell conn (·.setQueued depth)
  | .maxConcurrent conn max, s => s.tell conn (·.setMaxConcurrent max)
  | .established conn, s => if s.task conn = .connecting then s.setTask conn .serving else s
  | .retire conn, s =>
    if s.task conn = .serving then (s.setTask conn .draining).tell conn (·.retire) else s
  | .finish conn, s => (s.setTask conn .over).tell conn (·.die)
  | .starved conn, s =>
    if s.holders conn = [] then (s.setTask conn .over).tell conn (·.die) else s

/-- A pool under its settings, from its start. -/
def machine (maxConns : Nat) (policy : Health.Policy) (tuning : Tuning) (epoch : Instant) :
    Machine Fleet FleetInput where
  init s := s = start (.withPolicy maxConns policy tuning epoch)
  step := step

/-! ## The steps of a checkout -/

def retain (backend : Backend) (nowMs : Nat) (s : Fleet) : Fleet :=
  { s with pool := s.pool.retain backend nowMs }

def lend (conn : ConnId) (nowMs : Nat) (s : Fleet) : Fleet :=
  let (lease, pool) := s.pool.lease conn nowMs
  { s with pool, leases := lease :: s.leases, given := lease :: s.given }

def grow (backend : Backend) (nowMs : Nat) (s : Fleet) : Fleet :=
  { s with
    pool := (s.pool.open_ backend nowMs).2
    home := fun c => if c = s.pool.nextConn then backend else s.home c
    task := fun c => if c = s.pool.nextConn then .connecting else s.task c }

theorem install_retain (backend : Backend) (nowMs : Nat) (s : Fleet) :
    s.install backend (s.pool.retain backend nowMs) = s.retain backend nowMs := if_pos rfl

theorem install_lease (backend : Backend) (conn : ConnId) (nowMs : Nat) (s : Fleet) :
    s.install backend ((s.pool.retain backend nowMs).lease conn nowMs).2 =
      { s with pool := ((s.pool.retain backend nowMs).lease conn nowMs).2 } := if_pos rfl

theorem install_open (backend : Backend) (nowMs : Nat) (s : Fleet) :
    s.install backend
        (((s.pool.retain backend nowMs).open_ backend nowMs).2.lease s.pool.nextConn nowMs).2 =
      { (s.retain backend nowMs).grow backend nowMs with
        pool := (((s.pool.retain backend nowMs).open_ backend nowMs).2.lease
          s.pool.nextConn nowMs).2 } :=
  if_neg (Nat.succ_ne_self _)

theorem checkout_cases {s : Fleet} (backend : Backend) (now : Instant)
    (hmax : 0 < s.pool.maxConnsPerBackend) :
    let nowMs := s.pool.nowMs now
    let t := s.retain backend nowMs
    (∃ conn ∈ t.pool.conns backend,
      s.checkout backend now = (.ok (t.pool.lease conn nowMs).1, t.lend conn nowMs)) ∨
    ((t.pool.conns backend).length < t.pool.maxConnsPerBackend ∧
      s.checkout backend now =
        (.ok ((t.grow backend nowMs).pool.lease s.pool.nextConn nowMs).1,
          (t.grow backend nowMs).lend s.pool.nextConn nowMs)) ∨
    s.checkout backend now = (.error (.atCapacity backend), t) := by
  have out := s.pool.checkout_outcome backend now hmax
  dsimp only
  unfold checkout
  generalize s.pool.checkout backend now = r at out
  cases out with
  | reuse conn hmem =>
    refine .inl ⟨conn, hmem, ?_⟩
    unfold settle
    dsimp only
    rw [install_lease]
    rfl
  | queue conn _ hmem =>
    refine .inl ⟨conn, hmem, ?_⟩
    unfold settle
    dsimp only
    rw [install_lease]
    rfl
  | grow _ hspace =>
    refine .inr (.inl ⟨hspace, ?_⟩)
    unfold settle
    dsimp only
    have hopen := install_open backend (s.pool.nowMs now) s
    rw [show (s.pool.retain backend (s.pool.nowMs now)).nextConn = s.pool.nextConn from rfl, hopen]
    rfl
  | shed =>
    refine .inr (.inr ?_)
    unfold settle
    dsimp only
    rw [install_retain]

/-- How many requests a connection may be leased for. -/
def spent : Nat := maxLocalStreamId / 2 - idExhaustionMargin

/-- What every run keeps of the pool, its counters and its leases. -/
structure Sound (s : Fleet) : Prop where
  ceiling : 0 < s.pool.maxConnsPerBackend
  bounded : ∀ b, (s.pool.conns b).length ≤ s.pool.maxConnsPerBackend
  listed : ∀ b, ∀ c ∈ s.pool.conns b, c < s.pool.nextConn ∧ s.home c = b
  named : ∀ l ∈ s.given,
    l.record < s.pool.nextConn ∧ l.id.get.toNat < (s.pool.record l.record).issued.toNat
  nodup : s.given.Nodup
  leased : ∀ l ∈ s.leases, l ∈ s.given
  live : ∀ c < s.pool.nextConn, (s.pool.record c).live = s.leases.countP (·.record = c)
  issued : ∀ c < s.pool.nextConn, (s.pool.record c).issued.toNat ≤ spent

namespace Sound

variable {s : Fleet} {backend : Backend} {nowMs : Nat} {conn : ConnId}

theorem retain (h : s.Sound) : (s.retain backend nowMs).Sound := by
  refine ⟨h.ceiling, fun b => ?_, fun b c hc => ?_, h.named, h.nodup, h.leased, h.live, h.issued⟩
  · show ((s.pool.retain backend nowMs).conns b).length ≤ _
    rw [Pool.conns_retain]
    split
    · rename_i heq
      subst heq
      exact Nat.le_trans (List.length_filter_le _ _) (h.bounded _)
    · exact h.bounded b
  · have hc : c ∈ (s.pool.retain backend nowMs).conns b := hc
    rw [Pool.conns_retain] at hc
    split at hc
    · rename_i heq
      subst heq
      exact h.listed _ c (List.mem_filter.mp hc).1
    · exact h.listed b c hc

theorem toNat_succ {issued : UInt32} (h : issued.toNat < spent) :
    (issued + 1).toNat = issued.toNat + 1 := by
  have hsmall : spent < 2 ^ 32 - 1 := by decide
  have hone : (1 : UInt32).toNat = 1 := rfl
  rw [UInt32.toNat_add, hone, Nat.mod_eq_of_lt (by omega)]

/-- A lease on a connection whose ids are not used up. -/
theorem lend (h : s.Sound) (hconn : conn < s.pool.nextConn)
    (hspent : (s.pool.record conn).issued.toNat < spent) :
    (s.lend conn nowMs).Sound := by
  have hsucc := toNat_succ hspent
  have hfresh : (s.pool.lease conn nowMs).1 ∉ s.given := by
    intro hmem
    have hlt := (h.named _ hmem).2
    exact Nat.lt_irrefl _ hlt
  refine ⟨h.ceiling, h.bounded, h.listed, fun l hl => ?_, List.nodup_cons.mpr ⟨hfresh, h.nodup⟩,
    fun l hl => ?_, fun c hc => ?_, fun c hc => ?_⟩
  · obtain rfl | hl := List.mem_cons.mp hl
    · refine ⟨hconn, ?_⟩
      simp only [Fleet.lend, Pool.lease, Pool.record_modify, if_true]
      omega
    · obtain ⟨hrecord, hid⟩ := h.named l hl
      refine ⟨hrecord, ?_⟩
      simp only [Fleet.lend, Pool.lease, Pool.record_modify]
      split
      · rename_i heq
        rw [heq] at hid ⊢
        dsimp only
        omega
      · exact hid
  · obtain rfl | hl := List.mem_cons.mp hl
    · exact List.mem_cons_self
    · exact List.mem_cons_of_mem _ (h.leased l hl)
  · have hlive := h.live c hc
    simp only [Fleet.lend, Pool.lease, Pool.record_modify, List.countP_cons, decide_eq_true_eq]
    by_cases heq : c = conn
    · subst heq
      simp [hlive]
    · have heq' : conn ≠ c := fun h => heq h.symm
      simp [heq, heq', hlive]
  · have hissued := h.issued c hc
    simp only [Fleet.lend, Pool.lease, Pool.record_modify]
    split
    · rename_i heq
      rw [heq]
      dsimp only
      omega
    · exact hissued

/-- One more connection, of the next name. -/
theorem grow (h : s.Sound) (hspace : (s.pool.conns backend).length < s.pool.maxConnsPerBackend) :
    (s.grow backend nowMs).Sound := by
  have hold : ∀ c < s.pool.nextConn, c ≠ s.pool.nextConn := fun c hc => Nat.ne_of_lt hc
  have hnone : s.leases.countP (·.record = s.pool.nextConn) = 0 := by
    refine List.countP_eq_zero.mpr fun l hl => ?_
    have hlt := (h.named l (h.leased l hl)).1
    simpa using Nat.ne_of_lt hlt
  refine ⟨h.ceiling, fun b => ?_, fun b c hc => ?_, fun l hl => ?_, h.nodup, h.leased,
    fun c hc => ?_, fun c hc => ?_⟩
  · show ((s.pool.open_ backend nowMs).2.conns b).length ≤ _
    rw [Pool.conns_open]
    split
    · rw [List.length_append]
      exact hspace
    · exact h.bounded b
  · have hc : c ∈ (s.pool.open_ backend nowMs).2.conns b := hc
    show c < s.pool.nextConn + 1 ∧ (if c = s.pool.nextConn then backend else s.home c) = b
    rw [Pool.conns_open] at hc
    have hlisted : ∀ b', c ∈ s.pool.conns b' → c < s.pool.nextConn + 1 ∧
        (if c = s.pool.nextConn then backend else s.home c) = b' := by
      intro b' hc'
      obtain ⟨hlt, hhome⟩ := h.listed b' c hc'
      rw [if_neg (hold c hlt)]
      exact ⟨Nat.lt_succ_of_lt hlt, hhome⟩
    split at hc
    · rename_i heq
      subst heq
      obtain hc | hc := List.mem_append.mp hc
      · exact hlisted _ hc
      · rw [List.mem_singleton.mp hc, if_pos rfl]
        exact ⟨Nat.lt_succ_self _, rfl⟩
    · exact hlisted b hc
  · obtain ⟨hlt, hid⟩ := h.named l hl
    unfold Fleet.grow
    dsimp only
    rw [Pool.record_open, if_neg (hold _ hlt)]
    exact ⟨Nat.lt_succ_of_lt hlt, hid⟩
  · unfold Fleet.grow
    dsimp only
    rw [Pool.record_open]
    split
    · rename_i heq
      rw [heq, hnone]
      rfl
    · rename_i hne
      exact h.live c (Nat.lt_of_le_of_ne (Nat.le_of_lt_succ hc) hne)
  · unfold Fleet.grow
    dsimp only
    rw [Pool.record_open]
    split
    · exact Nat.zero_le _
    · rename_i hne
      exact h.issued c (Nat.lt_of_le_of_ne (Nat.le_of_lt_succ hc) hne)

theorem drop (h : s.Sound) {lease : Lease} (hl : lease ∈ s.leases) :
    Sound { s with pool := s.pool.dropLease lease, leases := s.leases.erase lease } := by
  refine ⟨h.ceiling, h.bounded, h.listed, fun l hmem => ?_, h.nodup,
    fun l hmem => h.leased l (List.mem_of_mem_erase hmem), fun c hc => ?_, fun c hc => ?_⟩
  · obtain ⟨hrecord, hid⟩ := h.named l hmem
    refine ⟨hrecord, ?_⟩
    simp only [Pool.dropLease, Pool.record_modify]
    split <;> exact hid
  · have hlive := h.live c hc
    rw [(List.perm_cons_erase hl).countP_eq, List.countP_cons] at hlive
    simp only [Pool.dropLease, Pool.record_modify]
    by_cases heq : c = lease.record
    · subst heq
      simp [hlive]
    · have heq' : lease.record ≠ c := fun h => heq h.symm
      simpa [heq, heq'] using hlive
  · have hissued := h.issued c hc
    simp only [Pool.dropLease, Pool.record_modify]
    split <;> exact hissued

/-- What a task tells its record leaves the counters alone. -/
theorem tell (h : s.Sound) {f : UpstreamRecord → UpstreamRecord}
    (hf : ∀ r, (f r).live = r.live ∧ (f r).issued = r.issued) : (s.tell conn f).Sound := by
  have hlive : ∀ c, ((s.tell conn f).pool.record c).live = (s.pool.record c).live := by
    intro c
    simp only [Fleet.tell, Pool.record_modify]
    split
    · exact (hf _).1
    · rfl
  have hissued : ∀ c, ((s.tell conn f).pool.record c).issued = (s.pool.record c).issued := by
    intro c
    simp only [Fleet.tell, Pool.record_modify]
    split
    · exact (hf _).2
    · rfl
  refine ⟨h.ceiling, h.bounded, h.listed, fun l hl => ?_, h.nodup, h.leased, fun c hc => ?_,
    fun c hc => ?_⟩
  · rw [hissued]
    exact h.named l hl
  · rw [hlive]
    exact h.live c hc
  · rw [hissued]
    exact h.issued c hc

theorem setTask (h : s.Sound) (task : Task) : (s.setTask conn task).Sound :=
  ⟨h.ceiling, h.bounded, h.listed, h.named, h.nodup, h.leased, h.live, h.issued⟩

/-- A connection that may be used has ids left. -/
theorem spent_of_usable {r : UpstreamRecord} {idleTimeoutMs : Nat}
    (h : r.usable nowMs idleTimeoutMs = true) : r.issued.toNat < spent := by
  unfold UpstreamRecord.usable at h
  simp only [Bool.and_eq_true, decide_eq_true_eq] at h
  exact h.2

theorem checkout (h : s.Sound) (backend : Backend) (now : Instant) :
    (s.checkout backend now).2.Sound := by
  have cases := checkout_cases backend now h.ceiling
  dsimp only at cases
  obtain ⟨conn, hmem, heq⟩ | ⟨hspace, heq⟩ | heq := cases
  · rw [heq]
    have husable := (Pool.mem_conns_retain.mp hmem).2
    exact h.retain.lend (h.retain.listed _ _ hmem).1 (spent_of_usable husable)
  · rw [heq]
    refine (h.retain.grow hspace).lend (Nat.lt_succ_self _) ?_
    have hnew : ((s.retain backend (s.pool.nowMs now)).grow backend
        (s.pool.nowMs now)).pool.record s.pool.nextConn = .new (s.pool.nowMs now) := if_pos rfl
    rw [hnew]
    exact (by decide : (0 : UInt32).toNat < spent)
  · rw [heq]
    exact h.retain

end Sound

theorem start_sound (maxConns : Nat) (policy : Health.Policy) (tuning : Tuning) (epoch : Instant) :
    (start (.withPolicy maxConns policy tuning epoch)).Sound := by
  have hnone : ∀ b, (Pool.withPolicy maxConns policy tuning epoch).conns b = [] := fun _ => rfl
  refine ⟨?_, fun b => ?_, fun b c hc => ?_, nofun, List.nodup_nil, nofun, nofun, nofun⟩
  · show 0 < max maxConns 1
    omega
  · show ((Pool.withPolicy maxConns policy tuning epoch).conns b).length ≤ _
    rw [hnone]
    exact Nat.zero_le _
  · have hc : c ∈ (Pool.withPolicy maxConns policy tuning epoch).conns b := hc
    rw [hnone] at hc
    cases hc

theorem step_sound {s : Fleet} (h : s.Sound) (i : FleetInput) : (step i s).Sound := by
  cases i with
  | checkout backend now => exact h.checkout backend now
  | drop lease =>
    simp only [step]
    split
    · rename_i hl
      exact h.drop hl
    · exact h
  | queued conn depth => exact h.tell fun _ => ⟨rfl, rfl⟩
  | maxConcurrent conn max => exact h.tell fun _ => ⟨rfl, rfl⟩
  | established conn =>
    simp only [step]
    split
    · exact h.setTask _
    · exact h
  | retire conn =>
    simp only [step]
    split
    · exact (h.setTask _).tell fun _ => ⟨rfl, rfl⟩
    · exact h
  | finish conn => exact (h.setTask _).tell fun _ => ⟨rfl, rfl⟩
  | starved conn =>
    simp only [step]
    split
    · exact (h.setTask _).tell fun _ => ⟨rfl, rfl⟩
    · exact h

/-- The settings stay as they are. -/
theorem step_settings {s : Fleet} (h : s.Sound) (i : FleetInput) :
    (step i s).pool.maxConnsPerBackend = s.pool.maxConnsPerBackend ∧
      (step i s).pool.tuning = s.pool.tuning := by
  cases i with
  | checkout backend now =>
    have cases := checkout_cases backend now h.ceiling
    dsimp only at cases
    obtain ⟨conn, -, heq⟩ | ⟨-, heq⟩ | heq := cases
    all_goals
      simp only [step, heq]
      exact ⟨rfl, rfl⟩
  | drop | established | retire | starved =>
    simp only [step]
    split <;> exact ⟨rfl, rfl⟩
  | queued | maxConcurrent | finish => exact ⟨rfl, rfl⟩

section Runs

variable {maxConns : Nat} {policy : Health.Policy} {tuning : Tuning} {epoch : Instant} {s : Fleet}

theorem reachable_sound (h : (machine maxConns policy tuning epoch).Reachable s) : s.Sound := by
  refine h.invariant (I := Sound) ?_ fun s i hs _ => step_sound hs i
  rintro s rfl
  exact start_sound maxConns policy tuning epoch

theorem reachable_settings (h : (machine maxConns policy tuning epoch).Reachable s) :
    s.pool.maxConnsPerBackend = max maxConns 1 ∧ s.pool.tuning = tuning := by
  have both := h.invariant
    (I := fun s => s.Sound ∧ s.pool.maxConnsPerBackend = max maxConns 1 ∧ s.pool.tuning = tuning)
    ?_ fun s i hs _ => ?_
  · exact both.2
  · rintro s rfl
    exact ⟨start_sound maxConns policy tuning epoch, rfl, rfl⟩
  · obtain ⟨hsound, hmax, htuning⟩ := hs
    obtain ⟨hmax', htuning'⟩ := step_settings hsound i
    exact ⟨step_sound hsound i, hmax'.trans hmax, htuning'.trans htuning⟩

/-! ## What a checkout promises -/

/-- The connections to a backend that a checkout may use. -/
def usable (backend : Backend) (now : Instant) (s : Fleet) : List ConnId :=
  (s.pool.retain backend (s.pool.nowMs now)).conns backend

/-- A checkout fills the fullest connection with room, opens another only where none has room and,
    for `queue`, all are backed up, and drops no connection that is leased for being idle. -/
structure Careful (backend : Backend) (now : Instant) (s : Fleet) : Prop where
  fullest : (∃ c ∈ s.usable backend now, (s.pool.record c).hasRoom = true) →
    (s.pool.checkout backend now).2.nextConn = s.pool.nextConn ∧
      ∃ lease, (s.pool.checkout backend now).1 = .ok lease ∧
        lease.record ∈ s.usable backend now ∧ (s.pool.record lease.record).hasRoom = true ∧
        ∀ c ∈ s.usable backend now, (s.pool.record c).hasRoom = true →
          (s.pool.record c).live ≤ (s.pool.record lease.record).live
  opens : (s.pool.checkout backend now).2.nextConn ≠ s.pool.nextConn →
    (∀ c ∈ s.usable backend now, (s.pool.record c).hasRoom = false) ∧
      (s.pool.tuning.growth = .queue →
        ∀ c ∈ s.usable backend now, (s.pool.record c).backedUp = true)
  reached : ∀ b, (s.pool.checkout backend now).1 ≠ .error (.unreachable b)
  kept : ∀ b, ∀ c ∈ s.pool.conns b, 0 < (s.pool.record c).live →
    c ∉ (s.pool.checkout backend now).2.conns b →
      (s.pool.record c).closed = true ∨ (s.pool.record c).handleClosed = true ∨
        spent ≤ (s.pool.record c).issued.toNat

/-- The lists after a checkout hold what `retain` keeps. -/
theorem mem_conns_checkout {backend : Backend} {now : Instant} (h : s.Sound) {b : Backend}
    {c : ConnId} (hc : c ∈ (s.pool.retain backend (s.pool.nowMs now)).conns b) :
    c ∈ (s.pool.checkout backend now).2.conns b := by
  have out := s.pool.checkout_outcome backend now h.ceiling
  generalize s.pool.checkout backend now = r at out
  cases out with
  | reuse | queue | shed => exact hc
  | grow =>
    show c ∈ (Pool.open_ backend (s.pool.nowMs now) _).2.conns b
    rw [Pool.conns_open]
    split
    · rename_i heq
      exact List.mem_append_left _ (heq ▸ hc)
    · exact hc

/-- A leased connection may still be used unless it is gone, leaving or out of ids. -/
theorem usable_of_live {r : UpstreamRecord} {nowMs idleTimeoutMs : Nat} (hlive : 0 < r.live)
    (h : r.usable nowMs idleTimeoutMs = false) :
    r.closed = true ∨ r.handleClosed = true ∨ spent ≤ r.issued.toNat := by
  have hne : (r.live == 0) = false := by simpa using Nat.ne_of_gt hlive
  unfold UpstreamRecord.usable at h
  cases hclosed : r.closed with
  | true => exact .inl rfl
  | false =>
    cases hhandle : r.handleClosed with
    | true => exact .inr (.inl rfl)
    | false =>
      refine .inr (.inr ?_)
      unfold spent
      simpa [hne, hclosed, hhandle] using h

theorem checkout_careful (h : s.Sound) (backend : Backend) (now : Instant) :
    s.Careful backend now := by
  have out := s.pool.checkout_outcome backend now h.ceiling
  refine ⟨?_, ?_, ?_, fun b c hc hlive hgone => ?_⟩
  · rintro ⟨c, hc, hroom⟩
    generalize s.pool.checkout backend now = r at out
    cases out with
    | reuse conn hconn hroom hall => exact ⟨rfl, _, rfl, hconn, hroom, hall⟩
    | grow hfull | queue _ hfull | shed hfull =>
      exact absurd hroom (Bool.eq_false_iff.mp (hfull c hc))
  · intro hopen
    generalize s.pool.checkout backend now = r at out hopen
    cases out with
    | reuse | queue | shed => exact absurd rfl hopen
    | grow hfull _ hgrows =>
      refine ⟨hfull, fun hqueue c hc => ?_⟩
      obtain hnil | heager | hbacked := Pool.grows_iff.mp hgrows
      · exact absurd hnil (List.ne_nil_of_mem hc)
      · exact absurd (hqueue.symm.trans heager) (by decide)
      · exact hbacked c hc
  · intro b hb
    generalize s.pool.checkout backend now = r at out hb
    cases out <;> cases hb
  · have hout : c ∉ (s.pool.retain backend (s.pool.nowMs now)).conns b :=
      fun hin => hgone (mem_conns_checkout h hin)
    rw [Pool.conns_retain] at hout
    split at hout
    · rename_i heq
      subst heq
      refine @usable_of_live _ (s.pool.nowMs now) s.pool.idleTimeoutMs hlive ?_
      by_contra husable
      exact hout (List.mem_filter.mpr ⟨hc, by simpa using husable⟩)
    · exact absurd hc hout

/-- In every state the pool can come to: no rotation exceeds the ceiling, every connection counts
    its leases, no request id is given out twice, and every checkout is careful. -/
theorem pool_kept (h : (machine maxConns policy tuning epoch).Reachable s) :
    (∀ b, (s.pool.conns b).length ≤ max maxConns 1) ∧
    (∀ c < s.pool.nextConn, (s.pool.record c).live = s.leases.countP (·.record = c)) ∧
    s.given.Nodup ∧ (∀ l ∈ s.leases, l ∈ s.given) ∧
    ∀ backend now, s.Careful backend now := by
  have hsound := reachable_sound h
  have hmax := (reachable_settings h).1
  exact ⟨fun b => hmax ▸ hsound.bounded b, hsound.live, hsound.nodup, hsound.leased,
    checkout_careful hsound⟩

/-- A connection with its assumed limit, leased twice and once free again. -/
theorem pool_kept_twice :
    ∃ s, (machine 8 .default .default 0).Reachable s ∧ (s.pool.conns ⟨1⟩).length = 1 ∧
      s.given.Nodup ∧ s.Careful ⟨1⟩ 5 := by
  have h : (machine 8 .default .default 0).Reachable
      ((machine 8 .default .default 0).run (start (.withPolicy 8 .default .default 0))
        [.checkout ⟨1⟩ 0, .checkout ⟨1⟩ 0, .drop ⟨0, ⟨0⟩⟩]) :=
    Machine.Reach.run (.init rfl) _ (Machine.Meets.of_all (fun _ _ => trivial) _ _)
  obtain ⟨-, -, hnodup, -, hcareful⟩ := pool_kept h
  exact ⟨_, h, by decide +kernel, hnodup, hcareful ⟨1⟩ 5⟩

/-! ## Shedding -/

/-- A checkout refuses only where the rotation is at its ceiling and every connection holds all
    the requests it may. -/
def ShedsFull (backend : Backend) (now : Instant) (s : Fleet) : Prop :=
  (∃ b, (s.pool.checkout backend now).1 = .error (.atCapacity b)) →
    (s.usable backend now).length = s.pool.maxConnsPerBackend ∧
      ∀ c ∈ s.usable backend now, s.pool.tuning.maxPending ≤ (s.pool.record c).queued

/-- No queue is caught between the bound that sheds and the limit that lets the pool grow. -/
def NoGap (backend : Backend) (now : Instant) (s : Fleet) : Prop :=
  s.pool.tuning.growth = .eager ∨
    (s.usable backend now).length = s.pool.maxConnsPerBackend ∨
    (∃ c ∈ s.usable backend now, (s.pool.record c).hasRoom = true ∨
      (s.pool.record c).saturated s.pool.tuning.maxPending = false) ∨
    ∀ c ∈ s.usable backend now, (s.pool.record c).backedUp = true

theorem shedsFull_iff_noGap (h : (machine maxConns policy tuning epoch).Reachable s)
    (backend : Backend) (now : Instant) : s.ShedsFull backend now ↔ s.NoGap backend now := by
  have hsound := reachable_sound h
  have hlen : (s.usable backend now).length ≤ s.pool.maxConnsPerBackend :=
    hsound.retain.bounded backend
  have out := s.pool.checkout_outcome backend now hsound.ceiling
  unfold ShedsFull NoGap
  generalize s.pool.checkout backend now = r at out
  constructor
  · intro hsheds
    by_contra hgap
    simp only [not_or, not_exists, not_and] at hgap
    obtain ⟨hgrowth, hspace, hstuck, hbacked⟩ := hgap
    cases out with
    | reuse conn hconn hroom => exact (hstuck conn hconn).1 hroom
    | queue conn _ hconn _ hsat => exact (hstuck conn hconn).2 hsat
    | shed => exact hspace (hsheds ⟨backend, rfl⟩).1
    | grow _ _ hgrows =>
      obtain hnil | heager | hall := Pool.grows_iff.mp hgrows
      · exact hbacked fun c hc => absurd hnil (List.ne_nil_of_mem hc)
      · exact hgrowth heager
      · exact hbacked hall
  · rintro hgap ⟨b, hb⟩
    cases out with
    | reuse | queue | grow => cases hb
    | shed hfull hnonempty hstuck hsat =>
      have hall : ∀ c ∈ s.usable backend now,
          s.pool.tuning.maxPending ≤ (s.pool.record c).queued := by
        intro c hc
        exact of_decide_eq_true (hsat c hc)
      refine ⟨?_, hall⟩
      obtain heager | hfullest | ⟨c, hc, hroom | hunsat⟩ | hbacked := hgap
      · by_contra hne
        exact hstuck ⟨Nat.lt_of_le_of_ne hlen hne, Pool.grows_iff.mpr (.inr (.inl heager))⟩
      · exact hfullest
      · exact absurd hroom (Bool.eq_false_iff.mp (hfull c hc))
      · exact absurd (hsat c hc) (Bool.eq_false_iff.mp hunsat)
      · by_contra hne
        exact hstuck ⟨Nat.lt_of_le_of_ne hlen hne, Pool.grows_iff.mpr (.inr (.inr hbacked))⟩

/-- Two requests may wait, the backend runs three at once, and seven more connections could be
    opened. -/
def twoWaiting : Fleet :=
  (machine 8 .default { Tuning.default with maxPending := 2 } 0).run
    (start (.withPolicy 8 .default { Tuning.default with maxPending := 2 } 0))
    [.checkout ⟨1⟩ 0, .established 0, .maxConcurrent 0 3, .checkout ⟨1⟩ 0, .checkout ⟨1⟩ 0,
     .checkout ⟨1⟩ 0, .checkout ⟨1⟩ 0, .queued 0 2]

theorem twoWaiting_reachable :
    (machine 8 .default { Tuning.default with maxPending := 2 } 0).Reachable twoWaiting :=
  Machine.Reach.run (.init rfl) _ (Machine.Meets.of_all (fun _ _ => trivial) _ _)

theorem sheds_below_ceiling :
    (machine 8 .default { Tuning.default with maxPending := 2 } 0).Reachable twoWaiting ∧
      ¬ twoWaiting.ShedsFull ⟨1⟩ 0 := by
  refine ⟨twoWaiting_reachable, fun h => ?_⟩
  have hlen := (h ⟨⟨1⟩, by decide +kernel⟩).1
  exact absurd hlen (by decide +kernel)

/-- Once as many wait as the backend runs, the pool grows and nothing is refused. -/
theorem shedsFull_threeWaiting : (step (.queued 0 3) twoWaiting).ShedsFull ⟨1⟩ 0 :=
  (shedsFull_iff_noGap (twoWaiting_reachable.step trivial) ⟨1⟩ 0).mpr
    (.inr (.inr (.inr (by decide +kernel))))

end Runs

end Fleet

end H2Proxy
