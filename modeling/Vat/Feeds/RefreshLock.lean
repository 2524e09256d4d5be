import Mathlib.Data.List.Nodup
import Mathlib.Data.List.Perm.Basic
import Vat.Transition.Run

/-!
# The lock of the feed refresh

A refresh of the vulnerability feeds works only while its session has a lock of the database. The
lock belongs to a connection, and a connection that has it takes it again. A session gives its
connection back to the pool when it commits, and the lock is released after that commit, on the
connection that the pool then gives: a refresh of the API shares its pool with all other requests, a
task of a worker has a pool of its own and disposes of it at the end.

Two refreshes never work at the same time, whatever the pools do. The lock is as free as it should
be exactly as long as each release of the API gets the connection that took the lock; those of the
tasks always do.

Source: `backend/app/services/vuln_feeds.py`, lines 272–288; `backend/app/api/vuln_feeds.py`, lines
107–138; `backend/app/tasks/vuln_feed_tasks.py`, lines 24–68.

## Main definitions

* `State`, `Op`, `step`: connections, the lock and the refreshes under way.
* `Balanced`: the lock is held once for each refresh under way, and by its connection.

## Main results

* `length_working_le_one`: in all runs, at most one refresh works.
* `balanced_iff`: in which runs the lock stays balanced.
-/

namespace Vat.FeedLock

open Transition

/-! ### Connections, the lock, and refreshes -/

/-- A refresh under way: the pool of its session, the connection that took the lock, and whether it
still works. -/
structure Refresh where
  pool : ℕ
  conn : ℕ
  working : Bool
  deriving DecidableEq

/-- The open connections with their pools, those that are checked out, the lock (the connection that
has it, once for each time it was taken), and the refreshes under way. -/
structure State where
  conns : List (ℕ × ℕ)
  busy : List ℕ
  locks : List ℕ
  refreshes : List Refresh

/-- Nothing is open. -/
def start : State := ⟨[], [], [], []⟩

/-- The pool of the API; every task of a worker has another one. -/
def apiPool : ℕ := 0

/-- A pool gives an idle connection, and a new one only if it has no idle one. -/
def CanTake (s : State) (p c : ℕ) : Prop :=
  c ∉ s.busy ∧ ((c, p) ∈ s.conns ∨
    (∀ q ∈ s.conns, q.2 = p → q.1 ∈ s.busy) ∧ ∀ q ∈ s.conns, q.1 ≠ c)

instance (s : State) (p c : ℕ) : Decidable (CanTake s p c) := inferInstanceAs (Decidable (_ ∧ _))

/-- The connections when a pool gives one. -/
def opened (s : State) (p c : ℕ) : List (ℕ × ℕ) :=
  if (c, p) ∈ s.conns then s.conns else (c, p) :: s.conns

/-- `try_acquire_vuln_feed_refresh_lock`: `pg_try_advisory_lock` on a connection. -/
def TryAcquire (s : State) (c : ℕ) : Prop := ∀ h ∈ s.locks, h = c

instance (s : State) (c : ℕ) : Decidable (TryAcquire s c) :=
  inferInstanceAs (Decidable (∀ h ∈ s.locks, h = c))

/-- What sessions do. -/
inductive Op
  /-- Another request of the API takes a connection, or gives it back. -/
  | borrow (c : ℕ)
  | giveBack (c : ℕ)
  /-- A session of a pool takes a connection and tries to get the lock. -/
  | begin (p c : ℕ)
  /-- A refresh has ended and its session commits. -/
  | commit (r : Refresh)
  /-- `release_vuln_feed_refresh_lock` on the connection that the session is given. -/
  | release (r : Refresh) (c : ℕ)
  /-- The release fails, and nobody is told. -/
  | failRelease (r : Refresh)
  /-- A task disposes of its engine. -/
  | dispose (p : ℕ)

/-- A refresh has ended and has not released the lock. -/
def Ended (s : State) (r : Refresh) : Prop := r ∈ s.refreshes ∧ r.working = false

instance (s : State) (r : Refresh) : Decidable (Ended s r) := inferInstanceAs (Decidable (_ ∧ _))

/-- What the system does; what cannot happen changes nothing. -/
def step (s : State) : Op → State
  | .borrow c =>
    if CanTake s apiPool c then { s with conns := opened s apiPool c, busy := c :: s.busy } else s
  | .giveBack c =>
    if ∀ r ∈ s.refreshes, r.working → r.conn ≠ c then { s with busy := s.busy.erase c } else s
  | .begin p c =>
    if CanTake s p c ∧ (p ≠ apiPool → ∀ q ∈ s.conns, q.2 ≠ p) then
      if TryAcquire s c then
        { conns := opened s p c, busy := c :: s.busy, locks := c :: s.locks,
          refreshes := ⟨p, c, true⟩ :: s.refreshes }
      else if p = apiPool then { s with conns := opened s p c }
      else s
    else s
  | .commit r =>
    if r ∈ s.refreshes ∧ r.working then
      { s with
        busy := s.busy.erase r.conn
        refreshes := { r with working := false } :: s.refreshes.erase r }
    else s
  | .release r c =>
    if Ended s r ∧ CanTake s r.pool c then
      { s with
        conns := opened s r.pool c
        locks := s.locks.erase c
        refreshes := s.refreshes.erase r }
    else s
  | .failRelease r => if Ended s r then { s with refreshes := s.refreshes.erase r } else s
  | .dispose p =>
    if p ≠ apiPool ∧ ∀ r ∈ s.refreshes, r.pool ≠ p then
      { s with
        conns := s.conns.filter fun q => q.2 ≠ p
        locks := s.locks.filter fun c => (c, p) ∉ s.conns }
    else s

/-! ### At most one refresh works -/

/-- The connections of the refreshes that work. -/
def workingConns (s : State) : List ℕ := (s.refreshes.filter Refresh.working).map Refresh.conn

/-- Every connection has one pool and is checked out once; the lock belongs to one connection; and
each refresh that works has checked out a connection of its own, and that has the lock. The pool of
a task has one connection, and that is idle when the refresh has ended. -/
structure Inv (s : State) : Prop where
  keys : (s.conns.map Prod.fst).Nodup
  busy : s.busy.Nodup
  refresh : ∀ r ∈ s.refreshes, (r.conn, r.pool) ∈ s.conns
  task : ∀ q ∈ s.conns, ∀ q' ∈ s.conns, q.2 ≠ apiPool → q.2 = q'.2 → q = q'
  idle : ∀ r ∈ s.refreshes, r.pool ≠ apiPool → r.working = false → r.conn ∉ s.busy
  locks : ∀ a ∈ s.locks, ∀ b ∈ s.locks, a = b
  nodup : (workingConns s).Nodup
  checkedOut : ∀ c ∈ workingConns s, c ∈ s.busy
  locked : ∀ c ∈ workingConns s, c ∈ s.locks

theorem inv_start : Inv start := by
  constructor <;> simp [start, workingConns]

theorem mem_workingConns_iff {s : State} {c : ℕ} :
    c ∈ workingConns s ↔ ∃ r ∈ s.refreshes, r.working = true ∧ r.conn = c := by
  simp only [workingConns, List.mem_map, List.mem_filter, and_assoc]

theorem mem_opened {s : State} {p c : ℕ} {q : ℕ × ℕ} :
    q ∈ opened s p c ↔ q = (c, p) ∨ q ∈ s.conns := by
  rw [opened]
  split_ifs with h
  · exact ⟨Or.inr, fun hq => hq.elim (fun hq => hq ▸ h) id⟩
  · exact List.mem_cons

theorem nodup_opened {s : State} {p c : ℕ} (hs : Inv s) (h : CanTake s p c) :
    ((opened s p c).map Prod.fst).Nodup := by
  rw [opened]
  split_ifs with hmem
  · exact hs.keys
  · rw [List.map_cons, List.nodup_cons]
    refine ⟨fun hc => ?_, hs.keys⟩
    obtain ⟨q, hq, heq⟩ := List.mem_map.mp hc
    exact (h.2.resolve_left hmem).2 q hq heq

/-- The connections of the refreshes that work, when one of them is set apart. -/
theorem workingConns_perm {s : State} {r : Refresh} (hr : r ∈ s.refreshes)
    (hworking : r.working = true) : (workingConns s).Perm
      (r.conn :: ((s.refreshes.erase r).filter Refresh.working).map Refresh.conn) := by
  have hperm := ((List.perm_cons_erase hr).filter Refresh.working).map Refresh.conn
  rwa [List.filter_cons_of_pos hworking, List.map_cons] at hperm

/-- A refresh that has ended goes. -/
theorem workingConns_sublist (s : State) (r : Refresh) :
    (((s.refreshes.erase r).filter Refresh.working).map Refresh.conn).Sublist (workingConns s) :=
  (List.erase_sublist.filter Refresh.working).map Refresh.conn

/-- A connection has one pool. -/
theorem pool_unique {s : State} (hs : Inv s) {c p p' : ℕ} (h : (c, p) ∈ s.conns)
    (h' : (c, p') ∈ s.conns) : p = p' :=
  (Prod.ext_iff.mp (List.inj_on_of_nodup_map hs.keys h h' rfl)).2

/-- What the API is given is no connection of a task. -/
theorem ne_of_apiPool {s : State} (hs : Inv s) {c : ℕ} (h : CanTake s apiPool c) {r : Refresh}
    (hr : r ∈ s.refreshes) (hpool : r.pool ≠ apiPool) : r.conn ≠ c := by
  rintro rfl
  rcases h.2 with hmem | hnew
  · exact hpool (pool_unique hs (hs.refresh r hr) hmem)
  · exact hnew.2 _ (hs.refresh r hr) rfl

/-- What a task is given after its refresh is the connection that took the lock. -/
theorem eq_conn_of_task {s : State} (hs : Inv s) {r : Refresh} (hr : Ended s r)
    (hpool : r.pool ≠ apiPool) {c : ℕ} (h : CanTake s r.pool c) : c = r.conn := by
  have hconn := hs.refresh r hr.1
  rcases h.2 with hmem | hnew
  · exact (Prod.ext_iff.mp (hs.task _ hmem _ hconn hpool rfl)).1
  · exact absurd (hnew.1 _ hconn rfl) (hs.idle r hr.1 hpool hr.2)

/-- The pools of the tasks when the API is given a connection. -/
theorem task_opened {s : State} (hs : Inv s) (c : ℕ) : ∀ q ∈ opened s apiPool c,
    ∀ q' ∈ opened s apiPool c, q.2 ≠ apiPool → q.2 = q'.2 → q = q' := by
  intro q hq q' hq' hne heq
  rcases mem_opened.mp hq with rfl | hq
  · exact absurd rfl hne
  rcases mem_opened.mp hq' with rfl | hq'
  · exact absurd heq hne
  exact hs.task q hq q' hq' hne heq

theorem inv_borrow {s : State} (hs : Inv s) {c : ℕ} (h : CanTake s apiPool c) :
    Inv { s with conns := opened s apiPool c, busy := c :: s.busy } where
  keys := nodup_opened hs h
  busy := List.nodup_cons.mpr ⟨h.1, hs.busy⟩
  refresh r hr := mem_opened.mpr (Or.inr (hs.refresh r hr))
  task := task_opened hs c
  idle r hr hpool hworking := by
    rw [List.mem_cons, not_or]
    exact ⟨ne_of_apiPool hs h hr hpool, hs.idle r hr hpool hworking⟩
  locks := hs.locks
  nodup := hs.nodup
  checkedOut c' hc' := List.mem_cons_of_mem _ (hs.checkedOut c' hc')
  locked := hs.locked

theorem inv_giveBack {s : State} (hs : Inv s) {c : ℕ}
    (h : ∀ r ∈ s.refreshes, r.working → r.conn ≠ c) :
    Inv { s with busy := s.busy.erase c } where
  keys := hs.keys
  busy := hs.busy.erase c
  refresh := hs.refresh
  task := hs.task
  idle r hr hpool hworking hmem := hs.idle r hr hpool hworking (List.mem_of_mem_erase hmem)
  locks := hs.locks
  nodup := hs.nodup
  checkedOut c' hc' := by
    obtain ⟨r, hr, hworking, rfl⟩ := mem_workingConns_iff.mp hc'
    exact (List.mem_erase_of_ne (h r hr hworking)).mpr (hs.checkedOut _ hc')
  locked := hs.locked

/-- A session that does not get the lock. -/
theorem inv_refused {s : State} (hs : Inv s) {c : ℕ} (h : CanTake s apiPool c) :
    Inv { s with conns := opened s apiPool c } where
  keys := nodup_opened hs h
  busy := hs.busy
  refresh r hr := mem_opened.mpr (Or.inr (hs.refresh r hr))
  task := task_opened hs c
  idle := hs.idle
  locks := hs.locks
  nodup := hs.nodup
  checkedOut := hs.checkedOut
  locked := hs.locked

/-- A session that gets the lock. -/
theorem inv_begin {s : State} (hs : Inv s) {p c : ℕ} (h : CanTake s p c)
    (hp : p ≠ apiPool → ∀ q ∈ s.conns, q.2 ≠ p) (hlock : TryAcquire s c) :
    Inv { conns := opened s p c, busy := c :: s.busy, locks := c :: s.locks,
          refreshes := ⟨p, c, true⟩ :: s.refreshes } where
  keys := nodup_opened hs h
  busy := List.nodup_cons.mpr ⟨h.1, hs.busy⟩
  refresh := List.forall_mem_cons.mpr
    ⟨mem_opened.mpr (Or.inl rfl), fun r hr => mem_opened.mpr (Or.inr (hs.refresh r hr))⟩
  task := by
    by_cases hapi : p = apiPool
    · subst hapi
      exact task_opened hs c
    · intro q hq q' hq' hne heq
      rcases mem_opened.mp hq with rfl | hq <;> rcases mem_opened.mp hq' with rfl | hq'
      · rfl
      · exact absurd heq.symm (hp hapi q' hq')
      · exact absurd heq (hp hapi q hq)
      · exact hs.task q hq q' hq' hne heq
  idle := by
    refine List.forall_mem_cons.mpr ⟨fun _ hno => absurd hno (by simp), ?_⟩
    intro r hr hpool hworking
    rw [List.mem_cons, not_or]
    refine ⟨?_, hs.idle r hr hpool hworking⟩
    by_cases hapi : p = apiPool
    · subst hapi
      exact ne_of_apiPool hs h hr hpool
    · -- the pool of a task that starts has no connection yet
      have hnew := h.2.resolve_left fun hmem => hp hapi _ hmem rfl
      exact hnew.2 _ (hs.refresh r hr)
  locks a ha b hb := by
    rw [(List.mem_cons.mp ha).elim id (hlock a), (List.mem_cons.mp hb).elim id (hlock b)]
  nodup := List.nodup_cons.mpr ⟨fun hc => h.1 (hs.checkedOut c hc), hs.nodup⟩
  checkedOut := List.forall_mem_cons.mpr
    ⟨List.mem_cons_self, fun c' hc' => List.mem_cons_of_mem _ (hs.checkedOut c' hc')⟩
  locked := List.forall_mem_cons.mpr
    ⟨List.mem_cons_self, fun c' hc' => List.mem_cons_of_mem _ (hs.locked c' hc')⟩

theorem inv_commit {s : State} (hs : Inv s) {r : Refresh} (hr : r ∈ s.refreshes)
    (hworking : r.working = true) :
    Inv { s with
          busy := s.busy.erase r.conn
          refreshes := { r with working := false } :: s.refreshes.erase r } := by
  have hperm := workingConns_perm hr hworking
  obtain ⟨hnotin, hnodup⟩ := List.nodup_cons.mp (hperm.nodup_iff.mp hs.nodup)
  have hmem : ∀ c ∈ ((s.refreshes.erase r).filter Refresh.working).map Refresh.conn,
      c ∈ workingConns s := fun c hc => hperm.mem_iff.mpr (List.mem_cons_of_mem _ hc)
  refine ⟨hs.keys, hs.busy.erase _, ?_, hs.task, ?_, hs.locks, hnodup, fun c hc => ?_,
    fun c hc => hs.locked c (hmem c hc)⟩
  · exact List.forall_mem_cons.mpr
      ⟨hs.refresh r hr, fun r' hr' => hs.refresh r' (List.mem_of_mem_erase hr')⟩
  · refine List.forall_mem_cons.mpr ⟨fun _ _ => hs.busy.not_mem_erase, ?_⟩
    exact fun r' hr' hpool hended hbusy =>
      hs.idle r' (List.mem_of_mem_erase hr') hpool hended (List.mem_of_mem_erase hbusy)
  · have hne : c ≠ r.conn := fun heq => hnotin (heq ▸ hc)
    exact (List.mem_erase_of_ne hne).mpr (hs.checkedOut c (hmem c hc))

/-- A refresh that has ended goes, with or without a release. -/
theorem inv_erase {s : State} (hs : Inv s) (r : Refresh) :
    Inv { s with refreshes := s.refreshes.erase r } where
  keys := hs.keys
  busy := hs.busy
  refresh r' hr' := hs.refresh r' (List.mem_of_mem_erase hr')
  task := hs.task
  idle r' hr' := hs.idle r' (List.mem_of_mem_erase hr')
  locks := hs.locks
  nodup := hs.nodup.sublist (workingConns_sublist s r)
  checkedOut c hc := hs.checkedOut c ((workingConns_sublist s r).subset hc)
  locked c hc := hs.locked c ((workingConns_sublist s r).subset hc)

theorem inv_release {s : State} (hs : Inv s) {r : Refresh} (hr : Ended s r) {c : ℕ}
    (h : CanTake s r.pool c) :
    Inv { s with
          conns := opened s r.pool c
          locks := s.locks.erase c
          refreshes := s.refreshes.erase r } := by
  have hrest := inv_erase hs r
  refine ⟨nodup_opened hs h, hs.busy, fun r' hr' => mem_opened.mpr (Or.inr (hrest.refresh r' hr')),
    ?_, hrest.idle,
    fun a ha b hb => hs.locks a (List.mem_of_mem_erase ha) b (List.mem_of_mem_erase hb),
    hrest.nodup, hrest.checkedOut, fun c' hc' => ?_⟩
  · by_cases hapi : r.pool = apiPool
    · rw [hapi]
      exact task_opened hs c
    · have hmem : (c, r.pool) ∈ s.conns := by
        rw [eq_conn_of_task hs hr hapi h]
        exact hs.refresh r hr.1
      rw [opened, if_pos hmem]
      exact hs.task
  · -- the connection that is given is not checked out, those of the refreshes that work are
    have hne : c' ≠ c := fun heq => h.1 (heq ▸ hrest.checkedOut c' hc')
    exact (List.mem_erase_of_ne hne).mpr (hrest.locked c' hc')

/-- The connections of the refreshes under way are not those that are closed. -/
theorem notMem_of_pool_ne {s : State} (hs : Inv s) {p : ℕ} (h : ∀ r ∈ s.refreshes, r.pool ≠ p) :
    ∀ r ∈ s.refreshes, (r.conn, p) ∉ s.conns :=
  fun r hr hp => h r hr (pool_unique hs (hs.refresh r hr) hp)

theorem inv_dispose {s : State} (hs : Inv s) {p : ℕ} (h : ∀ r ∈ s.refreshes, r.pool ≠ p) :
    Inv { s with
          conns := s.conns.filter fun q => q.2 ≠ p
          locks := s.locks.filter fun c => (c, p) ∉ s.conns } where
  keys := hs.keys.sublist (List.filter_sublist.map Prod.fst)
  busy := hs.busy
  refresh r hr := List.mem_filter.mpr ⟨hs.refresh r hr, decide_eq_true (h r hr)⟩
  task q hq q' hq' := hs.task q (List.mem_of_mem_filter hq) q' (List.mem_of_mem_filter hq')
  idle := hs.idle
  locks a ha b hb := hs.locks a (List.mem_of_mem_filter ha) b (List.mem_of_mem_filter hb)
  nodup := hs.nodup
  checkedOut := hs.checkedOut
  locked c hc := by
    obtain ⟨r, hr, hworking, rfl⟩ := mem_workingConns_iff.mp hc
    exact List.mem_filter.mpr
      ⟨hs.locked _ hc, decide_eq_true (notMem_of_pool_ne hs h r hr)⟩

theorem inv_step (s : State) (o : Op) (hs : Inv s) : Inv (step s o) := by
  cases o with
  | borrow c =>
    rw [step]
    split_ifs with h
    · exact inv_borrow hs h
    · exact hs
  | giveBack c =>
    rw [step]
    split_ifs with h
    · exact inv_giveBack hs h
    · exact hs
  | begin p c =>
    rw [step]
    split_ifs with h hlock hapi
    · exact inv_begin hs h.1 h.2 hlock
    · subst hapi
      exact inv_refused hs h.1
    · exact hs
    · exact hs
  | commit r =>
    rw [step]
    split_ifs with h
    · exact inv_commit hs h.1 h.2
    · exact hs
  | release r c =>
    rw [step]
    split_ifs with h
    · exact inv_release hs h.1 h.2
    · exact hs
  | failRelease r =>
    rw [step]
    split_ifs
    · exact inv_erase hs r
    · exact hs
  | dispose p =>
    rw [step]
    split_ifs with h
    · exact inv_dispose hs h.2
    · exact hs

theorem inv_run (ops : List Op) : Inv (run step start ops) :=
  run_induction inv_step inv_start ops

/-- At most one refresh works, whatever the requests, the tasks and the pools do. -/
theorem length_working_le_one (ops : List Op) :
    ((run step start ops).refreshes.filter Refresh.working).length ≤ 1 := by
  have hs := inv_run ops
  have hlen : (workingConns (run step start ops)).length ≤ 1 := by
    rcases hconns : workingConns (run step start ops) with _ | ⟨c, _ | ⟨c', l⟩⟩
    · exact Nat.zero_le 1
    · exact le_rfl
    · have hc : c ∈ workingConns (run step start ops) := hconns ▸ List.mem_cons_self
      have hc' : c' ∈ workingConns (run step start ops) :=
        hconns ▸ List.mem_cons_of_mem c List.mem_cons_self
      have hne : c ≠ c' := by
        have hnodup := hs.nodup
        rw [hconns] at hnodup
        exact fun heq => (List.nodup_cons.mp hnodup).1 (heq ▸ List.mem_cons_self)
      exact absurd (hs.locks c (hs.locked c hc) c' (hs.locked c' hc')) hne
  rwa [workingConns, List.length_map] at hlen

/-! ### When the lock is given back -/

/-- The lock is held once for each refresh under way, and by its connection. -/
def Balanced (s : State) : Prop := s.locks.Perm (s.refreshes.map Refresh.conn)

instance (s : State) : Decidable (Balanced s) := inferInstanceAs (Decidable (List.Perm _ _))

/-- A release of the API gets the connection that took the lock, and no release fails. -/
def GivesBack (s : State) : Op → Prop
  | .release r c => r.pool = apiPool → Ended s r → CanTake s apiPool c → c = r.conn
  | .failRelease r => ¬ Ended s r
  | _ => True

/-- The connections of the refreshes under way, when one of them is set apart. -/
theorem conns_perm {s : State} {r : Refresh} (hr : r ∈ s.refreshes) :
    (s.refreshes.map Refresh.conn).Perm (r.conn :: (s.refreshes.erase r).map Refresh.conn) :=
  (List.perm_cons_erase hr).map Refresh.conn

/-- What a release leaves is balanced exactly if it took the lock from the right connection. -/
theorem erase_perm_iff {s : State} (hs : Inv s) (hb : Balanced s) {r : Refresh}
    (hr : r ∈ s.refreshes) {c : ℕ} :
    (s.locks.erase c).Perm ((s.refreshes.erase r).map Refresh.conn) ↔ c = r.conn := by
  have hperm := hb.trans (conns_perm hr)
  constructor
  · intro h
    by_contra hne
    have hc : c ∉ s.locks := fun hc =>
      hne (hs.locks c hc r.conn (hperm.mem_iff.mpr List.mem_cons_self))
    rw [List.erase_of_not_mem hc] at h
    have hlen := hperm.length_eq.symm.trans h.length_eq
    simp at hlen
  · rintro rfl
    have herase := hperm.erase r.conn
    rwa [List.erase_cons_head] at herase

theorem balanced_step_iff (s : State) (o : Op) (hb : Balanced s) (hs : Inv s) :
    Balanced (step s o) ↔ GivesBack s o := by
  cases o with
  | borrow c =>
    rw [step]
    split_ifs <;> exact iff_of_true hb trivial
  | giveBack c =>
    rw [step]
    split_ifs <;> exact iff_of_true hb trivial
  | begin p c =>
    rw [step]
    split_ifs
    · exact iff_of_true (hb.cons c) trivial
    · exact iff_of_true hb trivial
    · exact iff_of_true hb trivial
    · exact iff_of_true hb trivial
  | commit r =>
    rw [step]
    split_ifs with h
    · exact iff_of_true (hb.trans (conns_perm h.1)) trivial
    · exact iff_of_true hb trivial
  | release r c =>
    rw [step, GivesBack]
    split_ifs with h
    · refine (erase_perm_iff hs hb h.1.1).trans ⟨fun heq _ _ _ => heq, fun himp => ?_⟩
      by_cases hapi : r.pool = apiPool
      · exact himp hapi h.1 (hapi ▸ h.2)
      · exact eq_conn_of_task hs h.1 hapi h.2
    · exact iff_of_true hb fun hapi hended htake => absurd ⟨hended, hapi ▸ htake⟩ h
  | failRelease r =>
    rw [step, GivesBack]
    split_ifs with h
    · refine iff_of_false (fun hbalanced => ?_) (not_not.mpr h)
      have hlen := ((hb.trans (conns_perm h.1)).symm.trans hbalanced).length_eq
      simp at hlen
    · exact iff_of_true hb h
  | dispose p =>
    rw [step]
    split_ifs with h
    · refine iff_of_true ?_ trivial
      have hkeep : s.locks.filter (fun c => (c, p) ∉ s.conns) = s.locks := by
        refine List.filter_eq_self.mpr fun c hc => decide_eq_true fun hp => ?_
        obtain ⟨r, hr, rfl⟩ := List.mem_map.mp (hb.mem_iff.mp hc)
        exact notMem_of_pool_ne hs h.2 r hr hp
      exact (List.Perm.of_eq hkeep).trans hb
    · exact iff_of_true hb trivial

/-- The lock is balanced at every time of a run exactly if each release in it gets the connection
that took the lock. -/
theorem balanced_iff (ops : List Op) :
    (∀ pre, pre <+: ops → Balanced (run step start pre)) ↔ Along step GivesBack start ops := by
  have hstart : Balanced start := List.Perm.nil
  exact forall_prefix_iff_along_of_inv balanced_step_iff (fun s o _ hs _ => inv_step s o hs)
    hstart inv_start ops

/-- A request gets the connection between commit and release: the lock is left with nobody. -/
example :
    let s := run step start [.begin apiPool 1, .commit ⟨apiPool, 1, true⟩, .borrow 1,
      .release ⟨apiPool, 1, false⟩ 2, .giveBack 1]
    s.refreshes = [] ∧ s.locks = [1] ∧ ¬ TryAcquire s 2 := by
  decide

/-- A balanced lock is free when no refresh is under way. -/
theorem tryAcquire_of_balanced {s : State} (hb : Balanced s) (h : s.refreshes = []) (c : ℕ) :
    TryAcquire s c := by
  intro a ha
  have := hb.mem_iff.mp ha
  rw [h] at this
  cases this

end Vat.FeedLock
