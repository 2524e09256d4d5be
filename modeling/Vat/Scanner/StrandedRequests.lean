import Vat.Scanner.ScanQueue

/-!
# Requests that nothing claims again

A request that is done or failed can be deleted and created anew, and one that is pending can be
claimed once its backoff has passed. One in the phase `scanning` leaves it by the report of the
worker that has claimed it, and by nothing else. So if that worker ends before its report, or its
report is lost, or the answer to its claim was, the request stays: no pass claims it, `GC` does not
delete it, and `Create` takes it for the same request (`Stranded.run`). A run keeps every open
request eligible exactly if none of these happens in it (`requests_eligible_iff`).

Source: `vat-local-scanner/vat_scanner/cli.py`, lines 2935–2992;
`operator/internal/scanrequest/client.go`, lines 82–120.

## Main definitions

* `ScanQueue.Eligible`, `ScanQueue.Stranded`, `ScanQueue.Strands`.

## Main results

* `ScanQueue.eligible_iff`: which open requests are eligible.
* `ScanQueue.attended_step_iff`: which steps strand a request.
* `ScanQueue.requests_eligible_iff`.
-/

namespace Vat.ScanQueue

open Transition Versioned

/-- Some steps lead to a claim of a request, or to its removal. -/
def Eligible (maxAttempts : ℤ) (s : State) (uid : ℕ) : Prop :=
  ∃ ops, ¬ NotClaimed uid s (run (step maxAttempts) s ops) ∨
    ∀ r ∈ (run (step maxAttempts) s ops).store.objects, r.uid ≠ uid

/-- Every request that is not done or failed is eligible. -/
def OpenEligible (maxAttempts : ℤ) (s : State) : Prop :=
  ∀ r ∈ s.store.objects, r.value.phase ≠ .done → r.value.phase ≠ .failed →
    Eligible maxAttempts s r.uid

/-- Some worker has a claim on a request. -/
def Attended (s : State) (r : Request) : Prop := ∃ w prev, (s.workers w).claim = some (r, prev)

/-- A request in the phase `scanning` that no worker scans. -/
structure Stranded (s : State) (r : Request) : Prop where
  mem : r ∈ s.store.objects
  phase : r.value.phase = .scanning
  not_attended : ¬ Attended s r

/-- A step strands a request: a claim is accepted but not answered, a report does not arrive, or a
worker ends while it has a claim. -/
def Strands (s : State) : Op → Prop
  | .next w _ reply => reply = .responseLost ∧ ∃ now obj todo,
      s.workers w = .draining now (obj :: todo) ∧ claimable obj.value now = true ∧
        obj ∈ s.store.objects
  | .report w _ _ reply => reply = .requestLost ∧ (s.workers w).claim ≠ none
  | .crash w => (s.workers w).claim ≠ none
  | .list _ _ | .create _ _ | .gc _ _ _ => False

variable {maxAttempts : ℤ} {s : State} {r : Request}

/-! ### Claims and steps -/

theorem attended_update {store : Store Str Status} {log : List Event} {w : ℕ} {worker : Worker} :
    Attended ⟨store, Function.update s.workers w worker, log⟩ r ↔
      (∃ prev, worker.claim = some (r, prev)) ∨
        ∃ w' prev, w' ≠ w ∧ (s.workers w').claim = some (r, prev) := by
  constructor
  · rintro ⟨w', prev, hc⟩
    by_cases hw : w' = w
    · rw [hw] at hc
      exact .inl ⟨prev, by simpa only [Function.update_self] using hc⟩
    · exact .inr ⟨w', prev, hw, by simpa only [Function.update_of_ne hw] using hc⟩
  · rintro (⟨prev, hc⟩ | ⟨w', prev, hw, hc⟩)
    · exact ⟨w, prev, by simpa only [Function.update_self] using hc⟩
    · exact ⟨w', prev, by simpa only [Function.update_of_ne hw] using hc⟩

/-- A worker without claim that goes on without one changes nothing. -/
theorem attended_setWorker {w : ℕ} {worker : Worker} (hw : (s.workers w).claim = none)
    (hclaim : worker.claim = none) : Attended (s.setWorker w worker) r ↔ Attended s r := by
  rw [State.setWorker, attended_update]
  constructor
  · rintro (⟨prev, hc⟩ | ⟨w', prev, -, hc⟩)
    · simp [hclaim] at hc
    · exact ⟨w', prev, hc⟩
  · rintro ⟨w', prev, hc⟩
    refine .inr ⟨w', prev, fun heq => ?_, hc⟩
    rw [heq, hw] at hc
    simp at hc

/-- A worker that goes on without its claim leaves other requests as they were. -/
theorem attended_release {store : Store Str Status} {log : List Event} {w : ℕ} {worker : Worker}
    {obj : Request} {prev : ℕ} (h : Working s.store s.workers)
    (hw : (s.workers w).claim = some (obj, prev)) (hclaim : worker.claim = none) :
    Attended ⟨store, Function.update s.workers w worker, log⟩ r ↔ Attended s r ∧ r ≠ obj := by
  rw [attended_update]
  constructor
  · rintro (⟨prev', hc⟩ | ⟨w', prev', hne, hc⟩)
    · simp [hclaim] at hc
    · refine ⟨⟨w', prev', hc⟩, fun heq => hne ?_⟩
      exact h.exclusive w' w r obj prev' prev hc hw (heq ▸ rfl)
  · rintro ⟨⟨w', prev', hc⟩, hne⟩
    refine .inr ⟨w', prev', fun heq => hne ?_, hc⟩
    rw [heq, hw] at hc
    exact (Prod.mk.inj (Option.some.inj hc)).1.symm

/-! ### What strands a request -/

/-- Every request in the phase `scanning` is scanned by a worker. -/
def AllAttended (s : State) : Prop :=
  ∀ r ∈ s.store.objects, r.value.phase = .scanning → Attended s r

theorem next_of_accepted {w now time : ℕ} {reply : Reply} {obj : Request} {todo : List Request}
    (hw : s.workers w = .draining now (obj :: todo)) (hclaimable : claimable obj.value now = true)
    (hreply : reply ≠ .requestLost) (hobj : obj ∈ s.store.objects) :
    s.next w time reply =
      { store := s.store.replace obj.name (claimedStatus obj.value time)
        log := s.log ++ [.claimed obj.uid]
        workers := Function.update s.workers w
          (if reply = .responseLost then .draining now todo
            else .scanning now todo { obj with
              version := s.store.revision
              value := claimedStatus obj.value time } obj.value.attempts) } := by
  have hwrite : updateStatus reply s.store { obj with value := claimedStatus obj.value time } =
      some (s.store.replace obj.name (claimedStatus obj.value time),
        { obj with version := s.store.revision, value := claimedStatus obj.value time }) :=
    (updateStatus_eq_some_iff (Snapshot.of_mem hobj)).mpr ⟨hreply, hobj, rfl⟩
  simp only [State.next, hw, hclaimable, hwrite, if_true]

theorem phase_resultStatus {status : Status} {prev time : ℕ} {ok : Bool} :
    (resultStatus maxAttempts status prev ok time).phase ≠ .scanning := by
  cases ok with
  | true => simp [resultStatus]
  | false =>
    simp only [resultStatus, Bool.false_eq_true, if_false]
    split <;> simp

/-- What was just written is in no worker's hands. -/
theorem not_attended_written (h : Working s.store s.workers) {status : Status} :
    ¬ Attended s { r with version := s.store.revision, value := status } := by
  rintro ⟨w, prev, hc⟩
  exact Nat.lt_irrefl _ (s.store.version_lt _ (h.held w _ prev hc).1)

theorem attended_next_iff (h : Working s.store s.workers) (hall : AllAttended s) (w time : ℕ)
    (reply : Reply) :
    AllAttended (s.next w time reply) ↔ ¬ Strands s (.next w time reply) := by
  have hquiet : (s.next w time reply).log = s.log → ¬ Strands s (.next w time reply) := by
    rintro hlog ⟨rfl, now, obj, todo, hw, hclaimable, hobj⟩
    rw [next_of_accepted hw hclaimable (by decide) hobj] at hlog
    simp at hlog
  obtain ⟨now, obj, todo, hw, hclaimable, -, hobj, heq⟩ | heq | ⟨worker, hnone, hclaim, -, heq⟩ :=
    next_cases h w time reply
  · have hnone : (s.workers w).claim = none := by rw [hw]; rfl
    rw [heq]
    by_cases hreply : reply = .responseLost
    · refine iff_of_false (fun hall' => ?_)
        (not_not_intro ⟨hreply, now, obj, todo, hw, hclaimable, hobj⟩)
      have hattended := hall' _ ((mem_replace_iff hobj).mpr (.inl rfl)) rfl
      rw [if_pos hreply] at hattended
      have hidle : (Worker.draining now todo).claim = none := rfl
      exact not_attended_written h ((attended_setWorker hnone hidle).mp hattended)
    · refine iff_of_true (fun x hx hphase => ?_) fun hstrands => hreply hstrands.1
      rw [if_neg hreply, attended_update]
      rcases (mem_replace_iff hobj).mp hx with rfl | ⟨hx, -⟩
      · exact .inl ⟨obj.value.attempts, rfl⟩
      · obtain ⟨w', prev, hc⟩ := hall x hx hphase
        refine .inr ⟨w', prev, fun hw' => ?_, hc⟩
        rw [hw', hnone] at hc
        simp at hc
  · exact iff_of_true (by rwa [heq]) (hquiet (by rw [heq]))
  · refine iff_of_true (fun x hx hphase => ?_) (hquiet (by rw [heq]; rfl))
    rw [heq] at hx ⊢
    exact (attended_setWorker hnone hclaim).mpr (hall x hx hphase)

theorem attended_report_iff (h : Working s.store s.workers) (hall : AllAttended s) (w : ℕ)
    (ok : Bool) (time : ℕ) (reply : Reply) :
    AllAttended (s.report maxAttempts w ok time reply) ↔
      ¬ Strands s (.report w ok time reply) := by
  obtain ⟨now, todo, obj, prev, hw, hreply, heq⟩ | ⟨now, todo, obj, prev, hw, hreply, heq⟩ |
    ⟨hnone, heq⟩ := report_cases h maxAttempts w ok time reply
  · have hclaim : (s.workers w).claim = some (obj, prev) := by rw [hw]; rfl
    refine iff_of_true (fun x hx hphase => ?_) fun hstrands => hreply hstrands.1
    rw [heq] at hx ⊢
    rcases (mem_replace_iff (h.held w obj prev hclaim).1).mp hx with rfl | ⟨hx, hne⟩
    · exact absurd hphase phase_resultStatus
    · exact (attended_release h hclaim rfl).mpr ⟨hall x hx hphase, hne⟩
  · have hclaim : (s.workers w).claim = some (obj, prev) := by rw [hw]; rfl
    obtain ⟨hobj, hphase, -⟩ := h.held w obj prev hclaim
    refine iff_of_false (fun hall' => ?_) (not_not_intro ⟨hreply, by simp [hclaim]⟩)
    rw [heq] at hall'
    exact ((attended_release h hclaim rfl).mp (hall' obj hobj hphase)).2 rfl
  · rw [heq]
    exact iff_of_true hall fun hstrands => hstrands.2 hnone

/-- A step leaves every request in the phase `scanning` to a worker, unless it strands one. -/
theorem attended_step_iff (h : Sound maxAttempts s) (hall : AllAttended s) (op : Op) :
    AllAttended (step maxAttempts s op) ↔ ¬ Strands s op := by
  cases op with
  | list w now =>
    refine iff_of_true ?_ not_false
    rw [step]
    split
    · next hw =>
      exact fun x hx hphase => (attended_setWorker (by rw [hw]; rfl) rfl).mpr (hall x hx hphase)
    · exact hall
  | next w time reply => exact attended_next_iff h.working hall w time reply
  | report w ok time reply => exact attended_report_iff h.working hall w ok time reply
  | crash w =>
    rw [step, Strands]
    cases hclaim : (s.workers w).claim with
    | none =>
      exact iff_of_true
        (fun x hx hphase => (attended_setWorker hclaim rfl).mpr (hall x hx hphase)) (by simp)
    | some c =>
      obtain ⟨obj, prev⟩ := c
      obtain ⟨hobj, hphase, -⟩ := h.working.held w obj prev hclaim
      have hidle : Worker.idle.claim = none := rfl
      refine iff_of_false (fun hall' => ?_) (by simp)
      exact ((attended_release h.working hclaim hidle).mp (hall' obj hobj hphase)).2 rfl
  | create name time =>
    refine iff_of_true (fun x hx hphase => ?_) not_false
    rcases mem_create_iff.mp hx with hx | ⟨-, rfl⟩
    · exact hall x hx hphase
    · simp [newStatus] at hphase
  | gc name ttl now =>
    exact iff_of_true (fun x hx => hall x (mem_remove_iff.mp hx).1) not_false

/-! ### Stranded requests -/

/-- A claim on a request that was there before the step is older than the step. -/
theorem attended_of_step (h : Sound maxAttempts s) (hr : r ∈ s.store.objects) {op : Op}
    (hattended : Attended (step maxAttempts s op) r) : Attended s r := by
  have hupdate : ∀ {store log w} {worker : Worker},
      (∀ prev, worker.claim = some (r, prev) → r.version = s.store.revision) →
      Attended ⟨store, Function.update s.workers w worker, log⟩ r → Attended s r := by
    intro store log w worker hnew hstep
    obtain ⟨prev, hc⟩ | ⟨w', prev, -, hc⟩ := attended_update.mp hstep
    · exact absurd (hnew prev hc) (Nat.ne_of_lt (s.store.version_lt r hr))
    · exact ⟨w', prev, hc⟩
  have hnone : ∀ {worker : Worker}, worker.claim = none → ∀ prev, worker.claim = some (r, prev) →
      r.version = s.store.revision := fun hclaim prev hc => by simp [hclaim] at hc
  cases op with
  | list w now =>
    rw [step] at hattended
    split at hattended
    · exact hupdate (hnone rfl) hattended
    · exact hattended
  | next w time reply =>
    rw [step] at hattended
    obtain ⟨now, obj, todo, -, -, -, -, heq⟩ | heq | ⟨worker, -, hclaim, -, heq⟩ :=
      next_cases h.working w time reply
    · rw [heq] at hattended
      refine hupdate (fun prev hc => ?_) hattended
      split at hc
      · simp [Worker.claim] at hc
      · exact (Prod.mk.inj (Option.some.inj hc)).1 ▸ rfl
    · rwa [heq] at hattended
    · rw [heq] at hattended
      exact hupdate (hnone hclaim) hattended
  | report w ok time reply =>
    rw [step] at hattended
    obtain ⟨now, todo, obj, prev, -, -, heq⟩ | ⟨now, todo, obj, prev, -, -, heq⟩ | ⟨-, heq⟩ :=
      report_cases h.working maxAttempts w ok time reply
    · rw [heq] at hattended
      exact hupdate (hnone rfl) hattended
    · rw [heq] at hattended
      exact hupdate (hnone rfl) hattended
    · rwa [heq] at hattended
  | crash w => exact hupdate (hnone rfl) hattended
  | create name time => exact hattended
  | gc name ttl now => exact hattended

/-- No step changes a request that is stranded, or claims it. -/
theorem Stranded.step (h : Sound maxAttempts s) (hr : Stranded s r) (op : Op) :
    Stranded (step maxAttempts s op) r ∧ NotClaimed r.uid s (step maxAttempts s op) := by
  have hfree : ¬ Attended (ScanQueue.step maxAttempts s op) r := fun hattended =>
    hr.not_attended (attended_of_step h hr.mem hattended)
  obtain ⟨hstore, hlog⟩ | ⟨x, hx, hfrom, status, e, he, hstore, hlog⟩ |
    ⟨name, time, hstore, hlog⟩ | ⟨p, hp, hstore, hlog⟩ := step_cases h op
  · exact ⟨⟨by rw [hstore]; exact hr.mem, hr.phase, hfree⟩, NotClaimed.of_log_eq hlog⟩
  · -- What is written is pending or attended, so it is another request.
    have hne : r ≠ x := by
      rintro rfl
      rcases hfrom with hpending | hattended
      · simp [hr.phase] at hpending
      · exact hr.not_attended hattended
    refine ⟨⟨?_, hr.phase, hfree⟩, [e], hlog, fun hmem => hne ?_⟩
    · rw [hstore]
      exact (mem_replace_iff hx).mpr (.inr ⟨hr.mem, hne⟩)
    · refine s.store.eq_of_uid_eq hr.mem hx ?_
      rw [← he, ← List.mem_singleton.mp hmem]
      rfl
  · refine ⟨⟨?_, hr.phase, hfree⟩, NotClaimed.of_log_eq hlog⟩
    rw [hstore]
    exact mem_create_iff.mpr (.inl hr.mem)
  · refine ⟨⟨?_, hr.phase, hfree⟩, NotClaimed.of_log_eq hlog⟩
    rw [hstore]
    exact mem_remove_iff.mpr ⟨hr.mem, hp r (.inr hr.phase)⟩

/-- Whatever follows, a request that is stranded stays as it is, and is not claimed. -/
theorem Stranded.run (h : Sound maxAttempts s) (hr : Stranded s r) (ops : List Op) :
    Stranded (run (ScanQueue.step maxAttempts) s ops) r ∧
      NotClaimed r.uid s (run (ScanQueue.step maxAttempts) s ops) := by
  induction ops generalizing s with
  | nil => exact ⟨hr, .of_log_eq rfl⟩
  | cons op ops ih =>
    obtain ⟨hstep, hnot⟩ := hr.step h op
    obtain ⟨hrun, hnot'⟩ := ih (h.step op) hstep
    exact ⟨hrun, hnot.trans hnot'⟩

/-! ### Eligible requests -/

theorem next_requestLost {w now time : ℕ} {obj : Request} {todo : List Request}
    (hw : s.workers w = .draining now (obj :: todo)) :
    s.next w time .requestLost = s.setWorker w (.draining now todo) := by
  simp only [State.next, hw, updateStatus, if_true, ite_self]

/-- A worker may pass over the first requests of its list. -/
theorem run_skip {w now : ℕ} (pre todo : List Request)
    (hw : s.workers w = .draining now (pre ++ todo)) :
    run (step maxAttempts) s (List.replicate pre.length (.next w 0 .requestLost)) =
      s.setWorker w (.draining now todo) := by
  induction pre generalizing s with
  | nil =>
    rw [List.nil_append] at hw
    rw [State.setWorker, ← hw, Function.update_eq_self]
    rfl
  | cons obj pre ih =>
    rw [List.length_cons, List.replicate_succ, run_cons, step, next_requestLost hw,
      ih (Function.update_self ..)]
    simp only [State.setWorker, Function.update_idem]

/-- A pending request is claimed by a worker that lists it when its backoff has passed. -/
theorem eligible_of_pending {w : ℕ} (hidle : s.workers w = .idle) (hr : r ∈ s.store.objects)
    (hphase : r.value.phase = .pending) : Eligible maxAttempts s r.uid := by
  obtain ⟨pre, post, hobjects⟩ := List.append_of_mem hr
  obtain ⟨now, hready⟩ : ∃ now, claimable r.value now = true := by
    refine ⟨r.value.finishedAt.getD 0 + 30 * 2 ^ (r.value.attempts - 1), ?_⟩
    cases hfinished : r.value.finishedAt with
    | none => simp [claimable, hphase, backoffReady, hfinished]
    | some ts => simp [claimable, hphase, backoffReady, hfinished]
  have hlist : step maxAttempts s (.list w now) =
      s.setWorker w (.draining now (pre ++ r :: post)) := by
    simp only [step, hidle, hobjects]
  have hskip : run (step maxAttempts) s
      (.list w now :: List.replicate pre.length (.next w 0 .requestLost)) =
        s.setWorker w (.draining now (r :: post)) := by
    rw [run_cons, hlist, run_skip pre (r :: post) (Function.update_self ..)]
    simp only [State.setWorker, Function.update_idem]
  refine ⟨.list w now :: List.replicate pre.length (.next w 0 .requestLost) ++
    [.next w 0 .answered], .inl ?_⟩
  have hclaim : (s.setWorker w (.draining now (r :: post))).workers w =
      .draining now (r :: post) := Function.update_self ..
  have hmem : r ∈ (s.setWorker w (.draining now (r :: post))).store.objects := hr
  rw [run_append, hskip, run_cons, run_nil, step, next_of_accepted hclaim hready (by decide) hmem]
  rintro ⟨new, hlog, hnew⟩
  rw [← List.append_cancel_left hlog] at hnew
  exact hnew List.mem_cons_self

/-- A request that a worker scans may be done, and then be deleted. -/
theorem eligible_of_attended (h : Working s.store s.workers) (hr : Attended s r) :
    Eligible maxAttempts s r.uid := by
  obtain ⟨w, prev, hclaim⟩ := hr
  obtain ⟨hmem, -, -⟩ := h.held w r prev hclaim
  refine ⟨[.report w true 0 .answered, .gc r.name 0 r.createdAt], .inr fun x hx huid => ?_⟩
  obtain ⟨now, todo, obj, prev', hw, -, heq⟩ | ⟨-, -, -, -, -, hlost, -⟩ | ⟨hnone, -⟩ :=
    report_cases h maxAttempts w true 0 .answered
  · rw [hw] at hclaim
    obtain ⟨rfl, rfl⟩ := Prod.mk.inj (Option.some.inj hclaim)
    rw [run_cons, run_cons, run_nil, step, step, heq] at hx
    obtain ⟨hx, hkept⟩ := mem_remove_iff.mp hx
    rcases (mem_replace_iff hmem).mp hx with rfl | ⟨hx, hne⟩
    · simp [resultStatus] at hkept
    · exact hne (s.store.eq_of_uid_eq hx hmem huid)
  · simp at hlost
  · rw [hclaim] at hnone
    simp at hnone

/-- An open request is eligible, unless it is stranded. -/
theorem eligible_iff (h : Sound maxAttempts s) {w : ℕ} (hidle : s.workers w = .idle)
    (hr : r ∈ s.store.objects) (hopen : r.value.phase.Open) :
    Eligible maxAttempts s r.uid ↔ (r.value.phase = .scanning → Attended s r) := by
  constructor
  · rintro ⟨ops, hops⟩ hphase
    by_contra hfree
    obtain ⟨hstranded, hnot⟩ := Stranded.run h ⟨hr, hphase, hfree⟩ ops
    rcases hops with hclaimed | hgone
    · exact hclaimed hnot
    · exact hgone r hstranded.mem rfl
  · intro hattended
    rcases hopen with hpending | hscanning
    · exact eligible_of_pending hidle hr hpending
    · exact eligible_of_attended h.working (hattended hscanning)

theorem openEligible_iff (h : Sound maxAttempts s) (w : ℕ) (hidle : s.workers w = .idle) :
    OpenEligible maxAttempts s ↔ AllAttended s := by
  constructor
  · intro hall r hr hphase
    refine (eligible_iff h hidle hr (.inr hphase)).mp (hall r hr ?_ ?_) hphase
    · simp [hphase]
    · simp [hphase]
  · intro hall r hr hdone hfailed
    have hopen : r.value.phase.Open := by
      cases hphase : r.value.phase with
      | pending => exact .inl rfl
      | scanning => exact .inr rfl
      | done => exact absurd hphase hdone
      | failed => exact absurd hphase hfailed
    exact (eligible_iff h hidle hr hopen).mpr (hall r hr)

/-! ### Runs -/

/-- All but finitely many workers are idle. -/
def MostIdle (s : State) : Prop := ∃ n, ∀ w, n ≤ w → s.workers w = .idle

/-- A step is of one worker. -/
theorem workers_step (maxAttempts : ℤ) (s : State) (op : Op) :
    ∃ w, ∀ w', w' ≠ w → (step maxAttempts s op).workers w' = s.workers w' := by
  cases op with
  | list w now =>
    refine ⟨w, fun w' hne => ?_⟩
    rw [step]
    split
    · exact Function.update_of_ne hne ..
    · rfl
  | next w time reply =>
    refine ⟨w, fun w' hne => ?_⟩
    rw [step, State.next]
    split
    · exact Function.update_of_ne hne ..
    · split
      · split
        · exact Function.update_of_ne hne ..
        · exact Function.update_of_ne hne ..
      · exact Function.update_of_ne hne ..
    · rfl
  | report w ok time reply =>
    refine ⟨w, fun w' hne => ?_⟩
    rw [step, State.report]
    split
    · dsimp only
      split
      · exact Function.update_of_ne hne ..
      · exact Function.update_of_ne hne ..
    · rfl
  | crash w => exact ⟨w, fun w' hne => Function.update_of_ne hne ..⟩
  | create name time => exact ⟨0, fun _ _ => rfl⟩
  | gc name ttl now => exact ⟨0, fun _ _ => rfl⟩

theorem MostIdle.step (h : MostIdle s) (op : Op) : MostIdle (step maxAttempts s op) := by
  obtain ⟨n, hn⟩ := h
  obtain ⟨w, hw⟩ := workers_step maxAttempts s op
  refine ⟨n + w + 1, fun w' hle => ?_⟩
  rw [hw w' (by omega), hn w' (by omega)]

/-- In every state of a run the requests that are not done or failed are eligible exactly if no step
of the run strands one. -/
theorem requests_eligible_iff (maxAttempts : ℤ) (ops : List Op) :
    (∀ pre, pre <+: ops → OpenEligible maxAttempts (run (step maxAttempts) start pre)) ↔
      Along (step maxAttempts) (fun s op => ¬ Strands s op) start ops := by
  have hiff : ∀ s, Sound maxAttempts s ∧ MostIdle s →
      (OpenEligible maxAttempts s ↔ AllAttended s) := by
    rintro s ⟨hsound, n, hn⟩
    exact openEligible_iff hsound n (hn n (Nat.le_refl n))
  have hinv : ∀ s op, Sound maxAttempts s ∧ MostIdle s →
      Sound maxAttempts (step maxAttempts s op) ∧ MostIdle (step maxAttempts s op) :=
    fun s op h => ⟨h.1.step op, h.2.step op⟩
  have hstart : Sound maxAttempts start ∧ MostIdle start :=
    ⟨sound_start maxAttempts, 0, fun _ _ => rfl⟩
  refine forall_prefix_iff_along_of_inv (I := fun s => Sound maxAttempts s ∧ MostIdle s)
    (fun s op hs hi => ?_) (fun s op _ hi _ => hinv s op hi) ?_ hstart ops
  · rw [hiff _ (hinv s op hi)]
    exact attended_step_iff hi.1 ((hiff s hi).mp hs) op
  · exact (hiff start hstart).mpr fun r hr => absurd hr List.not_mem_nil

/-- A worker that ends after its claim, as when resolving the ingest keys raises, strands the
request. -/
theorem not_requests_eligible : ¬ ∀ (maxAttempts : ℤ) (ops : List Op),
    OpenEligible maxAttempts (run (step maxAttempts) start ops) := by
  intro h
  let ops : List Op := [.create (str "sr-0") 0, .list 0 0, .next 0 0 .answered]
  have hsound := sound_run 5 ops
  have hclaimed : ((run (step 5) start ops).workers 0).claim ≠ none :=
    Option.ne_none_iff_isSome.mpr rfl
  have hbefore := (openEligible_iff hsound 1 rfl).mp (h 5 ops)
  have hlater : OpenEligible 5 (step 5 (run (step 5) start ops) (.crash 0)) := by
    have := h 5 (ops ++ [.crash 0])
    rwa [run_append, run_cons, run_nil] at this
  have hafter := (openEligible_iff (hsound.step (.crash 0)) 1 rfl).mp hlater
  exact (attended_step_iff hsound hbefore (.crash 0)).mp hafter hclaimed

end Vat.ScanQueue
