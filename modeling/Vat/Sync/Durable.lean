import Vat.Sync.Retry

/-!
# Creates that survive their pass

A pass calls the tracker event by event and commits once. An issue that it created is recorded when
the pass reaches its end: a batch call that raises later in the pass takes the record with it, and
the next pass creates the issue again.

Source: `backend/app/services/sync_service.py`, lines 546–601 and 713–948.

## Main definitions

* `SyncPass.Creates`: a pass creates an issue for an event.
* `SyncDb.Recorded`: the event is done and its finding has the link.
* `CreatesKept`: what a run owes to every issue that it creates.
* `SyncPass.KeepsCreates`: no call ends the pass after a create, and no later event of the pass
  links the finding elsewhere.

## Main results

* `SyncDb.getTrackerIssueId_processPending`: the link of a finding after a pass.
* `SyncDb.completed_run`: a completed event stays as it is.
* `recorded_step_iff`: the passes after which every created issue is recorded.
* `createsKept_iff`: a run keeps its creates exactly if each of its passes does.
-/

namespace Vat

open Relational Transition

/-! ### Links -/

/-- The issue that an event links a finding to in a tracker. -/
def linkOf (findingId key : Str) (q : SyncEvent × Outcome) : Option Str :=
  if q.1.findingId = findingId ∧ q.1.key = key then q.2.issue else none

/-- The last issue that events link a finding to in a tracker. -/
def lastLink (findingId key : Str) (os : List (SyncEvent × Outcome)) : Option Str :=
  (os.filterMap (linkOf findingId key)).getLast?

theorem lastLink_append (findingId key : Str) (os os' : List (SyncEvent × Outcome)) :
    lastLink findingId key (os ++ os') = (lastLink findingId key os').or (lastLink findingId key os) := by
  rw [lastLink, List.filterMap_append, List.getLast?_append]
  rfl

theorem lastLink_cons (findingId key : Str) (q : SyncEvent × Outcome)
    (os : List (SyncEvent × Outcome)) :
    lastLink findingId key (q :: os) = (lastLink findingId key os).or (linkOf findingId key q) := by
  rw [← List.singleton_append, lastLink_append]
  congr 1
  rw [lastLink, List.filterMap_cons]
  cases linkOf findingId key q <;> rfl

namespace SyncDb

theorem putFinding_findings_self (db : SyncDb) (id : Str) (f : TrackedFinding) :
    (db.putFinding id f).findings id = f := Function.update_self ..

theorem putFinding_findings_of_ne (db : SyncDb) {id id' : Str} (f : TrackedFinding) (h : id' ≠ id) :
    (db.putFinding id f).findings id' = db.findings id' := Function.update_of_ne h ..

/-- The links after a link was recorded. -/
theorem getTrackerIssueId_recordLink (db : SyncDb) (now : Instant) (ev : SyncEvent) (issueId : Str)
    (issueUuid : Option Str) (findingId key : Str) :
    getTrackerIssueId ((db.recordLink now ev issueId issueUuid).findings findingId) key =
      if ev.findingId = findingId ∧ ev.key = key then some issueId
      else getTrackerIssueId (db.findings findingId) key := by
  rw [recordLink]
  by_cases hid : ev.findingId = findingId
  · subst hid
    rw [putFinding_findings_self]
    refine (getTrackerIssueId_addTrackerLink (db.findings ev.findingId) ev.key key issueId issueUuid
      now).trans ?_
    simp only [true_and, eq_comm]
  · rw [putFinding_findings_of_ne _ _ (Ne.symm hid), if_neg fun h => hid h.1]

variable [UuidSource]

theorem findings_enqueueTrackerUpdateIssue (db : SyncDb) (now : Instant) (findingId key : Str)
    (finding : FindingDict) (changedFields : List Str) :
    (db.enqueueTrackerUpdateIssue now findingId key finding changedFields).findings =
      db.findings := by
  unfold enqueueTrackerUpdateIssue
  split
  · rfl
  · split_ifs <;> rfl

theorem findings_recordLinked (db : SyncDb) (env : SyncEnv) (now : Instant) (ev : SyncEvent)
    (issueId : Str) (finding : FindingDict) (changedFields : List Str) :
    (db.recordLinked env now ev issueId finding changedFields).findings =
      (db.recordLink now ev issueId none).findings := by
  rw [recordLinked]
  split_ifs
  · exact findings_enqueueTrackerUpdateIssue ..
  · rfl

/-- The links after the writes for an event. -/
theorem getTrackerIssueId_settle (env : SyncEnv) (now : Instant) (db : SyncDb)
    (q : SyncEvent × Outcome) (findingId key : Str) :
    getTrackerIssueId ((settle env now db q).findings findingId) key =
      (linkOf findingId key q).or (getTrackerIssueId (db.findings findingId) key) := by
  obtain ⟨ev, o⟩ := q
  have hlink (issueId : Str) (issueUuid : Option Str) :
      getTrackerIssueId ((db.recordLink now ev issueId issueUuid).findings findingId) key =
        (if ev.findingId = findingId ∧ ev.key = key then some issueId else none).or
          (getTrackerIssueId (db.findings findingId) key) := by
    rw [getTrackerIssueId_recordLink]
    split_ifs <;> rfl
  have hnone : ((if ev.findingId = findingId ∧ ev.key = key then none else none : Option Str)).or
      (getTrackerIssueId (db.findings findingId) key) =
        getTrackerIssueId (db.findings findingId) key := by
    rw [ite_self, Option.none_or]
  change getTrackerIssueId ((db.record env now ev o).findings findingId) key = _
  match o with
  | .sent (.created issueId issueUuid) => exact hlink issueId issueUuid
  | .batchCreated issueId issueUuid => exact hlink issueId issueUuid
  | .sent (.linked issueId) =>
    rw [record, findings_recordLinked]
    exact hlink issueId none
  | .batchLinked issueId =>
    rw [record, findings_recordLinked]
    exact hlink issueId none
  | .failed e =>
    refine Eq.trans ?_ hnone.symm
    rw [record]
    split_ifs
    · rw [recordFailure]
      by_cases hid : findingId = ev.findingId
      · rw [hid, putFinding_findings_self]
        rfl
      · rw [putFinding_findings_of_ne _ _ hid]
    · rfl
  | .sent .sent | .skipped | .batchCreateFailed _ | .batchCreateUnanswered | .batchUpdated
  | .batchUpdateFailed _ | .batchUpdateUnanswered | .batchRaised => exact hnone.symm

/-- The links after the writes for several events. -/
theorem getTrackerIssueId_settleAll (env : SyncEnv) (now : Instant) (db : SyncDb)
    (os : List (SyncEvent × Outcome)) (findingId key : Str) :
    getTrackerIssueId ((os.foldl (settle env now) db).findings findingId) key =
      (lastLink findingId key os).or (getTrackerIssueId (db.findings findingId) key) := by
  induction os generalizing db with
  | nil => rfl
  | cons q os ih =>
    rw [List.foldl_cons, ih, getTrackerIssueId_settle, lastLink_cons, Option.or_assoc]

/-- The links after a pass that nothing ends. -/
theorem getTrackerIssueId_processPending {p : SyncPass} {db : SyncDb} (h : ¬ p.Raises db)
    (findingId key : Str) :
    getTrackerIssueId ((db.processPendingSyncEvents p).findings findingId) key =
      (lastLink findingId key (p.handedOver db)).or
        (getTrackerIssueId (db.findings findingId) key) := by
  rw [processPendingSyncEvents_of_not_raises h, getTrackerIssueId_settleAll]

/-! ### Completed events -/

/-- A completed event. -/
def Completed (db : SyncDb) (id : Str) : Prop :=
  ∃ ev, db.events.get? id = some ev ∧ ev.status = .completed

omit [UuidSource] in
/-- No pass takes a completed event. -/
theorem Completed.notMem_handedOver {db : SyncDb} {id : Str} (h : db.Completed id) (p : SyncPass) :
    id ∉ (p.handedOver db).map (·.1.id) := by
  intro hmem
  obtain ⟨q, hq, rfl⟩ := List.mem_map.mp hmem
  obtain ⟨ev, hev, hstatus⟩ := h
  rw [(SyncPass.get?_of_mem_handedOver hq).1] at hev
  cases hev
  rcases SyncPass.queued_of_mem_handedOver hq with hq | hq <;> rw [hstatus] at hq <;> cases hq

/-- No operation touches a completed event. -/
theorem Completed.step {db : SyncDb} {id : Str} (h : db.Completed id) (op : SyncOp) :
    (db.step op).Completed id := by
  obtain ⟨ev, hev, hstatus⟩ := h
  cases op with
  | enqueue now findingId target targetKey eventType payload =>
    exact ⟨ev, (get?_addEvent_of_isSome _ _ _ _ _ _ _ _ _ (by rw [hev]; rfl)).trans hev, hstatus⟩
  | pass p =>
    have hid := Completed.notMem_handedOver ⟨ev, hev, hstatus⟩ p
    exact ⟨ev, (get?_processPending_of_notMem hid (by rw [hev]; rfl)).trans hev, hstatus⟩
  | releaseStale =>
    refine ⟨ev, ?_, hstatus⟩
    rw [SyncDb.step, get?_releaseStale, hev, Option.map_some, SyncEvent.released, if_neg]
    rw [hstatus]
    exact SyncStatus.noConfusion
  | resetFailed now key =>
    refine ⟨ev, ?_, hstatus⟩
    rw [SyncDb.step, get?_resetFailedTrackerEvents, hev, Option.map_some, SyncEvent.reset, if_neg]
    simp [SyncEvent.isReset, hstatus]

theorem completed_run {db : SyncDb} {id : Str} (h : db.Completed id) (ops : List SyncOp) :
    (run SyncDb.step db ops).Completed id := by
  have hstep : ∀ s op, (fun s : SyncDb => s.Completed id) s →
      (fun s : SyncDb => s.Completed id) (SyncDb.step s op) := fun _ op h => h.step op
  exact run_induction hstep h ops

/-- The event is done and its finding has the link. -/
def Recorded (db : SyncDb) (ev : SyncEvent) (issueId : Str) : Prop :=
  db.Completed ev.id ∧ getTrackerIssueId (db.findings ev.findingId) ev.key = some issueId

end SyncDb

/-! ### Creates -/

/-- A pass creates an issue for an event. -/
def SyncPass.Creates (p : SyncPass) (db : SyncDb) (ev : SyncEvent) (issueId : Str) : Prop :=
  ∃ o, (ev, o) ∈ p.handedOver db ∧ o.createdIssue = some issueId

/-- No call ends a pass that created an issue, and no later event of the pass links the finding to
another issue of the tracker. -/
structure SyncPass.KeepsCreates (p : SyncPass) (db : SyncDb) : Prop where
  not_raises : ∀ ev issueId, p.Creates db ev issueId → ¬ p.Raises db
  not_replaced : ∀ before q after, p.handedOver db = before ++ q :: after →
    ∀ issueId, q.2.createdIssue = some issueId →
      ∀ later, lastLink q.1.findingId q.1.key after = some later → later = issueId

theorem Outcome.issue_of_createdIssue {o : Outcome} {issueId : Str}
    (h : o.createdIssue = some issueId) : o.issue = some issueId := by
  match o, h with
  | .sent (.created _ _), h => exact h
  | .batchCreated _ _, h => exact h

theorem SyncEvent.status_settled_of_createdIssue (ev : SyncEvent) (now : Instant) {o : Outcome}
    {issueId : Str} (h : o.createdIssue = some issueId) :
    (ev.settled now o).status = .completed := by
  match o, h with
  | .sent (.created _ _), _ => rfl
  | .batchCreated _ _, _ => rfl

section Passes

variable [UuidSource]

theorem recorded_iff_of_split {p : SyncPass} {db : SyncDb} (hr : ¬ p.Raises db)
    {before after : List (SyncEvent × Outcome)} {q : SyncEvent × Outcome}
    (hsplit : p.handedOver db = before ++ q :: after) {issueId : Str}
    (hcreated : q.2.createdIssue = some issueId) :
    (db.processPendingSyncEvents p).Recorded q.1 issueId ↔
      ∀ later, lastLink q.1.findingId q.1.key after = some later → later = issueId := by
  have hq : q ∈ p.handedOver db := by
    rw [hsplit]
    exact List.mem_append_right before List.mem_cons_self
  have hdone : (db.processPendingSyncEvents p).Completed q.1.id :=
    ⟨_, SyncDb.get?_processPending_of_mem hr hq,
      q.1.status_settled_of_createdIssue p.now hcreated⟩
  have hlink : linkOf q.1.findingId q.1.key q = some issueId := by
    rw [linkOf, if_pos ⟨rfl, rfl⟩, Outcome.issue_of_createdIssue hcreated]
  rw [SyncDb.Recorded, and_iff_right hdone, SyncDb.getTrackerIssueId_processPending hr, hsplit,
    lastLink_append, lastLink_cons, hlink]
  cases lastLink q.1.findingId q.1.key after with
  | none => simp
  | some later => simp

/-- The passes after which every issue that they created is recorded. -/
theorem recorded_step_iff (p : SyncPass) (db : SyncDb) :
    (∀ ev issueId, p.Creates db ev issueId →
        (db.processPendingSyncEvents p).Recorded ev issueId) ↔ p.KeepsCreates db := by
  constructor
  · intro h
    have hnot : ∀ ev issueId, p.Creates db ev issueId → ¬ p.Raises db := by
      rintro ev issueId ⟨o, ho, hcreated⟩ hr
      -- The rolled back event is still in the queue.
      have hdone := (h ev issueId ⟨o, ho, hcreated⟩).1
      rw [SyncDb.processPendingSyncEvents_of_raises hr] at hdone
      exact hdone.notMem_handedOver p (List.mem_map.mpr ⟨_, ho, rfl⟩)
    refine ⟨hnot, fun before q after hsplit issueId hcreated => ?_⟩
    have hq : (q.1, q.2) ∈ p.handedOver db := by
      rw [hsplit]
      exact List.mem_append_right before List.mem_cons_self
    have hcreates : p.Creates db q.1 issueId := ⟨q.2, hq, hcreated⟩
    exact (recorded_iff_of_split (hnot _ _ hcreates) hsplit hcreated).mp (h _ _ hcreates)
  · rintro h ev issueId ⟨o, ho, hcreated⟩
    obtain ⟨before, after, hsplit⟩ := List.append_of_mem ho
    exact (recorded_iff_of_split (h.not_raises ev issueId ⟨o, ho, hcreated⟩) hsplit hcreated).mpr
      (h.not_replaced before _ after hsplit issueId hcreated)

/-- After the pass that created it, every issue is recorded, and no later pass takes its event. -/
def CreatesKept (db : SyncDb) (ops : List SyncOp) : Prop :=
  ∀ pre p post, ops = pre ++ .pass p :: post →
    ∀ ev issueId, p.Creates (run SyncDb.step db pre) ev issueId →
      (run SyncDb.step db (pre ++ [.pass p])).Recorded ev issueId ∧
        ∀ mid p' post', post = mid ++ .pass p' :: post' →
          ev.id ∉ (p'.handedOver (run SyncDb.step db (pre ++ .pass p :: mid))).map (·.1.id)

/-- A run keeps its creates exactly if each of its passes does. -/
theorem createsKept_iff (db : SyncDb) (ops : List SyncOp) :
    CreatesKept db ops ↔
      Along SyncDb.step (fun db op => ∀ p, op = .pass p → p.KeepsCreates db) db ops := by
  have hpass (pre : List SyncOp) (p : SyncPass) : run SyncDb.step db (pre ++ [.pass p]) =
      (run SyncDb.step db pre).processPendingSyncEvents p := by
    rw [run_append]
    rfl
  rw [along_iff_forall_split]
  constructor
  · rintro h pre op post hops p rfl
    rw [← recorded_step_iff]
    intro ev issueId hcreates
    rw [← hpass]
    exact (h pre p post hops ev issueId hcreates).1
  · intro h pre p post hops ev issueId hcreates
    have hrecorded := (recorded_step_iff p _).mpr (h pre _ post hops p rfl) ev issueId hcreates
    rw [hpass]
    refine ⟨hrecorded, fun mid p' post' _ => ?_⟩
    rw [List.append_cons, run_append, hpass]
    exact (SyncDb.completed_run hrecorded.1 mid).notMem_handedOver p'

end Passes

/-! ### A batch call that raises after a create -/

/-- A tracker that creates issues and has no batch of updates to offer but an error. -/
def failingUpdates : TrackerAdapter :=
  { newTracker with updateIssuesBatch := some fun _ => .error (raised (str "timeout")) }

/-- The request to update an issue. -/
def enqueueUpdate (now : Instant) (findingId : String) : SyncOp :=
  .enqueue now (str findingId) .tracker (some (str "linear")) .updateIssue
    (.updateIssue (str "I1") ⟨none, none, none, none, none⟩ [] none)

section Example

attribute [local instance] longestIds

/-- A create, then two updates that go to one batch. -/
def timeoutQueue : List SyncOp := [enqueueCreate 1 "F1", enqueueUpdate 2 "F2", enqueueUpdate 3 "F3"]

/-- No event and no link. -/
def emptyQueue : SyncDb := ⟨.empty, fun _ => .unsynced⟩

/-- The pass creates the issue, the batch of updates raises, and the event waits for another
pass. -/
theorem not_createsKept_timeout :
    ¬ CreatesKept emptyQueue (timeoutQueue ++ [.pass (trackerPass failingUpdates 4)]) := by
  intro h
  have hhanded : ((trackerPass failingUpdates 4).handedOver
      (run SyncDb.step emptyQueue timeoutQueue)).map (fun q => (q.1.id, q.2.createdIssue)) =
        [(str "0", some (str "0")), (str "00", none), (str "0000", none)] := by decide
  have hrow : ((run SyncDb.step emptyQueue (timeoutQueue ++
      [.pass (trackerPass failingUpdates 4)])).events.get? (str "0")).map SyncEvent.status =
        some .pending := by decide
  obtain ⟨⟨ev, o⟩, hmem, heq⟩ : ∃ q ∈ (trackerPass failingUpdates 4).handedOver
      (run SyncDb.step emptyQueue timeoutQueue),
        (q.1.id, q.2.createdIssue) = (str "0", some (str "0")) := by
    rw [← List.mem_map, hhanded]
    exact List.mem_cons_self
  obtain ⟨hid, hcreated⟩ := Prod.mk.inj heq
  obtain ⟨⟨⟨row, hget, hstatus⟩, -⟩, -⟩ := h timeoutQueue _ [] rfl ev (str "0") ⟨o, hmem, hcreated⟩
  dsimp only at hid
  rw [hid] at hget
  rw [hget, Option.map_some, hstatus] at hrow
  cases hrow

end Example

end Vat
