import Mathlib.Data.List.Perm.Subperm
import Vat.Sync.Worker
import Vat.Transition.Except

/-!
# What a pass leaves

The writes for one event change its row, the finding of the event, and append rows. A pass that no
batch call ends writes for each of its events in turn, and a pass that one ends writes nothing, but
the events up to that call were handed over all the same.

## Main definitions

* `SyncDb.Extends`: the rows that were there stay, and every other row is fresh.
* `handedOver`, `SyncPass.handedOver`: the events that a pass hands over, with what comes of them.
* `SyncPass.Raises`.

## Main results

* `SyncPass.nodup_handedOver`, `SyncPass.get?_of_mem_handedOver`: a pass hands over due rows, each
  once.
* `SyncDb.processPendingSyncEvents_of_raises`, `SyncDb.processPendingSyncEvents_of_not_raises`.
* `SyncDb.get?_processPending_of_mem`, `SyncDb.get?_processPending_of_notMem`,
  `SyncDb.fresh_of_processPending`: the rows after a pass.
-/

namespace Vat

open Relational Transition

/-! ### Writes -/

/-- A row as the queue creates it. -/
structure SyncEvent.Fresh (ev : SyncEvent) : Prop where
  attempts : ev.attempts = 0
  maxAttempts : ev.maxAttempts = 5
  status : ev.status = .pending ∨ ev.status = .completed

theorem SyncEvent.Fresh.positive {ev : SyncEvent} (h : ev.Fresh) : 0 < ev.maxAttempts := by
  rw [h.maxAttempts]
  exact Nat.succ_pos 4

namespace SyncDb

/-- The rows that were there stay, and every other row is fresh. -/
structure Extends (db db' : SyncDb) : Prop where
  get? : ∀ id, (db.events.get? id).isSome → db'.events.get? id = db.events.get? id
  fresh : ∀ id ev, db.events.get? id = none → db'.events.get? id = some ev → ev.Fresh

theorem Extends.of_events_eq {db db' : SyncDb} (h : db'.events = db.events) : Extends db db' where
  get? := fun id _ => by rw [h]
  fresh := fun id ev hnone hsome => by
    rw [h, hnone] at hsome
    cases hsome

theorem Extends.refl (db : SyncDb) : Extends db db := .of_events_eq rfl

theorem Extends.trans {db db' db'' : SyncDb} (h : Extends db db') (h' : Extends db' db'') :
    Extends db db'' where
  get? := fun id hid => by
    have hid' : (db'.events.get? id).isSome := by rwa [h.get? id hid]
    rw [h'.get? id hid', h.get? id hid]
  fresh := fun id ev hnone hsome => by
    cases hmid : db'.events.get? id with
    | none => exact h'.fresh id ev hmid hsome
    | some ev' =>
      have hkeep := h'.get? id (by simp [hmid])
      rw [hsome, hmid] at hkeep
      cases hkeep
      exact h.fresh id ev hnone hmid

variable [UuidSource]

theorem extends_addEvent (db : SyncDb) (now : Instant) (findingId : Str) (target : SyncTarget)
    (targetKey : Option Str) (eventType : SyncEventType) (payload : SyncPayload)
    {status : SyncStatus} (completedAt : Option Instant)
    (hstatus : status = .pending ∨ status = .completed) :
    Extends db (db.addEvent now findingId target targetKey eventType payload status completedAt) where
  get? := fun _ hid => db.get?_addEvent_of_isSome _ _ _ _ _ _ _ _ hid
  fresh := fun id ev hnone hsome => by
    rw [addEvent, Table.get?_insert] at hsome
    split_ifs at hsome with hid
    · cases hsome
      exact ⟨rfl, rfl, hstatus⟩
    · rw [hnone] at hsome
      cases hsome

theorem extends_enqueueTrackerUpdateIssue (db : SyncDb) (now : Instant) (findingId key : Str)
    (finding : FindingDict) (changedFields : List Str) :
    Extends db (db.enqueueTrackerUpdateIssue now findingId key finding changedFields) := by
  unfold enqueueTrackerUpdateIssue
  cases getTrackerIssueId (db.findings findingId) key with
  | none => exact Extends.refl db
  | some issueId =>
    dsimp only
    split_ifs
    · exact Extends.refl db
    · exact extends_addEvent db _ _ _ _ _ _ _ (Or.inl rfl)

theorem extends_recordLinked (db : SyncDb) (env : SyncEnv) (now : Instant) (ev : SyncEvent)
    (issueId : Str) (finding : FindingDict) (changedFields : List Str) :
    Extends db (db.recordLinked env now ev issueId finding changedFields) := by
  have hlink : Extends db (db.recordLink now ev issueId none) := .of_events_eq rfl
  rw [recordLinked]
  split_ifs
  · exact hlink.trans (extends_enqueueTrackerUpdateIssue _ _ _ _ _ _)
  · exact hlink

theorem extends_recordCreated (db : SyncDb) (now : Instant) (ev : SyncEvent) (issueId : Str)
    (issueUuid : Option Str) : Extends db (db.recordCreated now ev issueId issueUuid) := by
  have hlink : Extends db (db.recordLink now ev issueId issueUuid) := .of_events_eq rfl
  exact hlink.trans (extends_addEvent _ _ _ _ _ _ _ _ (Or.inr rfl))

theorem extends_record (db : SyncDb) (env : SyncEnv) (now : Instant) (ev : SyncEvent)
    (o : Outcome) : Extends db (db.record env now ev o) := by
  match o with
  | .sent (.created issueId issueUuid) => exact extends_recordCreated db now ev issueId issueUuid
  | .sent (.linked issueId) => exact extends_recordLinked db env now ev issueId _ _
  | .batchLinked issueId => exact extends_recordLinked db env now ev issueId _ _
  | .batchCreated issueId issueUuid => exact extends_recordCreated db now ev issueId issueUuid
  | .failed e =>
    rw [record]
    split_ifs
    · exact .of_events_eq rfl
    · exact Extends.refl db
  | .sent .sent | .skipped | .batchCreateFailed _ | .batchCreateUnanswered | .batchUpdated
  | .batchUpdateFailed _ | .batchUpdateUnanswered | .batchRaised => exact Extends.refl db

/-- The row of the event after the writes for it. -/
theorem get?_settle_self (env : SyncEnv) (now : Instant) {db : SyncDb} {ev old : SyncEvent}
    (h : db.events.get? ev.id = some old) (o : Outcome) :
    (settle env now db (ev, o)).events.get? ev.id = some (ev.settled now o) := by
  have hrow : (db.record env now ev o).events.get? (ev.settled now o).id = some old := by
    rw [SyncEvent.id_settled, (extends_record db env now ev o).get? _ (by simp [h]), h]
  have hput := get?_put_self _ hrow
  rwa [SyncEvent.id_settled] at hput

/-- The writes for an event do not touch the other rows. -/
theorem get?_settle_of_ne (env : SyncEnv) (now : Instant) {db : SyncDb} (p : SyncEvent × Outcome)
    {id : Str} (hid : id ≠ p.1.id) (h : (db.events.get? id).isSome) :
    (settle env now db p).events.get? id = db.events.get? id := by
  rw [settle, get?_put_of_ne _ (by rwa [SyncEvent.id_settled]),
    (extends_record db env now p.1 p.2).get? id h]

/-- The rows that the writes for an event add are fresh. -/
theorem fresh_of_settle (env : SyncEnv) (now : Instant) {db : SyncDb} (p : SyncEvent × Outcome)
    {id : Str} {ev : SyncEvent} (hid : id ≠ p.1.id) (hnone : db.events.get? id = none)
    (h : (settle env now db p).events.get? id = some ev) : ev.Fresh := by
  rw [settle, get?_put_of_ne _ (by rwa [SyncEvent.id_settled])] at h
  exact (extends_record db env now p.1 p.2).fresh id ev hnone h

/-- The rows of a list of events with their outcomes. -/
def HasRows (db : SyncDb) (os : List (SyncEvent × Outcome)) : Prop :=
  ∀ p ∈ os, (db.events.get? p.1.id).isSome

theorem HasRows.settle {env : SyncEnv} {now : Instant} {db : SyncDb} {p : SyncEvent × Outcome}
    {os : List (SyncEvent × Outcome)} (h : db.HasRows (p :: os)) :
    (SyncDb.settle env now db p).HasRows os := by
  intro q hq
  by_cases hid : q.1.id = p.1.id
  · obtain ⟨old, hold⟩ := Option.isSome_iff_exists.mp (h p List.mem_cons_self)
    rw [hid, get?_settle_self env now hold p.2, Option.isSome_some]
  · rw [get?_settle_of_ne env now p hid (h q (List.mem_cons_of_mem p hq))]
    exact h q (List.mem_cons_of_mem p hq)

/-- The rows of other events stay. -/
theorem get?_settleAll_of_notMem (env : SyncEnv) (now : Instant) {db : SyncDb}
    {os : List (SyncEvent × Outcome)} {id : Str} (hid : id ∉ os.map (·.1.id))
    (h : (db.events.get? id).isSome) :
    (os.foldl (settle env now) db).events.get? id = db.events.get? id := by
  induction os generalizing db with
  | nil => rfl
  | cons p os ih =>
    rw [List.map_cons, List.mem_cons, not_or] at hid
    have hkeep := get?_settle_of_ne env now p hid.1 h
    rw [List.foldl_cons, ih hid.2 (by rwa [hkeep]), hkeep]

/-- The row of each event is the one that its outcome leaves. -/
theorem get?_settleAll_of_mem (env : SyncEnv) (now : Instant) {db : SyncDb}
    {os : List (SyncEvent × Outcome)} (hnodup : (os.map (·.1.id)).Nodup) (hrows : db.HasRows os)
    {p : SyncEvent × Outcome} (hp : p ∈ os) :
    (os.foldl (settle env now) db).events.get? p.1.id = some (p.1.settled now p.2) := by
  induction os generalizing db with
  | nil => cases hp
  | cons q os ih =>
    rw [List.map_cons, List.nodup_cons] at hnodup
    rw [List.foldl_cons]
    rcases List.mem_cons.mp hp with rfl | hp
    · obtain ⟨old, hold⟩ := Option.isSome_iff_exists.mp (hrows p List.mem_cons_self)
      have hself := get?_settle_self env now hold p.2
      rw [get?_settleAll_of_notMem env now hnodup.1 (by rw [hself]; rfl), hself]
    · exact ih hnodup.2 hrows.settle hp

/-- Every row that the writes add is fresh. -/
theorem fresh_of_settleAll (env : SyncEnv) (now : Instant) {db : SyncDb}
    {os : List (SyncEvent × Outcome)} (hrows : db.HasRows os) {id : Str} {ev : SyncEvent}
    (hnone : db.events.get? id = none)
    (h : (os.foldl (settle env now) db).events.get? id = some ev) : ev.Fresh := by
  induction os generalizing db with
  | nil =>
    rw [List.foldl_nil, hnone] at h
    cases h
  | cons p os ih =>
    have hid : id ≠ p.1.id := by
      rintro rfl
      simpa [hnone] using hrows p List.mem_cons_self
    rw [List.foldl_cons] at h
    cases hmid : (settle env now db p).events.get? id with
    | none => exact ih hrows.settle hmid h
    | some ev' =>
      have hnotMem : id ∉ os.map (·.1.id) := by
        intro hmem
        obtain ⟨q, hq, rfl⟩ := List.mem_map.mp hmem
        simpa [hnone] using hrows q (List.mem_cons_of_mem p hq)
      rw [get?_settleAll_of_notMem env now hnotMem (by rw [hmid]; rfl), hmid] at h
      cases h
      exact fresh_of_settle env now p hid hnone hmid

end SyncDb

/-! ### The events of a pass -/

/-- Whether an event is in the queue. -/
def SyncEvent.Queued (ev : SyncEvent) : Prop := ev.status = .pending ∨ ev.status = .processing

section Answered

variable {α : Type*} (batch : List SyncEvent) (answers : List α) (f : α → Outcome)
  (unanswered : Outcome)

@[simp] theorem answered_nil : answered [] answers f unanswered = [] := rfl

@[simp] theorem answered_cons_nil (ev : SyncEvent) :
    answered (ev :: batch) [] f unanswered = (ev, unanswered) :: answered batch [] f unanswered :=
  rfl

@[simp] theorem answered_cons_cons (ev : SyncEvent) (a : α) :
    answered (ev :: batch) (a :: answers) f unanswered =
      (ev, f a) :: answered batch answers f unanswered := by
  simp [answered]

@[simp] theorem map_fst_answered :
    (answered batch answers f unanswered).map Prod.fst = batch := by
  induction batch generalizing answers with
  | nil => rfl
  | cons ev batch ih =>
    cases answers with
    | nil => rw [answered_cons_nil, List.map_cons, ih]
    | cons a answers => rw [answered_cons_cons, List.map_cons, ih]

end Answered

/-- The events that are linked and the events that are created make up the batch. -/
theorem perm_of_classified {env : SyncEnv} {ad : TrackerAdapter} {batch : List SyncEvent}
    {classified : List (SyncEvent × Option Str)}
    (h : batch.mapM (classify env ad) = .ok classified) :
    ((classified.filterMap fun p =>
        p.2.map fun issueId => (p.1, Outcome.batchLinked issueId)).map Prod.fst ++
      classified.filterMap fun p => if p.2.isNone then some p.1 else none).Perm batch := by
  have hclassified := mapM_eq_ok_iff.mp h
  clear h
  induction hclassified with
  | nil => exact List.Perm.refl []
  | @cons ev p batch classified hp _ ih =>
    obtain ⟨finding, -, hp⟩ := bind_eq_ok_iff.mp hp
    obtain ⟨existing, -, hp⟩ := bind_eq_ok_iff.mp hp
    cases hp
    cases hex : existing.filter (· ≠ []) with
    | some issueId => simpa [hex] using ih
    | none =>
      simp only [List.filterMap_cons, Option.map_none, Option.isNone_none, if_true]
      exact List.perm_middle.trans (ih.cons ev)

/-- A create batch has an outcome for each of its events. -/
theorem perm_of_createBatchOutcomes {env : SyncEnv} {ad : TrackerAdapter}
    {createIssues : List SyncEvent →
      Except SyncError (List (Except SyncError (Str × Option Str)))}
    {batch : List SyncEvent} {os : List (SyncEvent × Outcome)}
    (h : createBatchOutcomes env ad createIssues batch = .ok os) :
    (os.map Prod.fst).Perm batch := by
  obtain ⟨classified, hclassified, h⟩ := bind_eq_ok_iff.mp h
  have hperm := perm_of_classified hclassified
  dsimp only at h
  split_ifs at h with hnil
  · cases h
    rwa [hnil, List.append_nil] at hperm
  · obtain ⟨answers, -, h⟩ := bind_eq_ok_iff.mp h
    cases h
    rwa [List.map_append, map_fst_answered]

/-- An update batch has an outcome for each of its events. -/
theorem perm_of_updateBatchOutcomes {env : SyncEnv}
    {updateIssues : List SyncEvent → Except SyncError (List (Option SyncError))}
    {batch : List SyncEvent} {os : List (SyncEvent × Outcome)}
    (h : updateBatchOutcomes env updateIssues batch = .ok os) :
    (os.map Prod.fst).Perm batch := by
  obtain ⟨-, -, h⟩ := bind_eq_ok_iff.mp h
  obtain ⟨answers, -, h⟩ := bind_eq_ok_iff.mp h
  cases h
  rw [map_fst_answered]

/-- A run has an outcome for each of its events. -/
theorem perm_of_runOutcomes {env : SyncEnv} {batch : List SyncEvent}
    {os : List (SyncEvent × Outcome)} (h : runOutcomes env batch = .ok os) :
    (os.map Prod.fst).Perm batch := by
  have hmap (f : SyncEvent → Outcome) : ((batch.map fun ev => (ev, f ev)).map Prod.fst).Perm batch := by
    rw [List.map_map]
    exact List.Perm.of_eq (List.map_id batch)
  unfold runOutcomes at h
  split at h
  · split at h
    · exact perm_of_createBatchOutcomes h
    · exact perm_of_updateBatchOutcomes h
    · cases h
      exact hmap _
  · cases h
    exact hmap _

/-- The events of runs that are handed over, with what comes of them: the last run may be one that
its batch call ends. -/
def handedOver (env : SyncEnv) : List (List SyncEvent) → List (SyncEvent × Outcome)
  | [] => []
  | batch :: runs =>
    match runOutcomes env batch with
    | .ok os => os ++ handedOver env runs
    | .error _ => batch.map fun ev => (ev, .batchRaised)

theorem subperm_handedOver (env : SyncEnv) (runs : List (List SyncEvent)) :
    ((handedOver env runs).map Prod.fst).Subperm runs.flatten := by
  induction runs with
  | nil => exact List.Subperm.refl []
  | cons batch runs ih =>
    rw [handedOver, List.flatten_cons]
    split
    · next os hos =>
      rw [List.map_append]
      exact List.Subperm.append (perm_of_runOutcomes hos).subperm ih
    · rw [List.map_map]
      have hid : batch.map (Prod.fst ∘ fun ev => (ev, Outcome.batchRaised)) = batch := List.map_id batch
      rw [hid]
      exact (List.sublist_append_left batch runs.flatten).subperm

/-- A run that its batch call ends is handed over all the same. -/
theorem mem_handedOver_of_raises {env : SyncEnv} {runs : List (List SyncEvent)}
    (hne : [] ∉ runs) (h : ∃ batch ∈ runs, ∀ os, runOutcomes env batch ≠ .ok os) :
    ∃ ev, (ev, Outcome.batchRaised) ∈ handedOver env runs := by
  induction runs with
  | nil => simp at h
  | cons batch runs ih =>
    rw [List.mem_cons, not_or] at hne
    rw [handedOver]
    split
    · next os hos =>
      obtain ⟨batch', hbatch', hraise⟩ := h
      rcases List.mem_cons.mp hbatch' with rfl | hbatch'
      · exact absurd hos (hraise os)
      · obtain ⟨ev, hev⟩ := ih hne.2 ⟨batch', hbatch', hraise⟩
        exact ⟨ev, List.mem_append_right os hev⟩
    · obtain ⟨ev, rest, rfl⟩ := List.exists_cons_of_ne_nil (Ne.symm hne.1)
      exact ⟨ev, List.mem_cons_self⟩

namespace SyncPass

/-- The events that a pass hands over, with what comes of them. -/
def handedOver (p : SyncPass) (db : SyncDb) : List (SyncEvent × Outcome) :=
  Vat.handedOver p.env (p.runs db)

/-- Some run of a pass ends it. -/
def Raises (p : SyncPass) (db : SyncDb) : Prop :=
  ∃ batch ∈ p.runs db, ∀ os, runOutcomes p.env batch ≠ .ok os

theorem subperm_claimed (p : SyncPass) (db : SyncDb) :
    ((p.handedOver db).map Prod.fst).Subperm (p.claimed db) := by
  have h := subperm_handedOver p.env (p.runs db)
  rwa [runs, List.flatten_splitBy] at h

theorem claimed_subperm (p : SyncPass) (db : SyncDb) :
    (p.claimed db).Subperm (db.events.rows.filter p.due) :=
  (List.take_sublist _ _).subperm.trans (p.order.perm _).subperm

/-- A pass hands over an event at most once. -/
theorem nodup_handedOver (p : SyncPass) (db : SyncDb) :
    ((p.handedOver db).map (·.1.id)).Nodup := by
  obtain ⟨rows, hperm, hsub⟩ := ((p.subperm_claimed db).trans (p.claimed_subperm db)).trans
    List.filter_sublist.subperm
  have hrows : (rows.map SyncEvent.id).Nodup := db.events.pk_nodup.sublist (hsub.map _)
  have hids := (hperm.map SyncEvent.id).nodup hrows
  rwa [List.map_map] at hids

/-- An event that a pass hands over is a due row. -/
theorem get?_of_mem_handedOver {p : SyncPass} {db : SyncDb} {q : SyncEvent × Outcome}
    (hq : q ∈ p.handedOver db) : db.events.get? q.1.id = some q.1 ∧ p.due q.1 := by
  have hsub := (p.subperm_claimed db).trans (p.claimed_subperm db)
  have hmem := List.mem_filter.mp (hsub.subset (List.mem_map_of_mem hq))
  exact ⟨Table.get?_pk_of_mem hmem.1, hmem.2⟩

/-- The events of a pass were in the queue. -/
theorem queued_of_mem_handedOver {p : SyncPass} {db : SyncDb} {q : SyncEvent × Outcome}
    (hq : q ∈ p.handedOver db) : q.1.Queued := by
  have hdue := (SyncPass.get?_of_mem_handedOver hq).2
  simp only [SyncPass.due, decide_eq_true_eq] at hdue
  exact hdue.1

theorem mem_handedOver_of_raises {p : SyncPass} {db : SyncDb} (h : p.Raises db) :
    ∃ ev, (ev, Outcome.batchRaised) ∈ p.handedOver db :=
  Vat.mem_handedOver_of_raises (List.nil_notMem_splitBy _ _) h

theorem hasRows_handedOver (p : SyncPass) (db : SyncDb) : db.HasRows (p.handedOver db) := by
  intro q hq
  rw [(get?_of_mem_handedOver hq).1, Option.isSome_some]

end SyncPass

/-- When no run raises, every run has its outcomes. -/
theorem handedOver_of_forall₂ {env : SyncEnv} {runs : List (List SyncEvent)}
    {outcomes : List (List (SyncEvent × Outcome))}
    (h : List.Forall₂ (fun batch os => runOutcomes env batch = .ok os) runs outcomes) :
    handedOver env runs = outcomes.flatten := by
  induction h with
  | nil => rfl
  | cons hos _ ih => rw [handedOver, hos, List.flatten_cons, ← ih]

/-- The outcomes of a pass that nothing ends are the ones of its runs. -/
theorem SyncPass.exists_handedOver_eq {p : SyncPass} {db : SyncDb} (h : ¬ p.Raises db) :
    ∃ outcomes, List.Forall₂ (fun batch os => runOutcomes p.env batch = .ok os) (p.runs db)
      outcomes ∧ p.handedOver db = outcomes.flatten := by
  have hok : ∀ batch ∈ p.runs db, ∃ os, runOutcomes p.env batch = .ok os := by
    intro batch hbatch
    by_contra hnone
    exact h ⟨batch, hbatch, fun os hos => hnone ⟨os, hos⟩⟩
  obtain ⟨outcomes, houtcomes⟩ := exists_forall₂_iff.mpr hok
  exact ⟨outcomes, houtcomes, handedOver_of_forall₂ houtcomes⟩

namespace SyncDb

variable [UuidSource]

/-- The chain of a pass, when it succeeds. -/
theorem foldlM_runs_eq_ok_iff {p : SyncPass} {db db' : SyncDb} :
    ((p.runs db).foldlM (fun db' batch => do
        return (← runOutcomes p.env batch).foldl (settle p.env p.now) db') db : Except SyncError _) =
      .ok db' ↔
    ∃ outcomes, List.Forall₂ (fun batch os => runOutcomes p.env batch = .ok os) (p.runs db) outcomes ∧
      db' = (p.handedOver db).foldl (settle p.env p.now) db := by
  refine (foldlM_eq_ok_iff (f := runOutcomes p.env)
    (g := fun (db' : SyncDb) os => os.foldl (settle p.env p.now) db')).trans ?_
  refine exists_congr fun outcomes => and_congr_right fun houtcomes => ?_
  rw [SyncPass.handedOver, handedOver_of_forall₂ houtcomes, List.foldl_flatten]

/-- A pass that a batch call ends writes nothing. -/
theorem processPendingSyncEvents_of_raises {p : SyncPass} {db : SyncDb} (h : p.Raises db) :
    db.processPendingSyncEvents p = db := by
  unfold processPendingSyncEvents
  dsimp only
  split
  · next db' hdb' =>
    obtain ⟨outcomes, houtcomes, -⟩ := foldlM_runs_eq_ok_iff.mp hdb'
    obtain ⟨batch, hbatch, hraise⟩ := h
    obtain ⟨os, hos⟩ := exists_forall₂_iff.mp ⟨outcomes, houtcomes⟩ batch hbatch
    exact absurd hos (hraise os)
  · rfl

/-- Any other pass writes for the events that it handed over. -/
theorem processPendingSyncEvents_of_not_raises {p : SyncPass} {db : SyncDb} (h : ¬ p.Raises db) :
    db.processPendingSyncEvents p = (p.handedOver db).foldl (settle p.env p.now) db := by
  obtain ⟨outcomes, houtcomes, -⟩ := SyncPass.exists_handedOver_eq h
  unfold processPendingSyncEvents
  dsimp only
  rw [foldlM_runs_eq_ok_iff.mpr ⟨outcomes, houtcomes, rfl⟩]

/-- The row of an event that a pass handed over. -/
theorem get?_processPending_of_mem {p : SyncPass} {db : SyncDb} (h : ¬ p.Raises db)
    {q : SyncEvent × Outcome} (hq : q ∈ p.handedOver db) :
    (db.processPendingSyncEvents p).events.get? q.1.id = some (q.1.settled p.now q.2) := by
  rw [processPendingSyncEvents_of_not_raises h]
  exact get?_settleAll_of_mem p.env p.now (p.nodup_handedOver db) (p.hasRows_handedOver db) hq

/-- A row that a pass did not hand over stays. -/
theorem get?_processPending_of_notMem {p : SyncPass} {db : SyncDb} {id : Str}
    (hid : id ∉ (p.handedOver db).map (·.1.id)) (hsome : (db.events.get? id).isSome) :
    (db.processPendingSyncEvents p).events.get? id = db.events.get? id := by
  by_cases h : p.Raises db
  · rw [processPendingSyncEvents_of_raises h]
  · rw [processPendingSyncEvents_of_not_raises h]
    exact get?_settleAll_of_notMem p.env p.now hid hsome

/-- Every row that a pass adds is fresh. -/
theorem fresh_of_processPending {p : SyncPass} {db : SyncDb} {id : Str} {ev : SyncEvent}
    (hnone : db.events.get? id = none)
    (h : (db.processPendingSyncEvents p).events.get? id = some ev) : ev.Fresh := by
  by_cases hr : p.Raises db
  · rw [processPendingSyncEvents_of_raises hr, hnone] at h
    cases h
  · rw [processPendingSyncEvents_of_not_raises hr] at h
    exact fresh_of_settleAll p.env p.now (p.hasRows_handedOver db) hnone h

end SyncDb

end Vat
