import Mathlib.Data.List.Sort
import Mathlib.Data.List.SplitBy
import Vat.Sync.Queue

/-!
# The sync worker

One pass of the worker takes due events in the order of their creation. A run of two or more
consecutive events of one tracker and one type goes to the batch call of the adapter, where it has
one, and every other event is processed on its own. All writes are committed once, at the end; an
exception that leaves the pass rolls them back.

An adapter is given by the answers that it gives during one pass. Every event is handed over at most
once in a pass, so an answer that depends on the event can be any answer at all.

Source: `backend/app/services/sync_service.py`, lines 450–948.

Each of the three paths is in two parts: what the adapter is asked and what comes of it for each
event (`runOutcomes`), and what is then written for each event, in the order of the writes
(`SyncDb.settle`). No answer reads what the pass writes.

## Main definitions

* `TrackerAdapter`, `SourceAdapter`, `SyncEnv`.
* `deliver`: the single path.
* `createBatchOutcomes`, `updateBatchOutcomes`: the batches.
* `SyncDb.settle`: the writes for an event.
* `SyncDb.processPendingSyncEvents`: a pass.
* `SyncOp`, `SyncDb.step`: the operations on the queue.
-/

namespace Vat

/-! ### Adapters -/

/-- An exception of an adapter, with the body of the response that it carries. -/
structure SyncError where
  message : Str
  response : Str
  deriving DecidableEq

/-- The text that the single path stores. -/
def SyncError.detail (e : SyncError) : Str :=
  if e.response = [] then e.message
  else e.message ++ str " | response: " ++ e.response.take 500

/-- An exception that the service raises itself. -/
def raised (message : Str) : SyncError := ⟨message, []⟩

/-- The capabilities of a tracker adapter and its answers during a pass. A lookup or a batch call
that the adapter does not have is `none`. -/
structure TrackerAdapter where
  supportsCreateIssue : Bool
  supportsUpdateIssue : Bool
  supportsPostComment : Bool
  findExistingIssueForGroupKey : Option (SyncEvent → Str → Except SyncError (Option Str))
  findExistingIssueForCve : Option (SyncEvent → Str → Except SyncError (Option Str))
  findExistingIssueForTitle : Option (SyncEvent → Str → Except SyncError (Option Str))
  createIssue : SyncEvent → Except SyncError (Str × Option Str)
  createIssuesBatch :
    Option (List SyncEvent → Except SyncError (List (Except SyncError (Str × Option Str))))
  postComment : SyncEvent → Except SyncError Unit
  updateIssue : SyncEvent → Except SyncError Unit
  updateIssuesBatch : Option (List SyncEvent → Except SyncError (List (Option SyncError)))

/-- The same of a source adapter. -/
structure SourceAdapter where
  supportsIgnore : Bool
  supportsUnignore : Bool
  ignoreIssue : SyncEvent → Except SyncError Unit
  unignoreIssue : SyncEvent → Except SyncError Unit

/-- What a pass finds: the registries, the settings, and what a schema says of a payload that it
refuses. -/
structure SyncEnv where
  trackers : Str → Option TrackerAdapter
  sources : Str → Option SourceAdapter
  trackerConfigured : Bool
  pushGroups : Bool
  linkTitleFallback : Bool
  refused : SyncError

/-- The adapter of an event. -/
def SyncEnv.tracker (env : SyncEnv) (ev : SyncEvent) : Option TrackerAdapter :=
  (ev.targetKey.filter (· ≠ [])).bind env.trackers

/-- The source adapter of an event. -/
def SyncEnv.source (env : SyncEnv) (ev : SyncEvent) : Option SourceAdapter :=
  ev.targetKey.bind env.sources

/-- `VatTrackerCreateIssueRequest.model_validate(event.payload)`. -/
def SyncEnv.createRequest (env : SyncEnv) (ev : SyncEvent) : Except SyncError FindingDict :=
  match ev.payload with
  | .createIssue finding => .ok finding
  | _ => .error env.refused

/-- `model_validate` of the requests that go to the adapter as they are. -/
def SyncEnv.validate (env : SyncEnv) (ev : SyncEvent) : Except SyncError Unit :=
  match ev.payload, ev.eventType with
  | .updateIssue .., .updateIssue => .ok ()
  | .postDecision, .postDecision => .ok ()
  | .ignore, .sourceIgnore => .ok ()
  | .unignore, .sourceUnignore => .ok ()
  | _, _ => .error env.refused

/-- `finding.get("cve_id") or finding.get("cveId")`. -/
def FindingDict.cve (f : FindingDict) : Option Str := Str.orElse f.cveId f.camelCveId

/-! ### The single path -/

/-- What a delivery leaves to be written: the issue of a create, and whether it existed before. -/
inductive Delivered
  | created (issueId : Str) (issueUuid : Option Str)
  | linked (issueId : Str)
  | sent
  deriving DecidableEq

/-- A lookup that an adapter may lack, for a key that may be missing. -/
def lookup (find : Option (SyncEvent → Str → Except SyncError (Option Str))) (ev : SyncEvent)
    (key : Option Str) : Except SyncError (Option Str) :=
  match find, key.filter (· ≠ []) with
  | some find, some key => find ev key
  | _, _ => .ok none

/-- The issue to link to, as the single path looks for it: by group key, by CVE, and by title where
the settings allow it. An empty answer counts as none. -/
def findExisting (env : SyncEnv) (ad : TrackerAdapter) (ev : SyncEvent) (finding : FindingDict) :
    Except SyncError (Option Str) :=
  if !env.pushGroups then .ok none
  else do
    let byGroup ← lookup ad.findExistingIssueForGroupKey ev finding.groupKey
    if Str.truthy byGroup then return byGroup
    let byCve ← lookup ad.findExistingIssueForCve ev finding.cve
    if Str.truthy byCve then return byCve
    if !env.linkTitleFallback then return none
    let byTitle ← lookup ad.findExistingIssueForTitle ev finding.title
    return byTitle.filter (· ≠ [])

/-- The create of the single path. -/
def deliverCreate (env : SyncEnv) (ad : TrackerAdapter) (ev : SyncEvent) :
    Except SyncError Delivered := do
  let finding ← env.createRequest ev
  match ← findExisting env ad ev finding with
  | some issueId => return .linked issueId
  | none =>
    let (issueId, issueUuid) ← ad.createIssue ev
    return .created issueId issueUuid

/-- The text of an optional key in a message. -/
def keyText (ev : SyncEvent) : Str := ev.targetKey.getD (str "None")

/-- What the `try` block of `process_sync_event` does outside the database. -/
def deliver (env : SyncEnv) (ev : SyncEvent) : Except SyncError Delivered :=
  match ev.target with
  | .tracker =>
    match env.tracker ev with
    | none => .error (raised (str "Unknown tracker adapter: " ++ keyText ev))
    | some ad =>
      match ev.eventType with
      | .createIssue =>
        if !ad.supportsCreateIssue then
          .error (raised (str "Adapter " ++ keyText ev ++ str " does not support create_issue"))
        else deliverCreate env ad ev
      | .postDecision =>
        if !ad.supportsPostComment then
          .error (raised (str "Adapter " ++ keyText ev ++ str " does not support post_comment"))
        else do
          env.validate ev
          ad.postComment ev
          return .sent
      | .updateIssue =>
        if !ad.supportsUpdateIssue then
          .error (raised (str "Adapter " ++ keyText ev ++ str " does not support update_issue"))
        else do
          env.validate ev
          ad.updateIssue ev
          return .sent
      | .sourceIgnore => .error (raised (str "Unknown tracker event_type: source_ignore"))
      | .sourceUnignore => .error (raised (str "Unknown tracker event_type: source_unignore"))
      | .other name => .error (raised (str "Unknown tracker event_type: " ++ name))
  | .source =>
    match env.source ev with
    | none => .error (raised (str "Unknown source adapter: " ++ keyText ev))
    | some ad =>
      match ev.eventType with
      | .sourceIgnore =>
        if !ad.supportsIgnore then
          .error (raised (str "Adapter " ++ keyText ev ++ str " does not support ignore_issue"))
        else do
          env.validate ev
          ad.ignoreIssue ev
          return .sent
      | .sourceUnignore =>
        if !ad.supportsUnignore then
          .error (raised (str "Adapter " ++ keyText ev ++ str " does not support unignore_issue"))
        else do
          env.validate ev
          ad.unignoreIssue ev
          return .sent
      | .createIssue => .error (raised (str "Unknown source event_type: create_issue"))
      | .postDecision => .error (raised (str "Unknown source event_type: post_decision"))
      | .updateIssue => .error (raised (str "Unknown source event_type: update_issue"))
      | .other name => .error (raised (str "Unknown source event_type: " ++ name))
  | .other _ => .ok .sent

/-! ### Outcomes -/

/-- What comes of an event in a pass. -/
inductive Outcome
  | skipped
  | sent (d : Delivered)
  | failed (e : SyncError)
  | batchLinked (issueId : Str)
  | batchCreated (issueId : Str) (issueUuid : Option Str)
  | batchCreateFailed (e : SyncError)
  | batchCreateUnanswered
  | batchUpdated
  | batchUpdateFailed (e : SyncError)
  | batchUpdateUnanswered
  | batchRaised
  deriving DecidableEq

/-- The outcome of an event on its own: events to a tracker that is not configured are left. -/
def singleOutcome (env : SyncEnv) (ev : SyncEvent) : Outcome :=
  if ev.target = .tracker ∧ !env.trackerConfigured then .skipped
  else
    match deliver env ev with
    | .ok d => .sent d
    | .error e => .failed e

/-- The issue to link to, as the create batch looks for it: the title is looked up whatever the
settings say, and an empty answer ends the search. -/
def findExistingInBatch (env : SyncEnv) (ad : TrackerAdapter) (ev : SyncEvent)
    (finding : FindingDict) : Except SyncError (Option Str) :=
  if !env.pushGroups then .ok none
  else do
    let byGroup ← lookup ad.findExistingIssueForGroupKey ev finding.groupKey
    if byGroup.isSome then return byGroup
    let byCve ← lookup ad.findExistingIssueForCve ev finding.cve
    if byCve.isSome then return byCve
    lookup ad.findExistingIssueForTitle ev finding.title

/-- An event of a create batch with the issue to link to. -/
def classify (env : SyncEnv) (ad : TrackerAdapter) (ev : SyncEvent) :
    Except SyncError (SyncEvent × Option Str) := do
  let finding ← env.createRequest ev
  let existing ← findExistingInBatch env ad ev finding
  return (ev, existing.filter (· ≠ []))

/-- What comes of an event that `create_issues_batch` answered for. -/
def createOutcome : Except SyncError (Str × Option Str) → Outcome
  | .ok (issueId, issueUuid) => .batchCreated issueId issueUuid
  | .error e => .batchCreateFailed e

/-- A list with the answers that were given for its first members. -/
def answered {α : Type*} (batch : List SyncEvent) (answers : List α) (f : α → Outcome)
    (unanswered : Outcome) : List (SyncEvent × Outcome) :=
  batch.zip (answers.map f ++ List.replicate (batch.length - answers.length) unanswered)

/-- The create batch: the events with an issue to link to, then the events that were created. -/
def createBatchOutcomes (env : SyncEnv) (ad : TrackerAdapter)
    (createIssues : List SyncEvent →
      Except SyncError (List (Except SyncError (Str × Option Str))))
    (batch : List SyncEvent) : Except SyncError (List (SyncEvent × Outcome)) := do
  let classified ← batch.mapM (classify env ad)
  let linked := classified.filterMap fun p => p.2.map fun issueId => (p.1, .batchLinked issueId)
  let toCreate := classified.filterMap fun p => if p.2.isNone then some p.1 else none
  if toCreate = [] then return linked
  let answers ← createIssues toCreate
  return linked ++ answered toCreate answers createOutcome .batchCreateUnanswered

/-- What comes of an event that `update_issues_batch` answered for. -/
def updateOutcome : Option SyncError → Outcome
  | none => .batchUpdated
  | some e => .batchUpdateFailed e

/-- The update batch. -/
def updateBatchOutcomes (env : SyncEnv)
    (updateIssues : List SyncEvent → Except SyncError (List (Option SyncError)))
    (batch : List SyncEvent) : Except SyncError (List (SyncEvent × Outcome)) := do
  batch.forM env.validate
  let answers ← updateIssues batch
  return answered batch answers updateOutcome .batchUpdateUnanswered

/-- Whether two events may go to one batch call. -/
def sameBatch (a b : SyncEvent) : Bool :=
  a.target = b.target ∧ a.targetKey = b.targetKey ∧ a.eventType = b.eventType

/-- The batch call for a run of events that `sameBatch` holds together, if it goes to one. -/
inductive BatchCall
  | create (ad : TrackerAdapter)
      (createIssues : List SyncEvent → Except SyncError (List (Except SyncError (Str × Option Str))))
  | update (updateIssues : List SyncEvent → Except SyncError (List (Option SyncError)))

/-- The batch call that an event's run goes to when it has two events or more. -/
def SyncEnv.batchCall (env : SyncEnv) (ev : SyncEvent) : Option BatchCall :=
  if env.trackerConfigured then
    match ev.target, env.tracker ev, ev.eventType with
    | .tracker, some ad, .createIssue => ad.createIssuesBatch.map (.create ad)
    | .tracker, some ad, .updateIssue => ad.updateIssuesBatch.map .update
    | _, _, _ => none
  else none

/-- What comes of the events of a run, in the order of the writes. -/
def runOutcomes (env : SyncEnv) (batch : List SyncEvent) :
    Except SyncError (List (SyncEvent × Outcome)) :=
  match batch with
  | ev :: _ :: _ =>
    match env.batchCall ev with
    | some (.create ad createIssues) => createBatchOutcomes env ad createIssues batch
    | some (.update updateIssues) => updateBatchOutcomes env updateIssues batch
    | none => .ok (batch.map fun ev => (ev, singleOutcome env ev))
  | _ => .ok (batch.map fun ev => (ev, singleOutcome env ev))

/-! ### Writes -/

/-- The issue that an outcome links the finding to. -/
def Outcome.issue : Outcome → Option Str
  | .sent (.created issueId _) => some issueId
  | .sent (.linked issueId) => some issueId
  | .batchLinked issueId => some issueId
  | .batchCreated issueId _ => some issueId
  | _ => none

/-- The issue that an outcome created. -/
def Outcome.createdIssue : Outcome → Option Str
  | .sent (.created issueId _) => some issueId
  | .batchCreated issueId _ => some issueId
  | _ => none

namespace SyncEvent

/-- The writes of a success. -/
def complete (ev : SyncEvent) (now : Instant) (attempts : ℕ) : SyncEvent :=
  { ev with
    status := .completed
    attempts := attempts
    completedAt := some now
    lastError := none
    nextRetryAt := none
    updatedAt := now }

/-- The writes of a failure that leaves the event in the queue, with the backoff for a number of
attempts. -/
def retry (ev : SyncEvent) (now : Instant) (attempts backoff : ℕ) (error : Str) : SyncEvent :=
  { ev with
    status := .pending
    attempts := attempts
    lastError := some (error.take 500)
    nextRetryAt := some (now + getBackoff backoff)
    updatedAt := now }

/-- The writes of a failure after which the event is not tried again. -/
def giveUp (ev : SyncEvent) (now : Instant) (attempts : ℕ) (error : Str) : SyncEvent :=
  { ev with
    status := .failed
    attempts := attempts
    lastError := some (error.take 500)
    updatedAt := now }

/-- Whether the next attempt is the last one. -/
def lastAttempt (ev : SyncEvent) : Prop := ev.maxAttempts ≤ ev.attempts + 1

instance (ev : SyncEvent) : Decidable ev.lastAttempt := inferInstanceAs (Decidable (_ ≤ _))

/-- The row of an event after a pass. Only the single path gives up, and a create batch counts an
event before the call and again when it writes the event's result. -/
def settled (ev : SyncEvent) (now : Instant) : Outcome → SyncEvent
  | .skipped => ev
  | .sent _ => ev.complete now (ev.attempts + 1)
  | .failed e =>
    if ev.lastAttempt then ev.giveUp now (ev.attempts + 1) e.detail
    else ev.retry now (ev.attempts + 1) (ev.attempts + 1) e.detail
  | .batchLinked _ => ev.complete now (ev.attempts + 2)
  | .batchCreated _ _ => ev.complete now (ev.attempts + 2)
  | .batchCreateFailed e => ev.retry now (ev.attempts + 2) (ev.attempts + 1) e.message
  | .batchCreateUnanswered =>
    { ev with status := .processing, attempts := ev.attempts + 1, updatedAt := now }
  | .batchUpdated => ev.complete now (ev.attempts + 1)
  | .batchUpdateFailed e => ev.retry now (ev.attempts + 1) (ev.attempts + 1) e.message
  | .batchUpdateUnanswered => ev
  | .batchRaised => ev

/-- The key of the tracker that an event goes to. -/
def key (ev : SyncEvent) : Str := Str.orEmpty ev.targetKey

/-- `request.finding` of a create, which is read after the request was validated. -/
def finding (ev : SyncEvent) : FindingDict :=
  match ev.payload with
  | .createIssue finding => finding
  | _ => ⟨none, none, none, none, none⟩

@[simp] theorem id_settled (ev : SyncEvent) (now : Instant) (o : Outcome) :
    (ev.settled now o).id = ev.id := by
  cases o with
  | failed e => rw [settled]; split_ifs <;> rfl
  | _ => rfl

@[simp] theorem maxAttempts_settled (ev : SyncEvent) (now : Instant) (o : Outcome) :
    (ev.settled now o).maxAttempts = ev.maxAttempts := by
  cases o with
  | failed e => rw [settled]; split_ifs <;> rfl
  | _ => rfl

end SyncEvent

/-- The entry that a sync appends to the finding's history. -/
def syncedEntry (now : Instant) (issueId : Str) : AuditEntry where
  ts := some now
  user := str "system"
  action := str "Synced to Tracker"
  note := some issueId

namespace SyncDb

/-- The link of a finding to the issue of a create event. -/
def recordLink (db : SyncDb) (now : Instant) (ev : SyncEvent) (issueId : Str)
    (issueUuid : Option Str) : SyncDb :=
  let f := db.findings ev.findingId
  db.putFinding ev.findingId
    { addTrackerLink f ev.key issueId issueUuid now with
      syncStatus := some (str "synced")
      syncLastError := none
      syncFailedAt := none
      audit := f.audit ++ [syncedEntry now issueId] }

/-- The finding of a create event that is not tried again. -/
def recordFailure (db : SyncDb) (now : Instant) (ev : SyncEvent) (e : SyncError) : SyncDb :=
  db.putFinding ev.findingId
    { db.findings ev.findingId with
      syncStatus := some (str "sync_failed")
      syncFailedAt := some now
      syncLastError := some (e.message.take 500) }

variable [UuidSource]

/-- What follows a link to an issue that existed: labels and status were never applied to it. -/
def recordLinked (db : SyncDb) (env : SyncEnv) (now : Instant) (ev : SyncEvent) (issueId : Str)
    (finding : FindingDict) (changedFields : List Str) : SyncDb :=
  let db := db.recordLink now ev issueId none
  if (env.tracker ev).any (·.supportsUpdateIssue) then
    db.enqueueTrackerUpdateIssue now ev.findingId ev.key finding changedFields
  else db

/-- What follows a link to a new issue: a completed event, so that no correction is enqueued. -/
def recordCreated (db : SyncDb) (now : Instant) (ev : SyncEvent) (issueId : Str)
    (issueUuid : Option Str) : SyncDb :=
  (db.recordLink now ev issueId issueUuid).recordTrackerCreatedCorrectly now ev.findingId ev.key
    ev.finding

/-- What an outcome writes apart from the row of its event. -/
def record (db : SyncDb) (env : SyncEnv) (now : Instant) (ev : SyncEvent) : Outcome → SyncDb
  | .sent (.created issueId issueUuid) => db.recordCreated now ev issueId issueUuid
  | .sent (.linked issueId) =>
    db.recordLinked env now ev issueId
      { ev.finding with status := some (db.findings ev.findingId).status.value }
      [str "labels", str "status"]
  | .failed e =>
    if ev.lastAttempt ∧ ev.eventType = .createIssue then db.recordFailure now ev e else db
  | .batchLinked issueId => db.recordLinked env now ev issueId ev.finding [str "labels"]
  | .batchCreated issueId issueUuid => db.recordCreated now ev issueId issueUuid
  | _ => db

/-- The writes for an event. -/
def settle (env : SyncEnv) (now : Instant) (db : SyncDb) (p : SyncEvent × Outcome) : SyncDb :=
  (db.record env now p.1 p.2).put (p.1.settled now p.2)

end SyncDb

/-! ### A pass -/

/-- An order of rows by creation; rows of one instant come in any order. -/
structure QueueOrder where
  sort : List SyncEvent → List SyncEvent
  perm : ∀ rows, (sort rows).Perm rows
  sorted : ∀ rows, (sort rows).Pairwise fun a b => a.createdAt ≤ b.createdAt

/-- Insertion leaves rows of one instant in the order of the table. -/
def QueueOrder.insertion : QueueOrder where
  sort := List.insertionSort fun a b => a.createdAt ≤ b.createdAt
  perm := List.perm_insertionSort _
  sorted := List.pairwise_insertionSort _

/-- A call of the worker: what it finds, when, how many events it takes, which rows other workers
hold, and in which order it reads rows of one instant. -/
structure SyncPass where
  env : SyncEnv
  now : Instant
  limit : ℕ
  locked : Str → Bool
  order : QueueOrder

/-- Whether the worker takes a row. -/
def SyncPass.due (p : SyncPass) (ev : SyncEvent) : Bool :=
  (ev.status = .pending ∨ ev.status = .processing) ∧ ev.nextRetryAt.all (· ≤ p.now) ∧
    !p.locked ev.id

/-- The events of a pass. -/
def SyncPass.claimed (p : SyncPass) (db : SyncDb) : List SyncEvent :=
  (p.order.sort (db.events.rows.filter p.due)).take p.limit

/-- The runs of consecutive events that may go to one call. -/
def SyncPass.runs (p : SyncPass) (db : SyncDb) : List (List SyncEvent) :=
  (p.claimed db).splitBy sameBatch

namespace SyncDb

variable [UuidSource]

/-- `process_pending_sync_events`. -/
def processPendingSyncEvents (db : SyncDb) (p : SyncPass) : SyncDb :=
  let pass := (p.runs db).foldlM (fun db' batch => do
    let outcomes ← runOutcomes p.env batch
    return outcomes.foldl (settle p.env p.now) db') db
  match pass with
  | .ok db' => db'
  -- The session is closed without a commit.
  | .error _ => db

end SyncDb

/-! ### Operations -/

/-- An operation on the queue. -/
inductive SyncOp
  | enqueue (now : Instant) (findingId : Str) (target : SyncTarget) (targetKey : Option Str)
      (eventType : SyncEventType) (payload : SyncPayload)
  | pass (p : SyncPass)
  | releaseStale
  | resetFailed (now : Instant) (key : Str)

/-- The queue after an operation. -/
def SyncDb.step [UuidSource] (db : SyncDb) : SyncOp → SyncDb
  | .enqueue now findingId target targetKey eventType payload =>
    db.enqueueSyncEvent now findingId target targetKey eventType payload
  | .pass p => db.processPendingSyncEvents p
  | .releaseStale => db.releaseStale
  | .resetFailed now key => db.resetFailedTrackerEvents now key

end Vat
