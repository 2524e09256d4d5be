import Vat.Model.Database

/-!
# The outbound queue

The rows of `sync_events`, what the queue writes to findings, and the helpers that enqueue. The
column `finding_id` is a foreign key that deletes with its finding, so every event has a finding.

Source: `backend/app/models/sync_event.py`; `backend/app/services/external_links_service.py`,
lines 20–123; `backend/app/services/sync_service.py`, lines 92–200 and 359–388;
`backend/app/main.py`, lines 238–250.

## Main definitions

* `SyncEvent`, `TrackedFinding`, `SyncDb`.
* `getTrackerIssueId`, `addTrackerLink`.
* `SyncDb.put`, `SyncDb.enqueueSyncEvent`, `SyncDb.resetFailedTrackerEvents`.

## Main results

* `SyncDb.get?_put_self`, `SyncDb.get?_put_of_ne`, `SyncDb.get?_addEvent_of_isSome`: the rows after
  a write.
* `getTrackerIssueId_addTrackerLink`.
-/

namespace Vat

open Relational

/-! ### Events -/

/-- The party that an event goes to. -/
inductive SyncTarget
  | tracker
  | source
  | other (name : Str)
  deriving DecidableEq

/-- `SyncEvent.event_type`. -/
inductive SyncEventType
  | createIssue
  | postDecision
  | updateIssue
  | sourceIgnore
  | sourceUnignore
  | other (name : Str)
  deriving DecidableEq

/-- `SyncEvent.status`. -/
inductive SyncStatus
  | pending
  | processing
  | completed
  | failed
  deriving DecidableEq

/-- The entries of a request's `finding` that the queue reads or writes. -/
structure FindingDict where
  cveId : Option Str
  camelCveId : Option Str
  title : Option Str
  groupKey : Option Str
  status : Option Str
  deriving DecidableEq

/-- The request that an event carries. The requests that go to an adapter as they are have no
fields here. -/
inductive SyncPayload
  | createIssue (finding : FindingDict)
  | updateIssue (issueId : Str) (finding : FindingDict) (changedFields : List Str)
      (issueUuid : Option Str)
  | postDecision
  | ignore
  | unignore
  | malformed
  deriving DecidableEq

/-- A row of the table `sync_events`. -/
structure SyncEvent where
  id : Str
  findingId : Str
  target : SyncTarget
  targetKey : Option Str
  eventType : SyncEventType
  payload : SyncPayload
  status : SyncStatus
  attempts : ℕ
  maxAttempts : ℕ
  lastError : Option Str
  nextRetryAt : Option Instant
  completedAt : Option Instant
  createdAt : Instant
  updatedAt : Instant
  deriving DecidableEq

/-- `sync_events.id` is the primary key and the table has no other key. -/
instance : Row SyncEvent Str Str where
  pk := SyncEvent.id
  uk := SyncEvent.id

instance : Table.SingleKey SyncEvent := ⟨fun _ _ => Iff.rfl⟩

/-- The columns of an event over the id of a row. -/
def SyncEvent.over (ev r : SyncEvent) : SyncEvent := { ev with id := r.id }

theorem SyncEvent.keepsKeys_over (ev : SyncEvent) : KeepsKeys ev.over := fun _ => ⟨rfl, rfl⟩

/-- Whether `reset_failed_tracker_events` resets a row. -/
def SyncEvent.isReset (key : Str) (e : SyncEvent) : Bool :=
  e.target = .tracker ∧ e.targetKey = some key ∧ e.status = .failed

/-- The row after a reset. -/
def SyncEvent.reset (now : Instant) (key : Str) (e : SyncEvent) : SyncEvent :=
  if e.isReset key then
    { e with
      status := .pending
      attempts := 0
      lastError := none
      nextRetryAt := none
      updatedAt := now }
  else e

theorem SyncEvent.keepsKeys_reset (now : Instant) (key : Str) : KeepsKeys (SyncEvent.reset now key) :=
  KeepsKeys.ite _ (fun _ => ⟨rfl, rfl⟩) keepsKeys_id

/-- The row after a restart of the application, which releases what a stopped worker left behind. -/
def SyncEvent.released (e : SyncEvent) : SyncEvent :=
  if e.status = .processing then
    { e with
      status := .pending
      nextRetryAt := none }
  else e

theorem SyncEvent.keepsKeys_released : KeepsKeys SyncEvent.released :=
  KeepsKeys.ite _ (fun _ => ⟨rfl, rfl⟩) keepsKeys_id

/-- `_get_backoff_seconds`, in microseconds. -/
def getBackoff (attempts : ℕ) : ℕ := min (60 * Nat.pow 2 attempts) 3600 * 1000000

/-! ### Findings -/

/-- An entry of `Finding.external_links`. -/
structure LinkRecord where
  adapterKey : Str
  kind : Str
  issueId : Str
  url : Option Str
  createdAt : Instant
  lastSyncedAt : Instant
  syncedFields : List Str
  issueUuid : Option Str
  deriving DecidableEq

/-- The columns of a finding that the queue reads or writes. -/
structure TrackedFinding where
  status : Status
  externalLinks : List LinkRecord
  syncStatus : Option Str
  syncLastError : Option Str
  syncFailedAt : Option Instant
  audit : List AuditEntry
  deriving DecidableEq

/-- A finding that was never synced. -/
def TrackedFinding.unsynced : TrackedFinding := ⟨.open, [], none, none, none, []⟩

/-- Whether a link is the one to an issue of a tracker. -/
def LinkRecord.isTracker (key : Str) (l : LinkRecord) : Bool :=
  l.kind = str "tracker" ∧ l.adapterKey = key

/-- `get_tracker_issue_id`. -/
def getTrackerIssueId (f : TrackedFinding) (key : Str) : Option Str :=
  (f.externalLinks.find? (·.isTracker key)).map (·.issueId)

/-- `get_tracker_issue_uuid`. -/
def getTrackerIssueUuid (f : TrackedFinding) (key : Str) : Option Str :=
  (f.externalLinks.find? (·.isTracker key)).bind (·.issueUuid)

/-- `add_tracker_link`. -/
def addTrackerLink (f : TrackedFinding) (key issueId : Str) (issueUuid : Option Str)
    (now : Instant) : TrackedFinding :=
  let link : LinkRecord :=
    { adapterKey := key, kind := str "tracker", issueId := issueId, url := none, createdAt := now,
      lastSyncedAt := now, syncedFields := [], issueUuid := issueUuid.filter (· ≠ []) }
  { f with externalLinks := f.externalLinks.filter (fun l => !l.isTracker key) ++ [link] }

theorem isTracker_filter_find? (links : List LinkRecord) {key key' : Str} :
    (links.filter fun l => !l.isTracker key).find? (·.isTracker key') =
      if key' = key then none else links.find? (·.isTracker key') := by
  rw [List.find?_filter]
  split_ifs with h
  · subst h
    simp
  · congr 1
    funext l
    by_cases hl : l.isTracker key' = true
    · have hkey : l.isTracker key = false := by
        simp only [LinkRecord.isTracker, decide_eq_true_eq] at hl
        simp [LinkRecord.isTracker, hl.2, h]
      simp [hl, hkey]
    · simp [hl]

/-- The new link is the one that is found, and the links to other trackers stay. -/
theorem getTrackerIssueId_addTrackerLink (f : TrackedFinding) (key key' issueId : Str)
    (issueUuid : Option Str) (now : Instant) :
    getTrackerIssueId (addTrackerLink f key issueId issueUuid now) key' =
      if key' = key then some issueId else getTrackerIssueId f key' := by
  rw [getTrackerIssueId, addTrackerLink, List.find?_append, isTracker_filter_find?]
  split_ifs with h
  · subst h
    simp [LinkRecord.isTracker]
  · simp [LinkRecord.isTracker, Ne.symm h, getTrackerIssueId]

/-! ### The database -/

/-- The queue and the findings. -/
structure SyncDb where
  events : Table SyncEvent
  findings : Str → TrackedFinding

namespace SyncDb

/-- The writes of an event object back to its row. -/
def put (db : SyncDb) (ev : SyncEvent) : SyncDb :=
  { db with events := db.events.update ev.id ev.over ev.keepsKeys_over }

/-- The writes of a finding. -/
def putFinding (db : SyncDb) (id : Str) (f : TrackedFinding) : SyncDb :=
  { db with findings := Function.update db.findings id f }

theorem get?_put_self (db : SyncDb) {ev old : SyncEvent} (h : db.events.get? ev.id = some old) :
    (db.put ev).events.get? ev.id = some ev := by
  have hid : old.id = ev.id := Table.pk_of_get? h
  rw [put, Table.get?_update_self, h, Option.map_some, SyncEvent.over, hid]

theorem get?_put_of_ne (db : SyncDb) {ev : SyncEvent} {id : Str} (h : id ≠ ev.id) :
    (db.put ev).events.get? id = db.events.get? id :=
  Table.get?_update_ne db.events ev.over ev.keepsKeys_over h

/-- The release of stale rows at startup. -/
def releaseStale (db : SyncDb) : SyncDb :=
  { db with events := db.events.mapRows SyncEvent.released SyncEvent.keepsKeys_released }

/-- `reset_failed_tracker_events`. -/
def resetFailedTrackerEvents (db : SyncDb) (now : Instant) (key : Str) : SyncDb :=
  let findingIds := (db.events.rows.filter (·.isReset key)).map SyncEvent.findingId
  { events := db.events.mapRows (SyncEvent.reset now key) (SyncEvent.keepsKeys_reset now key)
    findings := fun id =>
      let f := db.findings id
      if id ∈ findingIds ∧ f.syncStatus = some (str "sync_failed") then
        { f with
          syncStatus := some (str "pending_sync")
          syncLastError := none
          syncFailedAt := none }
      else f }

@[simp] theorem get?_releaseStale (db : SyncDb) (id : Str) :
    db.releaseStale.events.get? id = (db.events.get? id).map SyncEvent.released :=
  Table.get?_mapRows _ _ SyncEvent.keepsKeys_released id

@[simp] theorem get?_resetFailedTrackerEvents (db : SyncDb) (now : Instant) (key id : Str) :
    (db.resetFailedTrackerEvents now key).events.get? id =
      (db.events.get? id).map (SyncEvent.reset now key) :=
  Table.get?_mapRows _ _ (SyncEvent.keepsKeys_reset now key) id

variable [UuidSource]

/-- An id for a new event. -/
def newEventId (db : SyncDb) : Str := UuidSource.draw [] (db.events.rows.map SyncEvent.id)

theorem get?_newEventId (db : SyncDb) : db.events.get? db.newEventId = none := by
  rw [Table.get?_eq_none_iff]
  intro r hr heq
  exact UuidSource.fresh [] (db.events.rows.map SyncEvent.id) (List.mem_map.mpr ⟨r, hr, heq⟩)

/-- A new event. -/
def newEvent (db : SyncDb) (now : Instant) (findingId : Str) (target : SyncTarget)
    (targetKey : Option Str) (eventType : SyncEventType) (payload : SyncPayload)
    (status : SyncStatus) (completedAt : Option Instant) : SyncEvent where
  id := db.newEventId
  findingId := findingId
  target := target
  targetKey := targetKey
  eventType := eventType
  payload := payload
  status := status
  attempts := 0
  maxAttempts := 5
  lastError := none
  nextRetryAt := none
  completedAt := completedAt
  createdAt := now
  updatedAt := now

/-- The insert of a new event. -/
def addEvent (db : SyncDb) (now : Instant) (findingId : Str) (target : SyncTarget)
    (targetKey : Option Str) (eventType : SyncEventType) (payload : SyncPayload)
    (status : SyncStatus) (completedAt : Option Instant) : SyncDb :=
  { db with
    events := db.events.insert
      (db.newEvent now findingId target targetKey eventType payload status completedAt)
      (Table.canInsert_iff.mpr db.get?_newEventId) }

/-- The rows that were there stay. -/
theorem get?_addEvent_of_isSome (db : SyncDb) (now : Instant) (findingId : Str) (target : SyncTarget)
    (targetKey : Option Str) (eventType : SyncEventType) (payload : SyncPayload)
    (status : SyncStatus) (completedAt : Option Instant) {id : Str}
    (h : (db.events.get? id).isSome) :
    (db.addEvent now findingId target targetKey eventType payload status completedAt).events.get? id =
      db.events.get? id := by
  rw [addEvent, Table.get?_insert, if_neg]
  rintro rfl
  rw [show Row.pk (db.newEvent now findingId target targetKey eventType payload status completedAt) =
    db.newEventId from rfl, get?_newEventId] at h
  cases h

/-- `enqueue_sync_event`. -/
def enqueueSyncEvent (db : SyncDb) (now : Instant) (findingId : Str) (target : SyncTarget)
    (targetKey : Option Str) (eventType : SyncEventType) (payload : SyncPayload) : SyncDb :=
  db.addEvent now findingId target targetKey eventType payload .pending none

/-- `enqueue_tracker_update_issue`. -/
def enqueueTrackerUpdateIssue (db : SyncDb) (now : Instant) (findingId key : Str)
    (finding : FindingDict) (changedFields : List Str) : SyncDb :=
  match getTrackerIssueId (db.findings findingId) key with
  | none => db
  | some issueId =>
    if issueId = [] then db
    else
      db.enqueueSyncEvent now findingId .tracker (some key) .updateIssue
        (.updateIssue issueId finding changedFields
          (getTrackerIssueUuid (db.findings findingId) key))

/-- `_record_tracker_created_correctly`. -/
def recordTrackerCreatedCorrectly (db : SyncDb) (now : Instant) (findingId key : Str)
    (finding : FindingDict) : SyncDb :=
  db.addEvent now findingId .tracker (some key) .updateIssue
    (.updateIssue (Str.orEmpty (getTrackerIssueId (db.findings findingId) key)) finding []
      (getTrackerIssueUuid (db.findings findingId) key)) .completed (some now)

end SyncDb

end Vat
