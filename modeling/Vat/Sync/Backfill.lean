import Vat.Ingest.Severity
import Vat.Paged.Window
import Vat.Sync.DeletedIssues

/-!
# The backfill of issues

A run of the backfill takes the first findings by the time of their creation that are open, have no
issue and no create event under way, and enqueues a create event for those of them that are severe
enough. The others take up the limit and are taken again by the next run, and so is a finding whose
create event has failed.

Between two runs the worker settles events and findings get links to issues, by the worker or by the
pull of issues that a run begins with. Findings that were created at the same time keep the order of
the table. The template and the labels of a request are left out.

Source: `backend/app/services/sync_service.py`, lines 287–310, 1236–1263 and 1510–1645;
`backend/app/api/settings.py`, lines 266–310.

## Main definitions

* `BacklogDb`, `BackfillSettings`, `SyncInterval`.
* `backfillUnsyncedFindings`, `beforeRun`: a run, and the database that it finds.
* `BackfillSettings.Wants`: a run is to enqueue a finding.
* `BackfillProgress`: what is asked of repeated runs.

## Main results

* `unlinkedPage_beforeRun`: if every create event fails, then every run takes the same findings.
* `backfillProgress_iff`.
-/

namespace Vat

open Relational Transition

/-! ### The backlog -/

/-- The columns of a finding that the backfill reads or writes; `groupKey` is the group key of the
other columns. -/
structure BacklogFinding extends LinearFinding where
  severity : Severity
  source : Option Str
  cveId : Str
  title : Option Str
  groupKey : Str
  createdAt : Instant
  deriving DecidableEq

instance : Row BacklogFinding Str Str where
  pk := fun f => f.id
  uk := fun f => f.id

/-- The findings and the queue. -/
structure BacklogDb where
  findings : Table BacklogFinding
  events : Table SyncEvent

/-- What a worker sees of the backlog. -/
def BacklogDb.toSyncDb (db : BacklogDb) : SyncDb where
  events := db.events
  findings := fun id => ((db.findings.get? id).map fun f => f.toTrackedFinding).getD .unsynced

/-- The settings of the tracker. -/
structure BackfillSettings where
  trackerKey : Str
  hasCredentials : Bool
  useAikidoTracking : Bool
  pushGroups : Bool
  pushMinSeverity : Option Severity

/-- `severity_meets_min`. -/
def severityMeetsMin (severity : Severity) (minSeverity : Option Severity) : Bool :=
  minSeverity.all fun m => severity.index ≤ m.index

/-! ### A run -/

/-- The finding is open, not archived and has no issue. -/
def BackfillSettings.isUnlinked (cfg : BackfillSettings) (f : BacklogFinding) : Bool :=
  f.status ∈ [Status.open, .reopened, .inReview] && !f.archived &&
    !hasTrackerLink f.toTrackedFinding cfg.trackerKey &&
      !(cfg.useAikidoTracking && f.source = some (str "Aikido"))

/-- The event creates an issue for a finding. -/
def SyncEvent.creates (id : Str) (e : SyncEvent) : Bool :=
  e.findingId = id && e.target = .tracker && e.eventType = .createIssue

/-- The event is pending or processing. -/
def SyncEvent.underWay (e : SyncEvent) : Bool := e.status ∈ [SyncStatus.pending, .processing]

/-- The finding has a create event under way. -/
def BacklogDb.hasCreateUnderWay (db : BacklogDb) (id : Str) : Bool :=
  db.events.rows.any fun e => e.creates id && e.underWay

/-- The finding has a create event that failed. -/
def BacklogDb.hasFailedCreate (db : BacklogDb) (id : Str) : Bool :=
  db.events.rows.any fun e => e.creates id && e.status = .failed

/-- `ORDER BY f.created_at`. -/
def byCreation (t : Table BacklogFinding) : List BacklogFinding :=
  t.rows.insertionSort fun f g => f.createdAt ≤ g.createdAt

section Run

variable (cfg : BackfillSettings) (limit : ℕ)

/-- The findings that a run takes. -/
def backfillPage (db : BacklogDb) : List BacklogFinding :=
  ((byCreation db.findings).filter fun f =>
    cfg.isUnlinked f && !db.hasCreateUnderWay f.id).take limit

/-- The findings that a run enqueues. -/
def toEnqueue (db : BacklogDb) : List BacklogFinding :=
  if cfg.hasCredentials then
    (backfillPage cfg limit db).filter fun f =>
      !hasTrackerLink f.toTrackedFinding cfg.trackerKey &&
        severityMeetsMin f.severity cfg.pushMinSeverity
  else []

/-- `finding_dict`. -/
def backfillDict (f : BacklogFinding) : FindingDict where
  cveId := some f.cveId
  camelCveId := some f.cveId
  title := f.title
  groupKey := if cfg.pushGroups then some f.groupKey else none
  status := none

/-- A finding with a create event. -/
def pendingSync (f : BacklogFinding) : BacklogFinding :=
  { f with syncStatus := some (str "pending_sync") }

variable [UuidSource]

/-- The enqueue of a create event. -/
def enqueueUnsynced (now : Instant) (db : BacklogDb) (f : BacklogFinding) : BacklogDb where
  findings := db.findings.update f.id pendingSync
  events := (db.toSyncDb.enqueueSyncEvent now f.id .tracker (some cfg.trackerKey) .createIssue
    (.createIssue (backfillDict cfg f))).events

/-- `backfill_unsynced_findings`, after its pull of issues. -/
def backfillUnsyncedFindings (now : Instant) (db : BacklogDb) : BacklogDb :=
  (toEnqueue cfg limit db).foldl (enqueueUnsynced cfg now) db

end Run

/-! ### Between two runs -/

/-- What happens before a run: what the worker makes of the events that are under way, and the
issues that findings are linked to. -/
structure SyncInterval where
  now : Instant
  settled : SyncEvent → SyncStatus
  found : Str → Option (Str × Option Str)

/-- An event after the worker. -/
def SyncInterval.settle (i : SyncInterval) (e : SyncEvent) : SyncEvent :=
  if e.underWay then { e with status := i.settled e } else e

/-- A finding after the worker and the pull of issues. -/
def SyncInterval.link (i : SyncInterval) (key : Str) (f : BacklogFinding) : BacklogFinding :=
  match i.found f.id with
  | none => f
  | some (issueId, issueUuid) =>
    if hasTrackerLink f.toTrackedFinding key then f
    else
      { f with
        externalLinks :=
          (addTrackerLink f.toTrackedFinding key issueId issueUuid i.now).externalLinks
        syncStatus := some (str "synced") }

theorem SyncInterval.keepsKeys_settle (i : SyncInterval) : KeepsKeys i.settle := by
  intro e
  rw [settle]
  split_ifs <;> exact ⟨rfl, rfl⟩

theorem SyncInterval.keepsKeys_link (i : SyncInterval) (key : Str) : KeepsKeys (i.link key) := by
  intro f
  rw [link]
  split
  · exact ⟨rfl, rfl⟩
  · split_ifs <;> exact ⟨rfl, rfl⟩

/-- The database after the worker and the pull of issues. -/
def SyncInterval.pass (i : SyncInterval) (key : Str) (db : BacklogDb) : BacklogDb where
  findings := db.findings.mapRows (i.link key) (i.keepsKeys_link key)
  events := db.events.mapRows i.settle i.keepsKeys_settle

section Runs

variable [UuidSource] (cfg : BackfillSettings) (limit : ℕ) (db : BacklogDb)
  (intervals : ℕ → SyncInterval)

/-- The database that a run finds. -/
def beforeRun (n : ℕ) : BacklogDb :=
  (intervals n).pass cfg.trackerKey
    (states (fun db i => backfillUnsyncedFindings cfg limit i.now (i.pass cfg.trackerKey db)) db
      intervals n)

/-- A run enqueues a create event for a finding. -/
def Enqueues (n : ℕ) (id : Str) : Prop :=
  id ∈ (toEnqueue cfg limit (beforeRun cfg limit db intervals n)).map fun f => f.id

/-- A finding has an issue before a run. -/
def LinkedBefore (n : ℕ) (id : Str) : Prop :=
  ∃ f ∈ (beforeRun cfg limit db intervals n).findings.rows,
    f.id = id ∧ hasTrackerLink f.toTrackedFinding cfg.trackerKey

end Runs

/-- A run is to enqueue a finding. -/
structure BackfillSettings.Wants (cfg : BackfillSettings) (db : BacklogDb) (f : BacklogFinding) :
    Prop where
  configured : cfg.hasCredentials
  unlinked : cfg.isUnlinked f
  severe : severityMeetsMin f.severity cfg.pushMinSeverity
  idle : db.hasCreateUnderWay f.id = false

/-- A run enqueues one of the findings that it is to enqueue, if there are any. Whatever happens
between them, repeated runs enqueue each of these findings, unless it is linked before, and do not
enqueue a finding again and again whose create event has failed. -/
structure BackfillProgress [UuidSource] (cfg : BackfillSettings) (limit : ℕ) (db : BacklogDb) :
    Prop where
  one : (∃ f ∈ db.findings.rows, cfg.Wants db f) → ∃ f ∈ toEnqueue cfg limit db, cfg.Wants db f
  every : ∀ intervals, ∀ f ∈ db.findings.rows, cfg.Wants db f →
    ∃ n, Enqueues cfg limit db intervals n f.id ∨ LinkedBefore cfg limit db intervals n f.id
  not_for_ever : ∀ intervals, ∀ f ∈ db.findings.rows, db.hasFailedCreate f.id →
    db.hasCreateUnderWay f.id = false → ¬ ∀ n, ∃ m ≥ n, Enqueues cfg limit db intervals m f.id

/-- The first findings that have no issue, with or without a create event under way. -/
def unlinkedPage (cfg : BackfillSettings) (limit : ℕ) (t : Table BacklogFinding) :
    List BacklogFinding :=
  ((byCreation t).filter cfg.isUnlinked).take limit

/-! ### What runs leave of a finding -/

/-- The columns that runs leave as they are; a finding with an issue keeps one. -/
structure Keeps (key : Str) (f g : BacklogFinding) : Prop where
  id : g.id = f.id
  status : g.status = f.status
  archived : g.archived = f.archived
  severity : g.severity = f.severity
  source : g.source = f.source
  createdAt : g.createdAt = f.createdAt
  linked : hasTrackerLink f.toTrackedFinding key → hasTrackerLink g.toTrackedFinding key

/-- Only the column `sync_status` differs. -/
def OnlySyncStatus (f g : BacklogFinding) : Prop := g = { f with syncStatus := g.syncStatus }

/-- The rows of a table come from those of another one by one. -/
def RowsBy (R : BacklogFinding → BacklogFinding → Prop) (t t' : Table BacklogFinding) : Prop :=
  ∃ g, (∀ f, R f (g f)) ∧ t'.rows = t.rows.map g

section Rows

variable {cfg : BackfillSettings} {limit : ℕ} {key : Str} {f g h : BacklogFinding}
  {t t' : Table BacklogFinding}

theorem Keeps.refl (f : BacklogFinding) : Keeps key f f := ⟨rfl, rfl, rfl, rfl, rfl, rfl, fun h => h⟩

theorem Keeps.trans (hfg : Keeps key f g) (hgh : Keeps key g h) : Keeps key f h where
  id := hgh.id.trans hfg.id
  status := hgh.status.trans hfg.status
  archived := hgh.archived.trans hfg.archived
  severity := hgh.severity.trans hfg.severity
  source := hgh.source.trans hfg.source
  createdAt := hgh.createdAt.trans hfg.createdAt
  linked hlinked := hgh.linked (hfg.linked hlinked)

theorem OnlySyncStatus.trans (hfg : OnlySyncStatus f g) (hgh : OnlySyncStatus g h) :
    OnlySyncStatus f h := by
  rw [OnlySyncStatus, hgh, hfg]

theorem OnlySyncStatus.keeps (h : OnlySyncStatus f g) (key : Str) : Keeps key f g := by
  rw [h]
  exact ⟨rfl, rfl, rfl, rfl, rfl, rfl, fun h => h⟩

theorem OnlySyncStatus.isUnlinked (h : OnlySyncStatus f g) : cfg.isUnlinked g = cfg.isUnlinked f := by
  rw [h]
  rfl

/-- A finding that has no issue had none before. -/
theorem Keeps.isUnlinked (h : Keeps cfg.trackerKey f g) (hg : cfg.isUnlinked g) :
    cfg.isUnlinked f := by
  simp only [BackfillSettings.isUnlinked, Bool.and_eq_true, Bool.not_eq_true', h.status, h.archived,
    h.source] at hg ⊢
  refine ⟨⟨hg.1.1, ?_⟩, hg.2⟩
  rw [Bool.eq_false_iff]
  intro hlinked
  rw [h.linked hlinked] at hg
  exact Bool.false_ne_true hg.1.2.symm

/-- A finding loses its place in the backlog only to an issue. -/
theorem Keeps.hasTrackerLink (h : Keeps cfg.trackerKey f g) (hf : cfg.isUnlinked f)
    (hg : ¬ cfg.isUnlinked g) : hasTrackerLink g.toTrackedFinding cfg.trackerKey := by
  by_contra hnone
  simp only [BackfillSettings.isUnlinked, Bool.and_eq_true, Bool.not_eq_true'] at hf hg
  rw [h.status, h.archived, h.source] at hg
  exact hg ⟨⟨hf.1.1, Bool.eq_false_iff.mpr hnone⟩, hf.2⟩

theorem RowsBy.trans {R : BacklogFinding → BacklogFinding → Prop} {t'' : Table BacklogFinding}
    (hR : ∀ a b c, R a b → R b c → R a c) (h : RowsBy R t t') (h' : RowsBy R t' t'') :
    RowsBy R t t'' := by
  obtain ⟨g, hg, hrows⟩ := h
  obtain ⟨g', hg', hrows'⟩ := h'
  exact ⟨g' ∘ g, fun f => hR _ _ _ (hg f) (hg' (g f)), by rw [hrows', hrows, List.map_map]⟩

theorem RowsBy.mono {R R' : BacklogFinding → BacklogFinding → Prop} (hR : ∀ a b, R a b → R' a b)
    (h : RowsBy R t t') : RowsBy R' t t' :=
  h.imp fun _ hg => ⟨fun f => hR _ _ (hg.1 f), hg.2⟩

theorem byCreation_of_rows {g : BacklogFinding → BacklogFinding}
    (hg : ∀ f, (g f).createdAt = f.createdAt) (hrows : t'.rows = t.rows.map g) :
    byCreation t' = (byCreation t).map g := by
  have hsort := List.map_insertionSort (fun a b : BacklogFinding => a.createdAt ≤ b.createdAt)
    (fun a b : BacklogFinding => a.createdAt ≤ b.createdAt) g t.rows
    fun a _ b _ => by rw [hg a, hg b]
  rw [byCreation, byCreation, hrows, hsort]

theorem mem_of_mem_unlinkedPage (h : f ∈ unlinkedPage cfg limit t) :
    f ∈ t.rows ∧ cfg.isUnlinked f := by
  obtain ⟨hmem, hunlinked⟩ := List.mem_filter.mp (List.mem_of_mem_take h)
  exact ⟨(List.mem_insertionSort _).mp hmem, hunlinked⟩

theorem unlinkedPage_of_rows {g : BacklogFinding → BacklogFinding}
    (hg : ∀ f, OnlySyncStatus f (g f)) (hrows : t'.rows = t.rows.map g) :
    unlinkedPage cfg limit t' = (unlinkedPage cfg limit t).map g := by
  have hfilter : ((byCreation t).map g).filter cfg.isUnlinked =
      ((byCreation t).filter cfg.isUnlinked).map g := by
    rw [List.filter_map]
    exact congrArg (List.map g) (List.filter_congr fun f _ => (hg f).isUnlinked)
  rw [unlinkedPage, unlinkedPage,
    byCreation_of_rows (fun f => ((hg f).keeps cfg.trackerKey).createdAt) hrows, hfilter,
    List.map_take]

end Rows

/-! ### Runs -/

section Runs

variable {cfg : BackfillSettings} {limit : ℕ} {db : BacklogDb} {f : BacklogFinding}

theorem mem_toEnqueue : f ∈ toEnqueue cfg limit db ↔
    cfg.hasCredentials ∧ f ∈ backfillPage cfg limit db ∧
      severityMeetsMin f.severity cfg.pushMinSeverity := by
  rw [toEnqueue]
  split_ifs with hcredentials
  · rw [List.mem_filter, Bool.and_eq_true, and_iff_right hcredentials]
    refine and_congr_right fun hpage => and_iff_right ?_
    have hunlinked := (List.mem_filter.mp (List.mem_of_mem_take hpage)).2
    simp only [BackfillSettings.isUnlinked, Bool.and_eq_true] at hunlinked
    exact hunlinked.1.1.2
  · exact iff_of_false List.not_mem_nil fun h => hcredentials h.1

theorem mem_of_mem_backfillPage (h : f ∈ backfillPage cfg limit db) :
    f ∈ db.findings.rows ∧ cfg.isUnlinked f ∧ db.hasCreateUnderWay f.id = false := by
  obtain ⟨hmem, hcandidate⟩ := List.mem_filter.mp (List.mem_of_mem_take h)
  rw [Bool.and_eq_true, Bool.not_eq_true'] at hcandidate
  exact ⟨(List.mem_insertionSort _).mp hmem, hcandidate⟩

/-- Without a create event under way a run takes the first findings that have no issue. -/
theorem backfillPage_eq (h : ∀ id, db.hasCreateUnderWay id = false) :
    backfillPage cfg limit db = unlinkedPage cfg limit db.findings := by
  rw [backfillPage, unlinkedPage]
  congr 1
  refine List.filter_congr fun f _ => ?_
  rw [h, Bool.not_false, Bool.and_true]

section Pass

variable {i : SyncInterval} {key : Str}

theorem SyncInterval.keeps_link (i : SyncInterval) (key : Str) (f : BacklogFinding) :
    Keeps key f (i.link key f) := by
  rw [link]
  split
  · exact .refl f
  · split_ifs with hlinked
    · exact .refl f
    · exact ⟨rfl, rfl, rfl, rfl, rfl, rfl, fun h => absurd h hlinked⟩

theorem SyncInterval.rowsBy_pass (i : SyncInterval) (key : Str) (db : BacklogDb) :
    RowsBy (Keeps key) db.findings (i.pass key db).findings :=
  ⟨i.link key, i.keeps_link key, rfl⟩

/-- An event is under way after the worker only if it was before. -/
theorem SyncInterval.hasCreateUnderWay_pass {id : Str} (h : db.hasCreateUnderWay id = false) :
    (i.pass key db).hasCreateUnderWay id = false := by
  rw [BacklogDb.hasCreateUnderWay, List.any_eq_false] at h ⊢
  intro e' he'
  obtain ⟨e, he, rfl⟩ := List.mem_map.mp he'
  have hnone := h e he
  rw [settle]
  split_ifs with hway
  · rw [hway, Bool.and_true] at hnone
    rw [Bool.and_eq_true, not_and]
    exact fun hcreates => absurd hcreates hnone
  · exact hnone

end Pass

variable [UuidSource] {intervals : ℕ → SyncInterval}

/-- A run writes only the column `sync_status` of findings. -/
theorem rowsBy_backfill (now : Instant) (db : BacklogDb) :
    RowsBy OnlySyncStatus db.findings (backfillUnsyncedFindings cfg limit now db).findings := by
  have hfold : ∀ (fs : List BacklogFinding) (db : BacklogDb),
      RowsBy OnlySyncStatus db.findings (fs.foldl (enqueueUnsynced cfg now) db).findings := by
    intro fs
    induction fs with
    | nil => exact fun db => ⟨fun f => f, fun _ => rfl, (List.map_id' _).symm⟩
    | cons f fs ih =>
      intro db
      have hone : RowsBy OnlySyncStatus db.findings (enqueueUnsynced cfg now db f).findings := by
        refine ⟨fun g => if g.id = f.id then pendingSync g else g, fun g => ?_, rfl⟩
        dsimp only
        split_ifs <;> rfl
      exact hone.trans (fun _ _ _ => OnlySyncStatus.trans) (ih _)
  exact hfold _ db

/-- What holds of the rows after every pass and every run holds of the rows that a run finds. -/
theorem rowsBy_beforeRun (R : BacklogFinding → BacklogFinding → Prop)
    (htrans : ∀ a b c, R a b → R b c → R a c) (honly : ∀ a b, OnlySyncStatus a b → R a b)
    (hpass : ∀ n db, RowsBy R db.findings ((intervals n).pass cfg.trackerKey db).findings) (n : ℕ) :
    RowsBy R db.findings (beforeRun cfg limit db intervals n).findings := by
  have hstart : RowsBy R db.findings db.findings :=
    ⟨fun f => f, fun _ => honly _ _ rfl, (List.map_id' _).symm⟩
  have hstep : ∀ n (db' : BacklogDb), RowsBy R db.findings db'.findings →
      RowsBy R db.findings (backfillUnsyncedFindings cfg limit (intervals n).now
        ((intervals n).pass cfg.trackerKey db')).findings := fun n db' h =>
    (h.trans htrans (hpass n db')).trans htrans ((rowsBy_backfill _ _).mono honly)
  exact (states_induction (fun db' : BacklogDb => RowsBy R db.findings db'.findings) hstep hstart n).trans htrans
    (hpass n _)

theorem keeps_beforeRun (cfg : BackfillSettings) (limit : ℕ) (db : BacklogDb)
    (intervals : ℕ → SyncInterval) (n : ℕ) :
    RowsBy (Keeps cfg.trackerKey) db.findings (beforeRun cfg limit db intervals n).findings :=
  rowsBy_beforeRun (Keeps cfg.trackerKey) (fun _ _ _ => Keeps.trans) (fun _ _ h => h.keeps _)
    (fun n db => (intervals n).rowsBy_pass cfg.trackerKey db) n

/-! ### Runs whose events all fail -/

/-- The tracker creates no issue, and none is found. -/
def refusedInterval : SyncInterval where
  now := 0
  settled _ := .failed
  found _ := none

theorem hasCreateUnderWay_refused (n : ℕ) (id : Str) :
    (beforeRun cfg limit db (fun _ => refusedInterval) n).hasCreateUnderWay id = false := by
  rw [BacklogDb.hasCreateUnderWay, List.any_eq_false]
  intro e' he'
  obtain ⟨e, -, rfl⟩ := List.mem_map.mp he'
  rw [Bool.and_eq_true, not_and]
  intro _
  rw [SyncInterval.settle]
  split_ifs with hway
  · exact Bool.false_ne_true
  · exact hway

theorem onlySyncStatus_refused (cfg : BackfillSettings) (limit : ℕ) (db : BacklogDb) (n : ℕ) :
    RowsBy OnlySyncStatus db.findings
      (beforeRun cfg limit db (fun _ => refusedInterval) n).findings :=
  rowsBy_beforeRun OnlySyncStatus (fun _ _ _ => OnlySyncStatus.trans) (fun _ _ h => h)
    (fun _ _ => ⟨refusedInterval.link cfg.trackerKey, fun _ => rfl, rfl⟩) n

/-- If every create event fails, then every run takes the same findings. -/
theorem enqueues_refused_iff (hf : f ∈ db.findings.rows) (n : ℕ) :
    Enqueues cfg limit db (fun _ => refusedInterval) n f.id ↔
      cfg.hasCredentials ∧ f ∈ unlinkedPage cfg limit db.findings ∧
        severityMeetsMin f.severity cfg.pushMinSeverity := by
  obtain ⟨g, hg, hrows⟩ := onlySyncStatus_refused cfg limit db n
  have hkeeps : ∀ f, Keeps cfg.trackerKey f (g f) := fun f => (hg f).keeps cfg.trackerKey
  have hpage : unlinkedPage cfg limit (beforeRun cfg limit db (fun _ => refusedInterval) n).findings =
      (unlinkedPage cfg limit db.findings).map g := unlinkedPage_of_rows hg hrows
  rw [Enqueues, List.mem_map]
  simp only [mem_toEnqueue, backfillPage_eq (hasCreateUnderWay_refused n), hpage, List.mem_map]
  constructor
  · rintro ⟨_, ⟨hcredentials, ⟨f', hf', rfl⟩, hsevere⟩, hid⟩
    obtain rfl : f' = f := Table.eq_of_pk (mem_of_mem_unlinkedPage hf').1 hf
      ((hkeeps f').id.symm.trans hid)
    rw [(hkeeps f').severity] at hsevere
    exact ⟨hcredentials, hf', hsevere⟩
  · rintro ⟨hcredentials, hpage, hsevere⟩
    refine ⟨g f, ⟨hcredentials, ⟨f, hpage, rfl⟩, ?_⟩, (hkeeps f).id⟩
    rw [(hkeeps f).severity]
    exact hsevere

theorem not_linkedBefore_refused (hf : f ∈ db.findings.rows) (hunlinked : cfg.isUnlinked f) (n : ℕ) :
    ¬ LinkedBefore cfg limit db (fun _ => refusedInterval) n f.id := by
  obtain ⟨g, hg, hrows⟩ := onlySyncStatus_refused cfg limit db n
  rintro ⟨_, hmem, hid, hlinked⟩
  rw [hrows] at hmem
  obtain ⟨f', hf', rfl⟩ := List.mem_map.mp hmem
  obtain rfl : f' = f := Table.eq_of_pk hf' hf
    (((hg f').keeps cfg.trackerKey).id.symm.trans hid)
  rw [← (hg f').isUnlinked] at hunlinked
  simp only [BackfillSettings.isUnlinked, Bool.and_eq_true, Bool.not_eq_true', hlinked,
    Bool.true_eq_false, and_false, false_and] at hunlinked

/-! ### What is asked of repeated runs -/

/-- A finding among the first without an issue is enqueued by the first run that finds it without
one. -/
theorem enqueues_or_linkedBefore (hf : f ∈ db.findings.rows) (hwants : cfg.Wants db f)
    (hpage : f ∈ unlinkedPage cfg limit db.findings) (intervals : ℕ → SyncInterval) :
    Enqueues cfg limit db intervals 0 f.id ∨ LinkedBefore cfg limit db intervals 0 f.id := by
  set i := intervals 0 with hi
  have hkeeps := i.keeps_link cfg.trackerKey
  by_cases hunlinked : cfg.isUnlinked (i.link cfg.trackerKey f)
  · refine .inl (List.mem_map.mpr ⟨i.link cfg.trackerKey f, mem_toEnqueue.mpr ?_, (hkeeps f).id⟩)
    refine ⟨hwants.configured, ?_, ?_⟩
    · have hidle : (i.pass cfg.trackerKey db).hasCreateUnderWay f.id = false :=
        i.hasCreateUnderWay_pass hwants.idle
      have horder : byCreation (i.pass cfg.trackerKey db).findings =
          (byCreation db.findings).map (i.link cfg.trackerKey) :=
        byCreation_of_rows (fun f => (hkeeps f).createdAt) rfl
      change i.link cfg.trackerKey f ∈ backfillPage cfg limit (i.pass cfg.trackerKey db)
      rw [backfillPage, horder, List.filter_map, ← List.map_take]
      refine List.mem_map_of_mem (Paged.mem_take_filter ?_ ?_ hpage)
      · intro f hf
        exact (hkeeps f).isUnlinked (Bool.and_eq_true _ _ ▸ hf).1
      · rw [Function.comp_apply, hunlinked, (hkeeps f).id, hidle]
        rfl
    · rw [(hkeeps f).severity]
      exact hwants.severe
  · exact .inr ⟨_, List.mem_map_of_mem hf, (hkeeps f).id,
      (hkeeps f).hasTrackerLink hwants.unlinked hunlinked⟩

/-- Runs enqueue only findings that a run is to enqueue once no create event is under way. -/
theorem wants_of_enqueues (hf : f ∈ db.findings.rows) (hidle : db.hasCreateUnderWay f.id = false)
    {n : ℕ} (h : Enqueues cfg limit db intervals n f.id) : cfg.Wants db f := by
  obtain ⟨g, hg, hrows⟩ := keeps_beforeRun cfg limit db intervals n
  obtain ⟨f', hf', hid⟩ := List.mem_map.mp h
  obtain ⟨hcredentials, hpage, hsevere⟩ := mem_toEnqueue.mp hf'
  obtain ⟨hmem, hunlinked, -⟩ := mem_of_mem_backfillPage hpage
  rw [hrows] at hmem
  obtain ⟨r, hr, rfl⟩ := List.mem_map.mp hmem
  obtain rfl : r = f := Table.eq_of_pk hr hf ((hg r).id.symm.trans hid)
  rw [(hg r).severity] at hsevere
  exact ⟨hcredentials, (hg r).isUnlinked hunlinked, hsevere, hidle⟩

/-- Repeated runs do what is asked of them exactly if each finding that a run is to enqueue is among
the first that have no issue and none of its create events has failed. -/
theorem backfillProgress_iff (cfg : BackfillSettings) (limit : ℕ) (db : BacklogDb) :
    BackfillProgress cfg limit db ↔ ∀ f ∈ db.findings.rows, cfg.Wants db f →
      f ∈ unlinkedPage cfg limit db.findings ∧ db.hasFailedCreate f.id = false := by
  constructor
  · intro h f hf hwants
    have hpage : f ∈ unlinkedPage cfg limit db.findings := by
      obtain ⟨n, henqueues | hlinked⟩ := h.every (fun _ => refusedInterval) f hf hwants
      · exact ((enqueues_refused_iff hf n).mp henqueues).2.1
      · exact absurd hlinked (not_linkedBefore_refused hf hwants.unlinked n)
    refine ⟨hpage, ?_⟩
    by_contra hfailed
    refine h.not_for_ever (fun _ => refusedInterval) f hf (Bool.not_eq_false _ ▸ hfailed)
      hwants.idle fun n => ⟨n, le_rfl, ?_⟩
    exact (enqueues_refused_iff hf n).mpr ⟨hwants.configured, hpage, hwants.severe⟩
  · intro h
    refine ⟨?_, ?_, ?_⟩
    · rintro ⟨f, hf, hwants⟩
      refine ⟨f, mem_toEnqueue.mpr ⟨hwants.configured, ?_, hwants.severe⟩, hwants⟩
      refine Paged.mem_take_filter ?_ ?_ (h f hf hwants).1
      · exact fun f hf => (Bool.and_eq_true _ _ ▸ hf).1
      · rw [hwants.unlinked, hwants.idle]
        rfl
    · exact fun intervals f hf hwants =>
        ⟨0, enqueues_or_linkedBefore hf hwants (h f hf hwants).1 intervals⟩
    · intro intervals f hf hfailed hidle hever
      obtain ⟨n, -, henqueues⟩ := hever 0
      rw [(h f hf (wants_of_enqueues hf hidle henqueues)).2] at hfailed
      exact Bool.false_ne_true hfailed

end Runs

/-! ### A finding that is not severe enough -/

section LowFirst

attribute [local instance] longestIds

/-- A finding without an issue. -/
def backlogFinding (id : String) (severity : Severity) (createdAt : Instant) : BacklogFinding where
  status := .open
  externalLinks := []
  syncStatus := none
  syncLastError := none
  syncFailedAt := none
  audit := []
  id := str id
  archived := false
  severity := severity
  source := some (str "Grype")
  cveId := str "CVE-2024-0001"
  title := none
  groupKey := []
  createdAt := createdAt

/-- Issues for findings of severity high and above. -/
def highSettings : BackfillSettings := ⟨linearKey, true, false, false, some .high⟩

/-- An old finding of severity low and a critical one. -/
def lowFirst : BacklogDb where
  findings := (Table.singleton (backlogFinding "f-1" .low 1)).insert (backlogFinding "f-2" .critical 2)
    (by decide)
  events := .empty

/-- An old finding of severity low takes up the limit of every run. -/
theorem not_backfillProgress_lowFirst :
    ¬ ∀ (_ : UuidSource) (cfg : BackfillSettings) (limit : ℕ) (db : BacklogDb), 0 < limit →
      BackfillProgress cfg limit db := by
  intro h
  have hone := (h longestIds highSettings 1 lowFirst (by decide)).one
  have hwants : highSettings.Wants lowFirst (backlogFinding "f-2" .critical 2) :=
    ⟨rfl, by decide, by decide, by decide⟩
  obtain ⟨f, hf, -⟩ := hone ⟨_, by decide, hwants⟩
  have hnone : toEnqueue highSettings 1 lowFirst = [] := by decide +kernel
  rw [hnone] at hf
  exact List.not_mem_nil hf

end LowFirst

end Vat
