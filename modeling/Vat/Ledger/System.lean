import Vat.Findings.Update
import Vat.Ledger.SubjectAliases
import Vat.Ledger.Waivers
import Vat.Transition.Run

/-!
# Runs of the decision ledger

The ledger as a transition system. A state is the database, the clock and a history of what
happened to findings and decisions, newest first. The history is not read by any operation; it
says in which order people edited findings, decisions were revised and decisions were written
onto findings, which the database only keeps as time stamps.

An operation is one committed call of a service, made some time after the one before. A call that
raises is rolled back and leaves the database as it is.

## Main definitions

* `Event`, `World`: histories and states.
* `LedgerOp`, `World.step`: the operations.
-/

namespace Vat

open Relational Transition

/-! ### States -/

/-- What happened to a finding or a decision. -/
inductive Event
  /-- A person edited the finding. -/
  | edited (findingId : Str) (instant : Instant)
  /-- The content of the decision was written. -/
  | revised (decisionId : Str) (instant : Instant)
  /-- A resolve wrote its bookkeeping to the row of the decision. -/
  | booked (decisionId : Str) (instant : Instant)
  /-- A resolve wrote the decision onto the finding. -/
  | projected (decisionId findingId : Str)
  deriving DecidableEq

/-- The database, the clock and the history, newest first. -/
structure World where
  db : Db
  clock : Instant
  history : List Event

/-- A deployment before its first decision. -/
def World.start (db : Db) (clock : Instant) : World where
  db := { db with decisions := .empty, revisions := .empty, links := .empty }
  clock := clock
  history := []

/-! ### Operations -/

section Operations

variable [Unicode]

/-- What an import writes to a finding it knows: anything but the id, and audit entries of the
system. -/
structure IngestRewrite where
  apply : Finding → Finding
  id_eq : ∀ f, (apply f).id = f.id
  audit_eq : ∀ f, ∃ added : List AuditEntry,
    (apply f).audit = f.audit ++ added ∧ ∀ e ∈ added, e.isHuman = false

/-- The import that changes nothing. -/
def IngestRewrite.same : IngestRewrite := ⟨id, fun _ => rfl, fun _ => ⟨[], by simp, by simp⟩⟩

/-- A finding that an import creates: no person has edited it. -/
structure ImportedFinding where
  row : Finding
  unedited : ∀ e ∈ row.audit, e.isHuman = false

/-- The calls that read or write the ledger. -/
inductive LedgerOp
  | edit (findingId : Str) (data : FindingUpdate) (user : Str)
  | revert (findingId reason user : Str)
  | record (findingId user reason : Str) (parserId : Option Str)
  | ingest (findingId : Str) (rewrite : IngestRewrite) (parserId : Option Str)
  | create (finding : ImportedFinding) (parserId : Option Str)
  | reconcile (tenantId : Option Str) (crossTenant : Bool) (limit : ℕ)
  | expireWaivers (today : Str)
  | unlink (findingIds : List Str)
  | aliasAsset (sourceAssetId canonicalAssetId : Str) (createdBy : Option Str)
  | aliasSubject (tenantId : Option Str) (aliasKey canonicalKey reason : Str)

/-- A call and the time since the one before. -/
structure TimedOp where
  after : ℕ
  op : LedgerOp

namespace World

/-- The events of a resolve. -/
def resolveEvents (now : Instant) (findingId : Str) (result : DecisionApplyResult) : List Event :=
  match result.decisionId with
  | none => []
  | some d => .booked d now :: if result.applied then [.projected d findingId] else []

/-- The event of a recording. -/
def recordEvents (now : Instant) (recorded : Option Str) : List Event :=
  recorded.toList.map fun d => .revised d now

/-- The event of an edit. -/
def editEvents (now : Instant) (findingId user : Str) : List Event :=
  if isHumanUser user then [.edited findingId now] else []

/-- `resolve_and_apply_decision` for one finding. -/
def resolve (cfg : Settings) (w : World) (findingId : Str) (parserId : Option Str) : World :=
  let (db, result) := resolveAndApplyDecision cfg w.clock w.db findingId parserId
  { w with db := db, history := resolveEvents w.clock findingId result ++ w.history }

/-- `reconcile_decision_links`: a resolve for every scanned finding. -/
def reconcile (cfg : Settings) (w : World) (ids : List Str) : World :=
  run (fun w findingId => resolve cfg w findingId none) w ids

/-- The import of a known finding, then its resolve. -/
def ingest (cfg : Settings) (w : World) (findingId : Str) (rewrite : IngestRewrite)
    (parserId : Option Str) : World :=
  match w.db.findings.update? findingId rewrite.apply rewrite.id_eq with
  | none => w
  | some findings => resolve cfg { w with db := { w.db with findings := findings } } findingId parserId

/-- The import of a new finding, then its resolve. -/
def create (cfg : Settings) (w : World) (finding : ImportedFinding) (parserId : Option Str) :
    World :=
  match w.db.findings.insert? finding.row with
  | none => w
  | some findings =>
    resolve cfg { w with db := { w.db with findings := findings } } finding.row.id parserId

/-- `revert_finding`. -/
def revert (w : World) (findingId reason user : Str) : World :=
  match revertFinding w.clock w.db findingId reason user with
  | none => w
  | some db => { w with db := db, history := editEvents w.clock findingId user ++ w.history }

variable [UuidSource]

/-- `record_decision_from_finding`. -/
def record (cfg : Settings) (w : World) (findingId user reason : Str) (parserId : Option Str) :
    World :=
  match recordDecisionFromFinding cfg w.clock w.db findingId user reason parserId with
  | none => w
  | some (db, recorded) =>
    { w with db := db, history := recordEvents w.clock recorded ++ w.history }

/-- `update_finding`. -/
def edit (cfg : Settings) (w : World) (findingId : Str) (data : FindingUpdate) (user : Str) :
    World :=
  match saveEdit w.clock w.db findingId data user with
  | none => w
  | some db =>
    match recordDecisionFromFinding cfg w.clock db findingId user (str "reviewer_update") none with
    | none => w
    | some (db, recorded) =>
      { w with
        db := db
        history := recordEvents w.clock recorded ++ (editEvents w.clock findingId user ++ w.history) }

/-- `enforce_waiver_expiry`. -/
def expireWaivers (cfg : Settings) (w : World) (today : Str) : World :=
  match enforceWaiverExpiry cfg w.clock today w.db with
  | none => w
  | some (db, _) =>
    { w with
      db := db
      history :=
        (if cfg.decisionLedgerEnabled then
          ((expiredWaivers w.db today).map fun d => .revised d.id w.clock).reverse
        else []) ++ w.history }

/-- `upsert_asset_alias`. -/
def aliasAsset (cfg : Settings) (w : World) (sourceAssetId canonicalAssetId : Str)
    (createdBy : Option Str) : World :=
  { w with
    db := (upsertAssetAlias cfg w.clock w.db sourceAssetId canonicalAssetId createdBy).getD w.db }

/-- One call, at the present time. -/
def perform (cfg : Settings) (w : World) : LedgerOp → World
  | .edit findingId data user => edit cfg w findingId data user
  | .revert findingId reason user => revert w findingId reason user
  | .record findingId user reason parserId => record cfg w findingId user reason parserId
  | .ingest findingId rewrite parserId => ingest cfg w findingId rewrite parserId
  | .create finding parserId => create cfg w finding parserId
  | .reconcile tenantId crossTenant limit =>
    reconcile cfg w (scannedIds w.db tenantId crossTenant limit)
  | .expireWaivers today => expireWaivers cfg w today
  | .unlink findingIds => { w with db := softUnlinkFindings cfg w.clock w.db findingIds }
  | .aliasAsset sourceAssetId canonicalAssetId createdBy =>
    aliasAsset cfg w sourceAssetId canonicalAssetId createdBy
  | .aliasSubject tenantId aliasKey canonicalKey reason =>
    { w with db := registerSubjectAlias cfg w.clock w.db tenantId aliasKey canonicalKey reason }

/-- The state some time later. -/
def wait (w : World) (after : ℕ) : World := { w with clock := w.clock + after }

/-- One call of a run. -/
def step (cfg : Settings) (w : World) (t : TimedOp) : World := perform cfg (w.wait t.after) t.op

/-! ### The steps and the services -/

omit [UuidSource] in
theorem resolve_db (cfg : Settings) (w : World) (findingId : Str) (parserId : Option Str) :
    (resolve cfg w findingId parserId).db =
      (resolveAndApplyDecision cfg w.clock w.db findingId parserId).1 := rfl

omit [UuidSource] in
@[simp] theorem resolve_clock (cfg : Settings) (w : World) (findingId : Str)
    (parserId : Option Str) : (resolve cfg w findingId parserId).clock = w.clock := rfl

omit [UuidSource] in
/-- What a resolve that finds a decision adds to the history. -/
theorem resolve_history {cfg : Settings} {w : World} {findingId : Str} {parserId : Option Str}
    {f : Finding} {d : TriageDecision} {matched : DecisionSubjectCandidate}
    (heq : resolveAndApplyDecision cfg w.clock w.db findingId parserId =
      (relinkDecision w.clock w.db f d matched, relinkResult w.db f d matched)) :
    (resolve cfg w findingId parserId).history =
      .booked d.id w.clock ::
        ((if relinkAction w.db f d = .apply then [.projected d.id findingId] else []) ++
          w.history) := by
  simp only [resolve, heq, resolveEvents, relinkResult, decide_eq_true_eq, List.cons_append]

omit [UuidSource] in
/-- A resolve that finds no decision changes nothing. -/
theorem resolve_of_unresolved {cfg : Settings} {w : World} {findingId : Str}
    {parserId : Option Str}
    (heq : resolveAndApplyDecision cfg w.clock w.db findingId parserId = (w.db, .unresolved)) :
    resolve cfg w findingId parserId = w := by
  simp only [resolve, heq]
  rfl

omit [UuidSource] in
theorem reconcile_db_clock (cfg : Settings) (w : World) (ids : List Str) :
    (reconcile cfg w ids).db = (resolveEach cfg w.clock w.db ids).1 ∧
      (reconcile cfg w ids).clock = w.clock := by
  induction ids generalizing w with
  | nil => exact ⟨rfl, rfl⟩
  | cons findingId ids ih =>
    obtain ⟨hdb, hclock⟩ := ih (resolve cfg w findingId none)
    exact ⟨hdb, hclock⟩

end World

end Operations

end Vat
