import Vat.Ledger.Apply

/-!
# Recording decisions

The write of a reviewer's decision from a finding to the ledger: a new decision with revision 1,
or the next version of the decision stored under the primary key of the finding, always with one
revision row. A violated key constraint is an `IntegrityError`, which rolls the call back; the
call then has no result.

Source: `backend/app/services/decision_ledger.py`, lines 98–124 and 417–572.

## Main definitions

* `decisionSnapshot`, `addRevision`, `recordDecisionFromFinding`.
* `softUnlinkFindings`, `registerSubjectAlias`.

## Main results

* `addRevision_cases`, `storeDecision_cases`, `recordDecisionFromFinding_cases`: what a recording
  writes.
-/

namespace Vat

open Relational

/-- `_decision_snapshot`. -/
def decisionSnapshot (d : TriageDecision) : DecisionSnapshot where
  status := d.status
  suppressionScope := d.suppressionScope
  justification := d.justification
  compensatingControls := d.compensatingControls
  reviewerNote := d.reviewerNote
  attestation := d.attestation
  identitySnapshot := d.identitySnapshot
  subjectKey := d.subjectKey
  decisionVersion := d.decisionVersion

/-- `_identity_snapshot_from_finding`. -/
def identitySnapshotFromFinding (f : Finding) : IdentitySnapshot where
  cveId := f.cveId
  title := f.title
  severity := f.severity
  component := f.component
  image := f.image
  findingType := f.findingType
  controlRef := f.controlRef
  ruleId := f.ruleId

/-- The statuses that are a decision without any text. -/
def decisiveStatuses : List Status := [.riskAccepted, .falsePositive, .suppressed, .notApplicable]

/-- The truth value of an attestation. -/
def attestationTruthy (att : Option JsonObject) : Bool := (att.getD []) != []

/-- Whether a finding holds a decision to record. -/
def isRecordable (f : Finding) : Bool :=
  decide (f.status ∈ recordableStatuses) &&
    (Str.truthy f.justification || Str.truthy f.compensatingControls ||
      Str.truthy f.reviewerNote || attestationTruthy f.attestation ||
      decide (f.status ∈ decisiveStatuses))

/-- The decision rewritten from the finding, as its next version. -/
def TriageDecision.revise (now : Instant) (user : Str) (f : Finding) (d : TriageDecision) :
    TriageDecision :=
  { d with
    status := f.status
    suppressionScope := f.suppressionScope
    justification := f.justification
    compensatingControls := f.compensatingControls
    reviewerNote := f.reviewerNote
    attestation := f.attestation
    identitySnapshot := some (identitySnapshotFromFinding f)
    decisionVersion := d.decisionVersion + 1
    updatedBy := user
    updatedAt := now
    lastFindingId := some f.id }

theorem TriageDecision.keepsKeys_revise (now : Instant) (user : Str) (f : Finding) :
    KeepsKeys (TriageDecision.revise now user f) := fun _ => ⟨rfl, rfl⟩

/-- The first version of a decision on a finding. -/
def TriageDecision.first (now : Instant) (user : Str) (f : Finding) (id : Str)
    (primary : DecisionSubjectCandidate) : TriageDecision where
  id := id
  tenantId := normalizeTenantId f.tenantId
  subjectKey := primary.subjectKey
  subjectConfidence := primary.confidence
  findingType := f.findingType
  status := f.status
  suppressionScope := f.suppressionScope
  justification := f.justification
  compensatingControls := f.compensatingControls
  reviewerNote := f.reviewerNote
  attestation := f.attestation
  identitySnapshot := some (identitySnapshotFromFinding f)
  decisionVersion := 1
  createdBy := user
  createdAt := now
  updatedBy := user
  updatedAt := now
  lastFindingId := some f.id
  lastAppliedAt := none

/-- An alias of a subject key, unless the key has one. -/
def addSubjectAlias (now : Instant) (aliases : Table DecisionSubjectAlias)
    (tenant aliasKey canonicalKey reason : Str) : Table DecisionSubjectAlias :=
  aliases.upsert ⟨tenant, aliasKey, canonicalKey, reason, now⟩ (fun row => row)

/-- The source-issue aliases of a recording. -/
def addSourceIssueAliases (now : Instant) (tenant : Str) (primary : DecisionSubjectCandidate)
    (candidates : List DecisionSubjectCandidate) (aliases : Table DecisionSubjectAlias) :
    Table DecisionSubjectAlias :=
  candidates.foldl
    (fun t c =>
      if c.kind = .sourceIssue then
        addSubjectAlias now t tenant c.subjectKey primary.subjectKey (str "source_issue")
      else t)
    aliases

/-- The event of a recording. -/
def decisionRecordedEvent (f : Finding) (user reason : Str) (primary : DecisionSubjectCandidate)
    (d : TriageDecision) : AuditEvent where
  eventType := str "decision.recorded"
  actorType := str "user"
  actorId := some user
  assetId := none
  findingId := some f.id
  decisionName := str "triage_decision"
  decisionReasonCode := reason
  decisionConfidence := some primary.confidence
  decisionResult := d.status.value
  data := [(str "decision_id", d.id), (str "subject_key", d.subjectKey),
    (str "decision_version", (Nat.repr d.decisionVersion).toList)]

section Record

variable [UuidSource]

/-- Add the revision that holds the current content of a decision. -/
def addRevision (now : Instant) (actorId : Str) (reason : Option Str) (db : Db)
    (d : TriageDecision) : Option Db :=
  (db.revisions.insert?
    ⟨newRevisionId db, d.id, d.decisionVersion, decisionSnapshot d, actorId, reason, now⟩).map
    fun revisions => { db with revisions := revisions }

/-- Store the decision of a finding under its primary key. -/
def storeDecision (now : Instant) (user : Str) (db : Db) (f : Finding)
    (primary : DecisionSubjectCandidate) : Option (Db × TriageDecision) :=
  match db.decisions.getBy? (normalizeTenantId f.tenantId, primary.subjectKey) with
  | some d =>
    some ({ db with
      decisions := db.decisions.update d.id (TriageDecision.revise now user f)
        (TriageDecision.keepsKeys_revise now user f) }, d.revise now user f)
  | none =>
    let d := TriageDecision.first now user f (newDecisionId db) primary
    (db.decisions.insert? d).map fun decisions => ({ db with decisions := decisions }, d)

variable [Unicode]

/-- The writes of a recording after the decision row itself. -/
def finishRecording (now : Instant) (user reason : Str) (db : Db) (f : Finding)
    (primary : DecisionSubjectCandidate) (others : List DecisionSubjectCandidate)
    (d : TriageDecision) : Db :=
  { db with
    links := upsertDecisionLink now db.links d f.id primary d.decisionVersion
    subjectAliases :=
      addSourceIssueAliases now (normalizeTenantId f.tenantId) primary others db.subjectAliases
    auditEvents := db.auditEvents ++ [decisionRecordedEvent f user reason primary d] }

/-- Persist the decision of a stored finding to the ledger. -/
def recordDecisionFromFinding (cfg : Settings) (now : Instant) (db : Db) (findingId user reason : Str)
    (parserId : Option Str) : Option (Db × Option Str) :=
  if !cfg.decisionLedgerEnabled then some (db, none)
  else
    match db.findings.get? findingId with
    | none => some (db, none)
    | some f =>
      if !isRecordable f then some (db, none)
      else
        match candidatesForFinding cfg db f parserId with
        | [] => some (db, none)
        | primary :: others => do
          let (db, d) ← storeDecision now user db f primary
          let db ← addRevision now user (some reason) db d
          pure (finishRecording now user reason db f primary others d, some d.id)

/-! ### What a recording writes -/

omit [Unicode] in
/-- A revision is appended, with the content of the decision. -/
theorem addRevision_cases {now : Instant} {actorId : Str} {reason : Option Str} {db db' : Db}
    {d : TriageDecision} (h : addRevision now actorId reason db d = some db') :
    ∃ revisions rev, db' = { db with revisions := revisions } ∧
      revisions.rows = db.revisions.rows ++ [rev] ∧ rev.decisionId = d.id ∧
      rev.revision = d.decisionVersion ∧ rev.snapshot = decisionSnapshot d := by
  obtain ⟨revisions, hins, rfl⟩ := Option.map_eq_some_iff.mp h
  exact ⟨revisions, _, rfl, Table.rows_of_insert? hins, rfl, rfl, rfl⟩

omit [Unicode] in
/-- The decision under the key is revised, or a new one is inserted. -/
theorem storeDecision_cases {now : Instant} {user : Str} {db db' : Db} {f : Finding}
    {primary : DecisionSubjectCandidate} {d : TriageDecision}
    (h : storeDecision now user db f primary = some (db', d)) :
    (∃ d₀, db.decisions.getBy? (normalizeTenantId f.tenantId, primary.subjectKey) = some d₀ ∧
      d = d₀.revise now user f ∧ db' = { db with
        decisions := db.decisions.update d₀.id (TriageDecision.revise now user f)
          (TriageDecision.keepsKeys_revise now user f) }) ∨
    (db.decisions.getBy? (normalizeTenantId f.tenantId, primary.subjectKey) = none ∧
      ∃ hins : db.decisions.CanInsert (.first now user f (newDecisionId db) primary),
        d = .first now user f (newDecisionId db) primary ∧
        db' = { db with decisions := db.decisions.insert _ hins }) := by
  unfold storeDecision at h
  split at h
  · next d₀ hd₀ =>
    obtain ⟨rfl, rfl⟩ := Prod.mk.inj (Option.some.inj h)
    exact Or.inl ⟨d₀, hd₀, rfl, rfl⟩
  · next hnone =>
    obtain ⟨decisions, hins, heq⟩ := Option.map_eq_some_iff.mp h
    obtain ⟨rfl, rfl⟩ := Prod.mk.inj heq
    obtain ⟨hcan, rfl⟩ := Table.insert?_eq_some_iff.mp hins
    exact Or.inr ⟨hnone, hcan, rfl, rfl⟩

/-- A recording does nothing, or stores a decision and one revision of it. -/
theorem recordDecisionFromFinding_cases {cfg : Settings} {now : Instant} {db db' : Db}
    {findingId user reason : Str} {parserId recorded : Option Str}
    (h : recordDecisionFromFinding cfg now db findingId user reason parserId =
      some (db', recorded)) :
    (db' = db ∧ recorded = none) ∨
    ∃ f primary others d db₁ db₂, db.findings.get? findingId = some f ∧
      candidatesForFinding cfg db f parserId = primary :: others ∧
      storeDecision now user db f primary = some (db₁, d) ∧
      addRevision now user (some reason) db₁ d = some db₂ ∧
      db' = finishRecording now user reason db₂ f primary others d ∧ recorded = some d.id := by
  unfold recordDecisionFromFinding at h
  split_ifs at h with henabled
  · obtain ⟨rfl, rfl⟩ := Prod.mk.inj (Option.some.inj h)
    exact Or.inl ⟨rfl, rfl⟩
  · split at h
    · obtain ⟨rfl, rfl⟩ := Prod.mk.inj (Option.some.inj h)
      exact Or.inl ⟨rfl, rfl⟩
    · next f hf =>
      split_ifs at h with hrec
      · obtain ⟨rfl, rfl⟩ := Prod.mk.inj (Option.some.inj h)
        exact Or.inl ⟨rfl, rfl⟩
      · split at h
        · obtain ⟨rfl, rfl⟩ := Prod.mk.inj (Option.some.inj h)
          exact Or.inl ⟨rfl, rfl⟩
        · next primary others hcand =>
          obtain ⟨⟨db₁, d⟩, hstore, h⟩ := Option.bind_eq_some_iff.mp h
          obtain ⟨db₂, hadd, h⟩ := Option.bind_eq_some_iff.mp h
          obtain ⟨rfl, rfl⟩ := Prod.mk.inj (Option.some.inj h)
          exact Or.inr ⟨f, primary, others, d, db₁, db₂, hf, hcand, hstore, hadd, rfl, rfl⟩

end Record

/-- Mark the links of deleted findings stale. Decisions are kept. -/
def softUnlinkFindings (cfg : Settings) (now : Instant) (db : Db) (findingIds : List Str) : Db :=
  if findingIds = [] ∨ !cfg.decisionLedgerEnabled then db
  else
    { db with
      links := db.links.mapRows
        (fun l => if l.findingId ∈ findingIds ∧ l.unlinkedAt = none then
          { l with unlinkedAt := some now } else l)
        (fun l => by dsimp only; split_ifs <;> exact ⟨rfl, rfl⟩) }

/-- Register an alias of a subject key, or repoint the one there is. -/
def registerSubjectAlias (cfg : Settings) (now : Instant) (db : Db) (tenantId : Option Str)
    (aliasKey canonicalKey reason : Str) : Db :=
  if !cfg.decisionLedgerEnabled then db
  else
    { db with
      subjectAliases := db.subjectAliases.upsert
        ⟨normalizeTenantId tenantId, aliasKey, canonicalKey, reason, now⟩
        fun row => { row with canonicalKey := canonicalKey, reason := reason } }

theorem sameRows_softUnlink (cfg : Settings) (now : Instant) (db : Db) (findingIds : List Str) :
    SameRows db (softUnlinkFindings cfg now db findingIds) := by
  unfold softUnlinkFindings
  split_ifs <;> exact ⟨rfl, rfl, rfl⟩

theorem sameRows_registerSubjectAlias (cfg : Settings) (now : Instant) (db : Db)
    (tenantId : Option Str) (aliasKey canonicalKey reason : Str) :
    SameRows db (registerSubjectAlias cfg now db tenantId aliasKey canonicalKey reason) := by
  unfold registerSubjectAlias
  split_ifs <;> exact ⟨rfl, rfl, rfl⟩

end Vat
