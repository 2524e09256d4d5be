import Vat.Model.Finding

/-!
# Rows of the decision ledger and of the asset tables

The rows of `triage_decisions`, `triage_decision_revisions`, `decision_finding_links`,
`decision_subject_aliases`, `asset_aliases`, `assets` and `asset_merge_events`, with their
primary and unique keys, and the audit events the services emit.

Source: `backend/app/models/triage_decision.py`, `triage_decision_revision.py`,
`decision_finding_link.py`, `decision_subject_alias.py`, `asset_alias.py`,
`asset_merge_event.py`.
-/

namespace Vat

open Relational

/-- `DecisionSubjectCandidate.confidence`. -/
inductive Confidence
  | high | medium | low
  deriving DecidableEq

/-- `DecisionSubjectCandidate.kind`. -/
inductive CandidateKind
  | primary | sourceIssue | openscap
  deriving DecidableEq

/-- The text of a candidate kind. -/
def CandidateKind.value : CandidateKind → Str
  | .primary => str "primary"
  | .sourceIssue => str "source_issue"
  | .openscap => str "openscap"

/-- One lookup key for the decision ledger, with match metadata. -/
structure DecisionSubjectCandidate where
  subjectKey : Str
  confidence : Confidence
  kind : CandidateKind
  deriving DecidableEq

/-- The fields of a finding that a decision keeps for display. -/
structure IdentitySnapshot where
  cveId : Str
  title : Option Str
  severity : Severity
  component : Option Str
  image : Option Str
  findingType : FindingType
  controlRef : Option Str
  ruleId : Option Str
  deriving DecidableEq

/-- A row of the table `triage_decisions`. -/
structure TriageDecision where
  id : Str
  tenantId : Str
  subjectKey : Str
  subjectConfidence : Confidence
  findingType : FindingType
  status : Status
  suppressionScope : Option SuppressionScope
  justification : Option Str
  compensatingControls : Option Str
  reviewerNote : Option Str
  attestation : Option JsonObject
  identitySnapshot : Option IdentitySnapshot
  decisionVersion : Nat
  createdBy : Str
  createdAt : Instant
  updatedBy : Str
  updatedAt : Instant
  lastFindingId : Option Str
  lastAppliedAt : Option Instant
  deriving DecidableEq

/-- A decision has an id, and a tenant has one decision for a subject key. -/
instance : Row TriageDecision Str (Str × Str) where
  pk := TriageDecision.id
  uk d := (d.tenantId, d.subjectKey)

/-- The snapshot a revision keeps of its decision. -/
structure DecisionSnapshot where
  status : Status
  suppressionScope : Option SuppressionScope
  justification : Option Str
  compensatingControls : Option Str
  reviewerNote : Option Str
  attestation : Option JsonObject
  identitySnapshot : Option IdentitySnapshot
  subjectKey : Str
  decisionVersion : Nat
  deriving DecidableEq

/-- A row of the table `triage_decision_revisions`. -/
structure TriageDecisionRevision where
  id : Str
  decisionId : Str
  revision : Nat
  snapshot : DecisionSnapshot
  actorId : Str
  reason : Option Str
  createdAt : Instant
  deriving DecidableEq

/-- A decision has one revision of each number. -/
instance : Row TriageDecisionRevision Str (Str × Nat) where
  pk := TriageDecisionRevision.id
  uk r := (r.decisionId, r.revision)

/-- A row of the table `decision_finding_links`. -/
structure DecisionFindingLink where
  decisionId : Str
  findingId : Str
  linkMethod : CandidateKind
  linkConfidence : Confidence
  appliedDecisionVersion : Nat
  linkedAt : Instant
  unlinkedAt : Option Instant
  deriving DecidableEq

instance : Row DecisionFindingLink (Str × Str) (Str × Str) where
  pk l := (l.decisionId, l.findingId)
  uk l := (l.decisionId, l.findingId)

instance : Table.SingleKey DecisionFindingLink := ⟨fun _ _ => Iff.rfl⟩

/-- A row of the table `decision_subject_aliases`. -/
structure DecisionSubjectAlias where
  tenantId : Str
  aliasKey : Str
  canonicalKey : Str
  reason : Str
  createdAt : Instant
  deriving DecidableEq

instance : Row DecisionSubjectAlias (Str × Str) (Str × Str) where
  pk a := (a.tenantId, a.aliasKey)
  uk a := (a.tenantId, a.aliasKey)

instance : Table.SingleKey DecisionSubjectAlias := ⟨fun _ _ => Iff.rfl⟩

/-- A row of the table `asset_aliases`. -/
structure AssetAlias where
  sourceAssetId : Str
  canonicalAssetId : Str
  createdBy : Option Str
  deriving DecidableEq

instance : Row AssetAlias Str Str where
  pk := AssetAlias.sourceAssetId
  uk := AssetAlias.sourceAssetId

instance : Table.SingleKey AssetAlias := ⟨fun _ _ => Iff.rfl⟩

/-- A row of the table `assets`. -/
structure Asset where
  id : Str
  name : Str
  type : Str
  source : Str
  branch : Option Str
  tag : Option Str
  deriving DecidableEq

instance : Row Asset Str Str where
  pk := Asset.id
  uk := Asset.id

instance : Table.SingleKey Asset := ⟨fun _ _ => Iff.rfl⟩

/-- What `emit_audit_event` is called with. -/
structure AuditEvent where
  eventType : Str
  actorType : Str
  actorId : Option Str
  assetId : Option Str
  findingId : Option Str
  decisionName : Str
  decisionReasonCode : Str
  decisionConfidence : Option Confidence
  decisionResult : Str
  data : List (Str × Str)
  deriving DecidableEq

end Vat
