import Vat.Ledger.Record

/-!
# Edits by reviewers

The edit of a finding, which is also recorded in the ledger, and the revert to the previous
status, which is not.

The environmental risk scoring of an edit is not modelled: nothing here reads it.

Source: `backend/app/services/findings_service.py`, lines 30–54, 343–419 and 561–663, 812–815;
`backend/app/schemas/finding.py`, lines 53–59.

## Main definitions

* `updateFinding`, `revertFinding`.
-/

namespace Vat

open Relational

/-! ### Statuses as texts -/

/-- All statuses. -/
def allStatuses : List Status :=
  [.open, .syncedToTracker, .inReview, .approved, .rejected, .riskAccepted, .falsePositive,
    .suppressed, .notApplicable, .mitigated, .duplicate, .resolved, .reopened]

/-- `_status_display`. -/
def Status.display : Status → Str
  | .syncedToTracker => str "Synced to Tracker"
  | .inReview => str "In Review"
  | .riskAccepted => str "Risk Accepted"
  | .falsePositive => str "False Positive"
  | .notApplicable => str "Not Applicable"
  | s => s.value

/-- `STATUS_FROM_DISPLAY.get(s, s)`. -/
def statusFromDisplay (s : Str) : Str :=
  match allStatuses.find? fun st => st.display = s with
  | some st => st.value
  | none => if s = str "Ignored" then Status.suppressed.value else s

/-- `_status_to_enum`. A text that names no status is a `ValueError`. -/
def statusToEnum (s : Str) : Option Status :=
  allStatuses.find? fun st => st.value = statusFromDisplay s

/-! ### The edit -/

/-- `FindingUpdate`: the fields set in a request. -/
structure FindingUpdate where
  status : Option (Option Str)
  justification : Option (Option Str)
  compensatingControls : Option (Option Str)
  reviewerNote : Option (Option Str)
  suppressionScope : Option (Option Str)
  attestation : Option (Option JsonObject)

/-- The edit that sets no field. -/
def FindingUpdate.none : FindingUpdate := ⟨.none, .none, .none, .none, .none, .none⟩

/-- `_suppression_scope`. -/
def suppressionScopeOf (s : Option Str) : Option SuppressionScope :=
  if !Str.truthy s then none
  else if s = some (str "global") then some .global
  else some .contextual

/-- `value.strip()[:200]` of a text that is not blank. -/
def noteText (value : Option (Option Str)) : Option Str :=
  let text := Str.strip (Str.orEmpty (value.getD none))
  if text = [] then none else some (text.take 200)

/-- `_audit_note_for_update`. -/
def auditNoteForUpdate (data : FindingUpdate) : Option Str :=
  (noteText data.reviewerNote).or
    ((noteText data.justification).or (noteText data.compensatingControls))

/-- `_audit_action_for_update`. -/
def auditActionForUpdate (data : FindingUpdate) (oldStatus newStatus : Status) : Str :=
  if newStatus ≠ oldStatus then str "Status → " ++ newStatus.display
  else if data.reviewerNote.isSome then str "Reviewer note updated"
  else if data.justification.isSome then str "Justification updated"
  else if data.compensatingControls.isSome then str "Compensating controls updated"
  else if data.suppressionScope.isSome then str "Suppression scope updated"
  else if data.attestation.isSome then str "Attestation updated"
  else str "Finding updated"

/-- `_audit_reason_code_for_update`. -/
def auditReasonCodeForUpdate (data : FindingUpdate) (statusChanged : Bool) : Str :=
  if statusChanged then str "status_change"
  else if data.reviewerNote.isSome then str "reviewer_note"
  else if data.justification.isSome then str "justification"
  else if data.compensatingControls.isSome then str "compensating_controls"
  else if data.suppressionScope.isSome then str "suppression_scope"
  else if data.attestation.isSome then str "attestation"
  else str "finding_update"

/-- The status an edit asks for: the current one when the request sets none. -/
def FindingUpdate.statusFor (data : FindingUpdate) (current : Status) : Option Status :=
  let text := Str.orEmpty (data.status.getD .none)
  if text = [] then some current else statusToEnum text

/-- The fields of a finding after an edit, and the audit entry of the person who made it. -/
def Finding.edited (now : Instant) (data : FindingUpdate) (user : Str) (newStatus : Status)
    (f : Finding) : Finding :=
  { f with
    status := newStatus
    previousStatus := if newStatus ≠ f.status then some f.status.value else f.previousStatus
    justification := data.justification.getD f.justification
    compensatingControls := data.compensatingControls.getD f.compensatingControls
    reviewerNote := data.reviewerNote.getD f.reviewerNote
    suppressionScope :=
      match data.suppressionScope with
      | some scope => suppressionScopeOf scope
      | .none => f.suppressionScope
    attestation := data.attestation.getD f.attestation
    audit := f.audit ++
      [⟨some (floorSecond now), user, auditActionForUpdate data f.status newStatus,
        auditNoteForUpdate data⟩] }

theorem Finding.keepsKeys_edited (now : Instant) (data : FindingUpdate) (user : Str)
    (newStatus : Status) : KeepsKeys (Finding.edited now data user newStatus) :=
  fun _ => ⟨rfl, rfl⟩

/-- `_emit_finding_audit_event`. -/
def findingAuditEvent (data : FindingUpdate) (user : Str) (old new : Finding) : AuditEvent where
  eventType := str "finding.audit"
  actorType := str "user"
  actorId := some user
  assetId := Str.orElse new.image new.component
  findingId := some new.id
  decisionName := auditActionForUpdate data old.status new.status
  decisionReasonCode := auditReasonCodeForUpdate data (new.status ≠ old.status)
  decisionConfidence := none
  decisionResult := new.status.display
  data :=
    [(str "action", auditActionForUpdate data old.status new.status),
      (str "status", new.status.display)] ++
    if new.status ≠ old.status then [(str "previousStatus", old.status.display)] else []

/-- The part of `update_finding` before the ledger; `none` when there is no such finding or no
such status. -/
def saveEdit (now : Instant) (db : Db) (findingId : Str) (data : FindingUpdate) (user : Str) :
    Option Db := do
  let f ← db.findings.get? findingId
  let newStatus ← data.statusFor f.status
  pure { db with
    findings := db.findings.update findingId (Finding.edited now data user newStatus)
      (Finding.keepsKeys_edited now data user newStatus)
    auditEvents := db.auditEvents ++
      [findingAuditEvent data user f (f.edited now data user newStatus)] }

section Update

variable [Unicode] [UuidSource]

/-- `update_finding`; `none` when nothing is written. -/
def updateFinding (cfg : Settings) (now : Instant) (db : Db) (findingId : Str)
    (data : FindingUpdate) (user : Str) : Option Db := do
  let db ← saveEdit now db findingId data user
  let (db, _) ← recordDecisionFromFinding cfg now db findingId user (str "reviewer_update") none
  pure db

end Update

/-! ### The revert -/

/-- The finding back in its previous status. -/
def Finding.reverted (now : Instant) (reason user : Str) (target : Status) (f : Finding) :
    Finding :=
  { f with
    status := target
    previousStatus := some f.status.value
    audit := f.audit ++
      [⟨some (floorSecond now), user,
        str "Reverted \"" ++ f.status.value ++ str "\" → \"" ++ target.value ++ str "\"",
        if reason = [] then none else some (reason.take 200)⟩] }

theorem Finding.keepsKeys_reverted (now : Instant) (reason user : Str) (target : Status) :
    KeepsKeys (Finding.reverted now reason user target) := fun _ => ⟨rfl, rfl⟩

/-- `revert_finding`; `none` when there is no finding with a previous status. -/
def revertFinding (now : Instant) (db : Db) (findingId reason user : Str) : Option Db := do
  let f ← db.findings.get? findingId
  let previous ← f.previousStatus
  if previous = [] then none
  else do
    let target ← statusToEnum previous
    pure { db with
      findings := db.findings.update findingId (Finding.reverted now reason user target)
        (Finding.keepsKeys_reverted now reason user target) }

end Vat
