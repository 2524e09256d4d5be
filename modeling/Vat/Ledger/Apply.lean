import Vat.Ledger.Lookup

/-!
# Applying a decision to a finding

The policy that decides whether a stored decision is written onto a finding, the projection that
writes it, and the call made for every ingested finding and for every finding of a reconcile.

Source: `backend/app/services/decision_ledger.py`, lines 33–78 and 208–414.

## Main definitions

* `findingHasNewerHumanEdit`, `decisionApplyAction`: the policy.
* `applyDecisionProjection`, `upsertDecisionLink`, `resolveAndApplyDecision`: the writes.

## Main results

* `decisionApplyAction_eq_apply_iff`: when the policy answers `apply`.
* `resolveAndApplyDecision_of_governing`, `resolveAndApplyDecision_of_none`: what a call does.
-/

namespace Vat

open Relational

/-! ### Status classes -/

/-- Terminal compliance decisions, applied on re-import. -/
def terminalDecisionStatuses : List Status :=
  [.riskAccepted, .falsePositive, .suppressed, .notApplicable, .mitigated, .duplicate]

/-- Reviewer judgements, never applied. -/
def reviewRequiredStatuses : List Status := [.approved, .rejected]

/-- The statuses of a finding nobody has decided on. -/
def preDecisionStatuses : List Status := [.open, .syncedToTracker, .inReview, .reopened]

/-- The statuses that are recorded in the ledger. -/
def recordableStatuses : List Status :=
  [.approved, .rejected, .riskAccepted, .falsePositive, .suppressed, .notApplicable, .mitigated,
    .duplicate, .resolved]

theorem not_mem_preDecisionStatuses_of_terminal {s : Status}
    (h : s ∈ terminalDecisionStatuses) : s ∉ preDecisionStatuses := by
  revert h
  cases s <;> decide

/-! ### The policy -/

section Policy

variable [Unicode]

/-- Whether a user name is that of a person, not blank or the system's. -/
def isHumanUser (user : Str) : Bool :=
  let name := Unicode.lower (Str.strip user)
  decide (name ≠ [] ∧ name ≠ str "system")

theorem isHumanUser_system : isHumanUser (str "system") = false := by
  have hstrip : Str.strip (str "system") = str "system" := by decide
  have hlower : Unicode.lower (str "system") = str "system" := Unicode.lower_eq_self (by decide)
  simp [isHumanUser, hstrip, hlower]

/-- Whether an audit entry was written for a person. -/
def AuditEntry.isHuman (e : AuditEntry) : Bool := isHumanUser e.user

omit [Unicode] in
/-- The later of the latest instant so far and the instant of an entry. -/
def laterEdit : Option Instant → Option Instant → Option Instant
  | latest, none => latest
  | none, some ts => some ts
  | some latest, some ts => some (if latest < ts then ts else latest)

/-- The latest instant of an edit by a person. -/
def latestHumanEdit (audit : List AuditEntry) : Option Instant :=
  audit.foldl (fun latest e => if e.isHuman then laterEdit latest e.ts else latest) none

omit [Unicode] in
@[simp] theorem laterEdit_none_right (latest : Option Instant) : laterEdit latest none = latest := by
  cases latest <;> rfl

theorem latestHumanEdit_concat (audit : List AuditEntry) (e : AuditEntry) :
    latestHumanEdit (audit ++ [e]) =
      if e.isHuman then laterEdit (latestHumanEdit audit) e.ts else latestHumanEdit audit := by
  rw [latestHumanEdit, List.foldl_append]
  rfl

/-- Entries of the system do not count as edits. -/
theorem latestHumanEdit_append {audit added : List AuditEntry}
    (h : ∀ e ∈ added, e.isHuman = false) :
    latestHumanEdit (audit ++ added) = latestHumanEdit audit := by
  induction added generalizing audit with
  | nil => rw [List.append_nil]
  | cons e added ih =>
    rw [List.append_cons, ih fun e' he' => h e' (List.mem_cons_of_mem e he'),
      latestHumanEdit_concat, h e List.mem_cons_self]
    rfl

/-- True when the finding was edited by a person after the decision's last update. -/
def findingHasNewerHumanEdit (f : Finding) (d : TriageDecision) : Bool :=
  match latestHumanEdit f.audit with
  | none => false
  | some latest => decide (d.updatedAt < latest)

/-- `decision_apply_action`. -/
inductive ApplyAction
  | apply | skip | conflict
  deriving DecidableEq

/-- What to do with a finding, given the version the link applied last. -/
def decisionApplyAction (f : Finding) (d : TriageDecision) (linkApplied : Option ℕ) : ApplyAction :=
  if d.status ∈ reviewRequiredStatuses then
    if f.status = d.status then .skip else .conflict
  else if d.status ∉ terminalDecisionStatuses then .skip
  else if f.status ∈ preDecisionStatuses then .apply
  else
    let decisionIsNewer := linkApplied.any fun v => v < d.decisionVersion
    if f.status = d.status ∧ ¬ decisionIsNewer then .skip
    -- Applying would change the finding: newer human work is not overwritten.
    else if findingHasNewerHumanEdit f d then .conflict
    else .apply

omit [Unicode] in
private theorem not_mem_reviewRequired_of_terminal {s : Status}
    (h : s ∈ terminalDecisionStatuses) : s ∉ reviewRequiredStatuses := by
  revert h
  cases s <;> decide

/-- The finding already shows the decision in the version that the link applied last. -/
def ShowsDecision (f : Finding) (d : TriageDecision) (linkApplied : Option ℕ) : Prop :=
  f.status = d.status ∧ ∀ v, linkApplied = some v → d.decisionVersion ≤ v

instance (f : Finding) (d : TriageDecision) (linkApplied : Option ℕ) :
    Decidable (ShowsDecision f d linkApplied) :=
  decidable_of_iff (f.status = d.status ∧ ∀ v ∈ linkApplied, d.decisionVersion ≤ v) Iff.rfl

omit [Unicode] in
theorem showsDecision_iff (f : Finding) (d : TriageDecision) (linkApplied : Option ℕ) :
    ShowsDecision f d linkApplied ↔
      f.status = d.status ∧ ¬ (linkApplied.any fun v => v < d.decisionVersion) := by
  cases linkApplied <;> simp [ShowsDecision]

/-- A decision is applied when it is terminal and the finding is undecided, or shows something
else that no person edited after the decision's last update. -/
theorem decisionApplyAction_eq_apply_iff (f : Finding) (d : TriageDecision)
    (linkApplied : Option ℕ) :
    decisionApplyAction f d linkApplied = .apply ↔
      d.status ∈ terminalDecisionStatuses ∧
        (f.status ∈ preDecisionStatuses ∨
          (¬ ShowsDecision f d linkApplied ∧ findingHasNewerHumanEdit f d = false)) := by
  rw [showsDecision_iff]
  unfold decisionApplyAction
  by_cases hterm : d.status ∈ terminalDecisionStatuses
  · rw [if_neg (not_mem_reviewRequired_of_terminal hterm), if_neg (not_not_intro hterm)]
    by_cases hpre : f.status ∈ preDecisionStatuses
    · simp [hterm, hpre]
    · rw [if_neg hpre]
      simp only [hterm, hpre, true_and, false_or]
      split_ifs with hshow hedit <;> simp_all
  · simp only [hterm, not_false_eq_true, ↓reduceIte, false_and, iff_false]
    split_ifs <;> simp

end Policy

/-! ### The writes -/

/-- Write the decision onto the finding. -/
def applyDecisionProjection (now : Instant) (f : Finding) (d : TriageDecision) : Finding :=
  { f with
    status := d.status
    justification := d.justification
    compensatingControls := d.compensatingControls
    reviewerNote := d.reviewerNote
    attestation := d.attestation
    suppressionScope :=
      match d.suppressionScope with
      | some scope => some scope
      | none => f.suppressionScope
    audit := f.audit ++
      [⟨some now, str "system", str "Decision re-linked",
        some (str "Applied decision " ++ d.id ++ str " (" ++ d.subjectKey ++ str ")")⟩] }

theorem keepsKeys_projection (now : Instant) (d : TriageDecision) :
    KeepsKeys fun f => applyDecisionProjection now f d := fun _ => ⟨rfl, rfl⟩

/-- A projection is not an edit. -/
theorem latestHumanEdit_projection [Unicode] (now : Instant) (f : Finding) (d : TriageDecision) :
    latestHumanEdit (applyDecisionProjection now f d).audit = latestHumanEdit f.audit :=
  latestHumanEdit_append fun e he => by
    rw [List.mem_singleton.mp he]
    exact isHumanUser_system

theorem sameSubject_projection (now : Instant) (f : Finding) (d : TriageDecision) :
    SameSubject f (applyDecisionProjection now f d) := ⟨rfl, rfl, rfl, rfl, rfl, rfl⟩

/-- Link the decision to the finding, with the version the finding shows. -/
def upsertDecisionLink (now : Instant) (links : Table DecisionFindingLink) (d : TriageDecision)
    (findingId : Str) (candidate : DecisionSubjectCandidate) (appliedVersion : ℕ) :
    Table DecisionFindingLink :=
  links.upsert ⟨d.id, findingId, candidate.kind, candidate.confidence, appliedVersion, now, none⟩
    fun row => { row with
      linkMethod := candidate.kind
      linkConfidence := candidate.confidence
      appliedDecisionVersion := appliedVersion
      linkedAt := now
      unlinkedAt := none }

/-- A link shows the version it was written with. -/
theorem appliedVersion_upsertDecisionLink (now : Instant) (links : Table DecisionFindingLink)
    (d : TriageDecision) (findingId : Str) (candidate : DecisionSubjectCandidate) (version : ℕ) :
    ((upsertDecisionLink now links d findingId candidate version).get? (d.id, findingId)).map
      DecisionFindingLink.appliedDecisionVersion = some version := by
  have hself := Table.get?_upsert_self links
    (⟨d.id, findingId, candidate.kind, candidate.confidence, version, now, none⟩ :
      DecisionFindingLink)
    (fun row => { row with
      linkMethod := candidate.kind
      linkConfidence := candidate.confidence
      appliedDecisionVersion := version
      linkedAt := now
      unlinkedAt := none }) fun _ => ⟨rfl, rfl⟩
  refine (congrArg _ hself).trans ?_
  cases links.get? (d.id, findingId) <;> rfl

theorem get?_upsertDecisionLink_ne (now : Instant) (links : Table DecisionFindingLink)
    (d : TriageDecision) {findingId : Str} (candidate : DecisionSubjectCandidate) (version : ℕ)
    {key : Str × Str} (hne : key ≠ (d.id, findingId)) :
    (upsertDecisionLink now links d findingId candidate version).get? key = links.get? key :=
  Table.get?_upsert_ne links _ _ hne

/-- The bookkeeping of a resolve on its decision. Any update of the row sets `updated_at`. -/
def TriageDecision.touch (now : Instant) (findingId : Str) (d : TriageDecision) : TriageDecision :=
  { d with
    lastFindingId := some findingId
    lastAppliedAt := some now
    updatedAt := now }

theorem TriageDecision.keepsKeys_touch (now : Instant) (findingId : Str) :
    KeepsKeys (TriageDecision.touch now findingId) := fun _ => ⟨rfl, rfl⟩

/-- `DecisionApplyResult`. -/
structure DecisionApplyResult where
  applied : Bool
  decisionId : Option Str
  subjectKey : Option Str
  linkMethod : Option CandidateKind
  conflict : Bool
  deriving DecidableEq

/-- The result of a call that finds no decision. -/
def DecisionApplyResult.unresolved : DecisionApplyResult := ⟨false, none, none, none, false⟩

section Resolve

variable [Unicode]

/-- The version that the link of a decision to a finding applied last. -/
def linkApplied (db : Db) (decisionId findingId : Str) : Option ℕ :=
  (db.links.get? (decisionId, findingId)).map DecisionFindingLink.appliedDecisionVersion

/-- The policy's answer for a stored decision and a stored finding. -/
def relinkAction (db : Db) (f : Finding) (d : TriageDecision) : ApplyAction :=
  decisionApplyAction f d (linkApplied db d.id f.id)

/-- The event of a conflict. -/
def relinkConflictEvent (f : Finding) (d : TriageDecision) (matched : DecisionSubjectCandidate) :
    AuditEvent where
  eventType := str "decision.relink.conflict"
  actorType := str "system"
  actorId := none
  assetId := none
  findingId := some f.id
  decisionName := str "decision_relink"
  decisionReasonCode := matched.kind.value
  decisionConfidence := some matched.confidence
  decisionResult := d.status.value
  data := [(str "decision_id", d.id), (str "subject_key", d.subjectKey),
    (str "finding_status", f.status.value)]

/-- The event of an application or of a first link. -/
def relinkedEvent (f : Finding) (d : TriageDecision) (matched : DecisionSubjectCandidate)
    (applied : Bool) : AuditEvent where
  eventType := str "decision.relinked"
  actorType := str "system"
  actorId := none
  assetId := none
  findingId := some f.id
  decisionName := str "decision_relink"
  decisionReasonCode := matched.kind.value
  decisionConfidence := some matched.confidence
  decisionResult := d.status.value
  data := [(str "decision_id", d.id), (str "subject_key", d.subjectKey),
    (str "applied", if applied then str "True" else str "False")]

/-- What a resolve emits: conflicts, applications and first links. -/
def relinkEvents (db : Db) (f : Finding) (d : TriageDecision)
    (matched : DecisionSubjectCandidate) : List AuditEvent :=
  match relinkAction db f d with
  | .conflict => [relinkConflictEvent f d matched]
  | .apply => [relinkedEvent f d matched true]
  | .skip =>
    if (db.links.get? (d.id, f.id)).isNone then [relinkedEvent f d matched false] else []

/-- The writes of a resolve that found the decision `d` for the finding `f`. -/
def relinkDecision (now : Instant) (db : Db) (f : Finding) (d : TriageDecision)
    (matched : DecisionSubjectCandidate) : Db :=
  let applied := relinkAction db f d = .apply
  { db with
    findings :=
      if applied then
        db.findings.update f.id (fun g => applyDecisionProjection now g d) (keepsKeys_projection now d)
      else db.findings
    links := upsertDecisionLink now db.links d f.id matched
      (if applied then d.decisionVersion else (linkApplied db d.id f.id).getD 0)
    decisions := db.decisions.update d.id (TriageDecision.touch now f.id)
      (TriageDecision.keepsKeys_touch now f.id)
    auditEvents := db.auditEvents ++ relinkEvents db f d matched }

/-- The result of a resolve that found the decision `d` for the finding `f`. -/
def relinkResult (db : Db) (f : Finding) (d : TriageDecision)
    (matched : DecisionSubjectCandidate) : DecisionApplyResult where
  applied := relinkAction db f d = .apply
  decisionId := some d.id
  subjectKey := some d.subjectKey
  linkMethod := some matched.kind
  conflict := relinkAction db f d = .conflict

/-- Look up the decision of a stored finding and apply it by the policy. -/
def resolveAndApplyDecision (cfg : Settings) (now : Instant) (db : Db) (findingId : Str)
    (parserId : Option Str) : Db × DecisionApplyResult :=
  if !cfg.decisionLedgerEnabled then (db, .unresolved)
  else
    match db.findings.get? findingId with
    | none => (db, .unresolved)
    | some f =>
      match governingDecision cfg db f parserId with
      | none => (db, .unresolved)
      | some (d, matched) => (relinkDecision now db f d matched, relinkResult db f d matched)

theorem resolveAndApplyDecision_of_governing {cfg : Settings} {now : Instant} {db : Db}
    {findingId : Str} {parserId : Option Str} {f : Finding} {d : TriageDecision}
    {matched : DecisionSubjectCandidate} (henabled : cfg.decisionLedgerEnabled = true)
    (hf : db.findings.get? findingId = some f)
    (hg : governingDecision cfg db f parserId = some (d, matched)) :
    resolveAndApplyDecision cfg now db findingId parserId =
      (relinkDecision now db f d matched, relinkResult db f d matched) := by
  simp only [resolveAndApplyDecision, henabled, Bool.not_true, Bool.false_eq_true, ↓reduceIte, hf,
    hg]

/-- A resolve finds the decision of its finding and relinks it, or does nothing. -/
theorem resolveAndApplyDecision_cases (cfg : Settings) (now : Instant) (db : Db) (findingId : Str)
    (parserId : Option Str) :
    (resolveAndApplyDecision cfg now db findingId parserId = (db, .unresolved) ∧
      ∀ f d matched, cfg.decisionLedgerEnabled = true → db.findings.get? findingId = some f →
        governingDecision cfg db f parserId ≠ some (d, matched)) ∨
    ∃ f d matched, cfg.decisionLedgerEnabled = true ∧ db.findings.get? findingId = some f ∧
      governingDecision cfg db f parserId = some (d, matched) ∧
      resolveAndApplyDecision cfg now db findingId parserId =
        (relinkDecision now db f d matched, relinkResult db f d matched) := by
  cases henabled : cfg.decisionLedgerEnabled with
  | false => exact Or.inl ⟨by simp [resolveAndApplyDecision, henabled], fun _ _ _ h => by cases h⟩
  | true =>
    cases hf : db.findings.get? findingId with
    | none =>
      exact Or.inl ⟨by simp [resolveAndApplyDecision, hf], fun _ _ _ _ h => by cases h⟩
    | some f =>
      cases hg : governingDecision cfg db f parserId with
      | none =>
        refine Or.inl ⟨by simp [resolveAndApplyDecision, hf, hg], fun f' d m _ h hg' => ?_⟩
        cases h
        rw [hg] at hg'
        cases hg'
      | some p =>
        exact Or.inr ⟨f, p.1, p.2, rfl, rfl, hg,
          resolveAndApplyDecision_of_governing henabled hf hg⟩

end Resolve

end Vat
