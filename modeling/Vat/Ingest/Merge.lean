import Vat.Findings.Update
import Vat.Identity.KeyNames
import Vat.Ingest.FreshIds
import Vat.Ingest.RiskScoring
import Vat.Ingest.Severity

/-!
# Merges of payloads into findings

A payload that meets a finding with its fingerprint is merged into the row, each column by a rule of
its own: most columns keep the first value they got, others take the last one, sources and clusters
are joined, of the severities the worst one stays. Merged once, a payload finds every column as it
would leave it, apart from the audit trail and the times of the last import.

Source: `backend/app/services/ingest.py`, lines 218–530 and 533–680.

## Main definitions

* `IngestArguments`: a call of `ingest_finding`.
* `IngestArguments.mergeDetails`, `VatFindingSchema.mergeStatus`, `IngestArguments.newFinding`.
* `Finding.lasting`: a row without audit trail and times of imports.
* `IngestArguments.Merged`: the payload is merged already.

## Main results

* `merged_mergeDetails`, `merged_newFinding`: a payload is merged once it was merged or stored.
* `lasting_mergeFinding`: the merge of a payload that is merged already writes a status.
-/

namespace Vat

open Relational

/-! ### Calls -/

/-- The settings that an ingest reads. -/
structure IngestSettings extends Settings where
  correlationLinkingEnabled : Bool
  correlationIncludeDigest : Bool

/-- The arguments of `ingest_finding`. The objects of a payload have each key once, and only the
callers for Aikido give a source id. -/
structure IngestArguments where
  payload : VatFindingSchema
  /-- The field `result_state` of the payload. -/
  resultState : Option Str
  sourceName : Str
  tenantId : Option Str
  aikidoSourceId : Option Str
  parserId : Option Str
  scanSessionId : Option Str
  scannerVersion : Option Str
  rawEvidenceRef : Option Str
  forceTagOverride : Bool
  clusterId : Option Str
  keysOnce : ∀ o ∈ payload.riskScoring, RiskScoring.KeysOnce o
  aikidoOnly : aikidoSourceId ≠ none → sourceName = str "Aikido"

/-- What the search for an existing finding reads of a row. -/
def Finding.stored (f : Finding) : StoredFinding where
  id := f.id
  fingerprintId := f.fingerprintId
  image := f.image
  component := f.component
  externalLinks := f.externalLinks
  createdAt := f.createdAt

/-! ### The rules of columns -/

/-- A column that keeps the first text it got. -/
def firstWins (old new : Option Str) : Option Str :=
  if Str.truthy new ∧ ¬ Str.truthy old then new else old

/-- The sources of a finding. Any other source removes the entries of Aikido. -/
def mergeSources [Unicode] (sourceName : Str) (now : Instant) (sources : List SourceEntry) :
    List SourceEntry :=
  let kept :=
    if sourceName ≠ [] ∧ sourceName ≠ str "Aikido" then
      sources.filter fun s => Unicode.lower (Str.strip s.name) ≠ str "aikido"
    else sources
  if kept.any fun s => s.name = sourceName then kept else kept ++ [⟨sourceName, floorSecond now⟩]

/-- The clusters that a finding was observed in. -/
def mergeClusters (clusterId : Option Str) (clusters : List Str) : List Str :=
  match clusterId with
  | none => clusters
  | some c => if c = [] ∨ c ∈ clusters then clusters else clusters ++ [c]

/-- The text of a correlation confidence. -/
def Confidence.text : Confidence → Str
  | .high => str "high"
  | .medium => str "medium"
  | .low => str "low"

section Merge

variable [Unicode] [Sha256]

/-- The call without what only the writes after the search read. -/
def IngestArguments.call (args : IngestArguments) (now : Instant) : IngestCall where
  payload := args.payload
  sourceName := args.sourceName
  parserId := args.parserId
  now := now
  commits := true

/-- The payload with its asset. -/
def IngestArguments.resolved (cfg : IngestSettings) (args : IngestArguments) : VatFindingSchema :=
  (args.call 0).resolved cfg.toSettings

def IngestArguments.fingerprint (cfg : IngestSettings) (args : IngestArguments) : Str :=
  (args.call 0).fingerprint cfg.toSettings

/-- `payload.license_expression`, or what the payload says elsewhere, of a license finding. -/
def VatFindingSchema.licenseExpr (payload : VatFindingSchema) : Option Str :=
  if payload.findingType = .license then
    Str.orElse (Str.orElse payload.licenseExpression (some (licenseExpressionFromPayload payload)))
      none
  else none

/-- The correlation key of a payload, and its confidence. -/
def IngestArguments.correlation (cfg : IngestSettings) (aliases : Table AssetAlias)
    (args : IngestArguments) : Str × Confidence :=
  let payload := args.resolved cfg
  correlationKeyForPayload
    { tenantId := args.tenantId
      findingType := payload.findingType.value
      branch := Str.orEmpty payload.branch
      tag := Str.orEmpty payload.tag
      cveId := payload.cveId
      component := payload.componentText
      ecosystem := payload.ecosystem
      ruleId := payload.ruleId
      filePath := payload.filePath
      sastPartialFingerprintHash :=
        if payload.findingType ∈ [.sast, .iac, .secret] then payload.partialFingerprint else none
      benchmarkFamily := payload.benchmarkFamily
      licenseExpression := payload.licenseExpr
      stableRuleKey := none
      profileScope := none
      sourceName := none
      sourceIssueId := none }
    (correlationAssetImageForIngest cfg.toSettings aliases (some (Str.orEmpty payload.image))
      args.parserId)
    (effectiveImageDigest payload.imageDigest payload.image) cfg.correlationIncludeDigest

/-- The fingerprint that an existing finding has from now on. -/
def migrateFingerprint (now : Instant) (fp : Str) (existing : Finding) : Finding :=
  if existing.fingerprintId = fp then existing
  else
    { existing with
      fingerprintId := fp
      audit := existing.audit ++
        [⟨some (floorSecond now), str "system", str "Fingerprint migrated",
          some (str "1:1 source mapping")⟩] }

/-- The merge of a payload into an existing finding, without its status. -/
def IngestArguments.mergeDetails (cfg : IngestSettings) (now : Instant) (corr : Str × Confidence)
    (args : IngestArguments) (existing : Finding) : Finding :=
  let payload := args.resolved cfg
  let severity := maxSeverity existing.severity payload.reportedSeverity
  { existing with
    sources := mergeSources args.sourceName now existing.sources
    observedClusters := mergeClusters args.clusterId existing.observedClusters
    source := if args.sourceName ≠ [] ∧ args.sourceName ≠ str "Aikido" then some args.sourceName
      else existing.source
    externalLinks := if Str.truthy payload.sourceIssueId then
        addSourceLink existing.externalLinks args.sourceName (Str.orEmpty payload.sourceIssueId)
          payload.sourceUrl now
      else existing.externalLinks
    sourceIssueGroupId := firstWins existing.sourceIssueGroupId payload.sourceIssueGroupId
    aikidoSourceId := firstWins existing.aikidoSourceId args.aikidoSourceId
    audit := existing.audit ++
      [⟨some (floorSecond now), str "system", str "Deduplication merge",
        some (str "Re-import from " ++ args.sourceName)⟩]
    tenantId := some (normalizeTenantId
      (Str.orElse existing.tenantId (some (normalizeTenantId args.tenantId))))
    image := firstWins existing.image payload.image
    component := firstWins existing.component payload.component
    branch := firstWins existing.branch payload.branch
    tag := if Str.truthy payload.tag ∧ (args.forceTagOverride ∨ ¬ Str.truthy existing.tag) then
        payload.tag
      else existing.tag
    imageDigest := firstWins existing.imageDigest
      (effectiveImageDigest payload.imageDigest payload.image)
    sourceFileUrl := firstWins existing.sourceFileUrl payload.sourceFileUrl
    filePath := firstWins existing.filePath payload.filePath
    line := existing.line.or payload.line
    snippetMasked := firstWins existing.snippetMasked payload.snippetMasked
    correlationKey := firstWins existing.correlationKey (some corr.1)
    correlationConfidence := if corr.1 ≠ [] ∧ ¬ Str.truthy existing.correlationKey then
        some corr.2.text
      else existing.correlationConfidence
    stableRuleKey := firstWins existing.stableRuleKey payload.stableRuleKey
    benchmarkId := firstWins existing.benchmarkId payload.benchmarkId
    benchmarkFamily := firstWins existing.benchmarkFamily payload.benchmarkFamily
    profileScope := firstWins existing.profileScope payload.profileScope
    contentVersion := firstWins existing.contentVersion payload.contentVersion
    riskScoring := match RiskScoring.clean payload.riskScoring with
      | none => existing.riskScoring
      | some riskScoring => mergeSourceRiskScoring existing.riskScoring (some riskScoring)
    cvss := firstWins existing.cvss
      (Str.orElse payload.cvss (scoreFromRiskScoring (RiskScoring.clean payload.riskScoring)))
    epss := firstWins existing.epss
      (Str.orElse payload.epss (epssFromRiskScoring (RiskScoring.clean payload.riskScoring)))
    needsFamilyClassification :=
      existing.needsFamilyClassification || payload.needsFamilyClassification.getD false
    ruleId := firstWins existing.ruleId payload.ruleId
    cweId := firstWins existing.cweId payload.cweId
    ecosystem := firstWins existing.ecosystem payload.ecosystem
    secretType := firstWins existing.secretType payload.secretType
    resource := firstWins existing.resource payload.resource
    firstDetectedAt := existing.firstDetectedAt.or payload.firstDetectedAt
    title := if Str.truthy payload.title ∧
          (¬ Str.truthy existing.title ∨ existing.title = some existing.cveId) then
        payload.title
      else existing.title
    description := if payload.description ≠ [] ∧
          Str.strip (Str.orEmpty existing.description) = [] then
        some payload.description
      else existing.description
    severity := severity
    slaDue := if severity ≠ existing.severity then
        some (computeSlaDue now payload.findingType severity)
      else existing.slaDue }

end Merge

/-! ### Statuses -/

/-- The source says that the finding is open, or says nothing. -/
def VatFindingSchema.ReportsOpen (payload : VatFindingSchema) : Prop :=
  ¬ Str.truthy payload.status ∨ payload.status = some (str "Open") ∨
    payload.status = some (str "Reopened")

instance (payload : VatFindingSchema) : Decidable payload.ReportsOpen :=
  inferInstanceAs (Decidable (_ ∨ _ ∨ _))

/-- The statuses that are taken over from a source. -/
def syncedStatuses : List Status := [.resolved, .suppressed, .falsePositive, .notApplicable]

/-- The status that a payload sets. -/
def VatFindingSchema.syncedStatus (payload : VatFindingSchema) : Option Status :=
  if payload.ReportsOpen then none
  else (statusToEnum (Str.orEmpty payload.status)).filter (· ∈ syncedStatuses)

/-- The status of a new finding. -/
def VatFindingSchema.initialStatus (payload : VatFindingSchema) : Status :=
  if payload.ReportsOpen then .open
  else (statusToEnum (Str.orEmpty payload.status)).getD .open

/-- The merge of the status of a payload and of its closing date. -/
def VatFindingSchema.mergeStatus (now : Instant) (payload : VatFindingSchema) (existing : Finding) :
    Finding :=
  let closed := existing.closedAt.or payload.closedAt
  match payload.syncedStatus with
  | some status =>
    { existing with
      status := status
      closedAt := payload.closedAt.or closed
      audit := existing.audit ++
        [⟨some (floorSecond now), str "system", str "Status synced from source", payload.status⟩] }
  | none =>
    -- A status that is neither open nor taken over leaves a resolved finding as it is.
    if payload.ReportsOpen ∧ existing.status = .resolved then
      { existing with
        status := .reopened
        closedAt := none
        regressionOf := existing.regressionOf ++ [existing.id]
        regressionCount := existing.regressionCount + 1
        audit := existing.audit ++
          [⟨some (floorSecond now), str "system", str "Regression detected",
            some (str "Scanner re-detected previously resolved finding")⟩] }
    else { existing with closedAt := closed }

section Rows

variable [Unicode] [Sha256]

/-- The row that a payload leaves of an existing finding. -/
def IngestArguments.mergeFinding (cfg : IngestSettings) (now : Instant) (corr : Str × Confidence)
    (args : IngestArguments) (existing : Finding) : Finding :=
  (args.resolved cfg).mergeStatus now
    (args.mergeDetails cfg now corr (migrateFingerprint now (args.fingerprint cfg) existing))

/-- The row of a new finding. -/
def IngestArguments.newFinding (cfg : IngestSettings) (now : Instant) (corr : Str × Confidence)
    (args : IngestArguments) : Finding :=
  let payload := args.resolved cfg
  let fp := args.fingerprint cfg
  { Finding.blank (newFindingId fp) fp payload.cveId with
    findingType := payload.findingType
    severity := payload.reportedSeverity
    status := payload.initialStatus
    componentBase :=
      if Str.truthy payload.componentBase then payload.componentBase
      else if payload.componentText ≠ [] then some (componentBase payload.componentText) else none
    component := Str.orElse payload.component none
    image := payload.image
    branch := payload.branch
    tag := payload.tag
    imageDigest := effectiveImageDigest payload.imageDigest payload.image
    title := Str.orElse payload.title (some payload.cveId)
    description := some payload.description
    sourceFileUrl := payload.sourceFileUrl
    filePath := payload.filePath
    line := payload.line
    snippetMasked := payload.snippetMasked
    ruleId := payload.ruleId
    cweId := payload.cweId
    ecosystem := payload.ecosystem
    secretType := payload.secretType
    resource := payload.resource
    firstDetectedAt := payload.firstDetectedAt
    closedAt := payload.closedAt
    source := some args.sourceName
    team := payload.team
    owner := payload.owner
    slaDue := some (computeSlaDue now payload.findingType payload.reportedSeverity)
    cvss := Str.orElse payload.cvss (scoreFromRiskScoring (RiskScoring.clean payload.riskScoring))
    epss := Str.orElse payload.epss (epssFromRiskScoring (RiskScoring.clean payload.riskScoring))
    riskScoring := RiskScoring.clean payload.riskScoring
    sources := [⟨args.sourceName, floorSecond now⟩]
    observedClusters := mergeClusters args.clusterId []
    audit := [⟨some (floorSecond now), str "system",
      str "Imported from " ++ args.sourceName ++ str " scan", none⟩]
    tenantId := some (normalizeTenantId args.tenantId)
    externalLinks := if Str.truthy payload.sourceIssueId then
        [⟨args.sourceName, str "source", Str.orEmpty payload.sourceIssueId, payload.sourceUrl, now⟩]
      else []
    sourceIssueGroupId := payload.sourceIssueGroupId
    aikidoSourceId := if args.sourceName = str "Aikido" then args.aikidoSourceId else none
    correlationKey := some corr.1
    correlationConfidence := some corr.2.text
    licenseExpression := payload.licenseExpr
    stableRuleKey := payload.stableRuleKey
    benchmarkId := payload.benchmarkId
    benchmarkFamily := payload.benchmarkFamily
    profileScope := payload.profileScope
    contentVersion := payload.contentVersion
    needsFamilyClassification := payload.needsFamilyClassification.getD false
    createdAt := now }

end Rows

/-! ### What of a row lasts -/

/-- A source without the time of its import. -/
def SourceEntry.lasting (s : SourceEntry) : SourceEntry := { s with importedAt := 0 }

/-- A link without the time when it was last imported. -/
def ExternalLink.lasting (l : ExternalLink) : ExternalLink :=
  if l.kind = str "source" then { l with createdAt := 0 } else l

/-- A row without its audit trail and the times of imports. -/
def Finding.lasting (f : Finding) : Finding :=
  { f with
    audit := []
    sources := f.sources.map SourceEntry.lasting
    externalLinks := f.externalLinks.map ExternalLink.lasting }

/-- A row with another status. -/
def Finding.withStatus (f : Finding) (status : Status) : Finding := { f with status := status }

/-- A row with the triage of another one: what the ledger, the linking and the statuses of sources
write, and the audit trail. -/
def Finding.withTriage (f g : Finding) : Finding :=
  { f with
    status := g.status
    justification := g.justification
    compensatingControls := g.compensatingControls
    reviewerNote := g.reviewerNote
    attestation := g.attestation
    suppressionScope := g.suppressionScope
    regressionOf := g.regressionOf
    regressionCount := g.regressionCount
    closedAt := g.closedAt
    correlatedTo := g.correlatedTo
    audit := g.audit }

/-- A row without its triage. -/
def Finding.details (f : Finding) : Finding := f.withTriage (.blank [] [] [])

/-! ### Columns merged twice -/

@[simp] theorem firstWins_firstWins (old new : Option Str) :
    firstWins (firstWins old new) new = firstWins old new := by
  unfold firstWins
  split_ifs <;> simp_all

@[simp] theorem firstWins_self (new : Option Str) : firstWins new new = new := ite_self new

theorem truthy_orElse_none (new : Option Str) :
    Str.truthy (Str.orElse new none) = Str.truthy new := by
  unfold Str.orElse
  split_ifs with h
  · rfl
  · exact (Bool.not_eq_true _ ▸ h : Str.truthy new = false).symm

@[simp] theorem firstWins_orElse_none (new : Option Str) :
    firstWins (Str.orElse new none) new = Str.orElse new none := by
  unfold firstWins
  rw [truthy_orElse_none]
  exact if_neg fun h => h.2 h.1

/-- The source of a merge is among those that it leaves. -/
theorem any_mergeSources [Unicode] (sourceName : Str) (now : Instant) (sources : List SourceEntry) :
    (mergeSources sourceName now sources).any (fun s => s.name = sourceName) = true := by
  unfold mergeSources
  dsimp only
  split_ifs with hremove h h
  · exact h
  · simp
  · exact h
  · simp

/-- A source that stays where its merge would remove entries. -/
theorem mergeSources_of_any [Unicode] {sourceName : Str} {sources : List SourceEntry}
    (now : Instant) (hany : sources.any (fun s => s.name = sourceName) = true)
    (hkept : sourceName ≠ [] ∧ sourceName ≠ str "Aikido" →
      ∀ s ∈ sources, Unicode.lower (Str.strip s.name) ≠ str "aikido") :
    mergeSources sourceName now sources = sources := by
  unfold mergeSources
  dsimp only
  by_cases hremove : sourceName ≠ [] ∧ sourceName ≠ str "Aikido"
  · have hfilter : (sources.filter fun s => Unicode.lower (Str.strip s.name) ≠ str "aikido") =
        sources := List.filter_eq_self.mpr fun s hs => decide_eq_true (hkept hremove s hs)
    rw [if_pos hremove, hfilter, if_pos hany]
  · rw [if_neg hremove, if_pos hany]

/-- A source that its own merges remove and add again: another spelling of Aikido. -/
theorem mergeSources_of_own [Unicode] {sourceName : Str}
    (hremove : sourceName ≠ [] ∧ sourceName ≠ str "Aikido")
    (hown : Unicode.lower (Str.strip sourceName) = str "aikido") (now : Instant)
    (sources : List SourceEntry) :
    mergeSources sourceName now sources =
      (sources.filter fun s => Unicode.lower (Str.strip s.name) ≠ str "aikido") ++
        [⟨sourceName, floorSecond now⟩] := by
  unfold mergeSources
  dsimp only
  rw [if_pos hremove, if_neg]
  intro h
  obtain ⟨s, hs, hname⟩ := List.any_eq_true.mp h
  have hkept := of_decide_eq_true (List.mem_filter.mp hs).2
  exact hkept (of_decide_eq_true hname ▸ hown)

theorem lasting_mergeSources [Unicode] (sourceName : Str) (now now' : Instant)
    (sources : List SourceEntry) :
    (mergeSources sourceName now' (mergeSources sourceName now sources)).map SourceEntry.lasting =
      (mergeSources sourceName now sources).map SourceEntry.lasting := by
  by_cases hremove : sourceName ≠ [] ∧ sourceName ≠ str "Aikido"
  · by_cases hown : Unicode.lower (Str.strip sourceName) = str "aikido"
    · rw [mergeSources_of_own hremove hown, mergeSources_of_own hremove hown, List.filter_append,
        List.filter_filter]
      simp [hown, SourceEntry.lasting]
    · refine congrArg _ (mergeSources_of_any now' (any_mergeSources _ _ _) fun _ s hs => ?_)
      unfold mergeSources at hs
      dsimp only at hs
      rw [if_pos hremove] at hs
      split_ifs at hs
      · exact of_decide_eq_true (List.mem_filter.mp hs).2
      · rcases List.mem_append.mp hs with hs | hs
        · exact of_decide_eq_true (List.mem_filter.mp hs).2
        · rwa [List.mem_singleton.mp hs]
  · exact congrArg _ (mergeSources_of_any now' (any_mergeSources _ _ _) fun h => absurd h hremove)

theorem lasting_mergeSources_singleton [Unicode] (sourceName : Str) (now now' : Instant) :
    (mergeSources sourceName now' [⟨sourceName, floorSecond now⟩]).map SourceEntry.lasting =
      [⟨sourceName, 0⟩] := by
  have hempty : (mergeSources sourceName now []) = [⟨sourceName, floorSecond now⟩] := by
    unfold mergeSources
    simp
  rw [← hempty, lasting_mergeSources, hempty]
  rfl

@[simp] theorem mergeClusters_mergeClusters (clusterId : Option Str) (clusters : List Str) :
    mergeClusters clusterId (mergeClusters clusterId clusters) = mergeClusters clusterId clusters := by
  unfold mergeClusters
  cases clusterId with
  | none => rfl
  | some c =>
    dsimp only
    split_ifs with h h'
    · rfl
    · rfl
    · simp at h'

theorem lasting_addSourceLink (links : List ExternalLink) (adapterKey issueId : Str)
    (url : Option Str) (now now' : Instant) :
    (addSourceLink (addSourceLink links adapterKey issueId url now) adapterKey issueId url now').map
        ExternalLink.lasting =
      (addSourceLink links adapterKey issueId url now).map ExternalLink.lasting := by
  unfold addSourceLink
  simp [List.filter_append, List.filter_filter, ExternalLink.lasting]

/-- A column that is replaced on a condition, replaced again. -/
theorem replaced_twice {α : Type} (c : α → Prop) [DecidablePred c] (new old : α) :
    (if c (if c old then new else old) then new else if c old then new else old) =
      if c old then new else old := by
  split_ifs <;> rfl

theorem ite_ite_self {α : Type} (c : Prop) [Decidable c] (a b : α) :
    (if c then a else if c then a else b) = if c then a else b := by
  split_ifs <;> rfl

theorem normalizeTenantId_ne_nil (tenantId : Option Str) : normalizeTenantId tenantId ≠ [] := by
  unfold normalizeTenantId
  dsimp only
  split_ifs with h
  · decide
  · exact h

theorem orElse_normalizeTenantId (tenantId other : Option Str) :
    Str.orElse (some (normalizeTenantId tenantId)) other = some (normalizeTenantId tenantId) :=
  if_pos (by simpa [Str.truthy] using normalizeTenantId_ne_nil tenantId)

/-- A confidence stays with the key that it came with. -/
theorem confidence_twice (key : Str) (old confidence : Option Str) (new : Option Str) :
    (if ¬ key = [] ∧ ¬ Str.truthy (firstWins old (some key)) then new
      else if ¬ key = [] ∧ ¬ Str.truthy old then new else confidence) =
      if ¬ key = [] ∧ ¬ Str.truthy old then new else confidence := by
  by_cases hkey : key = []
  · simp [hkey]
  · have htruthy : Str.truthy (firstWins old (some key)) = true := by
      unfold firstWins
      split_ifs with h
      · exact h.1
      · by_contra hold
        exact h ⟨by simpa [Str.truthy] using hkey, hold⟩
    simp [htruthy]

/-! ### Payloads merged twice -/

section Merged

variable [Unicode]

/-- The details of a payload are merged into a row already. -/
def IngestArguments.Merged (cfg : IngestSettings) (corr : Str × Confidence) (args : IngestArguments)
    (f : Finding) : Prop :=
  ∀ now, (args.mergeDetails cfg now corr f).details.lasting = f.details.lasting

variable {cfg : IngestSettings} {corr : Str × Confidence} {args : IngestArguments}

/-- Whether a payload is merged does not depend on the triage of a row. -/
theorem IngestArguments.Merged.congr {f g : Finding} (h : args.Merged cfg corr f)
    (hdetails : g.details = f.details) : args.Merged cfg corr g := by
  intro now
  have hmerge : ∀ r : Finding, (args.mergeDetails cfg now corr r).details =
      (args.mergeDetails cfg now corr r.details).details := fun _ => rfl
  rw [hmerge, hdetails, ← hmerge, h now]

/-- The scoring of a payload has each key once, whatever its asset. -/
theorem IngestArguments.keysOnce_clean (args : IngestArguments) {riskScoring : RiskScoring}
    (h : RiskScoring.clean (args.resolved cfg).riskScoring = some riskScoring) :
    riskScoring.KeysOnce := by
  have hresolved : (args.resolved cfg).riskScoring = args.payload.riskScoring := by
    unfold resolved IngestCall.resolved resolveAssetForPayload
    dsimp only
    split_ifs <;> rfl
  rw [hresolved, RiskScoring.clean_eq] at h
  split_ifs at h
  obtain rfl := Option.some.inj h
  cases hpayload : args.payload.riskScoring with
  | none => exact ⟨List.nodup_nil, fun _ hp => absurd hp List.not_mem_nil⟩
  | some o => exact keysOnce_kept (args.keysOnce o hpayload)

theorem merged_mergeDetails (now : Instant) (f : Finding) :
    args.Merged cfg corr (args.mergeDetails cfg now corr f) := by
  intro now'
  simp only [IngestArguments.mergeDetails, Finding.details, Finding.withTriage, Finding.lasting,
    firstWins_firstWins, maxSeverity_maxSeverity, mergeClusters_mergeClusters, lasting_mergeSources,
    Finding.mk.injEq, true_and, and_true, ne_eq, not_true_eq_false, if_false]
  refine ⟨?_, ?_, ?_, Option.or_assoc.trans (by rw [Option.or_self]), ?_, ite_ite_self _ _ _, ?_,
    ?_, ?_, ?_, Option.or_assoc.trans (by rw [Option.or_self])⟩
  · exact replaced_twice (fun tag => Str.truthy (args.resolved cfg).tag ∧
      (args.forceTagOverride ∨ ¬ Str.truthy tag)) _ _
  · exact replaced_twice (fun title => Str.truthy (args.resolved cfg).title ∧
      (¬ Str.truthy title ∨ title = some f.cveId)) _ _
  · exact replaced_twice (fun description => ¬ (args.resolved cfg).description = [] ∧
      Str.strip (Str.orEmpty description) = []) _ _
  · rw [Bool.or_assoc, Bool.or_self]
  · cases hclean : RiskScoring.clean (args.resolved cfg).riskScoring with
    | none => rfl
    | some riskScoring => exact mergeSourceRiskScoring_twice (args.keysOnce_clean hclean) _
  · rw [orElse_normalizeTenantId, normalizeTenantId_idem]
  · split_ifs
    · exact lasting_addSourceLink _ _ _ _ _ _
    · rfl
  · exact confidence_twice _ _ _ _

theorem merged_newFinding [Sha256] (now : Instant) :
    args.Merged cfg corr (args.newFinding cfg now corr) := by
  intro now'
  simp only [IngestArguments.mergeDetails, IngestArguments.newFinding, Finding.details,
    Finding.withTriage, Finding.lasting, Finding.blank, firstWins_self, firstWins_orElse_none,
    maxSeverity_self, mergeClusters_mergeClusters, lasting_mergeSources_singleton, Option.or_self,
    Bool.or_self, ite_self, orElse_normalizeTenantId, normalizeTenantId_idem, Finding.mk.injEq,
    true_and, and_true, ne_eq, not_true_eq_false, if_false]
  refine ⟨?_, ?_, rfl, ?_, ?_⟩
  · by_cases htitle : Str.truthy (args.resolved cfg).title
    · rw [Str.orElse, if_pos htitle, ite_self]
    · rw [if_neg fun h => htitle h.1]
  · cases hclean : RiskScoring.clean (args.resolved cfg).riskScoring with
    | none => rfl
    | some riskScoring =>
      have hkept : RiskScoring.clean (some riskScoring) = some riskScoring := by
        rw [← hclean, RiskScoring.clean_clean]
      have hmerge := mergeSourceRiskScoring_clean (args.keysOnce_clean hclean)
      rwa [hkept] at hmerge
  · split_ifs
    · simp [addSourceLink, ExternalLink.lasting]
    · rfl
  · split_ifs with hsource
    · exact firstWins_self _
    · rw [not_imp_comm.mp args.aikidoOnly hsource]
      rfl

end Merged

/-! ### Statuses merged twice -/

/-- The status and the closing date of a row are such that a merge of the payload writes at most
its status. -/
structure VatFindingSchema.StatusMerged (payload : VatFindingSchema) (f : Finding) : Prop where
  notResolved : payload.ReportsOpen → f.status ≠ .resolved
  closedAt : (if payload.syncedStatus.isSome then payload.closedAt.or f.closedAt
    else f.closedAt.or payload.closedAt) = f.closedAt

/-- A reopened row has no closing date, which the next merge takes from the payload. -/
def VatFindingSchema.ReopensClosed (payload : VatFindingSchema) (f : Finding) : Prop :=
  payload.ReportsOpen ∧ f.status = .resolved ∧ payload.closedAt ≠ none

theorem VatFindingSchema.syncedStatus_eq_none {payload : VatFindingSchema}
    (h : payload.ReportsOpen) : payload.syncedStatus = none := if_pos h

/-- A payload that does not say that a finding is open leaves no finding reopened, and one that
does leaves none resolved. -/
theorem VatFindingSchema.statusMerged_mergeStatus (now : Instant) {payload : VatFindingSchema}
    {f : Finding} (h : ¬ payload.ReopensClosed f) :
    payload.StatusMerged (payload.mergeStatus now f) ∧
      payload.syncedStatus.getD (payload.mergeStatus now f).status =
        (payload.mergeStatus now f).status := by
  unfold mergeStatus
  dsimp only
  cases hsynced : payload.syncedStatus with
  | some status =>
    refine ⟨⟨fun hopen => ?_, ?_⟩, rfl⟩
    · rw [syncedStatus_eq_none hopen] at hsynced
      cases hsynced
    · rw [hsynced, Option.isSome_some, if_pos rfl, ← Option.or_assoc, Option.or_self]
  | none =>
    dsimp only
    split_ifs with hreopen
    · refine ⟨⟨fun _ hresolved => (nomatch hresolved), ?_⟩, rfl⟩
      have hclosed : payload.closedAt = none := by
        by_contra hne
        exact h ⟨hreopen.1, hreopen.2, hne⟩
      rw [hclosed]
      exact ite_self _
    · refine ⟨⟨fun hopen hresolved => hreopen ⟨hopen, hresolved⟩, ?_⟩, rfl⟩
      rw [hsynced, Option.isSome_none, if_neg Bool.false_ne_true, Option.or_assoc, Option.or_self]

theorem VatFindingSchema.statusMerged_new [Unicode] [Sha256] {cfg : IngestSettings} (now : Instant)
    (corr : Str × Confidence) (args : IngestArguments) :
    (args.resolved cfg).StatusMerged (args.newFinding cfg now corr) ∧
      (args.resolved cfg).syncedStatus.getD (args.newFinding cfg now corr).status =
        (args.newFinding cfg now corr).status := by
  refine ⟨⟨fun hopen => ?_, ?_⟩, ?_⟩
  · change (args.resolved cfg).initialStatus ≠ _
    rw [initialStatus, if_pos hopen]
    decide
  · change (if _ then (args.resolved cfg).closedAt.or (args.resolved cfg).closedAt
      else (args.resolved cfg).closedAt.or (args.resolved cfg).closedAt) = (args.resolved cfg).closedAt
    rw [Option.or_self, ite_self]
  · change (args.resolved cfg).syncedStatus.getD (args.resolved cfg).initialStatus =
      (args.resolved cfg).initialStatus
    unfold syncedStatus initialStatus
    split_ifs
    · rfl
    · cases hstatus : statusToEnum (Str.orEmpty (args.resolved cfg).status) with
      | none => rfl
      | some status =>
        rw [Option.filter_some]
        split_ifs <;> rfl

/-- The ledger changes statuses only, and not to resolved. -/
theorem VatFindingSchema.StatusMerged.congr {payload : VatFindingSchema} {f g : Finding}
    (h : payload.StatusMerged f) (hstatus : g.status = f.status ∨ g.status ≠ .resolved)
    (hclosed : g.closedAt = f.closedAt) : payload.StatusMerged g where
  notResolved hopen := by
    rcases hstatus with hstatus | hstatus
    · rw [hstatus]
      exact h.notResolved hopen
    · exact hstatus
  closedAt := by
    rw [hclosed]
    exact h.closedAt

/-- A merge of the status that writes at most the status. -/
theorem VatFindingSchema.StatusMerged.lasting_mergeStatus {payload : VatFindingSchema} {f : Finding}
    (h : payload.StatusMerged f) (now : Instant) :
    (payload.mergeStatus now f).lasting =
      f.lasting.withStatus (payload.syncedStatus.getD f.status) := by
  have hclosed := h.closedAt
  unfold mergeStatus
  dsimp only
  cases hsynced : payload.syncedStatus with
  | some status =>
    rw [hsynced, Option.isSome_some, if_pos rfl] at hclosed
    have hor : payload.closedAt.or (f.closedAt.or payload.closedAt) = f.closedAt := by
      rw [← Option.or_assoc, hclosed]
      cases hf : f.closedAt with
      | some c => rfl
      | none =>
        rw [hf, Option.or_none] at hclosed
        rw [hclosed]
        rfl
    change Finding.lasting { f with status := _, closedAt := _, audit := _ } = _
    rw [hor]
    rfl
  | none =>
    rw [hsynced, Option.isSome_none, if_neg Bool.false_ne_true] at hclosed
    dsimp only
    rw [if_neg fun hreopen => h.notResolved hreopen.1 hreopen.2, hclosed]
    rfl

section MergedRows

variable [Unicode] [Sha256] {cfg : IngestSettings} {corr : Str × Confidence}
  {args : IngestArguments} {f : Finding}

omit [Unicode] [Sha256] in
theorem Finding.lasting_eq_of_details {f g : Finding} (h : g.details.lasting = f.details.lasting) :
    (g.withTriage f).lasting = f.lasting := by
  have hsplit : ∀ r : Finding, (r.withTriage f).lasting =
      r.details.lasting.withTriage { f with audit := [] } := fun _ => rfl
  rw [hsplit, h, ← hsplit]
  rfl

/-- The merge of a payload that is merged already writes a status. -/
theorem lasting_mergeFinding (now : Instant) (hfp : f.fingerprintId = args.fingerprint cfg)
    (hmerged : args.Merged cfg corr f) (hstatus : (args.resolved cfg).StatusMerged f) :
    (args.mergeFinding cfg now corr f).lasting =
      f.lasting.withStatus ((args.resolved cfg).syncedStatus.getD f.status) := by
  have hmigrate : migrateFingerprint now (args.fingerprint cfg) f = f := if_pos hfp
  have hdetails : (args.mergeDetails cfg now corr f).lasting = f.lasting :=
    Finding.lasting_eq_of_details (hmerged now)
  have hkept : (args.resolved cfg).StatusMerged (args.mergeDetails cfg now corr f) :=
    hstatus.congr (Or.inl rfl) rfl
  unfold IngestArguments.mergeFinding
  rw [hmigrate, hkept.lasting_mergeStatus, hdetails]
  rfl

end MergedRows

end Vat
