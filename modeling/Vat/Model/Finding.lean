import Vat.Python.Text
import Vat.Relational.Table

/-!
# Findings

The row of the table `findings` with the fields that ingest, the asset operations and the
decision ledger read or write, and the values of its enumerated and JSON columns.

A `datetime` is a count of microseconds. An audit entry of a finding holds the instant its `ts`
text parses to: entries written with `strftime("%Y-%m-%dT%H:%M:%SZ")` are cut to the second
(`floorSecond`), entries written with `isoformat()` are not, and a blank or malformed text is
`none`.

Source: `backend/app/models/finding.py`, lines 15–196.
-/

namespace Vat

open Relational

/-! ### Instants -/

/-- Microseconds since `datetime.min`. -/
abbrev Instant := Nat

/-- An instant written and read back with `strftime("%Y-%m-%dT%H:%M:%SZ")`. -/
def floorSecond (t : Instant) : Instant := t / 1000000 * 1000000

/-- The text of an instant. It stands for what `isoformat()` writes. -/
def Instant.text (t : Instant) : Str := (Nat.repr t).toList

theorem floorSecond_le (t : Instant) : floorSecond t ≤ t := Nat.div_mul_le_self t 1000000

theorem floorSecond_mono {s t : Instant} (h : s ≤ t) : floorSecond s ≤ floorSecond t :=
  Nat.mul_le_mul_right _ (Nat.div_le_div_right h)

/-! ### Enumerated columns -/

/-- `FindingType`. -/
inductive FindingType
  | sca | secret | iac | sast | license
  deriving DecidableEq

/-- `FindingType.value`. -/
def FindingType.value : FindingType → Str
  | .sca => str "SCA"
  | .secret => str "Secret"
  | .iac => str "IaC"
  | .sast => str "SAST"
  | .license => str "License"

/-- `Severity`, most severe first. -/
inductive Severity
  | critical | high | medium | low | informational
  deriving DecidableEq

/-- `Severity.value`. -/
def Severity.value : Severity → Str
  | .critical => str "Critical"
  | .high => str "High"
  | .medium => str "Medium"
  | .low => str "Low"
  | .informational => str "Informational"

/-- `Status`. -/
inductive Status
  | open | syncedToTracker | inReview | approved | rejected | riskAccepted | falsePositive
  | suppressed | notApplicable | mitigated | duplicate | resolved | reopened
  deriving DecidableEq

/-- `Status.value`. -/
def Status.value : Status → Str
  | .open => str "Open"
  | .syncedToTracker => str "SyncedToTracker"
  | .inReview => str "InReview"
  | .approved => str "Approved"
  | .rejected => str "Rejected"
  | .riskAccepted => str "RiskAccepted"
  | .falsePositive => str "FalsePositive"
  | .suppressed => str "Suppressed"
  | .notApplicable => str "NotApplicable"
  | .mitigated => str "Mitigated"
  | .duplicate => str "Duplicate"
  | .resolved => str "Resolved"
  | .reopened => str "Reopened"

/-- `SuppressionScope`. -/
inductive SuppressionScope
  | global | contextual
  deriving DecidableEq

/-! ### JSON columns -/

/-- A value of a JSON object: `null`, a text, or any other value, given by the text `str` makes
of it and its truth value. -/
inductive JsonValue
  | null
  | text (s : Str)
  | other (s : Str) (truth : Bool)
  deriving DecidableEq

/-- The truth value of a JSON value. -/
def JsonValue.truthy : JsonValue → Bool
  | .null => false
  | .text s => s != []
  | .other _ b => b

/-- `str(value)`. -/
def JsonValue.pyStr : JsonValue → Str
  | .null => str "None"
  | .text s => s
  | .other s _ => s

/-- A JSON object, in insertion order. -/
abbrev JsonObject := List (Str × JsonValue)

/-- `obj.get(key)`, with `null` for a missing key. -/
def JsonObject.get (o : JsonObject) (key : Str) : JsonValue := (o.lookup key).getD .null

/-- The text of `obj.get(key, default)` in an f-string. -/
def JsonObject.textOf (o : JsonObject) (key default : Str) : Str :=
  match o.lookup key with
  | none => default
  | some v => v.pyStr

/-- `obj[key] = value`: in place when the key is there, at the end otherwise. -/
def JsonObject.set (o : JsonObject) (key : Str) (v : JsonValue) : JsonObject :=
  if (o.lookup key).isSome then o.map fun p => if p.1 = key then (key, v) else p
  else o ++ [(key, v)]

/-- An entry of `Finding.audit`. -/
structure AuditEntry where
  ts : Option Instant
  user : Str
  action : Str
  note : Option Str
  deriving DecidableEq

/-- An entry of `Finding.sources`. -/
structure SourceEntry where
  name : Str
  importedAt : Instant
  deriving DecidableEq

/-- An entry of `Finding.external_links`. -/
structure ExternalLink where
  adapterKey : Str
  kind : Str
  issueId : Str
  url : Option Str
  createdAt : Instant
  deriving DecidableEq

/-! ### The row -/

/-- A row of the table `findings`. -/
structure Finding where
  id : Str
  findingType : FindingType
  fingerprintId : Str
  cveId : Str
  severity : Severity
  status : Status
  previousStatus : Option Str
  componentBase : Option Str
  component : Option Str
  image : Option Str
  branch : Option Str
  tag : Option Str
  imageDigest : Option Str
  title : Option Str
  description : Option Str
  sourceFileUrl : Option Str
  filePath : Option Str
  line : Option Nat
  snippetMasked : Option Str
  ruleId : Option Str
  cweId : Option Str
  ecosystem : Option Str
  secretType : Option Str
  resource : Option Str
  licenseExpression : Option Str
  stableRuleKey : Option Str
  benchmarkId : Option Str
  benchmarkFamily : Option Str
  profileScope : Option Str
  contentVersion : Option Str
  needsFamilyClassification : Bool
  source : Option Str
  team : Option Str
  owner : Option Str
  controlRef : Option Str
  slaDue : Option Str
  cvss : Option Str
  epss : Option Str
  riskScoring : Option (List (Str × JsonObject))
  justification : Option Str
  compensatingControls : Option Str
  reviewerNote : Option Str
  sources : List SourceEntry
  observedClusters : List Str
  suppressionScope : Option SuppressionScope
  attestation : Option JsonObject
  regressionOf : List Str
  regressionCount : Nat
  audit : List AuditEntry
  tenantId : Option Str
  externalLinks : List ExternalLink
  correlationKey : Option Str
  correlationConfidence : Option Str
  correlatedTo : Option Str
  sourceIssueGroupId : Option Str
  aikidoSourceId : Option Str
  createdAt : Instant
  firstDetectedAt : Option Instant
  closedAt : Option Instant

/-- `findings.id` is the primary key and `findings.fingerprint_id` is unique. -/
instance : Row Finding Str Str where
  pk := Finding.id
  uk := Finding.fingerprintId

/-- A finding with the given keys, no optional field set, status Open. -/
def Finding.blank (id fingerprintId cveId : Str) : Finding where
  id := id
  findingType := .sca
  fingerprintId := fingerprintId
  cveId := cveId
  severity := .medium
  status := .open
  previousStatus := none
  componentBase := none
  component := none
  image := none
  branch := none
  tag := none
  imageDigest := none
  title := none
  description := none
  sourceFileUrl := none
  filePath := none
  line := none
  snippetMasked := none
  ruleId := none
  cweId := none
  ecosystem := none
  secretType := none
  resource := none
  licenseExpression := none
  stableRuleKey := none
  benchmarkId := none
  benchmarkFamily := none
  profileScope := none
  contentVersion := none
  needsFamilyClassification := false
  source := none
  team := none
  owner := none
  controlRef := none
  slaDue := none
  cvss := none
  epss := none
  riskScoring := none
  justification := none
  compensatingControls := none
  reviewerNote := none
  sources := []
  observedClusters := []
  suppressionScope := none
  attestation := none
  regressionOf := []
  regressionCount := 0
  audit := []
  tenantId := none
  externalLinks := []
  correlationKey := none
  correlationConfidence := none
  correlatedTo := none
  sourceIssueGroupId := none
  aikidoSourceId := none
  createdAt := 0
  firstDetectedAt := none
  closedAt := none

end Vat
