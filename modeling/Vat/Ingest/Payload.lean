import Vat.Model.Finding

/-!
# Ingest payloads

The canonical finding that every parser maps to, after validation. Enumerated fields have the values
of the columns they fill. The two date fields hold the instant that `_parse_iso_datetime` reads from
their text, and nothing when it reads none.

Source: `backend/app/schemas/vat.py`, lines 70–199; `backend/app/services/ingest.py`, lines 72–88.
-/

namespace Vat

/-- `VatFindingSchema`. -/
structure VatFindingSchema where
  cveId : Str
  severity : Severity
  description : Str
  component : Option Str
  componentBase : Option Str
  image : Option Str
  branch : Option Str
  tag : Option Str
  imageDigest : Option Str
  filePath : Option Str
  line : Option Nat
  sourceFileUrl : Option Str
  snippetMasked : Option Str
  ruleId : Option Str
  cweId : Option Str
  ecosystem : Option Str
  secretType : Option Str
  resource : Option Str
  sourceIssueId : Option Str
  sourceIssueGroupId : Option Str
  sourceIssueUrl : Option Str
  status : Option Str
  firstDetectedAt : Option Instant
  closedAt : Option Instant
  title : Option Str
  findingType : FindingType
  cvss : Option Str
  epss : Option Str
  riskScoring : Option (List (Str × JsonObject))
  team : Option Str
  owner : Option Str
  contentVersion : Option Str
  benchmarkId : Option Str
  benchmarkFamily : Option Str
  profileScope : Option Str
  stableRuleKey : Option Str
  needsFamilyClassification : Option Bool
  partialFingerprints : Option (List (Str × Str))
  scannerIdentity : Option Str
  licenseExpression : Option Str

/-- A payload with the required fields and the defaults of the others. -/
def VatFindingSchema.blank (cveId : Str) (severity : Severity) : VatFindingSchema where
  cveId := cveId
  severity := severity
  description := []
  component := none
  componentBase := none
  image := none
  branch := none
  tag := none
  imageDigest := none
  filePath := none
  line := none
  sourceFileUrl := none
  snippetMasked := none
  ruleId := none
  cweId := none
  ecosystem := none
  secretType := none
  resource := none
  sourceIssueId := none
  sourceIssueGroupId := none
  sourceIssueUrl := none
  status := none
  firstDetectedAt := none
  closedAt := none
  title := none
  findingType := .sca
  cvss := none
  epss := none
  riskScoring := none
  team := none
  owner := none
  contentVersion := none
  benchmarkId := none
  benchmarkFamily := none
  profileScope := none
  stableRuleKey := none
  needsFamilyClassification := none
  partialFingerprints := none
  scannerIdentity := none
  licenseExpression := none

/-- `payload.component or payload.component_base or ""`. -/
def VatFindingSchema.componentText (p : VatFindingSchema) : Str :=
  Str.orEmpty (Str.orElse p.component p.componentBase)

end Vat
