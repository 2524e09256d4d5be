import Vat.Identity.ContainerRef
import Vat.Model.Ledger

/-!
# Decision subject keys

The durable identity of a triage decision: a tenant, a canonical asset and the identity of the
finding on it, joined by colons. Every key has the shape
`decision:v1:<tenant>:<kind>:<asset><rest>`, where only the rest depends on the identity fields; the
ecosystem of an SCA key is the one part of the rest that may be inferred from the asset.

Source: `backend/app/services/decision_subject_key.py`.

## Main definitions

* `KeyPayload`: the fields a key is computed from.
* `primaryInnerKey`, `decisionSubjectKeysForPayload`, `decisionSubjectKeysForFinding`.
-/

namespace Vat

variable [Unicode]

/-- The arguments of `decision_subject_keys_for_payload` other than the canonical asset. -/
structure KeyPayload where
  tenantId : Option Str
  findingType : Str
  branch : Str
  tag : Str
  cveId : Str
  component : Str
  ecosystem : Option Str
  ruleId : Option Str
  filePath : Option Str
  sastPartialFingerprintHash : Option Str
  benchmarkFamily : Option Str
  licenseExpression : Option Str
  stableRuleKey : Option Str
  profileScope : Option Str
  sourceName : Option Str
  sourceIssueId : Option Str

/-- `image|branch|tag`, all normalized. -/
def assetSegment (image branch tag : Str) : Str :=
  normalize image ++ str "|" ++ normalize branch ++ str "|" ++ normalize tag

/-- `image|branch`, both normalized. -/
def assetSegmentDropTag (image branch : Str) : Str :=
  normalize image ++ str "|" ++ normalize branch

omit [Unicode] in
/-- The key of a tenant around an inner key. -/
def wrapKey (tenantId : Option Str) (inner : Str) : Str :=
  str "decision:v1:" ++ normalizeTenantId tenantId ++ str ":" ++ inner

/-- The package of an SCA or license key. -/
def keyPackage (p : KeyPayload) : Str :=
  if componentBase p.component = [] then []
  else normalizeScaPackageForCrossScanner (componentBase p.component)

/-- `family:profile` of an OpenSCAP key. -/
def openscapFamilyProfile (p : KeyPayload) : Str :=
  normalize (if Str.truthy p.benchmarkFamily then Str.orEmpty p.benchmarkFamily
    else str "unknown_benchmark") ++ str ":" ++ normalizeProfileScope p.profileScope

/-- What follows the asset in a license key: license and package, as far as they are known. -/
def licenseIdentity (p : KeyPayload) : Str × Confidence :=
  let comp := keyPackage p
  let spdx := normalize (Str.orEmpty p.licenseExpression)
  if spdx ≠ [] ∧ comp ≠ [] then (str ":" ++ spdx ++ str ":" ++ comp, .high)
  else if spdx ≠ [] then (str ":" ++ spdx, .medium)
  else if comp ≠ [] then (str "::" ++ comp, .medium)
  else (str ":" ++ normalizeCveId p.cveId, .low)

/-- What follows the asset in an SCA key: ecosystem and package when there is one, and the CVE. -/
def scaIdentity (p : KeyPayload) (eco : Str) : Str × Confidence :=
  let comp := keyPackage p
  let cve := normalizeCveId p.cveId
  if comp ≠ [] then (str ":" ++ eco ++ str ":" ++ comp ++ str ":" ++ cve, .high)
  else (str ":" ++ cve, .medium)

/-- What follows the asset in a SAST, IaC or secret key: rule, path and fingerprint. -/
def staticIdentity (p : KeyPayload) : Str × Confidence :=
  let rid := normalize (Str.orEmpty p.ruleId)
  let fpath := normalize (Str.orEmpty p.filePath)
  let hash := Str.strip (Str.orEmpty p.sastPartialFingerprintHash)
  if rid ≠ [] ∧ fpath ≠ [] then
    if hash ≠ [] then
      (str ":" ++ rid ++ str ":" ++ fpath ++ str ":fp:" ++ normalize hash, .high)
    else (str ":" ++ rid ++ str ":" ++ fpath, .medium)
  else if rid ≠ [] then (str ":" ++ rid, .low)
  else (str ":" ++ normalizeCveId p.cveId, .low)

/-- The finding types whose keys are made of rule and path. -/
def isStaticType (ft : Str) : Bool := ft = str "sast" ∨ ft = str "iac" ∨ ft = str "secret"

/-- The ecosystem of a payload on an asset. -/
def KeyPayload.ecosystemOn (p : KeyPayload) (canonicalAsset : Str) : Str :=
  effectiveScaEcosystem p.ecosystem p.benchmarkFamily canonicalAsset p.tag

/-- The inner key and the confidence of the primary candidate. -/
def primaryInnerKey (p : KeyPayload) (canonicalAsset : Str) : Str × Confidence :=
  let ft := normalize p.findingType
  let asset := assetSegment canonicalAsset p.branch p.tag
  let stable := normalize (Str.orEmpty p.stableRuleKey)
  if stable ≠ [] then
    (str "openscap:" ++ asset ++ str ":" ++ stable ++ str ":" ++ openscapFamilyProfile p, .high)
  else if ft = str "license" then
    (str "license:" ++ assetSegmentDropTag canonicalAsset p.branch ++ (licenseIdentity p).1,
      (licenseIdentity p).2)
  else if ft = str "sca" then
    (str "sca:" ++ asset ++ (scaIdentity p (p.ecosystemOn canonicalAsset)).1,
      (scaIdentity p (p.ecosystemOn canonicalAsset)).2)
  else if isStaticType ft then
    (ft ++ str ":" ++ asset ++ (staticIdentity p).1, (staticIdentity p).2)
  else
    (str "other:" ++ asset ++ str ":" ++ normalizeCveId p.cveId ++ str ":" ++
      componentBase p.component, .low)

/-- The primary candidate of a payload on an asset. -/
def primaryCandidate (p : KeyPayload) (canonicalAsset : Str) : DecisionSubjectCandidate where
  subjectKey := wrapKey p.tenantId (primaryInnerKey p canonicalAsset).1
  confidence := (primaryInnerKey p canonicalAsset).2
  kind := .primary

/-- The OpenSCAP candidate, when the primary key is not one already. -/
def openscapCandidate (p : KeyPayload) (canonicalAsset : Str) :
    Option DecisionSubjectCandidate :=
  let stable := normalize (Str.orEmpty p.stableRuleKey)
  if stable ≠ [] ∧ ¬ Str.startsWith (primaryInnerKey p canonicalAsset).1 (str "openscap:") then
    some ⟨wrapKey p.tenantId (str "openscap:" ++ assetSegment canonicalAsset p.branch p.tag ++
      str ":" ++ stable ++ str ":" ++ openscapFamilyProfile p), .high, .openscap⟩
  else none

/-- The candidate of the vendor's issue id. -/
def sourceIssueCandidate (p : KeyPayload) (canonicalAsset : Str) :
    Option DecisionSubjectCandidate :=
  let sid := Str.strip (Str.orEmpty p.sourceIssueId)
  let src := normalize (Str.orEmpty p.sourceName)
  if sid ≠ [] ∧ src ≠ [] then
    some ⟨wrapKey p.tenantId (str "source:" ++ src ++ str ":" ++ sid ++ str ":" ++
      assetSegment canonicalAsset p.branch p.tag), .high, .sourceIssue⟩
  else none

/-- Ordered candidates for lookup. First match wins. -/
def decisionSubjectKeysForPayload (p : KeyPayload) (canonicalAsset : Str) :
    List DecisionSubjectCandidate :=
  primaryCandidate p canonicalAsset ::
    ((openscapCandidate p canonicalAsset).toList ++ (sourceIssueCandidate p canonicalAsset).toList)

omit [Unicode] in
/-- The key fields of a stored finding and of its source link. -/
def Finding.keyPayload (f : Finding) (sourceName sourceIssueId : Option Str) : KeyPayload where
  tenantId := f.tenantId
  findingType := f.findingType.value
  branch := Str.orEmpty f.branch
  tag := Str.orEmpty f.tag
  cveId := f.cveId
  component := Str.orEmpty (Str.orElse f.component f.componentBase)
  ecosystem := f.ecosystem
  ruleId := f.ruleId
  filePath := f.filePath
  sastPartialFingerprintHash := none
  benchmarkFamily := f.benchmarkFamily
  licenseExpression := f.licenseExpression
  stableRuleKey := f.stableRuleKey
  profileScope := f.profileScope
  sourceName := sourceName
  sourceIssueId := sourceIssueId

/-- Candidates of a stored finding. -/
def decisionSubjectKeysForFinding (f : Finding) (canonicalAsset : Str)
    (sourceName sourceIssueId : Option Str) : List DecisionSubjectCandidate :=
  decisionSubjectKeysForPayload (f.keyPayload sourceName sourceIssueId) canonicalAsset

end Vat
