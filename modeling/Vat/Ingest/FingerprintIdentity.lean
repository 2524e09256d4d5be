import Vat.Ingest.Fingerprint

/-!
# What a fingerprint identifies

Each strategy hashes some of the fields of a payload, joined by delimiters. When no hashed field
contains a delimiter, two fingerprints are equal exactly when the same strategy was taken on the
same fields.

## Main definitions

* `IngestIdentity`, `ingestIdentity`: the strategy and the fields that a fingerprint stands for.
* `IngestIdentity.Plain`: fields without delimiters.

## Main results

* `IngestIdentity.material_inj`.
* `fingerprint_eq_iff`.
-/

namespace Vat

open Delimited

/-- The strategy of a fingerprint and the fields that it hashes. -/
inductive IngestIdentity
  | openscap (asset rule family scope : Str)
  | sourceIssue (source issue image branch tag : Str)
  | partialFingerprint (digest source : Str)
  | scannerIdentity (identity source : Str)
  | static (rule path line snippet source : Str)
  | vulnerability (cve component image branch tag source : Str)
  deriving DecidableEq

/-- The parts between the bars of the hashed text. -/
def IngestIdentity.fields : IngestIdentity → List Str
  | .openscap asset rule family scope => [str "openscap", asset, rule, family, scope]
  | .sourceIssue source issue image branch tag => [source ++ ':' :: issue, image, branch, tag]
  | .partialFingerprint digest source => [str "vat:sarif:pfp:" ++ (digest ++ ':' :: source)]
  | .scannerIdentity identity source => [str "vat:scanner_id:" ++ (identity ++ ':' :: source)]
  | .static rule path line snippet source =>
    [str "vat:static:" ++ rule, path, line, snippet, source]
  | .vulnerability cve component image branch tag source =>
    [cve, component, image, branch, tag, source]

/-- The hashed text. -/
def IngestIdentity.material (a : IngestIdentity) : Str := Str.join '|' a.fields

/-- No bar in a field, and no colon where one separates two fields: in the source of a vendor issue
or of a scanner identity, and in a partial fingerprint. -/
def IngestIdentity.Plain (a : IngestIdentity) : Prop :=
  (∀ x ∈ a.fields, '|' ∉ x) ∧
    match a with
    | .sourceIssue source .. => ':' ∉ source
    | .scannerIdentity _ source => ':' ∉ source
    | .partialFingerprint digest _ => ':' ∉ digest
    | _ => True

instance (a : IngestIdentity) : Decidable a.Plain := by
  unfold IngestIdentity.Plain
  cases a <;> infer_instance

theorem IngestIdentity.fields_ne_nil (a : IngestIdentity) : a.fields ≠ [] := by
  cases a <;> exact List.cons_ne_nil _ _

/-- Plain identities with the same fields are equal: the number of fields and the start of the first
one tell the strategies apart. -/
theorem IngestIdentity.fields_inj {a b : IngestIdentity} (ha : a.Plain) (hb : b.Plain)
    (h : a.fields = b.fields) : a = b := by
  cases a <;> cases b <;> simp [IngestIdentity.fields, str] at h
  case openscap.openscap =>
    obtain ⟨rfl, rfl, rfl, rfl⟩ := h
    rfl
  case sourceIssue.sourceIssue =>
    obtain ⟨hfirst, rfl, rfl, rfl⟩ := h
    obtain ⟨rfl, rfl⟩ := (append_cons_inj ha.2 hb.2).mp hfirst
    rfl
  case partialFingerprint.partialFingerprint =>
    obtain ⟨rfl, rfl⟩ := (append_cons_inj ha.2 hb.2).mp h
    rfl
  case scannerIdentity.scannerIdentity =>
    obtain ⟨rfl, rfl⟩ := (append_cons_inj_right ha.2 hb.2).mp h
    rfl
  case static.static =>
    obtain ⟨rfl, rfl, rfl, rfl, rfl⟩ := h
    rfl
  case vulnerability.vulnerability =>
    obtain ⟨rfl, rfl, rfl, rfl, rfl, rfl⟩ := h
    rfl

/-- Plain identities are read back from the hashed text. -/
theorem IngestIdentity.material_inj {a b : IngestIdentity} (ha : a.Plain) (hb : b.Plain)
    (h : a.material = b.material) : a = b :=
  fields_inj ha hb (intercalate_inj a.fields_ne_nil b.fields_ne_nil ha.1 hb.1 h)

section Identity

variable [Unicode] [Sha256]

/-- The strategy that is taken for a payload, and the fields it hashes. -/
def ingestIdentity (payload : VatFindingSchema) (sourceName : Str) : IngestIdentity :=
  let sid := Str.strip (Str.orEmpty payload.sourceIssueId)
  let image := Str.orEmpty payload.image
  let branch := Str.orEmpty payload.branch
  let tag := Str.orEmpty payload.tag
  let component := payload.componentText
  let benchmark := Str.orElse payload.benchmarkFamily payload.benchmarkId
  let scannerIdentity := Str.strip (Str.orEmpty payload.scannerIdentity)
  if (sourceName = str "openscap" ∨ sourceName = str "openscap_oval") ∧
      Str.truthy payload.stableRuleKey ∧ (image ≠ [] ∨ component ≠ [] ∨ tag ≠ []) then
    .openscap (normalize (if image ≠ [] then image else if component ≠ [] then component else tag))
      (normalize (Str.orEmpty payload.stableRuleKey))
      (normalize (if Str.truthy benchmark then Str.orEmpty benchmark else str "unknown_benchmark"))
      (normalizeProfileScope payload.profileScope)
  else if sid ≠ [] then
    .sourceIssue sourceName sid (normalize image) (normalize branch) (normalize tag)
  else
    match payload.partialFingerprint with
    | some digest => .partialFingerprint digest (normalize sourceName)
    | none =>
      if scannerIdentity ≠ [] then
        .scannerIdentity (normalize scannerIdentity) (normalize sourceName)
      else if payload.findingType = .sast ∨ payload.findingType = .iac ∨
          payload.findingType = .secret then
        .static (normalize payload.ruleText) (normalize (Str.orEmpty payload.filePath))
          (lineText payload.line) (normalize (Str.orEmpty payload.snippetMasked))
          (normalize sourceName)
      else
        .vulnerability (normalize payload.cveId) (componentBase component) (normalize image)
          (normalize branch) (normalize tag) (normalize sourceName)

/-- The fingerprint of a payload from a source with a name is the digest of its identity. -/
theorem computeIngestFingerprint_eq (payload : VatFindingSchema) {sourceName : Str}
    (hsource : Str.strip sourceName ≠ []) :
    computeIngestFingerprint payload sourceName =
      Sha256.hexdigest (ingestIdentity payload sourceName).material := by
  have hne : sourceName ≠ [] := fun h => hsource (by rw [h, Str.strip_nil])
  unfold computeIngestFingerprint ingestIdentity
  dsimp only
  by_cases hopenscap : (sourceName = str "openscap" ∨ sourceName = str "openscap_oval") ∧
      Str.truthy payload.stableRuleKey ∧ (Str.orEmpty payload.image ≠ [] ∨
        payload.componentText ≠ [] ∨ Str.orEmpty payload.tag ≠ [])
  · rw [if_pos hopenscap, if_pos hopenscap]
    rfl
  · rw [if_neg hopenscap, if_neg hopenscap, defaultFingerprint]
    by_cases hsid : Str.strip (Str.orEmpty payload.sourceIssueId) = []
    · simp only [hsid, ne_eq, not_true_eq_false, ↓reduceIte]
      cases payload.partialFingerprint with
      | some digest => simp [IngestIdentity.material, IngestIdentity.fields, Str.join, str]
      | none =>
        dsimp only
        split_ifs
        · simp [IngestIdentity.material, IngestIdentity.fields, Str.join, str]
        · simp [makeFingerprint, hne, hsource, IngestIdentity.material, IngestIdentity.fields]
        · simp [IngestIdentity.material, IngestIdentity.fields, Str.join, str]
    · simp [makeFingerprintForSourceIssue, hne, hsid, Str.strip_strip, IngestIdentity.material,
        IngestIdentity.fields, Str.join, str]

/-- Fingerprints of plain payloads from sources with a name are equal exactly when the same strategy
was taken on the same fields. -/
theorem fingerprint_eq_iff {payload payload' : VatFindingSchema} {sourceName sourceName' : Str}
    (hsource : Str.strip sourceName ≠ []) (hsource' : Str.strip sourceName' ≠ [])
    (hplain : (ingestIdentity payload sourceName).Plain)
    (hplain' : (ingestIdentity payload' sourceName').Plain) :
    computeIngestFingerprint payload sourceName = computeIngestFingerprint payload' sourceName' ↔
      ingestIdentity payload sourceName = ingestIdentity payload' sourceName' := by
  rw [computeIngestFingerprint_eq payload hsource, computeIngestFingerprint_eq payload' hsource',
    Sha256.hexdigest_injective.eq_iff]
  exact ⟨IngestIdentity.material_inj hplain hplain', congrArg _⟩

end Identity

section Examples

attribute [local instance] asciiUnicode unaryDigest

/-- A package with a known vulnerability. -/
def packagePayload (component : String) : VatFindingSchema :=
  { VatFindingSchema.blank (str "CVE-2024-1") .high with
    image := some (str "registry.io/app")
    component := some (str component) }

/-- A rule that is violated in a file of a repository. -/
def rulePayload (repository : String) : VatFindingSchema :=
  { VatFindingSchema.blank (str "CKV_DOCKER_2") .low with
    findingType := .iac
    image := some (str repository)
    ruleId := some (str "CKV_DOCKER_2")
    filePath := some (str "Dockerfile")
    line := some 1 }

/-- Two packages with one vulnerability in one image have different fingerprints. -/
theorem fingerprint_separates_packages :
    computeIngestFingerprint (packagePayload "openssl 3.0.1") (str "trivy") ≠
      computeIngestFingerprint (packagePayload "zlib 1.3") (str "trivy") :=
  (fingerprint_eq_iff (by decide) (by decide) (by decide +kernel) (by decide +kernel)).not.mpr
    (by decide +kernel)

/-- A rule violated in the same line of the same file of two repositories has one fingerprint. -/
theorem fingerprint_joins_repositories :
    computeIngestFingerprint (rulePayload "github.com/acme/web") (str "checkov") =
        computeIngestFingerprint (rulePayload "github.com/acme/api") (str "checkov") ∧
      normalize (Str.orEmpty (rulePayload "github.com/acme/web").image) ≠
        normalize (Str.orEmpty (rulePayload "github.com/acme/api").image) := by
  have hsource : Str.strip (str "checkov") ≠ [] := by decide
  have hidentity : ingestIdentity (rulePayload "github.com/acme/web") (str "checkov") =
      ingestIdentity (rulePayload "github.com/acme/api") (str "checkov") := by
    decide +kernel
  refine ⟨?_, by decide +kernel⟩
  rw [computeIngestFingerprint_eq _ hsource, hidentity, ← computeIngestFingerprint_eq _ hsource]

end Examples

end Vat
