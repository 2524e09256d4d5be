import Vat.Python.Text

/-!
# Normalization of identity fields

`normalize`, `componentBase` and the tenant default, on which every key of the model is built,
and the package and ecosystem names shared by the scanners.

Source: `backend/app/services/dedup.py`, lines 6–27; `backend/app/core/tenancy.py`, lines 15–20;
`backend/app/services/identity_normalization.py`, lines 13–15;
`backend/app/services/sca_cross_scanner.py`; `backend/app/services/openscap_identity.py`,
lines 24–26.
-/

namespace Vat

variable [Unicode]

/-- Lowercase and trim. -/
def normalize (value : Str) : Str :=
  if value = [] then [] else Str.strip (Unicode.lower value)

@[simp] theorem normalize_nil : normalize [] = [] := if_pos rfl

/-- Strip version numbers: `lodash@4.17.21` gives `lodash`, `vllm 0.8.5` gives `vllm`. -/
def componentBase (component : Str) : Str :=
  let base := Str.strip (Str.split1 '@' component).1
  if base = [] then []
  else
    let first := base.takeWhile fun c => !Str.isSpace c
    let rest := (base.drop first.length).dropWhile Str.isSpace
    match rest with
    | [] => normalize base
    | c :: _ => if Unicode.isDigit c then normalize (Str.strip first) else normalize base

omit [Unicode] in
/-- Map missing or blank tenant ids to the bootstrap tenant. -/
def normalizeTenantId (tenantId : Option Str) : Str :=
  let cleaned := Str.strip (Str.orEmpty tenantId)
  if cleaned = [] then str "t-default" else cleaned

omit [Unicode] in
theorem normalizeTenantId_idem (tenantId : Option Str) :
    normalizeTenantId (some (normalizeTenantId tenantId)) = normalizeTenantId tenantId := by
  have hdefault : normalizeTenantId (some (str "t-default")) = str "t-default" := by decide
  by_cases hblank : Str.strip (Str.orEmpty tenantId) = []
  · have h : normalizeTenantId tenantId = str "t-default" := if_pos hblank
    rw [h, hdefault]
  · simp [normalizeTenantId, hblank, Str.strip_strip]

/-- Normalize a CVE or weakness id for keys and fingerprints. -/
def normalizeCveId (value : Str) : Str := normalize value

/-- Profile scope is identity-significant for compliance findings. -/
def normalizeProfileScope (profileScope : Option Str) : Str := normalize (Str.orEmpty profileScope)

/-! ### Packages and ecosystems across scanners -/

/-- npm, yarn and pnpm share one registry bucket. -/
def normalizeEcosystemToken (ecosystem : Option Str) : Str :=
  let e := Str.strip (Unicode.lower (Str.orEmpty ecosystem))
  if e = str "npm" ∨ e = str "yarn" ∨ e = str "pnpm" then str "npm" else e

/-- Whether one of the needles occurs in the text. -/
def Str.containsAny (s : Str) (needles : List String) : Bool :=
  needles.any fun n => Str.contains s (str n)

/-- Distro package namespace inferred from the image reference and the tag. -/
def inferScaEcosystemFromContainerRef (image tag : Str) : Str :=
  let blob := Unicode.lower (image ++ str " " ++ tag)
  if Str.strip blob = [] then []
  else if Str.containsAny blob
      ["debian", "ubuntu", "-deb", "deb12", "deb11", "bookworm", "bullseye", "jammy", "focal"] then
    str "debian"
  else if Str.containsAny blob
      ["rhel", "ubi", "alma", "rocky", "centos", "fedora", "amzn", "amazonlinux"] then
    str "rpm"
  else []

/-- Distro package namespace inferred from the benchmark family. -/
def inferScaEcosystemFromBenchmarkFamily (benchmarkFamily : Option Str) : Str :=
  if !Str.truthy benchmarkFamily then []
  else
    let bf := Unicode.lower (Str.orEmpty benchmarkFamily)
    if Str.containsAny bf
        ["rhel", "red_hat", "centos", "rocky", "alma", "fedora", "ol_", "_ol_"] then str "rpm"
    else if Str.containsAny bf ["ubuntu", "debian", "u_ubuntu"] then str "debian"
    else []

/-- Resolved ecosystem for SCA: explicit beats inferred. -/
def effectiveScaEcosystem (ecosystem benchmarkFamily : Option Str) (image tag : Str) : Str :=
  let eco := normalizeEcosystemToken ecosystem
  if eco != [] then eco
  else
    let eco := inferScaEcosystemFromBenchmarkFamily benchmarkFamily
    if eco != [] then eco else inferScaEcosystemFromContainerRef image tag

/-- Vendor short names of OpenSSL packages. -/
def scaPackageAliases : List Str :=
  [str "ssl", str "libssl", str "libssl3", str "libssl1.1", str "libssl1.0.0", str "openssl"]

/-- Map CPE-style product tokens to the names of the distro scanners. -/
def normalizeScaPackageForCrossScanner (name : Str) : Str :=
  let n := Unicode.lower (Str.strip name)
  if n = [] then []
  else if n ∈ scaPackageAliases then str "openssl"
  else if Str.startsWith n (str "libssl") then str "openssl"
  else n

end Vat
