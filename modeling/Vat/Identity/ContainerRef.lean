import Vat.Identity.Dedup

/-!
# Container references and asset kinds

The canonical key of a container reference and the kind of an asset id.

Source: `backend/app/services/container_ref_normalization.py`;
`backend/app/parsers/image_digest.py`; `backend/app/services/asset_resolver.py`, lines 38–59.
-/

namespace Vat

/-- `s.split(sep, 1)` when `sep` occurs in `s`. -/
def Str.splitSub1 (sep : Str) : Str → Option (Str × Str)
  | [] => none
  | c :: s =>
    if sep.isPrefixOf (c :: s) then some ([], (c :: s).drop sep.length)
    else (Str.splitSub1 sep s).map fun p => (c :: p.1, p.2)

variable [Unicode]

/-! ### Image digests -/

omit [Unicode] in
/-- The characters kept by `re.sub(r"[^0-9a-f]", "", s)`. -/
def isHexChar (c : Char) : Bool := ('0' ≤ c && c ≤ '9') || ('a' ≤ c && c ≤ 'f')

omit [Unicode] in
/-- `sha256:` and at most 64 hex digits, or nothing when fewer than twelve are left. -/
def digestOfHex (s : Str) : Option Str :=
  let hex := (s.filter isHexChar).take 64
  if hex.length < 12 then none else some (str "sha256:" ++ hex)

/-- Return `sha256:<64 hex>` or nothing if invalid or too short. -/
def normalizeImageDigest (value : Option Str) : Option Str :=
  let s := Unicode.lower (Str.strip (Str.orEmpty value))
  if s = [] then none
  else if Str.startsWith s (str "sha256:") then digestOfHex (s.drop 7)
  else digestOfHex s

/-- Parse `registry/repo@sha256:...` from a stored image reference. -/
def extractDigestFromImageRef (image : Option Str) : Option Str :=
  match Str.splitSub1 (str "@sha256:") (Str.orEmpty image) with
  | none => none
  | some (_, part) => digestOfHex (Unicode.lower part)

/-- Prefer the explicit digest; else parse it from the image reference. -/
def effectiveImageDigest (payloadDigest image : Option Str) : Option Str :=
  match normalizeImageDigest payloadDigest with
  | some d => some d
  | none => extractDigestFromImageRef image

/-! ### Canonical container references -/

/-- `NormalizedContainerRef`. -/
structure NormalizedContainerRef where
  canonicalAssetKey : Str
  observedTag : Option Str
  observedDigest : Option Str
  rawRef : Str

/-- The reference without its digest, and the digest. -/
def splitDigest (ref : Str) : Str × Option Str :=
  match Str.splitSub1 (str "@sha256:") ref with
  | none => (ref, none)
  | some (left, right) => (Str.strip left, normalizeImageDigest (some (str "sha256:" ++ right)))

omit [Unicode] in
/-- The reference without its tag, and the tag: what follows the last colon, when no slash does. -/
def splitTag (repoRef : Str) : Str × Option Str :=
  if ':' ∉ repoRef then (repoRef, none)
  else
    let p := Str.rsplit1 ':' repoRef
    if '/' ∈ p.2 then (repoRef, none)
    else
      let tag := Str.strip p.2
      if tag = [] then (repoRef, none) else (Str.strip p.1, some tag)

omit [Unicode] in
/-- A first path segment with a dot or a colon, or `localhost`, is a registry. -/
def splitRegistryAndPath (repo : Str) : Option Str × Str :=
  if repo = [] then (none, [])
  else if '/' ∉ repo then (none, repo)
  else
    let p := Str.split1 '/' repo
    if '.' ∈ p.1 ∨ ':' ∈ p.1 ∨ p.1 = str "localhost" then (some p.1, p.2) else (none, repo)

omit [Unicode] in
/-- Official images live under `library`. -/
def dockerHubPath (path : Str) : Str :=
  let p := Str.stripWhile (· == '/') path
  if p = [] then str "library/unknown"
  else if '/' ∉ p then str "library/" ++ p
  else p

/-- The canonical key of a container reference: registry and path, without tag and digest. -/
def normalizeContainerRef (value : Option Str) : NormalizedContainerRef :=
  let raw := Str.strip (Str.orEmpty value)
  if raw = [] then ⟨str "docker.io/library/unknown", none, none, []⟩
  else
    let (repoTagPart, digest) := splitDigest raw
    let (repoPart, tag) := splitTag repoTagPart
    let (registry, path) :=
      match splitRegistryAndPath repoPart with
      | (none, path) => (str "docker.io", dockerHubPath path)
      | (some registry, path) => (registry, path)
    let canonical := Str.stripWhile (· == '/')
      (Unicode.lower registry ++ str "/" ++ Unicode.lower (Str.stripWhile (· == '/') path))
    ⟨if canonical = [] then str "docker.io/library/unknown" else canonical, tag, digest, raw⟩

/-- True when the raw reference differs from the canonical key only by an explicit tag. -/
def isSafeTagOnlyAliasVariant (rawRef canonicalAssetKey : Str) : Bool :=
  let raw := Str.strip rawRef
  let canonical := Unicode.lower (Str.strip canonicalAssetKey)
  if raw = [] ∨ canonical = [] then false
  else
    let normalized := normalizeContainerRef (some raw)
    if normalized.canonicalAssetKey ≠ canonical then false
    else Str.truthy normalized.observedTag && !Str.truthy normalized.observedDigest

/-! ### Path aliases of the deployment -/

/-- Parse `from=>to;from2=>to2`. -/
def parseContainerAssetPathAliases (raw : Str) : List (Str × Str) :=
  (raw.splitOn ';').filterMap fun segment =>
    match Str.splitSub1 (str "=>") (Str.strip segment) with
    | none => none
    | some (left, right) =>
      let src := Unicode.lower (Str.strip left)
      if src = [] then none else some (src, Unicode.lower (Str.strip right))

/-- Rewrite the first configured prefix of a canonical key. -/
def applyContainerAssetPathAliases (pathAliases canonicalKey : Str) : Str :=
  if Str.strip canonicalKey = [] then canonicalKey
  else
    let k := Str.strip canonicalKey
    let lower := Unicode.lower k
    match (parseContainerAssetPathAliases pathAliases).find? fun p =>
        Str.startsWith lower p.1 with
    | none => canonicalKey
    | some (src, dst) => dst ++ k.drop src.length

/-! ### Asset kinds -/

/-- The kinds `infer_asset_kind` returns. -/
inductive AssetKind
  | unknown | node | container | hostScope | pathScope | packageScope | repo
  deriving DecidableEq

/-- The kind of an asset id, given the parser that reported it. -/
def inferAssetKind (assetId parserId : Str) : AssetKind :=
  let aid := Str.strip assetId
  let pid := Unicode.lower (Str.strip parserId)
  if aid = [] then .unknown
  else
    let parts := (aid.splitOn '/').map Unicode.lower
    let k8s := 5 ≤ parts.length ∧ parts.head? = some (str "k8s")
    if k8s ∧ parts[2]? = some (str "cluster") ∧ parts[3]? = some (str "node") then .node
    else if k8s ∧ str "container" ∈ parts.drop 2 then .container
    else if pid = str "openscap" ∨ pid = str "openscap_oval" then .hostScope
    else if pid = str "semgrep" ∨ pid = str "sarif" ∨ pid = str "gitleaks" then .pathScope
    else if pid = str "npm_audit" ∨ pid = str "pip_audit" then .packageScope
    else if Str.contains aid (str "/images/") ∨ Str.startsWith aid (str "sha256:") ∨ ':' ∈ aid then
      .container
    else if '/' ∈ aid ∧ ¬ Str.startsWith aid (str "/") then .repo
    else if Str.startsWith aid (str "/") ∨ Str.startsWith aid (str "commit:") ∨ '>' ∈ aid then
      .pathScope
    else .packageScope

end Vat
