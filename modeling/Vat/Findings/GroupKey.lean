import Vat.Assets.Group
import Vat.Python.Pattern

/-!
# Group keys of findings

The key by which findings are grouped into logical issues: what is wrong, by the type of the
finding, and on which asset.

Source: `backend/app/services/grouping.py`; `backend/app/services/assets_service.py`, lines 44–63.

## Main definitions

* `normalizeRuleTitle`, `normalizePackageName`.
* `findingAssetKey`, `getFindingGroupKey`.
-/

namespace Vat

variable [Unicode] [CharTables]

/-! ### Packages -/

omit [CharTables] in
/-- `_extract_component_base_for_grouping`. -/
def extractComponentBaseForGrouping (component : Option Str) : Str :=
  let base := componentBase (Str.strip (Str.orEmpty component))
  let body := base.dropWhile Str.isSpace
  let first := body.takeWhile fun c => !Str.isSpace c
  match (body.dropWhile fun c => !Str.isSpace c).dropWhile Str.isSpace with
  | [] => base
  | c :: _ => if Unicode.isDigit c then Str.strip first else base

omit [CharTables] in
/-- `normalize_package_name`. -/
def normalizePackageName (ecosystem name : Str) : Str :=
  let name := Str.strip name
  let eco := Str.strip (Unicode.lower ecosystem)
  if name = [] then []
  else if eco ∈ [str "pypi", str "pip", str "pipenv", str "poetry"] then
    Unicode.lower (collapseRuns (fun c => c == '-' || c == '_' || c == '.') name)
  else Unicode.lower name

omit [CharTables] in
/-- The ecosystem and the package of an SCA or a license finding. -/
def groupPackage (f : Finding) : Str × Str :=
  let rawPkg :=
    if Str.truthy f.componentBase then Str.orEmpty f.componentBase
    else extractComponentBaseForGrouping f.component
  let eco := normalizeEcosystemToken
    (some (effectiveScaEcosystem f.ecosystem f.benchmarkFamily (Str.orEmpty f.image)
      (Str.orEmpty f.tag)))
  let cross := if rawPkg = [] then [] else normalizeScaPackageForCrossScanner rawPkg
  (eco, if cross = [] then [] else normalizePackageName eco cross)

/-! ### Titles -/

/-- `, path and N others` and `, path, path and N others`. -/
def othersSuffix : Pattern :=
  let part := Pattern.plus (.one fun c => c != ',')
  .all [.lit ", ", part, .opt (.all [.lit ", ", part]), .lit " and ", .plus .decimal, .lit " other",
    .opt (.lit "s")]

/-- A second path after a comma. -/
def secondPath : Pattern :=
  .opt (.all [.star .space, .lit ",", .star .space, .plus .pathChar])

/-- ` in path` with a file extension. -/
def pathSuffix : Pattern :=
  .all [.plus .space, .lit "in", .plus .space, .plus .pathChar, .lit ".",
    .oneOf (["py", "ts", "tsx", "js", "jsx", "json", "yml", "yaml", "md", "txt", "xml", "html", "css",
      "sh", "go", "rs", "java", "kt", "env", "tf", "hcl", "toml", "lock"].map Pattern.lit),
    secondPath]

/-- ` in path` of a file without an extension. -/
def plainFileSuffix : Pattern :=
  .all [.plus .space, .lit "in", .plus .space, .star .pathChar,
    .oneOf (["dockerfile", "makefile", ".dockerignore", ".gitignore"].map Pattern.lit), secondPath]

/-- ` at line N in path` and ` at line N-N in path`. -/
def lineSuffix : Pattern :=
  .all [.plus .space, .lit "at", .plus .space, .lit "line", .plus .space, .plus .decimal,
    .opt (.seq (.lit "-") (.plus .decimal)), .plus .space, .lit "in", .plus .space, .plus .pathChar]

/-- `_normalize_rule_title`. -/
def normalizeRuleTitle (title : Str) (stripLocations : Bool) : Str :=
  let t := Str.strip title
  if stripLocations then
    let t := [othersSuffix, pathSuffix, plainFileSuffix, lineSuffix].foldl
      (fun t p => Pattern.subAtEnd p t) t
    Unicode.lower (Str.strip t)
  else Unicode.lower t

/-! ### Keys -/

omit [Unicode] [CharTables] in
/-- The first text that is not blank. -/
def firstText : List Str → Str
  | [] => []
  | s :: rest => if s = [] then firstText rest else s

omit [CharTables] in
/-- `_asset_key`. -/
def findingAssetKey (cfg : Settings) (f : Finding) : Str :=
  let rawImg := Str.strip (Str.orEmpty f.image)
  let img :=
    if rawImg = [] then [] else Unicode.lower (Str.strip (containerImageGroupKey cfg rawImg))
  img ++ str "|" ++ normalize (Str.orEmpty f.branch) ++ str "|" ++ normalize (Str.orEmpty f.tag)

/-- The title of a finding, or its id of a weakness. -/
def groupTitle (f : Finding) (stripLocations : Bool) : Str :=
  normalizeRuleTitle (if Str.truthy f.title then Str.orEmpty f.title else f.cveId) stripLocations

omit [Unicode] [CharTables] in
/-- The spelling of a secret's key without regard to its separators. -/
def secretKey (rawKey : Str) : Str :=
  if !Str.contains rawKey (str " in ") && rawKey.length < 80 then
    let key := Str.stripWhile (· == '-')
      (collapseRuns (fun c => c == '-' || c == '_' || Str.isSpace c) rawKey)
    if key = [] then rawKey else key
  else rawKey

/-- What is wrong, without the asset. -/
def groupIssue (f : Finding) : Str :=
  match f.findingType with
  | .sca =>
    let (eco, pkg) := groupPackage f
    if pkg = [] then str "cve:" ++ normalize f.cveId else str "sca:" ++ eco ++ str "|" ++ pkg
  | .sast =>
    str "sast:" ++ firstText
      [normalize (Str.orEmpty f.ruleId), normalize (Str.orEmpty f.cweId), groupTitle f true, f.id]
  | .iac => str "iac:" ++ firstText [normalize (Str.orEmpty f.ruleId), groupTitle f true, f.id]
  | .secret =>
    str "secret:" ++ secretKey (firstText
      [normalize (Str.orEmpty f.secretType), normalize (Str.orEmpty f.ruleId), groupTitle f false,
        f.id])
  | .license =>
    let (eco, pkg) := groupPackage f
    if pkg = [] then str "license:" ++ f.id else str "license:" ++ eco ++ str "|" ++ pkg

/-- `get_finding_group_key`. -/
def getFindingGroupKey (cfg : Settings) (f : Finding) : Str :=
  groupIssue f ++ str "#" ++ findingAssetKey cfg f

end Vat
