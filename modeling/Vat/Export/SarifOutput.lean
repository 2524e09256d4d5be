import Vat.Adapters.Aikido
import Vat.Ingest.Fingerprint
import Vat.Parsers.Utils

/-!
# SARIF output of the local scanner

The reports of a scan become one SARIF document, with a run for every report of a known tool that
has results. A report that is not read, whatever the error, has no run. Each result has a rule with
its id, and of the rules with one id only the last is written.

Source: `vat-local-scanner/vat_scanner/sarif_output.py`.

## Main definitions

* `Entry`: a result with its rule.
* `trivyToSarifResults`, `grypeToSarifResults`, `npmToSarifResults`, `pipToSarifResults`,
  `semgrepToSarifResults`, `gitleaksToSarifResults`.
* `runsOf`, `reportsToSarif`: the document.

## Main results

* `get?_rulesOf`: the rule that is written for an id.
-/

namespace Vat

open Keyed Transition

namespace SarifOutput

/-! ### Levels -/

/-- The levels that are written. -/
inductive Level
  | error
  | warning
  | note
  deriving DecidableEq

def Level.text : Level → Str
  | .error => str "error"
  | .warning => str "warning"
  | .note => str "note"

/-- `_level`. -/
def level [Unicode] (sev : Str) : Level :=
  let sev := Unicode.lower sev
  if sev = str "critical" ∨ sev = str "high" then .error
  else if sev = str "medium" then .warning
  else if sev = str "low" ∨ sev = str "unknown" then .note
  else .warning

/-! ### Results -/

/-- `(v or "").strip` can be called. -/
def Named (v : Loaded) : Prop := v.truthy → v.isText

instance (v : Loaded) : Decidable (Named v) := inferInstanceAs (Decidable (_ → _))

/-- `(v or "")`, where it is a text. -/
def nameText (v : Loaded) : Str := (v.or (.text [])).textOf

/-- `int(start_line) if start_line is not None else 1`. -/
def lineNumber [IntOfText] : Loaded → Except PyError ℤ
  | .null => .ok 1
  | v => v.toInt

/-- The path in a fingerprint. -/
def pathText [Unicode] (uri : Loaded) : Str :=
  Unicode.lower ((Str.strip (nameText uri)).map fun c => if c = '\\' then '/' else c)

/-- What the fingerprint of a result is the digest of. -/
def material [Unicode] (rid uri : Loaded) (number : ℤ) : Str :=
  Str.strip (nameText rid) ++ '|' :: (pathText uri ++ '|' :: intText number)

/-- The properties of a result for a package. -/
structure Properties where
  packageName : Loaded
  installedVersion : Option Loaded
  score : Option Str

def Properties.value (p : Properties) : Loaded :=
  .dict ((str "packageName", p.packageName) ::
    ((p.installedVersion.toList.map fun v => (str "installedVersion", v)) ++
      p.score.toList.map fun s => (str "security-severity", .text s)))

/-- A result with the short description of its rule. The rule id is a text or falsy, and can be a
key; so is the path, which may be no key; the line is a whole number. -/
structure Entry [IntOfText] where
  rid : Loaded
  short : Str
  message : Loaded
  level : Level
  uri : Loaded
  line : Loaded
  number : ℤ
  properties : Option Properties
  rid_named : Named rid
  rid_key : rid.hashKey?.isSome
  short_length : short.length ≤ 200
  uri_named : Named uri
  line_number : lineNumber line = .ok number

section Writer

variable [Unicode] [ReprText] [IntOfText]

omit [Unicode] [ReprText] in
/-- The key of the rule. -/
def Entry.key (e : Entry) : HashKey := e.rid.hashKey?.getD .null

omit [Unicode] [ReprText] in
/-- `rules[rid]`. -/
def Entry.rule (e : Entry) : Loaded :=
  .dict [(str "id", e.rid), (str "shortDescription", .dict [(str "text", .text e.short)])]

omit [ReprText] in
/-- `partial_fingerprints_for_static_result`. -/
def Entry.fingerprint [Sha256] (e : Entry) : Str := Sha256.hexdigest (material e.rid e.uri e.number)

omit [ReprText] in
/-- The result. -/
def Entry.result [Sha256] (e : Entry) : Loaded :=
  .dict ([(str "ruleId", e.rid), (str "message", .dict [(str "text", e.message)]),
    (str "level", .text e.level.text),
    (str "locations", .list [.dict [(str "physicalLocation",
      .dict [(str "artifactLocation", .dict [(str "uri", e.uri)]),
        (str "region", .dict [(str "startLine", e.line)])])]]),
    (str "partialFingerprints",
      .dict [(str "primaryLocationLineHash" ++ str "/v1", .text e.fingerprint)])] ++
    e.properties.toList.map fun p => (str "properties", p.value))

omit [Unicode] in
/-- A result and its rule, of a description for both. -/
def emit (rid message : Loaded) (short : Str) (level : Level) (uri line : Loaded)
    (properties : Option Properties) : Except PyError (List Entry) :=
  match hline : lineNumber line with
  | .error e => .error e
  | .ok number =>
    if hkey : rid.hashKey?.isSome then
      if hnamed : Named rid ∧ Named uri then
        .ok [⟨rid, short.take 200, message, level, uri, line, number, properties, hnamed.1, hkey,
          List.length_take_le _ _, hnamed.2, hline⟩]
      else .error .attributeError
    else .error .typeError

omit [Unicode] in
/-- A result of a description. -/
def emitDescribed (rid desc : Loaded) (level : Level) (uri line : Loaded)
    (properties : Option Properties) : Except PyError (List Entry) :=
  emit rid (.text (desc.pyStr.take 1000)) desc.pyStr level uri line properties

/-! ### Reports -/

omit [Unicode] [ReprText] [IntOfText] in
/-- `v.get(k₁) or v.get(k₂) or … or default`. -/
def getFirst (v : Loaded) : List String → Loaded → Except PyError Loaded
  | [], default => .ok default
  | k :: ks, default => do
    let x ← v.get k
    if x.truthy then return x else getFirst v ks default

omit [Unicode] [ReprText] in
/-- `for x in v`, where what is no object is skipped. -/
def objects (v : Loaded) (step : Loaded → Except PyError (List Entry)) :
    Except PyError (List Entry) := do
  let items ← v.iterate
  collect step (items.filter Loaded.isDict)

omit [ReprText] [IntOfText] in
/-- `_level((v or default).lower())`. -/
def levelOf (v : Loaded) : Except PyError Level := do
  let sev ← v.asText
  return level (Unicode.lower sev)

omit [Unicode] [IntOfText] in
/-- A description that is an object has a text. -/
def plainText (desc : Loaded) : Loaded :=
  if desc.isDict then desc.memberOr "text" (.text desc.pyStr) else desc

omit [Unicode] [IntOfText] in
/-- The score of a vendor. -/
def vendorScore (vuln : Loaded) (vendor : String) : Except PyError Loaded := do
  let cvss ← vuln.getOr "CVSS" (.dict [])
  let scores ← cvss.getOr vendor (.dict [])
  scores.getOr "V3Score" (.text [])

omit [Unicode] [IntOfText] in
/-- The `security-severity` of a vulnerability. -/
def securitySeverity (vuln : Loaded) : Except PyError Str := do
  let nvd ← vendorScore vuln "nvd"
  if nvd.truthy then return nvd.pyStr
  else
    let redhat ← vendorScore vuln "redhat"
    return (redhat.or (.text [])).pyStr

/-- A vulnerability in a Trivy report. -/
def trivyVulnerability (target : Str) (vuln : Loaded) : Except PyError (List Entry) := do
  let rid ← getFirst vuln ["VulnerabilityID", "vulnerabilityID", "ID"] (.ofString "trivy-vuln")
  let level ← levelOf (← getFirst vuln ["Severity", "severity"] (.ofString "medium"))
  let pkg ← getFirst vuln ["PkgName", "pkgName"] (.text [])
  let ver ← getFirst vuln ["InstalledVersion", "installedVersion"] (.text [])
  let desc ← getFirst vuln ["Title", "title", "Description", "description"] rid
  let score ← securitySeverity vuln
  emitDescribed rid (plainText desc) level (.text target) (.int 1)
    (some ⟨pkg, some ver, some score⟩)

/-- A misconfiguration in a Trivy report. -/
def trivyMisconfiguration (target : Str) (mis : Loaded) : Except PyError (List Entry) := do
  let rid ← getFirst mis ["ID", "id"] (.ofString "trivy-misconfig")
  let level ← levelOf (← getFirst mis ["Severity", "severity"] (.ofString "medium"))
  let desc ← getFirst mis ["Title", "title", "Description"] rid
  let line ← getFirst mis ["StartLine", "startLine"] (.int 1)
  emitDescribed rid (plainText desc) level (.text target) line none

omit [Unicode] in
/-- A secret in a Trivy report, whose title is no text of the exporter. -/
def trivySecret (target : Str) (sec : Loaded) : Except PyError (List Entry) := do
  let rid ← getFirst sec ["RuleID", "ruleID"] (.ofString "trivy-secret")
  let line ← getFirst sec ["StartLine"] (.int 1)
  let title ← getFirst sec ["Title"] (.ofString "Secret detected")
  emit rid title (str "Secret detected") .error (.text target) line none

/-- The findings of a target. -/
def trivyTarget (assetName : Str) (r : Loaded) : Except PyError (List Entry) := do
  let target ← getFirst r ["Target", "target"] (.text assetName)
  let vulns ← objects (← getFirst r ["Vulnerabilities", "vulnerabilities"] (.list []))
    (trivyVulnerability target.pyStr)
  let misconfigs ← objects (← getFirst r ["Misconfigurations", "misconfigurations"] (.list []))
    (trivyMisconfiguration target.pyStr)
  let secrets ← objects (← getFirst r ["Secrets", "secrets"] (.list [])) (trivySecret target.pyStr)
  return vulns ++ misconfigs ++ secrets

/-- `_trivy_to_sarif_results`. -/
def trivyToSarifResults (report : Loaded) (assetName : Str) : Except PyError (List Entry) := do
  objects (← getFirst report ["Results", "results"] (.list [])) (trivyTarget assetName)

omit [Unicode] [ReprText] [IntOfText] in
/-- The path of the first location of an artifact. -/
def artifactPath (artifact : Loaded) (assetName : Str) : Except PyError Loaded := do
  let locs ← getFirst artifact ["locations"] (.list [])
  if locs.truthy then
    let loc ← locs.first
    if loc.isDict then loc.get "path" else return .text assetName
  else return .text assetName

/-- A match in a Grype report. -/
def grypeMatch (assetName : Str) (m : Loaded) : Except PyError (List Entry) := do
  let vuln ← getFirst m ["vulnerability"] (.dict [])
  let artifact ← getFirst m ["artifact"] (.dict [])
  let id ← vuln.get "id"
  let rid ← if id.truthy then pure id else artifact.getOr "name" (.ofString "grype-vuln")
  let level ← levelOf (← getFirst vuln ["severity"] (.ofString "medium"))
  let desc ← getFirst vuln ["description"] rid
  let uri ← artifactPath artifact assetName
  let pkg ← artifact.getOr "name" (.text [])
  let ver ← artifact.getOr "version" (.text [])
  emitDescribed rid desc level uri (.int 1) (some ⟨pkg, some ver, none⟩)

/-- `_grype_to_sarif_results`. -/
def grypeToSarifResults (report : Loaded) (assetName : Str) : Except PyError (List Entry) := do
  objects (← getFirst report ["matches"] (.list [])) (grypeMatch assetName)

/-- A vulnerable package in the report of `npm audit`. -/
def npmVulnerability (pkgName : Str) (v : Loaded) : Except PyError (List Entry) := do
  let rid ← getFirst v ["id", "cve"] (.text pkgName)
  let level ← levelOf (← getFirst v ["severity"] (.ofString "medium"))
  let desc ← getFirst v ["title", "overview"] (.text rid.pyStr)
  emitDescribed rid desc level (.ofString "package.json") (.int 1)
    (some ⟨.text pkgName, none, none⟩)

/-- `_npm_to_sarif_results`. -/
def npmToSarifResults (report : Loaded) : Except PyError (List Entry) := do
  match ← getFirst report ["vulnerabilities", "advisories"] (.dict []) with
  | .dict vulns => collect (fun p => npmVulnerability p.1 p.2) (vulns.filter fun p => p.2.isDict)
  | _ => return []

omit [Unicode] in
/-- A vulnerability of a dependency in the report of `pip-audit`. -/
def pipVulnerability (pkg v : Loaded) : Except PyError (List Entry) := do
  let rid ← getFirst v ["id"] (.text (str "pip-" ++ pkg.pyStr))
  let desc ← getFirst v ["description"] rid
  emitDescribed rid desc .warning (.ofString "requirements.txt") (.int 1) (some ⟨pkg, none, none⟩)

omit [Unicode] in
/-- `_pip_to_sarif_results`. -/
def pipToSarifResults (report : Loaded) : Except PyError (List Entry) := do
  let deps ← if report.isList then pure report else getFirst report ["dependencies"] (.list [])
  objects deps fun d => do
    let pkg ← d.getOr "name" (.ofString "unknown")
    objects (← getFirst d ["vulns", "vulnerabilities"] (.list [])) (pipVulnerability pkg)

/-- A result of Semgrep. -/
def semgrepResult (r : Loaded) : Except PyError (List Entry) := do
  let rid ← getFirst r ["check_id", "rule_id"] (.ofString "semgrep-rule")
  let extra ← getFirst r ["extra"] (.dict [])
  let level ← levelOf (← getFirst extra ["severity"] (.ofString "warning"))
  let msg ← getFirst extra ["message"] rid
  let path ← r.getOr "path" (.text [])
  let start ← getFirst r ["start"] (.dict [])
  let startLine ← start.get "line"
  let line ← if startLine.truthy then pure startLine else getFirst extra ["line"] (.int 1)
  emitDescribed rid msg level path line none

/-- `_semgrep_to_sarif_results`. -/
def semgrepToSarifResults (report : Loaded) : Except PyError (List Entry) := do
  objects (← getFirst report ["results"] (.list [])) semgrepResult

omit [Unicode] in
/-- A leak that Gitleaks found. -/
def gitleaksFinding (f : Loaded) : Except PyError (List Entry) := do
  let rid ← getFirst f ["RuleID", "ruleId"] (.ofString "gitleaks-secret")
  let path ← getFirst f ["File", "file"] (.text [])
  let line ← getFirst f ["StartLine", "start_line"] (.int 1)
  let desc ← getFirst f ["Description", "description"] (.ofString "Secret detected")
  emitDescribed rid desc .error path line none

omit [Unicode] in
/-- `_gitleaks_to_sarif_results`. -/
def gitleaksToSarifResults (report : Loaded) : Except PyError (List Entry) := do
  let findings ← if report.isList then pure report
    else getFirst report ["findings", "Findings"] (.list [])
  objects findings gitleaksFinding

/-! ### The document -/

/-- A converter, with the name of its tool. -/
def converter (parser : Str) : Option (Str × (Loaded → Str → Except PyError (List Entry))) :=
  if parser = str "trivy" then some (str "Trivy", trivyToSarifResults)
  else if parser = str "grype" then some (str "Grype", grypeToSarifResults)
  else if parser = str "npm_audit" then
    some (str "npm audit", fun report _ => npmToSarifResults report)
  else if parser = str "pip_audit" then
    some (str "pip-audit", fun report _ => pipToSarifResults report)
  else if parser = str "semgrep" then
    some (str "Semgrep", fun report _ => semgrepToSarifResults report)
  else if parser = str "gitleaks" then
    some (str "Gitleaks", fun report _ => gitleaksToSarifResults report)
  else none

omit [Unicode] [ReprText] in
/-- A run: its tool and its results. -/
structure Run where
  tool : Str
  entries : List Entry

/-- The run of a report: none for a report of another tool, or one that is not read, or has no
results. -/
def runOf (assetName parser : Str) (report : Loaded) : Option Run :=
  match converter parser with
  | none => none
  | some (tool, convert) =>
    match convert report assetName with
    | .error _ => none
    | .ok [] => none
    | .ok (e :: entries) => some ⟨tool, e :: entries⟩

/-- The runs of the reports. -/
def runsOf (reports : List (Str × Loaded)) (assetName : Str) : List Run :=
  reports.filterMap fun r => runOf assetName r.1 r.2

omit [Unicode] [ReprText] in
/-- The rules of the results. -/
def rulesOf (entries : List Entry) : Dictionary HashKey Loaded :=
  entries.foldl (fun rules e => rules.set e.key e.rule) .empty

omit [ReprText] in
/-- A run in the document. -/
def Run.value [Sha256] (r : Run) : Loaded :=
  .dict [(str "tool", .dict [(str "driver", .dict [(str "name", .text r.tool),
      (str "rules", .list ((rulesOf r.entries).entries.map Prod.snd))])]),
    (str "results", .list (r.entries.map Entry.result))]

/-- `reports_to_sarif`. -/
def reportsToSarif [Sha256] (reports : List (Str × Loaded)) (assetName : Str) : Loaded :=
  .dict [(str "$schema", .ofString "https://json.schemastore.org/sarif-2.1.0.json"),
    (str "version", .ofString "2.1.0"),
    (str "runs", .list ((runsOf reports assetName).map Run.value))]

/-! ### The rules that are written -/

omit [Unicode] [ReprText] in
/-- The last result with a key. -/
def lastOf (entries : List Entry) (k : HashKey) : Option Entry :=
  entries.reverse.find? fun e => e.key = k

omit [Unicode] [ReprText] in
theorem rulesOf_append_singleton (entries : List Entry) (e : Entry) :
    rulesOf (entries ++ [e]) = (rulesOf entries).set e.key e.rule := by
  rw [rulesOf, List.foldl_append]
  rfl

omit [Unicode] [ReprText] in
/-- The rule that is written for an id is that of the last result with it. -/
theorem get?_rulesOf (entries : List Entry) (k : HashKey) :
    (rulesOf entries).get? k = (lastOf entries k).map Entry.rule := by
  induction entries using List.reverseRecOn with
  | nil => rfl
  | append_singleton entries e ih =>
    rw [rulesOf_append_singleton, Dictionary.get?_set, ih, lastOf, lastOf, List.reverse_append,
      List.reverse_singleton, List.singleton_append, List.find?_cons]
    by_cases hk : k = e.key
    · simp [hk]
    · simp [hk, Ne.symm hk]

omit [Unicode] [ReprText] in
theorem mem_rulesOf {entries : List Entry} {q : HashKey × Loaded}
    (h : q ∈ (rulesOf entries).entries) : ∃ e ∈ entries, q = (e.key, e.rule) := by
  have hget := Dictionary.get?_eq_some_iff.mpr h
  rw [get?_rulesOf] at hget
  obtain ⟨e, he, hrule⟩ := Option.map_eq_some_iff.mp hget
  have hkey : e.key = q.1 := by simpa using List.find?_some he
  exact ⟨e, List.mem_reverse.mp (List.mem_of_find?_eq_some he), by rw [hkey, hrule]⟩

end Writer

end SarifOutput

end Vat
