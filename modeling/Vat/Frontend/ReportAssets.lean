import Vat.Frontend.ReportMetrics
import Vat.Keyed.GatherOrder

/-!
# The assets of a report

A report counts the open issues by the kind of the asset they are about, and weighs them for every
repository and every container. An issue names its asset in its own words; a name matches another
when one is the last part of the other. Containers that only issues name are added to the list.

Source: `frontend/lib/report/metrics.ts`, lines 689–1088; `frontend/lib/report/ora.ts`, lines 17–38
and 74–105.

## Main definitions

* `Frontend.issueMatchesRepo`, `Frontend.getEffectiveContainers`.
* `Frontend.computeAssetMix`, `Frontend.computeRepoRiskScores`,
  `Frontend.computeContainerRiskScores`.
-/

namespace Vat

open Keyed

namespace Frontend

section Assets

variable [Unicode]

/-! ### Names -/

/-- `(name ?? "").trim().toLowerCase()`. -/
def assetName (name : Option Str) : Str := Unicode.lower (Js.trim (Str.orEmpty name))

/-- The body that `issueMatchesRepo` and `issueMatchesContainer` share: two names in lower case, of
which one is the other or its last part. -/
def namesMatch (a b : Str) : Bool :=
  a ≠ [] ∧ b ≠ [] ∧ (a = b ∨ ('/' :: b) <:+ a ∨ ('/' :: a) <:+ b)

/-- `issueMatchesRepo`. -/
def issueMatchesRepo (issueRepo : Option Str) (repoName : Str) : Bool :=
  namesMatch (assetName issueRepo) (assetName (some repoName))

/-- `issueMatchesContainer`. -/
def issueMatchesContainer (issueRepo : Option Str) (containerName : Str) : Bool :=
  namesMatch (assetName issueRepo) (assetName (some containerName))

/-- `resolveToTrackedRepoName`. -/
def resolveToTrackedRepoName (issueRepo : Option Str) (repos : List Str) : Option Str :=
  if Js.trim (Str.orEmpty issueRepo) = [] then none
  else repos.find? fun r => issueMatchesRepo issueRepo r

/-- `filterIssuesToTrackedRepos`. -/
def filterIssuesToTrackedRepos (issues : List ReportIssue) (repos : List Str) : List ReportIssue :=
  if repos = [] then issues
  else issues.filter fun i => (resolveToTrackedRepoName i.repository repos).isSome

/-! ### The asset mix -/

/-- `looksLikePackageOrPath`. -/
def looksLikePackageOrPath (repo : Str) : Bool :=
  let s := Unicode.lower repo
  Str.startsWith s (str "/") || Str.startsWith s (str "file:/") ||
    (["npm:", "maven:", "pypi:", "cargo:", "go:", "nuget:", "composer:"].any fun p =>
      Str.startsWith s (str p)) ||
    ('@' ∈ s && '/' ∉ s) || ('/' ∉ s && ':' ∉ s)

inductive AssetCategory
  | code | container | vm | package | other
  deriving DecidableEq, Repr

/-- `AssetMix`. -/
structure AssetMix where
  code : ℕ
  container : ℕ
  vm : ℕ
  package : ℕ
  other : ℕ

/-- The assets that an issue is looked up among, by name. -/
structure TrackedAssets where
  repos : List Str
  containers : List Str
  vms : List Str
  packageRepos : List Str

/-- The category of the asset of an issue: the first list with a match, or else a guess. -/
def TrackedAssets.category (tracked : TrackedAssets) (issue : ReportIssue) : AssetCategory :=
  let repo := Js.trim (Str.orEmpty issue.repository)
  if repo = [] then .other
  else if tracked.repos.any (issueMatchesRepo (some repo)) then .code
  else if tracked.containers.any (issueMatchesContainer (some repo)) then .container
  else if tracked.vms.any (issueMatchesRepo (some repo)) then .vm
  else if tracked.packageRepos.any (issueMatchesRepo (some repo)) then .package
  else if looksLikePackageOrPath repo then .package
  else .other

/-- `computeAssetMix`. -/
def computeAssetMix (issues : List ReportIssue) (tracked : TrackedAssets) (countMode : CountMode) :
    AssetMix :=
  let categories := (firstIssues (issues.filter ReportIssue.isOpen) countMode).map tracked.category
  { code := categories.count .code
    container := categories.count .container
    vm := categories.count .vm
    package := categories.count .package
    other := categories.count .other }

/-! ### Penalties -/

/-- Something in each column, made of something else. -/
def BySeverity.map {α β : Type*} (f : α → β) (c : BySeverity α) : BySeverity β :=
  ⟨f c.critical, f c.high, f c.medium, f c.low⟩

omit [Unicode] in
/-- `computeORAPenalty`; every term is a multiple of 1/8, and exact. -/
def computeORAPenalty (counts mitigatedCounts : BySeverity ℚ) : ℚ :=
  counts.critical * 10 + mitigatedCounts.critical * 10 * (1 / 2) +
    counts.high * 4 + mitigatedCounts.high * 4 * (1 / 2) +
    min (counts.medium * (1 / 2) + mitigatedCounts.medium * (1 / 2) * (1 / 2)) 30 +
    min (counts.low * (1 / 4) + mitigatedCounts.low * (1 / 4) * (1 / 2)) 10

/-- `isMitigated`. -/
def ReportIssue.isMitigated (issue : ReportIssue) : Bool :=
  Unicode.lower (Str.orEmpty issue.status) = str "mitigated"

/-- `groupedSeverity`. -/
def ReportIssue.groupedSeverity (issue : ReportIssue) : SeverityKey :=
  normalizeSeverity (issue.sourceGroupSeverity.or issue.severity) issue.severityScore

/-- What is kept of a group: its worst severity, and whether an issue of that severity is
mitigated. -/
abbrev Weighed := SeverityKey × Bool

omit [Unicode] in
/-- One more issue of a group. -/
def worstWeighed (existing : Option Weighed) (new : Weighed) : Weighed :=
  match existing with
  | none => new
  | some e =>
    if severityRank e.1 < severityRank new.1 then new
    else if severityRank new.1 = severityRank e.1 then (e.1, e.2 || new.2)
    else e

/-- What a repository or a container is weighed by. -/
structure RiskTally where
  total : ℕ
  /-- What is not mitigated, by severity. -/
  counts : BySeverity ℕ
  mitigated : BySeverity ℕ

omit [Unicode] in
def RiskTally.zero : RiskTally := ⟨0, .zero, .zero⟩

omit [Unicode] in
def RiskTally.add (t : RiskTally) (w : Weighed) : RiskTally :=
  if w.2 then { t with total := t.total + 1, mitigated := t.mitigated.incr w.1 }
  else { t with total := t.total + 1, counts := t.counts.incr w.1 }

/-- The groups of some issues that are not informational. -/
def weighedGroups (issues : List ReportIssue) : List Weighed :=
  (gather ReportIssue.gid (fun existing (issue : ReportIssue) =>
    worstWeighed existing (issue.groupedSeverity, issue.isMitigated))
    (issues.filter fun i => i.groupedSeverity ≠ .info)).values

/-- What is weighed of some issues, one by one or by group. -/
def weighed (countMode : CountMode) (issues : List ReportIssue) : List Weighed :=
  match countMode with
  | .groups => weighedGroups issues
  | .instances => issues.map fun i => (i.sev, i.isMitigated)

def riskTally (countMode : CountMode) (issues : List ReportIssue) : RiskTally :=
  (weighed countMode issues).foldl RiskTally.add .zero

/-! ### Repositories -/

/-- What is counted for a repository. -/
structure RepoEntry where
  total : ℕ
  columns : BySeverity ℕ

omit [Unicode] in
def RepoEntry.zero : RepoEntry := ⟨0, .zero⟩

/-- `RepoRiskScore`. -/
structure RepoRiskScore where
  repo : Str
  score : ℚ
  total : ℕ
  columns : BySeverity ℕ

/-- The repository that an issue is counted for. -/
def repoOf (repos : List Str) (issue : ReportIssue) : Str :=
  if repos ≠ [] then (resolveToTrackedRepoName issue.repository repos).getD (str "Unassigned")
  else if Str.truthy issue.repository then Str.orEmpty issue.repository
  else str "Unassigned"

/-- The issues of every repository: what the loops keep for one is made of them alone. -/
def issuesByRepo (repos : List Str) (issues : List ReportIssue) :
    Dictionary Str (List ReportIssue) :=
  gather (repoOf repos) (fun own issue => own.getD [] ++ [issue])
    (filterIssuesToTrackedRepos (issues.filter ReportIssue.isOpen) repos)

omit [Unicode] in
/-- How often a group counts; `||` also replaces a zero. -/
def ReportIssueGroup.repoCount (g : ReportIssueGroup) : CountMode → ℕ
  | .groups => 1
  | .instances => if g.issueCount.getD 0 = 0 then 1 else g.issueCount.getD 0

/-- The entries of the repositories that the groups name. -/
def groupEntries (issueGroups : List ReportIssueGroup) (countMode : CountMode) :
    Dictionary Str RepoEntry :=
  gather Prod.fst (fun e (p : Str × ReportIssueGroup) =>
    { total := (e.getD .zero).total + p.2.repoCount countMode
      columns := (e.getD .zero).columns.modify (· + p.2.repoCount countMode)
        (normalizeSeverity p.2.severity p.2.severityScore) })
    (issueGroups.flatMap fun g =>
      (if g.affectedRepos ≠ [] then g.affectedRepos else [str "Unassigned"]).map (·, g))

/-- `repoMap`, before the repositories without issues are added: when no issue names a repository,
the groups may. -/
def repoEntries (issues : List ReportIssue) (repos : List Str)
    (issueGroups : List ReportIssueGroup) (countMode : CountMode) : Dictionary Str RepoEntry :=
  let byRepo := issuesByRepo repos issues
  if (byRepo.keys = [] ∨ byRepo.keys = [str "Unassigned"]) ∧ issueGroups ≠ [] then
    groupEntries issueGroups countMode
  else
    byRepo.mapValues fun own => ⟨(riskTally countMode own).total, (riskTally countMode own).counts⟩

omit [Unicode] in
/-- `for (const repo of repos) ensureRepo(repo.name)`. -/
def ensureRepos (repos : List Str) (entries : Dictionary Str RepoEntry) :
    Dictionary Str RepoEntry :=
  repos.foldl (fun d name => if (d.get? name).isSome then d else d.set name .zero) entries

/-- `repoMitigated`; it is not cleared when the groups replace the entries. -/
def repoMitigated (issues : List ReportIssue) (repos : List Str) (countMode : CountMode)
    (repo : Str) : BySeverity ℕ :=
  ((issuesByRepo repos issues).get? repo).elim .zero fun own => (riskTally countMode own).mitigated

/-- `computeRepoRiskScores`. -/
def computeRepoRiskScores (issues : List ReportIssue) (repos : List Str)
    (issueGroups : List ReportIssueGroup) (countMode : CountMode) : List RepoRiskScore :=
  let rows := (ensureRepos repos (repoEntries issues repos issueGroups countMode)).entries.map
    fun e =>
      { repo := e.1
        score := computeORAPenalty (e.2.columns.map Nat.cast)
          ((repoMitigated issues repos countMode e.1).map Nat.cast)
        total := e.2.total
        columns := e.2.columns : RepoRiskScore }
  rows.mergeSort fun a b => b.score ≤ a.score

/-! ### Containers -/

/-- The container that an issue names, unless it is a repository or a container that is known. -/
def candidateContainer (containers codeRepos : List Str) (issue : ReportIssue) : Option Str :=
  let r := Js.trim (Str.orEmpty issue.repository)
  if r = [] then none
  else if codeRepos.any (issueMatchesRepo (some r)) then none
  else if Unicode.lower r ∈ containers.map Unicode.lower then none
  else if containers.any (issueMatchesContainer (some r)) then none
  else some r

/-- A container that was derived before stands for another name. -/
def standsFor (r derived : Str) : Bool :=
  Unicode.lower r = Unicode.lower derived || issueMatchesContainer (some r) derived

/-- The containers that only issues name. -/
def derivedContainers (containers : List Str) (issues : List ReportIssue) (codeRepos : List Str) :
    List Str :=
  takeFirst standsFor
    ((issues.filter ReportIssue.isOpen).filterMap (candidateContainer containers codeRepos))

/-- `getEffectiveContainers`. -/
def getEffectiveContainers (containers : List Str) (issues : List ReportIssue)
    (codeRepos : List Str) : List Str :=
  let derived := derivedContainers containers issues codeRepos
  if containers = [] ∧ derived ≠ [] then derived else containers ++ derived

/-- `ContainerRiskScore`. -/
structure ContainerRiskScore where
  repo : Str
  score : ℚ
  columns : BySeverity ℕ
  total : ℕ

omit [Unicode] in
def ReportIssueGroup.containerCount (g : ReportIssueGroup) : CountMode → ℕ
  | .groups => 1
  | .instances => g.issueCount.getD 1

/-- The columns of a container from the groups that affect it. -/
def groupColumns (issueGroups : List ReportIssueGroup) (countMode : CountMode) (container : Str) :
    BySeverity ℕ :=
  (issueGroups.filter fun g => g.affectedRepos.any fun r =>
    issueMatchesContainer (some r) container).foldl (fun c g =>
      c.modify (· + g.containerCount countMode)
        (normalizeSeverity g.severity g.severityScore)) .zero

/-- The row of a container. Its columns are taken from the groups only without any issue. -/
def containerRow (issues : List ReportIssue) (issueGroups : List ReportIssueGroup)
    (countMode : CountMode) (container : Str) : ContainerRiskScore :=
  let t := riskTally countMode ((issues.filter ReportIssue.isOpen).filter fun i =>
    issueMatchesContainer i.repository container)
  let own : BySeverity ℕ :=
    { critical := t.counts.critical + t.mitigated.critical
      high := t.counts.high + t.mitigated.high
      medium := t.counts.medium + t.mitigated.medium
      low := t.counts.low + t.mitigated.low }
  let columns :=
    if issues = [] ∧ own.total = 0 ∧ issueGroups ≠ [] then
      groupColumns issueGroups countMode container
    else own
  { repo := container
    score := computeORAPenalty
      { critical := columns.critical - t.mitigated.critical
        high := columns.high - t.mitigated.high
        medium := columns.medium - t.mitigated.medium
        low := columns.low - t.mitigated.low } (t.mitigated.map Nat.cast)
    columns := columns
    total := columns.total }

/-- `computeContainerRiskScores`. -/
def computeContainerRiskScores (containers : List Str) (issues : List ReportIssue)
    (issueGroups : List ReportIssueGroup) (countMode : CountMode) (codeRepos : List Str) :
    List ContainerRiskScore :=
  ((getEffectiveContainers containers issues codeRepos).map
    (containerRow issues issueGroups countMode)).mergeSort fun a b => b.score ≤ a.score

end Assets

end Frontend

end Vat
