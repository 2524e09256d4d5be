import Mathlib.Algebra.Order.Round
import Mathlib.Data.Int.Log
import Mathlib.Data.List.Dedup
import Mathlib.Data.Rat.Floor
import Vat.Frontend.ContainerKeys
import Vat.Keyed.Gather

/-!
# The counts of a report

A report counts the open issues, or the groups they form, by severity: in its headline, by scanner,
by age and against the deadlines for their severity. Every one of these functions reads the severity
of an issue and picks the issue that stands for a group by itself.

Source: `frontend/lib/report/metrics.ts`, lines 118–147, 180–187, 225–396, 636–687, 1257–1283 and
1462–1624; `frontend/lib/report/ora.ts`, lines 40–72 and 143–298; `frontend/lib/metricSemantics.ts`,
lines 1–44.

## Main definitions

* `Js.double`, `Js.DateParser`: numbers and dates of JavaScript.
* `Frontend.normalizeSeverity`, `Frontend.isOpenRisk`.
* `Frontend.resolveOpenCounts`: the headline.
* `Frontend.computeScannerBreakdown`, `Frontend.computeAgingBuckets`,
  `Frontend.computeSlaCompliance`, `Frontend.computeABCComplianceForIssues`: the breakdowns.
-/

namespace Vat

open Keyed

/-! ### Numbers and dates -/

namespace Js

/-- The nearest integer, of two the even one. -/
def roundEven (q : ℚ) : ℤ :=
  let n := ⌊q⌋
  if q - n < 1 / 2 then n
  else if 1 / 2 < q - n then n + 1
  else if n % 2 = 0 then n else n + 1

/-- The double of a number, away from overflow and underflow: it has 53 bits. -/
def double (q : ℚ) : ℚ :=
  let ulp : ℚ := 2 ^ (Int.log 2 |q| - 52)
  roundEven (q / ulp) * ulp

/-- `new Date(s).getTime()`, in milliseconds; `none` for NaN, as for the empty text. What is read
besides ISO dates is up to the engine. -/
class DateParser where
  getTime : Str → Option ℤ
  getTime_nil : getTime [] = none

/-- Milliseconds in days: `ms / (1000 * 60 * 60 * 24)`. -/
def days (ms : ℤ) : ℚ := double (double ms / 86400000)

/-- `s.replace(/[...]+/g, " ")`: every longest run of the class becomes one blank. -/
def blankRuns (p : Char → Bool) : Str → Str
  | [] => []
  | [c] => if p c then [' '] else [c]
  | c :: d :: s =>
    if p c then if p d then blankRuns p (d :: s) else ' ' :: blankRuns p (d :: s)
    else c :: blankRuns p (d :: s)

/-- `s.replace(/([a-z])([A-Z])/g, "$1 $2")`. -/
def splitCamel : Str → Str
  | [] => []
  | [c] => [c]
  | c :: d :: s =>
    if c.isLower && d.isUpper then c :: ' ' :: splitCamel (d :: s) else c :: splitCamel (d :: s)

end Js

namespace Frontend

/-! ### Issues -/

/-- A severity of a report, which the sources write in many ways. -/
inductive SeverityKey
  | critical | high | medium | low | info
  deriving DecidableEq, Repr

/-- `severityRank`. -/
def severityRank : SeverityKey → ℕ
  | .critical => 4
  | .high => 3
  | .medium => 2
  | .low => 1
  | .info => 0

theorem severityRank_injective : Function.Injective severityRank := by
  intro s t h
  cases s <;> cases t <;> first | rfl | cases h

/-- What the metrics read of a `VATReportIssue`. -/
structure ReportIssue where
  issueGroupId : Option ℤ
  severity : Option Str
  severityScore : Option ℚ
  status : Option Str
  firstDetectedAt : Option Str
  closedAt : Option Str := none
  cvePublishedAt : Option Str := none
  scannerType : Option Str := none
  repository : Option Str := none
  sourceGroupSeverity : Option Str := none

/-- What the metrics read of a `VATReportIssueGroup`. -/
structure ReportIssueGroup where
  groupId : Option ℤ
  severity : Option Str
  severityScore : Option ℚ
  issueCount : Option ℕ
  affectedRepos : List Str

/-- `issue.issue_group_id ?? 0`. -/
def ReportIssue.gid (issue : ReportIssue) : ℤ := issue.issueGroupId.getD 0

section Text

variable [Unicode]

/-- The body that `normalizeSeverity` and `toSevKey` share. The score decides for a text that
neither knows. -/
def sevKeyOf (severity : Str) (score : Option ℚ) : SeverityKey :=
  let s := Js.trim (Unicode.lower severity)
  if s = str "critical" then .critical
  else if s = str "high" then .high
  else if s = str "medium" ∨ s = str "moderate" then .medium
  else if s = str "low" then .low
  else if s = str "info" ∨ s = str "informational" ∨ s = str "none" then .info
  else
    match score with
    | none => .info
    | some score =>
      if 0 < score then
        if 9 ≤ score then .critical
        else if 7 ≤ score then .high
        else if 4 ≤ score then .medium
        else if Js.double (1 / 10) ≤ score then .low
        else .info
      else .info

/-- `normalizeSeverity`. -/
def normalizeSeverity (severity : Option Str) (score : Option ℚ) : SeverityKey :=
  sevKeyOf (Str.orEmpty severity) score

/-- `toSevKey`. -/
def toSevKey (severity : Str) (score : Option ℚ) : SeverityKey := sevKeyOf severity score

/-- `CLOSED_STATUS_KEYS`. -/
def closedStatusKeys : List Str :=
  [str "resolved", str "false positive", str "duplicate", str "not applicable", str "approved",
    str "suppressed", str "closed", str "ignored", str "auto ignored"]

/-- `normalizeMetricStatus`. -/
def normalizeMetricStatus (status : Option Str) : Str :=
  Unicode.lower (Js.blankRuns Js.isSpace (Js.blankRuns (fun c => c == '_' || c == '-')
    (Js.splitCamel (Js.trim (Str.orEmpty status)))))

/-- `isOpenRisk`. -/
def isOpenRisk (status : Option Str) : Bool :=
  let normalized := normalizeMetricStatus status
  normalized ≠ [] ∧ normalized ∉ closedStatusKeys ∧ normalized ≠ str "risk accepted"

namespace ReportIssue

/-- `isOpen`. -/
def isOpen (issue : ReportIssue) : Bool := isOpenRisk issue.status

/-- The severity that every count reads. -/
def sev (issue : ReportIssue) : SeverityKey := normalizeSeverity issue.severity issue.severityScore

end ReportIssue

end Text

/-! ### Counts by severity -/

/-- Something for each severity from low to critical. -/
structure BySeverity (α : Type*) where
  critical : α
  high : α
  medium : α
  low : α

namespace BySeverity

variable {α β : Type*}

def get? (c : BySeverity α) : SeverityKey → Option α
  | .critical => some c.critical
  | .high => some c.high
  | .medium => some c.medium
  | .low => some c.low
  | .info => none

/-- Informational issues change nothing. -/
def modify (c : BySeverity α) (f : α → α) : SeverityKey → BySeverity α
  | .critical => { c with critical := f c.critical }
  | .high => { c with high := f c.high }
  | .medium => { c with medium := f c.medium }
  | .low => { c with low := f c.low }
  | .info => c

@[simp] theorem get?_info (c : BySeverity α) : c.get? .info = none := rfl

theorem get?_modify (c : BySeverity α) (f : α → α) (s t : SeverityKey) :
    (c.modify f s).get? t = if s = t then (c.get? t).map f else c.get? t := by
  cases s <;> cases t <;> rfl

/-- No issue of any severity. -/
def zero : BySeverity ℕ := ⟨0, 0, 0, 0⟩

/-- `counts[sev]++`. -/
def incr (c : BySeverity ℕ) (s : SeverityKey) : BySeverity ℕ := c.modify (· + 1) s

/-- The number in a column. -/
def column (c : BySeverity ℕ) (s : SeverityKey) : ℕ := (c.get? s).getD 0

/-- The sum of the columns. -/
def total (c : BySeverity ℕ) : ℕ := c.critical + c.high + c.medium + c.low

@[simp] theorem column_zero (s : SeverityKey) : zero.column s = 0 := by cases s <;> rfl

theorem column_incr (c : BySeverity ℕ) {s t : SeverityKey} (ht : t ≠ .info) :
    (c.incr s).column t = c.column t + if s = t then 1 else 0 := by
  cases s <;> cases t <;> first | rfl | exact absurd rfl ht

end BySeverity

/-- `SeverityCounts`. -/
structure SeverityCounts extends BySeverity ℕ where
  info : ℕ

namespace SeverityCounts

def zero : SeverityCounts := ⟨.zero, 0⟩

def incr (c : SeverityCounts) : SeverityKey → SeverityCounts
  | .info => { c with info := c.info + 1 }
  | s => { c with toBySeverity := c.toBySeverity.incr s }

/-- `counts.critical + counts.high + counts.medium + counts.low + counts.info`. -/
def total (c : SeverityCounts) : ℕ := c.critical + c.high + c.medium + c.low + c.info

end SeverityCounts

inductive CountMode
  | groups | instances
  deriving DecidableEq, Repr

section Headline

variable [Unicode]

/-- `computeSeverityCounts`. -/
def computeSeverityCounts (issues : List ReportIssue) : SeverityCounts :=
  issues.foldl (fun acc issue => acc.incr issue.sev) .zero

/-- `computeSeverityCountsByGroups`: a group has the worst severity of its issues. -/
def computeSeverityCountsByGroups (issues : List ReportIssue) : SeverityCounts :=
  let byGroup := gather ReportIssue.gid (fun existing issue =>
    match existing with
    | none => issue.sev
    | some sev => if severityRank sev < severityRank issue.sev then issue.sev else sev) issues
  byGroup.values.foldl SeverityCounts.incr .zero

/-- The counts that come with the data, of all open groups. -/
structure IssueCounts where
  opened : ℕ
  critical : ℕ
  high : ℕ
  medium : ℕ
  low : ℕ

/-- The options of `resolveOpenCounts`. -/
structure OpenCountOptions where
  countMode : CountMode
  issueCounts : Option IssueCounts := none
  issueGroups : List ReportIssueGroup := []
  hasFilters : Bool := false

inductive CountSource
  | issueCounts | computedGroups | computedInstances | computedGroupsFromGroups
  deriving DecidableEq, Repr

structure ResolvedOpenCounts where
  totalOpen : ℕ
  counts : SeverityCounts
  source : CountSource

/-- The severities of the groups that have an open issue, as their metadata has them. -/
def severityCountsOfGroups (openIssues : List ReportIssue) (issueGroups : List ReportIssueGroup) :
    SeverityCounts :=
  let groupIdsInOpenIssues := openIssues.map ReportIssue.gid
  let groupSev : Dictionary ℤ SeverityKey :=
    gather (fun g => g.groupId.getD 0) (fun _ g => normalizeSeverity g.severity g.severityScore)
      (issueGroups.filter fun g => g.groupId.getD 0 ∈ groupIdsInOpenIssues)
  groupSev.values.foldl SeverityCounts.incr .zero

/-- `resolveOpenCounts`. -/
def resolveOpenCounts (openIssues : List ReportIssue) (options : OpenCountOptions) :
    ResolvedOpenCounts :=
  match options.countMode with
  | .instances => ⟨openIssues.length, computeSeverityCounts openIssues, .computedInstances⟩
  | .groups =>
    match options.issueCounts.filter fun c => !options.hasFilters && 0 < c.opened with
    | some c => ⟨c.opened, ⟨⟨c.critical, c.high, c.medium, c.low⟩, 0⟩, .issueCounts⟩
    | none =>
      if options.issueGroups ≠ [] then
        let counts := severityCountsOfGroups openIssues options.issueGroups
        ⟨counts.total, counts, .computedGroupsFromGroups⟩
      else
        let counts := computeSeverityCountsByGroups openIssues
        ⟨counts.total, counts, .computedGroups⟩

omit [Unicode] in
/-- `countTotalIssues`. -/
def countTotalIssues (issues : List ReportIssue) (countMode : CountMode) : ℕ :=
  match countMode with
  | .instances => issues.length
  | .groups => (issues.map ReportIssue.gid).dedup.length

end Headline

/-! ### Ages -/

section Ages

variable [Js.DateParser]

/-- The time of a date that a field may lack. -/
def dateTime (date : Option Str) : Option ℤ := date.bind Js.DateParser.getTime

/-- `safeAge`. -/
def safeAge (now : ℤ) (date : Option Str) : ℤ :=
  match dateTime date with
  | none => 0
  | some ts => if 0 ≤ Js.days (now - ts) then round (Js.days (now - ts)) else 0

/-- `daysSince`. -/
def daysSince (now : ℤ) (date : Option Str) : ℤ :=
  match dateTime date with
  | none => 0
  | some ts => round (Js.days (now - ts))

end Ages

/-! ### By scanner -/

section Breakdowns

variable [Unicode]

/-- The issue that stands for a group: the first of the worst severity. -/
def worst (prev : Option ReportIssue) (issue : ReportIssue) : ReportIssue :=
  match prev with
  | none => issue
  | some p => if severityRank p.sev < severityRank issue.sev then issue else p

/-- The issues that stand for what is counted. -/
def worstIssues (issues : List ReportIssue) : CountMode → List ReportIssue
  | .groups => (gather ReportIssue.gid worst issues).values
  | .instances => issues

/-- A row of the breakdown by scanner. -/
structure ScannerBreakdown where
  scanner : Str
  count : ℕ
  columns : BySeverity ℕ

def ScannerBreakdown.add (e : ScannerBreakdown) (issue : ReportIssue) : ScannerBreakdown :=
  { e with count := e.count + 1, columns := e.columns.incr issue.sev }

omit [Unicode] in
/-- `issue.scanner_type || "Unknown"`. -/
def ReportIssue.scanner (issue : ReportIssue) : Str :=
  if Str.truthy issue.scannerType then Str.orEmpty issue.scannerType else str "Unknown"

/-- `computeScannerBreakdown`. -/
def computeScannerBreakdown (issues : List ReportIssue) (countMode : CountMode) :
    List ScannerBreakdown :=
  let map := gather ReportIssue.scanner (fun e issue =>
    (e.getD ⟨issue.scanner, 0, .zero⟩).add issue) (worstIssues issues countMode)
  map.values.mergeSort fun a b => b.count ≤ a.count

/-! ### By age -/

variable [Js.DateParser]

structure AgingBucket where
  range : Str
  columns : BySeverity ℕ

/-- The buckets of no issue. -/
def agingBuckets : List AgingBucket :=
  [⟨str "0-7d", .zero⟩, ⟨str "8-30d", .zero⟩, ⟨str "31-90d", .zero⟩, ⟨str "91-180d", .zero⟩,
    ⟨str "180d+", .zero⟩]

def agingIndex (age : ℤ) : ℕ :=
  if age ≤ 7 then 0 else if age ≤ 30 then 1 else if age ≤ 90 then 2 else if age ≤ 180 then 3 else 4

/-- One issue put into its bucket. -/
def addToBuckets (now : ℤ) (buckets : List AgingBucket) (issue : ReportIssue) : List AgingBucket :=
  if issue.sev = .info then buckets
  else buckets.modify (agingIndex (safeAge now issue.firstDetectedAt)) fun b =>
    { b with columns := b.columns.incr issue.sev }

/-- The issues that the loop over the ages does not skip: of a group the first. -/
def firstIssues (issues : List ReportIssue) : CountMode → List ReportIssue
  | .groups => unseen ReportIssue.gid [] issues
  | .instances => issues

/-- `computeAgingBuckets`. -/
def computeAgingBuckets (now : ℤ) (issues : List ReportIssue) (countMode : CountMode) :
    List AgingBucket :=
  (firstIssues (issues.filter ReportIssue.isOpen) countMode).foldl (addToBuckets now) agingBuckets

/-! ### Against the deadlines -/

/-- The days that the configuration may set. -/
structure SlaConfig where
  criticalDays : Option ℚ := none
  highDays : Option ℚ := none
  mediumDays : Option ℚ := none
  lowDays : Option ℚ := none

omit [Unicode] [Js.DateParser] in
/-- `slaBySeverity`, over `ABC_SLA_DAYS`. -/
def SlaConfig.limit (config : SlaConfig) : SeverityKey → ℚ
  | .critical => config.criticalDays.getD 15
  | .high => config.highDays.getD 35
  | .medium => config.mediumDays.getD 180
  | .low => config.lowDays.getD 360
  | .info => 365

/-- What the loop over the deadlines keeps of a group. -/
structure SlaGroup where
  rep : ReportIssue
  earliestDetectedAt : Option Str

omit [Unicode] in
/-- The earlier of two dates. One that cannot be read is never replaced by a later one: in the
comparison it counts as the start of 1970. -/
def earlierDate (earliest first : Option Str) : Option Str :=
  if Str.truthy earliest then
    match dateTime first with
    | none => earliest
    | some ts => if ts < (dateTime earliest).getD 0 then first else earliest
  else first

/-- One more issue of a group. -/
def slaStep (prev : Option SlaGroup) (issue : ReportIssue) : SlaGroup :=
  { rep := worst (prev.map SlaGroup.rep) issue
    earliestDetectedAt :=
      earlierDate (prev.bind SlaGroup.earliestDetectedAt) issue.firstDetectedAt }

/-- The severities and ages that are held against the deadlines. -/
def evaluables (now : ℤ) (opened : List ReportIssue) : CountMode → List (SeverityKey × ℤ)
  | .groups => (gather ReportIssue.gid slaStep opened).values.map fun g =>
      (g.rep.sev, safeAge now (g.earliestDetectedAt.or g.rep.firstDetectedAt))
  | .instances => opened.map fun issue => (issue.sev, safeAge now issue.firstDetectedAt)

structure SlaRow where
  within : ℕ
  exceeding : ℕ

structure SlaComplianceResult where
  withinSla : ℕ
  exceedingSla : ℕ
  total : ℕ
  pctCompliant : ℤ
  bySeverity : List (SeverityKey × SlaRow)

omit [Unicode] [Js.DateParser] in
def SlaRow.add (row : SlaRow) (compliant : Bool) : SlaRow :=
  if compliant then { row with within := row.within + 1 }
  else { row with exceeding := row.exceeding + 1 }

/-- `computeSlaCompliance`. -/
def computeSlaCompliance (now : ℤ) (issues : List ReportIssue) (config : SlaConfig)
    (countMode : CountMode) : SlaComplianceResult :=
  let held := (evaluables now (issues.filter ReportIssue.isOpen) countMode).map fun e =>
    (e.1, decide ((e.2 : ℚ) ≤ config.limit e.1))
  let withinSla := held.countP Prod.snd
  let exceedingSla := held.countP fun e => !e.2
  let total := withinSla + exceedingSla
  let bySev : Dictionary SeverityKey SlaRow :=
    gather Prod.fst (fun row e => (row.getD ⟨0, 0⟩).add e.2) held
  { withinSla, exceedingSla, total
    pctCompliant :=
      if 0 < total then round (Js.double (Js.double (withinSla / total) * 100)) else 100
    bySeverity := [SeverityKey.critical, .high, .medium, .low, .info].filterMap fun s =>
      ((bySev.get? s).filter fun row => 0 < row.within + row.exceeding).map fun row => (s, row) }

/-! ### The acceptance baseline -/

structure AbcIssueInput where
  severity : Str
  severityScore : Option ℚ
  firstDetectedAt : Str
  cvePublishedAt : Option Str
  status : Str

omit [Unicode] [Js.DateParser] in
def ReportIssue.abcInput (i : ReportIssue) : AbcIssueInput where
  severity := Str.orEmpty i.severity
  severityScore := i.severityScore
  firstDetectedAt := Str.orEmpty i.firstDetectedAt
  cvePublishedAt := i.cvePublishedAt
  status := Str.orEmpty i.status

structure AbcEntry where
  count : ℕ
  maxCount : Option ℕ
  justificationOverdue : ℕ
  remediationOverdue : ℕ
  cveAgeExceeded : ℕ

/-- `ABC_MAX_COUNTS`. -/
def abcMaxCounts : BySeverity (Option ℕ) := ⟨some 1, some 4, none, none⟩

/-- `ABC_JUSTIFICATION_DAYS`. -/
def abcJustificationDays : BySeverity ℤ := ⟨5, 10, 30, 60⟩

/-- `ABC_REMEDIATION_DAYS`. -/
def abcRemediationDays : BySeverity ℤ := ⟨15, 35, 180, 360⟩

/-- `ABC_CVE_AGE_TOLERANCE_DAYS`. -/
def abcCveAgeToleranceDays : BySeverity (Option ℤ) := ⟨some 90, some 180, none, none⟩

/-- Which deadlines of its severity a finding has missed. -/
structure AbcOverdue where
  justification : Bool
  remediation : Bool
  cveAge : Bool

structure AbcCriteriaResult where
  compliant : Bool
  criticalCountExceeded : Bool
  highCountExceeded : Bool
  justificationOverdue : ℕ
  remediationOverdue : ℕ
  cveAgeExceeded : ℕ
  bySeverity : BySeverity AbcEntry

omit [Unicode] in
def AbcIssueInput.overdue (now : ℤ) (i : AbcIssueInput) (sev : SeverityKey) : AbcOverdue :=
  let daysSinceDetection := daysSince now (some i.firstDetectedAt)
  let cveAge :=
    if Str.truthy i.cvePublishedAt then daysSince now i.cvePublishedAt else daysSinceDetection
  { justification := (abcJustificationDays.get? sev).any (· < daysSinceDetection)
    remediation := (abcRemediationDays.get? sev).any (· < daysSinceDetection)
    cveAge := ((abcCveAgeToleranceDays.get? sev).bind id).any (· < cveAge) }

omit [Unicode] [Js.DateParser] in
def AbcEntry.add (entry : AbcEntry) (overdue : AbcOverdue) : AbcEntry where
  count := entry.count + 1
  maxCount := entry.maxCount
  justificationOverdue := entry.justificationOverdue + overdue.justification.toNat
  remediationOverdue := entry.remediationOverdue + overdue.remediation.toNat
  cveAgeExceeded := entry.cveAgeExceeded + overdue.cveAge.toNat

def AbcEntry.zero (maxCount : Option ℕ) : AbcEntry := ⟨0, maxCount, 0, 0, 0⟩

/-- The findings that the baseline counts, with their severities and the deadlines they have
missed. -/
def abcCounted (now : ℤ) (issues : List AbcIssueInput) : List (SeverityKey × AbcOverdue) :=
  ((issues.filter fun i => isOpenRisk (some i.status)).map fun i =>
    (toSevKey i.severity i.severityScore,
      i.overdue now (toSevKey i.severity i.severityScore))).filter fun e => e.1 ≠ .info

/-- `computeABCCompliance`. -/
def computeABCCompliance (now : ℤ) (issues : List AbcIssueInput) : AbcCriteriaResult :=
  let counted := abcCounted now issues
  let bySev := counted.foldl (fun d e => d.modify (·.add e.2) e.1)
    (⟨.zero abcMaxCounts.critical, .zero abcMaxCounts.high, .zero none, .zero none⟩ :
      BySeverity AbcEntry)
  let justificationOverdue := counted.countP (·.2.justification)
  let remediationOverdue := counted.countP (·.2.remediation)
  let cveAgeExceeded := counted.countP (·.2.cveAge)
  let criticalCountExceeded := abcMaxCounts.critical.any (· < bySev.critical.count)
  let highCountExceeded := abcMaxCounts.high.any (· < bySev.high.count)
  { compliant := !criticalCountExceeded && !highCountExceeded && justificationOverdue = 0 &&
      remediationOverdue = 0 && cveAgeExceeded = 0
    criticalCountExceeded, highCountExceeded
    justificationOverdue, remediationOverdue, cveAgeExceeded
    bySeverity := bySev }

/-- `computeABCComplianceForIssues`. -/
def computeABCComplianceForIssues (now : ℤ) (issues : List ReportIssue) (countMode : CountMode) :
    AbcCriteriaResult :=
  computeABCCompliance now
    ((worstIssues (issues.filter ReportIssue.isOpen) countMode).map ReportIssue.abcInput)

end Breakdowns

end Frontend

end Vat
