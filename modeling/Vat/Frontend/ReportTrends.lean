import Vat.Frontend.ReportMetrics

/-!
# The trends of a report

How long closed issues were open, by severity, and how many issues, or groups of them, were open,
closed and found in this and in the last calendar week.

Source: `frontend/lib/report/metrics.ts`, lines 189–207, 451–468, 1200–1255 and 1625–1824.

## Main definitions

* `Frontend.computeMTTR`, `Frontend.computeTrendMetrics`.
-/

namespace Vat

open Keyed

namespace Frontend

section Trends

variable [Unicode] [Js.DateParser]

/-! ### Closed issues -/

omit [Js.DateParser] in
/-- `isClosedDisposition`. -/
def isClosedDisposition (status : Option Str) : Bool :=
  normalizeMetricStatus status ∈ closedStatusKeys

omit [Js.DateParser] in
/-- `isClosedIssue`. -/
def isClosedIssue (issue : ReportIssue) : Bool :=
  Str.truthy issue.closedAt && isClosedDisposition issue.status

/-- How long a closed issue was open, in days, unless its dates cannot be read or are the wrong way
round. -/
def daysOpen (issue : ReportIssue) : Option ℚ :=
  if ¬ isClosedIssue issue ∨ ¬ Str.truthy issue.firstDetectedAt then none
  else
    match dateTime issue.firstDetectedAt, dateTime issue.closedAt with
    | some detected, some closed =>
      if closed < detected ∨ Js.days (closed - detected) < 0 then none
      else some (Js.days (closed - detected))
    | _, _ => none

/-- `raw`: the severity and the group of every closed issue, and its days. -/
def rawDays (issues : List ReportIssue) : List ((SeverityKey × ℤ) × ℚ) :=
  issues.filterMap fun i => (daysOpen i).map fun days => ((i.sev, i.gid), days)

omit [Unicode] [Js.DateParser] in
/-- The lesser of two numbers of days. -/
def fewerDays (prev : Option ℚ) (days : ℚ) : ℚ :=
  match prev with
  | none => days
  | some p => if days < p then days else p

/-- The days of every severity: of each group the fewest in that severity. -/
def daysOf (issues : List ReportIssue) (countMode : CountMode) (sev : SeverityKey) : List ℚ :=
  match countMode with
  | .groups =>
    ((gather Prod.fst (fun prev (e : (SeverityKey × ℤ) × ℚ) => fewerDays prev e.2)
      (rawDays issues)).entries.filter fun e => e.1.1 = sev).map Prod.snd
  | .instances => ((rawDays issues).filter fun e => e.1.1 = sev).map Prod.snd

omit [Unicode] [Js.DateParser] in
/-- `sev.charAt(0).toUpperCase() + sev.slice(1)`. -/
def severityLabel : SeverityKey → Str
  | .critical => str "Critical"
  | .high => str "High"
  | .medium => str "Medium"
  | .low => str "Low"
  | .info => str "Info"

/-- `MTTRData`. -/
structure MttrData where
  severity : Str
  avgDays : ℚ
  medianDays : ℚ
  count : ℕ

omit [Unicode] [Js.DateParser] in
/-- `Math.round(x * 10) / 10`. -/
def toTenths (x : ℚ) : ℚ := Js.double (round (Js.double (x * 10)) / 10)

omit [Unicode] [Js.DateParser] in
/-- The row of a severity, from its days in order. -/
def mttrRow (severity : SeverityKey) (days : List ℚ) : MttrData :=
  let mid := days.length / 2
  { severity := severityLabel severity
    avgDays := toTenths (Js.double (days.foldl (fun s d => Js.double (s + d)) 0 / days.length))
    medianDays := toTenths (if days.length % 2 = 0 then
        Js.double (Js.double (days.getD (mid - 1) 0 + days.getD mid 0) / 2)
      else days.getD mid 0)
    count := days.length }

/-- `computeMTTR`. -/
def computeMTTR (issues : List ReportIssue) (countMode : CountMode) : List MttrData :=
  [SeverityKey.critical, .high, .medium, .low, .info].filterMap fun sev =>
    let days := daysOf issues countMode sev
    if days = [] then none else some (mttrRow sev (days.mergeSort fun a b => a ≤ b))

/-! ### Calendar weeks -/

/-- The first and the last milliseconds of this and of the last calendar week. -/
structure WeekBounds where
  thisWeekStart : ℤ
  thisWeekEnd : ℤ
  lastWeekStart : ℤ
  lastWeekEnd : ℤ

omit [Unicode] [Js.DateParser] in
/-- `getCalendarWeekBoundsUtc`: weeks start on Monday, and 1970 started on a Thursday. -/
def getCalendarWeekBoundsUtc (now : ℤ) : WeekBounds :=
  let date := now / 86400000
  let day := (date + 4) % 7
  let diff := (day - 1 + 7) % 7
  let thisWeekStart := (date - diff) * 86400000
  { thisWeekStart
    thisWeekEnd := thisWeekStart + 7 * 86400000 - 1
    lastWeekStart := thisWeekStart - 7 * 86400000
    lastWeekEnd := thisWeekStart - 1 }

omit [Unicode] [Js.DateParser] in
/-- How many times are in this week, and how many others in the last one. -/
def countWeeks (bounds : WeekBounds) (times : List ℤ) : ℕ × ℕ :=
  let inThis (ts : ℤ) : Bool := bounds.thisWeekStart ≤ ts && ts ≤ bounds.thisWeekEnd
  let inLast (ts : ℤ) : Bool := bounds.lastWeekStart ≤ ts && ts ≤ bounds.lastWeekEnd
  (times.countP inThis, times.countP fun ts => !inThis ts && inLast ts)

omit [Js.DateParser] in
/-- `issuesForTrend`. -/
def issuesForTrend (issues : List ReportIssue) : List ReportIssue :=
  issues.filter fun i => isOpenRisk i.status || Str.truthy i.closedAt

omit [Unicode] in
/-- `openAtDate`. -/
def openAtDate (issues : List ReportIssue) (ts : ℤ) : List ReportIssue :=
  issues.filter fun i =>
    (dateTime i.firstDetectedAt).any (· ≤ ts) &&
      !(Str.truthy i.closedAt && (dateTime i.closedAt).any (· ≤ ts))

/-- How many issues or groups were open at a time. -/
def openCount (issues : List ReportIssue) (countMode : CountMode) (ts : ℤ) : ℕ :=
  match countMode with
  | .groups => (computeSeverityCountsByGroups (openAtDate issues ts)).total
  | .instances => (openAtDate issues ts).length

/-- When an issue was closed. -/
def closedTime (issue : ReportIssue) : Option ℤ :=
  if isClosedIssue issue then dateTime issue.closedAt else none

/-- What is kept of a group: whether all its issues are closed, and the last time one was. -/
structure GroupClosure where
  allClosed : Bool
  latestClosed : Option ℤ

/-- One more issue of a group. -/
def closureStep (prev : Option GroupClosure) (issue : ReportIssue) : GroupClosure :=
  match prev with
  | none => ⟨!issue.isOpen, closedTime issue⟩
  | some p =>
    { allClosed := p.allClosed && !issue.isOpen
      latestClosed :=
        match closedTime issue, p.latestClosed with
        | some ts, some latest => some (if latest < ts then ts else latest)
        | some ts, none => some ts
        | none, latest => latest }

/-- When the issues, or the groups as a whole, were closed. -/
def resolvedTimes (issues : List ReportIssue) (countMode : CountMode) : List ℤ :=
  match countMode with
  | .groups => (gather ReportIssue.gid closureStep (issuesForTrend issues)).values.filterMap
      fun g => if g.allClosed then g.latestClosed else none
  | .instances => (issuesForTrend issues).filterMap closedTime

omit [Js.DateParser] in
/-- `excludeNewStatuses`. -/
def countsAsNew (issue : ReportIssue) : Bool :=
  Unicode.lower (Str.orEmpty issue.status) ∉
    [str "ignored", str "auto_ignored", str "suppressed"]

/-- The groups and the times of first detections. -/
def detections (issues : List ReportIssue) : List (ℤ × ℤ) :=
  (issues.filter countsAsNew).filterMap fun i =>
    (dateTime i.firstDetectedAt).map fun ts => (i.gid, ts)

omit [Unicode] [Js.DateParser] in
/-- The earlier of two times. -/
def earlierTime (prev : Option ℤ) (ts : ℤ) : ℤ :=
  match prev with
  | none => ts
  | some p => if ts < p then ts else p

/-- When the issues, or the first of every group, were detected. -/
def newTimes (issues : List ReportIssue) (countMode : CountMode) : List ℤ :=
  match countMode with
  | .groups => (gather Prod.fst (fun prev (e : ℤ × ℤ) => earlierTime prev e.2)
      (detections issues)).values
  | .instances => (detections issues).map Prod.snd

/-- `TrendMetrics`. -/
structure TrendMetrics where
  currentOpen : ℕ
  openOneWeekAgo : ℕ
  resolvedThisWeek : ℕ
  resolvedLastWeek : ℕ
  newThisWeek : ℕ
  newLastWeek : ℕ

/-- `computeTrendMetrics`. -/
def computeTrendMetrics (now : ℤ) (issues : List ReportIssue) (countMode : CountMode) :
    TrendMetrics :=
  let bounds := getCalendarWeekBoundsUtc now
  let resolved := countWeeks bounds (resolvedTimes issues countMode)
  let new := countWeeks bounds (newTimes issues countMode)
  { currentOpen := openCount (issuesForTrend issues) countMode now
    openOneWeekAgo := openCount (issuesForTrend issues) countMode bounds.lastWeekEnd
    resolvedThisWeek := resolved.1
    resolvedLastWeek := resolved.2
    newThisWeek := new.1
    newLastWeek := new.2 }

end Trends

end Frontend

end Vat
