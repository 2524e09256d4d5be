import Mathlib.Algebra.Order.BigOperators.Group.List
import Vat.Frontend.ReportMetrics

/-!
# The breakdowns of a report against its headline

Every breakdown counts, in each severity, what the headline counts, and all of it once. The one by
age does not where it keeps another issue of a group than the others do: it keeps the first, the
others the worst.

Source: `frontend/lib/report/metrics.ts`, lines 118–147, 225–396, 636–687, 1257–1283 and 1462–1624;
`frontend/lib/report/ora.ts`, lines 169–298.

## Main definitions

* `Frontend.Reconciles`: the breakdowns against the headline.
* `Frontend.FirstIsWorst`: of the open issues of a group, the first has the worst severity.

## Main results

* `Frontend.reconciles_iff`: the breakdowns reconcile with the headline exactly if groups are not
  counted or the first issue of each is the worst.
-/

namespace Vat

open Keyed

namespace Frontend

variable {α : Type*} {a b : α → SeverityKey} {l : List α}

/-! ### Tallies -/

/-- How often each severity comes. -/
def tally (sevs : List SeverityKey) : SeverityCounts := sevs.foldl SeverityCounts.incr .zero

theorem column_foldl_incr (sevs : List SeverityKey) (c : SeverityCounts) {s : SeverityKey}
    (hs : s ≠ .info) :
    (sevs.foldl SeverityCounts.incr c).column s = c.column s + sevs.count s := by
  induction sevs generalizing c with
  | nil => rfl
  | cons t sevs ih =>
    have hincr : (c.incr t).column s = c.column s + if t = s then 1 else 0 := by
      cases t with
      | info =>
        rw [if_neg (Ne.symm hs)]
        rfl
      | _ => exact c.column_incr hs
    rw [List.foldl_cons, ih, hincr, List.count_cons, beq_eq_decide]
    simp only [decide_eq_true_eq]
    omega

theorem total_foldl_incr (sevs : List SeverityKey) (c : SeverityCounts) :
    (sevs.foldl SeverityCounts.incr c).total = c.total + sevs.length := by
  induction sevs generalizing c with
  | nil => rfl
  | cons t sevs ih =>
    have hincr : (c.incr t).total = c.total + 1 := by
      cases t <;> simp [SeverityCounts.incr, SeverityCounts.total, BySeverity.incr,
        BySeverity.modify] <;> omega
    rw [List.foldl_cons, ih, hincr, List.length_cons]
    omega

theorem column_tally (sevs : List SeverityKey) {s : SeverityKey} (hs : s ≠ .info) :
    (tally sevs).column s = sevs.count s := by
  rw [tally, column_foldl_incr _ _ hs]
  exact (congrArg (· + _) (BySeverity.column_zero s)).trans (Nat.zero_add _)

theorem total_tally (sevs : List SeverityKey) : (tally sevs).total = sevs.length :=
  (total_foldl_incr sevs .zero).trans (Nat.zero_add _)

theorem sum_map_ite_eq_count (a : α → SeverityKey) (l : List α) (s : SeverityKey) :
    (l.map fun x => if a x = s then 1 else 0).sum = (l.map a).count s := by
  induction l with
  | nil => rfl
  | cons x l ih =>
    rw [List.map_cons, List.map_cons, List.sum_cons, List.count_cons, beq_eq_decide, ih]
    simp only [decide_eq_true_eq]
    omega

theorem sum_map_modify (m : α → ℕ) (f : α → α) {d : ℕ} (hf : ∀ x, m (f x) = m x + d)
    {i : ℕ} (hi : i < l.length) :
    ((l.modify i f).map m).sum = (l.map m).sum + d := by
  induction l generalizing i with
  | nil => cases hi
  | cons x l ih =>
    cases i with
    | zero =>
      rw [List.modify_zero_cons, List.map_cons, List.map_cons, List.sum_cons, List.sum_cons, hf]
      omega
    | succ i =>
      rw [List.modify_succ_cons, List.map_cons, List.map_cons, List.sum_cons, List.sum_cons,
        ih (Nat.lt_of_succ_lt_succ hi)]
      omega

/-! ### Two readings of the severity of the same things -/

/-- The ranks of severities add up to a weighted sum of how often each severity comes. -/
theorem sum_severityRank (sevs : List SeverityKey) : (sevs.map severityRank).sum =
    sevs.count .low + 2 * sevs.count .medium + 3 * sevs.count .high + 4 * sevs.count .critical := by
  induction sevs with
  | nil => rfl
  | cons s sevs ih =>
    rw [List.map_cons, List.sum_cons, ih]
    cases s <;> simp [severityRank] <;> omega

theorem sum_map_eq_iff_of_le {m n : α → ℕ} (hle : ∀ x ∈ l, m x ≤ n x) :
    (l.map m).sum = (l.map n).sum ↔ ∀ x ∈ l, m x = n x := by
  induction l with
  | nil => simp
  | cons x l ih =>
    have hl : ∀ y ∈ l, m y ≤ n y := fun y hy => hle y (List.mem_cons_of_mem x hy)
    have hx := hle x List.mem_cons_self
    have hsum := List.sum_le_sum hl
    rw [List.forall_mem_cons, ← ih hl, List.map_cons, List.map_cons, List.sum_cons, List.sum_cons]
    omega

/-- Of two readings, one of which never gives a worse severity, the counts are the same exactly if
the readings are. -/
theorem counts_eq_iff_of_le (hle : ∀ x ∈ l, severityRank (a x) ≤ severityRank (b x)) :
    (∀ s, s ≠ .info → (l.map a).count s = (l.map b).count s) ↔ ∀ x ∈ l, a x = b x := by
  constructor
  · intro h
    have hsum : ((l.map a).map severityRank).sum = ((l.map b).map severityRank).sum := by
      rw [sum_severityRank, sum_severityRank, h .low nofun, h .medium nofun, h .high nofun,
        h .critical nofun]
    rw [List.map_map, List.map_map] at hsum
    intro x hx
    exact severityRank_injective ((sum_map_eq_iff_of_le hle).mp hsum x hx)
  · intro h s _
    rw [List.map_congr_left h]

section Breakdowns

variable [Unicode] {issues : List ReportIssue} {mode : CountMode} {s : SeverityKey}

/-! ### The headline -/

theorem computeSeverityCounts_eq (issues : List ReportIssue) :
    computeSeverityCounts issues = tally (issues.map ReportIssue.sev) := by
  rw [computeSeverityCounts, tally, List.foldl_map]

theorem computeSeverityCountsByGroups_eq (issues : List ReportIssue) :
    computeSeverityCountsByGroups issues =
      tally ((worstIssues issues .groups).map ReportIssue.sev) := by
  rw [computeSeverityCountsByGroups, tally, worstIssues, map_gather]
  rintro (_ | p) i
  · rfl
  · rw [worst, Option.map_some]
    dsimp only
    split_ifs <;> rfl

/-- Without counts of its own the headline is a tally of the issues that stand for the groups. -/
theorem resolveOpenCounts_eq (issues : List ReportIssue) (mode : CountMode) (hasFilters : Bool) :
    (resolveOpenCounts issues { countMode := mode, hasFilters := hasFilters }).counts =
        tally ((worstIssues issues mode).map ReportIssue.sev) ∧
      (resolveOpenCounts issues { countMode := mode, hasFilters := hasFilters }).totalOpen =
        (worstIssues issues mode).length := by
  cases mode with
  | instances => exact ⟨computeSeverityCounts_eq issues, rfl⟩
  | groups =>
    have h := computeSeverityCountsByGroups_eq issues
    refine ⟨h, ?_⟩
    have htotal : (computeSeverityCountsByGroups issues).total =
        (worstIssues issues .groups).length := by
      rw [h, total_tally, List.length_map]
    exact htotal

theorem length_worstIssues (issues : List ReportIssue) (mode : CountMode) :
    (worstIssues issues mode).length = countTotalIssues issues mode := by
  cases mode with
  | instances => rfl
  | groups => exact length_values_gather

/-! ### The issues that stand for a group -/

theorem worst_eq_firstBest : worst = firstBest fun i => severityRank i.sev := by
  ext v i
  cases v <;> rfl

/-- The issue that stands for a group is one of its issues, and none is worse. -/
theorem worst_spec {i : ReportIssue} (h : gathered worst issues = some i) :
    IsBest (fun j => severityRank j.sev) issues i := by
  rw [worst_eq_firstBest] at h
  exact isBest_of_gathered_firstBest h

theorem mem_of_mem_worstIssues {i : ReportIssue} (h : i ∈ worstIssues issues mode) :
    i ∈ issues := by
  cases mode with
  | instances => exact h
  | groups =>
    obtain ⟨g, hg⟩ := Dictionary.mem_values_iff.mp h
    rw [get?_gather] at hg
    exact List.mem_of_mem_filter (worst_spec hg).1

/-- The first issue of a group and the one that stands for it. -/
def firstAndWorst (prev : Option (ReportIssue × ReportIssue)) (issue : ReportIssue) :
    ReportIssue × ReportIssue :=
  ((prev.map Prod.fst).getD issue, worst (prev.map Prod.snd) issue)

theorem map_fst_firstAndWorst (issues : List ReportIssue) :
    (gather ReportIssue.gid firstAndWorst issues).values.map Prod.fst =
      firstIssues issues .groups :=
  (map_gather (fun _ _ => rfl) issues).trans (values_unseen issues)

theorem map_snd_firstAndWorst (issues : List ReportIssue) :
    (gather ReportIssue.gid firstAndWorst issues).values.map Prod.snd =
      worstIssues issues .groups :=
  map_gather (fun _ _ => rfl) issues

theorem gathered_firstAndWorst {p : ReportIssue × ReportIssue}
    (h : gathered firstAndWorst issues = some p) :
    issues.head? = some p.1 ∧ gathered worst issues = some p.2 := by
  have hfst : (gathered firstAndWorst issues).map Prod.fst =
      gathered (fun v a => v.getD a) issues := map_gathered (fun _ _ => rfl) issues
  have hsnd : (gathered firstAndWorst issues).map Prod.snd = gathered worst issues :=
    map_gathered (fun _ _ => rfl) issues
  rw [← gathered_getD, ← hfst, ← hsnd, h]
  exact ⟨rfl, rfl⟩

/-- Of the issues of every group, the first has the worst severity. -/
def FirstIsWorst (issues : List ReportIssue) : Prop :=
  ∀ g i, issues.find? (fun j => j.gid = g) = some i →
    ∀ j ∈ issues, j.gid = g → severityRank j.sev ≤ severityRank i.sev

theorem firstIsWorst_iff : FirstIsWorst issues ↔
    ∀ p ∈ (gather ReportIssue.gid firstAndWorst issues).values, p.1.sev = p.2.sev := by
  constructor
  · intro h p hp
    obtain ⟨g, hg⟩ := Dictionary.mem_values_iff.mp hp
    rw [get?_gather] at hg
    obtain ⟨hfirst, hworst⟩ := gathered_firstAndWorst hg
    obtain ⟨hmem, hmax⟩ := worst_spec hworst
    obtain ⟨hmem, hgid⟩ := List.mem_filter.mp hmem
    have hge := hmax p.1 (List.mem_of_head? hfirst)
    rw [List.head?_filter] at hfirst
    have hle := h g p.1 hfirst p.2 hmem (of_decide_eq_true hgid)
    exact severityRank_injective (hge.antisymm hle)
  · intro h g i hi j hj hgid
    have hmem : j ∈ issues.filter fun j => j.gid = g :=
      List.mem_filter.mpr ⟨hj, decide_eq_true hgid⟩
    cases hp : gathered firstAndWorst (issues.filter fun j => j.gid = g) with
    | none => simp [gathered_eq_none_iff.mp hp] at hmem
    | some p =>
      obtain ⟨hfirst, hworst⟩ := gathered_firstAndWorst hp
      rw [List.head?_filter, hi, Option.some_inj] at hfirst
      rw [hfirst, h p (Dictionary.mem_values_iff.mpr ⟨g, (get?_gather g).trans hp⟩)]
      exact (worst_spec hworst).2 j hmem

/-- Of every group as bad an issue comes first as stands for it, exactly if as many of each severity
come first as stand for a group. -/
theorem counts_eq_iff_firstIsWorst :
    (∀ s, s ≠ .info → ((firstIssues issues .groups).map ReportIssue.sev).count s =
      ((worstIssues issues .groups).map ReportIssue.sev).count s) ↔ FirstIsWorst issues := by
  rw [firstIsWorst_iff, ← map_fst_firstAndWorst, ← map_snd_firstAndWorst, List.map_map,
    List.map_map]
  refine counts_eq_iff_of_le fun p hp => ?_
  obtain ⟨g, hg⟩ := Dictionary.mem_values_iff.mp hp
  rw [get?_gather] at hg
  obtain ⟨hfirst, hworst⟩ := gathered_firstAndWorst hg
  exact (worst_spec hworst).2 p.1 (List.mem_of_head? hfirst)

/-! ### The scanners -/

theorem sum_scanners {m : ScannerBreakdown → ℕ} {w : ReportIssue → ℕ}
    (hadd : ∀ e i, m (e.add i) = m e + w i) (hzero : ∀ t, m ⟨t, 0, .zero⟩ = 0)
    (issues : List ReportIssue) (mode : CountMode) :
    ((computeScannerBreakdown issues mode).map m).sum =
      ((worstIssues issues mode).map w).sum := by
  rw [computeScannerBreakdown, ((List.mergeSort_perm _ _).map m).sum_eq]
  refine sum_gather ?_ _
  rintro (_ | e) i
  · rw [Option.getD_none, hadd, hzero, Option.elim_none]
  · rw [Option.getD_some, hadd, Option.elim_some]

theorem sum_scanner_columns (hs : s ≠ .info) :
    ((computeScannerBreakdown issues mode).map fun e => e.columns.column s).sum =
      ((worstIssues issues mode).map ReportIssue.sev).count s :=
  (sum_scanners (fun e _ => e.columns.column_incr hs) (fun _ => BySeverity.column_zero s)
    issues mode).trans (sum_map_ite_eq_count ReportIssue.sev _ s)

theorem sum_scanner_count : ((computeScannerBreakdown issues mode).map fun e => e.count).sum =
    (worstIssues issues mode).length := by
  rw [sum_scanners (w := fun _ => 1) (fun _ _ => rfl) (fun _ => rfl) issues mode, List.map_const',
    List.sum_replicate]
  exact Nat.mul_one _

/-! ### The ages -/

variable [Js.DateParser] {now : ℤ}

theorem length_addToBuckets (now : ℤ) (buckets : List AgingBucket) (issue : ReportIssue) :
    (addToBuckets now buckets issue).length = buckets.length := by
  rw [addToBuckets]
  split_ifs
  · rfl
  · exact List.length_modify ..

omit [Unicode] [Js.DateParser] in
theorem agingIndex_lt (age : ℤ) : agingIndex age < 5 := by
  rw [agingIndex]
  split_ifs <;> decide

/-- An issue is counted in one of the five buckets, unless it is informational. -/
theorem sum_foldl_addToBuckets {m : BySeverity ℕ → ℕ} {w : SeverityKey → ℕ}
    (hincr : ∀ c t, m (c.incr t) = m c + w t) (hinfo : w .info = 0) (issues : List ReportIssue)
    {buckets : List AgingBucket} (hlen : buckets.length = 5) :
    ((issues.foldl (addToBuckets now) buckets).map fun b => m b.columns).sum =
      (buckets.map fun b => m b.columns).sum + ((issues.map ReportIssue.sev).map w).sum := by
  induction issues generalizing buckets with
  | nil => rfl
  | cons i issues ih =>
    rw [List.foldl_cons, ih ((length_addToBuckets ..).trans hlen), addToBuckets, List.map_cons,
      List.map_cons, List.sum_cons]
    split_ifs with hi
    · rw [hi, hinfo]
      omega
    · rw [sum_map_modify _ _ fun b => hincr b.columns i.sev]
      · omega
      · rw [hlen]
        exact agingIndex_lt _

theorem sum_buckets {m : BySeverity ℕ → ℕ} {w : SeverityKey → ℕ}
    (hincr : ∀ c t, m (c.incr t) = m c + w t) (hinfo : w .info = 0) (hzero : m .zero = 0) :
    ((computeAgingBuckets now issues mode).map fun b => m b.columns).sum =
      (((firstIssues (issues.filter ReportIssue.isOpen) mode).map ReportIssue.sev).map w).sum := by
  rw [computeAgingBuckets, sum_foldl_addToBuckets hincr hinfo _ rfl]
  simp [agingBuckets, hzero]

theorem sum_bucket_columns (hs : s ≠ .info) :
    ((computeAgingBuckets now issues mode).map fun b => b.columns.column s).sum =
      ((firstIssues (issues.filter ReportIssue.isOpen) mode).map ReportIssue.sev).count s := by
  rw [sum_buckets (m := fun c => c.column s) (fun c t => c.column_incr hs) (if_neg hs.symm)
    (BySeverity.column_zero s)]
  exact (sum_map_ite_eq_count id _ s).trans (congrArg (List.count s) (List.map_id _))

/-! ### The deadlines -/

/-- The deadlines are held against the severities of the headline. -/
theorem map_fst_evaluables (now : ℤ) (opened : List ReportIssue) (mode : CountMode) :
    (evaluables now opened mode).map Prod.fst = (worstIssues opened mode).map ReportIssue.sev := by
  cases mode with
  | instances => exact List.map_map
  | groups =>
    have hrep : (gather ReportIssue.gid slaStep opened).values.map SlaGroup.rep =
        (gather ReportIssue.gid worst opened).values := map_gather (fun _ _ => rfl) opened
    rw [evaluables, worstIssues, ← hrep, List.map_map, List.map_map]
    rfl

/-- What the deadlines count in a severity. -/
def SlaComplianceResult.column (r : SlaComplianceResult) (s : SeverityKey) : ℕ :=
  ((r.bySeverity.filter fun e => e.1 = s).map fun e => e.2.within + e.2.exceeding).sum

omit [Unicode] [Js.DateParser] in
theorem SlaRow.within_add_exceeding_add (row : SlaRow) (compliant : Bool) :
    (row.add compliant).within + (row.add compliant).exceeding =
      row.within + row.exceeding + 1 := by
  cases compliant <;> simp [SlaRow.add] <;> omega

omit [Unicode] [Js.DateParser] in
/-- A severity has a row of all that is held against its deadline. -/
theorem elim_slaRow (held : List (SeverityKey × Bool)) :
    (gathered (fun row e => (row.getD ⟨0, 0⟩).add e.2) held).elim 0
      (fun row : SlaRow => row.within + row.exceeding) = held.length := by
  rw [elim_gathered (w := fun _ => 1), List.map_const', List.sum_replicate]
  · exact Nat.mul_one _
  · rintro (_ | row) e
    · exact SlaRow.within_add_exceeding_add _ _
    · exact SlaRow.within_add_exceeding_add _ _

omit [Unicode] [Js.DateParser] in
/-- Of the rows that are there, those of one severity. -/
theorem filter_rows (row? : SeverityKey → Option SlaRow) (s : SeverityKey) :
    ([SeverityKey.critical, .high, .medium, .low, .info].filterMap fun t =>
      (row? t).map fun row => (t, row)).filter (fun e => e.1 = s) =
      ((row? s).map fun row => (s, row)).toList := by
  have hkeep : ∀ t, ((row? t).map fun row => (t, row)).filter (fun e => e.1 = s) =
      if t = s then (row? s).map fun row => (s, row) else none := by
    intro t
    split_ifs with ht
    · subst ht
      cases row? t <;> simp
    · cases row? t <;> simp [ht]
  rw [List.filter_filterMap, funext hkeep]
  cases s <;> cases h : row? _ <;> rfl

omit [Unicode] [Js.DateParser] in
theorem sum_row (row? : Option SlaRow) (s : SeverityKey) :
    ((((row?.filter fun row => 0 < row.within + row.exceeding).map fun row => (s, row)).toList.map
      fun e => e.2.within + e.2.exceeding).sum) =
      row?.elim 0 fun row => row.within + row.exceeding := by
  cases row? with
  | none => rfl
  | some row =>
    rw [Option.filter_some, Option.elim_some]
    split_ifs with h
    · simp
    · simp only [decide_eq_true_eq] at h
      simp
      omega

theorem column_slaCompliance (config : SlaConfig) (s : SeverityKey) :
    (computeSlaCompliance now issues config mode).column s =
      ((worstIssues (issues.filter ReportIssue.isOpen) mode).map ReportIssue.sev).count s := by
  rw [SlaComplianceResult.column, computeSlaCompliance, filter_rows, get?_gather, sum_row,
    elim_slaRow, ← map_fst_evaluables now, ← List.countP_eq_length_filter, List.countP_map,
    List.count, List.countP_map]
  exact List.countP_congr fun e _ => by simp

theorem total_slaCompliance (config : SlaConfig) :
    (computeSlaCompliance now issues config mode).total =
      (worstIssues (issues.filter ReportIssue.isOpen) mode).length := by
  have hlen := congrArg List.length
    (map_fst_evaluables now (issues.filter ReportIssue.isOpen) mode)
  rw [List.length_map, List.length_map] at hlen
  rw [computeSlaCompliance, ← hlen]
  dsimp only
  have hsplit := List.length_eq_countP_add_countP Prod.snd
    (l := (evaluables now (issues.filter ReportIssue.isOpen) mode).map fun e =>
      (e.1, decide ((e.2 : ℚ) ≤ config.limit e.1)))
  rw [List.length_map] at hsplit
  rw [hsplit]
  simp

/-! ### The acceptance baseline -/

omit [Unicode] [Js.DateParser] in
theorem count_foldl_add (counted : List (SeverityKey × AbcOverdue)) (d : BySeverity AbcEntry)
    (s : SeverityKey) :
    ((counted.foldl (fun d e => d.modify (·.add e.2) e.1) d).get? s).map AbcEntry.count =
      (d.get? s).map fun entry => entry.count + (counted.map Prod.fst).count s := by
  induction counted generalizing d with
  | nil => rfl
  | cons e counted ih =>
    rw [List.foldl_cons, ih, BySeverity.get?_modify, List.map_cons, List.count_cons, beq_eq_decide]
    simp only [decide_eq_true_eq]
    split_ifs with he
    · rw [Option.map_map]
      refine Option.map_congr fun entry _ => ?_
      have hcount : (entry.add e.2).count = entry.count + 1 := rfl
      rw [Function.comp_apply, hcount]
      omega
    · rfl

/-- The deadlines of the baseline that an issue has missed. -/
def ReportIssue.overdue (now : ℤ) (i : ReportIssue) : AbcOverdue := i.abcInput.overdue now i.sev

theorem abcCounted_map (hopen : ∀ i ∈ issues, i.isOpen) :
    abcCounted now (issues.map ReportIssue.abcInput) =
      (issues.map fun i => (i.sev, i.overdue now)).filter fun e => e.1 ≠ .info := by
  have hall : (issues.map ReportIssue.abcInput).filter (fun i => isOpenRisk (some i.status)) =
      issues.map ReportIssue.abcInput := by
    refine List.filter_eq_self.mpr fun i hi => ?_
    obtain ⟨issue, hissue, rfl⟩ := List.mem_map.mp hi
    exact hopen issue hissue
  rw [abcCounted, hall, List.map_map]
  rfl

theorem map_fst_abcCounted (hopen : ∀ i ∈ issues, i.isOpen) :
    (abcCounted now (issues.map ReportIssue.abcInput)).map Prod.fst =
      (issues.map ReportIssue.sev).filter fun s => s ≠ .info := by
  rw [abcCounted_map hopen, List.filter_map, List.map_map, List.filter_map]
  rfl

theorem count_abcCompliance (hs : s ≠ .info) :
    ((computeABCComplianceForIssues now issues mode).bySeverity.get? s).map AbcEntry.count =
      some (((worstIssues (issues.filter ReportIssue.isOpen) mode).map
        ReportIssue.sev).count s) := by
  rw [computeABCComplianceForIssues, computeABCCompliance]
  dsimp only
  rw [count_foldl_add, map_fst_abcCounted, List.count_filter (by simpa using hs)]
  · cases s <;> first | exact congrArg some (Nat.zero_add _) | exact absurd rfl hs
  · intro i hi
    exact (List.mem_filter.mp (mem_of_mem_worstIssues hi)).2

/-! ### Reconciliation -/

omit [Js.DateParser] in
/-- The headline of the open issues, from these issues alone. -/
def headline (issues : List ReportIssue) (mode : CountMode) (hasFilters : Bool) :
    ResolvedOpenCounts :=
  resolveOpenCounts (issues.filter ReportIssue.isOpen)
    { countMode := mode, hasFilters := hasFilters }

/-- Each breakdown has in each severity as many as the headline, and all of them together, with the
informational ones that the ages and the baseline leave out, are as many as there are. -/
structure Reconciles (now : ℤ) (config : SlaConfig) (hasFilters : Bool) (mode : CountMode)
    (issues : List ReportIssue) : Prop where
  scanners : ∀ s, s ≠ .info →
    ((computeScannerBreakdown (issues.filter ReportIssue.isOpen) mode).map
      fun e => e.columns.column s).sum = (headline issues mode hasFilters).counts.column s
  ages : ∀ s, s ≠ .info →
    ((computeAgingBuckets now issues mode).map fun b => b.columns.column s).sum =
      (headline issues mode hasFilters).counts.column s
  deadlines : ∀ s, s ≠ .info → (computeSlaCompliance now issues config mode).column s =
    (headline issues mode hasFilters).counts.column s
  baseline : ∀ s, s ≠ .info →
    ((computeABCComplianceForIssues now issues mode).bySeverity.get? s).map AbcEntry.count =
      some ((headline issues mode hasFilters).counts.column s)
  headlineOnce : (headline issues mode hasFilters).totalOpen =
    countTotalIssues (issues.filter ReportIssue.isOpen) mode
  scannersOnce : ((computeScannerBreakdown (issues.filter ReportIssue.isOpen) mode).map
    fun e => e.count).sum = (headline issues mode hasFilters).totalOpen
  agesOnce : ((computeAgingBuckets now issues mode).map fun b => b.columns.total).sum +
    (headline issues mode hasFilters).counts.info = (headline issues mode hasFilters).totalOpen
  deadlinesOnce : (computeSlaCompliance now issues config mode).total =
    (headline issues mode hasFilters).totalOpen
  baselineOnce :
    let bySeverity := (computeABCComplianceForIssues now issues mode).bySeverity
    bySeverity.critical.count + bySeverity.high.count + bySeverity.medium.count +
      bySeverity.low.count + (headline issues mode hasFilters).counts.info =
      (headline issues mode hasFilters).totalOpen

variable {hasFilters : Bool} {config : SlaConfig}

omit [Js.DateParser] in
theorem column_headline (hs : s ≠ .info) : (headline issues mode hasFilters).counts.column s =
    ((worstIssues (issues.filter ReportIssue.isOpen) mode).map ReportIssue.sev).count s := by
  rw [headline, (resolveOpenCounts_eq _ mode hasFilters).1, column_tally _ hs]

omit [Js.DateParser] in
theorem totalOpen_headline : (headline issues mode hasFilters).totalOpen =
    (worstIssues (issues.filter ReportIssue.isOpen) mode).length :=
  (resolveOpenCounts_eq _ mode hasFilters).2

omit [Js.DateParser] in
theorem total_headline : (headline issues mode hasFilters).counts.total =
    (headline issues mode hasFilters).totalOpen := by
  rw [totalOpen_headline, headline, (resolveOpenCounts_eq _ mode hasFilters).1, total_tally,
    List.length_map]

omit [Unicode] [Js.DateParser] in
theorem sum_total (columns : List (BySeverity ℕ)) : (columns.map BySeverity.total).sum =
    (columns.map fun c => c.column .critical).sum + (columns.map fun c => c.column .high).sum +
      (columns.map fun c => c.column .medium).sum + (columns.map fun c => c.column .low).sum := by
  induction columns with
  | nil => rfl
  | cons c columns ih =>
    simp only [List.map_cons, List.sum_cons, ih, BySeverity.total, BySeverity.column,
      BySeverity.get?, Option.getD_some]
    omega

/-- The ages agree with the headline exactly if every group is represented by a worst issue. -/
theorem ages_iff :
    (∀ s, s ≠ .info →
      ((computeAgingBuckets now issues mode).map fun b => b.columns.column s).sum =
        (headline issues mode hasFilters).counts.column s) ↔
      (mode = .groups → FirstIsWorst (issues.filter ReportIssue.isOpen)) := by
  have hcounts : (∀ s, s ≠ .info →
      ((computeAgingBuckets now issues mode).map fun b => b.columns.column s).sum =
        (headline issues mode hasFilters).counts.column s) ↔
      ∀ s, s ≠ .info →
        ((firstIssues (issues.filter ReportIssue.isOpen) mode).map ReportIssue.sev).count s =
          ((worstIssues (issues.filter ReportIssue.isOpen) mode).map ReportIssue.sev).count s :=
    forall₂_congr fun s hs => by rw [sum_bucket_columns hs, column_headline hs]
  rw [hcounts]
  cases mode with
  | instances => exact ⟨fun _ h => CountMode.noConfusion h, fun _ _ _ => rfl⟩
  | groups => exact counts_eq_iff_firstIsWorst.trans ⟨fun h _ => h, fun h => h rfl⟩

/-- The breakdowns reconcile with the headline exactly if issues are counted one by one or, of the
open issues of every group, the first has the worst severity. -/
theorem reconciles_iff (now : ℤ) (config : SlaConfig) (hasFilters : Bool) (mode : CountMode)
    (issues : List ReportIssue) : Reconciles now config hasFilters mode issues ↔
      (mode = .groups → FirstIsWorst (issues.filter ReportIssue.isOpen)) := by
  refine ⟨fun h => ages_iff.mp h.ages, fun h => ?_⟩
  have hages : ∀ s, s ≠ .info →
      ((computeAgingBuckets now issues mode).map fun b => b.columns.column s).sum =
        (headline issues mode hasFilters).counts.column s := ages_iff.mpr h
  have htotal : (headline issues mode hasFilters).counts.total =
    (headline issues mode hasFilters).totalOpen := total_headline
  have hbaseline : ∀ s, s ≠ .info →
      ((computeABCComplianceForIssues now issues mode).bySeverity.get? s).map AbcEntry.count =
        some ((headline issues mode hasFilters).counts.column s) := by
    intro s hs
    rw [count_abcCompliance hs, column_headline hs]
  refine
    { scanners := fun s hs => (sum_scanner_columns hs).trans (column_headline hs).symm
      ages := hages
      deadlines := fun s hs => (column_slaCompliance config s).trans (column_headline hs).symm
      baseline := hbaseline
      headlineOnce := totalOpen_headline.trans (length_worstIssues _ mode)
      scannersOnce := sum_scanner_count.trans totalOpen_headline.symm
      agesOnce := ?_
      deadlinesOnce := (total_slaCompliance config).trans totalOpen_headline.symm
      baselineOnce := ?_ }
  · have hsum := sum_total ((computeAgingBuckets now issues mode).map AgingBucket.columns)
    rw [List.map_map, List.map_map, List.map_map, List.map_map, List.map_map] at hsum
    rw [← htotal]
    refine (congrArg (· + _) (hsum.trans ?_)).trans rfl
    exact congrArg₂ (· + ·) (congrArg₂ (· + ·) (congrArg₂ (· + ·) (hages .critical nofun)
      (hages .high nofun)) (hages .medium nofun)) (hages .low nofun)
  · rw [← htotal]
    have hcritical := Option.some_inj.mp (hbaseline .critical nofun)
    have hhigh := Option.some_inj.mp (hbaseline .high nofun)
    have hmedium := Option.some_inj.mp (hbaseline .medium nofun)
    have hlow := Option.some_inj.mp (hbaseline .low nofun)
    dsimp only
    rw [hcritical, hhigh, hmedium, hlow]
    rfl

end Breakdowns

/-! ### A group whose first issue is not its worst -/

section Example

attribute [local instance] asciiUnicode

/-- Reads one date. -/
@[reducible] def oneDate : Js.DateParser where
  getTime s := if s = str "2026-06-18T12:00:00Z" then some 1781784000000 else none
  getTime_nil := rfl

attribute [local instance] oneDate

/-- An open issue of a group, on that date. -/
def detectedIssue (severity : String) : ReportIssue where
  issueGroupId := some 7
  severity := some (str severity)
  severityScore := none
  status := some (str "open")
  firstDetectedAt := some (str "2026-06-18T12:00:00Z")
  scannerType := some (str "Trivy")

/-- Two issues of one group. -/
def mixedGroup : List ReportIssue := [detectedIssue "low", detectedIssue "critical"]

/-- The headline has a critical group that the breakdown by age has as a low one. -/
theorem not_reconciles : ¬ Reconciles 1781784000000 {} false .groups mixedGroup := by
  intro h
  have hages := h.ages .critical nofun
  rw [sum_bucket_columns (s := .critical) nofun] at hages
  revert hages
  decide

end Example

end Frontend

end Vat
