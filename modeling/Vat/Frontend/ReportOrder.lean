import Mathlib.Data.List.Sort
import Vat.Frontend.ReportAssets
import Vat.Frontend.ReportReconciliation
import Vat.Frontend.ReportTrends
import Vat.Keyed.GatherOrder

/-!
# What does not depend on the order of the issues

What a loop keeps of a group by a step that commutes is the same in every order of the issues: the
worst severity, the fewest days, the last closure, the first detection. So are the counts of these.

Source: `frontend/lib/report/metrics.ts`, lines 243–267, 757–892, 1200–1255 and 1625–1824.

## Main definitions

* `Frontend.IsWorst`: an issue of a group, of its worst severity.

## Main results

* `Frontend.orderless_reports`: the counts by severity, the repositories, the times to close and the
  trends.
-/

namespace Vat

open Keyed

namespace Frontend

variable {β : Type*}

/-! ### Counts in columns -/

theorem BySeverity.incr_right_comm (c : BySeverity ℕ) (s t : SeverityKey) :
    (c.incr s).incr t = (c.incr t).incr s := by
  cases s <;> cases t <;> rfl

theorem SeverityCounts.incr_right_comm (c : SeverityCounts) (s t : SeverityKey) :
    (c.incr s).incr t = (c.incr t).incr s := by
  cases s <;> cases t <;> rfl

theorem tally_perm {sevs sevs' : List SeverityKey} (h : sevs.Perm sevs') :
    tally sevs = tally sevs' := by
  rw [tally, tally]
  exact h.foldl_eq' (fun s _ t _ c => c.incr_right_comm s t) SeverityCounts.zero

theorem RiskTally.add_right_comm (t : RiskTally) (v w : Weighed) :
    (t.add v).add w = (t.add w).add v := by
  obtain ⟨s, m⟩ := v
  obtain ⟨s', m'⟩ := w
  cases m <;> cases m' <;> simp [add, BySeverity.incr_right_comm]

section Text

variable [Unicode] {issues issues' : List ReportIssue} {mode : CountMode}

/-! ### The issues that stand for the groups -/

/-- An issue of a group, of its worst severity. -/
def IsWorst (issues : List ReportIssue) (g : ℤ) (i : ReportIssue) : Prop :=
  IsBest (fun j => severityRank j.sev) (issues.filter fun j => j.gid = g) i

theorem sev_eq_of_isBest {i j : ReportIssue} (hi : IsBest (fun i => severityRank i.sev) issues i)
    (hj : IsBest (fun i => severityRank i.sev) issues j) : i.sev = j.sev :=
  severityRank_injective ((hj.2 i hi.1).antisymm (hi.2 j hj.1))

/-- A part of the issues that stand for what is counted is the same in every order, if the issues of
the worst severity of a group agree on it. -/
theorem map_worstIssues_perm {φ : ReportIssue → β} (h : issues'.Perm issues)
    (hφ : mode = .groups → ∀ g i j, IsWorst issues g i → IsWorst issues g j → φ i = φ j) :
    ((worstIssues issues' mode).map φ).Perm ((worstIssues issues mode).map φ) := by
  cases mode with
  | instances => exact h.map φ
  | groups =>
    refine values_gather_perm fun g => ?_
    rw [worst_eq_firstBest]
    exact (firstBest_perm_iff _ φ _).mpr (hφ rfl g) _ (h.filter _)

theorem map_sev_worstIssues_perm (h : issues'.Perm issues) :
    ((worstIssues issues' mode).map ReportIssue.sev).Perm
      ((worstIssues issues mode).map ReportIssue.sev) :=
  map_worstIssues_perm h fun _ _ _ _ => sev_eq_of_isBest

theorem computeSeverityCountsByGroups_perm (h : issues'.Perm issues) :
    computeSeverityCountsByGroups issues' = computeSeverityCountsByGroups issues := by
  rw [computeSeverityCountsByGroups_eq, computeSeverityCountsByGroups_eq]
  exact tally_perm (map_sev_worstIssues_perm h)

/-- What is the same in every order of all issues is so in every order of the open ones. -/
theorem forall_opened_perm {P : List ReportIssue → Prop}
    (h : ∀ issues' : List ReportIssue, issues'.Perm issues → P (issues'.filter ReportIssue.isOpen))
    (opened : List ReportIssue) (hopened : opened.Perm (issues.filter ReportIssue.isOpen)) :
    P opened := by
  obtain ⟨issues', hperm, rfl⟩ := exists_perm_filter_of_perm hopened
  exact h issues' hperm

/-! ### Repositories and containers -/

omit [Unicode] in
/-- The worst severity, and whether an issue of that severity is mitigated, do not depend on the
order. -/
theorem worstWeighed_right_comm (e : Option Weighed) (v w : Weighed) :
    worstWeighed (some (worstWeighed e v)) w = worstWeighed (some (worstWeighed e w)) v := by
  obtain ⟨s, m⟩ := v
  obtain ⟨t, n⟩ := w
  cases e with
  | none =>
    cases s <;> cases t <;> simp [worstWeighed, severityRank, Bool.or_comm]
  | some e =>
    obtain ⟨u, k⟩ := e
    cases u <;> cases s <;> cases t <;>
      simp [worstWeighed, severityRank, Bool.or_comm, Bool.or_left_comm]

theorem weighed_perm (h : issues'.Perm issues) :
    (weighed mode issues').Perm (weighed mode issues) := by
  cases mode with
  | instances => exact h.map _
  | groups =>
    have hfilter := h.filter fun i => i.groupedSeverity ≠ .info
    refine (same_gather (fun v i j _ => ?_) hfilter).values_perm
    exact worstWeighed_right_comm v _ _

theorem riskTally_perm (h : issues'.Perm issues) :
    riskTally mode issues' = riskTally mode issues := by
  rw [riskTally, riskTally]
  exact (weighed_perm h).foldl_eq' (fun v _ w _ t => t.add_right_comm v w) RiskTally.zero

variable {repos : List Str} {issueGroups : List ReportIssueGroup}

theorem filterIssuesToTrackedRepos_perm (h : issues'.Perm issues) :
    (filterIssuesToTrackedRepos issues' repos).Perm (filterIssuesToTrackedRepos issues repos) := by
  rw [filterIssuesToTrackedRepos, filterIssuesToTrackedRepos]
  split_ifs
  · exact h
  · exact h.filter _

/-- What is made of the issues of a repository, in whatever order. -/
theorem map_get?_issuesByRepo_perm {φ : List ReportIssue → β}
    (hφ : ∀ own own' : List ReportIssue, own.Perm own' → φ own = φ own') (h : issues'.Perm issues)
    (repo : Str) : ((issuesByRepo repos issues').get? repo).map φ =
      ((issuesByRepo repos issues).get? repo).map φ := by
  have htracked : (filterIssuesToTrackedRepos (issues'.filter ReportIssue.isOpen) repos).Perm
      (filterIssuesToTrackedRepos (issues.filter ReportIssue.isOpen) repos) :=
    filterIssuesToTrackedRepos_perm (h.filter _)
  have hown := htracked.filter fun i => repoOf repos i = repo
  rw [issuesByRepo, issuesByRepo, get?_gather, get?_gather, gathered_append, gathered_append]
  split_ifs with h₁ h₂ h₂
  · rfl
  · exact absurd (h₁ ▸ hown).nil_eq.symm h₂
  · exact absurd (h₂ ▸ hown).eq_nil h₁
  · exact congrArg some (hφ _ _ hown)

theorem same_repoEntries (h : issues'.Perm issues) :
    (repoEntries issues' repos issueGroups mode).Same
      (repoEntries issues repos issueGroups mode) := by
  have hkeys : (issuesByRepo repos issues').keys.Perm (issuesByRepo repos issues).keys :=
    keys_gather_perm _ (filterIssuesToTrackedRepos_perm (h.filter _))
  have hnil : (issuesByRepo repos issues').keys = [] ↔ (issuesByRepo repos issues).keys = [] :=
    ⟨fun h => (h ▸ hkeys).nil_eq.symm, fun h => (h ▸ hkeys).eq_nil⟩
  have hone : ∀ repo, (issuesByRepo repos issues').keys = [repo] ↔
      (issuesByRepo repos issues).keys = [repo] := fun repo =>
    ⟨fun h => (h ▸ hkeys).singleton_eq.symm, fun h => (h ▸ hkeys).eq_singleton⟩
  intro repo
  simp only [repoEntries, hnil, hone]
  split_ifs
  · rfl
  · rw [Dictionary.get?_mapValues, Dictionary.get?_mapValues]
    refine map_get?_issuesByRepo_perm (fun own own' hown => ?_) h repo
    rw [riskTally_perm hown]

theorem repoMitigated_perm (h : issues'.Perm issues) (repo : Str) :
    repoMitigated issues' repos mode repo = repoMitigated issues repos mode repo := by
  have hmap : ((issuesByRepo repos issues').get? repo).map
        (fun own => (riskTally mode own).mitigated) =
      ((issuesByRepo repos issues).get? repo).map fun own => (riskTally mode own).mitigated :=
    map_get?_issuesByRepo_perm
      (fun own own' hown => congrArg RiskTally.mitigated (riskTally_perm hown)) h repo
  have helim := congrArg (fun own => own.elim BySeverity.zero id) hmap
  rw [Option.elim_map, Option.elim_map] at helim
  exact helim

omit [Unicode] in
theorem same_ensureRepos {d d' : Dictionary Str RepoEntry} (h : d.Same d') (repos : List Str) :
    (ensureRepos repos d).Same (ensureRepos repos d') := by
  induction repos generalizing d d' with
  | nil => exact h
  | cons name repos ih =>
    refine ih ?_
    dsimp only
    rw [h name]
    split_ifs
    · exact h
    · intro repo
      rw [Dictionary.get?_set, Dictionary.get?_set, h repo]

theorem computeRepoRiskScores_perm (h : issues'.Perm issues) :
    (computeRepoRiskScores issues' repos issueGroups mode).Perm
      (computeRepoRiskScores issues repos issueGroups mode) := by
  rw [computeRepoRiskScores, computeRepoRiskScores]
  refine (List.mergeSort_perm _ _).trans (List.Perm.trans ?_ (List.mergeSort_perm _ _).symm)
  simp only [repoMitigated_perm h]
  exact (same_ensureRepos (same_repoEntries h) repos).entries_perm.map _

end Text

/-! ### Closed issues -/

/-- Steps that keep the least do not depend on the order. -/
theorem fewerDays_right_comm (prev : Option ℚ) (d e : ℚ) :
    fewerDays (some (fewerDays prev d)) e = fewerDays (some (fewerDays prev e)) d := by
  have hmin : ∀ p d : ℚ, fewerDays (some p) d = min p d := fun p d => by
    rw [fewerDays, min_def]
    split_ifs <;> grind
  cases prev with
  | none => exact (hmin d e).trans ((min_comm d e).trans (hmin e d).symm)
  | some p => rw [hmin, hmin, hmin, hmin, min_right_comm]

theorem earlierTime_right_comm (prev : Option ℤ) (d e : ℤ) :
    earlierTime (some (earlierTime prev d)) e = earlierTime (some (earlierTime prev e)) d := by
  have hmin : ∀ p d : ℤ, earlierTime (some p) d = min p d := fun p d => by
    rw [earlierTime, min_def]
    split_ifs <;> omega
  cases prev with
  | none => exact (hmin d e).trans ((min_comm d e).trans (hmin e d).symm)
  | some p => rw [hmin, hmin, hmin, hmin, min_right_comm]

section Dates

variable [Unicode] [Js.DateParser] {issues issues' : List ReportIssue} {mode : CountMode} {now : ℤ}

theorem daysOf_perm (h : issues'.Perm issues) (sev : SeverityKey) :
    (daysOf issues' mode sev).Perm (daysOf issues mode sev) := by
  have hraw : (rawDays issues').Perm (rawDays issues) := h.filterMap _
  cases mode with
  | instances => exact (hraw.filter _).map _
  | groups =>
    refine ((same_gather (fun v d e _ => ?_) hraw).entries_perm.filter _).map _
    exact fewerDays_right_comm v _ _

theorem computeMTTR_perm (h : issues'.Perm issues) :
    computeMTTR issues' mode = computeMTTR issues mode := by
  rw [computeMTTR, computeMTTR]
  refine List.filterMap_congr fun sev _ => ?_
  have hdays : (daysOf issues' mode sev).Perm (daysOf issues mode sev) := daysOf_perm h sev
  have hnil : daysOf issues' mode sev = [] ↔ daysOf issues mode sev = [] :=
    ⟨fun h => (h ▸ hdays).nil_eq.symm, fun h => (h ▸ hdays).eq_nil⟩
  have hsort : (daysOf issues' mode sev).mergeSort (fun a b => a ≤ b) =
      (daysOf issues mode sev).mergeSort fun a b => a ≤ b :=
    ((List.mergeSort_perm _ _).trans (hdays.trans (List.mergeSort_perm _ _).symm)).eq_of_pairwise'
      (List.pairwise_mergeSort' (· ≤ ·) _) (List.pairwise_mergeSort' (· ≤ ·) _)
  simp only [hnil, hsort]

/-! ### Weeks -/

omit [Unicode] [Js.DateParser] in
theorem countWeeks_perm {bounds : WeekBounds} {times times' : List ℤ} (h : times'.Perm times) :
    countWeeks bounds times' = countWeeks bounds times := by
  rw [countWeeks, countWeeks, h.countP_eq, h.countP_eq]

theorem openCount_perm (h : issues'.Perm issues) (ts : ℤ) :
    openCount issues' mode ts = openCount issues mode ts := by
  have hopen : (openAtDate issues' ts).Perm (openAtDate issues ts) := h.filter _
  cases mode with
  | instances => exact hopen.length_eq
  | groups => rw [openCount, openCount, computeSeverityCountsByGroups_perm hopen]

theorem closureStep_right_comm (prev : Option GroupClosure) (i j : ReportIssue) :
    closureStep (some (closureStep prev i)) j = closureStep (some (closureStep prev j)) i := by
  cases prev with
  | none =>
    simp only [closureStep, Bool.and_comm]
    cases closedTime i <;> cases closedTime j <;> grind
  | some p =>
    simp only [closureStep, Bool.and_right_comm]
    cases closedTime i <;> cases closedTime j <;> cases p.latestClosed <;> grind

theorem resolvedTimes_perm (h : issues'.Perm issues) :
    (resolvedTimes issues' mode).Perm (resolvedTimes issues mode) := by
  have htrend : (issuesForTrend issues').Perm (issuesForTrend issues) := h.filter _
  cases mode with
  | instances => exact htrend.filterMap _
  | groups =>
    refine (same_gather (fun v i j _ => ?_) htrend).values_perm.filterMap _
    exact closureStep_right_comm v i j

theorem newTimes_perm (h : issues'.Perm issues) :
    (newTimes issues' mode).Perm (newTimes issues mode) := by
  have hdet : (detections issues').Perm (detections issues) := (h.filter _).filterMap _
  cases mode with
  | instances => exact hdet.map _
  | groups =>
    refine (same_gather (fun v d e _ => ?_) hdet).values_perm
    exact earlierTime_right_comm v _ _

theorem computeTrendMetrics_perm (h : issues'.Perm issues) :
    computeTrendMetrics now issues' mode = computeTrendMetrics now issues mode := by
  have htrend : (issuesForTrend issues').Perm (issuesForTrend issues) := h.filter _
  rw [computeTrendMetrics, computeTrendMetrics]
  simp only [openCount_perm htrend, countWeeks_perm (resolvedTimes_perm h),
    countWeeks_perm (newTimes_perm h)]

/-- The counts by severity, the rows of the repositories, the days that closed issues were open and
the trends are the same in every order of the issues. -/
theorem orderless_reports (now : ℤ) (repos : List Str) (issueGroups : List ReportIssueGroup)
    (mode : CountMode) {issues issues' : List ReportIssue} (h : issues'.Perm issues) :
    computeSeverityCountsByGroups issues' = computeSeverityCountsByGroups issues ∧
      (computeRepoRiskScores issues' repos issueGroups mode).Perm
        (computeRepoRiskScores issues repos issueGroups mode) ∧
      computeMTTR issues' mode = computeMTTR issues mode ∧
      computeTrendMetrics now issues' mode = computeTrendMetrics now issues mode :=
  ⟨computeSeverityCountsByGroups_perm h, computeRepoRiskScores_perm h, computeMTTR_perm h,
    computeTrendMetrics_perm h⟩

end Dates

section Example

attribute [local instance] asciiUnicode oneDate

theorem orderless_reports_mixedGroup :
    mixedGroup.reverse.Perm mixedGroup ∧
      computeSeverityCountsByGroups mixedGroup.reverse =
        computeSeverityCountsByGroups mixedGroup ∧
      (computeRepoRiskScores mixedGroup.reverse [str "shop"] [] .groups).Perm
        (computeRepoRiskScores mixedGroup [str "shop"] [] .groups) ∧
      computeMTTR mixedGroup.reverse .groups = computeMTTR mixedGroup .groups ∧
      computeTrendMetrics 1781784000000 mixedGroup.reverse .groups =
        computeTrendMetrics 1781784000000 mixedGroup .groups :=
  ⟨List.reverse_perm mixedGroup,
    orderless_reports 1781784000000 [str "shop"] [] .groups (List.reverse_perm mixedGroup)⟩

end Example

end Frontend

end Vat
