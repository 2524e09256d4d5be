import Vat.Frontend.ReportOrder

/-!
# Issues of a group that disagree

A breakdown that keeps one issue of a group is the same in every order of the issues exactly if it
has no choice: the issues it may keep agree on what it reads of them. The first issue of a group may
be any, and of the worst severity, any that has it. The containers that only issues name may stand for
each other.

Source: `frontend/lib/report/metrics.ts`, lines 636–755, 893–1075, 1257–1283 and 1462–1624.

## Main results

* `Frontend.computeScannerBreakdown_perm_iff`, `Frontend.computeAssetMix_perm_iff`,
  `Frontend.computeAgingBuckets_perm_iff`, `Frontend.computeABCComplianceForIssues_perm_iff`,
  `Frontend.computeContainerRiskScores_perm_iff`: a breakdown is the same in every order of the
  issues exactly if they agree.
-/

namespace Vat

open Keyed

namespace Frontend

section Agreement

variable [Unicode] {issues issues' : List ReportIssue} {mode : CountMode}

/-! ### The issue that is kept -/

omit [Unicode] in
theorem map_firstIssues_perm {β : Type*} {φ : ReportIssue → β} (h : issues'.Perm issues)
    (hφ : mode = .groups → ∀ i ∈ issues, ∀ j ∈ issues, i.gid = j.gid → φ i = φ j) :
    ((firstIssues issues' mode).map φ).Perm ((firstIssues issues mode).map φ) := by
  cases mode with
  | instances => exact h.map φ
  | groups =>
    rw [firstIssues, firstIssues, ← values_unseen, ← values_unseen]
    refine values_gather_perm fun g => ?_
    rw [gathered_getD, gathered_getD]
    refine (head?_perm_iff φ _).mpr (fun i hi j hj => ?_) _ (h.filter _)
    obtain ⟨hi, hig⟩ := List.mem_filter.mp hi
    obtain ⟨hj, hjg⟩ := List.mem_filter.mp hj
    exact hφ rfl i hi j hj ((of_decide_eq_true hig).trans (of_decide_eq_true hjg).symm)

omit [Unicode] in
/-- What holds of as many first issues in every order, holds of all issues of a group or of none. -/
theorem eq_of_countP_firstIssues {p : ReportIssue → Bool}
    (h : ∀ issues' : List ReportIssue, issues'.Perm issues →
      (firstIssues issues' .groups).countP p = (firstIssues issues .groups).countP p)
    {i j : ReportIssue} (hi : i ∈ issues) (hj : j ∈ issues) (hgid : i.gid = j.gid) :
    p i = p j := by
  have hcount : ∀ issues' : List ReportIssue, issues'.Perm issues →
      (gather ReportIssue.gid (fun v a => v.getD a) issues').values.countP p =
        (gather ReportIssue.gid (fun v a => v.getD a) issues).values.countP p := by
    intro issues' hperm
    rw [values_unseen, values_unseen]
    exact h issues' hperm
  have hhead : ∀ l : List ReportIssue, l.Perm (issues.filter fun k => k.gid = i.gid) →
      l.head?.map p = (issues.filter fun k => k.gid = i.gid).head?.map p := by
    intro l hl
    rw [← gathered_getD, ← gathered_getD]
    exact map_gathered_perm_of_countP hcount hl
  exact (head?_perm_iff p _).mp hhead i (List.mem_filter.mpr ⟨hi, decide_eq_true rfl⟩) j
    (List.mem_filter.mpr ⟨hj, decide_eq_true hgid.symm⟩)

/-- What holds of as many issues that stand for a group in every order, holds of all issues of the
worst severity of a group or of none. -/
theorem eq_of_countP_worstIssues {p : ReportIssue → Bool}
    (h : ∀ issues' : List ReportIssue, issues'.Perm issues →
      (worstIssues issues' .groups).countP p = (worstIssues issues .groups).countP p)
    {g : ℤ} {i j : ReportIssue} (hi : IsWorst issues g i) (hj : IsWorst issues g j) :
    p i = p j := by
  have hgathered : ∀ l : List ReportIssue, l.Perm (issues.filter fun k => k.gid = g) →
      (gathered worst l).map p = (gathered worst (issues.filter fun k => k.gid = g)).map p :=
    fun l hl => map_gathered_perm_of_countP h hl
  rw [worst_eq_firstBest] at hgathered
  exact (firstBest_perm_iff _ p _).mp hgathered i j hi hj

/-! ### By scanner -/

/-- The row of a scanner has the issues of the scanner. -/
theorem scanner_of_gathered {t : Str} {e : ScannerBreakdown} (ht : ∀ i ∈ issues, i.scanner = t)
    (h : gathered (fun e issue => (e.getD ⟨issue.scanner, 0, .zero⟩).add issue) issues = some e) :
    e.scanner = t := by
  have hP : (∀ i ∈ issues, i.scanner = t) → e.scanner = t := by
    refine gathered_induction (P := fun l (e : ScannerBreakdown) =>
      (∀ i ∈ l, i.scanner = t) → e.scanner = t) ?_ ?_ h
    · intro i hi
      exact hi i (List.mem_singleton_self i)
    · intro l e i ih hl
      exact ih fun j hj => hl j (List.mem_append_left _ hj)
  exact hP ht

theorem sum_scanner_rows (issues : List ReportIssue) (mode : CountMode) (t : Str) :
    ((computeScannerBreakdown issues mode).map fun e =>
      if e.scanner = t then e.count else 0).sum =
      (worstIssues issues mode).countP fun i => i.scanner = t := by
  rw [computeScannerBreakdown, ((List.mergeSort_perm _ _).map _).sum_eq, ← sum_map_toNat]
  refine sum_gather_of_forall (fun l i => ?_) _
  have hscanner : ∀ e, gathered (fun (e : Option ScannerBreakdown) (issue : ReportIssue) =>
      (e.getD ⟨issue.scanner, 0, .zero⟩).add issue)
      (l.filter fun j => j.scanner = i.scanner) = some e → e.scanner = i.scanner := fun e he =>
    scanner_of_gathered (fun j hj => of_decide_eq_true (List.mem_filter.mp hj).2) he
  generalize gathered _ (l.filter fun j => j.scanner = i.scanner) = e? at hscanner ⊢
  cases e? with
  | none =>
    by_cases ht : i.scanner = t <;> simp [ScannerBreakdown.add, ht]
  | some e =>
    by_cases ht : i.scanner = t <;> simp [ScannerBreakdown.add, hscanner e rfl, ht]

/-- A breakdown by scanner, of the scanners and the severities alone. -/
def scannerStep (e : Option ScannerBreakdown) (p : Str × SeverityKey) : ScannerBreakdown :=
  { scanner := (e.getD ⟨p.1, 0, .zero⟩).scanner
    count := (e.getD ⟨p.1, 0, .zero⟩).count + 1
    columns := (e.getD ⟨p.1, 0, .zero⟩).columns.incr p.2 }

theorem computeScannerBreakdown_perm
    (h : ((worstIssues issues' mode).map fun i => (i.scanner, i.sev)).Perm
      ((worstIssues issues mode).map fun i => (i.scanner, i.sev))) :
    (computeScannerBreakdown issues' mode).Perm (computeScannerBreakdown issues mode) := by
  have hsame : (gather Prod.fst scannerStep
      ((worstIssues issues' mode).map fun i => (i.scanner, i.sev))).Same
        (gather Prod.fst scannerStep
          ((worstIssues issues mode).map fun i => (i.scanner, i.sev))) := by
    refine same_gather ?_ h
    rintro (_ | e) ⟨s, sev⟩ ⟨t, sev'⟩ hst
    · obtain rfl : s = t := hst
      simp [scannerStep, BySeverity.incr_right_comm]
    · simp [scannerStep, BySeverity.incr_right_comm]
  rw [gather_map, gather_map] at hsame
  rw [computeScannerBreakdown, computeScannerBreakdown]
  exact (List.mergeSort_perm _ _).trans (hsame.values_perm.trans (List.mergeSort_perm _ _).symm)

theorem computeScannerBreakdown_perm_iff (issues : List ReportIssue) (mode : CountMode) :
    (∀ issues' : List ReportIssue, issues'.Perm issues →
      (computeScannerBreakdown issues' mode).Perm (computeScannerBreakdown issues mode)) ↔
      (mode = .groups → ∀ g i j, IsWorst issues g i → IsWorst issues g j →
        i.scanner = j.scanner) := by
  constructor
  · rintro h rfl g i j hi hj
    have hscanner := eq_of_countP_worstIssues (p := fun k => k.scanner = i.scanner)
      (fun issues' hperm => by
        rw [← sum_scanner_rows, ← sum_scanner_rows]
        exact ((h issues' hperm).map _).sum_eq) hi hj
    have htrue : decide (i.scanner = i.scanner) = true := decide_eq_true rfl
    rw [hscanner] at htrue
    exact (of_decide_eq_true htrue).symm
  · intro h issues' hperm
    refine computeScannerBreakdown_perm (map_worstIssues_perm hperm fun hmode g i j hi hj => ?_)
    rw [h hmode g i j hi hj, sev_eq_of_isBest hi hj]

/-! ### By asset -/

def AssetMix.get (m : AssetMix) : AssetCategory → ℕ
  | .code => m.code
  | .container => m.container
  | .vm => m.vm
  | .package => m.package
  | .other => m.other

omit [Unicode] in
theorem AssetMix.ext_get {m m' : AssetMix} (h : ∀ c, m.get c = m'.get c) : m = m' := by
  obtain ⟨code, container, vm, package, other⟩ := m
  obtain ⟨code', container', vm', package', other'⟩ := m'
  rw [AssetMix.mk.injEq]
  exact ⟨h .code, h .container, h .vm, h .package, h .other⟩

theorem get_computeAssetMix (issues : List ReportIssue) (tracked : TrackedAssets)
    (mode : CountMode) (c : AssetCategory) : (computeAssetMix issues tracked mode).get c =
      ((firstIssues (issues.filter ReportIssue.isOpen) mode).map tracked.category).count c := by
  cases c <;> rfl

theorem computeAssetMix_perm_iff (issues : List ReportIssue) (tracked : TrackedAssets)
    (mode : CountMode) :
    (∀ issues' : List ReportIssue, issues'.Perm issues →
      computeAssetMix issues' tracked mode = computeAssetMix issues tracked mode) ↔
      (mode = .groups → ∀ i ∈ issues.filter ReportIssue.isOpen,
        ∀ j ∈ issues.filter ReportIssue.isOpen, i.gid = j.gid →
          tracked.category i = tracked.category j) := by
  constructor
  · rintro h rfl i hi j hj hgid
    have hcount := forall_opened_perm (P := fun opened =>
      (firstIssues opened .groups).countP (fun k => tracked.category k = tracked.category i) =
        (firstIssues (issues.filter ReportIssue.isOpen) .groups).countP
          fun k => tracked.category k = tracked.category i) fun issues' hperm => by
      have hget := congrArg (fun m => AssetMix.get m (tracked.category i)) (h issues' hperm)
      simp only [get_computeAssetMix, List.count, List.countP_map] at hget
      exact hget
    have hcategory := eq_of_countP_firstIssues hcount hi hj hgid
    rw [decide_eq_true rfl] at hcategory
    exact (of_decide_eq_true hcategory.symm).symm
  · intro h issues' hperm
    refine AssetMix.ext_get fun c => ?_
    rw [get_computeAssetMix, get_computeAssetMix]
    exact (map_firstIssues_perm (hperm.filter _) h).count_eq c

/-! ### By age -/

section Dates

variable [Js.DateParser] {now : ℤ}

/-- The bucket and the column that an issue is counted in; an informational one is in none. -/
def ageCell (now : ℤ) (i : ReportIssue) : Option (ℕ × SeverityKey) :=
  if i.sev = .info then none else some (agingIndex (safeAge now i.firstDetectedAt), i.sev)

omit [Unicode] [Js.DateParser] in
/-- One more issue in a cell. -/
def addToCell (buckets : List AgingBucket) (cell : Option (ℕ × SeverityKey)) : List AgingBucket :=
  cell.elim buckets fun c =>
    buckets.modify c.1 fun b => { b with columns := b.columns.incr c.2 }

theorem addToBuckets_eq (buckets : List AgingBucket) (i : ReportIssue) :
    addToBuckets now buckets i = addToCell buckets (ageCell now i) := by
  rw [addToBuckets, ageCell]
  split_ifs <;> rfl

theorem foldl_addToBuckets (issues : List ReportIssue) (buckets : List AgingBucket) :
    issues.foldl (addToBuckets now) buckets = (issues.map (ageCell now)).foldl addToCell buckets := by
  rw [List.foldl_map, funext₂ addToBuckets_eq]

omit [Unicode] [Js.DateParser] in
theorem addToCell_right_comm (buckets : List AgingBucket) (c d : Option (ℕ × SeverityKey)) :
    addToCell (addToCell buckets c) d = addToCell (addToCell buckets d) c := by
  rcases c with _ | ⟨m, s⟩
  · rfl
  rcases d with _ | ⟨n, t⟩
  · rfl
  simp only [addToCell, Option.elim_some]
  by_cases hmn : m = n
  · subst hmn
    rw [List.modify_modify_eq, List.modify_modify_eq]
    congr 1
    ext b : 1
    simp [BySeverity.incr_right_comm]
  · exact (List.modify_modify_ne _ _ _ hmn)

/-- The number in a cell. -/
def cellCount (buckets : List AgingBucket) (c : ℕ × SeverityKey) : ℕ :=
  (buckets[c.1]?).elim 0 fun b => b.columns.column c.2

omit [Unicode] [Js.DateParser] in
theorem cellCount_addToCell (buckets : List AgingBucket) (cell : Option (ℕ × SeverityKey))
    {c : ℕ × SeverityKey} (hc : c.1 < buckets.length) (hs : c.2 ≠ .info) :
    cellCount (addToCell buckets cell) c = cellCount buckets c + if cell = some c then 1 else 0 := by
  rcases cell with _ | ⟨m, t⟩
  · rfl
  obtain ⟨n, s⟩ := c
  simp only [cellCount, addToCell, Option.elim_some, List.getElem?_modify,
    List.getElem?_eq_getElem hc, Option.some_inj, Prod.mk.injEq]
  by_cases hm : m = n
  · simp [hm, BySeverity.column_incr _ hs]
  · simp [hm]

theorem cellCount_foldl_addToBuckets (issues : List ReportIssue) (buckets : List AgingBucket)
    {c : ℕ × SeverityKey} (hc : c.1 < buckets.length) (hs : c.2 ≠ .info) :
    cellCount (issues.foldl (addToBuckets now) buckets) c =
      cellCount buckets c + issues.countP fun i => ageCell now i = some c := by
  induction issues generalizing buckets with
  | nil => rfl
  | cons i issues ih =>
    rw [List.foldl_cons, ih _ (by rwa [length_addToBuckets]), addToBuckets_eq,
      cellCount_addToCell buckets _ hc hs, List.countP_cons]
    simp only [decide_eq_true_eq]
    omega

theorem computeAgingBuckets_perm_iff (now : ℤ) (issues : List ReportIssue) (mode : CountMode) :
    (∀ issues' : List ReportIssue, issues'.Perm issues →
      computeAgingBuckets now issues' mode = computeAgingBuckets now issues mode) ↔
      (mode = .groups → ∀ i ∈ issues.filter ReportIssue.isOpen,
        ∀ j ∈ issues.filter ReportIssue.isOpen, i.gid = j.gid →
          ageCell now i = ageCell now j) := by
  constructor
  · rintro h rfl i hi j hj hgid
    have hcell : ∀ c : ℕ × SeverityKey, c.1 < 5 → c.2 ≠ .info →
        (ageCell now i = some c ↔ ageCell now j = some c) := by
      intro c hc hs
      have hcount := forall_opened_perm (P := fun opened =>
        (firstIssues opened .groups).countP (fun k => ageCell now k = some c) =
          (firstIssues (issues.filter ReportIssue.isOpen) .groups).countP
            fun k => ageCell now k = some c) fun issues' hperm => by
        have hcells := congrArg (fun buckets => cellCount buckets c) (h issues' hperm)
        simp only [computeAgingBuckets] at hcells
        rw [cellCount_foldl_addToBuckets _ _ hc hs, cellCount_foldl_addToBuckets _ _ hc hs]
          at hcells
        exact Nat.add_left_cancel hcells
      have := eq_of_countP_firstIssues hcount hi hj hgid
      exact decide_eq_decide.mp this
    have hsome : ∀ k : ReportIssue, ∀ c, ageCell now k = some c → c.1 < 5 ∧ c.2 ≠ .info := by
      intro k c hk
      rw [ageCell] at hk
      split_ifs at hk with hinfo
      obtain rfl := Option.some_inj.mp hk
      exact ⟨agingIndex_lt _, hinfo⟩
    refine Option.ext fun c => ?_
    constructor
    · intro hi
      obtain ⟨hc, hs⟩ := hsome i c hi
      exact (hcell c hc hs).mp hi
    · intro hj
      obtain ⟨hc, hs⟩ := hsome j c hj
      exact (hcell c hc hs).mpr hj
  · intro h issues' hperm
    have hcells := map_firstIssues_perm (hperm.filter ReportIssue.isOpen) h
    rw [computeAgingBuckets, computeAgingBuckets, foldl_addToBuckets, foldl_addToBuckets]
    exact hcells.foldl_eq' (fun c _ d _ buckets => addToCell_right_comm buckets c d) _

/-! ### The acceptance baseline -/

omit [Js.DateParser] in
theorem isOpen_of_mem_worstIssues {i : ReportIssue}
    (h : i ∈ worstIssues (issues.filter ReportIssue.isOpen) mode) : i.isOpen :=
  (List.mem_filter.mp (mem_of_mem_worstIssues h)).2

omit [Unicode] [Js.DateParser] in
theorem BySeverity.add_right_comm (c : BySeverity AbcEntry) (e d : SeverityKey × AbcOverdue) :
    (c.modify (·.add e.2) e.1).modify (·.add d.2) d.1 =
      (c.modify (·.add d.2) d.1).modify (·.add e.2) e.1 := by
  obtain ⟨s, o⟩ := e
  obtain ⟨t, p⟩ := d
  cases s <;> cases t <;> simp [modify, AbcEntry.add, Nat.add_right_comm]

theorem computeABCCompliance_perm {inputs inputs' : List AbcIssueInput}
    (h : (abcCounted now inputs').Perm (abcCounted now inputs)) :
    computeABCCompliance now inputs' = computeABCCompliance now inputs := by
  have hfold : ∀ c : BySeverity AbcEntry,
      (abcCounted now inputs').foldl (fun c e => c.modify (·.add e.2) e.1) c =
        (abcCounted now inputs).foldl (fun c e => c.modify (·.add e.2) e.1) c :=
    h.foldl_eq' fun e _ d _ c => c.add_right_comm e d
  simp only [computeABCCompliance, h.countP_eq, hfold]

/-- How many of the issues that stand for what is counted have missed a deadline. -/
theorem countP_abcCounted {flag : AbcOverdue → Bool} (hflag : ∀ i : AbcIssueInput,
      flag (i.overdue now .info) = false) (issues : List ReportIssue) (mode : CountMode) :
    (abcCounted now ((worstIssues (issues.filter ReportIssue.isOpen) mode).map
      ReportIssue.abcInput)).countP (fun e => flag e.2) =
      (worstIssues (issues.filter ReportIssue.isOpen) mode).countP fun i =>
        flag (i.overdue now) := by
  rw [abcCounted_map fun i => isOpen_of_mem_worstIssues, List.countP_filter, List.countP_map]
  refine List.countP_congr fun i _ => ?_
  by_cases hi : i.sev = .info
  · simp [hi, ReportIssue.overdue, hflag]
  · simp [hi]

theorem computeABCComplianceForIssues_perm_iff (now : ℤ) (issues : List ReportIssue)
    (mode : CountMode) :
    (∀ issues' : List ReportIssue, issues'.Perm issues →
      computeABCComplianceForIssues now issues' mode =
        computeABCComplianceForIssues now issues mode) ↔
      (mode = .groups → ∀ g i j, IsWorst (issues.filter ReportIssue.isOpen) g i →
        IsWorst (issues.filter ReportIssue.isOpen) g j → i.overdue now = j.overdue now) := by
  constructor
  · rintro h rfl g i j hi hj
    have hflag : ∀ flag : AbcOverdue → Bool, (∀ issues' : List ReportIssue, issues'.Perm issues →
        (worstIssues (issues'.filter ReportIssue.isOpen) .groups).countP
          (fun k => flag (k.overdue now)) =
          (worstIssues (issues.filter ReportIssue.isOpen) .groups).countP
            fun k => flag (k.overdue now)) → flag (i.overdue now) = flag (j.overdue now) :=
      fun flag hcount => eq_of_countP_worstIssues (forall_opened_perm hcount) hi hj
    have hjustification := hflag AbcOverdue.justification fun issues' hperm => by
      rw [← countP_abcCounted fun _ => rfl, ← countP_abcCounted fun _ => rfl]
      exact congrArg AbcCriteriaResult.justificationOverdue (h issues' hperm)
    have hremediation := hflag AbcOverdue.remediation fun issues' hperm => by
      rw [← countP_abcCounted fun _ => rfl, ← countP_abcCounted fun _ => rfl]
      exact congrArg AbcCriteriaResult.remediationOverdue (h issues' hperm)
    have hcveAge := hflag AbcOverdue.cveAge fun issues' hperm => by
      rw [← countP_abcCounted fun _ => rfl, ← countP_abcCounted fun _ => rfl]
      exact congrArg AbcCriteriaResult.cveAgeExceeded (h issues' hperm)
    revert hjustification hremediation hcveAge
    cases i.overdue now
    cases j.overdue now
    rintro rfl rfl rfl
    rfl
  · intro h issues' hperm
    have hopened := hperm.filter ReportIssue.isOpen
    refine computeABCCompliance_perm ?_
    rw [abcCounted_map fun i => isOpen_of_mem_worstIssues,
      abcCounted_map fun i => isOpen_of_mem_worstIssues]
    refine (map_worstIssues_perm hopened fun hmode g i j hi hj => ?_).filter _
    rw [h hmode g i j hi hj, sev_eq_of_isBest hi hj]

end Dates

/-! ### Containers -/

omit [Unicode] in
theorem namesMatch_comm (a b : Str) : namesMatch a b = namesMatch b a := by
  rw [namesMatch, namesMatch, decide_eq_decide]
  constructor <;> rintro ⟨ha, hb, heq | hab | hba⟩
  · exact ⟨hb, ha, .inl heq.symm⟩
  · exact ⟨hb, ha, .inr (.inr hab)⟩
  · exact ⟨hb, ha, .inr (.inl hba)⟩
  · exact ⟨hb, ha, .inl heq.symm⟩
  · exact ⟨hb, ha, .inr (.inr hab)⟩
  · exact ⟨hb, ha, .inr (.inl hba)⟩

theorem standsFor_refl (a : Str) : standsFor a a = true := by simp [standsFor]

theorem standsFor_symm (a b : Str) (h : standsFor a b = true) : standsFor b a = true := by
  rw [standsFor, Bool.or_eq_true, decide_eq_true_eq] at h ⊢
  refine h.imp Eq.symm fun hmatch => ?_
  rw [issueMatchesContainer, namesMatch_comm]
  exact hmatch

theorem getEffectiveContainers_eq (containers : List Str) (issues : List ReportIssue)
    (codeRepos : List Str) : getEffectiveContainers containers issues codeRepos =
      containers ++ derivedContainers containers issues codeRepos := by
  rw [getEffectiveContainers]
  split_ifs with h
  · rw [h.1, List.nil_append]
  · rfl

theorem containerRow_perm {issueGroups : List ReportIssueGroup} (h : issues'.Perm issues)
    (container : Str) : containerRow issues' issueGroups mode container =
      containerRow issues issueGroups mode container := by
  have hnil : issues' = [] ↔ issues = [] :=
    ⟨fun hnil => (hnil ▸ h).nil_eq.symm, fun hnil => (hnil ▸ h).eq_nil⟩
  simp only [containerRow, riskTally_perm ((h.filter _).filter _), hnil]

theorem computeContainerRiskScores_perm_iff (containers : List Str) (issues : List ReportIssue)
    (issueGroups : List ReportIssueGroup) (mode : CountMode) (codeRepos : List Str) :
    (∀ issues' : List ReportIssue, issues'.Perm issues →
      (computeContainerRiskScores containers issues' issueGroups mode codeRepos).Perm
        (computeContainerRiskScores containers issues issueGroups mode codeRepos)) ↔
      ∀ a ∈ (issues.filter ReportIssue.isOpen).filterMap (candidateContainer containers codeRepos),
        ∀ b ∈ (issues.filter ReportIssue.isOpen).filterMap
          (candidateContainer containers codeRepos), standsFor a b → a = b := by
  rw [← takeFirst_perm_iff standsFor_refl standsFor_symm]
  constructor
  · intro h names hnames
    obtain ⟨opened, hopened, rfl⟩ := exists_perm_filterMap hnames
    obtain ⟨issues', hperm, rfl⟩ := exists_perm_filter_of_perm hopened
    have hrows := ((List.mergeSort_perm _ _).symm.trans
      ((h issues' hperm).trans (List.mergeSort_perm _ _))).map ContainerRiskScore.repo
    rw [List.map_map, List.map_map, getEffectiveContainers_eq, getEffectiveContainers_eq] at hrows
    have hrepo : ∀ issues, ContainerRiskScore.repo ∘ containerRow issues issueGroups mode = id :=
      fun _ => rfl
    rw [hrepo, hrepo, List.map_id, List.map_id] at hrows
    exact (List.perm_append_left_iff containers).mp hrows
  · intro h issues' hperm
    have hderived : (derivedContainers containers issues' codeRepos).Perm
        (derivedContainers containers issues codeRepos) :=
      h _ ((hperm.filter _).filterMap _)
    rw [computeContainerRiskScores, computeContainerRiskScores, getEffectiveContainers_eq,
      getEffectiveContainers_eq, funext (containerRow_perm hperm)]
    refine (List.mergeSort_perm _ _).trans (List.Perm.trans ?_ (List.mergeSort_perm _ _).symm)
    exact (hderived.append_left containers).map _

end Agreement

end Frontend

end Vat
