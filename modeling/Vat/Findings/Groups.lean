import Vat.Correlation.Linking
import Vat.Findings.GroupKey
import Vat.Findings.Visibility
import Vat.Keyed.Grouped
import Vat.Paged.Window

/-!
# The list of groups

`GET /findings/groups` takes the newest of the findings that a caller lists, gathers them by their
group key and sorts the groups by the severity that each of them shows. Its pages are the groups of
the scanned findings, each once and in order. The severity that a group shows is the greatest by the
place in `SEV_ORDER`, where the most severe comes first, so it is the least severe of its members.

Source: `backend/app/api/findings.py`, lines 114–181; `backend/app/services/findings_service.py`,
lines 135–245 and 294–334.

## Main definitions

* `scannedFindings`, `groupsList`, `getFindingsGroups`.
* `IsQuotient`: groups are the classes of the group key.
* `ShowsWorst`: groups show the most severe severity of their members.

## Main results

* `isQuotient_groupsList`, `flatMap_groups`: the groups, and their pages.
* `groups_faithful_iff`.
-/

namespace Vat

open Keyed Paged

/-! ### Severities -/

/-- `SEV_ORDER`. -/
def sevOrder : List Str :=
  [str "Critical", str "High", str "Medium", str "Low", str "Informational"]

/-- `_sev_index`. -/
def sevIndex (s : Str) : ℕ := (sevOrder.idxOf? s).getD 999

theorem sevIndex_value_injective : Function.Injective fun s : Severity => sevIndex s.value := by
  intro s t h
  cases s <;> cases t <;> first | rfl | exact absurd h (by decide)

/-! ### The scan -/

/-- The two limits of the scan. -/
structure ScanLimits where
  findingMaxLimit : ℤ
  findingGroupsScanLimit : ℤ

/-- The limit of the query. -/
def ScanLimits.effective (limits : ScanLimits) : ℤ :=
  if 0 < limits.findingGroupsScanLimit then
    min limits.findingGroupsScanLimit limits.findingMaxLimit
  else 0

/-- `list_findings`, with the limit of the scan: the newest findings first. -/
def scannedFindings (limits : ScanLimits) (findings : Relational.Table Finding) (ctx : UserContext)
    (filters : Finding → Bool) : List Finding :=
  let rows := (listedFindings findings ctx filters).insertionSort fun a b => CreatedBefore b a
  if 0 < limits.effective then rows.take limits.effective.toNat else rows

/-! ### Groups -/

/-- `finding_to_api_dict_with_group_key`. -/
structure GroupedFinding where
  finding : Finding
  groupKey : Str

/-- An entry of `groups`. -/
structure FindingGroup where
  groupKey : Str
  severity : Str
  findingCount : ℕ
  findings : List GroupedFinding

/-- The body of the response. -/
structure GroupsPage where
  groups : List FindingGroup
  total : ℕ
  scanLimitApplied : Bool

section Groups

variable [Unicode] [CharTables]

/-- The entry of a group. -/
def groupEntry (cfg : Settings) (key : Str) (flist : List Finding) : FindingGroup where
  groupKey := key
  severity :=
    ((gathered (firstBest fun f : Finding => sevIndex f.severity.value) flist).map
      fun f => f.severity.value).getD []
  findingCount := flist.length
  findings := flist.map fun f => ⟨f, getFindingGroupKey cfg f⟩

/-- `groups_list`, sorted. -/
def groupsList (cfg : Settings) (findings : List Finding) : List FindingGroup :=
  ((grouped (fun f => some (getFindingGroupKey cfg f)) findings).entries.map fun e =>
    groupEntry cfg e.1 e.2).insertionSort fun g h => sevIndex g.severity ≤ sevIndex h.severity

/-- `get_findings_groups`. -/
def getFindingsGroups (cfg : Settings) (limits : ScanLimits) (findings : Relational.Table Finding)
    (ctx : UserContext) (filters : Finding → Bool) (limit offset : ℕ) : GroupsPage :=
  let scanned := scannedFindings limits findings ctx filters
  { groups := window offset limit (groupsList cfg scanned)
    total := (groupsList cfg scanned).length
    scanLimitApplied := limits.findingGroupsScanLimit ≤ scanned.length }

/-! ### What the groups are -/

/-- Groups are the classes of the group key on some findings, each once, sorted by the severity that
they show. -/
structure IsQuotient (cfg : Settings) (scanned : List Finding) (groups : List FindingGroup) :
    Prop where
  keys_nodup : (groups.map FindingGroup.groupKey).Nodup
  members : ∀ g ∈ groups, g.findings.map GroupedFinding.finding =
    scanned.filter fun f => getFindingGroupKey cfg f = g.groupKey
  labels : ∀ g ∈ groups, ∀ f ∈ g.findings, f.groupKey = g.groupKey
  counts : ∀ g ∈ groups, g.findingCount = g.findings.length
  inhabited : ∀ g ∈ groups, g.findings ≠ []
  covers : ∀ f ∈ scanned, ∃ g ∈ groups, g.groupKey = getFindingGroupKey cfg f
  sorted : groups.Pairwise fun g h => sevIndex g.severity ≤ sevIndex h.severity

/-- A group shows the severity of a member, and no member has a more severe one. -/
def FindingGroup.ShowsWorst (g : FindingGroup) : Prop :=
  ∃ f ∈ g.findings, g.severity = f.finding.severity.value ∧
    ∀ f' ∈ g.findings, sevIndex g.severity ≤ sevIndex f'.finding.severity.value

/-- Findings with one group key have one severity. -/
def UniformGroups (cfg : Settings) (scanned : List Finding) : Prop :=
  ∀ f ∈ scanned, ∀ f' ∈ scanned,
    getFindingGroupKey cfg f = getFindingGroupKey cfg f' → f.severity = f'.severity

variable {cfg : Settings} {scanned : List Finding}

theorem mem_groupsList {g : FindingGroup} : g ∈ groupsList cfg scanned ↔
    ∃ f ∈ scanned, g = groupEntry cfg (getFindingGroupKey cfg f)
      (scanned.filter fun f' => getFindingGroupKey cfg f' = getFindingGroupKey cfg f) := by
  rw [groupsList, List.mem_insertionSort, List.mem_map]
  simp only [Prod.exists, mem_entries_grouped, Option.some_inj]
  constructor
  · rintro ⟨key, _, ⟨rfl, f, hf, rfl⟩, rfl⟩
    exact ⟨f, hf, rfl⟩
  · rintro ⟨f, hf, rfl⟩
    exact ⟨_, _, ⟨rfl, f, hf, rfl⟩, rfl⟩

theorem mem_groupEntry_findings {key : Str} {flist : List Finding} {f : GroupedFinding} :
    f ∈ (groupEntry cfg key flist).findings ↔
      f.finding ∈ flist ∧ f.groupKey = getFindingGroupKey cfg f.finding := by
  rw [groupEntry, List.mem_map]
  constructor
  · rintro ⟨f', hf', rfl⟩
    exact ⟨hf', rfl⟩
  · rintro ⟨hf, hkey⟩
    exact ⟨f.finding, hf, by rw [← hkey]⟩

/-- The severity that a group shows: that of a member, and no member has a less severe one. -/
theorem exists_severity_groupEntry (cfg : Settings) (key : Str) {flist : List Finding} (h : flist ≠ []) :
    ∃ f ∈ flist, (groupEntry cfg key flist).severity = f.severity.value ∧
      ∀ f' ∈ flist, sevIndex f'.severity.value ≤ sevIndex f.severity.value := by
  obtain ⟨f, hf⟩ := Option.ne_none_iff_exists'.mp (mt gathered_eq_none_iff.mp h)
  have hbest : IsBest (fun f : Finding => sevIndex f.severity.value) flist f :=
    isBest_of_gathered_firstBest hf
  refine ⟨f, hbest.1, ?_, hbest.2⟩
  rw [groupEntry, hf, Option.map_some, Option.getD_some]

theorem isQuotient_groupsList : IsQuotient cfg scanned (groupsList cfg scanned) where
  keys_nodup := by
    refine ((List.perm_insertionSort _ _).map FindingGroup.groupKey).nodup_iff.mpr ?_
    rw [List.map_map]
    exact (grouped _ scanned).nodup
  members := by
    rintro g hg
    obtain ⟨f, -, rfl⟩ := mem_groupsList.mp hg
    rw [groupEntry, List.map_map]
    exact List.map_id _
  labels := by
    rintro g hg f' hf'
    obtain ⟨f, -, rfl⟩ := mem_groupsList.mp hg
    obtain ⟨hmem, hlabel⟩ := mem_groupEntry_findings.mp hf'
    rw [List.mem_filter, decide_eq_true_eq] at hmem
    exact hlabel.trans hmem.2
  counts := by
    rintro g hg
    obtain ⟨f, -, rfl⟩ := mem_groupsList.mp hg
    exact (List.length_map _).symm
  inhabited := by
    rintro g hg
    obtain ⟨f, hf, rfl⟩ := mem_groupsList.mp hg
    refine List.ne_nil_of_mem (mem_groupEntry_findings.mpr ⟨?_, rfl⟩ :
      (⟨f, getFindingGroupKey cfg f⟩ : GroupedFinding) ∈ _)
    exact List.mem_filter.mpr ⟨hf, decide_eq_true rfl⟩
  covers f hf := ⟨_, mem_groupsList.mpr ⟨f, hf, rfl⟩, rfl⟩
  sorted := List.pairwise_insertionSort _ _

/-- The groups show the most severe severity of their members exactly if all of these have one. -/
theorem showsWorst_iff :
    (∀ g ∈ groupsList cfg scanned, g.ShowsWorst) ↔ UniformGroups cfg scanned := by
  constructor
  · intro h f hf f' hf' hkey
    have hclass : ∀ x ∈ scanned, getFindingGroupKey cfg x = getFindingGroupKey cfg f →
        x ∈ scanned.filter fun x => getFindingGroupKey cfg x = getFindingGroupKey cfg f :=
      fun x hx hxkey => List.mem_filter.mpr ⟨hx, decide_eq_true hxkey⟩
    obtain ⟨_, -, -, hworst⟩ := h _ (mem_groupsList.mpr ⟨f, hf, rfl⟩)
    obtain ⟨least, -, hshown, hleast⟩ := exists_severity_groupEntry cfg
      (getFindingGroupKey cfg f) (List.ne_nil_of_mem (hclass f hf rfl))
    -- the severity shown is at both ends of the order
    have hall : ∀ x ∈ scanned, getFindingGroupKey cfg x = getFindingGroupKey cfg f →
        x.severity = least.severity := by
      intro x hx hxkey
      have hge := hworst ⟨x, getFindingGroupKey cfg x⟩
        (mem_groupEntry_findings.mpr ⟨hclass x hx hxkey, rfl⟩)
      rw [hshown] at hge
      exact sevIndex_value_injective ((hleast x (hclass x hx hxkey)).antisymm hge)
    rw [hall f hf rfl, hall f' hf' hkey.symm]
  · rintro h g hg
    obtain ⟨f, hf, rfl⟩ := mem_groupsList.mp hg
    have hclass : f ∈ scanned.filter fun x => getFindingGroupKey cfg x = getFindingGroupKey cfg f :=
      List.mem_filter.mpr ⟨hf, decide_eq_true rfl⟩
    obtain ⟨least, hleast, hshown, -⟩ := exists_severity_groupEntry cfg
      (getFindingGroupKey cfg f) (List.ne_nil_of_mem hclass)
    refine ⟨⟨least, getFindingGroupKey cfg least⟩, mem_groupEntry_findings.mpr ⟨hleast, rfl⟩, hshown,
      fun x hx => ?_⟩
    have hxclass := (mem_groupEntry_findings.mp hx).1
    rw [List.mem_filter, decide_eq_true_eq] at hleast hxclass
    rw [hshown, h least hleast.1 x.finding hxclass.1 (hleast.2.trans hxclass.2.symm)]

/-! ### Pages -/

section Pages

variable {limits : ScanLimits} {findings : Relational.Table Finding} {ctx : UserContext}
  {filters : Finding → Bool} {limit n : ℕ}

/-- The pages one after the other. -/
def allGroups (cfg : Settings) (limits : ScanLimits) (findings : Relational.Table Finding)
    (ctx : UserContext) (filters : Finding → Bool) (limit n : ℕ) : List FindingGroup :=
  (List.range n).flatMap fun i =>
    (getFindingsGroups cfg limits findings ctx filters limit (i * limit)).groups

/-- The pages one after the other are the groups, if they reach the total. -/
theorem allGroups_eq
    (h : (getFindingsGroups cfg limits findings ctx filters limit 0).total ≤ n * limit) :
    allGroups cfg limits findings ctx filters limit n =
      groupsList cfg (scannedFindings limits findings ctx filters) :=
  flatMap_window h

/-- The pages of the list are the classes of the group key with the most severe severity of their
members exactly if the scanned findings of one group key have one severity. -/
theorem groups_faithful_iff (hlimit : 0 < limit) :
    (∀ n, (getFindingsGroups cfg limits findings ctx filters limit 0).total ≤ n * limit →
      IsQuotient cfg (scannedFindings limits findings ctx filters)
        (allGroups cfg limits findings ctx filters limit n) ∧
      ∀ g ∈ allGroups cfg limits findings ctx filters limit n, g.ShowsWorst) ↔
    UniformGroups cfg (scannedFindings limits findings ctx filters) := by
  rw [← showsWorst_iff]
  constructor
  · intro h
    have htotal := Nat.le_mul_of_pos_right
      (getFindingsGroups cfg limits findings ctx filters limit 0).total hlimit
    have hpages := (h _ htotal).2
    rwa [allGroups_eq htotal] at hpages
  · intro h n htotal
    rw [allGroups_eq htotal]
    exact ⟨isQuotient_groupsList, h⟩

end Pages

end Groups

/-! ### A critical finding in a group of low severity -/

/-- A finding of an SCA scanner. -/
def scaFinding (id : String) (severity : Severity) : Finding :=
  { Finding.blank (str id) (str id) (str "CVE-2024-1") with severity := severity }

/-- Two findings of one vulnerability. -/
def twoFindings (severity severity' : Severity) : Relational.Table Finding where
  rows := [scaFinding "f-1" severity, scaFinding "f-2" severity']
  pk_nodup := (by decide : [str "f-1", str "f-2"].Nodup)
  uk_nodup := (by decide : [str "f-1", str "f-2"].Nodup)

/-- A caller of every tenant. -/
def anyTenant : UserContext := ⟨[], none, [], true⟩

/-- The scan has the later of the two first. -/
theorem scannedFindings_two (severity severity' : Severity) :
    scannedFindings ⟨5000, 2000⟩ (twoFindings severity severity') anyTenant (fun _ => true) =
      [scaFinding "f-2" severity', scaFinding "f-1" severity] := rfl

attribute [local instance] asciiUnicode asciiCharTables

/-- The group of a critical and a low finding shows `Low`. -/
theorem not_groups_faithful : ¬ ∀ (cfg : Settings) (limits : ScanLimits)
    (findings : Relational.Table Finding) (ctx : UserContext) (filters : Finding → Bool)
    (limit n : ℕ), 0 < limit →
      (getFindingsGroups cfg limits findings ctx filters limit 0).total ≤ n * limit →
        IsQuotient cfg (scannedFindings limits findings ctx filters)
          (allGroups cfg limits findings ctx filters limit n) ∧
        ∀ g ∈ allGroups cfg limits findings ctx filters limit n, g.ShowsWorst := by
  intro h
  have htotal : (getFindingsGroups ⟨false, []⟩ ⟨5000, 2000⟩ (twoFindings .low .critical) anyTenant
      (fun _ => true) 100 0).total ≤ 1 * 100 := by
    decide +kernel
  have hworst := (h ⟨false, []⟩ ⟨5000, 2000⟩ (twoFindings .low .critical) anyTenant (fun _ => true)
    100 1 (by decide) htotal).2
  rw [allGroups_eq htotal, showsWorst_iff, scannedFindings_two] at hworst
  have hsame := hworst (scaFinding "f-2" .critical) List.mem_cons_self (scaFinding "f-1" .low)
    (List.mem_cons_of_mem _ List.mem_cons_self) (by decide +kernel)
  exact absurd hsame (by decide)

/-- The page of two low findings. -/
theorem groups_faithful_low :
    IsQuotient ⟨false, []⟩ (scannedFindings ⟨5000, 2000⟩ (twoFindings .low .low) anyTenant
        fun _ => true)
      (allGroups ⟨false, []⟩ ⟨5000, 2000⟩ (twoFindings .low .low) anyTenant (fun _ => true) 100 1) ∧
    ∀ g ∈ allGroups ⟨false, []⟩ ⟨5000, 2000⟩ (twoFindings .low .low) anyTenant (fun _ => true) 100 1,
      g.ShowsWorst := by
  have htotal : (getFindingsGroups ⟨false, []⟩ ⟨5000, 2000⟩ (twoFindings .low .low) anyTenant
      (fun _ => true) 100 0).total ≤ 1 * 100 := by
    decide +kernel
  refine (groups_faithful_iff (by decide)).mpr (fun f hf f' hf' _ => ?_) 1 htotal
  have hlow : ∀ x ∈ [scaFinding "f-2" .low, scaFinding "f-1" .low], x.severity = .low := by
    decide
  rw [scannedFindings_two] at hf hf'
  rw [hlow f hf, hlow f' hf']

end Vat
