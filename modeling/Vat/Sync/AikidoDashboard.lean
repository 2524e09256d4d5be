import Vat.Adapters.Aikido

/-!
# The dashboard of Aikido issues

The dashboard and its Excel export show an issue with a status and a repository, in which the branch
stands in brackets. They are derived a second time, beside the finding that the issue becomes: the
status in the same way, the repository with another test for containers, another fallback, and the
branch of the name only where no map of branches is given.

Source: `backend/app/services/aikido_dashboard_sync.py`, lines 64–185.

## Main definitions

* `normalizeIssue`: the row of an issue.
* `Agrees`: a row shows the status, the asset and the branch of a finding.
* `SameAsset`, `SameBranch`: what an issue must have for that.

## Main results

* `agrees_iff`: the row of an issue agrees with its finding exactly if the two ways to read the
  asset and the branch meet.
-/

namespace Vat

/-- `_is_container_path`. -/
def isContainerPath [Unicode] (name : Str) : Bool :=
  let parts := (Str.strip name).splitOn '/'
  decide (3 ≤ parts.length) && Unicode.lower (parts.dropLast.getLastD []) == str "images"

section Dashboard

variable [ReprText] [Unicode] [IntOfText]

/-- `_aikido_status_to_vat`. -/
def aikidoStatusToVat (rawStatus : Str) (ignoredAt closedAt : Loaded) : Str :=
  if ignoredAt.truthy then str "Suppressed"
  else
    let s := Unicode.lower (if rawStatus = [] then str "open" else rawStatus)
    if s ∈ [str "ignored", str "auto_ignored", str "suppressed"] then str "Suppressed"
    else if closedAt.truthy ∨ s ∈ [str "closed", str "resolved"] then str "Resolved"
    else str "Open"

/-- A row of the dashboard, with the asset in its repository. -/
structure DashboardIssue where
  vatStatus : Str
  repoBase : Str
  repository : Str
  deriving DecidableEq

/-- A repository with its branch. -/
def withBranch (repo branch : Str) : Str := repo ++ str " (" ++ branch ++ str ")"

/-- The asset in a name, and the branch. -/
def dashboardName (issue : Loaded) (name : Str) : Str × Str :=
  if isContainer issue && isContainerPath name then (stripTagFromContainerName name, [])
  else parseRepoNameWithBranch name

/-- The branch that an issue has under its first two names. -/
def explicitBranch (issue : Loaded) : Loaded := firstOf issue ["branch", "git_branch"]

/-- The fields that the repository is read from if the issue names no asset. -/
def fallbackRepo (issue : Loaded) : Loaded :=
  firstOf issue
    ["container_repo_name", "containerRepoName", "code_repo_name", "codeRepoName", "repository"]

/-- A branch, if there is one. -/
def branchOrNone (branch : Str) : Option Str := if branch = [] then none else some branch

/-- The branch of a row: the one that the issue names, or else the one that `_extract_branch` gives,
if there is a map of branches, or else the one in the name. -/
def dashboardBranch (issue : Loaded) (repoMap : RepoMap) (inName : Str) :
    Except PyError (Option Str) :=
  if (explicitBranch issue).truthy then .ok (some (explicitBranch issue).pyStr)
  else (if repoMap.isEmpty then .ok inName else extractBranch issue repoMap).map branchOrNone

/-- The row of an issue with an asset and a branch. -/
def dashboardRow (issue : Loaded) (base : Str) (branch : Option Str) : DashboardIssue where
  vatStatus := aikidoStatusToVat
    (Unicode.lower ((issue.member "status").or (.ofString "open")).pyStr)
    (firstOf issue ["ignored_at", "ignoredAt"]) (firstOf issue ["closed_at", "closedAt"])
  repoBase := base
  repository := if base = [] then [] else branch.elim base (withBranch base)

/-- `_normalize_issue`. -/
def normalizeIssue (issue : Loaded) (repoMap repoIdToName : RepoMap) :
    Except PyError DashboardIssue := do
  let rawAsset := extractAssetName issue
  let repoName ←
    if rawAsset = [] ∧ ¬ (fallbackRepo issue).truthy then repoIdToName.ofIssue issue else .ok .null
  let named :=
    if rawAsset ≠ [] then dashboardName issue rawAsset
    else if (fallbackRepo issue).truthy then
      dashboardName issue (Str.strip (fallbackRepo issue).pyStr)
    else if repoName.truthy then parseRepoNameWithBranch repoName.pyStr
    else ([], [])
  let branch ← dashboardBranch issue repoMap named.2
  return dashboardRow issue named.1 branch

/-- The row shows the status, the asset and the branch of the finding. -/
structure Agrees (row : DashboardIssue) (finding : AikidoFinding) : Prop where
  status : row.vatStatus = finding.status
  asset : row.repoBase = finding.image
  repository : row.repository =
    if finding.image = [] then []
    else if finding.branch = [] then finding.image
    else withBranch finding.image finding.branch

/-! ### The row of an issue -/

theorem normalizeIssue_of_asset {issue : Loaded} (h : extractAssetName issue ≠ [])
    (repoMap repoIdToName : RepoMap) :
    normalizeIssue issue repoMap repoIdToName =
      (dashboardBranch issue repoMap (dashboardName issue (extractAssetName issue)).2).map
        (dashboardRow issue (dashboardName issue (extractAssetName issue)).1) := by
  rw [normalizeIssue]
  simp only [h, false_and, ↓reduceIte, Transition.ok_bind, ne_eq, not_false_eq_true]
  rfl

/-- The name that is looked up for an issue, unless a blank field stands in for it. -/
def lookedUpName (issue : Loaded) (repoIdToName : RepoMap) : Except PyError Str :=
  if (fallbackRepo issue).truthy then .ok [] else repoNameOf issue repoIdToName

theorem normalizeIssue_of_no_asset {issue : Loaded} (h : extractAssetName issue = [])
    (repoMap repoIdToName : RepoMap) :
    normalizeIssue issue repoMap repoIdToName =
      (lookedUpName issue repoIdToName).bind fun name =>
        (dashboardBranch issue repoMap (parseRepoNameWithBranch name).2).map
          (dashboardRow issue (parseRepoNameWithBranch name).1) := by
  rw [normalizeIssue, lookedUpName]
  by_cases hfallback : (fallbackRepo issue).truthy = true
  · have hblank : Str.strip (fallbackRepo issue).pyStr = [] :=
      strip_firstOf_of_no_asset h (by decide) hfallback
    have hpath : isContainerPath [] = false := rfl
    have hnamed : dashboardName issue [] = parseRepoNameWithBranch [] := by
      rw [dashboardName, hpath, Bool.and_false]
      rfl
    simp only [h, hfallback, hblank, hnamed, not_true_eq_false, and_false, ↓reduceIte, ne_eq,
      Transition.ok_bind]
    rfl
  · simp only [h, hfallback, not_false_eq_true, and_self, ↓reduceIte, ne_eq, not_true_eq_false,
      repoNameOf, Bool.false_eq_true]
    cases repoIdToName.ofIssue issue with
    | error e => rfl
    | ok v =>
      simp only [Except.map, Except.bind, Transition.ok_bind]
      split_ifs
      · rw [parseRepoNameWithBranch_strip]
        rfl
      · rw [parseRepoNameWithBranch_of_blank Str.strip_nil]
        rfl

/-! ### Status -/

omit [IntOfText] in
/-- The two readings of the status of an issue give it one meaning. -/
theorem mem_statuses_iff
    (hlower : ∀ s : Str, Unicode.lower (Unicode.lower s) = Unicode.lower s) (v : Loaded)
    {statuses : List Str} (hopen : str "open" ∉ statuses) (hnil : [] ∉ statuses) :
    Unicode.lower (if Unicode.lower (v.or (.ofString "open")).pyStr = [] then str "open"
        else Unicode.lower (v.or (.ofString "open")).pyStr) ∈ statuses ↔
      Unicode.lower (v.or (.text [])).pyStr ∈ statuses := by
  have hopenLower : Unicode.lower (str "open") = str "open" := Unicode.lower_eq_self (by decide)
  have hnilLower : Unicode.lower [] = [] := Unicode.lower_eq_self rfl
  by_cases hv : v.truthy = true
  · rw [Loaded.or, Loaded.or, if_pos hv, if_pos hv]
    split_ifs with hempty
    · rw [hopenLower, hempty]
      exact iff_of_false hopen hnil
    · rw [hlower]
  · rw [Loaded.or, Loaded.or, if_neg hv, if_neg hv, Loaded.ofString, Loaded.pyStr, Loaded.pyStr,
      hopenLower, hnilLower, if_neg (by decide), hopenLower]
    exact iff_of_false hopen hnil

omit [IntOfText] in
/-- An issue has one status. -/
theorem vatStatus_dashboardRow
    (hlower : ∀ s : Str, Unicode.lower (Unicode.lower s) = Unicode.lower s) (issue : Loaded)
    (base : Str) (branch : Option Str) :
    (dashboardRow issue base branch).vatStatus = findingStatus issue := by
  have hsuppressed : ∀ s : Str, s ∈ [str "ignored", str "auto_ignored", str "suppressed"] ↔
      s ∈ [str "ignored", str "suppressed", str "auto_ignored"] := fun s =>
    (List.Perm.cons _ (List.Perm.swap _ _ _)).mem_iff
  have hignored : _ ∈ [str "ignored", str "suppressed", str "auto_ignored"] ↔ _ :=
    mem_statuses_iff hlower (issue.member "status") (by decide) (by decide)
  have hclosed : _ ∈ [str "closed", str "resolved"] ↔ _ :=
    mem_statuses_iff hlower (issue.member "status") (by decide) (by decide)
  simp only [dashboardRow, aikidoStatusToVat, findingStatus, hsuppressed, hignored, hclosed, ite_or]

/-! ### Repository -/

omit [ReprText] [Unicode] [IntOfText] in
theorem withBranch_inj {repo branch branch' : Str} :
    withBranch repo branch = withBranch repo branch' ↔ branch = branch' := by
  rw [withBranch, withBranch, List.append_left_inj, List.append_right_inj]

omit [ReprText] [Unicode] [IntOfText] in
theorem withBranch_ne_self {repo branch : Str} : withBranch repo branch ≠ repo := by
  intro h
  have hlen := congrArg List.length h
  simp [withBranch, str] at hlen

omit [IntOfText] in
/-- A row shows a finding with its status exactly if it has the asset and, if there is one, the
branch. -/
theorem agrees_dashboardRow_iff {issue : Loaded} {base : Str} {branch : Option Str}
    {finding : AikidoFinding}
    (hstatus : (dashboardRow issue base branch).vatStatus = finding.status) :
    Agrees (dashboardRow issue base branch) finding ↔
      base = finding.image ∧
        (base ≠ [] → branch = branchOrNone finding.branch) := by
  have hrepository : base = finding.image → base ≠ [] →
      ((dashboardRow issue base branch).repository =
        (if finding.branch = [] then finding.image else withBranch finding.image finding.branch) ↔
        branch = branchOrNone finding.branch) := by
    rintro rfl hne
    rw [dashboardRow, if_neg hne, branchOrNone]
    cases branch with
    | none =>
      split_ifs with hbranch
      · exact iff_of_true rfl rfl
      · exact iff_of_false withBranch_ne_self.symm (by rintro ⟨⟩)
    | some branch =>
      split_ifs with hbranch
      · exact iff_of_false withBranch_ne_self (by rintro ⟨⟩)
      · exact withBranch_inj.trans (Option.some_inj).symm
  constructor
  · intro h
    refine ⟨h.asset, fun hne => (hrepository h.asset hne).mp ?_⟩
    rw [h.repository, if_neg fun himage => hne (h.asset.trans himage)]
  · rintro ⟨hasset, hbranch⟩
    refine ⟨hstatus, hasset, ?_⟩
    by_cases hne : base = []
    · rw [if_pos (hasset ▸ hne), dashboardRow, if_pos hne]
    · rw [if_neg fun himage => hne (hasset.trans himage)]
      exact (hrepository hasset hne).mpr (hbranch hne)

/-! ### When they agree -/

/-- What is read, or nothing in case of an error. -/
def readText (x : Except PyError Str) : Str := x.toOption.getD []

omit [ReprText] [Unicode] [IntOfText] in
@[simp] theorem readText_ok (s : Str) : readText (.ok s) = s := rfl

/-- The branch that the name of an asset gives its finding. A name that is looked up gives none
where there is a default. -/
def branchInAdapterName (issue : Loaded) (repoIdToName : RepoMap) : Str :=
  if extractAssetName issue ≠ [] then (adapterName issue (extractAssetName issue)).2
  else if defaultBranch issue = [] then
    (parseRepoNameWithBranch (readText (repoNameOf issue repoIdToName))).2
  else []

/-- The branch that the name of an asset gives its row. -/
def branchInDashboardName (issue : Loaded) (repoIdToName : RepoMap) : Str :=
  if extractAssetName issue ≠ [] then (dashboardName issue (extractAssetName issue)).2
  else (parseRepoNameWithBranch (readText (repoNameOf issue repoIdToName))).2

/-- The issue has an asset: a name of its own, or one that is looked up. -/
def HasAsset (issue : Loaded) (repoIdToName : RepoMap) : Prop :=
  extractAssetName issue ≠ [] ∨ readText (repoNameOf issue repoIdToName) ≠ []

/-- The ways to read the asset of an issue meet. -/
structure SameAsset (issue : Loaded) (repoIdToName : RepoMap) : Prop where
  /-- The tests for the path of a container agree, or its tag is all that parsing takes away. -/
  container : extractAssetName issue ≠ [] → isContainer issue →
    isImagePath (extractAssetName issue) = isContainerPath (extractAssetName issue) ∨
      stripTagFromContainerName (extractAssetName issue) =
        (parseRepoNameWithBranch (extractAssetName issue)).1
  /-- No blank field keeps the dashboard from looking the name up. -/
  fallback : extractAssetName issue = [] → readText (repoNameOf issue repoIdToName) ≠ [] →
    ¬ (fallbackRepo issue).truthy
  /-- No package stands in for the asset. -/
  package : extractAssetName issue = [] → readText (repoNameOf issue repoIdToName) = [] →
    (repoIdOf issue).isNull → packageOf issue = []

/-- The ways to read the branch of an issue meet, where the names of the asset give these. -/
structure SameBranch (issue : Loaded) (repoMap : RepoMap) (extracted inAdapterName
    inDashboardName : Str) : Prop where
  /-- The branch that the issue names is the one that is extracted, or else in the name, or else the
  default. -/
  explicit : (explicitBranch issue).truthy → (explicitBranch issue).pyStr ≠ [] ∧
    (explicitBranch issue).pyStr = firstText [extracted, inAdapterName, defaultBranch issue]
  /-- With a map of branches, one is extracted, or there is none at all. -/
  mapped : ¬ (explicitBranch issue).truthy → ¬ repoMap.isEmpty →
    extracted ≠ [] ∨ inAdapterName = [] ∧ defaultBranch issue = []
  /-- Without one, the branch in the name is the one that is extracted, or else in the name, or else
  the default. -/
  named : ¬ (explicitBranch issue).truthy → repoMap.isEmpty →
    inDashboardName = firstText [extracted, inAdapterName, defaultBranch issue]

/-- The ways to read the asset and the branch of an issue meet. -/
def ReadsAlike (issue : Loaded) (repoMap repoIdToName : RepoMap) : Prop :=
  SameAsset issue repoIdToName ∧
    (HasAsset issue repoIdToName → SameBranch issue repoMap (readText (extractBranch issue repoMap))
      (branchInAdapterName issue repoIdToName) (branchInDashboardName issue repoIdToName))

omit [ReprText] [Unicode] [IntOfText] in
theorem branchOrNone_inj {branch branch' : Str} :
    branchOrNone branch = branchOrNone branch' ↔ branch = branch' := by
  rw [branchOrNone, branchOrNone]
  split_ifs with h h' h'
  · exact iff_of_true rfl (h.trans h'.symm)
  · exact iff_of_false (by rintro ⟨⟩) fun heq => h' (heq ▸ h)
  · exact iff_of_false (by rintro ⟨⟩) fun heq => h (heq ▸ h')
  · exact Option.some_inj

omit [ReprText] [Unicode] [IntOfText] in
theorem some_eq_branchOrNone_iff {branch branch' : Str} :
    some branch = branchOrNone branch' ↔ branch ≠ [] ∧ branch = branch' := by
  rw [branchOrNone]
  split_ifs with h
  · exact iff_of_false (by rintro ⟨⟩) fun hb => hb.1 (hb.2.trans h)
  · exact Option.some_inj.trans (and_iff_right_of_imp fun heq => heq ▸ h).symm

omit [ReprText] [Unicode] [IntOfText] in
/-- A text that the default keeps out can as well stand before it. -/
theorem firstText_keepOut (extracted default inName : Str) :
    firstText [extracted, default, inName] =
      firstText [extracted, if default = [] then inName else [], default] := by
  by_cases h : extracted = []
  · by_cases hdefault : default = []
    · simp [firstText, h, hdefault]
    · simp [firstText, h, hdefault]
  · rw [firstText_cons_of_ne h, firstText_cons_of_ne h]

omit [ReprText] [Unicode] [IntOfText] in
/-- A branch that is extracted comes first. -/
theorem eq_firstText_iff {extracted inName default : Str} :
    extracted = firstText [extracted, inName, default] ↔
      extracted ≠ [] ∨ inName = [] ∧ default = [] := by
  by_cases h : extracted = []
  · rw [h, firstText_nil_cons, eq_comm, firstText_eq_nil_iff]
    simp
  · rw [firstText_cons_of_ne h]
    simp [h]

/-- The branch of the row is that of the finding exactly if the ways to read it meet. -/
theorem exists_dashboardBranch {issue : Loaded} {repoMap : RepoMap} {extracted inAdapterName
    inDashboardName : Str} (hextracted : extractBranch issue repoMap = .ok extracted) :
    ∃ branch, dashboardBranch issue repoMap inDashboardName = .ok branch ∧
      (branch = branchOrNone (firstText [extracted, inAdapterName, defaultBranch issue]) ↔
        SameBranch issue repoMap extracted inAdapterName inDashboardName) := by
  rw [dashboardBranch]
  by_cases hexplicit : (explicitBranch issue).truthy = true
  · refine ⟨_, if_pos hexplicit, some_eq_branchOrNone_iff.trans ⟨fun h => ?_, fun h => ?_⟩⟩
    · exact ⟨fun _ => h, fun hno => absurd hexplicit hno, fun hno => absurd hexplicit hno⟩
    · exact h.explicit hexplicit
  · rw [if_neg hexplicit]
    by_cases hmap : repoMap.isEmpty = true
    · refine ⟨_, by rw [if_pos hmap]; rfl, branchOrNone_inj.trans ⟨fun h => ?_, fun h => ?_⟩⟩
      · exact ⟨fun hyes => absurd hyes hexplicit, fun _ hno => absurd hmap hno, fun _ _ => h⟩
      · exact h.named hexplicit hmap
    · refine ⟨_, by rw [if_neg hmap, hextracted]; rfl,
        branchOrNone_inj.trans (eq_firstText_iff.trans ⟨fun h => ?_, fun h => ?_⟩)⟩
      · exact ⟨fun hyes => absurd hyes hexplicit, fun _ _ => h, fun _ hyes => absurd hyes hmap⟩
      · exact h.mapped hexplicit hmap

/-! ### The asset of an issue -/

omit [ReprText] [IntOfText] in
/-- The two assets in a name are one. -/
theorem dashboardName_fst_eq_iff {issue : Loaded} {name : Str} :
    (dashboardName issue name).1 = (adapterName issue name).1 ↔
      (isContainer issue → isImagePath name = isContainerPath name ∨
        stripTagFromContainerName name = (parseRepoNameWithBranch name).1) := by
  rw [dashboardName, adapterName]
  cases isContainer issue <;> cases isImagePath name <;> cases isContainerPath name <;>
    simp [eq_comm]

omit [Unicode] [IntOfText] in
theorem strip_readText_repoNameOf (issue : Loaded) (repoIdToName : RepoMap) :
    Str.strip (readText (repoNameOf issue repoIdToName)) =
      readText (repoNameOf issue repoIdToName) := by
  rw [repoNameOf]
  cases repoIdToName.ofIssue issue with
  | error e => rfl
  | ok v =>
    simp only [Except.map, readText_ok]
    split_ifs
    · exact Str.strip_strip _
    · rfl

omit [IntOfText] in
theorem sameAsset_iff_of_asset {issue : Loaded} {repoIdToName : RepoMap}
    (h : extractAssetName issue ≠ []) :
    SameAsset issue repoIdToName ↔
      (dashboardName issue (extractAssetName issue)).1 =
        (adapterName issue (extractAssetName issue)).1 := by
  rw [dashboardName_fst_eq_iff]
  exact ⟨fun hs => hs.container h,
    fun hc => ⟨fun _ => hc, fun hno => absurd hno h, fun hno => absurd hno h⟩⟩

omit [IntOfText] in
/-- The name that the dashboard looks up for an issue without an asset of its own. -/
theorem sameAsset_iff_of_no_asset {issue : Loaded} {repoIdToName : RepoMap} {name : Str}
    (h : extractAssetName issue = []) (hname : repoNameOf issue repoIdToName = .ok name) :
    SameAsset issue repoIdToName ↔
      (parseRepoNameWithBranch (if (fallbackRepo issue).truthy then [] else name)).1 =
        firstText [(parseRepoNameWithBranch name).1,
          if (repoIdOf issue).isNull then packageOf issue else []] := by
  have hstrip : Str.strip name = name := by
    simpa [hname] using strip_readText_repoNameOf issue repoIdToName
  have hread : readText (repoNameOf issue repoIdToName) = name := by rw [hname, readText_ok]
  have hblank : (parseRepoNameWithBranch []).1 = [] :=
    parseRepoNameWithBranch_fst_eq_nil_iff.mpr Str.strip_nil
  by_cases hnil : name = []
  · rw [hnil, ite_self, hblank, firstText_nil_cons, firstText_singleton, eq_comm,
      ite_eq_right_iff]
    exact ⟨fun hs => hs.package h (hread.trans hnil), fun hp =>
      ⟨fun hno => absurd h hno, fun _ hno => absurd (hread.trans hnil) hno, fun _ _ => hp⟩⟩
  · have hne : (parseRepoNameWithBranch name).1 ≠ [] :=
      parseRepoNameWithBranch_fst_eq_nil_iff.not.mpr (hstrip.symm ▸ hnil)
    rw [firstText_cons_of_ne hne]
    by_cases hfallback : (fallbackRepo issue).truthy = true
    · rw [if_pos hfallback, hblank]
      exact iff_of_false (fun hs => hs.fallback h (hread.symm ▸ hnil) hfallback) hne.symm
    · rw [if_neg hfallback]
      exact iff_of_true ⟨fun hno => absurd h hno, fun _ _ => hfallback,
        fun _ hno => absurd (hread.symm.trans hno) hnil⟩ rfl

/-! ### The row and the finding -/

section Agree

variable {issue : Loaded} {repoMap repoIdToName : RepoMap} {finding : AikidoFinding}

theorem agrees_iff_of_asset
    (hlower : ∀ s : Str, Unicode.lower (Unicode.lower s) = Unicode.lower s)
    (hasset : extractAssetName issue ≠ [])
    (hfinding : toVatFinding issue repoMap repoIdToName = .ok finding) :
    ∃ row, normalizeIssue issue repoMap repoIdToName = .ok row ∧
      row.vatStatus = finding.status ∧
      (Agrees row finding ↔ ReadsAlike issue repoMap repoIdToName) := by
  rw [toVatFinding_of_asset hasset] at hfinding
  cases hextracted : extractBranch issue repoMap with
  | error e =>
    rw [hextracted] at hfinding
    cases hfinding
  | ok extracted =>
    rw [hextracted] at hfinding
    obtain rfl := Except.ok.inj hfinding
    obtain ⟨branch, hbranch, hiff⟩ := exists_dashboardBranch hextracted
    refine ⟨dashboardRow issue (dashboardName issue (extractAssetName issue)).1 branch, ?_,
      vatStatus_dashboardRow hlower _ _ _, ?_⟩
    · rw [normalizeIssue_of_asset hasset, hbranch]
      rfl
    · rw [agrees_dashboardRow_iff (vatStatus_dashboardRow hlower _ _ _), ReadsAlike,
        sameAsset_iff_of_asset hasset, hextracted, readText_ok, branchInAdapterName,
        branchInDashboardName, if_pos hasset, if_pos hasset, ← hiff]
      refine and_congr_right fun heq => ?_
      have hne : (adapterName issue (extractAssetName issue)).1 ≠ [] :=
        adapterName_fst_ne_nil ((strip_extractAssetName issue).symm ▸ hasset)
      exact ⟨fun h _ => h (heq ▸ hne), fun h _ => h (Or.inl hasset)⟩

theorem agrees_iff_of_no_asset
    (hlower : ∀ s : Str, Unicode.lower (Unicode.lower s) = Unicode.lower s)
    (hasset : extractAssetName issue = [])
    (hfinding : toVatFinding issue repoMap repoIdToName = .ok finding) :
    ∃ row, normalizeIssue issue repoMap repoIdToName = .ok row ∧
      row.vatStatus = finding.status ∧
      (Agrees row finding ↔ ReadsAlike issue repoMap repoIdToName) := by
  rw [toVatFinding_of_no_asset hasset] at hfinding
  obtain ⟨extracted, hextracted, hfinding⟩ := Transition.bind_eq_ok_iff.mp hfinding
  obtain ⟨name, hname, hfinding⟩ := Transition.bind_eq_ok_iff.mp hfinding
  obtain rfl := Except.ok.inj hfinding
  have hread : readText (repoNameOf issue repoIdToName) = name := by rw [hname, readText_ok]
  have hstrip : Str.strip name = name := by
    simpa [hname] using strip_readText_repoNameOf issue repoIdToName
  have hinName : branchInAdapterName issue repoIdToName =
      if defaultBranch issue = [] then (parseRepoNameWithBranch name).2 else [] := by
    rw [branchInAdapterName, if_neg (not_not.mpr hasset), hread]
  obtain ⟨branch, hbranch, hiff⟩ := exists_dashboardBranch hextracted
  refine ⟨dashboardRow issue
      (parseRepoNameWithBranch (if (fallbackRepo issue).truthy then [] else name)).1 branch, ?_,
    vatStatus_dashboardRow hlower _ _ _, ?_⟩
  · have hlooked : lookedUpName issue repoIdToName =
        .ok (if (fallbackRepo issue).truthy then [] else name) := by
      rw [lookedUpName, hname]
      split_ifs <;> rfl
    rw [normalizeIssue_of_no_asset hasset, hlooked, Except.bind, hbranch]
    rfl
  · rw [agrees_dashboardRow_iff (vatStatus_dashboardRow hlower _ _ _), ReadsAlike,
      ← sameAsset_iff_of_no_asset hasset hname, hextracted, readText_ok, HasAsset, hread,
      or_iff_right (not_not.mpr hasset), branchInDashboardName, if_neg (not_not.mpr hasset), hread]
    refine and_congr_right fun hs => ?_
    by_cases hnil : name = []
    · rw [hnil, ite_self]
      exact iff_of_true (fun hne => absurd (parseRepoNameWithBranch_fst_eq_nil_iff.mpr rfl) hne)
        fun hne => absurd rfl hne
    · have hfallback : ¬ (fallbackRepo issue).truthy := hs.fallback hasset (hread.symm ▸ hnil)
      rw [if_neg hfallback] at hiff ⊢
      have hne : (parseRepoNameWithBranch name).1 ≠ [] :=
        parseRepoNameWithBranch_fst_eq_nil_iff.not.mpr (hstrip.symm ▸ hnil)
      rw [firstText_keepOut, ← hinName, hiff]
      exact ⟨fun h _ => h hne, fun h _ => h hnil⟩

/-- The row of an issue agrees with the finding that the issue becomes exactly if the ways to read
its asset and its branch meet. The status is always the same. -/
theorem agrees_iff (hlower : ∀ s : Str, Unicode.lower (Unicode.lower s) = Unicode.lower s)
    (hfinding : toVatFinding issue repoMap repoIdToName = .ok finding) :
    ∃ row, normalizeIssue issue repoMap repoIdToName = .ok row ∧
      row.vatStatus = finding.status ∧
      (Agrees row finding ↔ ReadsAlike issue repoMap repoIdToName) := by
  by_cases hasset : extractAssetName issue = []
  · exact agrees_iff_of_no_asset hlower hasset hfinding
  · exact agrees_iff_of_asset hlower hasset hfinding

end Agree

end Dashboard

/-! ### A repository without a branch -/

section NoBranch

attribute [local instance] noRepr asciiUnicode noIntOfText

theorem lower_lower_asciiUnicode (s : Str) : Unicode.lower (Unicode.lower s) = Unicode.lower s := by
  refine List.map_map.trans (List.map_congr_left fun c _ => ?_)
  exact toLower_toLower c

/-- An issue in a repository. -/
def repositoryIssue (fields : List (Str × Loaded)) : Loaded :=
  .dict ((str "code_repo_name", .ofString "kamiwaza") :: fields)

/-- The branch that an issue names is on both sides. -/
theorem agrees_of_branch :
    ∃ row, normalizeIssue (repositoryIssue [(str "branch", .ofString "develop")]) [] [] = .ok row ∧
      Agrees row ⟨str "Open", str "kamiwaza", str "develop"⟩ := by
  obtain ⟨row, hrow, -, hiff⟩ := agrees_iff lower_lower_asciiUnicode
    (show toVatFinding (repositoryIssue [(str "branch", .ofString "develop")]) [] [] =
      .ok ⟨str "Open", str "kamiwaza", str "develop"⟩ by decide +kernel)
  refine ⟨row, hrow, hiff.mpr ⟨⟨?_, ?_, ?_⟩, fun _ => ⟨?_, ?_, ?_⟩⟩⟩
  all_goals decide +kernel

/-- A repository without a branch is on the branch main of the database alone. -/
theorem not_agrees :
    ¬ ∀ (_ : ReprText) (_ : Unicode) (_ : IntOfText) (issue : Loaded)
      (repoMap repoIdToName : RepoMap) (finding : AikidoFinding),
      toVatFinding issue repoMap repoIdToName = .ok finding →
        ∃ row, normalizeIssue issue repoMap repoIdToName = .ok row ∧ Agrees row finding := by
  intro h
  obtain ⟨row, hrow, hagrees⟩ := h noRepr asciiUnicode noIntOfText (repositoryIssue []) [] []
    ⟨str "Open", str "kamiwaza", str "main"⟩ (by decide +kernel)
  have hrow' : normalizeIssue (repositoryIssue []) [] [] =
      .ok ⟨str "Open", str "kamiwaza", str "kamiwaza"⟩ := by decide +kernel
  obtain rfl := Except.ok.inj (hrow.symm.trans hrow')
  exact absurd hagrees.repository (by decide +kernel)

end NoBranch

end Vat
