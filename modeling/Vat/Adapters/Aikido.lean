import Vat.Findings.GroupKey
import Vat.Inbound.AikidoEvents
import Vat.Regular.Backtracking
import Vat.Sbom.ContainerDigests

/-!
# What is read from an Aikido issue

The status, the asset and the branch of the finding that an issue becomes. The asset is the name of
a container or of a repository, which may have its branch in it; the branch is looked up under the
repository, or else read from any of some twenty fields. An empty text stands for none.

Source: `backend/app/adapters/aikido.py`, lines 165–249, 540–577, 824–881, 1079–1101,
1116–1184 and 1333–1345.

## Main definitions

* `extractBranch`, `extractAssetName`, `parseRepoNameWithBranch`.
* `toVatFinding`: the status, the asset and the branch of the finding of an issue.
-/

namespace Vat

/-! ### Fields -/

/-- `v is None`. -/
def Loaded.isNull : Loaded → Bool
  | .null => true
  | _ => false

/-- The elements of a list; any other value has none. -/
def Loaded.elements : Loaded → List Loaded
  | .list items => items
  | _ => []

/-- `issue.get(k₁) or issue.get(k₂) or …`. -/
def firstOf (issue : Loaded) : List String → Loaded
  | [] => .null
  | [k] => issue.member k
  | k :: ks => (issue.member k).or (firstOf issue ks)

/-- `int(s)`, of a text that is a whole number. -/
class IntOfText where
  int? : Str → Option ℤ

/-- No text is a whole number. -/
@[reducible] def noIntOfText : IntOfText := ⟨fun _ => none⟩

/-- `int(v)`. -/
def Loaded.toInt [IntOfText] : Loaded → Except PyError ℤ
  | .bool b => .ok (if b then 1 else 0)
  | .int i => .ok i
  | .float x => x.size.toInt
  | .text s => (IntOfText.int? s).elim (.error .valueError) .ok
  | .null | .list _ | .dict _ => .error .typeError

section Read

variable [ReprText]

/-- The first text under some names that is not blank, stripped. -/
def textUnder (v : Loaded) (keys : List String) : Str :=
  firstText (keys.map fun k =>
    if (v.member k).truthy then Str.strip (v.member k).pyStr else [])

/-- The first text under some names in a list of values. -/
def textIn (values : List Loaded) (keys : List String) : Str :=
  firstText (values.map (textUnder · keys))

/-! ### Values under the id of a repository -/

/-- A `dict` with the ids of repositories as its keys. -/
abbrev RepoMap := List (HashKey × Loaded)

/-- `repo_map.get(key)`. -/
def RepoMap.get (m : RepoMap) (key : HashKey) : Loaded := (m.lookup key).getD .null

/-- `repo_map.get(repo_id) or repo_map.get(str(repo_id))`. -/
def RepoMap.named (m : RepoMap) (repoId : Loaded) : Except PyError Loaded := do
  let key ← repoId.hashKey
  return (m.get key).or (m.get (.text repoId.pyStr))

/-- The id of the repository of an issue. -/
def repoIdOf (issue : Loaded) : Loaded := firstOf issue ["code_repo_id", "codeRepoId"]

/-- What a map has for the repository of an issue. -/
def RepoMap.ofIssue (m : RepoMap) (issue : Loaded) : Except PyError Loaded :=
  if (repoIdOf issue).isNull ∨ m.isEmpty then .ok .null else m.named (repoIdOf issue)

/-! ### Branches -/

/-- The branch that a map has for the repository of an issue, also under the number of its id. -/
def mappedBranch [IntOfText] (issue : Loaded) (repoMap : RepoMap) : Except PyError Loaded := do
  let branch ← repoMap.ofIssue issue
  if branch.truthy ∨ (repoIdOf issue).isNull ∨ repoMap.isEmpty then return branch
  else
    match (repoIdOf issue).toInt with
    | .ok i => return repoMap.get (.number i)
    | .error .typeError | .error .valueError => return branch
    | .error e => .error e

/-- The lists of places in an issue. -/
def locationsOf (issue : Loaded) : List Loaded :=
  (firstOf issue ["locations", "instances", "locations_list"]).elements

/-- The repository in an issue. -/
def codeRepository (issue : Loaded) : Loaded :=
  firstOf issue ["code_repository", "codeRepository"]

/-- The branch that an issue names. -/
def branchInIssue (issue : Loaded) : Str :=
  firstText
    [textUnder issue
      ["branch", "git_branch", "target_branch", "ref", "code_repo_branch", "codeRepoBranch",
        "scanned_branch", "scannedBranch", "default_branch", "defaultBranch", "base_branch",
        "baseBranch", "repository_branch", "repositoryBranch"],
      textUnder (codeRepository issue)
        ["branch", "scanned_branch", "scannedBranch", "default_branch", "ref"],
      textIn (locationsOf issue)
        ["branch", "git_branch", "target_branch", "ref", "scanned_branch", "scannedBranch"]]

/-- `_extract_branch`. -/
def extractBranch [IntOfText] (issue : Loaded) (repoMap : RepoMap) : Except PyError Str := do
  let branch ← mappedBranch issue repoMap
  return if branch.truthy then Str.strip branch.pyStr else branchInIssue issue

/-! ### Assets -/

/-- The fields that name the asset of an issue. -/
def assetNameKeys : List String :=
  ["container_repo_name", "containerRepoName", "code_repo_name", "codeRepoName"]

/-- The fields that name the asset of an issue if no other does. -/
def assetFallbackKeys : List String :=
  ["repository", "repo", "repo_name", "repoName", "image", "target", "registry_name",
    "registryName"]

/-- `_extract_asset_name`. -/
def extractAssetName (issue : Loaded) : Str :=
  firstText
    [textUnder issue assetNameKeys, textUnder (codeRepository issue) ["name"],
      textIn (locationsOf issue) ["name"], textUnder issue assetFallbackKeys]

end Read

/-- The two groups of the name of a repository. -/
inductive RepoPart
  | base | branch
  deriving DecidableEq

/-- `.`. -/
def anyOnLine (c : Char) : Bool := c != '\n'

/-- `^(.+?)\s*\(\s*([^)]+)\s*\)\s*$`. -/
def parenthesizedRe : Regex Char RepoPart :=
  .all [.group .base (.plus false anyOnLine), .many true Str.isSpace, .one (· == '('),
    .many true Str.isSpace, .group .branch (.plus true (· != ')')), .many true Str.isSpace,
    .one (· == ')'), .many true Str.isSpace, .atEnd]

/-- `^(.+?)\s+-\s+(.+)$`. -/
def dashedRe : Regex Char RepoPart :=
  .all [.group .base (.plus false anyOnLine), .plus true Str.isSpace, .one (· == '-'),
    .plus true Str.isSpace, .group .branch (.plus true anyOnLine), .atEnd]

/-- `^(.+?)[/:]([^/:]+)$`. -/
def lastSegmentRe : Regex Char RepoPart :=
  .all [.group .base (.plus false anyOnLine), .one fun c => c == '/' || c == ':',
    .group .branch (.plus true fun c => c != '/' && c != ':'), .atEnd]

/-- The base and the branch of a name that matches, when neither is blank. -/
def repoParts (name : Str) (re : Regex Char RepoPart) : Option (Str × Str) :=
  ((re.matchStart name).map fun m =>
    (Str.strip (Str.orEmpty (m.1 .base)), Str.strip (Str.orEmpty (m.1 .branch)))).filter fun p =>
      p.1 ≠ [] ∧ p.2 ≠ []

/-- `_parse_repo_name_with_branch`. -/
def parseRepoNameWithBranch (name : Str) : Str × Str :=
  ([parenthesizedRe, dashedRe, lastSegmentRe].findSome? (repoParts (Str.strip name))).getD
    (Str.strip name, [])

/-- The base of a name, or all of it, and its branch. -/
def parsedOrWhole (name : Str) : Str × Str :=
  let parsed := parseRepoNameWithBranch name
  (firstText [parsed.1, Str.strip name], parsed.2)

/-- The issue is about a container by its name. -/
def isContainer (issue : Loaded) : Bool :=
  (firstOf issue ["container_repo_name", "containerRepoName"]).truthy

/-- The name of a container that is used as it is. -/
def isImagePath (name : Str) : Bool :=
  Str.contains name (str "/images/") && 2 ≤ name.count '/'

/-- The asset in a name, and the branch. -/
def adapterName (issue : Loaded) (name : Str) : Str × Str :=
  if isContainer issue && isImagePath name then (stripTagFromContainerName name, [])
  else parseRepoNameWithBranch name

section Finding

variable [ReprText] [Unicode] [IntOfText]

/-- The issue is about a container by its name, or by its first place. -/
def onContainer (issue : Loaded) : Bool :=
  isContainer issue ||
    match (firstOf issue ["locations", "instances"]).elements with
    | .dict members :: _ =>
      Str.contains (Unicode.lower ((Loaded.dict members).memberOr "type" (.text [])).pyStr)
        (str "container")
    | _ => false

/-- The branch of an issue that names none. -/
def defaultBranch (issue : Loaded) : Str := if onContainer issue then [] else str "main"

/-- The package of an issue, with its version. -/
def packageOf (issue : Loaded) : Str :=
  let comp := (firstOf issue ["component", "package", "package_name", "affected_package",
    "affected_component"]).or (.text [])
  let comp := if comp.isDict then (firstOf comp ["name", "version"]).or (.text []) else comp
  let version := firstOf issue ["version", "installed_version"]
  if comp.pyStr ≠ [] ∧ version.truthy then comp.pyStr ++ str " " ++ version.pyStr else comp.pyStr

/-- The status of the finding of an issue. -/
def findingStatus (issue : Loaded) : Str :=
  let aikidoStatus := Unicode.lower ((issue.member "status").or (.text [])).pyStr
  if (firstOf issue ["ignored_at", "ignoredAt"]).truthy ∨
      aikidoStatus ∈ [str "ignored", str "suppressed", str "auto_ignored"] then str "Suppressed"
  else if (firstOf issue ["closed_at", "closedAt"]).truthy ∨
      aikidoStatus ∈ [str "closed", str "resolved"] then str "Resolved"
  else str "Open"

/-- The status, the asset and the branch of a finding. -/
structure AikidoFinding where
  status : Str
  image : Str
  branch : Str
  deriving DecidableEq

/-- `to_vat_finding`, of an issue that is not wrapped. -/
def toVatFinding (issue : Loaded) (repoMap repoIdToName : RepoMap) :
    Except PyError AikidoFinding := do
  let named := adapterName issue (extractAssetName issue)
  let extracted ← extractBranch issue repoMap
  let branch := firstText [extracted, named.2, defaultBranch issue]
  -- the fields of the fallback
  let fallback := firstOf issue ["image", "target", "repository", "code_repo_name", "codeRepoName"]
  let parsed :=
    if named.1 = [] ∧ fallback.truthy then parsedOrWhole (Str.strip fallback.pyStr) else ([], [])
  let asset := firstText [named.1, parsed.1]
  let branch := firstText [branch, parsed.2]
  -- the name of the repository
  let repoName ← if asset = [] then repoIdToName.ofIssue issue else .ok .null
  let parsed := if repoName.truthy then parsedOrWhole repoName.pyStr else ([], [])
  let asset := firstText [asset, parsed.1]
  let branch := firstText [branch, parsed.2]
  -- the package, of an issue without a repository
  let package := if (repoIdOf issue).isNull then packageOf issue else []
  return ⟨findingStatus issue, firstText [asset, package], branch⟩

end Finding

/-! ### What is read -/

theorem firstText_eq_nil_iff {l : List Str} : firstText l = [] ↔ ∀ s ∈ l, s = [] := by
  induction l with
  | nil => simp [firstText]
  | cons s l ih =>
    rw [firstText, List.forall_mem_cons, ← ih]
    split_ifs with h
    · exact ⟨fun hl => ⟨h, hl⟩, And.right⟩
    · exact ⟨fun hs => absurd hs h, fun hs => absurd hs.1 h⟩

theorem firstText_nil_cons (l : List Str) : firstText ([] :: l) = firstText l := if_pos rfl

theorem firstText_cons_of_ne {s : Str} (h : s ≠ []) (l : List Str) : firstText (s :: l) = s :=
  if_neg h

theorem firstText_singleton (s : Str) : firstText [s] = s := by
  rw [firstText]
  split_ifs with h
  · exact h.symm
  · rfl

theorem firstText_pair_nil (s : Str) : firstText [s, []] = s := by
  rw [firstText]
  split_ifs with h
  · exact h.symm
  · rfl

/-- The first of the texts of a list and one more. -/
theorem firstText_firstText (l : List Str) (s : Str) :
    firstText [firstText l, s] = firstText (l ++ [s]) := by
  induction l with
  | nil => rfl
  | cons t l ih =>
    rw [List.cons_append]
    by_cases h : t = []
    · rw [h, firstText_nil_cons, firstText_nil_cons, ih]
    · rw [firstText_cons_of_ne h, firstText_cons_of_ne h, firstText_cons_of_ne h]

theorem strip_firstText {l : List Str} (h : ∀ s ∈ l, Str.strip s = s) :
    Str.strip (firstText l) = firstText l := by
  induction l with
  | nil => rfl
  | cons s l ih =>
    rw [firstText]
    split_ifs
    · exact ih fun t ht => h t (List.mem_cons_of_mem _ ht)
    · exact h s List.mem_cons_self

theorem firstOf_cons_cons (issue : Loaded) (k k' : String) (ks : List String) :
    firstOf issue (k :: k' :: ks) = (issue.member k).or (firstOf issue (k' :: ks)) := rfl

theorem firstOf_eq_member {issue : Loaded} {keys : List String}
    (h : (firstOf issue keys).truthy) : ∃ k ∈ keys, firstOf issue keys = issue.member k := by
  induction keys with
  | nil => cases h
  | cons k ks ih =>
    cases ks with
    | nil => exact ⟨k, List.mem_cons_self, rfl⟩
    | cons k' ks =>
      rw [firstOf_cons_cons, Loaded.or] at h ⊢
      split_ifs at h ⊢ with hk
      · exact ⟨k, List.mem_cons_self, rfl⟩
      · obtain ⟨j, hj, heq⟩ := ih h
        exact ⟨j, List.mem_cons_of_mem _ hj, heq⟩

section Read

variable [ReprText]

theorem textUnder_eq_nil_iff {v : Loaded} {keys : List String} :
    textUnder v keys = [] ↔
      ∀ k ∈ keys, (v.member k).truthy → Str.strip (v.member k).pyStr = [] := by
  simp only [textUnder, firstText_eq_nil_iff, List.forall_mem_map, ite_eq_right_iff]

theorem strip_textUnder (v : Loaded) (keys : List String) :
    Str.strip (textUnder v keys) = textUnder v keys := by
  refine strip_firstText (List.forall_mem_map.mpr fun k _ => ?_)
  split_ifs
  · exact Str.strip_strip _
  · rfl

theorem strip_textIn (values : List Loaded) (keys : List String) :
    Str.strip (textIn values keys) = textIn values keys :=
  strip_firstText (List.forall_mem_map.mpr fun v _ => strip_textUnder v keys)

theorem strip_extractAssetName (issue : Loaded) :
    Str.strip (extractAssetName issue) = extractAssetName issue := by
  refine strip_firstText fun s hs => ?_
  simp only [List.mem_cons, List.not_mem_nil, or_false] at hs
  rcases hs with rfl | rfl | rfl | rfl
  · exact strip_textUnder _ _
  · exact strip_textUnder _ _
  · exact strip_textIn _ _
  · exact strip_textUnder _ _

/-- An issue without an asset has only blank texts in the fields that name one. -/
theorem strip_firstOf_of_no_asset {issue : Loaded} (h : extractAssetName issue = [])
    {keys : List String} (hkeys : ∀ k ∈ keys, k ∈ assetNameKeys ++ assetFallbackKeys)
    (htruthy : (firstOf issue keys).truthy) : Str.strip (firstOf issue keys).pyStr = [] := by
  obtain ⟨k, hk, heq⟩ := firstOf_eq_member htruthy
  rw [heq] at htruthy ⊢
  rw [extractAssetName, firstText_eq_nil_iff] at h
  rcases List.mem_append.mp (hkeys k hk) with hk | hk
  · exact textUnder_eq_nil_iff.mp (h (textUnder issue assetNameKeys) (by simp)) k hk htruthy
  · exact textUnder_eq_nil_iff.mp (h (textUnder issue assetFallbackKeys) (by simp)) k hk htruthy

end Read

/-! ### What is in a name -/

theorem repoParts_ne_nil {name : Str} {re : Regex Char RepoPart} {p : Str × Str}
    (h : repoParts name re = some p) : p.1 ≠ [] ∧ p.2 ≠ [] := by
  simpa using (Option.filter_eq_some_iff.mp h).2

theorem parseRepoNameWithBranch_of_blank {name : Str} (h : Str.strip name = []) :
    parseRepoNameWithBranch name = ([], []) := by
  have hnone : ∀ re ∈ [parenthesizedRe, dashedRe, lastSegmentRe], repoParts [] re = none := by
    simp only [List.forall_mem_cons, List.not_mem_nil, false_imp_iff, implies_true, and_true]
    exact ⟨rfl, rfl, rfl⟩
  rw [parseRepoNameWithBranch, h, List.findSome?_eq_none_iff.mpr hnone]
  rfl

theorem parseRepoNameWithBranch_fst_eq_nil_iff {name : Str} :
    (parseRepoNameWithBranch name).1 = [] ↔ Str.strip name = [] := by
  refine ⟨fun h => ?_, fun h => by rw [parseRepoNameWithBranch_of_blank h]⟩
  rw [parseRepoNameWithBranch] at h
  cases hp : [parenthesizedRe, dashedRe, lastSegmentRe].findSome? (repoParts (Str.strip name)) with
  | none => rwa [hp] at h
  | some p =>
    obtain ⟨re, -, hre⟩ := List.exists_of_findSome?_eq_some hp
    rw [hp] at h
    exact absurd h (repoParts_ne_nil hre).1

theorem parseRepoNameWithBranch_strip (name : Str) :
    parseRepoNameWithBranch (Str.strip name) = parseRepoNameWithBranch name := by
  rw [parseRepoNameWithBranch, Str.strip_strip, ← parseRepoNameWithBranch]

theorem parsedOrWhole_eq (name : Str) : parsedOrWhole name = parseRepoNameWithBranch name := by
  refine Prod.ext ?_ rfl
  by_cases h : (parseRepoNameWithBranch name).1 = []
  · simp [parsedOrWhole, firstText, h, parseRepoNameWithBranch_fst_eq_nil_iff.mp h]
  · simp [parsedOrWhole, firstText, h]

theorem stripTagFromContainerName_ne_nil {name : Str} (h : Str.strip name ≠ []) :
    stripTagFromContainerName name ≠ [] := by
  rw [stripTagFromContainerName]
  dsimp only
  split_ifs with hcolon hrepo
  · exact h
  · exact hrepo
  · exact h

theorem adapterName_fst_ne_nil {issue : Loaded} {name : Str} (h : Str.strip name ≠ []) :
    (adapterName issue name).1 ≠ [] := by
  rw [adapterName]
  split_ifs
  · exact stripTagFromContainerName_ne_nil h
  · exact parseRepoNameWithBranch_fst_eq_nil_iff.not.mpr h

/-! ### The finding -/

section Finding

variable [ReprText] [Unicode] [IntOfText]

/-- The finding of an issue that names its asset. -/
theorem toVatFinding_of_asset {issue : Loaded} (h : extractAssetName issue ≠ [])
    (repoMap repoIdToName : RepoMap) :
    toVatFinding issue repoMap repoIdToName = (extractBranch issue repoMap).map fun extracted =>
      ⟨findingStatus issue, (adapterName issue (extractAssetName issue)).1,
        firstText [extracted, (adapterName issue (extractAssetName issue)).2,
          defaultBranch issue]⟩ := by
  have hne : (adapterName issue (extractAssetName issue)).1 ≠ [] :=
    adapterName_fst_ne_nil ((strip_extractAssetName issue).symm ▸ h)
  rw [toVatFinding]
  cases extractBranch issue repoMap with
  | error e => rfl
  | ok extracted =>
    simp only [hne, false_and, ↓reduceIte, Transition.ok_bind, firstText_cons_of_ne hne,
      firstText_pair_nil, Loaded.truthy, Bool.false_eq_true]
    rfl

/-- The name that a map has for the repository of an issue, stripped. -/
def repoNameOf (issue : Loaded) (repoIdToName : RepoMap) : Except PyError Str :=
  (repoIdToName.ofIssue issue).map fun v => if v.truthy then Str.strip v.pyStr else []

/-- The finding of an issue that does not name its asset. -/
theorem toVatFinding_of_no_asset {issue : Loaded} (h : extractAssetName issue = [])
    (repoMap repoIdToName : RepoMap) :
    toVatFinding issue repoMap repoIdToName = (do
      let extracted ← extractBranch issue repoMap
      let name ← repoNameOf issue repoIdToName
      return ⟨findingStatus issue,
        firstText [(parseRepoNameWithBranch name).1,
          if (repoIdOf issue).isNull then packageOf issue else []],
        firstText [extracted, defaultBranch issue, (parseRepoNameWithBranch name).2]⟩) := by
  have hnamed : adapterName issue (extractAssetName issue) = ([], []) := by
    have himage : isImagePath [] = false := by decide
    rw [h, adapterName, himage, Bool.and_false]
    exact parseRepoNameWithBranch_of_blank Str.strip_nil
  have hfallback : ∀ fallback : Loaded, fallback =
      firstOf issue ["image", "target", "repository", "code_repo_name", "codeRepoName"] →
      (if fallback.truthy then parsedOrWhole (Str.strip fallback.pyStr) else ([], [])) =
        (([], []) : Str × Str) := by
    rintro _ rfl
    split_ifs with htruthy
    · rw [strip_firstOf_of_no_asset h (by decide) htruthy, parsedOrWhole_eq,
        parseRepoNameWithBranch_of_blank Str.strip_nil]
    · rfl
  rw [toVatFinding]
  cases extractBranch issue repoMap with
  | error e => rfl
  | ok extracted =>
    simp only [hnamed, true_and, Transition.ok_bind, hfallback _ rfl, firstText_pair_nil,
      ↓reduceIte, repoNameOf]
    cases repoIdToName.ofIssue issue with
    | error e => rfl
    | ok v =>
      have hparsed : parseRepoNameWithBranch (if v.truthy then Str.strip v.pyStr else []) =
          if v.truthy then parseRepoNameWithBranch v.pyStr else ([], []) := by
        split_ifs
        · exact parseRepoNameWithBranch_strip v.pyStr
        · exact parseRepoNameWithBranch_of_blank Str.strip_nil
      have hskip : ∀ s t : Str, firstText [s, [], t] = firstText [s, t] := fun s t => by
        rw [firstText, firstText_nil_cons, ← firstText]
      simp only [Except.map, Transition.ok_bind, parsedOrWhole_eq, hparsed, firstText_nil_cons,
        firstText_singleton, hskip, firstText_firstText, List.cons_append, List.nil_append]

end Finding

end Vat
