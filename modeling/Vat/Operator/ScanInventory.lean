import Vat.Identity.ImageDigests
import Vat.Keyed.Gather
import Vat.Operator.KubernetesInventory

/-!
# The scan inventory and its modes

The operator publishes the images of a cluster, with one item for every digest, or for every
reference without one. One mode lists what the workloads ask for, one what runs in pods, and one
what the workloads ask for and no pod runs. Pods of excluded namespaces are not listed, yet they
count when the third mode looks for what runs; and pods may run what no listed workload asks for.

Source: `operator/internal/reconcile/deployment_scanner.go`;
`operator/internal/inventory/workload.go`.

## Main definitions

* `ImageTarget`, `imageTargetsFromPodSpec`, `imageTargetsFromRunningPod`.
* `inventoryKey`, `buildImageInventory`, `reconcileWorkloadImageScans`.
* `ListsOnce`: an inventory has one item for every key.

## Main results

* `listsOnce_build`: so it is in every mode.
* `modesCover`: what the running and the non-running images are together.
-/

namespace Vat.ScanInventory

open Keyed

/-! ### Texts -/

/-- `unicode.IsSpace`. -/
def isSpace (c : Char) : Bool :=
  let n := c.toNat
  (9 ≤ n && n ≤ 13) || n == 32 || n == 0x85 || n == 0xa0 || n == 0x1680 ||
    (0x2000 ≤ n && n ≤ 0x200a) || n == 0x2028 || n == 0x2029 || n == 0x202f || n == 0x205f ||
    n == 0x3000

/-- `strings.TrimSpace`. -/
def trimSpace (s : Str) : Str := Str.stripWhile isSpace s

/-- The letters in lower case. -/
class RuneCase where
  /-- `unicode.ToLower`. -/
  toLower : Char → Char
  toLower_of_ascii : ∀ c : Char, c.toNat < 128 → toLower c = c.toLower
  isSpace_toLower : ∀ c : Char, isSpace (toLower c) = isSpace c

theorem isSpace_asciiToLower (c : Char) : isSpace c.toLower = isSpace c := by
  obtain h | ⟨hge, hle, h⟩ := toNat_toLower c
  · rw [h.1]
  · have hupper : isSpace c = false := by
      simp only [isSpace, Bool.or_eq_false_iff, Bool.and_eq_false_iff, decide_eq_false_iff_not,
        beq_eq_false_iff_ne]
      omega
    have hlower : isSpace c.toLower = false := by
      simp only [isSpace, h, Bool.or_eq_false_iff, Bool.and_eq_false_iff, decide_eq_false_iff_not,
        beq_eq_false_iff_ne]
      omega
    rw [hupper, hlower]

/-- The lower case of ASCII letters. -/
@[reducible] def asciiRunes : RuneCase where
  toLower := Char.toLower
  toLower_of_ascii _ _ := rfl
  isSpace_toLower := isSpace_asciiToLower

/-! ### Workloads and pods -/

/-- A container of a pod's spec. -/
structure Container where
  name : Str
  image : Str

/-- The spec of a pod. -/
structure PodSpec where
  initContainers : List Container
  containers : List Container
  imagePullSecrets : List Str

/-- A workload with its pod template. -/
structure Workload where
  ns : Str
  name : Str
  uid : Str
  template : PodSpec

/-- The status of a container, and whether it runs. -/
structure ContainerStatus where
  name : Str
  running : Bool

/-- A pod, and whether it has owner references. -/
structure Pod where
  ns : Str
  name : Str
  uid : Str
  owned : Bool
  spec : PodSpec
  phase : Str
  initContainerStatuses : List ContainerStatus
  containerStatuses : List ContainerStatus

/-- What the API server lists. -/
structure Cluster where
  deployments : List Workload := []
  statefulSets : List Workload := []
  daemonSets : List Workload := []
  jobs : List Workload := []
  cronJobs : List Workload := []
  pods : List Pod := []

/-- An image that a container asks for or runs. -/
structure ImageTarget where
  targetNamespace : Str
  targetKind : Str
  targetName : Str
  targetUID : Str
  containerName : Str
  image : Str
  imagePullSecretNames : List Str
  deriving DecidableEq

def imagePullSecretNames (refs : List Str) : List Str := refs.filter (· ≠ [])

def imageTargetsFromPodSpec (ns kind name uid : Str) (podSpec : PodSpec) : List ImageTarget :=
  ((podSpec.initContainers ++ podSpec.containers).filter fun c => c.image ≠ []).map fun c =>
    { targetNamespace := ns
      targetKind := kind
      targetName := name
      targetUID := uid
      containerName := c.name
      image := c.image
      imagePullSecretNames := imagePullSecretNames podSpec.imagePullSecrets }

/-- The targets of a workload of a kind. -/
def imageTargetsFromWorkload (kind : String) (w : Workload) : List ImageTarget :=
  imageTargetsFromPodSpec w.ns (str kind) w.name w.uid w.template

def imageTargetsFromDeployment : Workload → List ImageTarget :=
  imageTargetsFromWorkload "Deployment"

def imageTargetsFromStatefulSet : Workload → List ImageTarget :=
  imageTargetsFromWorkload "StatefulSet"

def imageTargetsFromDaemonSet : Workload → List ImageTarget := imageTargetsFromWorkload "DaemonSet"

def imageTargetsFromJob : Workload → List ImageTarget := imageTargetsFromWorkload "Job"

def imageTargetsFromCronJob : Workload → List ImageTarget := imageTargetsFromWorkload "CronJob"

def imageTargetsFromPod (pod : Pod) : List ImageTarget :=
  imageTargetsFromPodSpec pod.ns (str "Pod") pod.name pod.uid pod.spec

/-- The container of a name: the last one in the map of them. -/
def containerNamed (podSpec : PodSpec) (name : Str) : Option Container :=
  (podSpec.initContainers ++ podSpec.containers).reverse.find? fun c => c.name = name

def imageTargetsFromRunningPod (pod : Pod) : List ImageTarget :=
  if pod.phase ≠ str "Running" then []
  else
    (pod.initContainerStatuses ++ pod.containerStatuses).filterMap fun status =>
      if ¬ status.running then none
      else
        match containerNamed pod.spec status.name with
        | none => none
        | some c =>
          if c.image = [] then none
          else
            some {
              targetNamespace := pod.ns
              targetKind := str "Pod"
              targetName := pod.name
              targetUID := pod.uid
              containerName := c.name
              image := c.image
              imagePullSecretNames := imagePullSecretNames pod.spec.imagePullSecrets }

/-! ### Inventories -/

def digestFromImageRef (image : Str) : Str :=
  match Str.afterLast (str "@sha256:") image with
  | none => []
  | some rest => str "sha256:" ++ rest

def inventoryKey (image : Str) : Str :=
  if digestFromImageRef image ≠ [] then digestFromImageRef image else image

/-- A target in an item. -/
structure ImageInventoryRef where
  ns : Str
  kind : Str
  name : Str
  uid : Str
  containerName : Str
  imagePullSecretNames : List Str

structure ImageInventoryItem where
  image : Str
  imageDigest : Str
  targets : List ImageInventoryRef

structure ImageInventory where
  generatedAt : Str
  items : List ImageInventoryItem

def ImageTarget.ref (t : ImageTarget) : ImageInventoryRef where
  ns := t.targetNamespace
  kind := t.targetKind
  name := t.targetName
  uid := t.targetUID
  containerName := t.containerName
  imagePullSecretNames := t.imagePullSecretNames

/-- The key of a target. -/
def ImageTarget.key (t : ImageTarget) : Str := inventoryKey (trimSpace t.image)

/-- The text that the targets of an item are sorted by. -/
def ImageInventoryRef.sortKey (r : ImageInventoryRef) : Str :=
  r.ns ++ str "/" ++ r.kind ++ str "/" ++ r.name ++ str "/" ++ r.containerName

/-- A target added to the item of its key. -/
def addTarget (item : Option ImageInventoryItem) (t : ImageTarget) : ImageInventoryItem :=
  let image := trimSpace t.image
  let item := item.getD ⟨image, digestFromImageRef image, []⟩
  { item with targets := item.targets ++ [t.ref] }

/-- An item with its targets sorted. -/
def ImageInventoryItem.sorted (item : ImageInventoryItem) : ImageInventoryItem :=
  { item with targets := item.targets.mergeSort fun a b => decide (a.sortKey ≤ b.sortKey) }

section Inventories

variable [RuneCase]

def isScannableImageRef (image : Str) : Bool :=
  let value := trimSpace (image.map RuneCase.toLower)
  value ≠ [] && !(["auto", "none", "<none>"].map str).contains value

/-- The items by their keys. -/
def byImage (targets : List ImageTarget) : Dictionary Str ImageInventoryItem :=
  gather ImageTarget.key addTarget (targets.filter fun t => isScannableImageRef t.image)

/-- `BuildImageInventory` at a time. -/
def buildImageInventory (now : Str) (targets : List ImageTarget) : ImageInventory where
  generatedAt := now
  items := ((byImage targets).entries.mergeSort fun a b => decide (a.1 ≤ b.1)).map fun e =>
    e.2.sorted

/-! ### Modes -/

/-- `ImageInventoryMode`, as the configuration normalizes it. -/
inductive Mode
  | workload
  | running
  | nonRunning
  | runtime
  deriving DecidableEq

def filterImageTargets (targets : List ImageTarget) (excluded : Str → Bool) : List ImageTarget :=
  targets.filter fun t => !excluded t.targetNamespace

def filterRunningImageTargets (targets : List ImageTarget) (runningImages : List Str) :
    List ImageTarget :=
  targets.filter fun t => !runningImages.contains (inventoryKey t.image)

namespace Cluster

variable (c : Cluster)

omit [RuneCase]

/-- What the containers run. -/
def runningTargets : List ImageTarget := c.pods.flatMap imageTargetsFromRunningPod

/-- What the workloads and the pods without an owner ask for. -/
def workloadTargets : List ImageTarget :=
  c.deployments.flatMap imageTargetsFromDeployment ++
    c.statefulSets.flatMap imageTargetsFromStatefulSet ++
    c.daemonSets.flatMap imageTargetsFromDaemonSet ++ c.jobs.flatMap imageTargetsFromJob ++
    c.cronJobs.flatMap imageTargetsFromCronJob ++
    (c.pods.filter fun p => !p.owned).flatMap imageTargetsFromPod

/-- The keys of the images that run, in excluded namespaces too. -/
def runningImages : List Str :=
  (c.runningTargets.filter fun t => trimSpace t.image ≠ []).map ImageTarget.key

end Cluster

/-- The targets that a mode lists. -/
def selectedTargets (excluded : Str → Bool) (c : Cluster) : Mode → List ImageTarget
  | .runtime => []
  | .running => filterImageTargets c.runningTargets excluded
  | .nonRunning =>
    filterImageTargets (filterRunningImageTargets c.workloadTargets c.runningImages) excluded
  | .workload => filterImageTargets c.workloadTargets excluded

/-- What `ReconcileWorkloadImageScans` publishes when all calls of the API server succeed. -/
def reconcileWorkloadImageScans (excludedNamespaceNames : List Str) (now : Str) (mode : Mode)
    (c : Cluster) : ImageInventory :=
  buildImageInventory now (selectedTargets (namespaceExcluder excludedNamespaceNames) c mode)

end Inventories

/-! ### Keys -/

theorem inventoryKey_of_digest {image : Str} (h : digestFromImageRef image ≠ []) :
    inventoryKey image = digestFromImageRef image := if_pos h

theorem inventoryKey_of_no_digest {image : Str} (h : digestFromImageRef image = []) :
    inventoryKey image = image := if_neg (not_not.mpr h)

/-- A reference with a digest ends with it. -/
theorem exists_of_digest {image : Str} (h : digestFromImageRef image ≠ []) :
    ∃ x rest, image = x ++ str "@sha256:" ++ rest ∧
      Str.afterLast (str "@sha256:") image = some rest ∧
      digestFromImageRef image = str "sha256:" ++ rest := by
  rw [digestFromImageRef] at h ⊢
  cases hlast : Str.afterLast (str "@sha256:") image with
  | none => exact absurd (by rw [hlast]) h
  | some rest =>
    obtain ⟨x, hx⟩ := Str.eq_of_afterLast hlast
    exact ⟨x, rest, hx, rfl, rfl⟩

/-- What stands before the last marker does not matter for what comes after it. -/
theorem digestFromImageRef_append {x rest : Str} (x' : Str)
    (h : Str.afterLast (str "@sha256:") (x ++ str "@sha256:" ++ rest) = some rest) :
    digestFromImageRef (x' ++ str "@sha256:" ++ rest) = str "sha256:" ++ rest := by
  have hmarker : ∃ rest', Str.afterLast (str "@sha256:") (str "@sha256:" ++ rest) = some rest' := by
    have hpre : (str "@sha256:").isPrefixOf ('@' :: (str "sha256:" ++ rest)) = true :=
      List.isPrefixOf_iff_prefix.mpr (List.prefix_append (str "@sha256:") rest)
    change ∃ rest', Str.afterLast (str "@sha256:") ('@' :: (str "sha256:" ++ rest)) = some rest'
    rw [Str.afterLast, if_pos hpre]
    cases Str.afterLast (str "@sha256:") (str "sha256:" ++ rest) with
    | none => exact ⟨_, rfl⟩
    | some rest' => exact ⟨rest', rfl⟩
  obtain ⟨rest', hrest⟩ := hmarker
  rw [List.append_assoc] at h ⊢
  obtain rfl : rest' = rest := Option.some.inj ((Str.afterLast_append hrest).symm.trans h)
  rw [digestFromImageRef, Str.afterLast_append hrest]

/-- A text that begins and ends with characters that are no spaces. -/
structure Trimmed (s : Str) : Prop where
  ne_nil : s ≠ []
  dropWhile : s.dropWhile isSpace = s
  rdropWhile : s.rdropWhile isSpace = s

theorem Trimmed.trimSpace_eq {s : Str} (h : Trimmed s) : trimSpace s = s := by
  rw [trimSpace, Str.stripWhile, h.dropWhile, h.rdropWhile]

theorem trimmed_trimSpace {s : Str} (h : trimSpace s ≠ []) : Trimmed (trimSpace s) where
  ne_nil := h
  dropWhile := Str.dropWhile_rdropWhile (List.dropWhile_idempotent _ s)
  rdropWhile := List.rdropWhile_idempotent ..

/-- What ends with a text that ends with no space. -/
theorem rdropWhile_append {s : Str} (h : Trimmed s) (x : Str) :
    (x ++ s).rdropWhile isSpace = x ++ s := by
  refine List.rdropWhile_eq_self_iff.mpr fun hne => ?_
  rw [List.getLast_append_of_ne_nil _ h.ne_nil]
  exact List.rdropWhile_eq_self_iff.mp h.rdropWhile h.ne_nil

/-- A key ends its reference. -/
theorem inventoryKey_suffix (image : Str) : inventoryKey image <:+ image := by
  by_cases hdigest : digestFromImageRef image = []
  · rw [inventoryKey_of_no_digest hdigest]
  · obtain ⟨x, rest, himage, -, heq⟩ := exists_of_digest hdigest
    rw [inventoryKey_of_digest hdigest, heq]
    refine ⟨x ++ ['@'], ?_⟩
    rw [himage, List.append_assoc, List.append_assoc]
    rfl

/-- The key of a trimmed reference begins and ends as one. -/
theorem Trimmed.inventoryKey {image : Str} (h : Trimmed image) : Trimmed (inventoryKey image) := by
  by_cases hdigest : digestFromImageRef image = []
  · rw [inventoryKey_of_no_digest hdigest]
    exact h
  · obtain ⟨pre, hpre⟩ := inventoryKey_suffix image
    obtain ⟨-, rest, -, -, heq⟩ := exists_of_digest hdigest
    rw [inventoryKey_of_digest hdigest, heq] at hpre ⊢
    have hne : str "sha256:" ++ rest ≠ [] := List.append_ne_nil_of_left_ne_nil (by decide) _
    refine ⟨hne, rfl, List.rdropWhile_eq_self_iff.mpr fun _ => ?_⟩
    have hlast := List.rdropWhile_eq_self_iff.mp h.rdropWhile h.ne_nil
    simp only [← hpre] at hlast
    rwa [List.getLast_append_of_ne_nil _ hne] at hlast

/-- A reference whose key begins and ends with no space has the same key after it is trimmed. -/
theorem inventoryKey_trimSpace {image : Str} (h : Trimmed (inventoryKey image)) :
    inventoryKey (trimSpace image) = inventoryKey image := by
  by_cases hdigest : digestFromImageRef image = []
  · rw [inventoryKey_of_no_digest hdigest] at h
    rw [h.trimSpace_eq]
  · obtain ⟨x, rest, himage, hlast, heq⟩ := exists_of_digest hdigest
    rw [inventoryKey_of_digest hdigest, heq] at h ⊢
    have hleft : image.dropWhile isSpace =
        (x.dropWhile isSpace ++ ['@']) ++ (str "sha256:" ++ rest) := by
      rw [himage, List.append_assoc, List.append_assoc, List.dropWhile_append]
      split_ifs with hempty
      · rw [List.isEmpty_iff.mp hempty]
        rfl
      · rfl
    have htrim : trimSpace image = x.dropWhile isSpace ++ str "@sha256:" ++ rest := by
      rw [trimSpace, Str.stripWhile, hleft, rdropWhile_append h, List.append_assoc,
        List.append_assoc]
      rfl
    rw [himage] at hlast
    have hkey := digestFromImageRef_append (x.dropWhile isSpace) hlast
    rw [htrim, inventoryKey_of_digest (by rw [hkey]; exact h.ne_nil), hkey]

/-! ### Placeholders -/

section Scannable

variable [RuneCase]

theorem trimSpace_map_toLower (image : Str) :
    trimSpace (image.map RuneCase.toLower) = (trimSpace image).map RuneCase.toLower :=
  Str.stripWhile_map RuneCase.isSpace_toLower image

/-- A reference that is a placeholder has no colon. -/
theorem colon_notMem_of_placeholder {image : Str} (hne : trimSpace image ≠ [])
    (h : isScannableImageRef image = false) : ':' ∉ trimSpace image := by
  intro hmem
  have hlower : ':' ∈ (trimSpace image).map RuneCase.toLower :=
    List.mem_map.mpr ⟨':', hmem, RuneCase.toLower_of_ascii ':' (by decide)⟩
  rw [isScannableImageRef, trimSpace_map_toLower] at h
  simp only [List.contains_eq_mem, Bool.and_eq_false_iff, decide_eq_false_iff_not, not_not,
    Bool.not_eq_false', decide_eq_true_eq, List.map_eq_nil_iff] at h
  rcases h with h | h
  · exact hne h
  · simp only [List.map_cons, List.map_nil, List.mem_cons, List.not_mem_nil, or_false] at h
    rcases h with h | h | h <;> rw [h] at hlower <;> exact absurd hlower (by decide)

/-- Whether a reference is a placeholder depends on its key. -/
theorem isScannableImageRef_congr {image image' : Str} (hne : trimSpace image' ≠ [])
    (hkey : inventoryKey (trimSpace image) = inventoryKey (trimSpace image'))
    (h : isScannableImageRef image) : isScannableImageRef image' := by
  by_contra hplaceholder
  rw [Bool.not_eq_true] at hplaceholder
  have hcolon := colon_notMem_of_placeholder hne hplaceholder
  have hmarked : ∀ s : Str, digestFromImageRef s ≠ [] → ':' ∈ inventoryKey s := by
    intro s hs
    obtain ⟨x, rest, -, -, heq⟩ := exists_of_digest hs
    rw [inventoryKey_of_digest hs, heq]
    exact List.mem_append_left _ (by decide)
  have hdigest' : digestFromImageRef (trimSpace image') = [] := by
    by_contra hs
    exact hcolon ((inventoryKey_suffix _).subset (hmarked _ hs))
  rw [inventoryKey_of_no_digest hdigest'] at hkey
  have hdigest : digestFromImageRef (trimSpace image) = [] := by
    by_contra hs
    exact hcolon (hkey ▸ hmarked _ hs)
  rw [inventoryKey_of_no_digest hdigest] at hkey
  rw [isScannableImageRef, trimSpace_map_toLower] at h hplaceholder
  rw [hkey, hplaceholder] at h
  exact Bool.false_ne_true h

end Scannable

/-! ### Items -/

section Items

variable [RuneCase] {targets : List ImageTarget} {now k : Str}

/-- The keys of the images that an inventory lists. -/
def ImageInventory.keys (inventory : ImageInventory) : List Str :=
  inventory.items.map fun item => inventoryKey item.image

/-- The targets of a key. -/
def targetsOf (targets : List ImageTarget) (k : Str) : List ImageTarget :=
  (targets.filter fun t => isScannableImageRef t.image).filter fun t => t.key = k

/-- The item of a key has its targets, and the first one's reference. -/
structure IsItem (targets : List ImageTarget) (k : Str) (item : ImageInventoryItem) : Prop where
  key : inventoryKey item.image = k
  digest : item.imageDigest = digestFromImageRef item.image
  targets : item.targets.Perm ((targetsOf targets k).map ImageTarget.ref)

theorem isItem_of_get? {item : ImageInventoryItem} (h : (byImage targets).get? k = some item) :
    IsItem targets k item := by
  have hkept : (∀ t ∈ targetsOf targets k, t.key = k) →
      inventoryKey item.image = k ∧ item.imageDigest = digestFromImageRef item.image ∧
        item.targets = (targetsOf targets k).map ImageTarget.ref := by
    refine gathered_induction (f := addTarget) (P := fun l item => (∀ t ∈ l, t.key = k) →
      inventoryKey item.image = k ∧ item.imageDigest = digestFromImageRef item.image ∧
        item.targets = l.map ImageTarget.ref) ?_ ?_ ((get?_gather k).symm.trans h)
    · intro t ht
      exact ⟨ht t (List.mem_singleton.mpr rfl), rfl, rfl⟩
    · intro l item t ih ht
      obtain ⟨hkey, hdigest, htargets⟩ := ih fun u hu => ht u (List.mem_append_left _ hu)
      refine ⟨hkey, hdigest, ?_⟩
      rw [List.map_append, ← htargets]
      rfl
  obtain ⟨hkey, hdigest, htargets⟩ :=
    hkept fun t ht => of_decide_eq_true (List.mem_filter.mp ht).2
  exact ⟨hkey, hdigest, List.Perm.of_eq htargets⟩

theorem isItem_sorted {item : ImageInventoryItem} (h : IsItem targets k item) :
    IsItem targets k item.sorted where
  key := h.key
  digest := h.digest
  targets := (List.mergeSort_perm ..).trans h.targets

theorem keys_build : (buildImageInventory now targets).keys =
    ((byImage targets).entries.mergeSort fun a b => decide (a.1 ≤ b.1)).map Prod.fst := by
  rw [ImageInventory.keys, buildImageInventory, List.map_map]
  refine List.map_congr_left fun e he => ?_
  exact (isItem_of_get? (Dictionary.get?_eq_some_iff.mpr
    ((List.mergeSort_perm ..).mem_iff.mp he))).key

/-- A key is listed exactly if it is the key of a target that can be scanned. -/
theorem mem_keys_build_iff : k ∈ (buildImageInventory now targets).keys ↔
    ∃ t ∈ targets, isScannableImageRef t.image ∧ t.key = k := by
  rw [keys_build, ((List.mergeSort_perm ..).map Prod.fst).mem_iff]
  change k ∈ (byImage targets).keys ↔ _
  rw [byImage, mem_keys_gather_iff, List.mem_map]
  simp only [List.mem_filter, and_assoc]

/-- An inventory has one item for every key, with its targets. -/
structure ListsOnce (targets : List ImageTarget) (inventory : ImageInventory) : Prop where
  nodup : inventory.keys.Nodup
  listed : ∀ k, k ∈ inventory.keys ↔ ∃ t ∈ targets, isScannableImageRef t.image ∧ t.key = k
  items : ∀ item ∈ inventory.items, IsItem targets (inventoryKey item.image) item

theorem listsOnce_build (now : Str) (targets : List ImageTarget) :
    ListsOnce targets (buildImageInventory now targets) where
  nodup := by
    rw [keys_build, ((List.mergeSort_perm ..).map Prod.fst).nodup_iff]
    exact (byImage targets).nodup
  listed _ := mem_keys_build_iff
  items item hitem := by
    obtain ⟨e, he, rfl⟩ := List.mem_map.mp hitem
    have hget := Dictionary.get?_eq_some_iff.mpr ((List.mergeSort_perm ..).mem_iff.mp he)
    have hsorted := isItem_sorted (isItem_of_get? hget)
    rw [hsorted.key]
    exact hsorted

end Items

/-! ### What the modes list -/

section Modes

variable [RuneCase] {excluded : Str → Bool} {c : Cluster} {now k : Str}

/-- An image with a key runs in a pod of a namespace. -/
def Cluster.Runs (c : Cluster) (inNamespace : Str → Prop) (k : Str) : Prop :=
  ∃ t ∈ c.runningTargets, inNamespace t.targetNamespace ∧ isScannableImageRef t.image ∧ t.key = k

theorem mem_running_iff :
    k ∈ (buildImageInventory now (selectedTargets excluded c .running)).keys ↔
      c.Runs (fun ns => excluded ns = false) k := by
  rw [mem_keys_build_iff]
  simp only [selectedTargets, filterImageTargets, List.mem_filter, Bool.not_eq_true', and_assoc]
  rfl

/-- An image that can be scanned and counts as running runs in some pod. -/
theorem runs_of_mem_runningImages {t : ImageTarget} (hscan : isScannableImageRef t.image)
    (h : inventoryKey t.image ∈ c.runningImages) : c.Runs (fun _ => True) t.key := by
  obtain ⟨u, hu, hkey⟩ := List.mem_map.mp h
  obtain ⟨hrunning, hne⟩ := List.mem_filter.mp hu
  have hne := of_decide_eq_true hne
  have htrimmed : Trimmed (inventoryKey t.image) := hkey ▸ (trimmed_trimSpace hne).inventoryKey
  have hsame : inventoryKey (trimSpace t.image) = inventoryKey (trimSpace u.image) :=
    (inventoryKey_trimSpace htrimmed).trans hkey.symm
  exact ⟨u, hrunning, trivial, isScannableImageRef_congr hne hsame hscan, hsame.symm⟩

/-- What the non-running mode lists, the default mode lists. -/
theorem mem_workload_of_mem_nonRunning
    (h : k ∈ (buildImageInventory now (selectedTargets excluded c .nonRunning)).keys) :
    k ∈ (buildImageInventory now (selectedTargets excluded c .workload)).keys := by
  obtain ⟨t, ht, hkey⟩ := mem_keys_build_iff.mp h
  obtain ⟨hfiltered, hincluded⟩ := List.mem_filter.mp ht
  exact mem_keys_build_iff.mpr
    ⟨t, List.mem_filter.mpr ⟨(List.mem_filter.mp hfiltered).1, hincluded⟩, hkey⟩

/-- What the default mode lists and no pod runs, the non-running mode lists. -/
theorem mem_nonRunning_of_not_runs
    (h : k ∈ (buildImageInventory now (selectedTargets excluded c .workload)).keys)
    (hruns : ¬ c.Runs (fun _ => True) k) :
    k ∈ (buildImageInventory now (selectedTargets excluded c .nonRunning)).keys := by
  obtain ⟨t, ht, hscan, rfl⟩ := mem_keys_build_iff.mp h
  obtain ⟨hworkload, hincluded⟩ := List.mem_filter.mp ht
  have hnot : inventoryKey t.image ∉ c.runningImages :=
    fun hmem => hruns (runs_of_mem_runningImages hscan hmem)
  refine mem_keys_build_iff.mpr ⟨t, List.mem_filter.mpr ⟨List.mem_filter.mpr ⟨hworkload, ?_⟩,
    hincluded⟩, hscan, rfl⟩
  rw [List.contains_eq_mem, decide_eq_false hnot, Bool.not_false]

variable (excludedNamespaceNames : List Str) (now : Str) (c : Cluster)

/-- Every mode lists its images once, and the running and the non-running images are the images of
the default mode. -/
structure ModesPartition : Prop where
  once : ∀ mode,
    ListsOnce (selectedTargets (namespaceExcluder excludedNamespaceNames) c mode)
      (reconcileWorkloadImageScans excludedNamespaceNames now mode c)
  union : ∀ k,
    k ∈ (reconcileWorkloadImageScans excludedNamespaceNames now .running c).keys ∨
        k ∈ (reconcileWorkloadImageScans excludedNamespaceNames now .nonRunning c).keys ↔
      k ∈ (reconcileWorkloadImageScans excludedNamespaceNames now .workload c).keys

/-- Every mode lists its images once; the running mode lists what runs in the namespaces that are
not excluded, and the non-running mode nothing but images of the default mode; and together they
list these images and what runs there, images that run in excluded namespaces only left aside. -/
structure ModesCover : Prop where
  once : ∀ mode,
    ListsOnce (selectedTargets (namespaceExcluder excludedNamespaceNames) c mode)
      (reconcileWorkloadImageScans excludedNamespaceNames now mode c)
  running : ∀ k, k ∈ (reconcileWorkloadImageScans excludedNamespaceNames now .running c).keys ↔
    c.Runs (fun ns => namespaceExcluder excludedNamespaceNames ns = false) k
  nonRunning : ∀ k,
    k ∈ (reconcileWorkloadImageScans excludedNamespaceNames now .nonRunning c).keys →
      k ∈ (reconcileWorkloadImageScans excludedNamespaceNames now .workload c).keys
  union : ∀ k,
    (c.Runs (fun ns => namespaceExcluder excludedNamespaceNames ns) k →
      c.Runs (fun ns => namespaceExcluder excludedNamespaceNames ns = false) k) →
    (k ∈ (reconcileWorkloadImageScans excludedNamespaceNames now .running c).keys ∨
        k ∈ (reconcileWorkloadImageScans excludedNamespaceNames now .nonRunning c).keys ↔
      k ∈ (reconcileWorkloadImageScans excludedNamespaceNames now .workload c).keys ∨
        c.Runs (fun ns => namespaceExcluder excludedNamespaceNames ns = false) k)

theorem modesCover : ModesCover excludedNamespaceNames now c where
  once mode := listsOnce_build now _
  running _ := mem_running_iff
  nonRunning _ := mem_workload_of_mem_nonRunning
  union k hexcluded := by
    constructor
    · rintro (h | h)
      · exact .inr (mem_running_iff.mp h)
      · exact .inl (mem_workload_of_mem_nonRunning h)
    · rintro (h | h)
      · by_cases hruns : c.Runs (fun ns => namespaceExcluder excludedNamespaceNames ns = false) k
        · exact .inl (mem_running_iff.mpr hruns)
        · refine .inr (mem_nonRunning_of_not_runs h ?_)
          rintro ⟨t, ht, -, hscan, hkey⟩
          cases hns : namespaceExcluder excludedNamespaceNames t.targetNamespace with
          | false => exact hruns ⟨t, ht, hns, hscan, hkey⟩
          | true => exact hruns (hexcluded ⟨t, ht, hns, hscan, hkey⟩)
      · exact .inl (mem_running_iff.mpr h)

end Modes

/-! ### Images that are listed twice or not at all -/

/-- A pod with an owner that runs an image. -/
def runningPod (ns : Str) : Pod where
  ns := ns
  name := str "api-7d9f"
  uid := str "uid-pod"
  owned := true
  spec := ⟨[], [⟨str "api", str "registry.example/api:v1"⟩], []⟩
  phase := str "Running"
  initContainerStatuses := []
  containerStatuses := [⟨str "api", true⟩]

/-- A deployment of that image. -/
def apiDeployment : Workload where
  ns := str "default"
  name := str "api"
  uid := str "uid-api"
  template := ⟨[], [⟨str "api", str "registry.example/api:v1"⟩], []⟩

attribute [local instance] asciiRunes in
/-- A pod of some other owner is listed by the running mode only; and an image of a deployment that
runs in an excluded namespace only is listed by neither mode. -/
theorem not_modesPartition :
    (¬ ModesPartition [] [] { pods := [runningPod (str "default")] }) ∧
      ¬ ModesPartition [str "kube-system"] []
        { deployments := [apiDeployment], pods := [runningPod (str "kube-system")] } := by
  constructor
  · intro h
    have hrunning := (h.union (str "registry.example/api:v1")).mp
      (.inl (mem_keys_build_iff.mpr (by decide +kernel)))
    exact absurd (mem_keys_build_iff.mp hrunning) (by decide +kernel)
  · intro h
    have hworkload := (h.union (str "registry.example/api:v1")).mpr
      (mem_keys_build_iff.mpr (by decide +kernel))
    rcases hworkload with hrunning | hnonRunning
    · exact absurd (mem_keys_build_iff.mp hrunning) (by decide +kernel)
    · exact absurd (mem_keys_build_iff.mp hnonRunning) (by decide +kernel)

end Vat.ScanInventory
