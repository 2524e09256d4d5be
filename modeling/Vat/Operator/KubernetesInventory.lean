import Mathlib.Data.List.Forall2
import Vat.Python.Json
import Vat.Python.Maps

/-!
# The Kubernetes inventory and the values of secrets

The operator publishes a manifest of every object of the cluster. Secrets lose their data and
ConfigMaps keep the keys only, but the annotations of both are published as they are, and
`kubectl apply` keeps the applied object, values included, in one of them. So two cluster states
that differ in values only are published alike exactly if these copies are the same
(`manifests_eq_iff`).

Source: `operator/internal/reconcile/kubernetes_inventory.go`;
`operator/internal/reconcile/deployment_scanner.go`, lines 176–185.

## Main definitions

* `Cluster`, `reconcileKubernetesInventory`: the objects that are listed and the inventory of them.
* `DifferInValues`: cluster states that differ in the values of Secrets and ConfigMaps and in the
  copies of them.

## Main results

* `StrMap.dump_eq_iff`: maps are written alike exactly if they hold the same under every key.
* `secret_manifest_eq_iff`, `configMap_manifest_eq_iff`, `manifests_eq_iff`.
-/

namespace Vat

/-! ### Maps -/

namespace StrMap

/-- A map as a value. -/
def toJson (m : StrMap Json) : Json := .dict m.keys m.values

private theorem keys_eq_of_dump_eq {m m' : StrMap Json} (h : m.toJson.dump = m'.toJson.dump) :
    m.keys = m'.keys := by
  obtain ⟨hmembers, -⟩ := members_append_inj (fun k => (m.values k).dump_splits)
    (List.cons.inj h).2
  have hsorted : m.keys.sort (· ≤ ·) = m'.keys.sort (· ≤ ·) := by
    have := List.forall₂_map_left_iff.mp (List.forall₂_map_right_iff.mp
      (List.forall₂_eq_eq_eq ▸ hmembers : List.Forall₂ (· = ·) _ _))
    rw [← List.attach_map_subtype_val (m.keys.sort (· ≤ ·)),
      ← List.attach_map_subtype_val (m'.keys.sort (· ≤ ·)), ← List.forall₂_eq_eq_eq,
      List.forall₂_map_left_iff, List.forall₂_map_right_iff]
    exact this.imp fun k k' hk => quote_injective (quote_append_inj hk).1
  rw [← Finset.sort_toFinset m.keys (· ≤ ·), hsorted, Finset.sort_toFinset]

/-- Maps are written alike exactly if they hold the same under every key. -/
theorem dump_eq_iff {m m' : StrMap Json} :
    m.toJson.dump = m'.toJson.dump ↔ ∀ k, (m.get k).map Json.dump = (m'.get k).map Json.dump := by
  constructor
  · intro h k
    have hkeys := keys_eq_of_dump_eq h
    obtain ⟨keys, values⟩ := m
    obtain ⟨keys', values'⟩ := m'
    obtain rfl : keys = keys' := hkeys
    have := Json.dump_dict_eq_iff.mp h
    rw [get, get]
    split
    · next hk => exact congrArg some (this ⟨k, hk⟩)
    · rfl
  · intro h
    have hkeys : m.keys = m'.keys :=
      keys_eq_of_isSome fun k => by simpa using congrArg Option.isSome (h k)
    obtain ⟨keys, values⟩ := m
    obtain ⟨keys', values'⟩ := m'
    obtain rfl : keys = keys' := hkeys
    refine Json.dump_dict_eq_iff.mpr fun k => ?_
    have hk := h k.1
    rwa [get, get, dif_pos k.2, dif_pos k.2, Option.map_some, Option.map_some,
      Option.some.injEq] at hk

theorem dump_set_eq_iff {m : StrMap Json} {k : Str} {v v' : Json} :
    (m.set k v).toJson.dump = (m.set k v').toJson.dump ↔ v.dump = v'.dump := by
  rw [dump_eq_iff]
  constructor
  · intro h
    simpa using h k
  · intro h x
    rw [get_set, get_set]
    split
    · rw [Option.map_some, Option.map_some, h]
    · rfl

theorem dump_map_text_eq_iff {m m' : StrMap Str} :
    (m.map Json.text).toJson.dump = (m'.map Json.text).toJson.dump ↔ m = m' := by
  rw [dump_eq_iff]
  constructor
  · intro h
    refine ext_get fun k => ?_
    have hk := h k
    rw [get_map, get_map, Option.map_map, Option.map_map] at hk
    exact Option.map_injective quote_injective hk
  · rintro rfl k
    rfl

end StrMap

/-! ### Objects -/

/-- The metadata of an object. `others` has the members that the code does not name, and
`managedFields` and `creationTimestamp`. -/
structure ObjectMeta where
  name : Str
  ns : Str
  uid : Str
  resourceVersion : Str
  annotations : StrMap Str
  others : StrMap Json

/-- An object of a kind whose members are published as they are. -/
structure ApiObject where
  metadata : ObjectMeta
  members : StrMap Json

/-- A container, as far as it is published on its own. -/
structure Container where
  name : Str
  image : Str
  imagePullPolicy : Str
  resources : Json
  securityContext : Json

/-- A pod with the containers of its spec. -/
structure Pod extends ApiObject where
  initContainers : List Container
  containers : List Container

/-- A ConfigMap. Values that are bytes are given by the base64 text that JSON has for them. -/
structure ConfigMap where
  metadata : ObjectMeta
  immutable : Option Bool
  data : Option (StrMap Str)
  binaryData : Option (StrMap Str)

structure Secret where
  metadata : ObjectMeta
  immutable : Option Bool
  data : Option (StrMap Str)
  stringData : Option (StrMap Str)
  type : Str

/-- The objects that the API server lists. -/
structure Cluster where
  deployments : List ApiObject
  statefulSets : List ApiObject
  daemonSets : List ApiObject
  jobs : List ApiObject
  cronJobs : List ApiObject
  pods : List Pod
  nodes : List ApiObject
  services : List ApiObject
  configMaps : List ConfigMap
  secrets : List Secret
  serviceAccounts : List ApiObject
  ingresses : List ApiObject
  networkPolicies : List ApiObject
  roles : List ApiObject
  roleBindings : List ApiObject
  clusterRoles : List ApiObject
  clusterRoleBindings : List ApiObject

/-! ### Manifests -/

/-- `yaml.Marshal`, which writes values alike exactly if they are the same, as `dump` does. -/
class YamlMarshal where
  marshal : Json → Str
  marshal_eq_iff : ∀ {x y : Json}, marshal x = marshal y ↔ x.dump = y.dump

/-- JSON is YAML. -/
@[reducible] def jsonAsYaml : YamlMarshal := ⟨Json.dump, Iff.rfl⟩

namespace StrMap

/-- A text member with `omitempty`. -/
def setText (m : StrMap Json) (k v : Str) : StrMap Json := if v = [] then m else m.set k (.text v)

/-- A map of texts as a member with `omitempty`. -/
def setMap (m : StrMap Json) (k : Str) (v : StrMap Str) : StrMap Json :=
  if v.keys = ∅ then m else m.set k (v.map Json.text).toJson

/-- The same of a map that may be `nil`. -/
def setOptMap (m : StrMap Json) (k : Str) (v : Option (StrMap Str)) : StrMap Json :=
  v.elim m (m.setMap k)

end StrMap

def ObjectMeta.marshal (o : ObjectMeta) : StrMap Json :=
  ((((o.others.setText (str "name") o.name).setText (str "namespace") o.ns).setText
    (str "uid") o.uid).setText (str "resourceVersion") o.resourceVersion).setMap
    (str "annotations") o.annotations

/-- The members of an object with its `TypeMeta`. -/
def marshalObject (apiVersion kind : Str) (metadata : ObjectMeta) (members : StrMap Json) :
    StrMap Json :=
  ((members.set (str "apiVersion") (.text apiVersion)).set (str "kind") (.text kind)).set
    (str "metadata") metadata.marshal.toJson

def setImmutable (m : StrMap Json) (immutable : Option Bool) : StrMap Json :=
  immutable.elim m fun b => m.set (str "immutable") (.bool b)

def ConfigMap.members (c : ConfigMap) : StrMap Json :=
  ((setImmutable .empty c.immutable).setOptMap (str "data") c.data).setOptMap
    (str "binaryData") c.binaryData

def Secret.members (s : Secret) : StrMap Json :=
  (((setImmutable .empty s.immutable).setOptMap (str "data") s.data).setOptMap
    (str "stringData") s.stringData).setText (str "type") s.type

/-- What `renderCompactManifest` deletes. -/
def compactMembers (obj : StrMap Json) : StrMap Json :=
  let obj := obj.erase (str "status")
  match obj.get (str "metadata") with
  | some (.dict keys values) =>
    obj.set (str "metadata") (((StrMap.mk keys values).erase (str "managedFields")).erase
      (str "creationTimestamp")).toJson
  | _ => obj

section Render

variable [YamlMarshal]

def renderCompactManifest (manifest : StrMap Json) : Str :=
  YamlMarshal.marshal (compactMembers manifest).toJson

/-- `KubernetesInventoryItem`. -/
structure InventoryItem where
  ns : Str
  kind : Str
  name : Str
  uid : Str
  resourceVersion : Str
  manifest : Str

/-- An item of the inventory. No manifest that is rendered has a value that fails to marshal. -/
def kubernetesInventoryItem (kind : Str) (metadata : ObjectMeta) (manifest : StrMap Json) :
    InventoryItem where
  ns := metadata.ns
  kind := kind
  name := metadata.name
  uid := metadata.uid
  resourceVersion := metadata.resourceVersion
  manifest := renderCompactManifest manifest

/-- What replaces a value of a ConfigMap, and its base64 form. -/
def redacted : Str := str "<redacted>"

def redactedBase64 : Str := str "PHJlZGFjdGVkPg=="

def sanitizedConfigMap (c : ConfigMap) : ConfigMap :=
  { c with
    data := c.data.map (.map fun _ => redacted)
    binaryData := c.binaryData.map (.map fun _ => redactedBase64) }

def sanitizedSecret (s : Secret) : Secret :=
  { s with
    data := none
    stringData := none
    metadata :=
      { s.metadata with
        annotations :=
          s.metadata.annotations.set (str "vat.io/secret-data-stripped") (str "true") } }

/-- The items of the objects of a kind. -/
def objectItems (apiVersion kind : Str) (objects : List ApiObject) : List InventoryItem :=
  objects.map fun o =>
    kubernetesInventoryItem kind o.metadata (marshalObject apiVersion kind o.metadata o.members)

def containerInventoryItem (pod : Pod) (c : Container) (containerType : Str) : InventoryItem :=
  let name := pod.metadata.name ++ str "/" ++ c.name
  let labels : StrMap Json := .ofList
    [(str "vat.io/pod", .text pod.metadata.name), (str "vat.io/container-name", .text c.name),
      (str "vat.io/container-type", .text containerType)]
  let parent : StrMap Json := .ofList
    [(str "apiVersion", .text (str "v1")), (str "kind", .text (str "Pod")),
      (str "name", .text pod.metadata.name), (str "uid", .text pod.metadata.uid)]
  let spec : StrMap Json := .ofList
    [(str "image", .text c.image), (str "imagePullPolicy", .text c.imagePullPolicy),
      (str "resources", c.resources), (str "securityContext", c.securityContext),
      (str "parent", parent.toJson)]
  let metadata : StrMap Json := .ofList
    [(str "name", .text name), (str "namespace", .text pod.metadata.ns),
      (str "labels", labels.toJson)]
  { ns := pod.metadata.ns
    kind := str "Container"
    name := name
    uid := pod.metadata.uid
    resourceVersion := pod.metadata.resourceVersion
    manifest := renderCompactManifest (.ofList
      [(str "apiVersion", .text (str "vat.io/v1")), (str "kind", .text (str "Container")),
        (str "metadata", metadata.toJson), (str "spec", spec.toJson)]) }

def containerInventoryItems (pod : Pod) : List InventoryItem :=
  (pod.initContainers.map fun c => containerInventoryItem pod c (str "init")) ++
    pod.containers.map fun c => containerInventoryItem pod c (str "app")

def podItems (pods : List Pod) : List InventoryItem :=
  pods.flatMap fun p =>
    kubernetesInventoryItem (str "Pod") p.metadata
      (marshalObject (str "v1") (str "Pod") p.metadata p.members) :: containerInventoryItems p

def configMapItem (c : ConfigMap) : InventoryItem :=
  let obj := sanitizedConfigMap c
  kubernetesInventoryItem (str "ConfigMap") obj.metadata
    (marshalObject (str "v1") (str "ConfigMap") obj.metadata obj.members)

def secretItem (s : Secret) : InventoryItem :=
  let obj := sanitizedSecret s
  kubernetesInventoryItem (str "Secret") obj.metadata
    (marshalObject (str "v1") (str "Secret") obj.metadata obj.members)

/-! ### The inventory -/

structure KubernetesInventory where
  generatedAt : Str
  items : List InventoryItem

/-- `namespaceExcluder`. -/
def namespaceExcluder (names : List Str) (ns : Str) : Bool := ns ≠ [] && names.contains ns

def filterInventoryItems (items : List InventoryItem) (excluded : Str → Bool) :
    List InventoryItem := items.filter fun it => !excluded it.ns

def InventoryItem.sortKey (it : InventoryItem) : Str :=
  it.ns ++ str "/" ++ it.kind ++ str "/" ++ it.name

/-- `BuildKubernetesInventory` at a time. -/
def buildKubernetesInventory (now : Str) (items : List InventoryItem) : KubernetesInventory where
  generatedAt := now
  items := items.mergeSort fun a b => decide (a.sortKey ≤ b.sortKey)

/-- The items of all objects, in the order in which they are listed. -/
def inventoryItems (c : Cluster) : List InventoryItem :=
  let apps := str "apps/v1"
  let batch := str "batch/v1"
  let core := str "v1"
  let networking := str "networking.k8s.io/v1"
  let rbac := str "rbac.authorization.k8s.io/v1"
  (objectItems apps (str "Deployment") c.deployments ++
    objectItems apps (str "StatefulSet") c.statefulSets ++
    objectItems apps (str "DaemonSet") c.daemonSets ++ objectItems batch (str "Job") c.jobs ++
    objectItems batch (str "CronJob") c.cronJobs ++ podItems c.pods ++
    objectItems core (str "Node") c.nodes ++ objectItems core (str "Service") c.services) ++
  (c.configMaps.map configMapItem ++ (c.secrets.map secretItem ++
    (objectItems core (str "ServiceAccount") c.serviceAccounts ++
      objectItems networking (str "Ingress") c.ingresses ++
      objectItems networking (str "NetworkPolicy") c.networkPolicies ++
      objectItems rbac (str "Role") c.roles ++
      objectItems rbac (str "RoleBinding") c.roleBindings ++
      objectItems rbac (str "ClusterRole") c.clusterRoles ++
      objectItems rbac (str "ClusterRoleBinding") c.clusterRoleBindings)))

/-- What `ReconcileKubernetesInventory` publishes when all calls of the API server succeed. -/
def reconcileKubernetesInventory (excludedNamespaceNames : List Str) (now : Str) (c : Cluster) :
    KubernetesInventory :=
  buildKubernetesInventory now
    (filterInventoryItems (inventoryItems c) (namespaceExcluder excludedNamespaceNames))

end Render

/-! ### States that differ in values only -/

/-- The annotation in which `kubectl apply` keeps the applied object. -/
def lastApplied : Str := str "kubectl.kubernetes.io/last-applied-configuration"

/-- Equal metadata, but for the text of a last-applied copy. -/
structure ObjectMeta.SameButCopy (o o' : ObjectMeta) : Prop where
  rest : o' = { o with annotations := o'.annotations }
  others : ∀ k, k ≠ lastApplied → o.annotations.get k = o'.annotations.get k
  copy : (o.annotations.get lastApplied).isSome = (o'.annotations.get lastApplied).isSome

structure ConfigMap.DifferInValues (c c' : ConfigMap) : Prop where
  metadata : c.metadata.SameButCopy c'.metadata
  immutable : c.immutable = c'.immutable
  data : c.data.map StrMap.keys = c'.data.map StrMap.keys
  binaryData : c.binaryData.map StrMap.keys = c'.binaryData.map StrMap.keys

structure Secret.DifferInValues (s s' : Secret) : Prop where
  metadata : s.metadata.SameButCopy s'.metadata
  immutable : s.immutable = s'.immutable
  data : s.data.map StrMap.keys = s'.data.map StrMap.keys
  stringData : s.stringData.map StrMap.keys = s'.stringData.map StrMap.keys
  type : s.type = s'.type

/-- Cluster states that differ in the values of Secrets and ConfigMaps and in the copies only. -/
structure DifferInValues (c c' : Cluster) : Prop where
  rest : c' = { c with configMaps := c'.configMaps, secrets := c'.secrets }
  configMaps : List.Forall₂ ConfigMap.DifferInValues c.configMaps c'.configMaps
  secrets : List.Forall₂ Secret.DifferInValues c.secrets c'.secrets

/-- Metadata of an excluded namespace, or with the same copy. -/
def ObjectMeta.CopyHidden (excludedNamespaceNames : List Str) (o o' : ObjectMeta) : Prop :=
  namespaceExcluder excludedNamespaceNames o.ns = false →
    o.annotations.get lastApplied = o'.annotations.get lastApplied

/-! ### Manifests of sanitized objects -/

/-- Redacting leaves the keys. -/
theorem map_const_eq {m m' : Option (StrMap Str)} (h : m.map StrMap.keys = m'.map StrMap.keys)
    (v : Str) : m.map (StrMap.map fun _ => v) = m'.map (StrMap.map fun _ => v) := by
  cases m <;> cases m' <;> simp at h
  · rfl
  · next x y =>
    obtain ⟨keys, values⟩ := x
    obtain ⟨keys', values'⟩ := y
    obtain rfl : keys = keys' := h
    rfl

namespace ObjectMeta.SameButCopy

variable {o o' : ObjectMeta}

theorem keys_eq (h : o.SameButCopy o') : o.annotations.keys = o'.annotations.keys := by
  refine StrMap.keys_eq_of_isSome fun k => ?_
  by_cases hk : k = lastApplied
  · rw [hk, h.copy]
  · rw [h.others k hk]

theorem annotations_eq_iff (h : o.SameButCopy o') : o.annotations = o'.annotations ↔
    o.annotations.get lastApplied = o'.annotations.get lastApplied := by
  refine ⟨fun heq => by rw [heq], fun heq => StrMap.ext_get fun k => ?_⟩
  by_cases hk : k = lastApplied
  · rw [hk, heq]
  · rw [h.others k hk]

/-- Another annotation keeps the metadata the same but for the copy. -/
theorem set (h : o.SameButCopy o') {k : Str} (hk : k ≠ lastApplied) (v : Str) :
    ({ o with annotations := o.annotations.set k v } : ObjectMeta).SameButCopy
      { o' with annotations := o'.annotations.set k v } where
  rest := by rw [h.rest]
  others x hx := by simp only [StrMap.get_set, h.others x hx]
  copy := by simp only [StrMap.get_set, if_neg hk.symm, h.copy]

end ObjectMeta.SameButCopy

section Sanitized

variable [YamlMarshal]

omit [YamlMarshal] in
theorem compactMembers_set_metadata (m x : StrMap Json) :
    compactMembers (m.set (str "metadata") x.toJson) =
      (m.erase (str "status")).set (str "metadata")
        ((x.erase (str "managedFields")).erase (str "creationTimestamp")).toJson := by
  have hne : str "metadata" ≠ str "status" := by decide
  have hget : ((m.set (str "metadata") x.toJson).erase (str "status")).get (str "metadata") =
      some (.dict x.keys x.values) := by
    rw [StrMap.get_erase, if_neg hne, StrMap.get_set, if_pos rfl]
    rfl
  simp only [compactMembers, hget]
  refine StrMap.ext_get fun k => ?_
  simp only [StrMap.get_set, StrMap.get_erase]
  split
  · rfl
  · rfl

/-- Manifests that differ in the annotations only are rendered alike exactly if these are equal. -/
theorem render_annotations_eq_iff {o : ObjectMeta} {a a' : StrMap Str} (hkeys : a.keys = a'.keys)
    {apiVersion kind : Str} {members : StrMap Json} :
    renderCompactManifest (marshalObject apiVersion kind { o with annotations := a } members) =
      renderCompactManifest (marshalObject apiVersion kind { o with annotations := a' } members) ↔
        a = a' := by
  by_cases hempty : a.keys = ∅
  · have heq : a = a' := by
      refine StrMap.ext_get fun k => ?_
      rw [StrMap.get, StrMap.get, dif_neg (by simp [hempty]), dif_neg (by simp [← hkeys, hempty])]
    simp [heq]
  have hempty' : a'.keys ≠ ∅ := hkeys ▸ hempty
  have hmanaged : str "annotations" ≠ str "managedFields" := by decide
  have hcreation : str "annotations" ≠ str "creationTimestamp" := by decide
  simp only [renderCompactManifest, YamlMarshal.marshal_eq_iff, marshalObject,
    compactMembers_set_metadata, StrMap.dump_set_eq_iff, ObjectMeta.marshal, StrMap.setMap,
    if_neg hempty, if_neg hempty', StrMap.erase_set hmanaged, StrMap.erase_set hcreation,
    StrMap.dump_map_text_eq_iff]

theorem render_eq_iff {o o' : ObjectMeta} (h : o.SameButCopy o') {apiVersion kind : Str}
    {members : StrMap Json} :
    renderCompactManifest (marshalObject apiVersion kind o members) =
      renderCompactManifest (marshalObject apiVersion kind o' members) ↔
        o.annotations.get lastApplied = o'.annotations.get lastApplied := by
  rw [h.rest, ← h.annotations_eq_iff]
  exact render_annotations_eq_iff h.keys_eq

/-- A ConfigMap is published alike exactly if the copy in its annotations is the same. -/
theorem configMap_manifest_eq_iff {c c' : ConfigMap} (h : c.DifferInValues c') :
    (configMapItem c).manifest = (configMapItem c').manifest ↔
      c.metadata.annotations.get lastApplied = c'.metadata.annotations.get lastApplied := by
  have hmembers : (sanitizedConfigMap c).members = (sanitizedConfigMap c').members := by
    simp only [ConfigMap.members, sanitizedConfigMap, h.immutable, map_const_eq h.data,
      map_const_eq h.binaryData]
  simp only [configMapItem, kubernetesInventoryItem, hmembers]
  exact render_eq_iff h.metadata

/-- A Secret too: the mark that its data are stripped does not touch the copy. -/
theorem secret_manifest_eq_iff {s s' : Secret} (h : s.DifferInValues s') :
    (secretItem s).manifest = (secretItem s').manifest ↔
      s.metadata.annotations.get lastApplied = s'.metadata.annotations.get lastApplied := by
  have hmembers : (sanitizedSecret s).members = (sanitizedSecret s').members := by
    simp only [Secret.members, sanitizedSecret, h.immutable, h.type]
  have hmark : str "vat.io/secret-data-stripped" ≠ lastApplied := by decide
  simp only [secretItem, kubernetesInventoryItem, hmembers]
  refine (render_eq_iff (h.metadata.set hmark (str "true"))).trans ?_
  rw [StrMap.get_set, StrMap.get_set, if_neg hmark.symm, if_neg hmark.symm]

end Sanitized

/-! ### The whole inventory -/

/-- Items before the inventory is published, and the manifest that the other state has for each. -/
private theorem exists_pairs {items items' : List InventoryItem}
    (h : List.Forall₂ (fun a b => b = { a with manifest := b.manifest }) items items') :
    ∃ z : List (InventoryItem × Str), items = z.map Prod.fst ∧
      items' = z.map fun p => { p.1 with manifest := p.2 } := by
  induction h with
  | nil => exact ⟨[], rfl, rfl⟩
  | @cons a b _ _ hab _ ih =>
    obtain ⟨z, rfl, rfl⟩ := ih
    exact ⟨(a, b.manifest) :: z, rfl, by rw [List.map_cons, ← hab]⟩

/-- What is published of items that come from a list of pairs. -/
private theorem items_map (z : List (InventoryItem × Str)) (f : InventoryItem × Str → InventoryItem)
    (hns : ∀ p, (f p).ns = p.1.ns) (hkey : ∀ p, (f p).sortKey = p.1.sortKey)
    (excluded : Str → Bool) (now : Str) :
    (buildKubernetesInventory now (filterInventoryItems (z.map f) excluded)).items =
      ((z.filter fun p => !excluded p.1.ns).mergeSort
        fun p q => decide (p.1.sortKey ≤ q.1.sortKey)).map f := by
  have hfilter : ((fun it : InventoryItem => !excluded it.ns) ∘ f) = fun p => !excluded p.1.ns := by
    funext p
    rw [Function.comp, hns]
  rw [buildKubernetesInventory, filterInventoryItems, List.filter_map, hfilter]
  exact (List.map_mergeSort fun p _ q _ => by rw [hkey, hkey]).symm

/-- Items that differ in the manifests only are published alike exactly if the manifests of those
that are not excluded are equal. -/
theorem published_eq_iff {items items' : List InventoryItem} (excluded : Str → Bool)
    (now now' : Str)
    (h : List.Forall₂ (fun a b => b = { a with manifest := b.manifest }) items items') :
    (buildKubernetesInventory now (filterInventoryItems items excluded)).items.map
        InventoryItem.manifest =
      (buildKubernetesInventory now' (filterInventoryItems items' excluded)).items.map
        InventoryItem.manifest ↔
      List.Forall₂ (fun a b => excluded a.ns = false → a.manifest = b.manifest) items items' := by
  obtain ⟨z, rfl, rfl⟩ := exists_pairs h
  rw [items_map z Prod.fst (fun _ => rfl) (fun _ => rfl),
    items_map z (fun p => { p.1 with manifest := p.2 }) (fun _ => rfl) (fun _ => rfl),
    List.map_map, List.map_map, List.map_inj_left, List.forall₂_map_left_iff,
    List.forall₂_map_right_iff, List.forall₂_same]
  simp only [List.mem_mergeSort, List.mem_filter, Bool.not_eq_true', and_imp, Function.comp]

theorem forall₂_append_iff {α β : Type*} {R : α → β → Prop} {as bs : List α} {as' bs' : List β}
    (h : as.length = as'.length) :
    List.Forall₂ R (as ++ bs) (as' ++ bs') ↔ List.Forall₂ R as as' ∧ List.Forall₂ R bs bs' := by
  induction as generalizing as' with
  | nil =>
    obtain rfl : as' = [] := List.length_eq_zero_iff.mp h.symm
    simp
  | cons a as ih =>
    cases as' with
    | nil => simp at h
    | cons a' as' =>
      rw [List.cons_append, List.cons_append, List.forall₂_cons, List.forall₂_cons,
        ih (Nat.succ.inj h), and_assoc]

theorem forall₂_congr_of {α β : Type*} {D P Q : α → β → Prop} {as : List α} {bs : List β}
    (h : List.Forall₂ D as bs) (hpq : ∀ a b, D a b → (P a b ↔ Q a b)) :
    List.Forall₂ P as bs ↔ List.Forall₂ Q as bs :=
  ⟨fun hp => h.mp (fun a b hd hp => (hpq a b hd).mp hp) hp,
    fun hq => h.mp (fun a b hd hq => (hpq a b hd).mpr hq) hq⟩

section Inventory

variable [YamlMarshal] {c c' : Cluster}

/-- The other objects are the same in both states. -/
theorem forall₂_inventoryItems_iff (h : DifferInValues c c')
    {R : InventoryItem → InventoryItem → Prop} (hrefl : ∀ a, R a a) :
    List.Forall₂ R (inventoryItems c) (inventoryItems c') ↔
      List.Forall₂ (fun m m' => R (configMapItem m) (configMapItem m')) c.configMaps c'.configMaps ∧
        List.Forall₂ (fun s s' => R (secretItem s) (secretItem s')) c.secrets c'.secrets := by
  have hmaps := h.configMaps.length_eq
  have hsecrets := h.secrets.length_eq
  have hsame : ∀ l : List InventoryItem, List.Forall₂ R l l :=
    fun l => List.forall₂_same.mpr fun a _ => hrefl a
  rw [h.rest]
  refine (forall₂_append_iff rfl).trans ((and_iff_right (hsame _)).trans ?_)
  refine (forall₂_append_iff (by simpa using hmaps)).trans (and_congr ?_ ?_)
  · rw [List.forall₂_map_left_iff, List.forall₂_map_right_iff]
  refine (forall₂_append_iff (by simpa using hsecrets)).trans ((and_iff_left (hsame _)).trans ?_)
  rw [List.forall₂_map_left_iff, List.forall₂_map_right_iff]

theorem configMapItem_eq {m m' : ConfigMap} (h : m.DifferInValues m') :
    configMapItem m' = { configMapItem m with manifest := (configMapItem m').manifest } := by
  simp only [configMapItem, kubernetesInventoryItem, sanitizedConfigMap]
  rw [h.metadata.rest]

theorem secretItem_eq {s s' : Secret} (h : s.DifferInValues s') :
    secretItem s' = { secretItem s with manifest := (secretItem s').manifest } := by
  simp only [secretItem, kubernetesInventoryItem, sanitizedSecret]
  rw [h.metadata.rest]

/-- Cluster states that differ in values only are published alike exactly if, outside the excluded
namespaces, the last-applied copies of Secrets and ConfigMaps are the same. -/
theorem manifests_eq_iff (h : DifferInValues c c') (excluded : List Str) (now now' : Str) :
    (reconcileKubernetesInventory excluded now c).items.map InventoryItem.manifest =
      (reconcileKubernetesInventory excluded now' c').items.map InventoryItem.manifest ↔
      List.Forall₂ (fun m m' => m.metadata.CopyHidden excluded m'.metadata) c.configMaps
          c'.configMaps ∧
        List.Forall₂ (fun s s' => s.metadata.CopyHidden excluded s'.metadata) c.secrets
          c'.secrets := by
  have hitems : List.Forall₂ (fun a b => b = { a with manifest := b.manifest })
      (inventoryItems c) (inventoryItems c') :=
    (forall₂_inventoryItems_iff (R := fun a b => b = { a with manifest := b.manifest }) h
      fun _ => rfl).mpr
      ⟨h.configMaps.imp fun _ _ hm => configMapItem_eq hm,
        h.secrets.imp fun _ _ hs => secretItem_eq hs⟩
  rw [reconcileKubernetesInventory, reconcileKubernetesInventory, published_eq_iff _ _ _ hitems,
    forall₂_inventoryItems_iff h fun _ _ => rfl]
  refine and_congr (forall₂_congr_of h.configMaps fun m m' hm => ?_)
    (forall₂_congr_of h.secrets fun s s' hs => ?_)
  · exact imp_congr_right fun _ => configMap_manifest_eq_iff hm
  · exact imp_congr_right fun _ => secret_manifest_eq_iff hs

end Inventory

/-! ### A Secret that was applied -/

section Applied

attribute [local instance] jsonAsYaml

/-- A Secret with a password, by its base64 text, and the copy of it that `kubectl apply` keeps. -/
def appliedSecret (password : Str) : Secret where
  metadata :=
    { name := str "db-password"
      ns := str "default"
      uid := str "5f1c"
      resourceVersion := str "12"
      annotations := StrMap.empty.set lastApplied
        (str "\x7b\x22kind\x22:\x22Secret\x22,\x22data\x22:\x7b\x22password\x22:\x22" ++ password ++
          str "\x22\x7d\x7d")
      others := .empty }
  immutable := none
  data := some (StrMap.empty.set (str "password") password)
  stringData := none
  type := str "Opaque"

def clusterOfSecret (s : Secret) : Cluster where
  deployments := []
  statefulSets := []
  daemonSets := []
  jobs := []
  cronJobs := []
  pods := []
  nodes := []
  services := []
  configMaps := []
  secrets := [s]
  serviceAccounts := []
  ingresses := []
  networkPolicies := []
  roles := []
  roleBindings := []
  clusterRoles := []
  clusterRoleBindings := []

/-- Two passwords differ in values only. -/
theorem differInValues_applied (p q : Str) :
    DifferInValues (clusterOfSecret (appliedSecret p)) (clusterOfSecret (appliedSecret q)) where
  rest := rfl
  configMaps := .nil
  secrets := by
    refine .cons ⟨⟨rfl, fun k hk => ?_, ?_⟩, rfl, rfl, rfl, rfl⟩ .nil
    · simp [appliedSecret, hk]
    · simp [appliedSecret]

theorem manifests_eq_iff_applied :
    (reconcileKubernetesInventory [] [] (clusterOfSecret (appliedSecret (str "czE=")))).items.map
        InventoryItem.manifest =
      (reconcileKubernetesInventory [] [] (clusterOfSecret (appliedSecret (str "czI=")))).items.map
        InventoryItem.manifest ↔
      List.Forall₂ (fun m m' : ConfigMap => m.metadata.CopyHidden [] m'.metadata) [] [] ∧
        List.Forall₂ (fun s s' : Secret => s.metadata.CopyHidden [] s'.metadata)
          [appliedSecret (str "czE=")] [appliedSecret (str "czI=")] :=
  manifests_eq_iff (differInValues_applied (str "czE=") (str "czI=")) [] [] []

/-- What is published shows the password of a Secret that was applied. -/
theorem not_manifests_eq : ¬ ∀ c c' : Cluster, DifferInValues c c' →
    (reconcileKubernetesInventory [] [] c).items.map InventoryItem.manifest =
      (reconcileKubernetesInventory [] [] c').items.map InventoryItem.manifest := by
  intro hall
  have hitems : ∀ s, (reconcileKubernetesInventory [] [] (clusterOfSecret s)).items =
      [secretItem s] := by
    intro s
    have hfilter : filterInventoryItems [secretItem s] (namespaceExcluder []) = [secretItem s] := by
      simp [filterInventoryItems, namespaceExcluder]
    change (buildKubernetesInventory [] (filterInventoryItems [secretItem s] _)).items = _
    rw [hfilter]
    exact List.mergeSort_singleton _
  have heq := hall _ _ (differInValues_applied (str "czE=") (str "czI="))
  rw [hitems, hitems, List.map_singleton, List.map_singleton, List.singleton_inj] at heq
  obtain ⟨hdiffer, -⟩ :=
    List.forall₂_cons.mp (differInValues_applied (str "czE=") (str "czI=")).secrets
  have hcopy := (secret_manifest_eq_iff hdiffer).mp heq
  simp only [appliedSecret, StrMap.get_set, if_pos, Option.some.injEq] at hcopy
  exact absurd hcopy (by decide)

end Applied

end Vat
