import Mathlib.Data.Char
import Mathlib.Data.Finset.Dedup
import Mathlib.Data.Finset.Erase
import Mathlib.Data.Finset.Lattice.Lemmas
import Mathlib.Data.List.Lex
import Mathlib.Order.Lex
import Vat.Identity.ImageDigests

/-!
# Images of pods and the set of images seen

The operator turns a pod into one work item for each of its containers and asks the tracker which of
them are new. An item is known by its digest and by its image reference; it is new if neither is
known. Each key is counted by the pods that have it, and forgotten when the last of them is gone.

Source: `operator/internal/watch/workitems.go`; `operator/internal/watch/tracker.go`.

## Main definitions

* `Watch.Pod`, `Watch.WorkItem`, `Watch.workItemsFromPod`.
* `Watch.Tracker`, `Watch.Tracker.observe`, `Watch.Tracker.delete`.
* `Watch.freshItems`: what an observation returns.

## Main results

* `Watch.observe_fresh`: what an observation returns depends on the known keys only.
* `Watch.Tracker.Consistent`: the counts are those of the pods, and their keys are known; kept by
  `observe` and `delete`.
* `Watch.forall_covered_iff`: when an observation leaves every item covered.
-/

namespace Vat.Watch

/-! ### Work items -/

/-- A container of a pod's spec. -/
structure ContainerSpec where
  name : Str
  image : Str

structure ContainerStatus where
  name : Str
  imageID : Str

/-- A pod, as far as the operator reads it. -/
structure Pod where
  uid : Str
  ns : Str
  name : Str
  phase : Str
  initContainers : List ContainerSpec
  containers : List ContainerSpec
  ephemeralContainers : List ContainerSpec
  initContainerStatuses : List ContainerStatus
  containerStatuses : List ContainerStatus
  ephemeralContainerStatuses : List ContainerStatus

structure ObservedRef where
  ns : Str
  kind : Str
  name : Str
  container : Str
  deriving DecidableEq

structure WorkItem where
  imageRef : Str
  digest : Str
  tag : Str
  scanTypes : List Str
  observedRefs : List ObservedRef
  deriving DecidableEq

def defaultScanTypes : List Str := [str "image-sca", str "image-sbom", str "container-stig"]

/-- `tagFromRef`. -/
def tagFromRef (ref : Str) : Str :=
  let ref := ref.takeWhile (· != '@')
  let lastSegment := (Str.rsplit1 '/' ref).2
  if ':' ∈ lastSegment then (Str.rsplit1 ':' lastSegment).2 else str "latest"

/-- The map from container names to images, as the assignments to it. -/
def images (pod : Pod) : List (Str × Str) :=
  ((pod.initContainers ++ pod.containers ++ pod.ephemeralContainers).filter
    fun c => c.image ≠ []).map fun c => (c.name, c.image)

/-- The map from container names to the digests of the status, as the assignments to it. -/
def digests (pod : Pod) : List (Str × Str) :=
  ((pod.initContainerStatuses ++ pod.containerStatuses ++ pod.ephemeralContainerStatuses).filter
    fun s => extractDigest s.imageID ≠ []).map fun s => (s.name, extractDigest s.imageID)

/-- What a map holds after some assignments; the empty text if there is none for the key. -/
def assigned (l : List (Str × Str)) (k : Str) : Str := (l.reverse.lookup k).getD []

/-- The work item of a container. -/
def workItem (pod : Pod) (container : Str) : WorkItem :=
  let ref := assigned (images pod) container
  let digest := assigned (digests pod) container
  { imageRef := ref
    digest := if digest = [] then extractDigest ref else digest
    tag := tagFromRef ref
    scanTypes := defaultScanTypes
    observedRefs := [⟨pod.ns, str "Pod", pod.name, container⟩] }

/-- `WorkItemsFromPod`. -/
def workItemsFromPod (pod : Pod) : List WorkItem :=
  (((images pod).map Prod.fst).dedup.mergeSort fun a b => decide (a ≤ b)).map (workItem pod)

/-- The items of a pod are those of different containers. -/
theorem eq_of_observedRefs_eq {pod : Pod} {it it' : WorkItem} (h : it ∈ workItemsFromPod pod)
    (h' : it' ∈ workItemsFromPod pod) (heq : it.observedRefs = it'.observedRefs) : it = it' := by
  obtain ⟨c, -, rfl⟩ := List.mem_map.mp h
  obtain ⟨c', -, rfl⟩ := List.mem_map.mp h'
  have hc : c = c' := by simpa [workItem] using heq
  rw [hc]

/-- A normalized digest, or none. -/
def IsDigestText (d : Str) : Prop := d = [] ∨ ∃ hex, d = digestMarker ++ hex

theorem isDigestText_extractDigest (s : Str) : IsDigestText (extractDigest s) := by
  rw [extractDigest]
  split
  · exact .inl rfl
  · dsimp only
    split
    · exact .inl rfl
    · exact .inr ⟨_, rfl⟩

theorem isDigestText_of_mem {pod : Pod} {it : WorkItem} (h : it ∈ workItemsFromPod pod) :
    IsDigestText it.digest := by
  obtain ⟨c, -, rfl⟩ := List.mem_map.mp h
  rw [workItem]
  dsimp only
  split
  · exact isDigestText_extractDigest _
  · next hne =>
    rw [assigned] at hne ⊢
    cases hl : (digests pod).reverse.lookup c with
    | none => exact .inl rfl
    | some d =>
      obtain ⟨pre, post, heq, -⟩ := List.lookup_eq_some_iff.mp hl
      have hmem : (c, d) ∈ digests pod := List.mem_reverse.mp (heq ▸ by simp)
      obtain ⟨status, -, hs⟩ := List.mem_map.mp hmem
      obtain ⟨-, rfl⟩ := Prod.mk.inj hs
      exact isDigestText_extractDigest _

/-! ### The tracker -/

/-- `Tracker`: the known keys, how many pods have each, and the keys of each pod. -/
structure Tracker where
  known : Finset Str
  refs : Str → ℤ
  podKeys : List (Str × List Str)

/-- `NewTracker`. -/
def newTracker (warm : List Str) : Tracker where
  known := (warm.filter (· ≠ [])).toFinset
  refs _ := 0
  podKeys := []

/-- `keysFor`. -/
def keysFor (it : WorkItem) : List Str :=
  (if it.digest ≠ [] then [it.digest] else []) ++ [str "ref:" ++ it.imageRef]

theorem digest_mem_keysFor {it : WorkItem} (h : it.digest ≠ []) : it.digest ∈ keysFor it := by
  rw [keysFor, if_pos h]
  exact List.mem_append_left _ (List.mem_singleton_self _)

theorem ref_mem_keysFor (it : WorkItem) : str "ref:" ++ it.imageRef ∈ keysFor it :=
  List.mem_append_right _ (List.mem_singleton_self _)

/-- An item none of whose keys is known. -/
def Unseen (known : Finset Str) (it : WorkItem) : Prop := ∀ k ∈ keysFor it, k ∉ known

instance Unseen.decidable (known : Finset Str) (it : WorkItem) : Decidable (Unseen known it) :=
  inferInstanceAs (Decidable (∀ k ∈ keysFor it, k ∉ known))

/-- What an observation has marked so far. -/
structure Marks where
  known : Finset Str
  refs : Str → ℤ
  newSet : List Str

/-- Mark a key of a pod that had the keys `old`. -/
def markKey (old : List Str) (m : Marks) (k : Str) : Marks :=
  if k ∈ m.newSet then m
  else
    { known := insert k m.known
      refs := if k ∈ old then m.refs else Function.update m.refs k (m.refs k + 1)
      newSet := m.newSet ++ [k] }

/-- One turn of the loop of `Observe`. -/
def observeItem (old : List Str) (o : Marks × List WorkItem) (it : WorkItem) :
    Marks × List WorkItem :=
  ((keysFor it).foldl (markKey old) o.1, if Unseen o.1.known it then o.2 ++ [it] else o.2)

/-- `release`. -/
def Tracker.release (t : Tracker) (k : Str) : Tracker :=
  if t.refs k - 1 ≤ 0 then
    { t with refs := Function.update t.refs k 0, known := t.known.erase k }
  else { t with refs := Function.update t.refs k (t.refs k - 1) }

/-- The keys of the last observation of a pod. -/
def Tracker.keysOf (t : Tracker) (uid : Str) : List Str := (t.podKeys.lookup uid).getD []

/-- The pods but one. -/
def otherPods (uid : Str) (podKeys : List (Str × List Str)) : List (Str × List Str) :=
  podKeys.filter fun p => p.1 ≠ uid

/-- `Observe`: the tracker afterwards and the items that are new. -/
def Tracker.observe (t : Tracker) (uid : Str) (items : List WorkItem) : Tracker × List WorkItem :=
  let old := t.keysOf uid
  let (m, fresh) := items.foldl (observeItem old) (⟨t.known, t.refs, []⟩, [])
  let released := (old.filter (· ∉ m.newSet)).foldl Tracker.release ⟨m.known, m.refs, t.podKeys⟩
  ({ released with podKeys := (uid, m.newSet) :: otherPods uid t.podKeys }, fresh)

/-- `Delete`. -/
def Tracker.delete (t : Tracker) (uid : Str) : Tracker :=
  match t.podKeys.lookup uid with
  | none => t
  | some keys => keys.foldl Tracker.release { t with podKeys := otherPods uid t.podKeys }

/-! ### What is new -/

/-- The items that an observation returns, if these keys are known. -/
def freshItems : Finset Str → List WorkItem → List WorkItem
  | _, [] => []
  | known, it :: items =>
    let rest := freshItems (known ∪ (keysFor it).toFinset) items
    if Unseen known it then it :: rest else rest

/-- The marks after the keys `keys` of a pod that had the keys `old`. -/
structure Marked (old : List Str) (known : Finset Str) (refs : Str → ℤ) (keys : List Str)
    (m : Marks) : Prop where
  known_eq : m.known = known ∪ keys.toFinset
  nodup : m.newSet.Nodup
  mem_newSet : ∀ k, k ∈ m.newSet ↔ k ∈ keys
  refs_eq : ∀ k, m.refs k = refs k + if k ∈ keys ∧ k ∉ old then 1 else 0

namespace Marked

variable {old : List Str} {known : Finset Str} {refs : Str → ℤ} {keys : List Str} {m : Marks}

theorem start (old : List Str) (known : Finset Str) (refs : Str → ℤ) :
    Marked old known refs [] ⟨known, refs, []⟩ where
  known_eq := by simp
  nodup := List.nodup_nil
  mem_newSet _ := Iff.rfl
  refs_eq _ := by simp

theorem markKey (h : Marked old known refs keys m) (k : Str) :
    Marked old known refs (keys ++ [k]) (markKey old m k) := by
  by_cases hk : k ∈ m.newSet
  · have hmem := (h.mem_newSet k).mp hk
    rw [Watch.markKey, if_pos hk]
    refine ⟨?_, h.nodup, fun x => ?_, fun x => ?_⟩
    · rw [h.known_eq]
      ext x
      simp only [Finset.mem_union, List.mem_toFinset, List.mem_append, List.mem_singleton]
      grind
    · rw [h.mem_newSet]
      grind
    · rw [h.refs_eq]
      grind
  · have hmem : k ∉ keys := fun hc => hk ((h.mem_newSet k).mpr hc)
    rw [Watch.markKey, if_neg hk]
    refine ⟨?_, ?_, fun x => ?_, fun x => ?_⟩
    · rw [h.known_eq]
      ext x
      simp only [Finset.mem_insert, Finset.mem_union, List.mem_toFinset, List.mem_append,
        List.mem_singleton]
      grind
    · rw [List.nodup_append]
      refine ⟨h.nodup, List.nodup_singleton k, fun x hx y hy hxy => hk ?_⟩
      rwa [← List.mem_singleton.mp hy, ← hxy]
    · rw [List.mem_append, h.mem_newSet, List.mem_append]
    · have hx := h.refs_eq x
      by_cases hxk : x = k
      · subst hxk
        by_cases hold : x ∈ old <;> simp_all
      · by_cases hold : k ∈ old <;> simp_all

theorem foldl (h : Marked old known refs keys m) (keys' : List Str) :
    Marked old known refs (keys ++ keys') (keys'.foldl (Watch.markKey old) m) := by
  induction keys' generalizing keys m with
  | nil => simpa using h
  | cons k keys' ih =>
    rw [List.foldl_cons, List.append_cons]
    exact ih (h.markKey k)

/-- The loop of an observation marks the keys of all items. -/
theorem items (h : Marked old known refs keys m) (items fresh : List WorkItem) :
    Marked old known refs (keys ++ items.flatMap keysFor)
      (items.foldl (observeItem old) (m, fresh)).1 := by
  induction items generalizing keys m fresh with
  | nil => simpa using h
  | cons it items ih =>
    rw [List.foldl_cons, List.flatMap_cons, ← List.append_assoc]
    exact ih (h.foldl (keysFor it)) _

/-- It returns the new items. -/
theorem fresh_eq (h : Marked old known refs keys m) (items fresh : List WorkItem) :
    (items.foldl (observeItem old) (m, fresh)).2 = fresh ++ freshItems m.known items := by
  induction items generalizing keys m fresh with
  | nil => simp [freshItems]
  | cons it items ih =>
    have hnext := h.foldl (keysFor it)
    have hknown : ((keysFor it).foldl (Watch.markKey old) m).known =
        m.known ∪ (keysFor it).toFinset := by
      rw [hnext.known_eq, h.known_eq, List.toFinset_append, Finset.union_assoc]
    rw [List.foldl_cons, observeItem, ih hnext, hknown, freshItems]
    split
    · rw [List.append_assoc]
      rfl
    · rfl

end Marked

/-- What an observation returns depends on the known keys only. -/
theorem observe_fresh (t : Tracker) (uid : Str) (items : List WorkItem) :
    (t.observe uid items).2 = freshItems t.known items :=
  ((Marked.start _ _ _).fresh_eq items []).trans (List.nil_append _)

/-- A pod has the keys of all its items after an observation. -/
theorem observe_podKeys (t : Tracker) (uid : Str) (items : List WorkItem) :
    ∃ keys, (t.observe uid items).1.podKeys = (uid, keys) :: otherPods uid t.podKeys ∧
      ∀ it ∈ items, keysFor it ⊆ keys := by
  have hm := (Marked.start (t.keysOf uid) t.known t.refs).items items []
  refine ⟨_, rfl, fun it hit k hk => (hm.mem_newSet k).mpr ?_⟩
  exact List.mem_append_right _ (List.mem_flatMap.mpr ⟨it, hit, hk⟩)

/-! ### Counting pods -/

/-- What releasing some keys once each leaves. -/
theorem release_foldl {keys : List Str} (hnodup : keys.Nodup) (t : Tracker) :
    (∀ k, (keys.foldl Tracker.release t).refs k =
      if k ∈ keys then max (t.refs k - 1) 0 else t.refs k) ∧
    (∀ k, k ∈ (keys.foldl Tracker.release t).known ↔
      k ∈ t.known ∧ ¬ (k ∈ keys ∧ t.refs k - 1 ≤ 0)) ∧
    (keys.foldl Tracker.release t).podKeys = t.podKeys := by
  induction keys generalizing t with
  | nil => simp
  | cons x keys ih =>
    obtain ⟨hx, hnodup⟩ := List.nodup_cons.mp hnodup
    obtain ⟨hrefs, hknown, hpods⟩ := ih hnodup (t.release x)
    have hrefs' : ∀ k, (t.release x).refs k = if k = x then max (t.refs k - 1) 0 else t.refs k := by
      intro k
      rw [Tracker.release]
      by_cases hk : k = x
      · subst hk
        split
        · simp; omega
        · simp; omega
      · split <;> simp [hk]
    have hknown' : ∀ k, k ∈ (t.release x).known ↔ k ∈ t.known ∧ ¬ (k = x ∧ t.refs k - 1 ≤ 0) := by
      intro k
      rw [Tracker.release]
      split
      · rw [Finset.mem_erase]
        grind
      · grind
    refine ⟨fun k => ?_, fun k => ?_, ?_⟩
    · rw [List.foldl_cons, hrefs, hrefs']
      grind
    · rw [List.foldl_cons, hknown, hknown', hrefs']
      grind
    · rw [List.foldl_cons, hpods, Tracker.release]
      split <;> rfl

/-- How many of some pods have a key. -/
def podCount (podKeys : List (Str × List Str)) (k : Str) : ℤ :=
  podKeys.countP fun p => decide (k ∈ p.2)

/-- The counts are those of the pods, each of which is listed once, and their keys are known. -/
structure Tracker.Consistent (t : Tracker) : Prop where
  uids_nodup : (t.podKeys.map Prod.fst).Nodup
  keys_nodup : ∀ p ∈ t.podKeys, p.2.Nodup
  refs_eq : ∀ k, t.refs k = podCount t.podKeys k
  known_of_mem : ∀ p ∈ t.podKeys, ∀ k ∈ p.2, k ∈ t.known

theorem newTracker_consistent (warm : List Str) : (newTracker warm).Consistent where
  uids_nodup := List.nodup_nil
  keys_nodup _ h := absurd h List.not_mem_nil
  refs_eq _ := rfl
  known_of_mem _ h := absurd h List.not_mem_nil

/-- A pod counts for its keys, beside the others. -/
theorem podCount_eq {podKeys : List (Str × List Str)} (hnodup : (podKeys.map Prod.fst).Nodup)
    (uid k : Str) :
    podCount podKeys k = podCount (otherPods uid podKeys) k +
      if k ∈ (podKeys.lookup uid).getD [] then 1 else 0 := by
  induction podKeys with
  | nil => rfl
  | cons p podKeys ih =>
    obtain ⟨u, ks⟩ := p
    obtain ⟨hu, hnodup⟩ := List.nodup_cons.mp hnodup
    by_cases huid : u = uid
    · subst huid
      have hothers : otherPods u ((u, ks) :: podKeys) = podKeys := by
        rw [otherPods, List.filter_cons_of_neg (by simp), List.filter_eq_self]
        intro q hq
        have hne : q.1 ≠ u := by
          rintro rfl
          exact hu (List.mem_map.mpr ⟨q, hq, rfl⟩)
        simpa using hne
      rw [hothers]
      simp only [podCount, List.countP_cons, List.lookup_cons, beq_self_eq_true, Option.getD_some]
      split <;> simp_all
    · have hbeq : (uid == u) = false := by simpa using fun h => huid h.symm
      have hothers : otherPods uid ((u, ks) :: podKeys) = (u, ks) :: otherPods uid podKeys := by
        rw [otherPods, List.filter_cons_of_pos (by simpa using huid)]
        rfl
      have ih := ih hnodup
      rw [hothers, List.lookup_cons, hbeq]
      simp only [podCount, List.countP_cons] at ih ⊢
      push_cast
      omega

namespace Tracker.Consistent

variable {t : Tracker}

theorem keysOf_nodup (h : t.Consistent) (uid : Str) : (t.keysOf uid).Nodup := by
  rw [Tracker.keysOf]
  cases hl : t.podKeys.lookup uid with
  | none => exact List.nodup_nil
  | some keys =>
    obtain ⟨pre, post, heq, -⟩ := List.lookup_eq_some_iff.mp hl
    exact h.keys_nodup (uid, keys) (by simp [heq])

theorem otherPods_uids (h : t.Consistent) (uid : Str) :
    ((otherPods uid t.podKeys).map Prod.fst).Nodup :=
  h.uids_nodup.sublist (List.filter_sublist.map Prod.fst)

/-- What other pods have is counted and known. -/
theorem podCount_pos {podKeys : List (Str × List Str)} {p : Str × List Str} (hp : p ∈ podKeys)
    {k : Str} (hk : k ∈ p.2) : 0 < podCount podKeys k := by
  have := List.countP_pos_iff (p := fun p => decide (k ∈ p.2)).mpr ⟨p, hp, by simpa using hk⟩
  rw [podCount]
  exact_mod_cast this

/-- The state in which a pod has the keys `keys` and what it had besides is released. -/
theorem of_release (h : t.Consistent) (uid : Str) {t' : Tracker} {keys : List Str}
    (hnodup : keys.Nodup)
    (hpods : t'.podKeys = (uid, keys) :: otherPods uid t.podKeys)
    (hrefs : ∀ k, t'.refs k = podCount (otherPods uid t.podKeys) k + if k ∈ keys then 1 else 0)
    (hknown : ∀ k, k ∈ t'.known ↔ (k ∈ t.known ∨ k ∈ keys) ∧
      ¬ (k ∈ t.keysOf uid ∧ k ∉ keys ∧ podCount (otherPods uid t.podKeys) k ≤ 0)) :
    t'.Consistent := by
  refine ⟨?_, ?_, fun k => ?_, ?_⟩
  · rw [hpods, List.map_cons, List.nodup_cons]
    refine ⟨fun hmem => ?_, h.otherPods_uids uid⟩
    obtain ⟨p, hp, heq⟩ := List.mem_map.mp hmem
    simp [otherPods, heq] at hp
  · intro p hp
    rw [hpods] at hp
    rcases List.mem_cons.mp hp with rfl | hp
    · exact hnodup
    · exact h.keys_nodup p (List.mem_filter.mp hp).1
  · rw [hrefs, hpods, podCount, podCount, List.countP_cons]
    by_cases hk : k ∈ keys <;> simp [hk]
  · intro p hp k hk
    rw [hpods] at hp
    rw [hknown]
    rcases List.mem_cons.mp hp with rfl | hp
    · exact ⟨.inr hk, fun hc => hc.2.1 hk⟩
    · have hpos := podCount_pos hp hk
      exact ⟨.inl (h.known_of_mem p (List.mem_filter.mp hp).1 k hk), fun hc => by omega⟩

/-- A pod counts for its own keys, beside the others. -/
theorem refs_eq_otherPods (h : t.Consistent) (uid k : Str) :
    t.refs k = podCount (otherPods uid t.podKeys) k + if k ∈ t.keysOf uid then 1 else 0 := by
  rw [h.refs_eq, podCount_eq h.uids_nodup uid]
  rfl

/-- After an observation the pod has the keys of its items, and what it had besides is known only
if another pod has it. -/
theorem observe_spec (h : t.Consistent) (uid : Str) (items : List WorkItem) :
    ∃ keys : List Str, keys.Nodup ∧ (∀ k, k ∈ keys ↔ k ∈ items.flatMap keysFor) ∧
      (t.observe uid items).1.podKeys = (uid, keys) :: otherPods uid t.podKeys ∧
      (∀ k, (t.observe uid items).1.refs k =
        podCount (otherPods uid t.podKeys) k + if k ∈ keys then 1 else 0) ∧
      ∀ k, k ∈ (t.observe uid items).1.known ↔ (k ∈ t.known ∨ k ∈ keys) ∧
        ¬ (k ∈ t.keysOf uid ∧ k ∉ keys ∧ podCount (otherPods uid t.podKeys) k ≤ 0) := by
  have hm := (Marked.start (t.keysOf uid) t.known t.refs).items items []
  set m := (items.foldl (observeItem (t.keysOf uid)) (⟨t.known, t.refs, []⟩, [])).1 with hmarks
  obtain ⟨hrefs, hknown, -⟩ := release_foldl
    ((h.keysOf_nodup uid).filter fun k => decide (k ∉ m.newSet)) ⟨m.known, m.refs, t.podKeys⟩
  have hcount := h.refs_eq_otherPods uid
  have hpos : ∀ k, 0 ≤ podCount (otherPods uid t.podKeys) k := fun k => Int.natCast_nonneg _
  refine ⟨m.newSet, hm.nodup, fun k => ?_, rfl, fun k => (hrefs k).trans ?_,
    fun k => (hknown k).trans ?_⟩
  · rw [hm.mem_newSet, List.nil_append]
  · have := hcount k
    have := hpos k
    simp only [List.mem_filter, hm.refs_eq, hm.mem_newSet, decide_eq_true_eq]
    grind
  · have := hcount k
    simp only [List.mem_filter, hm.refs_eq, hm.known_eq, hm.mem_newSet, decide_eq_true_eq,
      Finset.mem_union, List.mem_toFinset]
    grind

theorem observe (h : t.Consistent) (uid : Str) (items : List WorkItem) :
    (t.observe uid items).1.Consistent := by
  obtain ⟨keys, hnodup, -, hpods, hrefs, hknown⟩ := h.observe_spec uid items
  exact h.of_release uid hnodup hpods hrefs hknown

/-- After a deletion the pod has no keys, and what it had is known only if another pod has it. -/
theorem delete_spec (h : t.Consistent) (uid : Str) :
    (t.delete uid).podKeys = otherPods uid t.podKeys ∧
      (∀ k, (t.delete uid).refs k = podCount (otherPods uid t.podKeys) k) ∧
      ∀ k, k ∈ (t.delete uid).known ↔ k ∈ t.known ∧
        ¬ (k ∈ t.keysOf uid ∧ podCount (otherPods uid t.podKeys) k ≤ 0) := by
  have hcount := h.refs_eq_otherPods uid
  rw [Tracker.delete]
  cases hl : t.podKeys.lookup uid with
  | none =>
    have hkeys : t.keysOf uid = [] := by rw [Tracker.keysOf, hl, Option.getD_none]
    have hothers : otherPods uid t.podKeys = t.podKeys := by
      rw [otherPods, List.filter_eq_self]
      intro p hp
      have hne : uid ≠ p.1 := fun heq => by simpa [heq] using List.lookup_eq_none_iff.mp hl p hp
      simpa using hne.symm
    refine ⟨hothers.symm, fun k => ?_, fun k => ?_⟩
    · rw [hothers]
      exact h.refs_eq k
    · simp [hkeys]
  | some keys =>
    have hkeys : t.keysOf uid = keys := by rw [Tracker.keysOf, hl, Option.getD_some]
    rw [hkeys] at hcount ⊢
    obtain ⟨hrefs, hknown, hpods⟩ := release_foldl (hkeys ▸ h.keysOf_nodup uid)
      { t with podKeys := otherPods uid t.podKeys }
    refine ⟨hpods, fun k => (hrefs k).trans ?_, fun k => (hknown k).trans ?_⟩
    · have := hcount k
      have : 0 ≤ podCount (otherPods uid t.podKeys) k := Int.natCast_nonneg _
      dsimp only
      grind
    · have := hcount k
      dsimp only
      grind

theorem delete (h : t.Consistent) (uid : Str) : (t.delete uid).Consistent := by
  obtain ⟨hpods, hrefs, hknown⟩ := h.delete_spec uid
  refine ⟨?_, ?_, fun k => ?_, ?_⟩
  · rw [hpods]
    exact h.otherPods_uids uid
  · rw [hpods]
    exact fun p hp => h.keys_nodup p (List.mem_filter.mp hp).1
  · rw [hrefs, hpods]
  · rw [hpods]
    intro p hp k hk
    have hpos := podCount_pos hp hk
    rw [hknown]
    exact ⟨h.known_of_mem p (List.mem_filter.mp hp).1 k hk, fun hc => by omega⟩

end Tracker.Consistent

/-! ### What an observation covers -/

/-- Each item that is not covered when its turn comes has none of its keys known then. `fresh` are
the items that were new before it. -/
def EachUncoveredUnseen (Covered : List WorkItem → WorkItem → Prop) :
    List WorkItem → Finset Str → List WorkItem → Prop
  | _, _, [] => True
  | fresh, known, it :: items =>
    (¬ Covered fresh it → Unseen known it) ∧
      EachUncoveredUnseen Covered (if Unseen known it then fresh ++ [it] else fresh)
        (known ∪ (keysFor it).toFinset) items

/-- An item shares a key with another one. -/
def SharesKey (it it' : WorkItem) : Prop := ∃ k ∈ keysFor it, k ∈ keysFor it'

theorem mem_of_mem_freshItems {known : Finset Str} {items : List WorkItem} {it : WorkItem}
    (h : it ∈ freshItems known items) : it ∈ items ∧ Unseen known it := by
  induction items generalizing known with
  | nil => exact absurd h List.not_mem_nil
  | cons x items ih =>
    have hrest : it ∈ freshItems (known ∪ (keysFor x).toFinset) items →
        it ∈ x :: items ∧ Unseen known it := fun hit =>
      ⟨List.mem_cons_of_mem x (ih hit).1, fun k hk hmem =>
        (ih hit).2 k hk (Finset.mem_union_left _ hmem)⟩
    rw [freshItems] at h
    split at h
    · next hx =>
      rcases List.mem_cons.mp h with rfl | h
      · exact ⟨List.mem_cons_self, hx⟩
      · exact hrest h
    · exact hrest h

/-- Let new items be covered, items that were covered stay so, and a new item cover no other one
that it shares no key with. Then an observation leaves all items covered exactly if each that is not
covered when its turn comes has no key known. -/
theorem forall_covered_iff (Covered : List WorkItem → WorkItem → Prop) {items : List WorkItem}
    (hself : ∀ fresh it, fresh ⊆ items → it ∈ items → Covered (fresh ++ [it]) it)
    (hmono : ∀ fresh fresh' it, Covered fresh it → Covered (fresh ++ fresh') it)
    (hother : ∀ fresh fresh' it, it ∈ items → (∀ x ∈ fresh', x ∈ items ∧ ¬ SharesKey x it) →
      Covered (fresh ++ fresh') it → Covered fresh it)
    (known : Finset Str) :
    (∀ it ∈ items, Covered (freshItems known items) it) ↔
      EachUncoveredUnseen Covered [] known items := by
  suffices h : ∀ rest, rest <:+ items → ∀ fresh known, fresh ⊆ items →
      ((∀ it ∈ rest, Covered (fresh ++ freshItems known rest) it) ↔
        EachUncoveredUnseen Covered fresh known rest) from
    h items List.suffix_rfl [] known (List.nil_subset items)
  intro rest
  induction rest with
  | nil => simp [EachUncoveredUnseen]
  | cons it rest ih =>
    intro hsuffix fresh known hfresh
    have hrest : rest <:+ items := (List.suffix_cons it rest).trans hsuffix
    have hit : it ∈ items := hsuffix.subset List.mem_cons_self
    -- Later new items share no key with this one.
    have hlate : ∀ x ∈ freshItems (known ∪ (keysFor it).toFinset) rest,
        x ∈ items ∧ ¬ SharesKey x it := by
      intro x hx
      obtain ⟨hmem, hunseen⟩ := mem_of_mem_freshItems hx
      refine ⟨hrest.subset hmem, ?_⟩
      rintro ⟨k, hk, hk'⟩
      exact hunseen k hk (Finset.mem_union_right _ (List.mem_toFinset.mpr hk'))
    have hnext : (if Unseen known it then fresh ++ [it] else fresh) ⊆ items := by
      split
      · exact List.append_subset.mpr ⟨hfresh, by simpa using hit⟩
      · exact hfresh
    rw [EachUncoveredUnseen, ← ih hrest _ _ hnext, List.forall_mem_cons, freshItems]
    by_cases hunseen : Unseen known it
    · have hcovered :
          Covered (fresh ++ [it] ++ freshItems (known ∪ (keysFor it).toFinset) rest) it :=
        hmono _ _ _ (hself fresh it hfresh hit)
      simp only [hunseen, if_true, implies_true, true_and, List.append_assoc,
        List.singleton_append] at hcovered ⊢
      exact and_iff_right hcovered
    · simp only [hunseen, if_false, imp_false, not_not]
      exact and_congr_left' ⟨hother _ _ it hit hlate, hmono _ _ it⟩

/-! ### A pod -/

/-- A pod with one container of the image `r/app:1`. -/
def appPod (uid digest : Str) : Pod where
  uid := uid
  ns := str "default"
  name := uid
  phase := str "Running"
  initContainers := []
  containers := [⟨str "app", str "r/app:1"⟩]
  ephemeralContainers := []
  initContainerStatuses := []
  containerStatuses := [⟨str "app", str "r/app@" ++ digest⟩]
  ephemeralContainerStatuses := []

theorem workItemsFromPod_appPod (uid digest : Str) :
    workItemsFromPod (appPod uid digest) = [workItem (appPod uid digest) (str "app")] := by
  have himages : ((images (appPod uid digest)).map Prod.fst).dedup = [str "app"] := rfl
  rw [workItemsFromPod, himages, List.mergeSort_singleton]
  rfl

def oldPod : Pod := appPod (str "old") (str "sha256:0123456789ab")

/-- The keys that are known after the first observation of the pod. -/
theorem known_observe_oldPod :
    ((newTracker []).observe oldPod.uid (workItemsFromPod oldPod)).1.known =
      {str "sha256:0123456789ab", str "ref:r/app:1"} := by
  rw [oldPod, workItemsFromPod_appPod]
  decide

end Vat.Watch
