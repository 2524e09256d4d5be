import Vat.Operator.Tracker
import Vat.Transition.Run

/-!
# What a backstop pass covers

A backstop pass lists all pods and creates requests for the items that the tracker returns as new.
The tracker marks the keys of an item before its request is created, by events too, so an item whose
creation failed, or whose request was collected, is not new while its pod has its keys. A pass whose
calls all succeed leaves every image of a live pod covered exactly if each one that is not covered
when its turn comes has no known key (`coverageFloor_iff`).

Source: `operator/internal/watch/informer.go`, lines 39–80 and 94–124;
`operator/internal/scanrequest/client.go`, lines 41–120.

## Main definitions

* `Watch.ScanRequest`, `Watch.create`, `Watch.collect`: the queue of requests.
* `Watch.OperatorState`, `Watch.OperatorEvent`, `Watch.perform`.
* `Watch.backstop`: a pass in which all calls succeed.
* `Watch.CoverageFloor`.

## Main results

* `Watch.covered_backstop_iff`: the rest of a pass covers no item whose keys a pod has.
* `Watch.coverageFloor_iff`.
-/

namespace Vat.Watch

open Transition

/-! ### The queue -/

/-- A `ScanRequest` object: the image that it is for, its phase and its age. -/
structure ScanRequest where
  imageRef : Str
  digest : Str
  phase : Str
  createdAt : ℕ

/-- The key whose hash is the name of a request. -/
def requestKey (imageRef digest : Str) : Str :=
  if digest = [] then str "ref:" ++ imageRef else digest

/-- `Create` when the call succeeds; an object of the same name is left as it is. -/
def create (now : ℕ) (queue : List ScanRequest) (it : WorkItem) : List ScanRequest :=
  if ∃ r ∈ queue, requestKey r.imageRef r.digest = requestKey it.imageRef it.digest then queue
  else queue ++ [⟨it.imageRef, it.digest, [], now⟩]

/-- `GC`. -/
def collect (ttl now : ℕ) (queue : List ScanRequest) : List ScanRequest :=
  queue.filter fun r => !((r.phase = str "done" ∨ r.phase = str "failed") ∧ ttl ≤ now - r.createdAt)

/-- A worker writes the phase of a request. -/
def writePhase (key phase : Str) (queue : List ScanRequest) : List ScanRequest :=
  queue.map fun r => if requestKey r.imageRef r.digest = key then { r with phase := phase } else r

/-! ### Runs -/

/-- The tracker, the queue, the digests that the backend knows, and the pods that are alive. -/
structure OperatorState where
  tracker : Tracker
  queue : List ScanRequest
  backend : Finset Str
  pods : List Pod
  now : ℕ

/-- What happens. An observation of a pod comes from the informer (`handle`) or from a backstop
pass; `reached` says which of its calls of `Create` arrive. -/
inductive OperatorEvent
  | handle (pod : Pod) (reached : ℕ → Bool)
  | backstopPod (pod : Pod) (reached : ℕ → Bool)
  | forget (uid : Str)
  | podsChange (pods : List Pod)
  | phase (key phase : Str)
  | gc (ttl : ℕ)
  | backendKnows (digests : Finset Str)
  | wait (time : ℕ)

/-- Observe a pod and create what is new. -/
def OperatorState.observe (s : OperatorState) (pod : Pod) (reached : ℕ → Bool) : OperatorState :=
  let (tracker, fresh) := s.tracker.observe pod.uid (workItemsFromPod pod)
  let created := (fresh.zipIdx.filter fun p => reached p.2).map Prod.fst
  { s with tracker := tracker, queue := created.foldl (create s.now) s.queue }

section Runs

variable (excluded : List Str)

/-- The pods that a backstop pass observes. -/
def Wanted (pod : Pod) : Prop := pod.ns ∉ excluded ∧ pod.phase ≠ str "Succeeded"

instance Wanted.decidable (pod : Pod) : Decidable (Wanted excluded pod) :=
  inferInstanceAs (Decidable (_ ∧ _))

def perform (s : OperatorState) : OperatorEvent → OperatorState
  | .handle pod reached => if pod.ns ∈ excluded then s else s.observe pod reached
  | .backstopPod pod reached => if Wanted excluded pod then s.observe pod reached else s
  | .forget uid => { s with tracker := s.tracker.delete uid }
  | .podsChange pods => { s with pods := pods }
  | .phase key phase => { s with queue := writePhase key phase s.queue }
  | .gc ttl => { s with queue := collect ttl s.now s.queue }
  | .backendKnows digests => { s with backend := digests }
  | .wait time => { s with now := s.now + time }

/-- The operator after its start. -/
def startOperator (warm : List Str) : OperatorState where
  tracker := newTracker warm
  queue := []
  backend := warm.toFinset
  pods := []
  now := 0

/-- The turn of a pod in a pass whose calls succeed. -/
def backstopTurn (s : OperatorState) (pod : Pod) : OperatorState :=
  perform excluded s (.backstopPod pod fun _ => true)

/-- `Backstop` when all calls succeed, on the pods that were listed. -/
def backstop (s : OperatorState) (listed : List Pod) : OperatorState :=
  run (backstopTurn excluded) s listed

end Runs

/-- What the API server lists: each pod once, all that are alive, and perhaps some that are deleted
before their turn comes. -/
structure Listing (alive : List Pod) where
  pods : List Pod
  uids_nodup : (pods.map Pod.uid).Nodup
  complete : ∀ pod ∈ alive, pod ∈ pods

/-- A request is for the image of an item: it has its digest, or one of them has none and the
reference is the same. -/
def ScanRequest.IsFor (r : ScanRequest) (it : WorkItem) : Prop :=
  it.digest ≠ [] ∧ r.digest = it.digest ∨
    r.imageRef = it.imageRef ∧ (r.digest = [] ∨ it.digest = [])

/-- There is a request for the image, or the backend knows its digest. -/
def Covered (queue : List ScanRequest) (backend : Finset Str) (it : WorkItem) : Prop :=
  it.digest ≠ [] ∧ it.digest ∈ backend ∨ ∃ r ∈ queue, r.IsFor it

/-- Every image of a live pod that is not excluded and not done is covered. -/
def CoverageFloor (excluded : List Str) (s : OperatorState) : Prop :=
  ∀ pod ∈ s.pods, Wanted excluded pod → ∀ it ∈ workItemsFromPod pod, Covered s.queue s.backend it

/-- Each image of a live pod that is not covered when its turn comes has no known key then. -/
def UncoveredUnseen (excluded : List Str) (alive : List Pod) (s : OperatorState) (pod : Pod) :
    Prop :=
  pod ∈ alive → Wanted excluded pod →
    EachUncoveredUnseen
      (fun fresh it => Covered (fresh.foldl (create s.now) s.queue) s.backend it) []
      s.tracker.known (workItemsFromPod pod)

/-! ### Creating requests -/

theorem mem_create {now : ℕ} {queue : List ScanRequest} {it : WorkItem} {r : ScanRequest}
    (h : r ∈ create now queue it) : r ∈ queue ∨ r = ⟨it.imageRef, it.digest, [], now⟩ := by
  rw [create] at h
  split at h
  · exact .inl h
  · simpa using h

theorem subset_create (now : ℕ) (queue : List ScanRequest) (it : WorkItem) :
    queue ⊆ create now queue it := by
  rw [create]
  split
  · exact List.Subset.refl queue
  · exact List.subset_append_left _ _

theorem subset_foldl_create (now : ℕ) (queue : List ScanRequest) (items : List WorkItem) :
    queue ⊆ items.foldl (create now) queue := by
  induction items generalizing queue with
  | nil => exact List.Subset.refl queue
  | cons it items ih => exact List.Subset.trans (subset_create now queue it) (ih _)

theorem mem_foldl_create {now : ℕ} {queue : List ScanRequest} {items : List WorkItem}
    {r : ScanRequest} (h : r ∈ items.foldl (create now) queue) :
    r ∈ queue ∨ ∃ it ∈ items, r = ⟨it.imageRef, it.digest, [], now⟩ := by
  induction items generalizing queue with
  | nil => exact .inl h
  | cons it items ih =>
    rcases ih h with h | ⟨x, hx, rfl⟩
    · rcases mem_create h with h | rfl
      · exact .inl h
      · exact .inr ⟨it, List.mem_cons_self, rfl⟩
    · exact .inr ⟨x, List.mem_cons_of_mem it hx, rfl⟩

/-- Requests with one name are for one digest, or for one reference without digest. -/
theorem eq_of_requestKey_eq {ref ref' digest digest' : Str} (h : IsDigestText digest)
    (h' : IsDigestText digest') (hkey : requestKey ref digest = requestKey ref' digest') :
    digest ≠ [] ∧ digest = digest' ∨ digest = [] ∧ digest' = [] ∧ ref = ref' := by
  have hne : ∀ r hex, str "ref:" ++ r ≠ digestMarker ++ hex := by
    intro r hex
    simp [str, digestMarker]
  have hmarked : ∀ hex, digestMarker ++ hex ≠ [] := by
    intro hex
    simp [str, digestMarker]
  rcases h with rfl | ⟨hex, rfl⟩ <;> rcases h' with rfl | ⟨hex', rfl⟩
  · exact .inr ⟨rfl, rfl, List.append_cancel_left hkey⟩
  · rw [requestKey, requestKey, if_pos rfl, if_neg (hmarked hex')] at hkey
    exact absurd hkey (hne ref hex')
  · rw [requestKey, requestKey, if_neg (hmarked hex), if_pos rfl] at hkey
    exact absurd hkey.symm (hne ref' hex)
  · rw [requestKey, requestKey, if_neg (hmarked hex), if_neg (hmarked hex')] at hkey
    exact .inl ⟨hmarked hex, hkey⟩

/-- There is a request for an item that was created. -/
theorem exists_isFor_create {now : ℕ} {queue : List ScanRequest} {it : WorkItem}
    (hqueue : ∀ r ∈ queue, IsDigestText r.digest) (hit : IsDigestText it.digest) :
    ∃ r ∈ create now queue it, r.IsFor it := by
  rw [create]
  split
  · next h =>
    obtain ⟨r, hr, hkey⟩ := h
    refine ⟨r, hr, ?_⟩
    rcases eq_of_requestKey_eq (hqueue r hr) hit hkey with ⟨hne, heq⟩ | ⟨hnone, -, href⟩
    · exact .inl ⟨heq ▸ hne, heq⟩
    · exact .inr ⟨href, .inl hnone⟩
  · refine ⟨⟨it.imageRef, it.digest, [], now⟩, by simp, ?_⟩
    by_cases hnone : it.digest = []
    · exact .inr ⟨rfl, .inl hnone⟩
    · exact .inl ⟨hnone, rfl⟩

/-- A request made for an item is for no item that it shares no key with. -/
theorem sharesKey_of_isFor {x it : WorkItem} {now : ℕ}
    (h : (⟨x.imageRef, x.digest, [], now⟩ : ScanRequest).IsFor it) : SharesKey x it := by
  rcases h with ⟨hne, hdigest⟩ | ⟨href, -⟩
  · have hx : x.digest = it.digest := hdigest
    exact ⟨it.digest, hx ▸ digest_mem_keysFor (hx ▸ hne), digest_mem_keysFor hne⟩
  · have hx : x.imageRef = it.imageRef := href
    exact ⟨_, ref_mem_keysFor x, hx ▸ ref_mem_keysFor it⟩

/-- An observation creates what is new, as far as the calls arrive. -/
theorem queue_observe (s : OperatorState) (pod : Pod) (reached : ℕ → Bool) :
    (s.observe pod reached).queue =
      (((freshItems s.tracker.known (workItemsFromPod pod)).zipIdx.filter
        fun p => reached p.2).map Prod.fst).foldl (create s.now) s.queue := by
  rw [← observe_fresh s.tracker pod.uid]
  rfl

/-! ### States of runs -/

/-- The counts of the tracker are right and requests have digests or none. -/
structure OperatorState.Sound (s : OperatorState) : Prop where
  tracker : s.tracker.Consistent
  queue : ∀ r ∈ s.queue, IsDigestText r.digest

namespace OperatorState.Sound

variable {s : OperatorState} {excluded : List Str}

theorem observe (h : s.Sound) (pod : Pod) (reached : ℕ → Bool) : (s.observe pod reached).Sound where
  tracker := h.tracker.observe pod.uid (workItemsFromPod pod)
  queue r hr := by
    rw [queue_observe] at hr
    rcases mem_foldl_create hr with hr | ⟨it, hit, rfl⟩
    · exact h.queue r hr
    · obtain ⟨⟨x, i⟩, hx, rfl⟩ := List.mem_map.mp hit
      obtain ⟨hi, hget⟩ := List.mem_zipIdx' (List.mem_filter.mp hx).1
      exact isDigestText_of_mem (mem_of_mem_freshItems (hget ▸ List.getElem_mem hi)).1

theorem perform (h : s.Sound) (e : OperatorEvent) : (perform excluded s e).Sound := by
  cases e with
  | handle pod reached =>
    rw [Watch.perform]
    split
    · exact h
    · exact h.observe pod reached
  | backstopPod pod reached =>
    rw [Watch.perform]
    split
    · exact h.observe pod reached
    · exact h
  | forget uid => exact ⟨h.tracker.delete uid, h.queue⟩
  | podsChange pods => exact ⟨h.tracker, h.queue⟩
  | phase key phase =>
    refine ⟨h.tracker, fun r hr => ?_⟩
    obtain ⟨r', hr', rfl⟩ := List.mem_map.mp hr
    split
    · exact h.queue r' hr'
    · exact h.queue r' hr'
  | gc ttl => exact ⟨h.tracker, fun r hr => h.queue r (List.mem_filter.mp hr).1⟩
  | backendKnows digests => exact ⟨h.tracker, h.queue⟩
  | wait time => exact ⟨h.tracker, h.queue⟩

/-- Every run keeps the state sound. -/
theorem of_run (excluded warm : List Str) (events : List OperatorEvent) :
    (run (Watch.perform excluded) (startOperator warm) events).Sound :=
  @run_induction _ _ (Watch.perform excluded) OperatorState.Sound (fun _ e h => h.perform e) _
    ⟨newTracker_consistent warm, fun _ h => absurd h List.not_mem_nil⟩ events

end OperatorState.Sound

/-! ### A pass -/

section Pass

variable {excluded : List Str} {s : OperatorState}

theorem backstopTurn_of_wanted {pod : Pod} (h : Wanted excluded pod) :
    backstopTurn excluded s pod = s.observe pod fun _ => true := if_pos h

theorem backstopTurn_of_not_wanted {pod : Pod} (h : ¬ Wanted excluded pod) :
    backstopTurn excluded s pod = s := if_neg h

theorem queue_observe_all (pod : Pod) : (s.observe pod fun _ => true).queue =
    (freshItems s.tracker.known (workItemsFromPod pod)).foldl (create s.now) s.queue := by
  rw [queue_observe, List.filter_true, List.zipIdx_map_fst]

theorem backend_backstop (excluded : List Str) (listed : List Pod) (s : OperatorState) :
    (backstop excluded s listed).backend = s.backend ∧
      (backstop excluded s listed).pods = s.pods := by
  induction listed generalizing s with
  | nil => exact ⟨rfl, rfl⟩
  | cons pod listed ih =>
    rw [backstop, run_cons]
    by_cases hwanted : Wanted excluded pod
    · rw [backstopTurn_of_wanted hwanted]
      exact ih _
    · rw [backstopTurn_of_not_wanted hwanted]
      exact ih s

/-- The rest of a pass covers no item whose keys a pod has. -/
theorem covered_backstop_iff {listed : List Pod} {uid : Str} {keys : List Str} {it : WorkItem}
    {backend : Finset Str} (hs : s.Sound) (hkeys : (uid, keys) ∈ s.tracker.podKeys)
    (hit : keysFor it ⊆ keys) (huid : ∀ pod ∈ listed, pod.uid ≠ uid) :
    Covered (backstop excluded s listed).queue backend it ↔ Covered s.queue backend it := by
  induction listed generalizing s with
  | nil => rfl
  | cons pod listed ih =>
    rw [backstop, run_cons]
    obtain ⟨hpod, hlisted⟩ := List.forall_mem_cons.mp huid
    by_cases hwanted : Wanted excluded pod
    · rw [backstopTurn_of_wanted hwanted]
      obtain ⟨podKeys, hpodKeys, -⟩ :=
        observe_podKeys s.tracker pod.uid (workItemsFromPod pod)
      have hkept : (uid, keys) ∈ (s.observe pod fun _ => true).tracker.podKeys := by
        refine (congrArg ((uid, keys) ∈ ·) hpodKeys).mpr (List.mem_cons_of_mem _ ?_)
        exact List.mem_filter.mpr ⟨hkeys, by simpa using hpod.symm⟩
      refine (ih (hs.observe pod _) hkept hlisted).trans (or_congr_right ?_)
      rw [queue_observe_all]
      constructor
      · rintro ⟨r, hr, hfor⟩
        rcases mem_foldl_create hr with hr | ⟨x, hx, rfl⟩
        · exact ⟨r, hr, hfor⟩
        -- A new item has no known key, and those of this item are known.
        · obtain ⟨k, hk, hk'⟩ := sharesKey_of_isFor hfor
          exact absurd (hs.tracker.known_of_mem _ hkeys k (hit hk'))
            ((mem_of_mem_freshItems hx).2 k hk)
      · rintro ⟨r, hr, hfor⟩
        exact ⟨r, subset_foldl_create _ _ _ hr, hfor⟩
    · rw [backstopTurn_of_not_wanted hwanted]
      exact ih hs hkeys hlisted

/-- The turn of a pod leaves its images covered exactly if each that is not covered when its own
turn comes has no known key. -/
theorem covered_observe_iff (hs : s.Sound) (pod : Pod) :
    (∀ it ∈ workItemsFromPod pod, Covered (s.observe pod fun _ => true).queue s.backend it) ↔
      EachUncoveredUnseen
        (fun fresh it => Covered (fresh.foldl (create s.now) s.queue) s.backend it) []
        s.tracker.known (workItemsFromPod pod) := by
  rw [queue_observe_all]
  refine forall_covered_iff
    (fun fresh it => Covered (fresh.foldl (create s.now) s.queue) s.backend it)
    (fun fresh it hfresh hit => .inr ?_) (fun fresh fresh' it h => ?_)
    (fun fresh fresh' it _ hother h => ?_) s.tracker.known
  · rw [List.foldl_append]
    refine exists_isFor_create (fun r hr => ?_) (isDigestText_of_mem hit)
    rcases mem_foldl_create hr with hr | ⟨x, hx, rfl⟩
    · exact hs.queue r hr
    · exact isDigestText_of_mem (hfresh hx)
  · refine h.imp_right ?_
    rintro ⟨r, hr, hfor⟩
    rw [List.foldl_append]
    exact ⟨r, subset_foldl_create _ _ _ hr, hfor⟩
  · refine h.imp_right ?_
    rintro ⟨r, hr, hfor⟩
    rw [List.foldl_append] at hr
    rcases mem_foldl_create hr with hr | ⟨x, hx, rfl⟩
    · exact ⟨r, hr, hfor⟩
    · exact absurd (sharesKey_of_isFor hfor) (hother x hx).2

/-- A pass whose calls succeed leaves the images of the listed pods that `P` names covered exactly
if each of them that is not covered when its turn comes has no known key. -/
theorem covered_backstop_all_iff (P : Pod → Prop) {listed : List Pod} (hs : s.Sound)
    (hnodup : (listed.map Pod.uid).Nodup) :
    (∀ pod ∈ listed, P pod → Wanted excluded pod → ∀ it ∈ workItemsFromPod pod,
      Covered (backstop excluded s listed).queue s.backend it) ↔
      Along (backstopTurn excluded)
        (fun s pod => P pod → Wanted excluded pod →
          EachUncoveredUnseen
            (fun fresh it => Covered (fresh.foldl (create s.now) s.queue) s.backend it) []
            s.tracker.known (workItemsFromPod pod)) s listed := by
  induction listed generalizing s with
  | nil => simp
  | cons pod listed ih =>
    obtain ⟨hpod, hnodup⟩ := List.nodup_cons.mp hnodup
    rw [along_cons, List.forall_mem_cons, backstop, run_cons]
    by_cases hwanted : Wanted excluded pod
    · obtain ⟨keys, hkeys, hitems⟩ := observe_podKeys s.tracker pod.uid (workItemsFromPod pod)
      have huid : ∀ q ∈ listed, q.uid ≠ pod.uid := fun q hq heq =>
        hpod (heq ▸ List.mem_map_of_mem hq)
      have hsound := hs.observe pod fun _ => true
      rw [backstopTurn_of_wanted hwanted]
      refine and_congr (forall₂_congr fun _ _ => ?_) (ih hsound hnodup)
      rw [← covered_observe_iff hs pod]
      exact forall₂_congr fun it hit =>
        covered_backstop_iff hsound (hkeys ▸ List.mem_cons_self) (hitems it hit) huid
    · rw [backstopTurn_of_not_wanted hwanted]
      exact and_congr (forall_congr' fun _ => by simp [hwanted]) (ih hs hnodup)

end Pass

/-- In every reachable state, a pass whose calls succeed leaves every image of a live pod covered
exactly if each one that is not covered when its turn comes has no known key then. -/
theorem coverageFloor_iff (excluded warm : List Str) (events : List OperatorEvent)
    (listing : Listing (run (perform excluded) (startOperator warm) events).pods) :
    CoverageFloor excluded
        (backstop excluded (run (perform excluded) (startOperator warm) events) listing.pods) ↔
      Along (backstopTurn excluded)
        (UncoveredUnseen excluded (run (perform excluded) (startOperator warm) events).pods)
        (run (perform excluded) (startOperator warm) events) listing.pods := by
  obtain ⟨hbackend, hpods⟩ := backend_backstop excluded listing.pods
    (run (perform excluded) (startOperator warm) events)
  refine Iff.trans ?_ (covered_backstop_all_iff
    (· ∈ (run (perform excluded) (startOperator warm) events).pods)
    (OperatorState.Sound.of_run excluded warm events) listing.uids_nodup)
  rw [CoverageFloor, hbackend, hpods]
  exact ⟨fun h pod _ halive => h pod halive,
    fun h pod halive => h pod (listing.complete pod halive) halive⟩

/-! ### A creation that failed -/

/-- When the creation of a request failed, no pass creates it while its pod lives. -/
theorem not_coverageFloor : ¬ ∀ (excluded warm : List Str) (events : List OperatorEvent)
    (listing : Listing (run (perform excluded) (startOperator warm) events).pods),
    CoverageFloor excluded
      (backstop excluded (run (perform excluded) (startOperator warm) events) listing.pods) := by
  intro hall
  have h := hall [] [] [.podsChange [oldPod], .handle oldPod fun _ => false]
    ⟨[oldPod], List.nodup_singleton _, fun _ h => h⟩ oldPod List.mem_cons_self (by decide)
    (workItem oldPod (str "app"))
    (by rw [oldPod, workItemsFromPod_appPod]; exact List.mem_singleton_self _)
  let s : OperatorState := { startOperator [] with pods := [oldPod] }
  have hfailed : (s.observe oldPod fun _ => false).queue = [] := by
    rw [queue_observe, List.filter_false]
    rfl
  have hseen : freshItems (s.observe oldPod fun _ => false).tracker.known
      (workItemsFromPod oldPod) = [] := by
    change freshItems ((newTracker []).observe oldPod.uid (workItemsFromPod oldPod)).1.known _ = _
    rw [known_observe_oldPod, oldPod, workItemsFromPod_appPod]
    decide
  have hqueue : (backstop [] (s.observe oldPod fun _ => false) [oldPod]).queue = [] := by
    change ((s.observe oldPod fun _ => false).observe oldPod fun _ => true).queue = []
    rw [queue_observe_all, hseen, hfailed]
    rfl
  rcases h with ⟨-, hbackend⟩ | ⟨r, hr, -⟩
  · exact absurd hbackend (by decide)
  · exact absurd (hqueue ▸ hr) List.not_mem_nil

end Vat.Watch
