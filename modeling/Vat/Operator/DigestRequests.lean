import Vat.Operator.Tracker
import Vat.Transition.Run

/-!
# Every running digest gets requested

The operator hears of pods from the informer and from backstop passes, in any order, and asks for a
scan of the items that the tracker returns as new. A digest that runs in a pod is requested if an
item with it was new, or an item of the same container that had no digest yet while the reference
resolved to it. An item whose reference another pod has is not new, whatever its digest; so a tag
that moves while a pod with the old digest lives is not requested again. Along any run all digests
are requested exactly if that never happens to a digest that was not requested before
(`digests_requested_iff`).

Source: `operator/internal/watch/informer.go`, lines 39–80 and 94–124.

## Main definitions

* `Watch.Watcher`, `Watch.Event`, `Watch.step`: what the operator hears and what it has returned as
  new.
* `Watch.AllRequested`: every resolved digest of a pod that lives is requested.

## Main results

* `Watch.digests_requested_iff`.
-/

namespace Vat.Watch

open Transition

/-! ### Runs -/

/-- An item that was returned as new for a pod, and what references resolved to then. -/
structure FreshItem where
  uid : Str
  item : WorkItem
  registry : Str → Str

/-- The tracker and what has happened. `running` has what was heard of the pods that were not
excluded and not yet deleted, and `gone` the deleted ones. -/
structure Watcher where
  tracker : Tracker
  registry : Str → Str
  gone : List Str
  running : List Pod
  log : List FreshItem

/-- What happens: a pod is added or updated, is observed in a backstop pass, or is deleted, or the
digests move that references resolve to. -/
inductive Event
  | handle (pod : Pod)
  | backstopPod (pod : Pod)
  | forget (uid : Str)
  | tagsMove (registry : Str → Str)

section Runs

variable (excluded : List Str)

/-- The pod whose images the tracker is asked about. -/
def observedPod : Event → Option Pod
  | .handle pod => if pod.ns ∈ excluded then none else some pod
  | .backstopPod pod =>
    if pod.ns ∈ excluded ∨ pod.phase = str "Succeeded" then none else some pod
  | .forget _ | .tagsMove _ => none

/-- Observe a pod. Whether the requests of its new items are created does not matter here. -/
def Watcher.observe (w : Watcher) (pod : Pod) : Watcher :=
  let (tracker, fresh) := w.tracker.observe pod.uid (workItemsFromPod pod)
  { w with
    tracker := tracker
    log := w.log ++ fresh.map fun it => ⟨pod.uid, it, w.registry⟩
    running := if pod.uid ∈ w.gone then w.running else pod :: w.running }

def step (w : Watcher) (e : Event) : Watcher :=
  match e with
  | .forget uid => { w with tracker := w.tracker.delete uid, gone := uid :: w.gone }
  | .tagsMove registry => { w with registry := registry }
  | e => (observedPod excluded e).elim w w.observe

/-- The operator after its start. -/
def start (warm : List Str) (registry : Str → Str) : Watcher where
  tracker := newTracker warm
  registry := registry
  gone := []
  running := []
  log := []

/-- The digest of an item is requested: for itself, or with the reference of its container. -/
def Requested (log : List FreshItem) (uid : Str) (it : WorkItem) : Prop :=
  ∃ e ∈ log, e.item.digest = it.digest ∨
    e.item.digest = [] ∧ e.uid = uid ∧ e.item.observedRefs = it.observedRefs ∧
      e.registry e.item.imageRef = it.digest

/-- Unless it has no digest yet or a warm one, an item is requested. -/
def Settled (warm : List Str) (log : List FreshItem) (uid : Str) (it : WorkItem) : Prop :=
  it.digest ≠ [] → it.digest ∉ warm → Requested log uid it

/-- The digests of all running containers are requested. -/
def AllRequested (warm : List Str) (w : Watcher) : Prop :=
  ∀ pod ∈ w.running, ∀ it ∈ workItemsFromPod pod, Settled warm w.log pod.uid it

/-- Each item of a pod that is observed whose digest is resolved, not warm and not requested yet
when its turn comes has neither its digest nor its reference known then. -/
def UnrequestedUnseen (warm : List Str) (w : Watcher) (e : Event) : Prop :=
  ∀ pod, observedPod excluded e = some pod → pod.uid ∉ w.gone →
    EachUncoveredUnseen
      (fun fresh it =>
        Settled warm (w.log ++ fresh.map fun x => ⟨pod.uid, x, w.registry⟩) pod.uid it)
      [] w.tracker.known (workItemsFromPod pod)

end Runs

/-! ### Steps -/

theorem Requested.mono {log log' : List FreshItem} {uid : Str} {it : WorkItem}
    (h : Requested log uid it) (hsub : log ⊆ log') : Requested log' uid it := by
  obtain ⟨e, he, hreq⟩ := h
  exact ⟨e, hsub he, hreq⟩

/-- An observation leaves the digests of a pod requested exactly if each that is not requested when
its turn comes is unseen. -/
theorem settled_observe_iff (warm : List Str) (w : Watcher) (pod : Pod) :
    (∀ it ∈ workItemsFromPod pod, Settled warm (w.observe pod).log pod.uid it) ↔
      EachUncoveredUnseen
        (fun fresh it =>
          Settled warm (w.log ++ fresh.map fun x => ⟨pod.uid, x, w.registry⟩) pod.uid it)
        [] w.tracker.known (workItemsFromPod pod) := by
  have hlog : (w.observe pod).log = w.log ++ (freshItems w.tracker.known (workItemsFromPod pod)).map
      fun x => ⟨pod.uid, x, w.registry⟩ := by
    rw [← observe_fresh w.tracker pod.uid]
    rfl
  rw [hlog]
  refine forall_covered_iff
    (fun fresh it =>
      Settled warm (w.log ++ fresh.map fun x => ⟨pod.uid, x, w.registry⟩) pod.uid it)
    (fun fresh it _ _ _ _ => ?_) (fun fresh fresh' it h hres hcold => ?_)
    (fun fresh fresh' it hit hother h hres hcold => ?_) w.tracker.known
  · exact ⟨⟨pod.uid, it, w.registry⟩, by simp, .inl rfl⟩
  · refine (h hres hcold).mono fun e he => ?_
    rw [List.map_append, ← List.append_assoc]
    exact List.mem_append_left _ he
  · obtain ⟨e, he, hreq⟩ := h hres hcold
    rw [List.map_append, ← List.append_assoc, List.mem_append] at he
    rcases he with he | he
    · exact ⟨e, he, hreq⟩
    obtain ⟨x, hx, rfl⟩ := List.mem_map.mp he
    obtain ⟨hmem, hshares⟩ := hother x hx
    rcases hreq with hdigest | ⟨hnone, -, hobserved, -⟩
    · have hx : x.digest = it.digest := hdigest
      exact absurd ⟨it.digest, hx ▸ digest_mem_keysFor (hx ▸ hres), digest_mem_keysFor hres⟩ hshares
    · have heq := eq_of_observedRefs_eq hmem hit hobserved
      exact absurd (heq ▸ hnone) hres

theorem log_subset_observe (w : Watcher) (pod : Pod) : w.log ⊆ (w.observe pod).log :=
  List.subset_append_left _ _

/-- A step keeps all digests requested exactly if what it observes that is unrequested is unseen. -/
theorem allRequested_step_iff {excluded warm : List Str} {w : Watcher} (e : Event)
    (h : AllRequested warm w) :
    AllRequested warm (step excluded w e) ↔ UnrequestedUnseen excluded warm w e := by
  have hobserve : ∀ pod, AllRequested warm (w.observe pod) ↔ (pod.uid ∉ w.gone →
      ∀ it ∈ workItemsFromPod pod, Settled warm (w.observe pod).log pod.uid it) := by
    intro pod
    have hold : ∀ p ∈ w.running, ∀ it ∈ workItemsFromPod p,
        Settled warm (w.observe pod).log p.uid it := fun p hp it hit hres hcold =>
      (h p hp it hit hres hcold).mono (log_subset_observe w pod)
    rw [AllRequested]
    by_cases hgone : pod.uid ∈ w.gone
    · have hrunning : (w.observe pod).running = w.running := if_pos hgone
      rw [hrunning]
      exact ⟨fun _ hne => absurd hgone hne, fun _ => hold⟩
    · have hrunning : (w.observe pod).running = pod :: w.running := if_neg hgone
      rw [hrunning, List.forall_mem_cons, and_iff_left hold]
      exact ⟨fun h _ => h, fun h => h hgone⟩
  have hcases : ∀ o : Option Pod, AllRequested warm (o.elim w w.observe) ↔
      ∀ pod, o = some pod → pod.uid ∉ w.gone →
        ∀ it ∈ workItemsFromPod pod, Settled warm (w.observe pod).log pod.uid it := by
    intro o
    cases o with
    | none => simpa using h
    | some pod => simpa using hobserve pod
  have hpods : (∀ pod, observedPod excluded e = some pod → pod.uid ∉ w.gone →
      ∀ it ∈ workItemsFromPod pod, Settled warm (w.observe pod).log pod.uid it) ↔
        UnrequestedUnseen excluded warm w e :=
    forall₃_congr fun pod _ _ => settled_observe_iff warm w pod
  rw [← hpods]
  cases e with
  | handle pod => exact hcases _
  | backstopPod pod => exact hcases _
  | forget uid => simpa [observedPod, step, AllRequested] using h
  | tagsMove registry => simpa [observedPod, step, AllRequested] using h

/-- Along every run all digests of running pods are requested exactly if what is observed
unrequested is unseen. -/
theorem digests_requested_iff (excluded warm : List Str) (registry : Str → Str)
    (events : List Event) :
    (∀ pre, pre <+: events →
      AllRequested warm (run (step excluded) (start warm registry) pre)) ↔
      Along (step excluded) (UnrequestedUnseen excluded warm) (start warm registry) events :=
  forall_prefix_iff_along (fun _ e h => allRequested_step_iff e h)
    (fun _ h => absurd h List.not_mem_nil) events

/-! ### A tag that moves -/

/-- The pod that starts after the tag has moved. -/
def newPod : Pod := appPod (str "new") (str "sha256:ba9876543210")

/-- A tag moves while a pod with the old digest lives: the new digest is never requested. -/
theorem not_digests_requested : ¬ ∀ (warm : List Str) (registry : Str → Str) (events : List Event),
    AllRequested warm (run (step []) (start warm registry) events) := by
  intro hall
  have h := hall [] (fun _ => str "sha256:0123456789ab")
    [.handle oldPod, .tagsMove fun _ => str "sha256:ba9876543210", .handle newPod] newPod
    List.mem_cons_self (workItem newPod (str "app"))
    (by rw [newPod, workItemsFromPod_appPod]; exact List.mem_singleton_self _) (by decide)
    List.not_mem_nil
  obtain ⟨e, he, hreq⟩ := h
  have hnew : freshItems ((newTracker []).observe oldPod.uid (workItemsFromPod oldPod)).1.known
      (workItemsFromPod newPod) = [] := by
    rw [known_observe_oldPod, newPod, workItemsFromPod_appPod]
    decide
  have hlog : e ∈ (([] : List FreshItem) ++
      ((newTracker []).observe oldPod.uid (workItemsFromPod oldPod)).2.map
        fun it => ⟨oldPod.uid, it, fun _ => str "sha256:0123456789ab"⟩) ++
      (((newTracker []).observe oldPod.uid (workItemsFromPod oldPod)).1.observe newPod.uid
        (workItemsFromPod newPod)).2.map
        fun it => ⟨newPod.uid, it, fun _ => str "sha256:ba9876543210"⟩ := he
  rw [observe_fresh, observe_fresh, hnew, List.map_nil, List.append_nil, List.nil_append, oldPod,
    workItemsFromPod_appPod] at hlog
  obtain ⟨it, hit, rfl⟩ := List.mem_map.mp hlog
  rw [List.mem_singleton.mp (mem_of_mem_freshItems hit).1] at hreq
  revert hreq
  decide

end Vat.Watch
