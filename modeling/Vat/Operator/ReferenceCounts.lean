import Mathlib.Data.Finset.Card
import Vat.Operator.Tracker
import Vat.Transition.Run

/-!
# The counts of the tracker

The tracker counts the pods that have a key. Whatever the calls `Observe` and `Delete` were, with
any pods and items, each count is the number of the pods that have the key; a key that a pod has is
known; a known key that no pod has is one of those the tracker was started with, and no call has
released it. What a pod was last observed with can be observed again, after any other calls about
other pods: nothing is new then, and nothing changes (`reference_counts`).

Source: `operator/internal/watch/tracker.go`, lines 13–122.

## Main definitions

* `Watch.Call`, `Watch.Tracker.call`: the calls of the tracker.
* `Watch.Tracker.releasedBy`: the keys that a call releases.
* `Watch.CallHistory`, `Watch.CallHistory.step`: the tracker, what has been released, and the last
  observation of each pod.
* `Watch.Tracker.SameFields`: two trackers whose maps agree.

## Main results

* `Watch.CallHistory.Exact.step`: a call keeps the invariant.
* `Watch.reference_counts`.
-/

namespace Vat.Watch

open Transition

/-! ### Calls -/

inductive Call
  | observe (podUID : Str) (items : List WorkItem)
  | delete (podUID : Str)

namespace Tracker

def call (t : Tracker) : Call → Tracker
  | .observe uid items => (t.observe uid items).1
  | .delete uid => t.delete uid

/-- The keys that a call releases: those the pod had and is no longer observed with. -/
def releasedBy (t : Tracker) : Call → List Str
  | .observe uid items => (t.keysOf uid).filter (· ∉ items.flatMap keysFor)
  | .delete uid => t.keysOf uid

/-- The pods that the tracker has. -/
def pods (t : Tracker) : Finset Str := (t.podKeys.map Prod.fst).toFinset

/-- All fields agree, as maps and sets: the known keys, the counts, and the keys of each pod. -/
def SameFields (t t' : Tracker) : Prop :=
  t.known = t'.known ∧ t.refs = t'.refs ∧
    ∀ uid, (t.podKeys.lookup uid).map List.toFinset = (t'.podKeys.lookup uid).map List.toFinset

end Tracker

/-- The tracker, the keys released so far, and what each pod that it has was last observed with. -/
structure CallHistory where
  tracker : Tracker
  released : List Str
  observed : Str → Option (List WorkItem)

namespace CallHistory

/-- The history of a tracker that was just made. -/
def start (warm : List Str) : CallHistory where
  tracker := newTracker warm
  released := []
  observed _ := none

def step (h : CallHistory) (c : Call) : CallHistory where
  tracker := h.tracker.call c
  released := h.released ++ h.tracker.releasedBy c
  observed :=
    match c with
    | .observe uid items => Function.update h.observed uid (some items)
    | .delete uid => Function.update h.observed uid none

end CallHistory

/-! ### The keys of a pod -/

theorem lookup_otherPods_of_ne (podKeys : List (Str × List Str)) {uid uid' : Str}
    (hne : uid' ≠ uid) : (otherPods uid podKeys).lookup uid' = podKeys.lookup uid' := by
  induction podKeys with
  | nil => rfl
  | cons p podKeys ih =>
    rw [otherPods] at ih
    by_cases hp : p.1 = uid
    · have hbeq : (uid' == p.1) = false := by simpa [hp] using hne
      rw [otherPods, List.filter_cons_of_neg (by simpa using hp), ih, List.lookup_cons, hbeq]
    · rw [otherPods, List.filter_cons_of_pos (by simpa using hp), List.lookup_cons, ih,
        List.lookup_cons]

theorem lookup_cons_otherPods (podKeys : List (Str × List Str)) (uid uid' : Str) (keys : List Str) :
    ((uid, keys) :: otherPods uid podKeys).lookup uid' =
      if uid' = uid then some keys else podKeys.lookup uid' := by
  rw [List.lookup_cons]
  split
  · next h => rw [if_pos (by simpa using h)]
  · next h =>
    have hne : uid' ≠ uid := by simpa using h
    rw [if_neg hne, lookup_otherPods_of_ne podKeys hne]

namespace Tracker.Consistent

variable {t : Tracker}

/-- A pod of the list has its keys. -/
theorem lookup_eq (h : t.Consistent) {p : Str × List Str} (hp : p ∈ t.podKeys) :
    t.podKeys.lookup p.1 = some p.2 := by
  obtain ⟨before, after, heq⟩ := List.append_of_mem hp
  have hnodup := h.uids_nodup
  rw [heq, List.map_append, List.map_cons, List.nodup_append] at hnodup
  refine List.lookup_eq_some_iff.mpr ⟨before, after, heq, fun q hq => ?_⟩
  have hne : q.1 ≠ p.1 :=
    hnodup.2.2 q.1 (List.mem_map_of_mem hq) p.1 List.mem_cons_self
  simpa using hne.symm

theorem keysOf_eq (h : t.Consistent) {p : Str × List Str} (hp : p ∈ t.podKeys) :
    t.keysOf p.1 = p.2 := by
  rw [keysOf, h.lookup_eq hp, Option.getD_some]

/-- A count is the number of pods that have the key. -/
theorem refs_eq_card (h : t.Consistent) (k : Str) :
    t.refs k = (t.pods.filter fun uid => k ∈ t.keysOf uid).card := by
  have hkeys : (t.podKeys.filter fun p => decide (k ∈ p.2)) =
      t.podKeys.filter fun p => decide (k ∈ t.keysOf p.1) :=
    List.filter_congr fun p hp => by rw [h.keysOf_eq hp]
  have huids : (t.pods.filter fun uid => k ∈ t.keysOf uid) =
      ((t.podKeys.filter fun p => decide (k ∈ p.2)).map Prod.fst).toFinset := by
    ext uid
    rw [hkeys, Finset.mem_filter, pods]
    simp only [List.mem_toFinset, List.mem_map, List.mem_filter, decide_eq_true_eq]
    constructor
    · rintro ⟨⟨p, hp, rfl⟩, hk⟩
      exact ⟨p, ⟨hp, hk⟩, rfl⟩
    · rintro ⟨p, ⟨hp, hk⟩, rfl⟩
      exact ⟨⟨p, hp, rfl⟩, hk⟩
  have hnodup := h.uids_nodup.sublist
    ((List.filter_sublist (p := fun p => decide (k ∈ p.2))).map Prod.fst)
  rw [h.refs_eq, podCount, huids, List.card_toFinset, hnodup.dedup, List.length_map,
    List.countP_eq_length_filter]

end Tracker.Consistent

theorem mem_keysOf {t : Tracker} {uid k : Str} (hk : k ∈ t.keysOf uid) :
    ∃ p ∈ t.podKeys, p.1 = uid ∧ k ∈ p.2 := by
  rw [Tracker.keysOf] at hk
  cases hl : t.podKeys.lookup uid with
  | none => simp [hl] at hk
  | some keys =>
    rw [hl, Option.getD_some] at hk
    obtain ⟨before, after, heq, -⟩ := List.lookup_eq_some_iff.mp hl
    exact ⟨(uid, keys), by rw [heq]; simp, rfl, hk⟩

theorem exists_of_podCount_pos {podKeys : List (Str × List Str)} {k : Str}
    (h : 0 < podCount podKeys k) : ∃ p ∈ podKeys, k ∈ p.2 := by
  rw [podCount] at h
  obtain ⟨p, hp, hk⟩ := List.countP_pos_iff.mp (Int.natCast_pos.mp h)
  exact ⟨p, hp, of_decide_eq_true hk⟩

/-! ### Observing a pod again -/

theorem freshItems_eq_nil {known : Finset Str} {items : List WorkItem}
    (h : ∀ it ∈ items, ∃ k ∈ keysFor it, k ∈ known) : freshItems known items = [] := by
  rw [List.eq_nil_iff_forall_not_mem]
  intro it hit
  obtain ⟨hmem, hunseen⟩ := mem_of_mem_freshItems hit
  obtain ⟨k, hk, hknown⟩ := h it hmem
  exact hunseen k hk hknown

/-- A pod that has exactly the keys of some items can be observed with them: nothing is new and
nothing changes. -/
theorem observe_again {t : Tracker} (h : t.Consistent) {uid : Str} {items : List WorkItem}
    {keys : List Str} (hl : t.podKeys.lookup uid = some keys)
    (hkeys : ∀ k, k ∈ keys ↔ k ∈ items.flatMap keysFor) :
    (t.observe uid items).2 = [] ∧ (t.observe uid items).1.SameFields t := by
  have hkeysOf : t.keysOf uid = keys := by rw [Tracker.keysOf, hl, Option.getD_some]
  have hknown : ∀ k ∈ keys, k ∈ t.known := by
    intro k hk
    obtain ⟨p, hp, -, hk⟩ := mem_keysOf (hkeysOf ▸ hk)
    exact h.known_of_mem p hp k hk
  obtain ⟨keys', -, hkeys', hpods, hrefs', hknown'⟩ := h.observe_spec uid items
  have hsame : ∀ k, k ∈ keys' ↔ k ∈ keys := fun k => (hkeys' k).trans (hkeys k).symm
  refine ⟨?_, ?_, ?_, fun uid' => ?_⟩
  · rw [observe_fresh]
    refine freshItems_eq_nil fun it hit => ⟨_, ref_mem_keysFor it, hknown _ ((hkeys _).mpr ?_)⟩
    exact List.mem_flatMap.mpr ⟨it, hit, ref_mem_keysFor it⟩
  · ext k
    rw [hknown', hsame, hkeysOf]
    exact ⟨fun hk => hk.1.elim id (hknown k), fun hk => ⟨.inl hk, fun hc => hc.2.1 hc.1⟩⟩
  · funext k
    rw [hrefs', h.refs_eq_otherPods uid k, hkeysOf]
    simp only [hsame]
  · rw [hpods, lookup_cons_otherPods]
    split
    · next heq =>
      rw [heq, hl, Option.map_some, Option.map_some]
      exact congrArg some (Finset.ext fun k => by simpa using hsame k)
    · rfl

/-! ### The invariant -/

/-- Where a key that is known comes from: a pod has it, or the tracker was started with it and it
has not been released. -/
def CallHistory.Accounted (warm : List Str) (h : CallHistory) (k : Str) : Prop :=
  (∃ p ∈ h.tracker.podKeys, k ∈ p.2) ∨ k ∈ warm ∧ k ≠ [] ∧ k ∉ h.released

structure CallHistory.Exact (warm : List Str) (h : CallHistory) : Prop where
  consistent : h.tracker.Consistent
  accounted : ∀ k ∈ h.tracker.known, h.Accounted warm k
  observed_keys : ∀ uid items, h.observed uid = some items →
    ∃ keys, h.tracker.podKeys.lookup uid = some keys ∧
      ∀ k, k ∈ keys ↔ k ∈ items.flatMap keysFor

namespace CallHistory.Exact

variable {warm : List Str} {h : CallHistory}

theorem start (warm : List Str) : (CallHistory.start warm).Exact warm where
  consistent := newTracker_consistent warm
  accounted k hk := by
    have hk : k ∈ (warm.filter (· ≠ [])).toFinset := hk
    simp only [List.mem_toFinset, List.mem_filter, decide_eq_true_eq] at hk
    exact .inr ⟨hk.1, hk.2, List.not_mem_nil⟩
  observed_keys _ _ hobs := by cases hobs

/-- A known key that another pod has, or that the pod of the call did not have, stays accounted
for. -/
theorem accounted_after (he : h.Exact warm) (c : Call) (uid : Str) {k : Str}
    (hsub : ∀ p ∈ otherPods uid h.tracker.podKeys, p ∈ (h.step c).tracker.podKeys)
    (hreleased : h.tracker.releasedBy c ⊆ h.tracker.keysOf uid) (hk : k ∈ h.tracker.known)
    (hother : k ∈ h.tracker.keysOf uid → 0 < podCount (otherPods uid h.tracker.podKeys) k) :
    (h.step c).Accounted warm k := by
  by_cases hold : k ∈ h.tracker.keysOf uid
  · obtain ⟨p, hp, hkp⟩ := exists_of_podCount_pos (hother hold)
    exact .inl ⟨p, hsub p hp, hkp⟩
  · rcases he.accounted k hk with ⟨p, hp, hkp⟩ | ⟨hwarm, hne, hnot⟩
    · refine .inl ⟨p, hsub p (List.mem_filter.mpr ⟨hp, ?_⟩), hkp⟩
      have hpuid : p.1 ≠ uid := fun heq => hold (heq ▸ (he.consistent.keysOf_eq hp).symm ▸ hkp)
      simpa using hpuid
    · refine .inr ⟨hwarm, hne, fun hmem => ?_⟩
      rcases List.mem_append.mp hmem with hmem | hmem
      · exact hnot hmem
      · exact hold (hreleased hmem)

theorem observe (he : h.Exact warm) (uid : Str) (items : List WorkItem) :
    (h.step (.observe uid items)).Exact warm := by
  obtain ⟨keys, hnodup, hkeys, hpods, -, hknown⟩ := he.consistent.observe_spec uid items
  refine ⟨he.consistent.observe uid items, fun k hk => ?_, fun uid' items' hobs => ?_⟩
  · obtain ⟨hmem, hkeep⟩ := (hknown k).mp hk
    by_cases hnew : k ∈ keys
    · refine .inl ⟨(uid, keys), ?_, hnew⟩
      exact hpods ▸ List.mem_cons_self
    · refine he.accounted_after _ uid (fun p hp => hpods ▸ List.mem_cons_of_mem _ hp)
        (List.filter_subset_self _) (hmem.resolve_right hnew) fun hold => ?_
      exact not_le.mp fun hle => hkeep ⟨hold, hnew, hle⟩
  · have hlookup : (h.step (.observe uid items)).tracker.podKeys.lookup uid' =
        if uid' = uid then some keys else h.tracker.podKeys.lookup uid' :=
      (congrArg (List.lookup uid') hpods).trans (lookup_cons_otherPods _ _ _ _)
    have hobs : Function.update h.observed uid (some items) uid' = some items' := hobs
    rw [hlookup]
    by_cases huid : uid' = uid
    · rw [huid, Function.update_self] at hobs
      cases hobs
      exact ⟨keys, if_pos huid, hkeys⟩
    · rw [Function.update_of_ne huid] at hobs
      rw [if_neg huid]
      exact he.observed_keys uid' items' hobs

theorem delete (he : h.Exact warm) (uid : Str) : (h.step (.delete uid)).Exact warm := by
  obtain ⟨hpods, -, hknown⟩ := he.consistent.delete_spec uid
  refine ⟨he.consistent.delete uid, fun k hk => ?_, fun uid' items' hobs => ?_⟩
  · obtain ⟨hmem, hkeep⟩ := (hknown k).mp hk
    refine he.accounted_after _ uid (fun p hp => hpods ▸ hp) (List.Subset.refl _) hmem fun hold => ?_
    exact not_le.mp fun hle => hkeep ⟨hold, hle⟩
  · have hobs : Function.update h.observed uid none uid' = some items' := hobs
    have huid : uid' ≠ uid := by
      rintro rfl
      rw [Function.update_self] at hobs
      cases hobs
    rw [Function.update_of_ne huid] at hobs
    have hlookup : (h.step (.delete uid)).tracker.podKeys.lookup uid' =
        h.tracker.podKeys.lookup uid' :=
      (congrArg (List.lookup uid') hpods).trans (lookup_otherPods_of_ne _ huid)
    rw [hlookup]
    exact he.observed_keys uid' items' hobs

protected theorem step (he : h.Exact warm) (c : Call) : (h.step c).Exact warm := by
  cases c with
  | observe uid items => exact he.observe uid items
  | delete uid => exact he.delete uid

end CallHistory.Exact

/-- After any calls: a count is the number of pods that have the key, what a pod has is known, what
is known is had by a pod or was there from the start and never released, and observing a pod again
with what it was last observed with finds nothing new and changes nothing. -/
theorem reference_counts (warm : List Str) (calls : List Call) :
    let h := run CallHistory.step (CallHistory.start warm) calls
    (∀ k, h.tracker.refs k = (h.tracker.pods.filter fun uid => k ∈ h.tracker.keysOf uid).card) ∧
      (∀ uid, ∀ k ∈ h.tracker.keysOf uid, uid ∈ h.tracker.pods ∧ k ∈ h.tracker.known) ∧
      (∀ k ∈ h.tracker.known, (∃ uid ∈ h.tracker.pods, k ∈ h.tracker.keysOf uid) ∨
        k ∈ warm ∧ k ≠ [] ∧ k ∉ h.released) ∧
      ∀ uid items, h.observed uid = some items →
        (h.tracker.observe uid items).2 = [] ∧
          (h.tracker.observe uid items).1.SameFields h.tracker := by
  intro h
  have he : h.Exact warm :=
    @run_induction _ _ CallHistory.step (CallHistory.Exact warm) (fun _ c he => he.step c) _
      (CallHistory.Exact.start warm) calls
  have hpods : ∀ p ∈ h.tracker.podKeys, p.1 ∈ h.tracker.pods := fun p hp =>
    List.mem_toFinset.mpr (List.mem_map_of_mem hp)
  refine ⟨he.consistent.refs_eq_card, fun uid k hk => ?_, fun k hk => ?_, fun uid items hobs => ?_⟩
  · obtain ⟨p, hp, rfl, hkp⟩ := mem_keysOf hk
    exact ⟨hpods p hp, he.consistent.known_of_mem p hp k hkp⟩
  · refine (he.accounted k hk).imp_left ?_
    rintro ⟨p, hp, hkp⟩
    exact ⟨p.1, hpods p hp, (he.consistent.keysOf_eq hp).symm ▸ hkp⟩
  · obtain ⟨keys, hl, hkeys⟩ := he.observed_keys uid items hobs
    exact observe_again he.consistent hl hkeys

end Vat.Watch
