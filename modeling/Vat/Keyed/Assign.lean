import Mathlib.Data.List.Nodup

/-!
# Assignments to pairs

A list of pairs as a table that is written by key: an assignment to a key that is there replaces its
value in place, and any other comes last. Pairs that were assigned once are found as another
assignment of them would leave them.

## Main definitions

* `assign`, `assignEach`: one assignment, and those of several pairs in turn.
* `Holds`: a key has one value.

## Main results

* `holds_assignEach`: what was assigned holds.
* `assignEach_of_holds`: assignments of what holds.
-/

namespace Keyed

variable {κ ν : Type*} [DecidableEq κ]

/-- The pairs after `o[k] = v`. -/
def assign (o : List (κ × ν)) (k : κ) (v : ν) : List (κ × ν) :=
  if k ∈ o.map Prod.fst then o.map fun p => if p.1 = k then (k, v) else p else o ++ [(k, v)]

/-- The pairs after an assignment of each of some pairs. -/
def assignEach (o b : List (κ × ν)) : List (κ × ν) := b.foldl (fun o p => assign o p.1 p.2) o

/-- The key is there, and has the value wherever it is. -/
def Holds (o : List (κ × ν)) (k : κ) (v : ν) : Prop :=
  k ∈ o.map Prod.fst ∧ ∀ p ∈ o, p.1 = k → p.2 = v

variable {o b : List (κ × ν)} {k k' : κ} {v v' : ν}

theorem mem_keys_assign : k' ∈ (assign o k v).map Prod.fst ↔ k' = k ∨ k' ∈ o.map Prod.fst := by
  unfold assign
  split_ifs with hk
  · have hkeys : (o.map fun p => if p.1 = k then (k, v) else p).map Prod.fst = o.map Prod.fst := by
      rw [List.map_map]
      refine List.map_congr_left fun p _ => ?_
      rw [Function.comp_apply]
      split_ifs with hp
      · exact hp.symm
      · rfl
    rw [hkeys]
    exact (or_iff_right_of_imp fun h => h ▸ hk).symm
  · rw [List.map_append, List.mem_append, List.map_singleton, List.mem_singleton, or_comm]

theorem mem_assign {p : κ × ν} (h : p ∈ assign o k v) : p = (k, v) ∨ p ∈ o ∧ p.1 ≠ k := by
  unfold assign at h
  split_ifs at h with hk
  · obtain ⟨q, hq, rfl⟩ := List.mem_map.mp h
    split_ifs with hqk
    · exact Or.inl rfl
    · exact Or.inr ⟨hq, hqk⟩
  · rcases List.mem_append.mp h with h | h
    · exact Or.inr ⟨h, fun hpk => hk (hpk ▸ List.mem_map_of_mem h)⟩
    · exact Or.inl (List.mem_singleton.mp h)

/-- What was assigned holds. -/
theorem holds_assign (o : List (κ × ν)) (k : κ) (v : ν) : Holds (assign o k v) k v := by
  refine ⟨mem_keys_assign.mpr (Or.inl rfl), fun p hp hk => ?_⟩
  rcases mem_assign hp with rfl | ⟨-, hne⟩
  · rfl
  · exact absurd hk hne

/-- An assignment to another key. -/
theorem Holds.assign (h : Holds o k v) (hne : k ≠ k') : Holds (assign o k' v') k v := by
  refine ⟨mem_keys_assign.mpr (Or.inr h.1), fun p hp hk => ?_⟩
  rcases mem_assign hp with rfl | ⟨hp, -⟩
  · exact absurd hk.symm hne
  · exact h.2 p hp hk

/-- An assignment of what holds. -/
theorem assign_of_holds (h : Holds o k v) : Keyed.assign o k v = o := by
  rw [Keyed.assign, if_pos h.1]
  refine (List.map_congr_left fun p hp => ?_).trans (List.map_id' o)
  split_ifs with hk
  · rw [← hk, ← h.2 p hp hk]
  · rfl

omit [DecidableEq κ] in
/-- A key with one entry. -/
theorem holds_of_mem (hnodup : (o.map Prod.fst).Nodup) (h : (k, v) ∈ o) : Holds o k v := by
  refine ⟨List.mem_map_of_mem h, fun p hp hk => ?_⟩
  rw [List.inj_on_of_nodup_map hnodup hp h hk]

omit [DecidableEq κ] in
/-- A look at a key with one value. -/
theorem Holds.lookup [BEq κ] [LawfulBEq κ] (h : Holds o k v) : o.lookup k = some v := by
  cases hlookup : o.lookup k with
  | none =>
    obtain ⟨p, hp, rfl⟩ := List.mem_map.mp h.1
    have hne := List.lookup_eq_none_iff.mp hlookup p hp
    simp at hne
  | some w =>
    obtain ⟨l₁, l₂, rfl, -⟩ := List.lookup_eq_some_iff.mp hlookup
    exact congrArg some (h.2 (k, w) (by simp) rfl)

omit [DecidableEq κ] in
/-- A key with one value, among the entries that a test keeps. -/
theorem Holds.filter {p : κ × ν → Bool} (h : Holds o k v) (hp : p (k, v) = true) :
    Holds (o.filter p) k v := by
  obtain ⟨q, hq, hqk⟩ := List.mem_map.mp h.1
  have hqv : q = (k, v) := Prod.ext hqk (h.2 q hq hqk)
  refine ⟨List.mem_map.mpr ⟨q, List.mem_filter.mpr ⟨hq, hqv ▸ hp⟩, hqk⟩, fun r hr hrk => ?_⟩
  exact h.2 r (List.mem_filter.mp hr).1 hrk

theorem Holds.assignEach (h : Holds o k v) (hk : k ∉ b.map Prod.fst) :
    Holds (assignEach o b) k v := by
  induction b generalizing o with
  | nil => exact h
  | cons p b ih =>
    rw [List.map_cons, List.mem_cons, not_or] at hk
    exact ih (h.assign hk.1) hk.2

/-- What was assigned in turn holds. -/
theorem holds_assignEach (hnodup : (b.map Prod.fst).Nodup) {p : κ × ν} (hp : p ∈ b) :
    Holds (assignEach o b) p.1 p.2 := by
  induction b generalizing o with
  | nil => cases hp
  | cons q b ih =>
    rw [List.map_cons, List.nodup_cons] at hnodup
    rcases List.mem_cons.mp hp with rfl | hp
    · exact (holds_assign o p.1 p.2).assignEach hnodup.1
    · exact ih hnodup.2 hp

/-- Assignments of what holds. -/
theorem assignEach_of_holds (h : ∀ p ∈ b, Holds o p.1 p.2) : Keyed.assignEach o b = o := by
  induction b with
  | nil => rfl
  | cons p b ih =>
    rw [List.forall_mem_cons] at h
    rw [Keyed.assignEach, List.foldl_cons, assign_of_holds h.1]
    exact ih h.2

theorem assignEach_ne_nil (hb : b ≠ []) : Keyed.assignEach o b ≠ [] := by
  have hassign : ∀ (o : List (κ × ν)) (p : κ × ν), Keyed.assign o p.1 p.2 ≠ [] := by
    intro o p h
    have hmem := (mem_keys_assign (o := o) (v := p.2)).mpr (Or.inl (rfl : p.1 = p.1))
    rw [h] at hmem
    cases hmem
  have hkeep : ∀ (b o : List (κ × ν)), o ≠ [] → Keyed.assignEach o b ≠ [] := by
    intro b
    induction b with
    | nil => exact fun o ho => ho
    | cons p b ih => exact fun o _ => ih _ (hassign o p)
  cases b with
  | nil => exact absurd rfl hb
  | cons p b => exact hkeep b _ (hassign o p)

end Keyed
