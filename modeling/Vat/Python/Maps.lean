import Mathlib.Data.Finset.Erase
import Mathlib.Data.Finset.Filter
import Mathlib.Data.Finset.Insert
import Mathlib.Data.Finset.Lattice.Basic
import Vat.Python.Text

/-!
# Maps with text keys

A finite map is its keys and a value for each. Two maps are equal if they hold the same under every
key, so the order in which keys were set is not part of a map.

## Main definitions

* `StrMap`: finite maps with text keys.
* `StrMap.get`, `StrMap.set`, `StrMap.erase`, `StrMap.map`, `StrMap.filter`, `StrMap.override`.

## Main results

* `StrMap.ext_get`, and what every operation holds under a key.
-/

namespace Vat

/-- A finite map with text keys (`map[string]T`). -/
structure StrMap (α : Type*) where
  keys : Finset Str
  values : {k // k ∈ keys} → α

namespace StrMap

variable {α β : Type*}

def empty : StrMap α := ⟨∅, fun k => (Finset.notMem_empty k.1 k.2).elim⟩

def get (m : StrMap α) (k : Str) : Option α :=
  if h : k ∈ m.keys then some (m.values ⟨k, h⟩) else none

def set (m : StrMap α) (k : Str) (v : α) : StrMap α where
  keys := insert k m.keys
  values x := if x.1 = k then v else (m.get x.1).getD v

def erase (m : StrMap α) (k : Str) : StrMap α where
  keys := m.keys.erase k
  values x := m.values ⟨x.1, Finset.mem_of_mem_erase x.2⟩

def map (f : α → β) (m : StrMap α) : StrMap β := ⟨m.keys, f ∘ m.values⟩

/-- The map of some items; of two with one key the first counts. -/
def ofList (items : List (Str × α)) : StrMap α := items.foldr (fun p m => m.set p.1 p.2) empty

theorem mem_keys_iff {m : StrMap α} {k : Str} : k ∈ m.keys ↔ (m.get k).isSome := by
  rw [get]
  split <;> simp_all

theorem keys_eq_of_isSome {m : StrMap α} {m' : StrMap β}
    (h : ∀ k, (m.get k).isSome = (m'.get k).isSome) : m.keys = m'.keys := by
  ext k
  rw [mem_keys_iff, mem_keys_iff, h k]

theorem ext_get {m m' : StrMap α} (h : ∀ k, m.get k = m'.get k) : m = m' := by
  have hkeys := keys_eq_of_isSome fun k => congrArg Option.isSome (h k)
  obtain ⟨keys, values⟩ := m
  obtain ⟨keys', values'⟩ := m'
  obtain rfl : keys = keys' := hkeys
  congr 1
  funext k
  have hk := h k.1
  rwa [get, get, dif_pos k.2, dif_pos k.2, Option.some.injEq] at hk

@[simp]
theorem get_set (m : StrMap α) (k x : Str) (v : α) :
    (m.set k v).get x = if x = k then some v else m.get x := by
  by_cases hx : x = k
  · simp [get, set, hx]
  · by_cases hm : x ∈ m.keys <;> simp [get, set, hx, hm]

@[simp]
theorem get_erase (m : StrMap α) (k x : Str) :
    (m.erase k).get x = if x = k then none else m.get x := by
  by_cases hx : x = k
  · simp [get, erase, hx]
  · by_cases hm : x ∈ m.keys <;> simp [get, erase, hx, hm]

theorem erase_set {k x : Str} (h : k ≠ x) (m : StrMap α) (v : α) :
    (m.set k v).erase x = (m.erase x).set k v := by
  refine ext_get fun y => ?_
  simp only [get_erase, get_set]
  by_cases hy : y = x
  · simp [hy, h.symm]
  · simp [hy]

@[simp]
theorem get_map (f : α → β) (m : StrMap α) (k : Str) : (m.map f).get k = (m.get k).map f := by
  rw [get, get]
  split
  · next h => rw [dif_pos (show k ∈ m.keys from h)]; rfl
  · next h => rw [dif_neg (show k ∉ m.keys from h)]; rfl

@[simp]
theorem get_empty (k : Str) : (empty : StrMap α).get k = none := dif_neg (Finset.notMem_empty k)

/-- The entries whose value has a property. -/
def filter (p : α → Bool) (m : StrMap α) : StrMap α where
  keys := m.keys.filter fun k => (m.get k).any p
  values k := m.values ⟨k.1, (Finset.mem_filter.mp k.2).1⟩

theorem get_of_mem {m : StrMap α} {k : Str} (h : k ∈ m.keys) : m.get k = some (m.values ⟨k, h⟩) :=
  dif_pos h

theorem get_of_notMem {m : StrMap α} {k : Str} (h : k ∉ m.keys) : m.get k = none := dif_neg h

@[simp]
theorem get_filter (p : α → Bool) (m : StrMap α) (k : Str) :
    (m.filter p).get k = (m.get k).filter p := by
  have hkeys : k ∈ (m.filter p).keys ↔ k ∈ m.keys ∧ (m.get k).any p = true := Finset.mem_filter
  by_cases hk : k ∈ m.keys
  · rw [get_of_mem hk, Option.any_some] at hkeys
    rw [get_of_mem hk, Option.filter_some]
    split
    · next hp => exact get_of_mem (hkeys.mpr ⟨hk, hp⟩)
    · next hp => exact get_of_notMem fun h => hp (hkeys.mp h).2
  · rw [get_of_notMem hk, Option.filter_none]
    exact get_of_notMem fun h => hk (hkeys.mp h).1

/-- `{**a, **b}`. -/
def override (a b : StrMap α) : StrMap α where
  keys := b.keys ∪ a.keys
  values k :=
    if hb : k.1 ∈ b.keys then b.values ⟨k.1, hb⟩
    else a.values ⟨k.1, (Finset.mem_union.mp k.2).resolve_left hb⟩

@[simp]
theorem get_override (a b : StrMap α) (k : Str) : (a.override b).get k = (b.get k).or (a.get k) := by
  by_cases hb : k ∈ b.keys
  · simp [get, override, hb]
  · by_cases ha : k ∈ a.keys <;> simp [get, override, ha, hb]

theorem keys_eq_empty_iff {m : StrMap α} : m.keys = ∅ ↔ m = empty := by
  constructor
  · intro h
    refine ext_get fun k => ?_
    rw [get_empty, get, dif_neg (by rw [h]; exact Finset.notMem_empty k)]
  · rintro rfl
    rfl

end StrMap

end Vat
