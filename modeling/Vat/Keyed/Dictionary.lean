import Mathlib.Data.List.Nodup
import Mathlib.Logic.Embedding.Basic

/-!
# Dictionaries

A dictionary is a list of entries with different keys. A write to a key that is there keeps its
place, any other write comes last. Two dictionaries are equal when they give the same value for
every key, in whatever order their entries are.

## Main definitions

* `Dictionary.get?`, `Dictionary.set`, `Dictionary.erase`, `Dictionary.findKey?`.
* `Dictionary.Same`: the same value for every key.
* `Dictionary.rename`: the same values under other keys.

## Main results

* `Dictionary.get?_set`, `Dictionary.get?_erase`: every write read back at every key.
* `Dictionary.same_set_iff`, `Dictionary.same_erase_iff`: writes to one key of two dictionaries.
* `Dictionary.findKey?_eq_some_iff`: the search for a value that at most one key has.
-/

namespace Keyed

/-- A list of entries with different keys. -/
structure Dictionary (κ ν : Type*) where
  entries : List (κ × ν)
  nodup : (entries.map Prod.fst).Nodup

namespace Dictionary

variable {κ ν : Type*}

/-- The dictionary without entries. -/
def empty : Dictionary κ ν := ⟨[], List.nodup_nil⟩

variable [DecidableEq κ] {d d' : Dictionary κ ν} {k k' : κ} {v : ν}

/-! ### Reads -/

/-- The value of a key. -/
def get? (d : Dictionary κ ν) (k : κ) : Option ν :=
  (d.entries.find? fun e => e.1 = k).map Prod.snd

@[simp] theorem get?_empty (k : κ) : (empty : Dictionary κ ν).get? k = none := rfl

theorem get?_eq_some_iff : d.get? k = some v ↔ (k, v) ∈ d.entries := by
  rw [get?, Option.map_eq_some_iff]
  constructor
  · rintro ⟨e, he, rfl⟩
    have hk : e.1 = k := by simpa using List.find?_some he
    rw [← hk]
    exact List.mem_of_find?_eq_some he
  · intro h
    cases hfind : d.entries.find? fun e => e.1 = k with
    | none => simpa using List.find?_eq_none.mp hfind (k, v) h
    | some e =>
      have hk : e.1 = k := by simpa using List.find?_some hfind
      have he := List.inj_on_of_nodup_map d.nodup (List.mem_of_find?_eq_some hfind) h hk
      exact ⟨e, rfl, by rw [he]⟩

theorem get?_eq_none_iff : d.get? k = none ↔ ∀ e ∈ d.entries, e.1 ≠ k := by
  rw [get?, Option.map_eq_none_iff, List.find?_eq_none]
  simp

/-- The first key whose value passes a test. -/
def findKey? (p : ν → Bool) (d : Dictionary κ ν) : Option κ :=
  (d.entries.find? fun e => p e.2).map Prod.fst

omit [DecidableEq κ] in
theorem findKey?_eq_none_iff {p : ν → Bool} :
    d.findKey? p = none ↔ ∀ e ∈ d.entries, p e.2 = false := by
  rw [findKey?, Option.map_eq_none_iff, List.find?_eq_none]
  simp

/-- When no two keys pass the test, the search gives the key that does. -/
theorem findKey?_eq_some_iff {p : ν → Bool}
    (hp : ∀ k k' v v', d.get? k = some v → d.get? k' = some v' → p v → p v' → k = k') :
    d.findKey? p = some k ↔ ∃ v, d.get? k = some v ∧ p v := by
  constructor
  · intro h
    obtain ⟨e, he, rfl⟩ := Option.map_eq_some_iff.mp h
    have hpe : p e.2 = true := by simpa using List.find?_some he
    exact ⟨e.2, get?_eq_some_iff.mpr (List.mem_of_find?_eq_some he), hpe⟩
  · rintro ⟨v, hv, hpv⟩
    cases hfind : d.findKey? p with
    | none =>
      have := findKey?_eq_none_iff.mp hfind (k, v) (get?_eq_some_iff.mp hv)
      simp [hpv] at this
    | some k' =>
      obtain ⟨e, he, rfl⟩ := Option.map_eq_some_iff.mp hfind
      have hev : d.get? e.1 = some e.2 := get?_eq_some_iff.mpr (List.mem_of_find?_eq_some he)
      have hpe : p e.2 = true := by simpa using List.find?_some he
      rw [hp e.1 k e.2 v hev hv hpe hpv]

/-- When the test singles out the keys with some property, and at most one key has it. -/
theorem findKey?_eq_some_iff_of_test {p : ν → Bool} (Q : κ → Prop)
    (htest : ∀ k v, d.get? k = some v → (p v = true ↔ Q k)) (hmem : ∀ k, Q k → d.get? k ≠ none)
    (hinj : ∀ k k', Q k → Q k' → k = k') : d.findKey? p = some k ↔ Q k := by
  rw [findKey?_eq_some_iff fun k k' v v' hv hv' hp hp' =>
    hinj k k' ((htest k v hv).mp hp) ((htest k' v' hv').mp hp')]
  constructor
  · rintro ⟨v, hv, hp⟩
    exact (htest k v hv).mp hp
  · intro hk
    obtain ⟨v, hv⟩ := Option.ne_none_iff_exists'.mp (hmem k hk)
    exact ⟨v, hv, (htest k v hv).mpr hk⟩

/-! ### Writes -/

/-- A value written to a key. -/
def set (d : Dictionary κ ν) (k : κ) (v : ν) : Dictionary κ ν where
  entries :=
    if k ∈ d.entries.map Prod.fst then d.entries.map fun e => if e.1 = k then (k, v) else e
    else d.entries ++ [(k, v)]
  nodup := by
    split_ifs with hk
    · have hkeys : (d.entries.map fun e => if e.1 = k then (k, v) else e).map Prod.fst =
          d.entries.map Prod.fst := by
        rw [List.map_map]
        refine List.map_congr_left fun e _ => ?_
        by_cases he : e.1 = k <;> simp [he]
      rw [hkeys]
      exact d.nodup
    · rw [List.map_append, List.map_singleton]
      exact d.nodup.append (List.nodup_singleton _) (List.disjoint_singleton.mpr hk)

theorem mem_set_iff {e : κ × ν} :
    e ∈ (d.set k v).entries ↔ e = (k, v) ∨ e ∈ d.entries ∧ e.1 ≠ k := by
  rw [set]
  dsimp only
  split_ifs with hk
  · rw [List.mem_map]
    constructor
    · rintro ⟨e', he', rfl⟩
      by_cases h : e'.1 = k
      · simp [h]
      · simp [h, he']
    · rintro (rfl | ⟨he, hne⟩)
      · obtain ⟨e', he', heq⟩ := List.mem_map.mp hk
        exact ⟨e', he', by simp [heq]⟩
      · exact ⟨e, he, by simp [hne]⟩
  · rw [List.mem_append, List.mem_singleton, or_comm]
    refine or_congr_right (iff_self_and.mpr fun he heq => hk ?_)
    exact List.mem_map.mpr ⟨e, he, heq⟩

theorem get?_set : (d.set k v).get? k' = if k' = k then some v else d.get? k' := by
  refine Option.ext fun w => ?_
  rw [get?_eq_some_iff, mem_set_iff]
  split_ifs with hk
  · simp [hk, eq_comm]
  · rw [get?_eq_some_iff]
    simp [hk]

/-- A key taken out. -/
def erase (d : Dictionary κ ν) (k : κ) : Dictionary κ ν where
  entries := d.entries.filter fun e => e.1 ≠ k
  nodup := (List.filter_sublist.map Prod.fst).nodup d.nodup

theorem get?_erase : (d.erase k).get? k' = if k' = k then none else d.get? k' := by
  refine Option.ext fun w => ?_
  rw [get?_eq_some_iff, erase, List.mem_filter]
  split_ifs with hk
  · simp [hk]
  · rw [get?_eq_some_iff]
    simp [hk]

/-! ### Equality -/

/-- The same value for every key. -/
def Same (d d' : Dictionary κ ν) : Prop := ∀ k, d.get? k = d'.get? k

theorem same_iff : d.Same d' ↔
    (∀ e ∈ d.entries, d'.get? e.1 = some e.2) ∧ ∀ e ∈ d'.entries, d.get? e.1 = some e.2 := by
  constructor
  · intro h
    exact ⟨fun e he => (h e.1).symm.trans (get?_eq_some_iff.mpr he),
      fun e he => (h e.1).trans (get?_eq_some_iff.mpr he)⟩
  · rintro ⟨h, h'⟩ k
    refine Option.ext fun v => ?_
    rw [get?_eq_some_iff, get?_eq_some_iff]
    exact ⟨fun hv => get?_eq_some_iff.mp (h (k, v) hv),
      fun hv => get?_eq_some_iff.mp (h' (k, v) hv)⟩

instance [DecidableEq ν] (d d' : Dictionary κ ν) : Decidable (d.Same d') :=
  decidable_of_iff _ same_iff.symm

theorem Same.symm (h : d.Same d') : d'.Same d := fun k => (h k).symm

/-- Writes of values to one key give the same dictionary exactly if they agree on that value and the
dictionaries agreed on the other keys. -/
theorem same_set_iff {v' : ν} :
    (d.set k v).Same (d'.set k v') ↔ v = v' ∧ ∀ k', k' ≠ k → d.get? k' = d'.get? k' := by
  constructor
  · intro h
    refine ⟨?_, fun k' hk => ?_⟩
    · simpa [get?_set] using h k
    · simpa [get?_set, hk] using h k'
  · rintro ⟨rfl, h⟩ k'
    rw [get?_set, get?_set]
    split_ifs with hk
    · rfl
    · exact h k' hk

theorem same_erase_iff :
    (d.erase k).Same (d'.erase k) ↔ ∀ k', k' ≠ k → d.get? k' = d'.get? k' := by
  constructor
  · intro h k' hk
    simpa [get?_erase, hk] using h k'
  · intro h k'
    rw [get?_erase, get?_erase]
    split_ifs with hk
    · rfl
    · exact h k' hk

/-- A write that changes nothing. -/
theorem same_set_self_iff : (d.set k v).Same d ↔ d.get? k = some v := by
  constructor
  · intro h
    rw [← h k, get?_set, if_pos rfl]
  · intro h k'
    rw [get?_set]
    split_ifs with hk
    · rw [hk, h]
    · rfl

theorem same_erase_self_iff : (d.erase k).Same d ↔ d.get? k = none := by
  constructor
  · intro h
    rw [← h k, get?_erase, if_pos rfl]
  · intro h k'
    rw [get?_erase]
    split_ifs with hk
    · rw [hk, h]
    · rfl

/-! ### Renamed keys -/

section Renamed

variable {κ' : Type*} [DecidableEq κ'] (f : κ ↪ κ')

omit [DecidableEq κ] [DecidableEq κ'] in
/-- The values under other keys. -/
def rename (d : Dictionary κ ν) : Dictionary κ' ν where
  entries := d.entries.map fun e => (f e.1, e.2)
  nodup := by
    have hkeys : (d.entries.map fun e => (f e.1, e.2)).map Prod.fst =
        (d.entries.map Prod.fst).map f := by
      rw [List.map_map, List.map_map]
      rfl
    rw [hkeys]
    exact d.nodup.map f.injective

omit [DecidableEq κ] [DecidableEq κ'] in
@[simp] theorem entries_rename (d : Dictionary κ ν) :
    (d.rename f).entries = d.entries.map fun e => (f e.1, e.2) := rfl

omit [DecidableEq κ] [DecidableEq κ'] in
@[simp] theorem rename_empty : (empty : Dictionary κ ν).rename f = empty := rfl

omit [DecidableEq κ] [DecidableEq κ'] in
theorem map_snd_rename (d : Dictionary κ ν) :
    (d.rename f).entries.map Prod.snd = d.entries.map Prod.snd := by
  rw [entries_rename, List.map_map]
  rfl

omit [DecidableEq κ] [DecidableEq κ'] in
theorem mem_keys_rename_iff {d : Dictionary κ ν} {k : κ} :
    f k ∈ (d.rename f).entries.map Prod.fst ↔ k ∈ d.entries.map Prod.fst := by
  rw [entries_rename, List.map_map]
  simp only [List.mem_map, Function.comp_apply, f.injective.eq_iff]

/-- A write to a key, before or after the keys are renamed. -/
theorem rename_set (d : Dictionary κ ν) (k : κ) (v : ν) :
    (d.set k v).rename f = (d.rename f).set (f k) v := by
  have hentries : ((d.set k v).rename f).entries = ((d.rename f).set (f k) v).entries := by
    by_cases hk : k ∈ d.entries.map Prod.fst
    · have hset : (d.set k v).entries = d.entries.map fun e => if e.1 = k then (k, v) else e :=
        if_pos hk
      have hrename : ((d.rename f).set (f k) v).entries =
          (d.rename f).entries.map fun e => if e.1 = f k then (f k, v) else e :=
        if_pos ((mem_keys_rename_iff f).mpr hk)
      rw [hrename, entries_rename, entries_rename, hset, List.map_map, List.map_map]
      refine List.map_congr_left fun e _ => ?_
      by_cases he : e.1 = k <;> simp [he]
    · have hset : (d.set k v).entries = d.entries ++ [(k, v)] := if_neg hk
      have hrename : ((d.rename f).set (f k) v).entries = (d.rename f).entries ++ [(f k, v)] :=
        if_neg fun h => hk ((mem_keys_rename_iff f).mp h)
      rw [hrename, entries_rename, entries_rename, hset, List.map_append]
      rfl
  exact (mk.injEq ..).mpr hentries

@[simp] theorem get?_rename (d : Dictionary κ ν) (k : κ) :
    (d.rename f).get? (f k) = d.get? k := by
  refine Option.ext fun v => ?_
  simp [get?_eq_some_iff, rename]

end Renamed

end Dictionary

end Keyed
