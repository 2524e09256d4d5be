import Mathlib.Data.List.Nodup

/-!
# Stores with object versions

A store of named objects in which every write gives the object a new version, and in which a write
is accepted only if the version that the writer has read is still the current one. Versions and the
uids of objects are drawn from one counter, so that they are never used twice.

What a party has read is a *snapshot*: at no later time has the store another object with the name
and the version of it (`Snapshot`). So a write that is accepted replaces what the writer has read
(`put_eq_some_iff`).

## Main definitions

* `Versioned.Object`, `Versioned.Store`, `Versioned.Store.put`, `Versioned.Store.create`,
  `Versioned.Store.remove`.
* `Versioned.Snapshot`.

## Main results

* `Versioned.mem_replace_iff`: what a store has after a write.
* `Versioned.Snapshot.replace`, `Versioned.Snapshot.create`, `Versioned.Snapshot.remove`: snapshots
  stay snapshots.
* `Versioned.put_eq_some_iff`: which writes are accepted, and what they leave.
-/

namespace Vat.Versioned

variable {ν β : Type*}

/-- An object of a store. -/
structure Object (ν β : Type*) where
  name : ν
  uid : ℕ
  createdAt : ℕ
  version : ℕ
  value : β

/-- A store: objects with different names and uids, older than the counter. -/
structure Store (ν β : Type*) where
  objects : List (Object ν β)
  revision : ℕ
  names_nodup : (objects.map Object.name).Nodup
  uids_nodup : (objects.map Object.uid).Nodup
  uid_lt : ∀ x ∈ objects, x.uid < revision
  version_lt : ∀ x ∈ objects, x.version < revision

namespace Store

/-- No objects. -/
def empty : Store ν β where
  objects := []
  revision := 0
  names_nodup := List.nodup_nil
  uids_nodup := List.nodup_nil
  uid_lt _ h := absurd h List.not_mem_nil
  version_lt _ h := absurd h List.not_mem_nil

theorem eq_of_name_eq (s : Store ν β) {x y : Object ν β} (hx : x ∈ s.objects) (hy : y ∈ s.objects)
    (h : x.name = y.name) : x = y := List.inj_on_of_nodup_map s.names_nodup hx hy h

theorem eq_of_uid_eq (s : Store ν β) {x y : Object ν β} (hx : x ∈ s.objects) (hy : y ∈ s.objects)
    (h : x.uid = y.uid) : x = y := List.inj_on_of_nodup_map s.uids_nodup hx hy h

variable [DecidableEq ν]

/-- Write a value to the object of a name. -/
def replace (s : Store ν β) (name : ν) (value : β) : Store ν β where
  objects := s.objects.map fun x =>
    if x.name = name then { x with version := s.revision, value := value } else x
  revision := s.revision + 1
  names_nodup := by
    have hname : (Object.name ∘ fun x : Object ν β =>
        if x.name = name then { x with version := s.revision, value := value } else x) =
          Object.name := by
      funext x
      simp only [Function.comp]
      split <;> rfl
    rw [List.map_map, hname]
    exact s.names_nodup
  uids_nodup := by
    have huid : (Object.uid ∘ fun x : Object ν β =>
        if x.name = name then { x with version := s.revision, value := value } else x) =
          Object.uid := by
      funext x
      simp only [Function.comp]
      split <;> rfl
    rw [List.map_map, huid]
    exact s.uids_nodup
  uid_lt y hy := by
    obtain ⟨x, hx, rfl⟩ := List.mem_map.mp hy
    have := s.uid_lt x hx
    split
    · exact Nat.lt_succ_of_lt this
    · exact Nat.lt_succ_of_lt this
  version_lt y hy := by
    obtain ⟨x, hx, rfl⟩ := List.mem_map.mp hy
    split
    · exact Nat.lt_succ_self s.revision
    · exact Nat.lt_succ_of_lt (s.version_lt x hx)

/-- Write an object that was read before: rejected if it is gone or has another version. -/
def put (s : Store ν β) (o : Object ν β) : Option (Store ν β × Object ν β) :=
  (s.objects.find? fun x => x.name = o.name ∧ x.version = o.version).map fun x =>
    (s.replace o.name o.value, { x with version := s.revision, value := o.value })

/-- Create an object; one of the same name is left as it is. -/
def create (s : Store ν β) (name : ν) (now : ℕ) (value : β) : Store ν β :=
  if h : name ∈ s.objects.map Object.name then s
  else
    { objects := s.objects ++ [⟨name, s.revision, now, s.revision, value⟩]
      revision := s.revision + 1
      names_nodup := by
        rw [List.map_append, List.map_singleton]
        refine List.nodup_append.mpr
          ⟨s.names_nodup, List.nodup_singleton _, fun a ha b hb hab => h ?_⟩
        have hname : b = name := List.mem_singleton.mp hb
        rwa [← hname, ← hab]
      uids_nodup := by
        rw [List.map_append, List.map_singleton]
        refine List.nodup_append.mpr ⟨s.uids_nodup, List.nodup_singleton _, fun a ha b hb => ?_⟩
        obtain ⟨x, hx, rfl⟩ := List.mem_map.mp ha
        rw [List.mem_singleton.mp hb]
        exact Nat.ne_of_lt (s.uid_lt x hx)
      uid_lt := by
        intro x hx
        rcases List.mem_append.mp hx with hx | hx
        · exact Nat.lt_succ_of_lt (s.uid_lt x hx)
        · rw [List.mem_singleton.mp hx]
          exact Nat.lt_succ_self s.revision
      version_lt := by
        intro x hx
        rcases List.mem_append.mp hx with hx | hx
        · exact Nat.lt_succ_of_lt (s.version_lt x hx)
        · rw [List.mem_singleton.mp hx]
          exact Nat.lt_succ_self s.revision }

omit [DecidableEq ν] in
/-- Remove the objects of a class. -/
def remove (s : Store ν β) (p : Object ν β → Bool) : Store ν β where
  objects := s.objects.filter fun x => !p x
  revision := s.revision
  names_nodup := s.names_nodup.sublist (List.filter_sublist.map Object.name)
  uids_nodup := s.uids_nodup.sublist (List.filter_sublist.map Object.uid)
  uid_lt x hx := s.uid_lt x (List.mem_filter.mp hx).1
  version_lt x hx := s.version_lt x (List.mem_filter.mp hx).1

end Store

/-! ### Writes -/

section Writes

variable [DecidableEq ν] {s : Store ν β} {o x : Object ν β}

/-- After a write the store has the object that was written, and the others as before. -/
theorem mem_replace_iff {r : Object ν β} (hr : r ∈ s.objects) {value : β} :
    x ∈ (s.replace r.name value).objects ↔
      x = { r with version := s.revision, value := value } ∨ x ∈ s.objects ∧ x ≠ r := by
  constructor
  · intro hx
    obtain ⟨y, hy, rfl⟩ := List.mem_map.mp hx
    by_cases hname : y.name = r.name
    · rw [if_pos hname, s.eq_of_name_eq hy hr hname]
      exact .inl rfl
    · rw [if_neg hname]
      exact .inr ⟨hy, fun h => hname (h ▸ rfl)⟩
  · rintro (rfl | ⟨hx, hne⟩)
    · exact List.mem_map.mpr ⟨r, hr, if_pos rfl⟩
    · exact List.mem_map.mpr ⟨x, hx, if_neg fun h => hne (s.eq_of_name_eq hx hr h)⟩

theorem mem_create_iff {name : ν} {now : ℕ} {value : β} :
    x ∈ (s.create name now value).objects ↔ x ∈ s.objects ∨
      name ∉ s.objects.map Object.name ∧ x = ⟨name, s.revision, now, s.revision, value⟩ := by
  rw [Store.create]
  split
  · next h =>
    simp only [h, not_true_eq_false, false_and, or_false]
  · next h =>
    simp only [h, not_false_eq_true, true_and, List.mem_append, List.mem_singleton]

theorem revision_create (name : ν) (now : ℕ) (value : β) :
    s.revision ≤ (s.create name now value).revision := by
  rw [Store.create]
  split
  · exact Nat.le_refl s.revision
  · exact Nat.le_succ s.revision

omit [DecidableEq ν] in
theorem mem_remove_iff {p : Object ν β → Bool} :
    x ∈ (s.remove p).objects ↔ x ∈ s.objects ∧ p x = false := by
  simp [Store.remove]

end Writes

/-! ### Snapshots -/

/-- An object that was read: older than the counter, and equal to the one that the store has with
the same name and version, if any. -/
structure Snapshot (s : Store ν β) (o : Object ν β) : Prop where
  version_lt : o.version < s.revision
  eq_of_mem : ∀ x ∈ s.objects, x.name = o.name → x.version = o.version → x = o

namespace Snapshot

variable [DecidableEq ν] {s : Store ν β} {o r : Object ν β}

omit [DecidableEq ν] in
theorem of_mem (h : o ∈ s.objects) : Snapshot s o :=
  ⟨s.version_lt o h, fun _ hx hname _ => s.eq_of_name_eq hx h hname⟩

theorem replace (h : Snapshot s o) (hr : r ∈ s.objects) (value : β) :
    Snapshot (s.replace r.name value) o where
  version_lt := Nat.lt_succ_of_lt h.version_lt
  eq_of_mem x hx hname hversion := by
    rcases (mem_replace_iff hr).mp hx with rfl | ⟨hx, -⟩
    · exact absurd hversion (Nat.ne_of_gt h.version_lt)
    · exact h.eq_of_mem x hx hname hversion

theorem create (h : Snapshot s o) (name : ν) (now : ℕ) (value : β) :
    Snapshot (s.create name now value) o where
  version_lt := Nat.lt_of_lt_of_le h.version_lt (revision_create name now value)
  eq_of_mem x hx hname hversion := by
    rcases mem_create_iff.mp hx with hx | ⟨-, rfl⟩
    · exact h.eq_of_mem x hx hname hversion
    · exact absurd hversion (Nat.ne_of_gt h.version_lt)

omit [DecidableEq ν] in
theorem remove (h : Snapshot s o) (p : Object ν β → Bool) : Snapshot (s.remove p) o where
  version_lt := h.version_lt
  eq_of_mem x hx := h.eq_of_mem x (mem_remove_iff.mp hx).1

end Snapshot

/-- A write of a snapshot with another value is accepted exactly if the store still has the
snapshot, and replaces it. -/
theorem put_eq_some_iff [DecidableEq ν] {s : Store ν β} {o : Object ν β} (h : Snapshot s o)
    {value : β} {res : Store ν β × Object ν β} :
    s.put { o with value := value } = some res ↔ o ∈ s.objects ∧
      res = (s.replace o.name value, { o with version := s.revision, value := value }) := by
  rw [Store.put]
  cases hfind : s.objects.find? fun x => x.name = o.name ∧ x.version = o.version with
  | none =>
    simp only [Option.map_none, reduceCtorEq, false_iff]
    rintro ⟨ho, -⟩
    have := List.find?_eq_none.mp hfind o ho
    simp at this
  | some x =>
    have hx := List.mem_of_find?_eq_some hfind
    have hprop := List.find?_some hfind
    simp only [decide_eq_true_eq] at hprop
    obtain rfl : x = o := h.eq_of_mem x hx hprop.1 hprop.2
    simp only [Option.map_some, Option.some.injEq, hx, true_and]
    exact eq_comm

end Vat.Versioned
