import Mathlib.Data.List.Basic
import Mathlib.Logic.Function.Basic

/-!
# Nested values

Values made of dictionaries, lists and tuples, the removal of keys from them, and which keys it
leaves. A dictionary is its keys in order with a value for each.

Removing keys goes into dictionaries and lists, not into tuples, so a value has a removed key
afterwards exactly if it had one inside a tuple (`Value.hasKey_strip_iff`).

## Main definitions

* `Nested.Value`, `Nested.Dict`.
* `Nested.Value.HasKey`, `Nested.Value.HasHiddenKey`, `Nested.Value.strip`.

## Main results

* `Nested.Value.hasKey_strip_iff`, `Nested.Value.TupleFree.not_hasKey_strip`.
* `Nested.Dict.hasKey_set_without_iff`: the keys of a dictionary in which a value is set.
-/

namespace Nested

inductive Value (κ α : Type*)
  | atom (a : α)
  | dict (keys : List κ) (value : κ → Value κ α)
  | list (length : ℕ) (item : ℕ → Value κ α)
  | tuple (length : ℕ) (item : ℕ → Value κ α)

variable {κ α : Type*} (p : κ → Prop)

namespace Value

/-- Some dictionary in the value, at any depth, has a key that `p` holds of. -/
def HasKey : Value κ α → Prop
  | .atom _ => False
  | .dict keys value => ∃ k ∈ keys, p k ∨ (value k).HasKey
  | .list n item | .tuple n item => ∃ i < n, (item i).HasKey

/-- Some tuple that is reached without passing such a key, or another tuple, has one in it. -/
def HasHiddenKey : Value κ α → Prop
  | .atom _ => False
  | .dict keys value => ∃ k ∈ keys, ¬ p k ∧ (value k).HasHiddenKey
  | .list n item => ∃ i < n, (item i).HasHiddenKey
  | .tuple n item => ∃ i < n, (item i).HasKey p

/-- There is no tuple in the value. -/
def TupleFree : Value κ α → Prop
  | .atom _ => True
  | .dict keys value => ∀ k ∈ keys, (value k).TupleFree
  | .list n item => ∀ i < n, (item i).TupleFree
  | .tuple _ _ => False

instance HasKey.decidable [DecidablePred p] : ∀ v : Value κ α, Decidable (v.HasKey p)
  | .atom _ => inferInstanceAs (Decidable False)
  | .dict keys value =>
    haveI := fun k => HasKey.decidable (value k)
    inferInstanceAs (Decidable (∃ k ∈ keys, p k ∨ (value k).HasKey p))
  | .list n item | .tuple n item =>
    haveI := fun i => HasKey.decidable (item i)
    inferInstanceAs (Decidable (∃ i < n, (item i).HasKey p))

/-- Remove the keys that `p` holds of, in dictionaries and lists. -/
def strip [DecidablePred p] : Value κ α → Value κ α
  | .atom a => .atom a
  | .dict keys value => .dict (keys.filter fun k => ¬ p k) fun k => (value k).strip
  | .list n item => .list n fun i => (item i).strip
  | .tuple n item => .tuple n item

variable {p}

/-- What is left of the keys is in tuples. -/
theorem hasKey_strip_iff [DecidablePred p] {v : Value κ α} :
    (v.strip p).HasKey p ↔ v.HasHiddenKey p := by
  induction v with
  | atom a => rfl
  | dict keys value ih =>
    simp only [strip, HasKey, HasHiddenKey, ih, List.mem_filter, decide_eq_true_eq, and_assoc]
    exact exists_congr fun k => and_congr_right fun _ => and_congr_right fun hk => or_iff_right hk
  | list n item ih =>
    simp only [strip, HasKey, HasHiddenKey, ih]
  | tuple n item ih => rfl

theorem TupleFree.not_hasHiddenKey {v : Value κ α} (h : v.TupleFree) : ¬ v.HasHiddenKey p := by
  induction v with
  | atom a => exact id
  | dict keys value ih =>
    rintro ⟨k, hk, -, hv⟩
    exact ih k (h k hk) hv
  | list n item ih =>
    rintro ⟨i, hi, hv⟩
    exact ih i (h i hi) hv
  | tuple n item ih => exact h.elim

/-- Without tuples no key is left. -/
theorem TupleFree.not_hasKey_strip [DecidablePred p] {v : Value κ α} (h : v.TupleFree) :
    ¬ (v.strip p).HasKey p := fun hkey => h.not_hasHiddenKey (hasKey_strip_iff.mp hkey)

end Value

/-! ### Dictionaries -/

/-- A dictionary: its keys in order, with the values of its keys. -/
structure Dict (κ α : Type*) where
  keys : List κ
  value : κ → Value κ α

namespace Dict

def toValue (d : Dict κ α) : Value κ α := .dict d.keys d.value

variable {p}

theorem hasKey_toValue_iff {d : Dict κ α} :
    d.toValue.HasKey p ↔ ∃ k ∈ d.keys, p k ∨ (d.value k).HasKey p := Iff.rfl

variable [DecidableEq κ] {d : Dict κ α} {k k' : κ} {v : Value κ α} {ks : List κ}

def get (d : Dict κ α) (k : κ) : Option (Value κ α) :=
  if k ∈ d.keys then some (d.value k) else none

def set (d : Dict κ α) (k : κ) (v : Value κ α) : Dict κ α where
  keys := if k ∈ d.keys then d.keys else d.keys ++ [k]
  value := Function.update d.value k v

/-- The dictionary without some keys. -/
def without (d : Dict κ α) (ks : List κ) : Dict κ α where
  keys := d.keys.filter (· ∉ ks)
  value := d.value

@[simp] theorem set_value_self : (d.set k v).value k = v := Function.update_self ..

@[simp] theorem set_value_of_ne (h : k' ≠ k) : (d.set k v).value k' = d.value k' :=
  Function.update_of_ne h ..

@[simp] theorem without_value : (d.without ks).value = d.value := rfl

@[simp] theorem mem_keys_without : k ∈ (d.without ks).keys ↔ k ∈ d.keys ∧ k ∉ ks := by
  rw [without, List.mem_filter, decide_eq_true_eq]

@[simp] theorem mem_keys_set : k' ∈ (d.set k v).keys ↔ k' = k ∨ k' ∈ d.keys := by
  rw [set]
  by_cases hk : k ∈ d.keys
  · rw [if_pos hk]
    exact ⟨.inr, fun h => h.elim (fun heq => heq ▸ hk) id⟩
  · rw [if_neg hk, List.mem_append, List.mem_singleton, or_comm]

@[simp] theorem without_self : (d.without ks).without ks = d.without ks := by
  simp [without, List.filter_filter]

theorem hasKey_without_nil : (d.without []).toValue.HasKey p ↔ d.toValue.HasKey p := by
  simp [hasKey_toValue_iff]

/-- The keys of a dictionary in which a value is set. -/
theorem hasKey_set_without_iff :
    ((d.set k v).without ks).toValue.HasKey p ↔
      k ∉ ks ∧ (p k ∨ v.HasKey p) ∨ (d.without (k :: ks)).toValue.HasKey p := by
  simp only [hasKey_toValue_iff, mem_keys_without, mem_keys_set, without_value, List.mem_cons,
    not_or]
  constructor
  · rintro ⟨j, ⟨hj, hjs⟩, h⟩
    by_cases heq : j = k
    · rw [heq, set_value_self] at h
      exact .inl ⟨heq ▸ hjs, heq ▸ h⟩
    · rw [set_value_of_ne heq] at h
      exact .inr ⟨j, ⟨hj.resolve_left heq, heq, hjs⟩, h⟩
  · rintro (⟨hk, h⟩ | ⟨j, ⟨hj, hne, hjs⟩, h⟩)
    · exact ⟨k, ⟨.inl rfl, hk⟩, by rwa [set_value_self]⟩
    · exact ⟨j, ⟨.inr hj, hjs⟩, by rwa [set_value_of_ne hne]⟩

theorem hasKey_set_iff :
    (d.set k v).toValue.HasKey p ↔ (p k ∨ v.HasKey p) ∨ (d.without [k]).toValue.HasKey p := by
  rw [← hasKey_without_nil, hasKey_set_without_iff]
  simp

/-- What a key has, and what the others have. -/
theorem hasKey_iff_without (hk : k ∈ d.keys) :
    d.toValue.HasKey p ↔
      (p k ∨ (d.value k).HasKey p) ∨ (d.without [k]).toValue.HasKey p := by
  simp only [hasKey_toValue_iff, mem_keys_without, without_value, List.mem_singleton]
  constructor
  · rintro ⟨j, hj, h⟩
    by_cases heq : j = k
    · exact .inl (heq ▸ h)
    · exact .inr ⟨j, ⟨hj, heq⟩, h⟩
  · rintro (h | ⟨j, ⟨hj, -⟩, h⟩)
    · exact ⟨k, hk, h⟩
    · exact ⟨j, hj, h⟩

end Dict

end Nested
