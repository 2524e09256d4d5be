import Mathlib.Data.List.Nodup

/-!
# The latest write to a key

A log of writes to keys, the newest first. A write gives its key a value or takes it away. Values
have labels, such as the secrets in them, and every label is written at most once.

## Main definitions

* `latest`: the value that the writes leave for a key.
* `labels`, `Retired`: the labels of the values, and those whose key was written again.

## Main results

* `eq_of_latest`: two keys do not have values with one label.
* `label_ne_of_retired`: no key has a value with a retired label.
-/

namespace Keyed

variable {κ α τ : Type*}

section Latest

variable [DecidableEq κ]

/-- The value that a log leaves for a key. -/
def latest : List (κ × Option α) → κ → Option α
  | [], _ => none
  | e :: log, k => if k = e.1 then e.2 else latest log k

theorem mem_of_latest {log : List (κ × Option α)} {k : κ} {v : α} (h : latest log k = some v) :
    (k, some v) ∈ log := by
  induction log with
  | nil => cases h
  | cons e log ih =>
    rw [latest] at h
    split_ifs at h with hk
    · rw [hk, ← h]
      exact List.mem_cons_self
    · exact List.mem_cons_of_mem _ (ih h)

end Latest

variable (label : α → τ)

/-- The labels of the values of a log. -/
def labels (log : List (κ × Option α)) : List τ := log.filterMap fun e => e.2.map label

/-- The key of a value with this label was written again. -/
def Retired : List (κ × Option α) → τ → Prop
  | [], _ => False
  | e :: log, t => Retired log t ∨ ∃ v, label v = t ∧ (e.1, some v) ∈ log

variable {label} {log : List (κ × Option α)}

theorem labels_cons (e : κ × Option α) :
    labels label (e :: log) = (e.2.map label).toList ++ labels label log := by
  rw [labels, List.filterMap_cons]
  cases e.2 with
  | none => rfl
  | some v => rfl

theorem mem_labels {k : κ} {v : α} (h : (k, some v) ∈ log) : label v ∈ labels label log :=
  List.mem_filterMap.mpr ⟨(k, some v), h, rfl⟩

theorem Retired.mem {t : τ} (h : Retired label log t) : t ∈ labels label log := by
  induction log with
  | nil => cases h
  | cons e log ih =>
    rw [labels_cons]
    refine List.mem_append_right _ ?_
    obtain h | ⟨v, rfl, hv⟩ := h
    · exact ih h
    · exact mem_labels hv

/-- A label is written at most once. -/
theorem key_eq_of_mem (hlog : (labels label log).Nodup) {k k' : κ} {v v' : α}
    (h : (k, some v) ∈ log) (h' : (k', some v') ∈ log) (hlabel : label v = label v') : k = k' := by
  induction log with
  | nil => cases h
  | cons e log ih =>
    rw [labels_cons, List.nodup_append] at hlog
    obtain ⟨-, hlog, hdisjoint⟩ := hlog
    rcases List.mem_cons.mp h with rfl | hmem
    · rcases List.mem_cons.mp h' with heq | hmem'
      · cases heq
        rfl
      · exact absurd hlabel (hdisjoint _ (List.mem_singleton_self _) _ (mem_labels hmem'))
    · rcases List.mem_cons.mp h' with rfl | hmem'
      · exact absurd hlabel.symm (hdisjoint _ (List.mem_singleton_self _) _ (mem_labels hmem))
      · exact ih hlog hmem hmem'

variable [DecidableEq κ]

theorem eq_of_latest (hlog : (labels label log).Nodup) {k k' : κ} {v v' : α}
    (h : latest log k = some v) (h' : latest log k' = some v') (hlabel : label v = label v') :
    k = k' :=
  key_eq_of_mem hlog (mem_of_latest h) (mem_of_latest h') hlabel

/-- A value whose key was written again is not the latest of any key. -/
theorem label_ne_of_retired (hlog : (labels label log).Nodup) {t : τ} (ht : Retired label log t)
    {k : κ} {v : α} (h : latest log k = some v) : label v ≠ t := by
  induction log with
  | nil => cases h
  | cons e log ih =>
    rintro rfl
    rw [labels_cons, List.nodup_append] at hlog
    obtain ⟨-, hlog, hdisjoint⟩ := hlog
    have hmem : label v ∈ labels label log := by
      obtain ht | ⟨v', hv', hmem⟩ := ht
      · exact ht.mem
      · exact hv' ▸ mem_labels hmem
    rw [latest] at h
    split_ifs at h with hk
    · exact hdisjoint (label v) (by rw [h]; exact List.mem_singleton_self _) (label v) hmem rfl
    · obtain ht | ⟨v', hv', hmem'⟩ := ht
      · exact ih hlog ht h rfl
      · exact hk (key_eq_of_mem hlog (mem_of_latest h) hmem' hv'.symm)

end Keyed
