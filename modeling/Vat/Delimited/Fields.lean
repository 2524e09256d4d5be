import Mathlib.Data.List.Basic
import Mathlib.Tactic.Tauto

/-!
# Delimited fields

Lists written as fields with a separator. A text with enough separators is a number of terminated
fields and a remainder, in one way (`exists_terminated`, `terminated_append_inj`), and joining
fields that do not contain the separator loses nothing (`intercalate_inj`).

## Main definitions

* `terminated`: fields, each followed by the separator.
-/

namespace Delimited

variable {α : Type*} {c : α}

/-- The fields, each followed by the separator. -/
def terminated (c : α) (fields : List (List α)) : List α := fields.flatMap (· ++ [c])

@[simp] theorem terminated_nil : terminated c [] = [] := rfl

@[simp] theorem terminated_cons (x : List α) (fields : List (List α)) :
    terminated c (x :: fields) = x ++ c :: terminated c fields := by
  simp [terminated]

/-- A text is what stands before the first separator and after it, in one way. -/
theorem append_cons_inj {x x' s s' : List α} (h : c ∉ x) (h' : c ∉ x') :
    x ++ c :: s = x' ++ c :: s' ↔ x = x' ∧ s = s' := by
  induction x generalizing x' with
  | nil =>
    cases x' with
    | nil => simp
    | cons a x' =>
      rw [List.mem_cons, not_or] at h'
      simp [h'.1]
  | cons a x ih =>
    rw [List.mem_cons, not_or] at h
    cases x' with
    | nil => simp [Ne.symm h.1]
    | cons a' x' =>
      rw [List.mem_cons, not_or] at h'
      simp [ih h.2 h'.2, and_assoc]

/-- A text is what stands before the last separator and after it, in one way. -/
theorem append_cons_inj_right {x x' s s' : List α} (h : c ∉ s) (h' : c ∉ s') :
    x ++ c :: s = x' ++ c :: s' ↔ x = x' ∧ s = s' := by
  constructor
  · intro heq
    have hrev : s.reverse ++ c :: x.reverse = s'.reverse ++ c :: x'.reverse := by
      simpa using congrArg List.reverse heq
    obtain ⟨hs, hx⟩ := (append_cons_inj (by simpa using h) (by simpa using h')).mp hrev
    exact ⟨List.reverse_injective hx, List.reverse_injective hs⟩
  · rintro ⟨rfl, rfl⟩
    rfl

/-- Terminated fields without the separator are read back, and so is what follows them. -/
theorem terminated_append_inj {fields fields' : List (List α)} {s s' : List α}
    (hlen : fields.length = fields'.length) (h : ∀ x ∈ fields, c ∉ x) (h' : ∀ x ∈ fields', c ∉ x)
    (heq : terminated c fields ++ s = terminated c fields' ++ s') : fields = fields' ∧ s = s' := by
  induction fields generalizing fields' with
  | nil =>
    obtain rfl : fields' = [] := List.length_eq_zero_iff.mp hlen.symm
    exact ⟨rfl, heq⟩
  | cons x fields ih =>
    cases fields' with
    | nil => cases hlen
    | cons x' fields' =>
      rw [terminated_cons, terminated_cons, List.append_assoc, List.append_assoc,
        List.cons_append, List.cons_append] at heq
      obtain ⟨rfl, htail⟩ := (append_cons_inj (h x List.mem_cons_self)
        (h' x' List.mem_cons_self)).mp heq
      obtain ⟨rfl, hs⟩ := ih (Nat.succ.inj hlen) (fun y hy => h y (List.mem_cons_of_mem _ hy))
        (fun y hy => h' y (List.mem_cons_of_mem _ hy)) htail
      exact ⟨rfl, hs⟩

/-- Joined fields are the first one and the others, each after a separator. -/
theorem intercalate_cons (x : List α) (fields : List (List α)) :
    [c].intercalate (x :: fields) = x ++ fields.flatMap (c :: ·) := by
  induction fields generalizing x with
  | nil => simp
  | cons y fields ih => rw [List.intercalate_cons_cons, ih, List.flatMap_cons]; simp

/-- Joining after terminated fields. -/
theorem intercalate_append_cons (fields : List (List α)) (x : List α) (tail : List (List α)) :
    [c].intercalate (fields ++ x :: tail) = terminated c fields ++ [c].intercalate (x :: tail) := by
  induction fields with
  | nil => rfl
  | cons y fields ih =>
    rw [List.cons_append, List.intercalate_cons_of_ne_nil (by simp), ih, terminated_cons]
    simp

variable [BEq α] [LawfulBEq α]

/-- Splitting after terminated fields. -/
theorem splitOn_terminated_append {fields : List (List α)} (h : ∀ x ∈ fields, c ∉ x) (s : List α) :
    (terminated c fields ++ s).splitOn c = fields ++ s.splitOn c := by
  induction fields with
  | nil => rfl
  | cons x fields ih =>
    rw [terminated_cons, List.append_assoc, List.cons_append,
      List.splitOn_append_cons_self_of_not_mem (h x List.mem_cons_self),
      ih fun y hy => h y (List.mem_cons_of_mem _ hy), List.cons_append]

/-- What stands before the first separator moves into the first field. -/
theorem splitOn_append_of_notMem {x : List α} (h : c ∉ x) (s : List α) :
    (x ++ s).splitOn c = (s.splitOn c).modifyHead (x ++ ·) := by
  induction x with
  | nil =>
    rw [List.nil_append]
    cases s.splitOn c <;> rfl
  | cons a x ih =>
    rw [List.mem_cons, not_or] at h
    rw [List.cons_append, List.splitOn_cons_eq_if_modifyHead, ih h.2,
      if_neg (by simpa using Ne.symm h.1), List.modifyHead_modifyHead]
    rfl

/-- A field of a split does not contain the separator. -/
theorem notMem_of_mem_splitOn {s x : List α} (h : x ∈ s.splitOn c) : c ∉ x := by
  induction s generalizing x with
  | nil =>
    rw [List.splitOn_nil, List.mem_singleton] at h
    exact h ▸ List.not_mem_nil
  | cons a s ih =>
    rw [List.splitOn_cons_eq_if_modifyHead] at h
    obtain ⟨y, fields, hs⟩ := List.exists_cons_of_ne_nil (List.splitOn_ne_nil c s)
    rw [hs] at h ih
    split_ifs at h with ha
    · rcases List.mem_cons.mp h with rfl | h
      · exact List.not_mem_nil
      · exact ih h
    · rw [List.modifyHead_cons] at h
      rcases List.mem_cons.mp h with rfl | h
      · rw [List.mem_cons, not_or]
        exact ⟨fun hc => ha (beq_iff_eq.mpr hc.symm), ih List.mem_cons_self⟩
      · exact ih (List.mem_cons_of_mem _ h)

/-- A text with more than `n` fields starts with `n` terminated ones. -/
theorem exists_terminated {s : List α} {n : ℕ} (h : n < (s.splitOn c).length) :
    ∃ fields t, fields.length = n ∧ (∀ x ∈ fields, c ∉ x) ∧ s = terminated c fields ++ t := by
  have hdrop : (s.splitOn c).drop n ≠ [] := by
    rw [Ne, List.drop_eq_nil_iff]
    omega
  obtain ⟨x, tail, htail⟩ := List.exists_cons_of_ne_nil hdrop
  refine ⟨(s.splitOn c).take n, [c].intercalate (x :: tail), ?_, ?_, ?_⟩
  · rw [List.length_take]
    omega
  · exact fun y hy => notMem_of_mem_splitOn (List.mem_of_mem_take hy)
  · rw [← intercalate_append_cons, ← htail, List.take_append_drop, List.intercalate_splitOn]

/-- Joined fields without the separator are read back. -/
theorem intercalate_inj {fields fields' : List (List α)} (hne : fields ≠ []) (hne' : fields' ≠ [])
    (h : ∀ x ∈ fields, c ∉ x) (h' : ∀ x ∈ fields', c ∉ x)
    (heq : [c].intercalate fields = [c].intercalate fields') : fields = fields' := by
  rw [← List.splitOn_intercalate c h hne, heq, List.splitOn_intercalate c h' hne']

end Delimited
