import Mathlib.Algebra.Order.Field.Basic
import Mathlib.Algebra.Order.Ring.Defs
import Mathlib.Data.List.Sort
import Mathlib.Data.Nat.Cast.Order.Ring
import Mathlib.Tactic.Linarith

/-!
# Sorted lists

Two elements inserted into the same sorted list: when the results are alike under a function. The
insertions agree exactly if the elements look alike and nothing between their places looks
different.

A list of items, the latest first, each with a time and a gap that it keeps free after itself. When
every item comes after the gaps of all before it, the first and the last item are at least the sum
of the gaps between them apart, and few items fit into a window.

## Main definitions

* `Spaced time free l`: every item of `l` comes after what each item before it keeps free.

## Main results

* `insertionSort_eq_of_perm`: a sorted list does not depend on the order of what was sorted.
* `insertionSort_filter`: elements can be left out before or after.
* `map_orderedInsert_eq_iff`: insertions of two elements that look alike.
* `flatten_inj_of_length`: pieces of one length are determined by their concatenation.
* `Spaced.span`: how far apart the first and the last item are.
* `Spaced.length_lt`: how many items have their times in a window.
-/

namespace Sorted

variable {α β : Type*}

/-- A list whose members can be shifted by one. -/
theorem cons_eq_concat_iff {c c' : β} {l : List β} :
    c :: l = l ++ [c'] ↔ c = c' ∧ ∀ x ∈ l, x = c := by
  induction l generalizing c with
  | nil => simp
  | cons d l ih =>
    rw [List.cons_append, List.cons.injEq, ih, List.forall_mem_cons]
    constructor
    · rintro ⟨rfl, rfl, hl⟩
      exact ⟨rfl, rfl, hl⟩
    · rintro ⟨rfl, rfl, hl⟩
      exact ⟨rfl, rfl, hl⟩

/-- Pieces of one length, and as many others of any length, with the same concatenation. -/
theorem flatten_inj_of_length {n : ℕ} {l l' : List (List β)} (hl : ∀ x ∈ l, x.length = n)
    (hl' : ∀ x ∈ l', x.length = n) (hlen : l.length = l'.length) (h : l.flatten = l'.flatten) :
    l = l' := by
  induction l generalizing l' with
  | nil => exact (List.length_eq_zero_iff.mp hlen.symm).symm
  | cons x l ih =>
    cases l' with
    | nil => cases hlen
    | cons y l' =>
      rw [List.forall_mem_cons] at hl hl'
      rw [List.flatten_cons, List.flatten_cons] at h
      obtain ⟨rfl, hrest⟩ := List.append_inj h (hl.1.trans hl'.1.symm)
      rw [ih hl.2 hl'.2 (Nat.succ.inj hlen) hrest]

variable {r : α → α → Prop} [DecidableRel r]

/-- A sorted list does not depend on the order of what was sorted. -/
theorem insertionSort_eq_of_perm [Std.Total r] [IsTrans α r] {l l' : List α} (h : l.Perm l')
    (hanti : ∀ a ∈ l, ∀ b ∈ l, r a b → r b a → a = b) :
    l.insertionSort r = l'.insertionSort r := by
  refine List.Perm.eq_of_pairwise ?_ (List.pairwise_insertionSort r l)
    (List.pairwise_insertionSort r l')
    ((List.perm_insertionSort r l).trans (h.trans (List.perm_insertionSort r l').symm))
  intro a b ha hb
  rw [List.mem_insertionSort] at ha hb
  exact hanti a ha b (h.mem_iff.mpr hb)

/-- What is left out before sorting can be left out afterwards. -/
theorem insertionSort_filter [Std.Total r] [IsTrans α r] {l : List α}
    (hanti : ∀ a ∈ l, ∀ b ∈ l, r a b → r b a → a = b) (p : α → Bool) :
    (l.filter p).insertionSort r = (l.insertionSort r).filter p := by
  refine List.Perm.eq_of_pairwise (fun a b ha hb => ?_) (List.pairwise_insertionSort r _)
    ((List.pairwise_insertionSort r l).filter p)
    ((List.perm_insertionSort r _).trans ((List.perm_insertionSort r l).symm.filter p))
  rw [List.mem_insertionSort] at ha
  exact hanti a (List.mem_filter.mp ha).1 b
    ((List.mem_insertionSort r).mp (List.mem_filter.mp hb).1)

section Insert

variable [Std.Total r] [IsTrans α r] {l : List α} {e e' : α}

omit [Std.Total r] in
/-- What stands before the place of an element. -/
theorem mem_takeWhile_iff (hl : l.Pairwise r) {f : α} :
    f ∈ l.takeWhile (fun b => ¬ r e b) ↔ f ∈ l ∧ ¬ r e f := by
  induction l with
  | nil => simp
  | cons a l ih =>
    rw [List.pairwise_cons] at hl
    by_cases ha : r e a
    · rw [List.takeWhile_cons_of_neg (by simpa using ha)]
      refine iff_of_false List.not_mem_nil ?_
      rintro ⟨hf, hnot⟩
      rcases List.mem_cons.mp hf with rfl | hf
      · exact hnot ha
      · exact hnot (IsTrans.trans e a f ha (hl.1 f hf))
    · rw [List.takeWhile_cons_of_pos (by simpa using ha), List.mem_cons, ih hl.2, List.mem_cons]
      constructor
      · rintro (rfl | ⟨hf, hnot⟩)
        · exact ⟨.inl rfl, ha⟩
        · exact ⟨.inr hf, hnot⟩
      · rintro ⟨rfl | hf, hnot⟩
        · exact .inl rfl
        · exact .inr ⟨hf, hnot⟩

omit [Std.Total r] in
/-- The list as the part before the place of an element and the part after it. -/
theorem mem_dropWhile_iff (hl : l.Pairwise r) (hnodup : l.Nodup) {f : α} :
    f ∈ l.dropWhile (fun b => ¬ r e b) ↔ f ∈ l ∧ r e f := by
  have hsplit := List.takeWhile_append_dropWhile (p := fun b => decide (¬ r e b)) (l := l)
  have hdisjoint := List.disjoint_of_nodup_append (hsplit.symm ▸ hnodup)
  have hmem : f ∈ l ↔ f ∈ l.takeWhile (fun b => ¬ r e b) ∨ f ∈ l.dropWhile (fun b => ¬ r e b) := by
    rw [← List.mem_append, hsplit]
  constructor
  · intro hf
    refine ⟨hmem.mpr (.inr hf), ?_⟩
    by_contra hnot
    exact hdisjoint ((mem_takeWhile_iff hl).mpr ⟨hmem.mpr (.inr hf), hnot⟩) hf
  · rintro ⟨hf, her⟩
    exact (hmem.mp hf).resolve_left fun htake => ((mem_takeWhile_iff hl).mp htake).2 her

/-- Insertions of an element and of a later one look alike exactly if the elements do and whatever
stands between their places looks the same. -/
private theorem map_orderedInsert_eq_iff_of_le (hl : l.Pairwise r) (hnodup : l.Nodup)
    (he' : ∀ f ∈ l, r e' f → ¬ r f e') (hle : r e e') (look : α → β) :
    (l.orderedInsert r e).map look = (l.orderedInsert r e').map look ↔
      look e = look e' ∧ ∀ f ∈ l, r e f → r f e' → look f = look e := by
  rw [List.orderedInsert_eq_take_drop, List.orderedInsert_eq_take_drop]
  -- `mid` stands between the two places
  obtain ⟨mid, hmid⟩ : l.takeWhile (fun b => ¬ r e b) <+: l.takeWhile fun b => ¬ r e' b := by
    refine List.prefix_of_prefix_length_le (List.takeWhile_prefix _) (List.takeWhile_prefix _) ?_
    refine List.Nodup.length_le_of_subset (hnodup.sublist (List.takeWhile_sublist _)) fun f hf => ?_
    obtain ⟨hf, hnot⟩ := (mem_takeWhile_iff hl).mp hf
    exact (mem_takeWhile_iff hl).mpr ⟨hf, fun h => hnot (IsTrans.trans e e' f hle h)⟩
  have hdrop : l.dropWhile (fun b => ¬ r e b) = mid ++ l.dropWhile fun b => ¬ r e' b := by
    refine @List.append_cancel_left _ (l.takeWhile fun b => ¬ r e b) _ _ ?_
    rw [← List.append_assoc, hmid, List.takeWhile_append_dropWhile, List.takeWhile_append_dropWhile]
  have hbetween : ∀ f, f ∈ mid ↔ f ∈ l ∧ r e f ∧ r f e' := by
    intro f
    constructor
    · intro hf
      have hbefore : f ∈ l.takeWhile fun b => ¬ r e' b := hmid ▸ List.mem_append_right _ hf
      have hafter : f ∈ l.dropWhile fun b => ¬ r e b := hdrop ▸ List.mem_append_left _ hf
      obtain ⟨hfl, hnot⟩ := (mem_takeWhile_iff hl).mp hbefore
      exact ⟨hfl, ((mem_dropWhile_iff hl hnodup).mp hafter).2, (Std.Total.total e' f).resolve_left hnot⟩
    · rintro ⟨hf, hef, hfe'⟩
      have hafter := (mem_dropWhile_iff hl hnodup).mpr ⟨hf, hef⟩
      rw [hdrop, List.mem_append] at hafter
      exact hafter.resolve_right fun h =>
        he' f hf ((mem_dropWhile_iff hl hnodup).mp h).2 hfe'
  rw [← hmid, hdrop, List.map_append, List.map_cons, List.map_append, List.map_append, List.map_append,
    List.map_cons, List.append_assoc, List.append_cancel_left_eq, ← List.cons_append,
    List.append_cons (mid.map look), List.append_cancel_right_eq, cons_eq_concat_iff, List.forall_mem_map]
  simp only [hbetween, and_imp]

/-- Insertions of two elements look alike exactly if the elements do and whatever stands between
their places looks the same. -/
theorem map_orderedInsert_eq_iff (hl : l.Pairwise r) (hnodup : l.Nodup)
    (he : ∀ f ∈ l, r e f → ¬ r f e) (he' : ∀ f ∈ l, r e' f → ¬ r f e') (look : α → β) :
    (l.orderedInsert r e).map look = (l.orderedInsert r e').map look ↔
      look e = look e' ∧ ∀ f ∈ l, r e f ∧ r f e' ∨ r e' f ∧ r f e → look f = look e := by
  rcases Std.Total.total (r := r) e e' with hle | hle
  · rw [map_orderedInsert_eq_iff_of_le hl hnodup he' hle]
    refine and_congr_right fun _ => forall₂_congr fun f hf => ?_
    have hno : ¬ (r e' f ∧ r f e) := fun h => he' f hf h.1 (IsTrans.trans f e e' h.2 hle)
    rw [or_iff_left hno, and_imp]
  · rw [eq_comm, map_orderedInsert_eq_iff_of_le hl hnodup he hle, eq_comm]
    refine and_congr_right fun hlook => forall₂_congr fun f hf => ?_
    have hno : ¬ (r e f ∧ r f e') := fun h => he f hf h.1 (IsTrans.trans f e' e h.2 hle)
    rw [or_iff_right hno, and_imp, hlook]

end Insert

end Sorted

namespace Sorted

/-! ### Lists of times that lie a gap apart -/

variable {α β : Type*}

/-- Every item of a list, the latest first, comes no earlier than each item before it is done. -/
def Spaced [LE α] (time free : β → α) (l : List β) : Prop :=
  l.Pairwise fun later earlier => free earlier ≤ time later

instance [LE α] [DecidableLE α] (time free : β → α) (l : List β) : Decidable (Spaced time free l) :=
  inferInstanceAs (Decidable (l.Pairwise _))

theorem spaced_cons [LE α] {time free : β → α} {x : β} {l : List β} :
    Spaced time free (x :: l) ↔ (∀ y ∈ l, free y ≤ time x) ∧ Spaced time free l :=
  List.pairwise_cons

theorem Spaced.sublist [LE α] {time free : β → α} {l l' : List β} (h : Spaced time free l)
    (hl : l'.Sublist l) : Spaced time free l' :=
  List.Pairwise.sublist hl h

variable [Field α] [LinearOrder α] [IsStrictOrderedRing α] {time free : β → α} {gap : α}

/-- The first item of a spaced list comes at least as many gaps after the last as there are items
before it. -/
theorem Spaced.span {x z : β} {l : List β} (h : Spaced time free (x :: (l ++ [z])))
    (hgap : ∀ y ∈ l ++ [z], time y + gap ≤ free y) : time z + (l.length + 1) * gap ≤ time x := by
  induction l generalizing x with
  | nil =>
    have hz : free z ≤ time x := (spaced_cons.mp h).1 z List.mem_cons_self
    have := hgap z List.mem_cons_self
    simp only [List.length_nil, Nat.cast_zero, zero_add, one_mul]
    exact this.trans hz
  | cons y l ih =>
    obtain ⟨hx, hrest⟩ := spaced_cons.mp h
    have hy : time z + (l.length + 1) * gap ≤ time y :=
      ih hrest fun y' hy' => hgap y' (List.mem_cons_of_mem y hy')
    have hxy : time y + gap ≤ time x :=
      (hgap y List.mem_cons_self).trans (hx y List.mem_cons_self)
    rw [List.length_cons, Nat.cast_succ]
    linarith

/-- A spaced list whose times lie in a window that is not empty. -/
theorem Spaced.length_lt {l : List β} {a b : α} (h : Spaced time free l)
    (hgap : ∀ y ∈ l, time y + gap ≤ free y) (hpos : 0 < gap) (ha : ∀ y ∈ l, a ≤ time y)
    (hb : ∀ y ∈ l, time y < b) (hab : a < b) : l.length * gap < b - a + gap := by
  rcases l with _ | ⟨x, l⟩
  · simp only [List.length_nil, Nat.cast_zero, zero_mul]
    linarith
  · have hx := hb x List.mem_cons_self
    rcases List.eq_nil_or_concat l with rfl | ⟨l, z, rfl⟩
    · simp only [List.length_cons, List.length_nil, zero_add, Nat.cast_one, one_mul]
      linarith
    · rw [List.concat_eq_append] at *
      have hz := ha z (by simp)
      have hspan := h.span fun y hy => hgap y (List.mem_cons_of_mem x hy)
      simp only [List.length_cons, List.length_append, List.length_nil, Nat.cast_add,
        Nat.cast_one, zero_add]
      linarith

end Sorted
