import Mathlib.Data.List.TakeDrop
import Mathlib.Data.Nat.Find
import Mathlib.Data.Nat.Notation

/-!
# Windows of a list, and cursors

The part of a list that `OFFSET` and `LIMIT` leave. Windows of one size that follow on each other
are the list. A cursor goes round a list: each step advances it by some entries, and it starts again
at the first entry after the last.

## Main definitions

* `Paged.window`.
* `Paged.ahead`: how far an entry is ahead of a cursor.
* `Paged.wrapped`: the entries from the cursor on, and the first ones again after the last.

## Main results

* `flatMap_window`: the windows one after the other.
* `mem_take_filter`: an entry among the first of a selection is among the first of a smaller one.
* `exists_passed`: a cursor that keeps advancing passes every entry again and again.
* `mem_wrapped`: the entries that are not far ahead are in the window.
-/

namespace Paged

variable {α : Type*} {l : List α}

/-- `l[offset : offset + limit]`. -/
def window (offset limit : ℕ) (l : List α) : List α := (l.drop offset).take limit

theorem length_window (offset limit : ℕ) (l : List α) :
    (window offset limit l).length = min limit (l.length - offset) := by
  rw [window, List.length_take, List.length_drop]

/-- Behind the end there is nothing. -/
theorem window_of_length_le {offset : ℕ} (h : l.length ≤ offset) (limit : ℕ) :
    window offset limit l = [] := by
  rw [window, List.drop_of_length_le h, List.take_nil]

theorem take_add_window (k limit : ℕ) : l.take k ++ window k limit l = l.take (k + limit) :=
  List.take_add.symm

theorem flatMap_window_eq_take (limit n : ℕ) :
    ((List.range n).flatMap fun i => window (i * limit) limit l) = l.take (n * limit) := by
  induction n with
  | zero => simp
  | succ n ih =>
    rw [List.range_succ, List.flatMap_append, ih, List.flatMap_singleton, take_add_window,
      Nat.succ_mul]

/-- The windows one after the other are the list, if there are enough of them. -/
theorem flatMap_window {limit n : ℕ} (h : l.length ≤ n * limit) :
    ((List.range n).flatMap fun i => window (i * limit) limit l) = l := by
  rw [flatMap_window_eq_take, List.take_of_length_le h]

/-- An entry among the first of a selection is among the first of a smaller one. -/
theorem mem_take_filter {p q : α → Bool} (hpq : ∀ a, q a → p a) {a : α} (hq : q a) {limit : ℕ}
    (h : a ∈ (l.filter p).take limit) : a ∈ (l.filter q).take limit := by
  induction l generalizing limit with
  | nil => exact h
  | cons b l ih =>
    cases limit with
    | zero => exact absurd h List.not_mem_nil
    | succ limit =>
      by_cases hqb : q b
      · rw [List.filter_cons_of_pos (hpq b hqb), List.take_succ_cons] at h
        rw [List.filter_cons_of_pos hqb, List.take_succ_cons]
        exact List.mem_cons.mpr ((List.mem_cons.mp h).imp_right ih)
      · rw [List.filter_cons_of_neg hqb]
        by_cases hpb : p b
        · rw [List.filter_cons_of_pos hpb, List.take_succ_cons] at h
          rcases List.mem_cons.mp h with rfl | h
          · exact absurd hq hqb
          · exact (List.take_sublist_take_left (Nat.le_succ limit)).subset (ih h)
        · rw [List.filter_cons_of_neg hpb] at h
          exact ih h

end Paged

namespace Paged

/-! ### Cursors -/

/-- How many entries from the cursor on come before entry `i` of `n`. -/
def ahead (n cursor i : ℕ) : ℕ := (i + n - cursor) % n

theorem ahead_of_le {n cursor i : ℕ} (hi : i < n) (h : cursor ≤ i) :
    ahead n cursor i = i - cursor := by
  rw [ahead, show i + n - cursor = i - cursor + n by omega, Nat.add_mod_right,
    Nat.mod_eq_of_lt (by omega)]

theorem ahead_of_lt {n cursor i : ℕ} (hcursor : cursor < n) (h : i < cursor) :
    ahead n cursor i = i + n - cursor := by
  rw [ahead, Nat.mod_eq_of_lt (by omega)]

/-- A step that does not pass an entry brings it closer. -/
theorem ahead_advance {n cursor i a : ℕ} (hcursor : cursor < n) (hi : i < n)
    (ha : a ≤ ahead n cursor i) : ahead n ((cursor + a) % n) i = ahead n cursor i - a := by
  rcases Nat.lt_or_ge i cursor with h | h
  · rw [ahead_of_lt hcursor h] at ha ⊢
    rcases Nat.lt_or_ge (cursor + a) n with hround | hround
    · rw [Nat.mod_eq_of_lt hround, ahead_of_lt hround (by omega)]
      omega
    · rw [Nat.mod_eq_sub_mod hround, Nat.mod_eq_of_lt (by omega), ahead_of_le hi (by omega)]
      omega
  · rw [ahead_of_le hi h] at ha ⊢
    rw [Nat.mod_eq_of_lt (by omega), ahead_of_le hi (by omega)]
    omega

section Run

variable {n i : ℕ} {cursor advance : ℕ → ℕ}

theorem cursor_lt (hcursor : cursor 0 < n)
    (hstep : ∀ k, cursor (k + 1) = (cursor k + advance k) % n) (k : ℕ) : cursor k < n := by
  cases k with
  | zero => exact hcursor
  | succ k =>
    rw [hstep k]
    exact Nat.mod_lt _ (Nat.zero_lt_of_lt hcursor)

/-- A cursor that keeps advancing passes every entry again and again. -/
theorem exists_passed (hcursor : cursor 0 < n)
    (hstep : ∀ k, cursor (k + 1) = (cursor k + advance k) % n)
    (hadvance : ∀ k, ∃ m ≥ k, 0 < advance m) (hi : i < n) (k : ℕ) :
    ∃ m ≥ k, ahead n (cursor m) i < advance m := by
  by_contra hnever
  push Not at hnever
  have hcloser : ∀ m ≥ k, ahead n (cursor (m + 1)) i = ahead n (cursor m) i - advance m := by
    intro m hm
    rw [hstep m, ahead_advance (cursor_lt hcursor hstep m) hi (hnever m hm)]
  have hanti : ∀ m ≥ k, ∀ m' ≥ m, ahead n (cursor m') i ≤ ahead n (cursor m) i := by
    intro m hm m' hm'
    induction m', hm' using Nat.le_induction with
    | base => exact le_rfl
    | succ m' hm' ih =>
      rw [hcloser m' (le_trans hm hm')]
      exact le_trans (Nat.sub_le _ _) ih
  -- the entry comes closer for ever
  have hfalse : ∀ d, ∀ m ≥ k, ahead n (cursor m) i ≤ d → False := by
    intro d
    induction d with
    | zero =>
      intro m hm hd
      obtain ⟨m', hm', hpos⟩ := hadvance m
      have hle := hnever m' (le_trans hm hm')
      have := hanti m hm m' hm'
      omega
    | succ d ih =>
      intro m hm hd
      obtain ⟨m', hm', hpos⟩ := hadvance m
      refine ih (m' + 1) (by omega) ?_
      have hle := hanti m hm m' hm'
      rw [hcloser m' (le_trans hm hm')]
      omega
  exact hfalse _ k le_rfl le_rfl

end Run

section Wrapped

variable {α : Type*} {l : List α} {cursor limit : ℕ}

/-- `limit` entries from the cursor on, with the first ones again after the last. -/
def wrapped (cursor limit : ℕ) (l : List α) : List α :=
  let first := window cursor limit l
  if 0 < first.length ∧ first.length < limit ∧ first.length < l.length then
    first ++ window 0 (limit - first.length) l
  else first

theorem getElem_mem_window {i : ℕ} (hi : i < l.length) (hcursor : cursor ≤ i)
    (hlimit : i < cursor + limit) : l[i] ∈ window cursor limit l := by
  rw [window, List.mem_take_iff_getElem]
  refine ⟨i - cursor, by rw [List.length_drop]; omega, ?_⟩
  rw [List.getElem_drop]
  congr 1
  omega

theorem length_wrapped (cursor limit : ℕ) (l : List α) :
    (wrapped cursor limit l).length ≤ limit := by
  have hlen := length_window cursor limit l
  rw [wrapped]
  split_ifs with h
  · have hrest := length_window 0 (limit - (window cursor limit l).length) l
    rw [List.length_append, hrest]
    omega
  · omega

/-- The entries that are not far ahead are in the window. -/
theorem getElem_mem_wrapped {i : ℕ} (hi : i < l.length) (hcursor : cursor < l.length)
    (hahead : ahead l.length cursor i < limit) : l[i] ∈ wrapped cursor limit l := by
  have hlen := length_window cursor limit l
  rcases Nat.lt_or_ge i cursor with h | h
  · rw [ahead_of_lt hcursor h] at hahead
    rw [wrapped, if_pos (by omega), List.mem_append]
    exact .inr (getElem_mem_window hi (Nat.zero_le i) (by omega))
  · rw [ahead_of_le hi h] at hahead
    have hmem : l[i] ∈ window cursor limit l := getElem_mem_window hi h (by omega)
    rw [wrapped]
    split_ifs
    · exact List.mem_append_left _ hmem
    · exact hmem

end Wrapped

end Paged
