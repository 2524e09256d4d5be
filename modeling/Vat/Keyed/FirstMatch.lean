import Mathlib.Data.List.Basic
import Mathlib.Data.List.Perm.Basic

/-!
# The first row that gives a value

A value is filled in by the first of some rows that gives one, and of the rows only the first few
are looked at. In every order of the rows the same value is filled in, and one that a row of a kind
gives, exactly if all rows that give a value give the same and there are enough rows of the kind
(`settled_iff`).

## Main definitions

* `Keyed.filled`: what is filled in.
* `Keyed.Settled`: it is the same in every order, and given by a row of a kind.

## Main results

* `Keyed.settled_iff`.
-/

namespace Keyed

variable {ρ α : Type*} (found : ρ → Option α) (own : ρ → Bool)

/-- The value that the first of the rows gives that gives one. -/
def filled (rows : List ρ) : Option α := rows.findSome? found

/-- In every order of the rows, of which the first `n` are looked at, the same value is filled in,
and a row of the kind that is looked at gives it. -/
def Settled (n : ℕ) (rows : List ρ) : Prop :=
  ∀ rows' : List ρ, rows'.Perm rows →
    (∀ v, filled found (rows'.take n) = some v → ∃ r ∈ rows'.take n, own r ∧ found r = some v) ∧
    filled found (rows'.take n) = filled found (rows.take n)

/-- The rows that are not of the kind, or give no value. -/
def others (rows : List ρ) : List ρ := rows.filter fun r => !(own r && (found r).isSome)

variable {found own} {n : ℕ} {rows : List ρ}

theorem filled_eq_none_iff : filled found rows = none ↔ ∀ r ∈ rows, found r = none := by
  rw [filled, List.findSome?_eq_none_iff]

theorem exists_of_filled {v : α} (h : filled found rows = some v) : ∃ r ∈ rows, found r = some v :=
  List.exists_of_findSome?_eq_some h

/-- A row that gives a value is the first in some order. -/
theorem exists_perm_filled {r : ρ} (hr : r ∈ rows) {v : α} (hv : found r = some v) (hn : 0 < n) :
    ∃ rows' : List ρ, rows'.Perm rows ∧ filled found (rows'.take n) = some v := by
  obtain ⟨pre, post, rfl⟩ := List.append_of_mem hr
  refine ⟨r :: (pre ++ post), List.perm_middle.symm, ?_⟩
  obtain ⟨m, rfl⟩ := Nat.exists_eq_add_of_lt hn
  rw [filled, Nat.zero_add, List.take_succ_cons, List.findSome?_cons, hv]

theorem mem_of_mem_take {front back : List ρ}
    (hlen : min n (front ++ back).length ≤ front.length) {r : ρ}
    (hr : r ∈ (front ++ back).take n) : r ∈ front := by
  rw [← List.take_length (l := front ++ back), List.take_take,
    List.take_append_of_le_length hlen] at hr
  exact List.mem_of_mem_take hr

/-- The rows that are not of the kind come first in some order. -/
theorem perm_others (rows : List ρ) :
    (others found own rows ++ rows.filter fun r => own r && (found r).isSome).Perm rows := by
  have h := List.filter_append_perm (fun r => !(own r && (found r).isSome)) rows
  simpa only [others, Bool.not_not] using h

/-- When the rows that are looked at may all be others, none is of the kind in some order. -/
theorem min_le_of_others {front : List ρ} (hfront : front.Perm (others found own rows))
    (hfew : min n rows.length ≤ (others found own rows).length) :
    (front ++ rows.filter fun r => own r && (found r).isSome).Perm rows ∧
      ∀ r ∈ (front ++ rows.filter fun r => own r && (found r).isSome).take n,
        r ∈ others found own rows := by
  have hperm := (hfront.append_right _).trans (perm_others rows)
  refine ⟨hperm, fun r hr => hfront.mem_iff.mp (mem_of_mem_take ?_ hr)⟩
  rw [hperm.length_eq, hfront.length_eq]
  exact hfew

theorem not_own_of_mem_others {r : ρ} (hr : r ∈ others found own rows) {v : α}
    (hv : found r = some v) : ¬ own r := by
  intro hown
  have h := (List.mem_filter.mp hr).2
  rw [hown, hv] at h
  cases h

/-- Where there are fewer others than are looked at, a row of the kind is looked at in every
order. -/
theorem exists_own_of_many (hmany : (others found own rows).length < min n rows.length)
    {rows' : List ρ} (hperm : rows'.Perm rows) : ∃ r ∈ rows'.take n, own r ∧ (found r).isSome := by
  by_contra hno
  have hall : others found own (rows'.take n) = rows'.take n := by
    refine List.filter_eq_self.mpr fun r hr => ?_
    rw [Bool.not_eq_true', Bool.and_eq_false_iff, ← Bool.not_eq_true, ← Bool.not_eq_true,
      ← not_and_or]
    exact fun hr' => hno ⟨r, hr, hr'⟩
  have hle : (others found own (rows'.take n)).length ≤ (others found own rows').length :=
    ((List.take_sublist n rows').filter _).length_le
  have hlen : (others found own rows').length = (others found own rows).length :=
    (hperm.filter _).length_eq
  rw [hall, List.length_take, hperm.length_eq, hlen] at hle
  omega

/-- Where the values are the same and some row that is looked at gives one, it is filled in. -/
theorem filled_of_same
    (hsame : ∀ r ∈ rows, ∀ r' ∈ rows, ∀ v v', found r = some v → found r' = some v' → v = v')
    {rows' : List ρ} (hperm : rows'.Perm rows) (hsome : ∃ r ∈ rows'.take n, (found r).isSome) {r : ρ}
    (hr : r ∈ rows) {v : α} (hv : found r = some v) : filled found (rows'.take n) = some v := by
  cases hfilled : filled found (rows'.take n) with
  | none =>
    obtain ⟨r', hr', hsome⟩ := hsome
    rw [filled_eq_none_iff.mp hfilled r' hr'] at hsome
    cases hsome
  | some w =>
    obtain ⟨r', hr', hw⟩ := exists_of_filled hfilled
    have hmem := hperm.mem_iff.mp (List.mem_of_mem_take hr')
    rw [hsame r' hmem r hr w v hw hv]

/-- A value is settled exactly if no row gives one, or all that do give the same and a row of the
kind is looked at in every order. -/
theorem settled_iff (hn : rows ≠ [] → 0 < n) :
    Settled found own n rows ↔
      (∀ r ∈ rows, found r = none) ∨
      ((∀ r ∈ rows, ∀ r' ∈ rows, ∀ v v', found r = some v → found r' = some v' → v = v') ∧
        (others found own rows).length < min n rows.length) := by
  constructor
  · intro h
    by_cases hnone : ∀ r ∈ rows, found r = none
    · exact Or.inl hnone
    obtain ⟨r₀, hr₀, hne⟩ : ∃ r ∈ rows, found r ≠ none := by simpa using hnone
    obtain ⟨v₀, hv₀⟩ := Option.ne_none_iff_exists'.mp hne
    have hpos : 0 < n := hn (List.ne_nil_of_mem hr₀)
    -- in some order the value is that of any row that gives one
    have hall : ∀ r ∈ rows, ∀ v, found r = some v → filled found (rows.take n) = some v := by
      intro r hr v hv
      obtain ⟨rows', hperm, hfilled⟩ := exists_perm_filled hr hv hpos
      rw [← (h rows' hperm).2, hfilled]
    refine Or.inr ⟨fun r hr r' hr' v v' hv hv' => ?_, ?_⟩
    · exact Option.some.inj ((hall r hr v hv).symm.trans (hall r' hr' v' hv'))
    · by_contra hfew
      rw [Nat.not_lt] at hfew
      by_cases hgive : ∃ r ∈ others found own rows, ∃ v, found r = some v
      · obtain ⟨r, hr, v, hv⟩ := hgive
        obtain ⟨pre, post, hsplit⟩ := List.append_of_mem hr
        have hfront : (r :: (pre ++ post)).Perm (others found own rows) := by
          rw [hsplit]
          exact List.perm_middle.symm
        obtain ⟨hperm, hothers⟩ := min_le_of_others hfront hfew
        have hfirst : filled found (((r :: (pre ++ post)) ++
            rows.filter fun r => own r && (found r).isSome).take n) = some v := by
          obtain ⟨m, rfl⟩ := Nat.exists_eq_add_of_lt hpos
          rw [filled, Nat.zero_add, List.cons_append, List.take_succ_cons, List.findSome?_cons, hv]
        obtain ⟨r', hr', hown, hv'⟩ := (h _ hperm).1 v hfirst
        exact not_own_of_mem_others (hothers r' hr') hv' hown
      · obtain ⟨hperm, hothers⟩ := min_le_of_others (List.Perm.refl _) hfew
        have hempty := (h _ hperm).2
        rw [hall r₀ hr₀ v₀ hv₀, filled_eq_none_iff.mpr] at hempty
        · cases hempty
        · exact fun r hr => Option.eq_none_iff_forall_ne_some.mpr fun v hv =>
            hgive ⟨r, hothers r hr, v, hv⟩
  · rintro (hnone | ⟨hsame, hmany⟩) rows' hperm
    · have hno : ∀ rows' : List ρ, rows'.Perm rows → filled found (rows'.take n) = none :=
        fun rows' hperm => filled_eq_none_iff.mpr fun r hr =>
          hnone r (hperm.mem_iff.mp (List.mem_of_mem_take hr))
      refine ⟨fun v hv => ?_, (hno rows' hperm).trans (hno rows (List.Perm.refl _)).symm⟩
      rw [hno rows' hperm] at hv
      cases hv
    · -- a row of the kind is looked at in every order
      have hsome : ∀ rows' : List ρ, rows'.Perm rows → ∃ r ∈ rows'.take n, (found r).isSome := by
        intro rows' hperm
        obtain ⟨r, hr, -, hfound⟩ := exists_own_of_many hmany hperm
        exact ⟨r, hr, hfound⟩
      obtain ⟨r, hr, hr_own, hfound⟩ := exists_own_of_many hmany hperm
      obtain ⟨v, hv⟩ := Option.isSome_iff_exists.mp hfound
      have hmem := hperm.mem_iff.mp (List.mem_of_mem_take hr)
      have hfilled := filled_of_same hsame hperm (hsome rows' hperm) hmem hv
      have hfilled' := filled_of_same hsame (List.Perm.refl _) (hsome rows (List.Perm.refl _)) hmem hv
      refine ⟨fun w hw => ⟨r, hr, hr_own, ?_⟩, hfilled.trans hfilled'.symm⟩
      rw [hv, ← hfilled, hw]

end Keyed
