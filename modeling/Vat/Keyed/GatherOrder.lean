import Mathlib.Algebra.BigOperators.Group.Finset.Basic
import Mathlib.Algebra.BigOperators.Pi
import Vat.Keyed.Gather

/-!
# Gathered values and the order of a list

What a loop keeps for every key, counted over the keys, is the same in every order of the list
exactly if the part of it that is counted is, for each key, the same in every order of the values
with that key (`sum_gather_perm_iff`). A loop that keeps what comes first, or that takes a value in
unless it is in conflict with one that was taken, does not depend on the order only if there is
nothing to choose (`head?_perm_iff`, `takeFirst_perm_iff`).

## Main definitions

* `takeFirst`: the values that are in no conflict with one that was taken before.

## Main results

* `gathered_perm`, `entries_gather_perm`: steps that commute.
* `sum_gather_perm_iff`, `head?_perm_iff`, `takeFirst_perm_iff`.
-/

namespace Keyed

variable {α κ ν μ β M : Type*}

/-! ### Dictionaries with the same values -/

namespace Dictionary

variable [DecidableEq κ] {d d' : Dictionary κ ν}

omit [DecidableEq κ] in
theorem nodup_entries (d : Dictionary κ ν) : d.entries.Nodup := d.nodup.of_map

/-- Dictionaries that give the same values have the same entries, in some order. -/
theorem Same.entries_perm (h : d.Same d') : d.entries.Perm d'.entries := by
  refine (List.perm_ext_iff_of_nodup d.nodup_entries d'.nodup_entries).mpr ?_
  rintro ⟨k, v⟩
  rw [← get?_eq_some_iff, ← get?_eq_some_iff, h k]

theorem Same.values_perm (h : d.Same d') : d.values.Perm d'.values := h.entries_perm.map Prod.snd

/-- A sum over the values is a sum over the keys. -/
theorem sum_map_values [AddCommMonoid M] (c : ν → M) :
    (d.values.map c).sum = (d.keys.map fun k => (d.get? k).elim 0 c).sum := by
  have h := congrArg (List.map fun v => v.elim 0 c) (map_some_values (d := d))
  rw [List.map_map, List.map_map] at h
  exact congrArg List.sum h

end Dictionary

/-! ### Steps that commute -/

variable {f : Option ν → α → ν} {key : α → κ} {l l' : List α}

/-- A loop whose steps commute keeps the same in every order. -/
theorem gathered_perm (hcomm : ∀ a ∈ l, ∀ b ∈ l, ∀ v, f (some (f v a)) b = f (some (f v b)) a)
    (h : l.Perm l') : gathered f l = gathered f l' :=
  h.foldl_eq' (fun a ha b hb v => congrArg some (hcomm a ha b hb v)) none

/-- In two orders, a part of what is kept: there is something to keep in both or in neither. -/
theorem map_gathered_congr {φ : ν → β} (h : l.Perm l')
    (hφ : ∀ v w, gathered f l = some v → gathered f l' = some w → φ v = φ w) :
    (gathered f l).map φ = (gathered f l').map φ := by
  cases hv : gathered f l with
  | none =>
    rw [gathered_eq_none_iff.mp hv] at h
    rw [← h.nil_eq]
    rfl
  | some v =>
    cases hw : gathered f l' with
    | none =>
      rw [gathered_eq_none_iff.mp hw] at h
      rw [h.eq_nil] at hv
      cases hv
    | some w => exact congrArg some (hφ v w hv hw)

variable [DecidableEq κ]

theorem same_gather (hcomm : ∀ v a b, key a = key b → f (some (f v a)) b = f (some (f v b)) a)
    (h : l.Perm l') : (gather key f l).Same (gather key f l') := by
  intro k
  rw [get?_gather, get?_gather]
  refine gathered_perm (fun a ha b hb v => hcomm v a b ?_) (h.filter _)
  rw [of_decide_eq_true (List.mem_filter.mp ha).2, of_decide_eq_true (List.mem_filter.mp hb).2]

theorem keys_gather_perm (f : Option ν → α → ν) (h : l.Perm l') :
    (gather key f l).keys.Perm (gather key f l').keys := by
  refine (List.perm_ext_iff_of_nodup (gather key f l).nodup (gather key f l').nodup).mpr ?_
  intro k
  exact mem_keys_gather_iff.trans ((h.map key).mem_iff.trans mem_keys_gather_iff.symm)

/-- In two lists the same parts are kept, when of each key the same part is. -/
theorem values_gather_perm {φ : ν → β} (h : ∀ k, (gathered f (l.filter fun a => key a = k)).map φ =
    (gathered f (l'.filter fun a => key a = k)).map φ) :
    ((gather key f l).values.map φ).Perm ((gather key f l').values.map φ) := by
  have hvalues : ∀ d : Dictionary κ ν, (d.mapValues φ).values = d.values.map φ := fun d => by
    rw [Dictionary.values, Dictionary.values, Dictionary.mapValues, List.map_map, List.map_map]
    rfl
  have hsame : ((gather key f l).mapValues φ).Same ((gather key f l').mapValues φ) := by
    intro k
    rw [Dictionary.get?_mapValues, Dictionary.get?_mapValues, get?_gather, get?_gather, h k]
  rw [← hvalues, ← hvalues]
  exact hsame.values_perm

/-! ### Counts -/

theorem toFinset_keys_gather : (gather key f l).keys.toFinset = (l.map key).toFinset := by
  ext k
  rw [List.mem_toFinset, List.mem_toFinset]
  exact mem_keys_gather_iff

/-- A count over the keys, each with what the loop over its own values keeps. -/
theorem sum_values_gather [AddCommMonoid M] (c : ν → M) (l : List α) :
    ((gather key f l).values.map c).sum =
      ∑ k ∈ (l.map key).toFinset, (gathered f (l.filter fun a => key a = k)).elim 0 c := by
  have hnodup : (gather key f l).keys.Nodup := (gather key f l).nodup
  rw [Dictionary.sum_map_values, ← toFinset_keys_gather (f := f), List.sum_toFinset _ hnodup]
  refine congrArg List.sum (List.map_congr_left fun k _ => ?_)
  rw [get?_gather]

/-- The values of one key put in another order, before all others. -/
theorem exists_perm_filter (k : κ) (h : l'.Perm (l.filter fun a => key a = k)) :
    ∃ l'' : List α, l''.Perm l ∧ (l''.filter fun a => key a = k) = l' ∧
      ∀ k', k' ≠ k → (l''.filter fun a => key a = k') = l.filter fun a => key a = k' := by
  have hkey : ∀ a ∈ l', key a = k := fun a ha =>
    of_decide_eq_true (List.mem_filter.mp (h.subset ha)).2
  refine ⟨l' ++ l.filter fun a => !decide (key a = k), ?_, ?_, fun k' hk' => ?_⟩
  · exact (h.append_right _).trans (List.filter_append_perm _ l)
  · have hrest : (l.filter fun a => !decide (key a = k)).filter (fun a => key a = k) = [] := by
      refine List.filter_eq_nil_iff.mpr fun a ha => ?_
      simpa using (List.mem_filter.mp ha).2
    rw [List.filter_append, hrest, List.append_nil]
    exact List.filter_eq_self.mpr fun a ha => decide_eq_true (hkey a ha)
  · have hfirst : (l'.filter fun a => key a = k') = [] := by
      refine List.filter_eq_nil_iff.mpr fun a ha => ?_
      rw [hkey a ha]
      simpa using hk'.symm
    rw [List.filter_append, hfirst, List.nil_append, List.filter_filter]
    refine List.filter_congr fun a _ => ?_
    by_cases ha : key a = k'
    · simp [ha, hk']
    · simp [ha]

/-- A count over the keys is the same in every order exactly if for each key it is the same in every
order of the values with that key. -/
theorem sum_gather_perm_iff [AddCancelCommMonoid M] (c : ν → M) (l : List α) :
    (∀ l' : List α, l'.Perm l → ((gather key f l').values.map c).sum =
      ((gather key f l).values.map c).sum) ↔
      ∀ k, ∀ l' : List α, l'.Perm (l.filter fun a => key a = k) →
        (gathered f l').elim 0 c = (gathered f (l.filter fun a => key a = k)).elim 0 c := by
  constructor
  · intro h k l' hl'
    obtain ⟨l'', hperm, hclass, hother⟩ := exists_perm_filter k hl'
    have hsum := h l'' hperm
    have hkeys : (l''.map key).toFinset = (l.map key).toFinset := by
      ext k'
      rw [List.mem_toFinset, List.mem_toFinset]
      exact (hperm.map key).mem_iff
    rw [sum_values_gather, sum_values_gather, hkeys] at hsum
    by_cases hk : k ∈ (l.map key).toFinset
    · have hrest : ∑ k' ∈ (l.map key).toFinset.erase k,
          (gathered f (l''.filter fun a => key a = k')).elim 0 c =
            ∑ k' ∈ (l.map key).toFinset.erase k,
              (gathered f (l.filter fun a => key a = k')).elim 0 c :=
        Finset.sum_congr rfl fun k' hk' => by rw [hother k' (Finset.ne_of_mem_erase hk')]
      rw [← Finset.add_sum_erase _ _ hk, ← Finset.add_sum_erase _ _ hk, hrest, hclass] at hsum
      exact add_right_cancel hsum
    · have hnil : (l.filter fun a => key a = k) = [] := by
        refine List.filter_eq_nil_iff.mpr fun a ha hak => hk ?_
        rw [List.mem_toFinset, ← of_decide_eq_true hak]
        exact List.mem_map_of_mem ha
      rw [hnil] at hl' ⊢
      rw [hl'.eq_nil]
  · intro h l' hl'
    have hkeys : (l'.map key).toFinset = (l.map key).toFinset := by
      ext k
      rw [List.mem_toFinset, List.mem_toFinset]
      exact (hl'.map key).mem_iff
    rw [sum_values_gather, sum_values_gather, hkeys]
    exact Finset.sum_congr rfl fun k _ => h k _ (hl'.filter _)

/-- An order of what is left of some values comes from an order of the values. -/
theorem exists_perm_filterMap {g : α → Option β} {m : List β} (h : m.Perm (l.filterMap g)) :
    ∃ l' : List α, l'.Perm l ∧ l'.filterMap g = m := by
  induction m generalizing l with
  | nil => exact ⟨l, List.Perm.refl l, h.nil_eq.symm⟩
  | cons b m ih =>
    obtain ⟨a, ha, hb⟩ := List.mem_filterMap.mp (h.subset List.mem_cons_self)
    obtain ⟨pre, post, rfl⟩ := List.append_of_mem ha
    have hm : m.Perm ((pre ++ post).filterMap g) := by
      refine (List.perm_cons b).mp (h.trans ?_)
      rw [List.filterMap_append, List.filterMap_append, List.filterMap_cons_some hb]
      exact List.perm_middle
    obtain ⟨l', hl', hl'm⟩ := ih hm
    refine ⟨a :: l', (hl'.cons a).trans List.perm_middle.symm, ?_⟩
    rw [List.filterMap_cons_some hb, hl'm]

/-- A part of what is kept that is counted the same in every order is the same in every order. -/
theorem map_gathered_perm [AddCancelCommMonoid M] {c : ν → M}
    (h : ∀ l' : List α, l'.Perm l →
      ((gather key f l').values.map c).sum = ((gather key f l).values.map c).sum)
    {k : κ} (hl' : l'.Perm (l.filter fun a => key a = k)) :
    (gathered f l').map c = (gathered f (l.filter fun a => key a = k)).map c := by
  refine map_gathered_congr hl' fun v w hv hw => ?_
  have helim := (sum_gather_perm_iff c l).mp h k l' hl'
  rw [hv, hw] at helim
  exact helim

theorem sum_map_toNat (p : ν → Bool) (l : List ν) :
    (l.map fun v => (p v).toNat).sum = l.countP p := by
  induction l with
  | nil => rfl
  | cons v l ih =>
    rw [List.map_cons, List.sum_cons, ih, List.countP_cons]
    cases p v <;> simp [Nat.add_comm]

/-- What holds of as many kept values in every order, holds of the value of every key in all orders
or in none. -/
theorem map_gathered_perm_of_countP {p : ν → Bool}
    (h : ∀ l' : List α, l'.Perm l →
      (gather key f l').values.countP p = (gather key f l).values.countP p)
    {k : κ} (hl' : l'.Perm (l.filter fun a => key a = k)) :
    (gathered f l').map p = (gathered f (l.filter fun a => key a = k)).map p := by
  have hsum : ∀ l' : List α, l'.Perm l →
      ((gather key f l').values.map fun v => (p v).toNat).sum =
        ((gather key f l).values.map fun v => (p v).toNat).sum := by
    intro l' hl'
    rw [sum_map_toNat, sum_map_toNat, h l' hl']
  have hmap := map_gathered_perm hsum hl'
  have hinj : Function.Injective Bool.toNat := by decide
  refine Option.map_injective hinj ?_
  rw [Option.map_map, Option.map_map]
  exact hmap

theorem exists_perm_filter_of_perm {p : α → Bool} (h : l'.Perm (l.filter p)) :
    ∃ l'' : List α, l''.Perm l ∧ l''.filter p = l' := by
  rw [← List.filterMap_eq_filter] at h ⊢
  exact exists_perm_filterMap h

/-! ### What comes first -/

omit [DecidableEq κ] in
/-- Of the first value the same is seen in every order exactly if it is the same of all values. -/
theorem head?_perm_iff (φ : α → β) (l : List α) :
    (∀ l' : List α, l'.Perm l → l'.head?.map φ = l.head?.map φ) ↔
      ∀ a ∈ l, ∀ b ∈ l, φ a = φ b := by
  constructor
  · intro h
    have hfirst : ∀ a ∈ l, some (φ a) = l.head?.map φ := by
      intro a ha
      obtain ⟨pre, post, rfl⟩ := List.append_of_mem ha
      exact h (a :: (pre ++ post)) List.perm_middle.symm
    intro a ha b hb
    exact Option.some_inj.mp ((hfirst a ha).trans (hfirst b hb).symm)
  · intro h l' hl'
    cases l' with
    | nil => rw [hl'.nil_eq]
    | cons a t =>
      cases l with
      | nil => exact absurd hl'.eq_nil (List.cons_ne_nil a t)
      | cons b s =>
        exact congrArg some (h a (hl'.subset List.mem_cons_self) b List.mem_cons_self)

omit [DecidableEq κ] in
/-- Of the first value of the highest rank the same is seen in every order exactly if it is the same
of all values of the highest rank. -/
theorem firstBest_perm_iff {ρ : Type*} [LinearOrder ρ] (rank : α → ρ) (φ : α → β) (l : List α) :
    (∀ l' : List α, l'.Perm l →
      (gathered (firstBest rank) l').map φ = (gathered (firstBest rank) l).map φ) ↔
      ∀ a b, IsBest rank l a → IsBest rank l b → φ a = φ b := by
  constructor
  · intro h
    have hfirst : ∀ a, IsBest rank l a → some (φ a) = (gathered (firstBest rank) l).map φ := by
      rintro a ⟨ha, hmax⟩
      obtain ⟨pre, post, rfl⟩ := List.append_of_mem ha
      rw [← h (a :: (pre ++ post)) List.perm_middle.symm, gathered_firstBest_cons fun b hb =>
        hmax b (List.perm_middle.symm.subset (List.mem_cons_of_mem a hb))]
      rfl
    intro a b ha hb
    exact Option.some_inj.mp ((hfirst a ha).trans (hfirst b hb).symm)
  · intro h l' hl'
    refine map_gathered_congr hl' fun b a hb ha => ?_
    obtain ⟨hmem, hmax⟩ := isBest_of_gathered_firstBest hb
    exact h b a ⟨hl'.subset hmem, fun c hc => hmax c (hl'.symm.subset hc)⟩
      (isBest_of_gathered_firstBest ha)

/-- The values that are in no conflict with one that was taken before. -/
def takeFirst (conflict : α → α → Bool) (l : List α) : List α :=
  l.foldl (fun taken a => if taken.any (conflict a) then taken else taken ++ [a]) []

omit [DecidableEq κ] in
theorem takeFirst_concat (conflict : α → α → Bool) (l : List α) (a : α) :
    takeFirst conflict (l ++ [a]) =
      if (takeFirst conflict l).any (conflict a) then takeFirst conflict l
      else takeFirst conflict l ++ [a] := by
  rw [takeFirst, List.foldl_append]
  rfl

omit [DecidableEq κ] in
theorem takeFirst_subset (conflict : α → α → Bool) (l : List α) :
    ∀ a ∈ takeFirst conflict l, a ∈ l := by
  induction l using List.reverseRecOn with
  | nil => exact fun a ha => ha
  | append_singleton l b ih =>
    rw [takeFirst_concat]
    split_ifs
    · exact fun a ha => List.mem_append_left _ (ih a ha)
    · intro a ha
      rcases List.mem_append.mp ha with ha | ha
      · exact List.mem_append_left _ (ih a ha)
      · exact List.mem_append_right _ ha

omit [DecidableEq κ] in
/-- Two values that were taken are not in conflict. -/
theorem pairwise_takeFirst {conflict : α → α → Bool}
    (hsymm : ∀ a b, conflict a b = true → conflict b a = true) (l : List α) :
    (takeFirst conflict l).Pairwise fun a b => conflict a b = false := by
  induction l using List.reverseRecOn with
  | nil => exact List.Pairwise.nil
  | append_singleton l b ih =>
    rw [takeFirst_concat]
    split_ifs with hany
    · exact ih
    · refine List.pairwise_append.mpr ⟨ih, List.pairwise_singleton _ b, fun a ha c hc => ?_⟩
      rw [List.mem_singleton.mp hc]
      by_contra hconflict
      exact hany (List.any_eq_true.mpr ⟨a, ha, hsymm a b (by simpa using hconflict)⟩)

omit [DecidableEq κ] in
/-- The first value is taken. -/
theorem head_mem_takeFirst (conflict : α → α → Bool) (a : α) (l : List α) :
    a ∈ takeFirst conflict (a :: l) := by
  induction l using List.reverseRecOn with
  | nil => exact List.mem_singleton_self a
  | append_singleton l b ih =>
    rw [← List.cons_append, takeFirst_concat]
    split_ifs
    · exact ih
    · exact List.mem_append_left _ ih

omit [DecidableEq κ] in
/-- When only equal values are in conflict, every value is taken. -/
theorem mem_takeFirst_iff {conflict : α → α → Bool} {l : List α}
    (heq : ∀ a ∈ l, ∀ b ∈ l, conflict a b = true → a = b) {a : α} :
    a ∈ takeFirst conflict l ↔ a ∈ l := by
  refine ⟨takeFirst_subset conflict l a, ?_⟩
  induction l using List.reverseRecOn with
  | nil => exact id
  | append_singleton l b ih =>
    have ih := ih fun x hx y hy =>
      heq x (List.mem_append_left _ hx) y (List.mem_append_left _ hy)
    intro ha
    rw [takeFirst_concat]
    split_ifs with hany
    · rcases List.mem_append.mp ha with ha | ha
      · exact ih ha
      · obtain ⟨c, hc, hconflict⟩ := List.any_eq_true.mp hany
        have hcl : c ∈ l ++ [b] := List.mem_append_left _ (takeFirst_subset conflict l c hc)
        have hbl : b ∈ l ++ [b] := List.mem_append_right l (List.mem_singleton_self b)
        rw [List.mem_singleton.mp ha, heq b hbl c hcl hconflict]
        exact hc
    · rcases List.mem_append.mp ha with ha | ha
      · exact List.mem_append_left _ (ih ha)
      · exact List.mem_append_right _ ha

omit [DecidableEq κ] in
/-- In every order the same values are taken exactly if only equal values are in conflict. -/
theorem takeFirst_perm_iff {conflict : α → α → Bool} (hrefl : ∀ a, conflict a a = true)
    (hsymm : ∀ a b, conflict a b = true → conflict b a = true) (l : List α) :
    (∀ l' : List α, l'.Perm l → (takeFirst conflict l').Perm (takeFirst conflict l)) ↔
      ∀ a ∈ l, ∀ b ∈ l, conflict a b = true → a = b := by
  constructor
  · intro h
    -- Each value is taken in the order that has it first, and so in every order.
    have hmem : ∀ a ∈ l, a ∈ takeFirst conflict l := by
      intro a ha
      obtain ⟨pre, post, rfl⟩ := List.append_of_mem ha
      exact (h (a :: (pre ++ post)) List.perm_middle.symm).mem_iff.mp
        (head_mem_takeFirst conflict a _)
    have hsymm' : Std.Symm fun a b => conflict a b = false :=
      ⟨fun a b hab => Bool.eq_false_iff.mpr fun hba => Bool.eq_false_iff.mp hab (hsymm b a hba)⟩
    intro a ha b hb hconflict
    by_contra hne
    have hfalse := (pairwise_takeFirst hsymm l).forall (hmem a ha) (hmem b hb) hne
    rw [hconflict] at hfalse
    cases hfalse
  · intro h l' hl'
    have h' : ∀ a ∈ l', ∀ b ∈ l', conflict a b = true → a = b := fun a ha b hb =>
      h a (hl'.subset ha) b (hl'.subset hb)
    have hnodup : ∀ l : List α, (takeFirst conflict l).Nodup := by
      intro l
      refine (pairwise_takeFirst hsymm l).imp ?_
      rintro a _ hfalse rfl
      rw [hrefl a] at hfalse
      cases hfalse
    refine (List.perm_ext_iff_of_nodup (hnodup l') (hnodup l)).mpr fun a => ?_
    rw [mem_takeFirst_iff h', mem_takeFirst_iff h, hl'.mem_iff]

end Keyed
