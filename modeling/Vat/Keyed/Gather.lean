import Mathlib.Algebra.BigOperators.Group.List.Basic
import Mathlib.Algebra.GroupWithZero.Nat
import Mathlib.Data.List.Dedup
import Mathlib.Data.List.Induction
import Mathlib.Data.Option.Basic
import Mathlib.Order.Lattice
import Vat.Keyed.Dictionary

/-!
# Values gathered by key

A loop over values keeps something for the key of each: a representative, a count, an extreme. What
it keeps for a key is made of the values with that key alone, in their order, and the keys come in
the order of their first value.

## Main definitions

* `Dictionary.keys`, `Dictionary.values`, `Dictionary.mapValues`.
* `gathered`, `gather`: what a loop keeps, of all values and for every key.
* `firstBest`, `IsBest`: the first of the values of the highest rank.
* `unseen`: the values that a loop with a set of seen keys does not skip.

## Main results

* `get?_gather`: what is kept for a key.
* `map_gather`: a loop that keeps a part of what another keeps.
* `values_unseen`: the set of seen keys keeps the first value of every key.
* `length_values_gather`: there are as many values as keys.
* `elim_gathered`, `sum_gather`: counts, whose sum over the keys is the count of all
  values.
-/

namespace Keyed

variable {α κ ν μ : Type*}

/-! ### Keys and values -/

namespace Dictionary

def keys (d : Dictionary κ ν) : List κ := d.entries.map Prod.fst

def values (d : Dictionary κ ν) : List ν := d.entries.map Prod.snd

variable [DecidableEq κ] {d d' : Dictionary κ ν} {k : κ} {v w : ν}

theorem mem_values_iff : v ∈ d.values ↔ ∃ k, d.get? k = some v := by
  simp only [values, List.mem_map, get?_eq_some_iff]
  constructor
  · rintro ⟨e, he, rfl⟩
    exact ⟨e.1, he⟩
  · rintro ⟨k, hk⟩
    exact ⟨(k, v), hk, rfl⟩

theorem mem_keys_iff : k ∈ d.keys ↔ ∃ v, d.get? k = some v := by
  simp only [keys, List.mem_map, get?_eq_some_iff]
  constructor
  · rintro ⟨e, he, rfl⟩
    exact ⟨e.2, he⟩
  · rintro ⟨v, hv⟩
    exact ⟨(k, v), hv, rfl⟩

theorem entries_set_of_get?_eq_none (h : d.get? k = none) :
    (d.set k v).entries = d.entries ++ [(k, v)] := by
  have hk : k ∉ d.entries.map Prod.fst := by
    rintro hk
    obtain ⟨e, he, hek⟩ := List.mem_map.mp hk
    exact get?_eq_none_iff.mp h e he hek
  exact if_neg hk

/-- A key that is there keeps its place. -/
theorem exists_entries_set (h : d.get? k = some w) : ∃ pre post,
    d.entries = pre ++ (k, w) :: post ∧ (d.set k v).entries = pre ++ (k, v) :: post := by
  have hmem : (k, w) ∈ d.entries := get?_eq_some_iff.mp h
  obtain ⟨pre, post, hd⟩ := List.append_of_mem hmem
  have hnodup : (pre.map Prod.fst ++ k :: post.map Prod.fst).Nodup := by
    have hd' := d.nodup
    rwa [hd, List.map_append, List.map_cons] at hd'
  have hother : ∀ e ∈ pre ++ post, e.1 ≠ k := by
    intro e he hek
    have hk := (List.nodup_cons.mp (List.nodup_middle.mp hnodup)).1
    rw [← List.map_append] at hk
    exact hk (List.mem_map.mpr ⟨e, he, hek⟩)
  refine ⟨pre, post, hd, ?_⟩
  have hmap : ∀ l : List (κ × ν), (∀ e ∈ l, e.1 ≠ k) →
      (l.map fun e => if e.1 = k then (k, v) else e) = l := by
    intro l hl
    exact (List.map_congr_left fun e he => if_neg (hl e he)).trans (List.map_id l)
  have hk : k ∈ d.entries.map Prod.fst := List.mem_map.mpr ⟨_, hmem, rfl⟩
  have hset : (d.set k v).entries = d.entries.map fun e => if e.1 = k then (k, v) else e :=
    if_pos hk
  rw [hset, hd, List.map_append, List.map_cons, if_pos rfl,
    hmap pre fun e he => hother e (List.mem_append_left _ he),
    hmap post fun e he => hother e (List.mem_append_right _ he)]

theorem keys_set : (d.set k v).keys = if k ∈ d.keys then d.keys else d.keys ++ [k] := by
  cases h : d.get? k with
  | none =>
    have hk : k ∉ d.keys := fun hk => by simpa [h] using mem_keys_iff.mp hk
    rw [if_neg hk, keys, entries_set_of_get?_eq_none h, List.map_append]
    rfl
  | some w =>
    obtain ⟨pre, post, hd, hset⟩ := exists_entries_set (v := v) h
    rw [if_pos (mem_keys_iff.mpr ⟨w, h⟩), keys, keys, hset, hd, List.map_append, List.map_append]
    rfl

theorem sum_values_set (m : ν → ℕ) :
    ((d.set k v).values.map m).sum + (d.get? k).elim 0 m = (d.values.map m).sum + m v := by
  cases h : d.get? k with
  | none => simp [values, entries_set_of_get?_eq_none h]
  | some w =>
    obtain ⟨pre, post, hd, hset⟩ := exists_entries_set (v := v) h
    simp only [values, hset, hd, List.map_append, List.map_cons, List.sum_append, List.sum_cons,
      Option.elim_some]
    omega

/-- A dictionary is what it gives for its keys. -/
theorem map_some_values : d.values.map some = d.keys.map d.get? := by
  rw [values, keys, List.map_map, List.map_map]
  exact List.map_congr_left fun e he => (get?_eq_some_iff.mpr he).symm

omit [DecidableEq κ] in
theorem nodup_mapValues (g : ν → μ) (d : Dictionary κ ν) :
    ((d.entries.map fun e => (e.1, g e.2)).map Prod.fst).Nodup := by
  rw [List.map_map]
  exact d.nodup

/-- Another value for every key. -/
def mapValues (g : ν → μ) (d : Dictionary κ ν) : Dictionary κ μ :=
  ⟨d.entries.map fun e => (e.1, g e.2), nodup_mapValues g d⟩

theorem get?_mapValues (g : ν → μ) : (d.mapValues g).get? k = (d.get? k).map g := by
  rw [get?, get?, mapValues, List.find?_map, Option.map_map, Option.map_map]
  rfl

end Dictionary

/-! ### What a loop keeps -/

/-- What a loop over all values keeps. -/
def gathered (f : Option ν → α → ν) (l : List α) : Option ν :=
  l.foldl (fun v a => some (f v a)) none

variable {f : Option ν → α → ν} {g : Option μ → α → μ} {l : List α} {v : ν}

@[simp] theorem gathered_nil : gathered f [] = none := rfl

theorem gathered_concat (a : α) : gathered f (l ++ [a]) = some (f (gathered f l) a) := by
  rw [gathered, List.foldl_append]
  rfl

theorem gathered_eq_none_iff : gathered f l = none ↔ l = [] := by
  constructor
  · intro h
    rcases List.eq_nil_or_concat' l with rfl | ⟨l, a, rfl⟩
    · rfl
    · rw [gathered_concat] at h
      cases h
  · rintro rfl
    rfl

/-- What holds of the value that is kept: it holds after one value, and after every other. -/
theorem gathered_induction {P : List α → ν → Prop} (hone : ∀ a, P [a] (f none a))
    (hstep : ∀ l v a, P l v → P (l ++ [a]) (f (some v) a)) (h : gathered f l = some v) : P l v := by
  induction l using List.reverseRecOn generalizing v with
  | nil => cases h
  | append_singleton l a ih =>
    rw [gathered_concat, Option.some_inj] at h
    cases hl : gathered f l with
    | none =>
      obtain rfl : l = [] := gathered_eq_none_iff.mp hl
      rw [← h]
      exact hone a
    | some w =>
      rw [hl] at h
      rw [← h]
      exact hstep l w a (ih hl)

/-- A loop that keeps a part of what another loop keeps. -/
theorem map_gathered {h : ν → μ} (hf : ∀ v a, h (f v a) = g (v.map h) a) (l : List α) :
    (gathered f l).map h = gathered g l := by
  induction l using List.reverseRecOn with
  | nil => rfl
  | append_singleton l a ih => rw [gathered_concat, gathered_concat, Option.map_some, hf, ih]

/-- A loop that never replaces what it keeps. -/
theorem gathered_getD (l : List α) : gathered (fun v a => v.getD a) l = l.head? := by
  induction l using List.reverseRecOn with
  | nil => rfl
  | append_singleton l a ih =>
    rw [gathered_concat, ih]
    cases l <;> rfl

/-- A loop that keeps all values. -/
theorem gathered_append (l : List α) :
    gathered (fun own a => own.getD [] ++ [a]) l = if l = [] then none else some l := by
  induction l using List.reverseRecOn with
  | nil => rfl
  | append_singleton l a ih =>
    rw [gathered_concat, ih, if_neg (List.append_ne_nil_of_right_ne_nil l (List.cons_ne_nil a []))]
    split_ifs with hl
    · rw [hl]
      rfl
    · rfl

/-- Of the values of the highest rank the first. -/
def firstBest {ρ : Type*} [LinearOrder ρ] (rank : α → ρ) (prev : Option α) (a : α) : α :=
  match prev with
  | none => a
  | some p => if rank p < rank a then a else p

/-- A value of some values, of the highest rank. -/
def IsBest {ρ : Type*} [LinearOrder ρ] (rank : α → ρ) (l : List α) (a : α) : Prop :=
  a ∈ l ∧ ∀ b ∈ l, rank b ≤ rank a

theorem isBest_of_gathered_firstBest {ρ : Type*} [LinearOrder ρ] {rank : α → ρ} {a : α}
    (h : gathered (firstBest rank) l = some a) : IsBest rank l a := by
  refine gathered_induction (P := IsBest rank) ?_ ?_ h
  · intro a
    refine ⟨List.mem_singleton_self a, fun b hb => ?_⟩
    rw [List.mem_singleton.mp hb]
    exact le_rfl
  · rintro l v a ⟨hv, hmax⟩
    rw [firstBest]
    split_ifs with ha
    · refine ⟨List.mem_append_right l (List.mem_singleton_self a), fun b hb => ?_⟩
      rcases List.mem_append.mp hb with hb | hb
      · exact (hmax b hb).trans ha.le
      · rw [List.mem_singleton.mp hb]
    · refine ⟨List.mem_append_left _ hv, fun b hb => ?_⟩
      rcases List.mem_append.mp hb with hb | hb
      · exact hmax b hb
      · rw [List.mem_singleton.mp hb]
        exact not_lt.mp ha

/-- A value of the highest rank that comes first is kept. -/
theorem gathered_firstBest_cons {ρ : Type*} [LinearOrder ρ] {rank : α → ρ} {a : α}
    (h : ∀ b ∈ l, rank b ≤ rank a) : gathered (firstBest rank) (a :: l) = some a := by
  induction l using List.reverseRecOn with
  | nil => rfl
  | append_singleton l b ih =>
    rw [← List.cons_append, gathered_concat, ih fun c hc => h c (List.mem_append_left _ hc)]
    have hb := h b (List.mem_append_right l (List.mem_singleton_self b))
    exact congrArg some (if_neg (not_lt.mpr hb))

/-- A count of all values. -/
theorem elim_gathered {m : ν → ℕ} {w : α → ℕ} (hf : ∀ v a, m (f v a) = v.elim 0 m + w a)
    (l : List α) : (gathered f l).elim 0 m = (l.map w).sum := by
  induction l using List.reverseRecOn with
  | nil => rfl
  | append_singleton l a ih =>
    rw [gathered_concat, Option.elim_some, hf, ih, List.map_append, List.sum_append,
      List.map_singleton, List.sum_singleton]

section Gather

variable [DecidableEq κ]

/-- What a loop keeps for the key of each value. -/
def gather (key : α → κ) (f : Option ν → α → ν) (l : List α) : Dictionary κ ν :=
  l.foldl (fun d a => d.set (key a) (f (d.get? (key a)) a)) .empty

variable {key : α → κ}

theorem gather_concat (a : α) : gather key f (l ++ [a]) =
    (gather key f l).set (key a) (f ((gather key f l).get? (key a)) a) := by
  rw [gather, List.foldl_append]
  rfl

theorem gather_map {ι : Type*} (h : ι → α) (l : List ι) :
    gather key f (l.map h) = gather (key ∘ h) (fun v i => f v (h i)) l := by
  rw [gather, List.foldl_map]
  rfl

/-- A key keeps what the loop over its own values keeps. -/
theorem get?_gather (k : κ) :
    (gather key f l).get? k = gathered f (l.filter fun a => key a = k) := by
  induction l using List.reverseRecOn with
  | nil => rfl
  | append_singleton l a ih =>
    rw [gather_concat, Dictionary.get?_set, List.filter_append, List.filter_singleton]
    split_ifs with hk
    · subst hk
      rw [decide_eq_true rfl, cond_true, gathered_concat, ih]
    · rw [decide_eq_false (Ne.symm hk), cond_false, List.append_nil, ih]

theorem keys_gather_concat (a : α) : (gather key f (l ++ [a])).keys =
    if key a ∈ (gather key f l).keys then (gather key f l).keys
      else (gather key f l).keys ++ [key a] := by
  rw [gather_concat, Dictionary.keys_set]

/-- The keys do not depend on what is kept. -/
theorem keys_gather (f : Option ν → α → ν) (g : Option μ → α → μ) (l : List α) :
    (gather key f l).keys = (gather key g l).keys := by
  induction l using List.reverseRecOn with
  | nil => rfl
  | append_singleton l a ih => rw [keys_gather_concat, keys_gather_concat, ih]

theorem map_gather {h : ν → μ} (hf : ∀ v a, h (f v a) = g (v.map h) a) (l : List α) :
    (gather key f l).values.map h = (gather key g l).values := by
  have hget : ∀ k, ((gather key f l).get? k).map h = (gather key g l).get? k := by
    intro k
    rw [get?_gather, get?_gather, map_gathered hf]
  refine List.map_injective_iff.mpr (Option.some_injective μ) ?_
  rw [Dictionary.map_some_values, ← keys_gather f g, ← funext hget, List.map_map]
  have := congrArg (List.map (Option.map h)) (Dictionary.map_some_values (d := gather key f l))
  rw [List.map_map, List.map_map] at this
  exact this

theorem mem_keys_gather_iff {k : κ} : k ∈ (gather key f l).keys ↔ k ∈ l.map key := by
  rw [Dictionary.mem_keys_iff, get?_gather, ← Option.ne_none_iff_exists', ne_eq,
    gathered_eq_none_iff, List.filter_eq_nil_iff, List.mem_map]
  push Not
  simp only [decide_eq_true_eq]

/-- As many values are kept as there are keys. -/
theorem length_values_gather : (gather key f l).values.length = (l.map key).dedup.length := by
  have hperm : (gather key f l).keys.Perm (l.map key).dedup := by
    refine (List.perm_ext_iff_of_nodup (gather key f l).nodup (List.nodup_dedup _)).mpr ?_
    intro k
    rw [List.mem_dedup]
    exact mem_keys_gather_iff
  rw [← hperm.length_eq, Dictionary.keys, Dictionary.values, List.length_map, List.length_map]

/-- A count for every key adds up to the count of all values: of what is kept for a key, it is
enough to know that it was made of the values with that key. -/
theorem sum_gather_of_forall {m : ν → ℕ} {w : α → ℕ}
    (hf : ∀ (l : List α) a, m (f (gathered f (l.filter fun b => key b = key a)) a) =
      (gathered f (l.filter fun b => key b = key a)).elim 0 m + w a) (l : List α) :
    ((gather key f l).values.map m).sum = (l.map w).sum := by
  induction l using List.reverseRecOn with
  | nil => rfl
  | append_singleton l a ih =>
    have hset := Dictionary.sum_values_set (d := gather key f l) (k := key a)
      (v := f ((gather key f l).get? (key a)) a) m
    rw [get?_gather, hf] at hset
    rw [gather_concat, get?_gather, List.map_append, List.sum_append, List.map_singleton,
      List.sum_singleton]
    omega

/-- A count for every key adds up to the count of all values. -/
theorem sum_gather {m : ν → ℕ} {w : α → ℕ} (hf : ∀ v a, m (f v a) = v.elim 0 m + w a)
    (l : List α) : ((gather key f l).values.map m).sum = (l.map w).sum :=
  sum_gather_of_forall (fun _ a => hf _ a) l

/-! ### Seen keys -/

/-- The values whose key is not among the keys seen before: what a loop with a set of seen keys does
not skip. -/
def unseen (key : α → κ) : List κ → List α → List α
  | _, [] => []
  | seen, a :: l =>
    if key a ∈ seen then unseen key seen l else a :: unseen key (key a :: seen) l

theorem values_foldl_unseen (d : Dictionary κ α) (seen : List κ)
    (hseen : ∀ k, k ∈ seen ↔ k ∈ d.keys) (l : List α) :
    (l.foldl (fun d a => d.set (key a) ((d.get? (key a)).getD a)) d).values =
      d.values ++ unseen key seen l := by
  induction l generalizing d seen with
  | nil => exact (List.append_nil _).symm
  | cons a l ih =>
    rw [List.foldl_cons, unseen]
    split_ifs with ha
    · obtain ⟨b, hb⟩ := Dictionary.mem_keys_iff.mp ((hseen _).mp ha)
      obtain ⟨pre, post, hd, hset⟩ := Dictionary.exists_entries_set (v := b) hb
      rw [hb, Option.getD_some, ih _ seen]
      · rw [Dictionary.values, Dictionary.values, hset, hd]
      · intro k
        rw [hseen, Dictionary.keys, Dictionary.keys, hset, hd]
    · have hnone : d.get? (key a) = none := by
        cases h : d.get? (key a) with
        | none => rfl
        | some b => exact absurd ((hseen _).mpr (Dictionary.mem_keys_iff.mpr ⟨b, h⟩)) ha
      have hset := Dictionary.entries_set_of_get?_eq_none (v := a) hnone
      rw [hnone, Option.getD_none, ih _ (key a :: seen)]
      · rw [Dictionary.values, Dictionary.values, hset, List.map_append, List.append_assoc]
        rfl
      · intro k
        rw [List.mem_cons, hseen, Dictionary.keys, Dictionary.keys, hset, List.map_append,
          List.mem_append, or_comm, List.map_singleton, List.mem_singleton]

theorem unseen_eq_self_of_nodup {seen : List κ} (hnodup : (l.map key).Nodup)
    (hseen : ∀ a ∈ l, key a ∉ seen) : unseen key seen l = l := by
  induction l generalizing seen with
  | nil => rfl
  | cons a l ih =>
    obtain ⟨ha, hl⟩ := List.nodup_cons.mp hnodup
    rw [unseen, if_neg (hseen a List.mem_cons_self), ih hl]
    intro b hb hmem
    rcases List.mem_cons.mp hmem with heq | hmem
    · exact ha (List.mem_map.mpr ⟨b, hb, heq⟩)
    · exact hseen b (List.mem_cons_of_mem a hb) hmem

/-- When no two values have one key, none is skipped. -/
theorem unseen_eq_self (h : (l.map key).Nodup) : unseen key [] l = l :=
  unseen_eq_self_of_nodup h fun _ _ => List.not_mem_nil

theorem unseen_sublist (seen : List κ) (l : List α) : (unseen key seen l).Sublist l := by
  induction l generalizing seen with
  | nil => exact List.Sublist.slnil
  | cons a l ih =>
    rw [unseen]
    split_ifs
    · exact (ih seen).cons a
    · exact (ih _).cons_cons a

/-- What is not skipped has a key that was not seen. -/
theorem key_notMem_of_mem_unseen {seen : List κ} {a : α} (h : a ∈ unseen key seen l) :
    key a ∉ seen := by
  induction l generalizing seen with
  | nil => exact absurd h List.not_mem_nil
  | cons b l ih =>
    rw [unseen] at h
    split_ifs at h with hb
    · exact ih h
    · rcases List.mem_cons.mp h with rfl | h
      · exact hb
      · exact fun hmem => ih h (List.mem_cons_of_mem _ hmem)

theorem mem_map_key_unseen {seen : List κ} {k : κ} :
    k ∈ (unseen key seen l).map key ↔ k ∈ l.map key ∧ k ∉ seen := by
  constructor
  · intro h
    obtain ⟨a, ha, rfl⟩ := List.mem_map.mp h
    exact ⟨List.mem_map_of_mem ((unseen_sublist seen l).subset ha), key_notMem_of_mem_unseen ha⟩
  · rintro ⟨hmem, hseen⟩
    induction l generalizing seen with
    | nil => exact absurd hmem List.not_mem_nil
    | cons a l ih =>
      rw [unseen]
      rw [List.map_cons, List.mem_cons] at hmem
      split_ifs with ha
      · refine ih (hmem.resolve_left ?_) hseen
        rintro rfl
        exact hseen ha
      · rw [List.map_cons, List.mem_cons]
        by_cases hk : k = key a
        · exact .inl hk
        · refine .inr (ih (hmem.resolve_left hk) fun h => ?_)
          exact (List.mem_cons.mp h).elim hk hseen

/-- A value that no other value shares its key with is skipped only if its key was seen. -/
theorem mem_unseen {seen : List κ} {a : α} (hinj : ∀ b ∈ l, key b = key a → b = a) (ha : a ∈ l)
    (hseen : key a ∉ seen) : a ∈ unseen key seen l := by
  obtain ⟨b, hb, hkey⟩ := List.mem_map.mp
    (mem_map_key_unseen.mpr ⟨List.mem_map_of_mem (f := key) ha, hseen⟩)
  rwa [← hinj b ((unseen_sublist seen l).subset hb) hkey]

/-- One more value. -/
theorem unseen_concat (seen : List κ) (l : List α) (a : α) :
    unseen key seen (l ++ [a]) =
      unseen key seen l ++ if key a ∈ seen ∨ key a ∈ l.map key then [] else [a] := by
  induction l generalizing seen with
  | nil => by_cases ha : key a ∈ seen <;> simp [unseen, ha]
  | cons b l ih =>
    rw [List.cons_append, unseen, unseen]
    by_cases hb : key b ∈ seen
    · rw [if_pos hb, if_pos hb, ih]
      congr 1
      refine if_congr ?_ rfl rfl
      rw [List.map_cons, List.mem_cons]
      refine or_congr_right' fun hnot => (or_iff_right fun heq => hnot ?_).symm
      rwa [heq]
    · rw [if_neg hb, if_neg hb, ih, List.cons_append]
      congr 2
      refine if_congr ?_ rfl rfl
      rw [List.map_cons, List.mem_cons, List.mem_cons, or_assoc, or_left_comm]

/-- The set of seen keys keeps the first value of every key. -/
theorem values_unseen (l : List α) :
    (gather key (fun v a => v.getD a) l).values = unseen key [] l :=
  (values_foldl_unseen .empty [] (fun _ => Iff.rfl) l).trans (List.nil_append _)

end Gather

end Keyed
