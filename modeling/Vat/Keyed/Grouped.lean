import Mathlib.Order.Defs.Unbundled
import Vat.Keyed.Gather

/-!
# Groups and pages

A list groups values by a key that some of them lack. A page gathers, for a key, the values whose
key is the same up to a relation. The pages show the groups exactly when the relation does not join
the keys of two groups.

## Main definitions

* `grouped`: the groups, in the order of their first value.
* `page`: the values whose key is related to a key.
* `Apart`: no two different keys of values are related.

## Main results

* `get?_grouped`: a group has the values with its key, in their order.
* `page_eq_iff_apart`, `existsUnique_page_iff_apart`: when the pages show the groups.
-/

namespace Keyed

variable {α κ : Type*} [DecidableEq κ]

/-- A value goes to the end of the group of its key; a value without a key goes nowhere. -/
def grouped (key : α → Option κ) (l : List α) : Dictionary κ (List α) :=
  l.foldl (fun d a =>
    match key a with
    | none => d
    | some k => d.set k ((d.get? k).getD [] ++ [a])) .empty

variable {key : α → Option κ} {l : List α} {k k' : κ}

theorem grouped_concat (a : α) : grouped key (l ++ [a]) =
    match key a with
    | none => grouped key l
    | some k => (grouped key l).set k (((grouped key l).get? k).getD [] ++ [a]) := by
  rw [grouped, List.foldl_append]
  rfl

/-- A group has the values with its key, in their order. -/
theorem get?_grouped (k : κ) : (grouped key l).get? k =
    if l.filter (key · = some k) = [] then none else some (l.filter (key · = some k)) := by
  induction l using List.reverseRecOn with
  | nil => rfl
  | append_singleton l a ih =>
    rw [grouped_concat, List.filter_append, List.filter_singleton]
    cases hkey : key a with
    | none =>
      rw [decide_eq_false (Option.some_ne_none k).symm, cond_false, List.append_nil]
      exact ih
    | some own =>
      dsimp only
      rw [Dictionary.get?_set]
      by_cases hk : k = own
      · subst hk
        rw [if_pos rfl, decide_eq_true rfl, cond_true, ih,
          if_neg (List.append_ne_nil_of_right_ne_nil _ (List.cons_ne_nil a []))]
        split_ifs with hnil
        · rw [hnil, Option.getD_none]
        · rw [Option.getD_some]
      · rw [if_neg hk, decide_eq_false fun h => hk (Option.some_inj.mp h).symm, cond_false,
          List.append_nil]
        exact ih

theorem mem_entries_grouped {own : List α} : (k, own) ∈ (grouped key l).entries ↔
    own = l.filter (key · = some k) ∧ ∃ a ∈ l, key a = some k := by
  rw [← Dictionary.get?_eq_some_iff, get?_grouped]
  constructor
  · intro h
    split_ifs at h with hnil
    obtain ⟨a, ha⟩ := List.exists_mem_of_ne_nil _ hnil
    rw [List.mem_filter, decide_eq_true_eq] at ha
    exact ⟨(Option.some_inj.mp h).symm, a, ha⟩
  · rintro ⟨heq, a, ha, hkey⟩
    have hmem : a ∈ l.filter (key · = some k) := by
      rw [List.mem_filter, decide_eq_true_eq]
      exact ⟨ha, hkey⟩
    rw [if_neg (List.ne_nil_of_mem hmem), heq]

/-- The values of one group have one group. -/
theorem grouped_group {e : κ × List α} (he : e ∈ (grouped key l).entries) :
    (grouped key e.2).entries = [e] := by
  obtain ⟨k, own⟩ := e
  obtain ⟨rfl, a, ha, hk⟩ := mem_entries_grouped.mp he
  have hgroup : ∀ b ∈ l.filter (key · = some k), key b = some k := by
    intro b hb
    rw [List.mem_filter, decide_eq_true_eq] at hb
    exact hb.2
  have hself : (l.filter (key · = some k)).filter (key · = some k) = l.filter (key · = some k) :=
    List.filter_eq_self.mpr fun b hb => decide_eq_true (hgroup b hb)
  refine List.perm_singleton.mp ((List.perm_ext_iff_of_nodup
    (grouped key _).nodup.of_map (List.nodup_singleton _)).mpr fun e => ?_)
  obtain ⟨k', own'⟩ := e
  rw [mem_entries_grouped, List.mem_singleton, Prod.mk.injEq]
  constructor
  · rintro ⟨rfl, b, hb, hk'⟩
    cases (hgroup b hb).symm.trans hk'
    exact ⟨rfl, hself⟩
  · rintro ⟨rfl, rfl⟩
    have hmem : a ∈ l.filter (key · = some k') := by
      rw [List.mem_filter, decide_eq_true_eq]
      exact ⟨ha, hk⟩
    exact ⟨hself.symm, a, hmem, hk⟩

/-! ### Pages -/

section Pages

variable (r : κ → κ → Prop) [DecidableRel r]

/-- The values whose key is related to a key. -/
def page (key : α → Option κ) (l : List α) (k : κ) : List α :=
  l.filter fun a => (key a).any fun own => r own k

/-- No two different keys of values are related. -/
def Apart (key : α → Option κ) (l : List α) : Prop :=
  ∀ a ∈ l, ∀ b ∈ l, ∀ k ∈ key a, ∀ k' ∈ key b, r k k' → k = k'

variable {r}

omit [DecidableEq κ] in
theorem mem_page {a : α} : a ∈ page r key l k ↔ a ∈ l ∧ ∃ own ∈ key a, r own k := by
  rw [page, List.mem_filter, Option.any_eq_true]
  simp only [decide_eq_true_eq, Option.mem_def]

variable (hr : Equivalence r)
include hr

/-- The pages of the groups are the groups exactly when the keys are apart. -/
theorem page_eq_iff_apart :
    (∀ e ∈ (grouped key l).entries, page r key l e.1 = e.2) ↔ Apart r key l := by
  constructor
  · intro h a ha b hb k hk k' hk' hrel
    have hentry : (k', l.filter (key · = some k')) ∈ (grouped key l).entries :=
      mem_entries_grouped.mpr ⟨rfl, b, hb, hk'⟩
    have hmem : a ∈ page r key l k' := mem_page.mpr ⟨ha, k, hk, hrel⟩
    rw [h _ hentry, List.mem_filter, decide_eq_true_eq] at hmem
    exact Option.some_inj.mp (hk.symm.trans hmem.2)
  · rintro h ⟨k, own⟩ he
    obtain ⟨rfl, b, hb, hk⟩ := mem_entries_grouped.mp he
    refine List.filter_congr fun a ha => ?_
    rw [Bool.eq_iff_iff, decide_eq_true_eq, Option.any_eq_true]
    constructor
    · rintro ⟨k', hk', hrel⟩
      rw [← h a ha b hb k' hk' k hk (of_decide_eq_true hrel)]
      exact hk'
    · exact fun hkey => ⟨k, hkey, decide_eq_true (hr.refl k)⟩

/-- Every value with a key is on the page of one group only exactly when the keys are apart. -/
theorem existsUnique_page_iff_apart :
    (∀ a ∈ l, (key a).isSome → ∃! e, e ∈ (grouped key l).entries ∧ a ∈ page r key l e.1) ↔
      Apart r key l := by
  constructor
  · intro h a ha b hb k hk k' hk' hrel
    obtain ⟨e, -, hunique⟩ := h a ha (Option.isSome_of_mem hk)
    have hleft := hunique (k, l.filter (key · = some k))
      ⟨mem_entries_grouped.mpr ⟨rfl, a, ha, hk⟩, mem_page.mpr ⟨ha, k, hk, hr.refl k⟩⟩
    have hright := hunique (k', l.filter (key · = some k'))
      ⟨mem_entries_grouped.mpr ⟨rfl, b, hb, hk'⟩, mem_page.mpr ⟨ha, k, hk, hrel⟩⟩
    exact congrArg Prod.fst (hleft.trans hright.symm)
  · intro h a ha hsome
    obtain ⟨k, hk⟩ := Option.isSome_iff_exists.mp hsome
    refine ⟨(k, l.filter (key · = some k)),
      ⟨mem_entries_grouped.mpr ⟨rfl, a, ha, hk⟩, mem_page.mpr ⟨ha, k, hk, hr.refl k⟩⟩, ?_⟩
    rintro ⟨k', own⟩ ⟨he, hmem⟩
    obtain ⟨rfl, b, hb, hk'⟩ := mem_entries_grouped.mp he
    obtain ⟨-, k'', hk'', hrel⟩ := mem_page.mp hmem
    cases hk.symm.trans hk''
    rw [h a ha b hb k hk k' hk' hrel]

omit [DecidableRel r] hr in
/-- Two groups are not related exactly when the keys are apart. -/
theorem entries_eq_iff_apart :
    (∀ e ∈ (grouped key l).entries, ∀ e' ∈ (grouped key l).entries, r e.1 e'.1 → e = e') ↔
      Apart r key l := by
  constructor
  · intro h a ha b hb k hk k' hk' hrel
    exact congrArg Prod.fst (h (k, _) (mem_entries_grouped.mpr ⟨rfl, a, ha, hk⟩) (k', _)
      (mem_entries_grouped.mpr ⟨rfl, b, hb, hk'⟩) hrel)
  · rintro h ⟨k, own⟩ he ⟨k', own'⟩ he' hrel
    obtain ⟨rfl, a, ha, hk⟩ := mem_entries_grouped.mp he
    obtain ⟨rfl, b, hb, hk'⟩ := mem_entries_grouped.mp he'
    rw [h a ha b hb k hk k' hk' hrel]

end Pages

end Keyed
