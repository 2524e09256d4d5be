import Vat.Regular.Backtracking
import Vat.Tracker.IssueBody

/-!
# Group keys in issue descriptions

An issue that VAT opens in groups mode ends with a marker that has the group key. The key is read
back by the first place of the description that looks like a marker, up to the first bracket: an
earlier marker in the description of the finding, and a bracket in the key, change what is read.

Source: `backend/app/adapters/linear.py`, lines 979–997 and 1689–1697.

## Main definitions

* `extractGroupKey`: the key that is read.
* `MarkerAt`, `Marks`: the first marker of a text.

## Main results

* `extractGroupKey_eq_some_iff`: the key that is read is that of the first marker.
-/

namespace Vat

open Regex

/-- `_VAT_GROUP_RE`. -/
def vatGroupRe : Regex Char Unit :=
  .all [.literal (· == ·) (str "[VAT-GROUP:"), .many true Str.isSpace,
    .group () (.plus true (· != ']')), .one (· == ']')]

/-- `_extract_group_key`. -/
def extractGroupKey (desc : Str) : Option Str :=
  if desc = [] then none else (vatGroupRe.search desc).map fun g => Str.strip (Str.orEmpty (g ()))

/-! ### Markers -/

/-- A text starts with a marker, and what is inside it. -/
structure MarkerAt (s inner : Str) : Prop where
  eq_append : ∃ after, s = str "[VAT-GROUP:" ++ inner ++ ']' :: after
  ne_nil : inner ≠ []
  notMem : ']' ∉ inner

/-- The first marker of a text has this key. -/
def Marks (desc key : Str) : Prop :=
  ∃ before s inner, desc = before ++ s ∧ MarkerAt s inner ∧ Str.strip inner = key ∧
    ∀ before' s' inner', desc = before' ++ s' → MarkerAt s' inner' → before.length ≤ before'.length

theorem isSpace_ne_bracket {c : Char} (h : Str.isSpace c = true) : c ≠ ']' := by
  rintro rfl
  exact absurd h (by decide)

theorem bracket_notMem {u : Str} (h : ∀ c ∈ u, (c != ']') = true) : ']' ∉ u := fun hmem => by
  simpa using h ']' hmem

/-- The expression matches at a marker, and reads what is inside it. -/
theorem markerAt_of_mem_run {s t : Str} {g : Groups Char Unit}
    (h : (g, t) ∈ run vatGroupRe (fun _ => none) s) :
    ∃ inner, MarkerAt s inner ∧ Str.strip (Str.orEmpty (g ())) = Str.strip inner := by
  obtain ⟨g₁, t₁, h₁, r₁⟩ := mem_run_all.mp h
  obtain ⟨g₂, t₂, h₂, r₂⟩ := mem_run_all.mp r₁
  obtain ⟨g₃, t₃, h₃, r₃⟩ := mem_run_all.mp r₂
  obtain ⟨g₄, t₄, h₄, r₄⟩ := mem_run_all.mp r₃
  obtain ⟨rfl, u, hu, rfl⟩ := mem_run_literal h₁
  obtain ⟨rfl, spaces, hspaces, rfl⟩ := mem_run_many.mp h₂
  obtain ⟨g₃', t₃', h₃', he⟩ := mem_run_group.mp h₃
  obtain ⟨rfl, w, hw, hbracket, rfl⟩ := mem_run_plus.mp h₃'
  obtain ⟨rfl, rfl⟩ := Prod.mk.inj he
  obtain ⟨rfl, c, hc, rfl⟩ := mem_run_one.mp h₄
  obtain ⟨rfl, rfl⟩ := Prod.mk.inj (List.mem_singleton.mp r₄)
  obtain rfl : str "[VAT-GROUP:" = u := by
    refine List.forall₂_eq_eq_eq ▸ hu.imp fun _ _ h => by simpa using h
  obtain rfl : c = ']' := by simpa using hc
  refine ⟨spaces ++ w, ⟨⟨t, by simp only [List.append_assoc]⟩, by simp [hw], fun hmem => ?_⟩, ?_⟩
  · rcases List.mem_append.mp hmem with hmem | hmem
    · exact isSpace_ne_bracket (hspaces _ hmem) rfl
    · exact bracket_notMem hbracket hmem
  · rw [Function.update_self, consumed_append, Str.strip, Str.strip, Str.stripWhile, Str.stripWhile,
      List.dropWhile_append_of_pos hspaces]
    rfl

theorem exists_mem_run_of_markerAt {s inner : Str} (h : MarkerAt s inner) :
    ∃ m, m ∈ run vatGroupRe (fun _ => none) s := by
  obtain ⟨⟨after, rfl⟩, hne, hnot⟩ := h
  have hliteral : List.Forall₂ (fun c d : Char => (c == d) = true) (str "[VAT-GROUP:")
      (str "[VAT-GROUP:") := List.forall₂_same.mpr fun _ _ => beq_self_eq_true _
  have hinner : ∀ c ∈ inner, (c != ']') = true := fun c hc => by
    simp only [bne_iff_ne, ne_eq]
    rintro rfl
    exact hnot hc
  have hrun : ((fun _ => none : Groups Char Unit), inner ++ ']' :: after) ∈
      run (.literal (· == ·) (str "[VAT-GROUP:")) (fun _ => none)
        (str "[VAT-GROUP:" ++ (inner ++ ']' :: after)) := by
    rw [run_literal_append hliteral]
    exact List.mem_singleton.mpr rfl
  rw [List.append_assoc]
  refine exists_mem_run_all hrun ?_
  refine exists_mem_run_all (mem_run_many.mpr ⟨rfl, [], by simp, rfl⟩) ?_
  refine exists_mem_run_all (mem_run_group.mpr
    ⟨_, ']' :: after, mem_run_plus.mpr ⟨rfl, inner, hne, hinner, rfl⟩, rfl⟩) ?_
  exact exists_mem_run_all (mem_run_one.mpr ⟨rfl, ']', by decide, rfl⟩)
    ⟨_, List.mem_singleton.mpr rfl⟩

theorem MarkerAt.unique {s inner inner' : Str} (h : MarkerAt s inner) (h' : MarkerAt s inner') :
    inner = inner' := by
  have htake : ∀ {u after : Str}, ']' ∉ u → (u ++ ']' :: after).takeWhile (· != ']') = u := by
    intro u after hu
    rw [List.takeWhile_append_of_pos fun c hc => ?_, List.takeWhile_cons_of_neg (by simp),
      List.append_nil]
    simp only [bne_iff_ne, ne_eq]
    rintro rfl
    exact hu hc
  obtain ⟨⟨after, rfl⟩, -, hnot⟩ := h
  obtain ⟨⟨after', heq⟩, -, hnot'⟩ := h'
  rw [List.append_assoc, List.append_assoc] at heq
  rw [← htake hnot, List.append_cancel_left heq, htake hnot']

theorem not_markerAt_nil {inner : Str} : ¬ MarkerAt [] inner := by
  rintro ⟨⟨after, h⟩, -, -⟩
  simp at h

theorem marks_of_markerAt {s inner : Str} (h : MarkerAt s inner) {key : Str} :
    Marks s key ↔ Str.strip inner = key := by
  constructor
  · rintro ⟨before, s', inner', heq, hs', rfl, hfirst⟩
    have hnil : before = [] := List.length_eq_zero_iff.mp
      (Nat.le_zero.mp (hfirst [] s inner (List.nil_append s).symm h))
    rw [hnil, List.nil_append] at heq
    rw [h.unique (heq ▸ hs')]
  · intro hkey
    exact ⟨[], s, inner, (List.nil_append s).symm, h, hkey, fun _ _ _ _ _ => Nat.zero_le _⟩

theorem marks_cons_iff {c : Char} {s key : Str} (h : ∀ inner, ¬ MarkerAt (c :: s) inner) :
    Marks (c :: s) key ↔ Marks s key := by
  constructor
  · rintro ⟨before, s', inner, heq, hs', hkey, hfirst⟩
    cases before with
    | nil => exact absurd (heq ▸ hs') (h inner)
    | cons d before =>
      obtain ⟨rfl, rfl⟩ := List.cons.inj heq
      refine ⟨before, s', inner, rfl, hs', hkey, fun before' s'' inner' heq' hs'' => ?_⟩
      exact Nat.le_of_succ_le_succ (hfirst (c :: before') s'' inner' (by rw [heq']; rfl) hs'')
  · rintro ⟨before, s', inner, rfl, hs', hkey, hfirst⟩
    refine ⟨c :: before, s', inner, rfl, hs', hkey, fun before' s'' inner' heq' hs'' => ?_⟩
    cases before' with
    | nil => exact absurd (heq' ▸ hs'') (h inner')
    | cons d before' =>
      exact Nat.succ_le_succ (hfirst before' s'' inner' (List.cons.inj heq').2 hs'')

theorem search_eq_some_iff {desc key : Str} :
    ((vatGroupRe.search desc).map fun g => Str.strip (Str.orEmpty (g ()))) = some key ↔
      Marks desc key := by
  induction desc with
  | nil =>
    refine iff_of_false (fun h => ?_) fun h => ?_
    · obtain ⟨g, hg, -⟩ := Option.map_eq_some_iff.mp h
      obtain ⟨u, v, t, huv, hm⟩ := exists_mem_of_search hg
      obtain ⟨-, rfl⟩ := List.append_eq_nil_iff.mp huv.symm
      obtain ⟨inner, hinner, -⟩ := markerAt_of_mem_run hm
      exact not_markerAt_nil hinner
    · obtain ⟨before, s, inner, heq, hs, -⟩ := h
      obtain ⟨-, rfl⟩ := List.append_eq_nil_iff.mp heq.symm
      exact not_markerAt_nil hs
  | cons c s ih =>
    rw [search]
    cases hstart : matchStart vatGroupRe (c :: s) with
    | none =>
      have hno : ∀ inner, ¬ MarkerAt (c :: s) inner := fun inner hinner =>
        matchStart_ne_none.mpr (exists_mem_run_of_markerAt hinner) hstart
      rw [marks_cons_iff hno, ← ih]
      rfl
    | some m =>
      obtain ⟨inner, hinner, hread⟩ := markerAt_of_mem_run (mem_of_matchStart hstart)
      rw [marks_of_markerAt hinner, ← hread]
      simp only [Option.map_some, Option.some_or, Option.some.injEq]

/-- What is read is the key of the first marker. -/
theorem extractGroupKey_eq_some_iff {desc key : Str} :
    extractGroupKey desc = some key ↔ Marks desc key := by
  rw [← search_eq_some_iff, extractGroupKey]
  split
  · next hnil =>
    rw [hnil]
    rfl
  · rfl

end Vat
