import Mathlib.Data.List.Nodup
import Vat.Tracker.GroupMarker

/-!
# The issue of a group key

In groups mode VAT opens an issue for a group key only if it finds none: it pages through the issues
of the team, at most 200 of them, and takes the first one whose description reads as the key. What
it finds was created for the key, and it finds one whenever there is one, exactly if the first issue
that shows the key within these 200 was created for it, or there is none of either kind
(`Board.finds_group_issue_iff`).

Source: `backend/app/adapters/linear.py`, lines 979–997, 1531–1598 and 1689–1728;
`backend/app/services/sync_service.py`, lines 544–562.

## Main definitions

* `BoardIssue`, `Board`: the issues of the team, in the order in which they are listed.
* `listIssues`, `findExistingIssueForGroupKey`: the pages and the search.

## Main results

* `findExistingIssueForGroupKey_eq`: the search is over the first issues of the list.
* `Board.finds_group_issue_iff`: when it finds the issue of a key.
-/

namespace Vat

/-! ### The tracker -/

/-- An issue in the list: the finding and the template from which VAT created it, and its
description if it was edited or is of somebody else's making. -/
structure BoardIssue where
  identifier : Str
  id : Str
  created : Option (IssueFinding × List FormatPart)
  edited : Option Str

namespace BoardIssue

/-- `node.get("identifier") or node.get("id")`. -/
def name (i : BoardIssue) : Str := if i.identifier = [] then i.id else i.identifier

def description (i : BoardIssue) : Str :=
  i.edited.getD ((i.created.map fun c => buildIssueBody c.1 c.2).getD [])

/-- The group key for which VAT created the issue. -/
def createdFor (i : BoardIssue) : Option Str :=
  (i.created.bind fun c => c.1.groupKey).filter (· ≠ [])

end BoardIssue

/-- The issues of the team in the order in which the tracker lists them; it gives each a name of its
own. -/
structure Board where
  issues : List BoardIssue
  names_nodup : (issues.map BoardIssue.name).Nodup
  name_ne_nil : ∀ i ∈ issues, i.name ≠ []

/-- `list_issues`: a page, and the cursor of the next one. -/
def listIssues (issues : List BoardIssue) (first : ℕ) (after : Option ℕ) :
    List BoardIssue × Option ℕ :=
  let first := if 250 < first then 250 else first
  let start := after.getD 0
  ((issues.drop start).take first,
    if start + first < issues.length then some (start + first) else none)

/-! ### The search -/

/-- The name of an issue whose description reads as the key. -/
def BoardIssue.matching (needle : Str) (i : BoardIssue) : Option Str :=
  if i.name = [] then none
  else
    match extractGroupKey i.description with
    | none => none
    | some extracted => if extracted ≠ [] ∧ extracted = needle then some i.name else none

/-- A page that is followed by another one is not empty. -/
theorem length_page_pos {issues : List BoardIssue} {first next : ℕ} {after : Option ℕ}
    (hfirst : 0 < first) (h : (listIssues issues first after).2 = some next) :
    0 < (listIssues issues first after).1.length := by
  have hsize : 0 < if 250 < first then 250 else first := by
    split
    · decide
    · exact hfirst
  simp only [listIssues] at h ⊢
  generalize (if 250 < first then 250 else first) = size at hsize h ⊢
  split at h
  · next hmore =>
    rw [List.length_take, List.length_drop]
    omega
  · simp at h

/-- The loop over the pages. -/
def searchPages (issues : List BoardIssue) (needle : Str) (maxIssues fetched : ℕ)
    (cursor : Option ℕ) : Option Str :=
  if _hlt : fetched < maxIssues then
    let first := min 100 (maxIssues - fetched)
    match (listIssues issues first cursor).1.findSome? (BoardIssue.matching needle) with
    | some name => some name
    | none =>
      match _hnext : (listIssues issues first cursor).2 with
      | none => none
      | some next =>
        searchPages issues needle maxIssues
          (fetched + (listIssues issues first cursor).1.length) (some next)
  else none
termination_by maxIssues - fetched
decreasing_by
  have hfirst : 0 < min 100 (maxIssues - fetched) := by omega
  have := length_page_pos hfirst _hnext
  omega

/-- `find_existing_issue_for_group_key`. -/
def findExistingIssueForGroupKey (issues : List BoardIssue) (groupKey : Str) (maxIssues : ℕ) :
    Option Str :=
  if Str.strip groupKey = [] then none
  else searchPages issues (Str.strip groupKey) maxIssues 0 none

/-- A page of a size that the tracker allows, and the rest. -/
theorem take_eq_page_append {issues : List BoardIssue} {first remaining : ℕ} {after : Option ℕ}
    (hfirst : first ≤ remaining) (hsize : first ≤ 250) :
    (issues.drop (after.getD 0)).take remaining =
      (listIssues issues first after).1 ++
        (issues.drop (after.getD 0 + first)).take (remaining - first) := by
  obtain ⟨rest, rfl⟩ := Nat.exists_eq_add_of_le hfirst
  simp only [listIssues, if_neg (Nat.not_lt.mpr hsize)]
  rw [List.take_add, List.drop_drop, Nat.add_sub_cancel_left]

theorem drop_eq_nil_of_last_page {issues : List BoardIssue} {first : ℕ} {after : Option ℕ}
    (hsize : first ≤ 250) (h : (listIssues issues first after).2 = none) :
    issues.drop (after.getD 0 + first) = [] := by
  simp only [listIssues, if_neg (Nat.not_lt.mpr hsize)] at h
  split at h
  · simp at h
  · next hlast => exact List.drop_eq_nil_of_le (Nat.not_lt.mp hlast)

theorem next_page_eq {issues : List BoardIssue} {first next : ℕ} {after : Option ℕ}
    (hsize : first ≤ 250) (h : (listIssues issues first after).2 = some next) :
    next = after.getD 0 + first ∧ (listIssues issues first after).1.length = first := by
  simp only [listIssues, if_neg (Nat.not_lt.mpr hsize)] at h ⊢
  split at h
  · next hmore =>
    refine ⟨(Option.some.inj h).symm, ?_⟩
    rw [List.length_take, List.length_drop]
    omega
  · simp at h

/-- The pages that are searched are the issues from the cursor on, as many as may still be
fetched. -/
theorem searchPages_eq (issues : List BoardIssue) (needle : Str) (maxIssues fetched : ℕ)
    (cursor : Option ℕ) :
    searchPages issues needle maxIssues fetched cursor =
      ((issues.drop (cursor.getD 0)).take (maxIssues - fetched)).findSome?
        (BoardIssue.matching needle) := by
  fun_induction searchPages issues needle maxIssues fetched cursor with
  | case1 fetched cursor hlt first name hfound =>
    rw [take_eq_page_append (Nat.min_le_right 100 (maxIssues - fetched)) (by omega),
      List.findSome?_append, hfound]
    rfl
  | case2 fetched cursor hlt first hnone hnext =>
    have hsize : first ≤ 250 := by omega
    rw [take_eq_page_append (Nat.min_le_right 100 (maxIssues - fetched)) hsize,
      List.findSome?_append, hnone, drop_eq_nil_of_last_page hsize hnext, List.take_nil]
    rfl
  | case3 fetched cursor hlt first hnone next hnext ih =>
    have hsize : first ≤ 250 := by omega
    obtain ⟨rfl, hlength⟩ := next_page_eq hsize hnext
    rw [take_eq_page_append (Nat.min_le_right 100 (maxIssues - fetched)) hsize,
      List.findSome?_append, hnone, Option.none_or, ih, hlength, Nat.sub_sub, Option.getD_some]
  | case4 fetched cursor hge =>
    rw [Nat.sub_eq_zero_of_le (Nat.not_lt.mp hge)]
    rfl

theorem findExistingIssueForGroupKey_eq (issues : List BoardIssue) (groupKey : Str)
    (maxIssues : ℕ) :
    findExistingIssueForGroupKey issues groupKey maxIssues =
      if Str.strip groupKey = [] then none
      else (issues.take maxIssues).findSome? (BoardIssue.matching (Str.strip groupKey)) := by
  rw [findExistingIssueForGroupKey]
  split
  · rfl
  · exact searchPages_eq issues (Str.strip groupKey) maxIssues 0 none

/-! ### Which issue is found -/

/-- An issue is found by its first marker. -/
theorem BoardIssue.matching_eq_some_iff {i : BoardIssue} {needle name : Str} (hne : needle ≠ []) :
    i.matching needle = some name ↔
      i.name ≠ [] ∧ Marks i.description needle ∧ i.name = name := by
  rw [← extractGroupKey_eq_some_iff, matching]
  split
  · next hnil => simp [hnil]
  · next hname =>
    cases extractGroupKey i.description with
    | none => simp
    | some extracted =>
      simp only [Option.some.injEq]
      split
      · next h => simp [h.2, hname]
      · next h =>
        have : extracted ≠ needle := fun heq => h ⟨heq ▸ hne, heq⟩
        simp [this]

namespace Board

/-- What is found was created for the key, and something is found if an issue was. -/
def Finds (b : Board) (groupKey : Str) : Prop :=
  (∀ name, findExistingIssueForGroupKey b.issues groupKey 200 = some name →
    ∃ i ∈ b.issues, i.name = name ∧ i.createdFor = some groupKey) ∧
  ((∃ i ∈ b.issues, i.createdFor = some groupKey) →
    (findExistingIssueForGroupKey b.issues groupKey 200).isSome)

/-- Of the first 200 issues, the first whose first marker shows the key was created for it; or none
of them shows it and no issue was created for it. -/
def Shows (b : Board) (groupKey : Str) : Prop :=
  (Str.strip groupKey ≠ [] ∧ ∃ before i after, b.issues.take 200 = before ++ i :: after ∧
    Marks i.description (Str.strip groupKey) ∧ i.createdFor = some groupKey ∧
    ∀ j ∈ before, ¬ Marks j.description (Str.strip groupKey)) ∨
  (∀ i ∈ b.issues, i.createdFor ≠ some groupKey) ∧ (Str.strip groupKey = [] ∨
    ∀ i ∈ b.issues.take 200, ¬ Marks i.description (Str.strip groupKey))

theorem matching_eq_none_iff (b : Board) {i : BoardIssue} (hi : i ∈ b.issues) {needle : Str}
    (hne : needle ≠ []) : i.matching needle = none ↔ ¬ Marks i.description needle := by
  constructor
  · intro hnone hmarks
    have := (BoardIssue.matching_eq_some_iff hne).mpr ⟨b.name_ne_nil i hi, hmarks, rfl⟩
    rw [hnone] at this
    simp at this
  · intro hmarks
    cases hmatching : i.matching needle with
    | none => rfl
    | some name => exact absurd ((BoardIssue.matching_eq_some_iff hne).mp hmatching).2.1 hmarks

/-- What the search finds is the first of the 200 issues that shows the key. -/
theorem findSome?_matching_iff (b : Board) {needle name : Str} (hne : needle ≠ []) :
    (b.issues.take 200).findSome? (BoardIssue.matching needle) = some name ↔
      ∃ before i after, b.issues.take 200 = before ++ i :: after ∧ Marks i.description needle ∧
        i.name = name ∧ ∀ j ∈ before, ¬ Marks j.description needle := by
  rw [List.findSome?_eq_some_iff]
  have hmem : ∀ {before i after}, b.issues.take 200 = before ++ i :: after →
      i ∈ b.issues ∧ ∀ j ∈ before, j ∈ b.issues := fun heq =>
    ⟨List.mem_of_mem_take (heq ▸ List.mem_append_right _ List.mem_cons_self),
      fun j hj => List.mem_of_mem_take (heq ▸ List.mem_append_left _ hj)⟩
  constructor
  · rintro ⟨before, i, after, heq, hi, hbefore⟩
    obtain ⟨-, hmarks, hname⟩ := (BoardIssue.matching_eq_some_iff hne).mp hi
    exact ⟨before, i, after, heq, hmarks, hname, fun j hj =>
      (b.matching_eq_none_iff ((hmem heq).2 j hj) hne).mp (hbefore j hj)⟩
  · rintro ⟨before, i, after, heq, hmarks, hname, hbefore⟩
    refine ⟨before, i, after, heq, (BoardIssue.matching_eq_some_iff hne).mpr
      ⟨b.name_ne_nil i (hmem heq).1, hmarks, hname⟩, fun j hj => ?_⟩
    exact (b.matching_eq_none_iff ((hmem heq).2 j hj) hne).mpr (hbefore j hj)

theorem eq_of_name_eq (b : Board) {i j : BoardIssue} (hi : i ∈ b.issues) (hj : j ∈ b.issues)
    (h : i.name = j.name) : i = j := List.inj_on_of_nodup_map b.names_nodup hi hj h

/-- The search finds the issue that was created for a group key, and no other, exactly if the board
shows it. -/
theorem finds_group_issue_iff (b : Board) (groupKey : Str) :
    b.Finds groupKey ↔ b.Shows groupKey := by
  rw [Finds, Shows, findExistingIssueForGroupKey_eq]
  by_cases hblank : Str.strip groupKey = []
  · simp [hblank]
  rw [if_neg hblank]
  cases hfind : (b.issues.take 200).findSome? (BoardIssue.matching (Str.strip groupKey)) with
  | none =>
    have hnone : ∀ i ∈ b.issues.take 200, ¬ Marks i.description (Str.strip groupKey) :=
      fun i hi => (b.matching_eq_none_iff (List.mem_of_mem_take hi) hblank).mp
        (List.findSome?_eq_none_iff.mp hfind i hi)
    constructor
    · rintro ⟨-, hfound⟩
      exact .inr ⟨fun i hi hcreated => by simpa using hfound ⟨i, hi, hcreated⟩, .inr hnone⟩
    · rintro (⟨-, before, i, after, heq, hmarks, -⟩ | ⟨hcreated, -⟩)
      · exact absurd hmarks (hnone i (heq ▸ List.mem_append_right _ List.mem_cons_self))
      · exact ⟨fun name h => by simp at h, fun ⟨i, hi, h⟩ => absurd h (hcreated i hi)⟩
  | some name =>
    obtain ⟨before, i, after, heq, hmarks, rfl, hbefore⟩ :=
      (b.findSome?_matching_iff hblank).mp hfind
    have hi : i ∈ b.issues.take 200 := heq ▸ List.mem_append_right _ List.mem_cons_self
    constructor
    · rintro ⟨hfound, -⟩
      obtain ⟨j, hj, hname, hcreated⟩ := hfound i.name rfl
      rw [b.eq_of_name_eq hj (List.mem_of_mem_take hi) hname] at hcreated
      exact .inl ⟨hblank, before, i, after, heq, hmarks, hcreated, hbefore⟩
    · rintro (⟨-, before', j, after', heq', hmarks', hcreated, hbefore'⟩ | ⟨-, hnone⟩)
      · have hfind' := (b.findSome?_matching_iff hblank).mpr
          ⟨before', j, after', heq', hmarks', rfl, hbefore'⟩
        have hj : j ∈ b.issues :=
          List.mem_of_mem_take (heq' ▸ List.mem_append_right _ List.mem_cons_self)
        refine ⟨fun name hname => ⟨j, hj, ?_, hcreated⟩, fun _ => rfl⟩
        rw [← Option.some.inj hname]
        exact Option.some.inj (hfind'.symm.trans hfind)
      · exact absurd hmarks (hnone.resolve_left hblank i hi)

end Board

/-! ### A key with a bracket -/

/-- A finding of a rule whose id has brackets, and the issue that VAT creates for it. -/
def bracketFinding : IssueFinding where
  groupKey := some (str "sast:rule[1]#||")

def bracketIssue : BoardIssue where
  identifier := str "ENG-1"
  id := str "u1"
  created := some (bracketFinding, requiredBlock)
  edited := none

def bracketBoard : Board where
  issues := [bracketIssue]
  names_nodup := List.nodup_singleton _
  name_ne_nil i hi := by
    rw [List.mem_singleton.mp hi]
    decide

/-- The issue that VAT has just created is not found. -/
theorem not_finds_group_issue : ¬ ∀ (b : Board) (groupKey : Str), b.Finds groupKey := by
  intro h
  have hfound := (h bracketBoard (str "sast:rule[1]#||")).2
    ⟨bracketIssue, List.mem_cons_self, by decide⟩
  rw [findExistingIssueForGroupKey_eq] at hfound
  revert hfound
  decide +kernel

end Vat
