import Vat.Keyed.Assign
import Vat.Model.Finding

/-!
# Risk scoring of sources

The scoring metadata of a finding is an object of sections. A parser owns three of them: what it
reports is merged into them key by key, and the sections of reviewers stay.

Source: `backend/app/services/risk_scoring.py`, lines 10–38 and 82–98.

## Main definitions

* `RiskScoring.clean`, `mergeSourceRiskScoring`.
* `RiskScoring.Absorbs`: the sections of a parser are merged already.

## Main results

* `absorbs_mergeSource`, `absorbs_clean`: after a merge, and of what is reported itself.
* `mergeSource_of_absorbs`: a merge of what is merged already.
-/

namespace Vat

open Keyed

/-- A scoring object. Sections that are no objects are not modelled. -/
abbrev RiskScoring := List (Str × JsonObject)

/-- Each key of the object and of its sections once. -/
structure RiskScoring.KeysOnce (o : RiskScoring) : Prop where
  sections : (o.map Prod.fst).Nodup
  keys : ∀ p ∈ o, (p.2.map Prod.fst).Nodup

/-- `clean_risk_scoring`. -/
def RiskScoring.clean (value : Option RiskScoring) : Option RiskScoring :=
  match (value.getD []).filter fun p => p.2 ≠ [] with
  | [] => none
  | cleaned => some cleaned

/-- `SOURCE_OWNED_SECTIONS`. -/
def sourceOwnedSections : List Str := [str "source", str "threat", str "context"]

/-- `{**section, **value}`, or the value alone. -/
def mergedSection (current : Option JsonObject) (value : JsonObject) : JsonObject :=
  match current with
  | some existingSection => assignEach existingSection value
  | none => value

/-- The merge of one section. -/
def RiskScoring.mergeSection (incoming merged : RiskScoring) (sectionName : Str) : RiskScoring :=
  match incoming.lookup sectionName with
  | none => merged
  | some value =>
    if value = [] then merged
    else assign merged sectionName (mergedSection (merged.lookup sectionName) value)

/-- `merge_source_risk_scoring`. -/
def mergeSourceRiskScoring (current incoming : Option RiskScoring) : Option RiskScoring :=
  match RiskScoring.clean incoming with
  | none => RiskScoring.clean current
  | some incoming =>
    RiskScoring.clean (some (sourceOwnedSections.foldl incoming.mergeSection (current.getD [])))

/-- A text of a section, of a value that is neither null nor empty. -/
def RiskScoring.textIn (value : Option RiskScoring) (sectionName key : Str) : Option Str :=
  ((value.getD []).lookup sectionName).bind fun o =>
    match JsonObject.get o key with
    | .null => none
    | .text [] => none
    | v => some v.pyStr

/-- `score_from_risk_scoring`. -/
def scoreFromRiskScoring (value : Option RiskScoring) : Option Str :=
  RiskScoring.textIn value (str "source") (str "score")

/-- `epss_from_risk_scoring`. -/
def epssFromRiskScoring (value : Option RiskScoring) : Option Str :=
  RiskScoring.textIn value (str "threat") (str "epss")

/-! ### Merges twice -/

namespace RiskScoring

/-- What `clean` keeps. -/
def kept (value : Option RiskScoring) : RiskScoring := (value.getD []).filter fun p => p.2 ≠ []

theorem clean_eq (value : Option RiskScoring) :
    clean value = if kept value = [] then none else some (kept value) := by
  unfold clean kept
  split
  · next h => rw [if_pos h]
  · next hne => rw [if_neg hne]

@[simp] theorem getD_clean (value : Option RiskScoring) : (clean value).getD [] = kept value := by
  rw [clean_eq]
  split_ifs with h
  · exact h.symm
  · rfl

@[simp] theorem kept_kept (value : Option RiskScoring) : kept (some (kept value)) = kept value := by
  simp only [kept, Option.getD_some, List.filter_filter, Bool.and_self]

@[simp] theorem clean_kept (value : Option RiskScoring) :
    clean (some (kept value)) = clean value := by
  rw [clean_eq, kept_kept, ← clean_eq]

@[simp] theorem clean_clean (value : Option RiskScoring) : clean (clean value) = clean value := by
  have hkept : kept (clean value) = kept value := by
    rw [kept, getD_clean]
    exact kept_kept value
  rw [clean_eq (clean value), hkept, ← clean_eq value]

/-- The section has one value, and a merge of what is reported leaves it as it is. -/
def SectionAbsorbs (o incoming : RiskScoring) (sectionName : Str) : Prop :=
  ∀ value, incoming.lookup sectionName = some value → value ≠ [] →
    ∃ x : JsonObject, x ≠ [] ∧ Holds o sectionName x ∧ assignEach x value = x

variable {o incoming : RiskScoring} {sectionName other : Str}

theorem mergeSection_of_absorbs (h : SectionAbsorbs o incoming sectionName) :
    incoming.mergeSection o sectionName = o := by
  unfold mergeSection
  split
  · rfl
  · next value hvalue =>
    split_ifs with hnil
    · rfl
    · obtain ⟨x, -, hx, hmerged⟩ := h value hvalue hnil
      rw [hx.lookup]
      change assign o sectionName (assignEach x value) = o
      rw [hmerged, assign_of_holds hx]

/-- After the merge of a section. -/
theorem sectionAbsorbs_mergeSection (hkeys : ∀ p ∈ incoming, (p.2.map Prod.fst).Nodup)
    (o : RiskScoring) (sectionName : Str) :
    SectionAbsorbs (incoming.mergeSection o sectionName) incoming sectionName := by
  intro value hvalue hnil
  have hnodup : (value.map Prod.fst).Nodup := by
    obtain ⟨l₁, l₂, heq, -⟩ := List.lookup_eq_some_iff.mp hvalue
    exact hkeys (sectionName, value) (by simp [heq])
  have hmerge : incoming.mergeSection o sectionName =
      assign o sectionName (mergedSection (o.lookup sectionName) value) := by
    simp only [mergeSection, hvalue, if_neg hnil]
  refine ⟨mergedSection (o.lookup sectionName) value, ?_, hmerge ▸ holds_assign _ _ _, ?_⟩
  · cases o.lookup sectionName with
    | none => exact hnil
    | some x => exact assignEach_ne_nil hnil
  · refine assignEach_of_holds fun p hp => ?_
    cases o.lookup sectionName with
    | none => exact holds_of_mem hnodup hp
    | some x => exact holds_assignEach hnodup hp

/-- The merge of another section. -/
theorem SectionAbsorbs.mergeSection (h : SectionAbsorbs o incoming sectionName)
    (hne : sectionName ≠ other) :
    SectionAbsorbs (incoming.mergeSection o other) incoming sectionName := by
  unfold RiskScoring.mergeSection
  split
  · exact h
  · split_ifs
    · exact h
    · intro value hvalue hnil
      obtain ⟨x, hx, hholds, hmerged⟩ := h value hvalue hnil
      exact ⟨x, hx, hholds.assign hne, hmerged⟩

/-- What `clean` keeps of sections that are merged already. -/
theorem SectionAbsorbs.kept (h : SectionAbsorbs o incoming sectionName) :
    SectionAbsorbs (kept (some o)) incoming sectionName := by
  intro value hvalue hnil
  obtain ⟨x, hx, hholds, hmerged⟩ := h value hvalue hnil
  exact ⟨x, hx, hholds.filter (by simpa using hx), hmerged⟩

/-- After the merge of all sections. -/
theorem sectionAbsorbs_mergeSections (hkeys : ∀ p ∈ incoming, (p.2.map Prod.fst).Nodup)
    (o : RiskScoring) : ∀ sectionName ∈ sourceOwnedSections,
      SectionAbsorbs (sourceOwnedSections.foldl incoming.mergeSection o) incoming sectionName := by
  have hsource := sectionAbsorbs_mergeSection hkeys o (str "source")
  have hthreat := sectionAbsorbs_mergeSection hkeys
    (incoming.mergeSection o (str "source")) (str "threat")
  have hcontext := sectionAbsorbs_mergeSection hkeys
    (incoming.mergeSection (incoming.mergeSection o (str "source")) (str "threat")) (str "context")
  intro sectionName hmem
  simp only [sourceOwnedSections, List.mem_cons, List.not_mem_nil, or_false] at hmem
  rcases hmem with rfl | rfl | rfl
  · exact (hsource.mergeSection (by decide)).mergeSection (by decide)
  · exact hthreat.mergeSection (by decide)
  · exact hcontext

/-- What is reported, with itself. -/
theorem sectionAbsorbs_self (h : incoming.KeysOnce) (sectionName : Str) :
    SectionAbsorbs incoming incoming sectionName := by
  intro value hvalue hnil
  have hmem : (sectionName, value) ∈ incoming := by
    obtain ⟨l₁, l₂, heq, -⟩ := List.lookup_eq_some_iff.mp hvalue
    simp [heq]
  exact ⟨value, hnil, holds_of_mem h.sections hmem,
    assignEach_of_holds fun _ hp => holds_of_mem (h.keys _ hmem) hp⟩

/-- A merge of sections that are merged already. -/
theorem mergeSections_of_absorbs
    (h : ∀ sectionName ∈ sourceOwnedSections, SectionAbsorbs o incoming sectionName) :
    sourceOwnedSections.foldl incoming.mergeSection o = o := by
  have hsections : ∀ names ⊆ sourceOwnedSections, names.foldl incoming.mergeSection o = o := by
    intro names hnames
    induction names with
    | nil => rfl
    | cons sectionName names ih =>
      rw [List.foldl_cons, mergeSection_of_absorbs (h sectionName (hnames List.mem_cons_self))]
      exact ih fun s hs => hnames (List.mem_cons_of_mem _ hs)
  exact hsections _ (List.Subset.refl _)

end RiskScoring

open RiskScoring

theorem keysOnce_kept {incoming : RiskScoring} (h : incoming.KeysOnce) :
    (kept (some incoming)).KeysOnce where
  sections := h.sections.sublist (List.filter_sublist.map Prod.fst)
  keys p hp := h.keys p (List.mem_filter.mp hp).1

/-- A merge finds what it has merged. -/
theorem mergeSourceRiskScoring_twice {incoming : RiskScoring} (h : incoming.KeysOnce)
    (current : Option RiskScoring) :
    mergeSourceRiskScoring (mergeSourceRiskScoring current (some incoming)) (some incoming) =
      mergeSourceRiskScoring current (some incoming) := by
  unfold mergeSourceRiskScoring
  rw [clean_eq]
  split_ifs with hnil
  · exact clean_clean current
  · dsimp only
    have hmerged := sectionAbsorbs_mergeSections (keysOnce_kept h).keys (current.getD [])
    rw [getD_clean, mergeSections_of_absorbs fun s hs => (hmerged s hs).kept, clean_kept]

/-- A merge finds what was stored as it was reported. -/
theorem mergeSourceRiskScoring_clean {incoming : RiskScoring} (h : incoming.KeysOnce) :
    mergeSourceRiskScoring (clean (some incoming)) (some incoming) = clean (some incoming) := by
  unfold mergeSourceRiskScoring
  rw [clean_eq]
  split_ifs with hnil
  · rfl
  · dsimp only
    rw [Option.getD_some, mergeSections_of_absorbs fun s _ => sectionAbsorbs_self (keysOnce_kept h) s,
      clean_kept, clean_eq, if_neg hnil]

end Vat
