import Vat.Python.Json
import Vat.Python.Maps

/-!
# The two merges of a risk document

A parser writes the sections `source`, `threat` and `context` of the risk document of a finding, a
reviewer the section `environmental`, whose score is computed from its vector if there is none. Both
merges work key by key: what a key holds afterwards depends on what it held before, and a section
that was empty is read as none. So the merges commute and each of them is idempotent, whatever the
document and its sections are (`independent_merges`). Entries that are empty are dropped by both,
also those of the other sections.

Source: `backend/app/services/risk_scoring.py`.

## Main definitions

* `Json.isEmpty`, `Json.truthy`, `Json.pyStr`: values of a document.
* `RiskDocument`, `cleanRiskDocument`, `mergeSourceSections`, `mergeEnvironmental`.
* `sourceEntry`, `environmentalEntry`: what a merge makes of the entry of a key.

## Main results

* `entry_mergeSourceSections`, `entry_mergeEnvironmental`: both merges key by key.
* `independent_merges`.
-/

namespace Vat

/-! ### Values -/

/-- `str` of a list or a dict. -/
class JsonRepr where
  repr : Json → Str

namespace Json

/-- `v in (None, "", {}, [])`. -/
def isEmpty : Json → Bool
  | .null => true
  | .text s => s = []
  | .list length _ => length = 0
  | .dict keys _ => keys = ∅
  | _ => false

/-- `bool(v)`. -/
def truthy : Json → Bool
  | .null => false
  | .bool b => b
  | .int i => i ≠ 0
  | .float x => x.text ≠ str "0.0" ∧ x.text ≠ str "-0.0"
  | .text s => s ≠ []
  | .list length _ => length ≠ 0
  | .dict keys _ => keys ≠ ∅
  | .other _ => true

/-- `str(v)`. -/
def pyStr [JsonRepr] : Json → Str
  | .null => str "None"
  | .bool b => if b then str "True" else str "False"
  | .int i => intText i
  | .float x => x.text
  | .text s => s
  | .other s => s
  | v => JsonRepr.repr v

/-- The members of a dict. -/
def members? : Json → Option (StrMap Json)
  | .dict keys values => some ⟨keys, values⟩
  | _ => none

/-- A dict. -/
def ofMembers (m : StrMap Json) : Json := .dict m.keys m.values

@[simp] theorem members?_ofMembers (m : StrMap Json) : (ofMembers m).members? = some m := rfl

end Json

/-! ### Documents -/

/-- A risk document. -/
abbrev RiskDocument := StrMap Json

namespace RiskDocument

/-- `value or None`. -/
def orNone (m : RiskDocument) : Option RiskDocument := if m.keys = ∅ then none else some m

/-- What a document holds under a key; nothing if there is no document. -/
def entryOf (value : Option RiskDocument) (k : Str) : Option Json := value.bind (·.get k)

/-- The document, or an empty one. -/
def content (value : Option RiskDocument) : RiskDocument := value.getD .empty

/-- The section that an entry is; empty if it is none. -/
def sectionOf (entry : Option Json) : StrMap Json := (entry.bind Json.members?).getD .empty

end RiskDocument

open RiskDocument

/-- `clean_risk_scoring`. A value that is no dict is none. -/
def cleanRiskDocument (value : Option RiskDocument) : Option RiskDocument :=
  orNone ((content value).filter fun v => !v.isEmpty)

/-- `SOURCE_OWNED_SECTIONS`. -/
def sourceSections : List Str := [str "source", str "threat", str "context"]

/-- One turn of the loop of `merge_source_risk_scoring`. -/
def mergeSourceSection (incoming merged : RiskDocument) (name : Str) : RiskDocument :=
  match (incoming.get name).bind Json.members? with
  | none => merged
  | some value =>
    if value.keys = ∅ then merged
    else
      match (merged.get name).bind Json.members? with
      | some existingSection => merged.set name (.ofMembers (existingSection.override value))
      | none => merged.set name (.ofMembers value)

/-- `merge_source_risk_scoring`. -/
def mergeSourceSections (current incoming : Option RiskDocument) : Option RiskDocument :=
  match cleanRiskDocument incoming with
  | none => cleanRiskDocument current
  | some incoming =>
    cleanRiskDocument (some (sourceSections.foldl (mergeSourceSection incoming) (content current)))

/-- The score that the package `cvss` computes from a vector, with one decimal; none if the vector
is not accepted. -/
class Cvss3 where
  environmentalScore : Str → Option Str

section Environmental

variable [JsonRepr] [Cvss3]

/-- `environmental_score_from_vector`. -/
def environmentalScoreFromVector (vector : Str) : Option Str := Cvss3.environmentalScore vector

/-- `incoming_env`: a section with the score of its vector, if it has none of its own. -/
def scoredEnvironment (env : StrMap Json) : StrMap Json :=
  if !((env.get (str "score")).any Json.truthy) && (env.get (str "vector")).any Json.truthy then
    match environmentalScoreFromVector (((env.get (str "vector")).getD .null).pyStr) with
    | some score => env.set (str "score") (.text score)
    | none => env
  else env

/-- The section `environmental` after a merge. -/
def nextEnvironment (existingEnv env : StrMap Json) (user timestamp : Str) : StrMap Json :=
  (((existingEnv.override (scoredEnvironment env)).set (str "updatedBy") (.text user)).set
    (str "updatedAt") (.text timestamp)).filter fun v => !v.isEmpty

/-- `merge_environmental_risk_scoring`. -/
def mergeEnvironmental (current incoming : Option RiskDocument) (user timestamp : Str) :
    Option RiskDocument :=
  match cleanRiskDocument incoming with
  | none => cleanRiskDocument current
  | some incoming =>
    match (incoming.get (str "environmental")).bind Json.members? with
    | none => cleanRiskDocument current
    | some env =>
      cleanRiskDocument (some ((content current).set (str "environmental")
        (.ofMembers (nextEnvironment (sectionOf ((content current).get (str "environmental"))) env
          user timestamp))))

/-- `score_from_risk_scoring`. -/
def scoreFromRiskDocument (value : Option RiskDocument) : Option Str :=
  match (entryOf value (str "source")).bind Json.members? with
  | none => none
  | some source =>
    match source.get (str "score") with
    | none | some .null | some (.text []) => none
    | some score => some score.pyStr

end Environmental

/-! ### Key by key -/

/-- An entry that is not empty. -/
def nonEmpty (entry : Option Json) : Option Json := entry.filter fun v => !v.isEmpty

@[simp] theorem nonEmpty_none : nonEmpty none = none := rfl

theorem nonEmpty_some (v : Json) : nonEmpty (some v) = if v.isEmpty then none else some v := by
  rw [nonEmpty, Option.filter_some]
  cases v.isEmpty <;> rfl

@[simp] theorem nonEmpty_nonEmpty (entry : Option Json) :
    nonEmpty (nonEmpty entry) = nonEmpty entry := by
  cases entry with
  | none => rfl
  | some v =>
    by_cases hv : v.isEmpty = true
    · rw [nonEmpty_some, if_pos hv, nonEmpty_none]
    · rw [nonEmpty_some, if_neg hv, nonEmpty_some, if_neg hv]

namespace RiskDocument

@[simp] theorem get_content (value : Option RiskDocument) (k : Str) :
    (content value).get k = entryOf value k := by
  cases value with
  | none => exact StrMap.get_empty k
  | some m => rfl

@[simp] theorem entryOf_orNone (m : RiskDocument) (k : Str) : entryOf (orNone m) k = m.get k := by
  rw [orNone]
  split
  · next h =>
    rw [StrMap.keys_eq_empty_iff.mp h, StrMap.get_empty]
    rfl
  · rfl

@[simp] theorem entryOf_clean (value : Option RiskDocument) (k : Str) :
    entryOf (cleanRiskDocument value) k = nonEmpty (entryOf value k) := by
  rw [cleanRiskDocument, entryOf_orNone, StrMap.get_filter, get_content, nonEmpty]

/-- Two documents without empty entries that hold the same are the same. -/
theorem clean_eq_of_entries {value value' : Option RiskDocument}
    (h : ∀ k, nonEmpty (entryOf value k) = nonEmpty (entryOf value' k)) :
    cleanRiskDocument value = cleanRiskDocument value' := by
  rw [cleanRiskDocument, cleanRiskDocument]
  refine congrArg orNone (StrMap.ext_get fun k => ?_)
  simpa [nonEmpty] using h k

/-- An empty entry is no section. -/
@[simp] theorem sectionOf_nonEmpty (entry : Option Json) :
    sectionOf (nonEmpty entry) = sectionOf entry := by
  cases entry with
  | none => rfl
  | some v =>
    rw [nonEmpty_some]
    split
    · next hv =>
      cases v with
      | dict keys values =>
        have hkeys : keys = ∅ := of_decide_eq_true hv
        have hempty : (⟨keys, values⟩ : StrMap Json) = .empty := StrMap.keys_eq_empty_iff.mp hkeys
        exact hempty.symm
      | null | bool | int | float | text | list | other => rfl
    · rfl

end RiskDocument

/-- What a merge of source data makes of the entry of a key. -/
def sourceEntry (incoming : Option RiskDocument) (k : Str) (entry : Option Json) : Option Json :=
  if k ∈ sourceSections then
    match (nonEmpty (entryOf incoming k)).bind Json.members? with
    | some value => some (.ofMembers ((sectionOf entry).override value))
    | none => entry
  else entry

/-- What a merge of environmental data makes of the entry of a key. -/
def environmentalEntry [JsonRepr] [Cvss3] (incoming : Option RiskDocument) (user timestamp k : Str)
    (entry : Option Json) : Option Json :=
  if k = str "environmental" then
    match (nonEmpty (entryOf incoming k)).bind Json.members? with
    | some env => some (.ofMembers (nextEnvironment (sectionOf entry) env user timestamp))
    | none => entry
  else entry

namespace RiskDocument

theorem clean_eq_none_iff (value : Option RiskDocument) :
    cleanRiskDocument value = none ↔ ∀ k, nonEmpty (entryOf value k) = none := by
  rw [cleanRiskDocument, orNone]
  constructor
  · intro h k
    split at h
    · next hkeys =>
      have hget := congrArg (StrMap.get · k) (StrMap.keys_eq_empty_iff.mp hkeys)
      simpa [nonEmpty] using hget
    · cases h
  · intro h
    rw [if_pos]
    refine StrMap.keys_eq_empty_iff.mpr (StrMap.ext_get fun k => ?_)
    simpa [nonEmpty] using h k

/-- What is merged from a document without entries is nothing. -/
theorem get_of_clean_eq_some {value : Option RiskDocument} {m : RiskDocument}
    (h : cleanRiskDocument value = some m) (k : Str) : m.get k = nonEmpty (entryOf value k) := by
  rw [← entryOf_clean, h]
  rfl

end RiskDocument

theorem ofMembers_of_members? {v : Json} {m : StrMap Json} (h : v.members? = some m) :
    v = .ofMembers m := by
  cases v with
  | dict keys values =>
    cases h
    rfl
  | null | bool | int | float | text | list | other => cases h

/-- A section without members is an empty entry. -/
theorem keys_ne_empty {entry : Option Json} {value : StrMap Json}
    (h : (nonEmpty entry).bind Json.members? = some value) : value.keys ≠ ∅ := by
  intro hkeys
  obtain ⟨v, hv, hvalue⟩ := Option.bind_eq_some_iff.mp h
  rw [ofMembers_of_members? hvalue, nonEmpty, Option.filter_eq_some_iff] at hv
  have hempty : (Json.ofMembers value).isEmpty = true := decide_eq_true hkeys
  rw [hempty] at hv
  cases hv.2

/-- One section is merged at its own key. -/
theorem get_mergeSourceSection (incoming : Option RiskDocument) {m : RiskDocument}
    (h : cleanRiskDocument incoming = some m) {name : Str} (hname : name ∈ sourceSections)
    (merged : RiskDocument) (k : Str) :
    (mergeSourceSection m merged name).get k =
      if k = name then sourceEntry incoming k (merged.get k) else merged.get k := by
  rw [mergeSourceSection, get_of_clean_eq_some h]
  cases hvalue : (nonEmpty (entryOf incoming name)).bind Json.members? with
  | none =>
    dsimp only
    by_cases hk : k = name
    · rw [if_pos hk, hk, sourceEntry, if_pos hname, hvalue]
    · rw [if_neg hk]
  | some value =>
    have hmerged : (match (merged.get name).bind Json.members? with
        | some existingSection => merged.set name (.ofMembers (existingSection.override value))
        | none => merged.set name (.ofMembers value)) =
          merged.set name (.ofMembers ((sectionOf (merged.get name)).override value)) := by
      rw [sectionOf]
      cases (merged.get name).bind Json.members? with
      | some existingSection => rfl
      | none =>
        have hvalue : value = StrMap.empty.override value := StrMap.ext_get fun x => by simp
        exact congrArg (fun x => merged.set name (.ofMembers x)) hvalue
    dsimp only
    rw [if_neg (keys_ne_empty hvalue), hmerged, StrMap.get_set]
    split
    · next hk => rw [hk, sourceEntry, if_pos hname, hvalue]
    · rfl

/-- A merge of source data, key by key. -/
theorem entry_mergeSourceSections (current incoming : Option RiskDocument) (k : Str) :
    entryOf (mergeSourceSections current incoming) k =
      nonEmpty (sourceEntry incoming k (entryOf current k)) := by
  rw [mergeSourceSections]
  cases h : cleanRiskDocument incoming with
  | none =>
    have hnone : sourceEntry incoming k (entryOf current k) = entryOf current k := by
      rw [sourceEntry, (clean_eq_none_iff incoming).mp h k]
      split <;> rfl
    rw [hnone, entryOf_clean]
  | some m =>
    have hfold : ∀ names ⊆ sourceSections, names.Nodup → ∀ merged : RiskDocument,
        (names.foldl (mergeSourceSection m) merged).get k =
          if k ∈ names then sourceEntry incoming k (merged.get k) else merged.get k := by
      intro names
      induction names with
      | nil => exact fun _ _ _ => rfl
      | cons name names ih =>
        intro hsub hnodup merged
        obtain ⟨hnot, hnodup⟩ := List.nodup_cons.mp hnodup
        rw [List.foldl_cons, ih (fun x hx => hsub (List.mem_cons_of_mem _ hx)) hnodup,
          get_mergeSourceSection incoming h (hsub List.mem_cons_self)]
        by_cases hk : k = name
        · rw [if_neg (hk ▸ hnot), if_pos hk, if_pos (hk ▸ List.mem_cons_self)]
        · simp [hk]
    dsimp only
    rw [entryOf_clean]
    refine congrArg nonEmpty ((hfold sourceSections (List.Subset.refl _) (by decide) _).trans ?_)
    rw [get_content, sourceEntry]
    split <;> rfl

section Merges

variable [JsonRepr] [Cvss3]

/-- A merge of environmental data, key by key. -/
theorem entry_mergeEnvironmental (current incoming : Option RiskDocument) (user timestamp k : Str) :
    entryOf (mergeEnvironmental current incoming user timestamp) k =
      nonEmpty (environmentalEntry incoming user timestamp k (entryOf current k)) := by
  rw [mergeEnvironmental, environmentalEntry]
  cases h : cleanRiskDocument incoming with
  | none =>
    rw [(clean_eq_none_iff incoming).mp h k, entryOf_clean]
    split <;> rfl
  | some m =>
    dsimp only
    rw [get_of_clean_eq_some h]
    by_cases hk : k = str "environmental"
    · rw [if_pos hk, hk]
      cases (nonEmpty (entryOf incoming (str "environmental"))).bind Json.members? with
      | none => exact entryOf_clean _ _
      | some env =>
        dsimp only
        rw [entryOf_clean, entryOf, Option.bind_some, StrMap.get_set, if_pos rfl, get_content]
    · rw [if_neg hk]
      cases (nonEmpty (entryOf incoming (str "environmental"))).bind Json.members? with
      | none => exact entryOf_clean _ _
      | some env =>
        dsimp only
        rw [entryOf_clean, entryOf, Option.bind_some, StrMap.get_set, if_neg hk, get_content]

/-! ### Empty entries and second merges -/

omit [JsonRepr] [Cvss3] in
/-- A merge of source data reads an empty entry as none. -/
theorem nonEmpty_sourceEntry (incoming : Option RiskDocument) (k : Str) (entry : Option Json) :
    nonEmpty (sourceEntry incoming k (nonEmpty entry)) =
      nonEmpty (sourceEntry incoming k entry) := by
  rw [sourceEntry, sourceEntry]
  split
  · cases (nonEmpty (entryOf incoming k)).bind Json.members? with
    | none => exact nonEmpty_nonEmpty entry
    | some value =>
      dsimp only
      rw [sectionOf_nonEmpty]
  · exact nonEmpty_nonEmpty entry

theorem nonEmpty_environmentalEntry (incoming : Option RiskDocument) (user timestamp k : Str)
    (entry : Option Json) :
    nonEmpty (environmentalEntry incoming user timestamp k (nonEmpty entry)) =
      nonEmpty (environmentalEntry incoming user timestamp k entry) := by
  rw [environmentalEntry, environmentalEntry]
  split
  · cases (nonEmpty (entryOf incoming k)).bind Json.members? with
    | none => exact nonEmpty_nonEmpty entry
    | some env =>
      dsimp only
      rw [sectionOf_nonEmpty]
  · exact nonEmpty_nonEmpty entry

omit [JsonRepr] [Cvss3] in
@[simp] theorem sectionOf_ofMembers (m : StrMap Json) : sectionOf (some (.ofMembers m)) = m := rfl

omit [JsonRepr] [Cvss3] in
theorem sourceEntry_twice (incoming : Option RiskDocument) (k : Str) (entry : Option Json) :
    sourceEntry incoming k (sourceEntry incoming k entry) = sourceEntry incoming k entry := by
  simp only [sourceEntry]
  split
  · cases (nonEmpty (entryOf incoming k)).bind Json.members? with
    | none => rfl
    | some value =>
      have htwice : ((sectionOf entry).override value).override value =
          (sectionOf entry).override value := by
        refine StrMap.ext_get fun x => ?_
        rw [StrMap.get_override, StrMap.get_override]
        cases value.get x <;> rfl
      dsimp only
      rw [sectionOf_ofMembers, htwice]
  · rfl

/-- The members of the section `environmental` after a merge. -/
theorem get_nextEnvironment (existingEnv env : StrMap Json) (user timestamp x : Str) :
    (nextEnvironment existingEnv env user timestamp).get x =
      nonEmpty (if x = str "updatedAt" then some (.text timestamp)
        else if x = str "updatedBy" then some (.text user)
        else ((scoredEnvironment env).get x).or (existingEnv.get x)) := by
  rw [nextEnvironment, StrMap.get_filter, StrMap.get_set, StrMap.get_set, StrMap.get_override,
    nonEmpty]

theorem environmentalEntry_twice (incoming : Option RiskDocument) (user timestamp k : Str)
    (entry : Option Json) :
    environmentalEntry incoming user timestamp k (environmentalEntry incoming user timestamp k entry) =
      environmentalEntry incoming user timestamp k entry := by
  simp only [environmentalEntry]
  split
  · cases (nonEmpty (entryOf incoming k)).bind Json.members? with
    | none => rfl
    | some env =>
      have htwice : nextEnvironment (nextEnvironment (sectionOf entry) env user timestamp) env user
          timestamp = nextEnvironment (sectionOf entry) env user timestamp := by
        refine StrMap.ext_get fun x => ?_
        rw [get_nextEnvironment, get_nextEnvironment]
        split
        · rfl
        split
        · rfl
        cases (scoredEnvironment env).get x with
        | none => exact nonEmpty_nonEmpty _
        | some v => rfl
      dsimp only
      rw [sectionOf_ofMembers, htwice]
  · rfl

namespace RiskDocument

omit [JsonRepr] [Cvss3] in
@[simp] theorem clean_clean (value : Option RiskDocument) :
    cleanRiskDocument (cleanRiskDocument value) = cleanRiskDocument value :=
  clean_eq_of_entries fun k => by rw [entryOf_clean, nonEmpty_nonEmpty]

omit [JsonRepr] [Cvss3] in
theorem clean_mergeSourceSections (current incoming : Option RiskDocument) :
    cleanRiskDocument (mergeSourceSections current incoming) =
      mergeSourceSections current incoming := by
  rw [mergeSourceSections]
  split <;> exact clean_clean _

theorem clean_mergeEnvironmental (current incoming : Option RiskDocument) (user timestamp : Str) :
    cleanRiskDocument (mergeEnvironmental current incoming user timestamp) =
      mergeEnvironmental current incoming user timestamp := by
  rw [mergeEnvironmental]
  split
  · exact clean_clean _
  · split <;> exact clean_clean _

end RiskDocument

omit [JsonRepr] [Cvss3] in
theorem sourceEntry_of_notMem {incoming : Option RiskDocument} {k : Str} (hk : k ∉ sourceSections)
    (entry : Option Json) : sourceEntry incoming k entry = entry := if_neg hk

theorem environmentalEntry_of_ne {incoming : Option RiskDocument} {user timestamp k : Str}
    (hk : k ≠ str "environmental") (entry : Option Json) :
    environmentalEntry incoming user timestamp k entry = entry := if_neg hk

/-- No entry is of both merges. -/
theorem entries_commute (source env : Option RiskDocument) (user timestamp k : Str)
    (entry : Option Json) :
    nonEmpty (environmentalEntry env user timestamp k (nonEmpty (sourceEntry source k entry))) =
      nonEmpty (sourceEntry source k (nonEmpty (environmentalEntry env user timestamp k entry))) := by
  rw [nonEmpty_environmentalEntry, nonEmpty_sourceEntry]
  by_cases hk : k ∈ sourceSections
  · have hne : k ≠ str "environmental" := fun heq => absurd (heq ▸ hk) (by decide)
    rw [environmentalEntry_of_ne hne, environmentalEntry_of_ne hne]
  · rw [sourceEntry_of_notMem hk, sourceEntry_of_notMem hk]

/-- The merges commute, each of them is idempotent, and each changes only its own sections, apart
from empty entries, which it drops. -/
theorem independent_merges (current source env : Option RiskDocument) (user timestamp : Str) :
    mergeEnvironmental (mergeSourceSections current source) env user timestamp =
        mergeSourceSections (mergeEnvironmental current env user timestamp) source ∧
      mergeSourceSections (mergeSourceSections current source) source =
        mergeSourceSections current source ∧
      mergeEnvironmental (mergeEnvironmental current env user timestamp) env user timestamp =
        mergeEnvironmental current env user timestamp ∧
      (∀ k ∉ sourceSections,
        entryOf (mergeSourceSections current source) k = nonEmpty (entryOf current k)) ∧
      (∀ k, k ≠ str "environmental" →
        entryOf (mergeEnvironmental current env user timestamp) k = nonEmpty (entryOf current k)) ∧
      scoreFromRiskDocument
          (mergeEnvironmental (mergeSourceSections current source) env user timestamp) =
        scoreFromRiskDocument
          (mergeSourceSections (mergeEnvironmental current env user timestamp) source) := by
  have hcommute : mergeEnvironmental (mergeSourceSections current source) env user timestamp =
      mergeSourceSections (mergeEnvironmental current env user timestamp) source := by
    rw [← clean_mergeEnvironmental, ← clean_mergeSourceSections (mergeEnvironmental _ _ _ _)]
    refine clean_eq_of_entries fun k => ?_
    rw [entry_mergeEnvironmental, entry_mergeSourceSections, entry_mergeSourceSections,
      entry_mergeEnvironmental, entries_commute]
  refine ⟨hcommute, ?_, ?_, fun k hk => ?_, fun k hk => ?_,
    congrArg scoreFromRiskDocument hcommute⟩
  · rw [← clean_mergeSourceSections (mergeSourceSections _ _),
      ← clean_mergeSourceSections current]
    refine clean_eq_of_entries fun k => ?_
    rw [clean_mergeSourceSections, entry_mergeSourceSections, entry_mergeSourceSections,
      nonEmpty_sourceEntry, sourceEntry_twice]
  · rw [← clean_mergeEnvironmental (mergeEnvironmental _ _ _ _), ← clean_mergeEnvironmental current]
    refine clean_eq_of_entries fun k => ?_
    rw [clean_mergeEnvironmental, entry_mergeEnvironmental, entry_mergeEnvironmental,
      nonEmpty_environmentalEntry, environmentalEntry_twice]
  · rw [entry_mergeSourceSections, sourceEntry_of_notMem hk]
  · rw [entry_mergeEnvironmental, environmentalEntry_of_ne hk]

end Merges

/-! ### An empty section -/

/-- No list or dict has a text. -/
@[reducible] def noJsonRepr : JsonRepr where
  repr _ := []

/-- No vector is accepted. -/
@[reducible] def noScores : Cvss3 where
  environmentalScore _ := none

attribute [local instance] noJsonRepr noScores in
/-- A merge of source data drops an empty section of the reviewer. -/
theorem not_independent_merges : ¬ ∀ (current source env : Option RiskDocument) (user timestamp : Str),
    mergeEnvironmental (mergeSourceSections current source) env user timestamp =
        mergeSourceSections (mergeEnvironmental current env user timestamp) source ∧
      mergeSourceSections (mergeSourceSections current source) source =
        mergeSourceSections current source ∧
      mergeEnvironmental (mergeEnvironmental current env user timestamp) env user timestamp =
        mergeEnvironmental current env user timestamp ∧
      (∀ k ∉ sourceSections, entryOf (mergeSourceSections current source) k = entryOf current k) ∧
      ∀ k, k ≠ str "environmental" →
        entryOf (mergeEnvironmental current env user timestamp) k = entryOf current k := by
  intro h
  obtain ⟨-, -, -, hframe, -⟩ :=
    h (some (StrMap.empty.set (str "environmental") (.ofMembers .empty)))
      (some (StrMap.empty.set (str "source")
        (.ofMembers (StrMap.empty.set (str "score") (.text (str "7.4")))))) none [] []
  have hkept := hframe (str "environmental") (by decide)
  rw [entry_mergeSourceSections, sourceEntry_of_notMem (by decide)] at hkept
  have hentry : entryOf (some (StrMap.empty.set (str "environmental") (.ofMembers .empty)))
      (str "environmental") = some (.ofMembers .empty) := by
    rw [entryOf, Option.bind_some, StrMap.get_set, if_pos rfl]
  rw [hentry, nonEmpty_some, if_pos (by decide)] at hkept
  cases hkept

end Vat
