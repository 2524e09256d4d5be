import Mathlib.Tactic.Tauto
import Vat.Ingest.Validation

/-!
# What parsers share

Scan tags, snippets, ids of weaknesses and risk scores, read from values of any type. An id of a
weakness and a risk score may be read with an error.

Source: `backend/app/parsers/utils.py`; `backend/app/parsers/risk_scoring.py`.

## Main definitions

* `extractScanTag`, `normalizeSnippet`, `extractCweId`.
* `buildSourceRiskScoring`.

## Main results

* `guarded_extractCweId_iff`: a float that is infinite has no integer part, and no handler.
* `SourceScores.build_eq`: what is read of the scores of a source.
-/

namespace Vat

open Transition

/-! ### Errors that are skipped -/

/-- The errors that the handlers of the parsers name. -/
def PyError.isSkipped (e : PyError) : Prop :=
  e = .keyError ∨ e = .typeError ∨ e = .valueError

instance : DecidablePred PyError.isSkipped := fun e =>
  inferInstanceAs (Decidable (e = .keyError ∨ e = .typeError ∨ e = .valueError))

theorem PyError.not_isSkipped_attributeError : ¬ PyError.attributeError.isSkipped := by decide

/-! ### Documents -/

/-- A document whose elements are set apart: those of its member with a name. -/
def documentWith (name : String) (members : List (Str × Loaded)) (elements : List Loaded) :
    Loaded :=
  .dict ((str name, .list elements) :: members)

/-! ### Scan tags and snippets -/

section Texts

variable [ReprText]

/-- `extract_scan_tag` of an object. -/
def extractScanTag (raw : Loaded) : Option Str :=
  let tag := raw.member "_vat_scan_tag"
  if tag.truthy then some (Str.strip tag.pyStr) else none

theorem extractScanTag_documentWith {name : String} (h : str "_vat_scan_tag" ≠ str name)
    (members : List (Str × Loaded)) (elements : List Loaded) :
    extractScanTag (documentWith name members elements) = extractScanTag (.dict members) := by
  have hmember : (documentWith name members elements).member "_vat_scan_tag" =
      (Loaded.dict members).member "_vat_scan_tag" := Loaded.memberOr_cons_of_ne h _ _ _
  rw [extractScanTag, extractScanTag, hmember]

omit [ReprText] in
/-- A text in a field that is set only if there is one. -/
def tagField (scanTag : Option Str) : Loaded :=
  if Str.truthy scanTag then .text (Str.orEmpty scanTag) else .null

omit [ReprText] in
/-- A text or `None`. -/
def optionField (s : Option Str) : Loaded := (s.map Loaded.text).getD .null

/-- `normalize_snippet` with its default length. -/
def normalizeSnippet (s : Loaded) : Option Str :=
  let text :=
    match s with
    | .list items =>
      ['\n'].intercalate ((items.filterMap fun x =>
        match x with
        | .null => none
        | x => some (Str.strip x.pyStr)).filter (· ≠ []))
    | s => Str.strip s.textOf
  if text = [] then none else some (text.take 500)

end Texts

/-! ### Ids of weaknesses -/

section Weaknesses

variable [Unicode] [UpperCase] [ReprText]

omit [Unicode] [UpperCase] [ReprText] in
/-- The id of a weakness with a number. -/
def cweOfInt (i : ℤ) : Option Str := if 0 ≤ i then some (str "CWE-" ++ intText i) else none

omit [ReprText] in
/-- The id of a weakness in a text. -/
def cweOfText (s : Str) : Option Str :=
  let s := Str.strip s
  if s = [] then none
  else if Str.startsWith (UpperCase.upper s) (str "CWE-") then
    some (Str.strip (Str.split1 ':' s).1)
  else if s.all Unicode.isDigit then some (str "CWE-" ++ s)
  else some s

/-- `extract_cwe_id`: a float without an integer part has none. -/
def extractCweId (cweList : Loaded) : Except PyError (Option Str) :=
  match cweList with
  | .bool b => .ok (cweOfInt (if b then 1 else 0))
  | .int i => .ok (cweOfInt i)
  | .float ⟨_, .nan⟩ => .error .valueError
  | .float ⟨_, .infinite⟩ => .error .overflowError
  | .float ⟨_, .finite whole _⟩ => .ok (cweOfInt whole)
  | .text s => .ok (if Str.strip s = [] then none else cweOfText s)
  | .list (.null :: _) => .ok none
  | .list (.int i :: _) => .ok (cweOfInt i)
  | .list (.bool b :: _) => .ok (some (str "CWE-" ++ (Loaded.bool b).pyStr))
  | .list (first :: _) => .ok (cweOfText first.pyStr)
  | _ => .ok none

omit [Unicode] [UpperCase] [ReprText] in
/-- A float without a number. -/
def Loaded.isInfinite : Loaded → Bool
  | .float ⟨_, .infinite⟩ => true
  | _ => false

theorem guarded_extractCweId_iff {cweList : Loaded} :
    Guarded PyError.isSkipped (extractCweId cweList) ↔ ¬ cweList.isInfinite := by
  have hvalue : Guarded PyError.isSkipped (.error .valueError : Except PyError (Option Str)) :=
    guarded_error_iff.mpr (by decide)
  have hoverflow :
      ¬ Guarded PyError.isSkipped (.error .overflowError : Except PyError (Option Str)) :=
    guarded_error_iff.not.mpr (by decide)
  cases cweList with
  | float x =>
    obtain ⟨repr, size⟩ := x
    cases size with
    | nan => exact iff_of_true hvalue Bool.false_ne_true
    | infinite => exact iff_of_false hoverflow (not_not.mpr rfl)
    | finite whole fraction => exact iff_of_true (guarded_ok _) Bool.false_ne_true
  | list items =>
    refine iff_of_true ?_ Bool.false_ne_true
    cases items with
    | nil => exact guarded_ok _
    | cons first rest => cases first <;> exact guarded_ok _
  | null | bool | int | text | dict => exact iff_of_true (guarded_ok _) Bool.false_ne_true

end Weaknesses

/-! ### Risk scores -/

section Scores

variable [Unicode] [UpperCase] [ReprText]

omit [Unicode] [UpperCase] in
/-- `_clean`. -/
def clean (value : Loaded) : Option Str :=
  match value with
  | .null => none
  | value => if Str.strip value.pyStr = [] then none else some (Str.strip value.pyStr)

/-- `_title_severity`. -/
def titleSeverity (value : Loaded) : Option Str :=
  (clean value).map fun text =>
    UpperCase.upper (text.take 1) ++ Unicode.lower (text.drop 1)

omit [Unicode] [UpperCase] [ReprText] in
/-- The version that a vector starts with. -/
def versionOfVector (vector : Str) : Option Str :=
  if ¬ Str.startsWith vector (str "CVSS:") then none
  else
    let version := Str.strip (Str.split1 '/' (vector.drop 5)).1
    if version = [] then none else some version

omit [Unicode] [UpperCase] [ReprText] in
/-- `cvss_version_from_vector`. -/
def cvssVersionFromVector (vector : Loaded) : Except PyError (Option Str) := do
  if vector.truthy then
    let vector ← vector.asText
    return versionOfVector vector
  else return none

omit [Unicode] [UpperCase] in
/-- `fixed_version_text`. -/
def fixedVersionText (value : Loaded) : Option Str :=
  match value with
  | .list items =>
    let text := (str ", ").intercalate (items.filterMap clean)
    if text = [] then none else some text
  | value => clean value

omit [UpperCase] [ReprText] in
/-- There is a version in which the finding is fixed. -/
def isFixed (fixedVersion : Option Str) : Bool :=
  let fixed := Unicode.lower (Str.strip (Str.orEmpty fixedVersion))
  fixed != [] && !(["none", "n/a", "not fixed", "no fix"].map str).contains fixed

omit [UpperCase] [ReprText] in
/-- `fix_available`: without a fixed version, the recommendation is looked at in vain. -/
def fixAvailable (fixedVersion : Option Str) (recommendation : Loaded) : Except PyError Bool := do
  if isFixed fixedVersion then return true
  else
    let _ ← (recommendation.or (.text [])).asText
    return false

omit [Unicode] [UpperCase] [ReprText] in
/-- `value in (None, "", {}, [])`. -/
def Loaded.isBlank : Loaded → Bool
  | .null | .text [] | .dict [] | .list [] => true
  | _ => false

omit [Unicode] [UpperCase] [ReprText] in
theorem Loaded.isBlank_text {s : Str} (h : s ≠ []) : (Loaded.text s).isBlank = false := by
  cases s with
  | nil => exact absurd rfl h
  | cons c s => rfl

/-- What is read of a source, for `build_source_risk_scoring`. -/
structure SourceScores where
  source : String
  score : Loaded
  vector : Loaded
  cvssVersion : Option Str
  severity : Loaded
  scannerTitle : Loaded
  fixedVersion : Loaded
  recommendation : Loaded

omit [Unicode] [UpperCase] [ReprText] in
/-- The version of a score, or else the one that its vector names. -/
def SourceScores.versionText (s : SourceScores) : Except PyError (Option Str) := do
  if Str.truthy s.cvssVersion then return s.cvssVersion
  else cvssVersionFromVector s.vector

/-- The members of a source that are not blank. -/
def SourceScores.block (s : SourceScores) (version fixedText : Option Str) :
    List (Str × Loaded) :=
  [(str "cvssVersion", optionField version), (str "vector", s.vector),
    (str "score", optionField (clean s.score)),
    (str "severity", optionField (titleSeverity s.severity)), (str "scannerTitle", s.scannerTitle),
    (str "fixedVersion", optionField fixedText)].filter fun p => !p.2.isBlank

/-- `build_source_risk_scoring`. -/
def SourceScores.build (s : SourceScores) :
    Except PyError (Option (List (Str × List (Str × Loaded)))) := do
  let version ← s.versionText
  let fixedText := fixedVersionText s.fixedVersion
  if s.block version fixedText = [] then return none
  else
    let available ← fixAvailable fixedText s.recommendation
    return some [(str "source", (str "source", .ofString s.source) :: s.block version fixedText),
      (str "context", [(str "fixAvailable", .bool available)])]

/-! ### What is read of scores -/

omit [Unicode] [UpperCase] [ReprText] in
/-- The version of a score. -/
def SourceScores.version (s : SourceScores) : Option Str :=
  if Str.truthy s.cvssVersion then s.cvssVersion
  else if s.vector.truthy then versionOfVector s.vector.textOf else none

omit [Unicode] [UpperCase] [ReprText] in
/-- A vector without a version is a text. -/
def SourceScores.ReadableVector (s : SourceScores) : Prop :=
  ¬ Str.truthy s.cvssVersion → s.vector.truthy → s.vector.isText

omit [Unicode] [UpperCase] [ReprText] in
instance (s : SourceScores) : Decidable s.ReadableVector :=
  inferInstanceAs (Decidable (_ → _ → _))

omit [Unicode] [UpperCase] [ReprText] in
theorem SourceScores.versionText_eq (s : SourceScores) :
    s.versionText = readIf s.ReadableVector s.version := by
  simp only [versionText, cvssVersionFromVector, Loaded.asText_eq, pure_eq_readIf,
    readIf_bind_readIf, ite_readIf]
  exact readIf_congr (by rw [ReadableVector]; tauto) _

omit [UpperCase] [ReprText] in
theorem fixAvailable_eq (fixedVersion : Option Str) (recommendation : Loaded) :
    fixAvailable fixedVersion recommendation =
      readIf (¬ isFixed fixedVersion → (recommendation.or (.text [])).isText)
        (isFixed fixedVersion) := by
  have hvalue : (if isFixed fixedVersion then true else false) = isFixed fixedVersion := by
    cases isFixed fixedVersion <;> rfl
  simp only [fixAvailable, Loaded.asText_eq, pure_eq_readIf, readIf_bind_readIf, ite_readIf, hvalue]
  exact readIf_congr (by tauto) _

/-- What is read of a source with a title. -/
def SourceScores.blocks (s : SourceScores) : List (Str × List (Str × Loaded)) :=
  [(str "source", (str "source", .ofString s.source) ::
      s.block s.version (fixedVersionText s.fixedVersion)),
    (str "context", [(str "fixAvailable", .bool (isFixed (fixedVersionText s.fixedVersion)))])]

/-- A vector without a version is a text, and so is a recommendation without a fixed version. -/
structure SourceScores.Readable (s : SourceScores) : Prop where
  vector : s.ReadableVector
  recommendation : ¬ isFixed (fixedVersionText s.fixedVersion) →
    (s.recommendation.or (.text [])).isText

instance (s : SourceScores) : Decidable s.Readable :=
  decidable_of_iff (s.ReadableVector ∧ (¬ isFixed (fixedVersionText s.fixedVersion) →
    (s.recommendation.or (.text [])).isText)) ⟨fun h => ⟨h.1, h.2⟩, fun h => ⟨h.1, h.2⟩⟩

theorem SourceScores.build_eq {s : SourceScores} (h : s.scannerTitle.isBlank = false) :
    s.build = readIf s.Readable (some s.blocks) := by
  have hblock : ∀ version fixedText, s.block version fixedText ≠ [] := by
    intro version fixedText hnil
    have hmem : (str "scannerTitle", s.scannerTitle) ∈ s.block version fixedText := by
      simp [block, h]
    rw [hnil] at hmem
    cases hmem
  simp only [build, versionText_eq, fixAvailable_eq, pure_eq_readIf, readIf_bind_readIf,
    if_neg (hblock _ _)]
  exact readIf_congr ⟨fun h => ⟨h.1, h.2.1⟩, fun h => ⟨h.vector, h.recommendation, trivial⟩⟩ _

end Scores

end Vat
