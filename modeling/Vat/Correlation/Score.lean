import Mathlib.Algebra.Ring.Nat
import Vat.Model.Database

/-!
# Scores of pairs of findings

The identifier facts of findings, the crosswalk between the identifiers of scanners, and the score
of a pair. A score is in hundredths; the source adds the same steps up in floating point, where none
of the sums comes near a threshold. The evidence of a score beside its reasons is left out.

Source: `backend/app/services/correlation_scoring.py`;
`backend/app/services/finding_identifiers.py`; `backend/app/services/crosswalks.py`, lines 18–217.

## Main definitions

* `FindingIdentifier`, `CrosswalkEntry`: the rows of the two tables.
* `upsertIdentifierFacts`, `ingestCrosswalkEntries`: their writers.
* `scoreFindingPair`.

## Main results

* `scoreFindingPair_tier_ne_low_iff`: a pair is linked exactly if its keys agree and no asset gate
  keeps it apart, whatever the tables hold.
-/

namespace Vat

open Relational

/-! ### Identifier facts -/

/-- A row of the table `finding_identifiers`. -/
structure FindingIdentifier where
  findingId : Str
  ns : Str
  value : Str
  confidence : Confidence
  source : Str

/-- The constraint `uq_finding_identifier`. -/
def FindingIdentifier.key (r : FindingIdentifier) : Str × Str × Str × Str :=
  (r.findingId, r.ns, r.value, r.source)

instance : Row FindingIdentifier (Str × Str × Str × Str) (Str × Str × Str × Str) where
  pk := FindingIdentifier.key
  uk := FindingIdentifier.key

/-- A row of the table `crosswalk_entries`. -/
structure CrosswalkEntry where
  source : Str
  sourceVersion : Str
  fromNs : Str
  fromValue : Str
  toNs : Str
  toValue : Str
  active : Bool
  deriving DecidableEq

/-- The constraint `uq_crosswalk_entries_mapping`. -/
def CrosswalkEntry.key (e : CrosswalkEntry) : (Str × Str) × (Str × Str) × (Str × Str) :=
  ((e.fromNs, e.fromValue), (e.toNs, e.toValue), (e.source, e.sourceVersion))

instance : Row CrosswalkEntry ((Str × Str) × (Str × Str) × (Str × Str))
    ((Str × Str) × (Str × Str) × (Str × Str)) where
  pk := CrosswalkEntry.key
  uk := CrosswalkEntry.key

variable [Unicode]

/-- `_norm`. -/
def normText (value : Option Str) : Str := Unicode.lower (Str.strip (Str.orEmpty value))

/-- `extract_identifier_facts`. -/
def extractIdentifierFacts (f : Finding) : List (Str × Str × Confidence) :=
  [(str "cve_id", normText (some f.cveId), Confidence.high),
    (str "rule_id", normText f.ruleId, .medium),
    (str "stable_rule_key", normText f.stableRuleKey, .high),
    (str "benchmark_family", normText f.benchmarkFamily, .medium),
    (str "control_ref", normText f.controlRef, .medium),
    (str "ecosystem", normText f.ecosystem, .medium)].filter fun fact => fact.2.1 ≠ []

/-- `upsert_identifier_facts_for_finding`. -/
def upsertIdentifierFacts (facts : Table FindingIdentifier) (f : Finding) (source : Str) :
    Table FindingIdentifier :=
  let findingId := normText (some f.id)
  if findingId = [] then facts
  else
    (extractIdentifierFacts f).foldl
      (fun facts fact =>
        facts.upsert ⟨findingId, fact.1, fact.2.1, fact.2.2, source⟩
          fun row => { row with confidence := fact.2.2 })
      facts

/-- `list_identifier_facts_for_finding`. -/
def listIdentifierFacts (facts : Table FindingIdentifier) (findingId : Str) : List (Str × Str) :=
  let fid := normText (some findingId)
  if fid = [] then []
  else (facts.rows.filter fun r => r.findingId = fid).map fun r => (r.ns, r.value)

/-! ### The crosswalk -/

/-- `_norm` of the parts of an identifier. -/
def normIdentifier (p : Str × Str) : Str × Str := (normText (some p.1), normText (some p.2))

/-- An entry of a crosswalk run, normalized; `none` when it is rejected. -/
def crosswalkRow (source sourceVersion : Str) (e : CrosswalkEntry) : Option CrosswalkEntry :=
  let fromPair := normIdentifier (e.fromNs, e.fromValue)
  let toPair := normIdentifier (e.toNs, e.toValue)
  if fromPair.1 = [] ∨ fromPair.2 = [] ∨ toPair.1 = [] ∨ toPair.2 = [] then none
  else some ⟨source, sourceVersion, fromPair.1, fromPair.2, toPair.1, toPair.2, e.active⟩

/-- `ingest_crosswalk_entries`. -/
def ingestCrosswalkEntries (crosswalk : Table CrosswalkEntry) (source sourceVersion : Str)
    (entries : List CrosswalkEntry) : Table CrosswalkEntry :=
  (entries.filterMap (crosswalkRow source sourceVersion)).foldl
    (fun crosswalk e => crosswalk.upsert e fun row => { row with active := e.active }) crosswalk

/-- `resolve_crosswalk_values` in any namespace. -/
def resolveCrosswalkValues (crosswalk : Table CrosswalkEntry) (fromPair : Str × Str) :
    List CrosswalkEntry :=
  if fromPair.1 = [] ∨ fromPair.2 = [] then []
  else crosswalk.rows.filter fun e => e.active ∧ (e.fromNs, e.fromValue) = fromPair

/-- The entries that lead from one set of identifiers into another. -/
def crosswalkMatches (crosswalk : Table CrosswalkEntry) (left right : List (Str × Str)) :
    List CrosswalkEntry :=
  let rightSet := (right.map normIdentifier).filter fun p => p.2 ≠ []
  left.flatMap fun p =>
    (resolveCrosswalkValues crosswalk (normIdentifier p)).filter fun e =>
      normIdentifier (e.toNs, e.toValue) ∈ rightSet

/-- `identifiers_crosswalk_match`: from left to right, else from right to left. -/
def identifiersCrosswalkMatch (crosswalk : Table CrosswalkEntry) (left right : List (Str × Str)) :
    List CrosswalkEntry :=
  if left = [] ∨ right = [] then []
  else
    let found := crosswalkMatches crosswalk left right
    if found ≠ [] then found
    else
      let leftSet := (left.map normIdentifier).filter fun p => p.2 ≠ []
      if leftSet = [] then []
      else
        right.flatMap fun p =>
          (resolveCrosswalkValues crosswalk (normIdentifier p)).filter fun e =>
            (e.toNs, e.toValue) ∈ leftSet

/-! ### Scores -/

/-- The tables that a score reads. -/
structure ScoreTables where
  facts : Table FindingIdentifier
  crosswalk : Table CrosswalkEntry

/-- `_asset_identity`: the tag is not part of it. -/
def assetIdentity (f : Finding) : Str :=
  let image := normText f.image
  let branch := normText f.branch
  if image ≠ [] ∨ branch ≠ [] then image ++ str "|" ++ branch else normText f.component

/-- `_identifiers`. -/
def inlineIdentifiers (f : Finding) : List (Str × Str) :=
  [(str "cve_id", normText (some f.cveId)),
    (str "rule_id", normText f.ruleId),
    (str "stable_rule_key", normText f.stableRuleKey),
    (str "benchmark_family", normText f.benchmarkFamily),
    (str "control_ref", normText f.controlRef)].filter fun p => p.2 ≠ []

/-- `_identifiers_with_facts`, up to their order. -/
def identifiersWithFacts (facts : Table FindingIdentifier) (f : Finding) : List (Str × Str) :=
  (inlineIdentifiers f ++ listIdentifierFacts facts f.id).dedup

/-- The key by which rules are compared. -/
def ruleIdentity (f : Finding) : Str :=
  let stable := normText f.stableRuleKey
  if stable ≠ [] then stable else normText f.ruleId

/-- `key_match`. -/
def KeyMatch (left right : Finding) : Prop :=
  normText left.correlationKey ≠ [] ∧ normText left.correlationKey = normText right.correlationKey

instance (left right : Finding) : Decidable (KeyMatch left right) :=
  inferInstanceAs (Decidable (_ ∧ _))

/-- The hard gate: two assets that are not the same, or a missing one with keys that do not
match. -/
def AssetGate (left right : Finding) : Prop :=
  if assetIdentity left ≠ [] ∧ assetIdentity right ≠ [] then assetIdentity left ≠ assetIdentity right
  else ¬ KeyMatch left right

instance (left right : Finding) : Decidable (AssetGate left right) :=
  inferInstanceAs (Decidable (ite _ _ _))

/-- What `score_finding_pair` returns, with the score in hundredths. -/
structure PairScore where
  score : ℕ
  tier : Confidence
  reasons : List Str
  deriving DecidableEq

/-- The reason that the gate gives. -/
def assetReason (left right : Finding) : Str :=
  if assetIdentity left ≠ [] ∧ assetIdentity right ≠ [] then
    if assetIdentity left ≠ assetIdentity right then str "asset_mismatch" else str "asset_match"
  else if KeyMatch left right then str "asset_missing_but_key_match"
  else str "asset_missing"

/-- The steps of the score: what each adds, and its reason. -/
def scoreSteps (t : ScoreTables) (left right : Finding) : List (ℕ × Str) :=
  let leftCve := normText (some left.cveId)
  let leftRule := ruleIdentity left
  let leftIdentifiers := identifiersWithFacts t.facts left
  let rightIdentifiers := identifiersWithFacts t.facts right
  (if KeyMatch left right then [(80, str "same_correlation_key")] else []) ++
  (if leftCve ≠ [] ∧ leftCve = normText (some right.cveId) then [(10, str "same_cve")] else []) ++
  (if leftRule ≠ [] ∧ leftRule = ruleIdentity right then [(10, str "same_rule")] else []) ++
  (if leftIdentifiers ∩ rightIdentifiers ≠ [] then [(10, str "shared_identifier_fact")] else []) ++
  (if identifiersCrosswalkMatch t.crosswalk leftIdentifiers rightIdentifiers ≠ [] then
    [(10, str "crosswalk_bridge")] else [])

omit [Unicode] in
/-- The tier of a score: `HIGH_THRESHOLD` is 0.85, `MEDIUM_THRESHOLD` is 0.60. -/
def scoreTier (score : ℕ) : Confidence :=
  if 85 ≤ score then .high else if 60 ≤ score then .medium else .low

/-- `score_finding_pair`. -/
def scoreFindingPair (t : ScoreTables) (left right : Finding) : PairScore :=
  if AssetGate left right then ⟨0, .low, [assetReason left right]⟩
  else
    let steps := scoreSteps t left right
    let score := min (steps.map Prod.fst).sum 100
    ⟨score, scoreTier score, assetReason left right :: steps.map Prod.snd⟩

omit [Unicode] in
theorem scoreTier_ne_low_iff {score : ℕ} : scoreTier score ≠ .low ↔ 60 ≤ score := by
  unfold scoreTier
  split_ifs with hhigh hmedium
  · exact iff_of_true (by simp) (by omega)
  · exact iff_of_true (by simp) hmedium
  · exact iff_of_false (by simp) hmedium

omit [Unicode] in
/-- A step that is made or not adds its points or none. -/
theorem sum_step (p : Prop) [Decidable p] (n : ℕ) (reason : Str) :
    ((if p then [(n, reason)] else []).map Prod.fst).sum = if p then n else 0 := by
  split_ifs
  · exact Nat.add_zero n
  · rfl

/-- Only a match of the keys brings a score to the threshold: the four other steps add up to
0.40. -/
theorem le_sum_scoreSteps_iff (t : ScoreTables) (left right : Finding) :
    60 ≤ ((scoreSteps t left right).map Prod.fst).sum ↔ KeyMatch left right := by
  simp only [scoreSteps, List.map_append, List.sum_append, sum_step]
  by_cases hkey : KeyMatch left right
  · rw [if_pos hkey]
    exact iff_of_true (by omega) hkey
  · rw [if_neg hkey]
    refine iff_of_false ?_ hkey
    split_ifs <;> omega

/-- A pair is linked exactly if its keys agree and no asset gate keeps it apart. -/
theorem scoreFindingPair_tier_ne_low_iff (t : ScoreTables) (left right : Finding) :
    (scoreFindingPair t left right).tier ≠ .low ↔ KeyMatch left right ∧ ¬ AssetGate left right := by
  unfold scoreFindingPair
  split_ifs with hgate
  · exact iff_of_false (by simp) fun h => h.2 hgate
  · rw [scoreTier_ne_low_iff, Nat.le_min, le_sum_scoreSteps_iff]
    simp [hgate]

end Vat
