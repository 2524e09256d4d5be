import Vat.Correlation.Score

/-!
# Scores in both directions

The crosswalk is looked up from the left finding to the right one, where the targets of its entries
are normalized, and else from the right one to the left one, where they are compared as they are
stored. So the score of a pair does not depend on its order when the stored targets are normalized,
and every target that an ingest stores is.

Source: `backend/app/services/correlation_scoring.py`, lines 68–156;
`backend/app/services/crosswalks.py`, lines 26–211.

## Main definitions

* `NormalizedTargets`: a crosswalk with normalized targets.
* `LeadsTo`: an entry leads from one set of identifiers into another.

## Main results

* `normalizedTargets_ingestCrosswalkEntries`: an ingest keeps the targets normalized.
* `identifiersCrosswalkMatch_ne_nil_iff`: a bridge leads from left to right or from right to left.
* `scoreFindingPair_comm_and_gated`: scores and tiers are symmetric, and none passes the gate.
-/

namespace Vat

open Relational

section Symmetry

variable [Unicode]

/-! ### Normalized targets -/

/-- The targets of a crosswalk are normalized. -/
def NormalizedTargets (crosswalk : Table CrosswalkEntry) : Prop :=
  ∀ e ∈ crosswalk.rows, normIdentifier (e.toNs, e.toValue) = (e.toNs, e.toValue)

theorem NormalizedTargets.upsert {crosswalk : Table CrosswalkEntry}
    (h : NormalizedTargets crosswalk) {e : CrosswalkEntry}
    (he : normIdentifier (e.toNs, e.toValue) = (e.toNs, e.toValue)) :
    NormalizedTargets (crosswalk.upsert e fun row => { row with active := e.active }) := by
  intro row hrow
  obtain hrow | rfl | ⟨old, hold, -, rfl⟩ := Table.mem_upsert hrow
  · exact h row hrow
  · exact he
  · exact h old hold

/-- An ingest keeps the targets normalized, where to normalize twice is to normalize once. -/
theorem normalizedTargets_ingestCrosswalkEntries
    (hnorm : ∀ v : Str, normText (some (normText (some v))) = normText (some v))
    {crosswalk : Table CrosswalkEntry} (h : NormalizedTargets crosswalk) (source sourceVersion : Str)
    (entries : List CrosswalkEntry) :
    NormalizedTargets (ingestCrosswalkEntries crosswalk source sourceVersion entries) := by
  unfold ingestCrosswalkEntries
  have hrows : ∀ e ∈ entries.filterMap (crosswalkRow source sourceVersion),
      normIdentifier (e.toNs, e.toValue) = (e.toNs, e.toValue) := by
    intro e he
    obtain ⟨e₀, -, hrow⟩ := List.mem_filterMap.mp he
    unfold crosswalkRow at hrow
    dsimp only at hrow
    split_ifs at hrow
    cases hrow
    exact Prod.ext (hnorm _) (hnorm _)
  generalize entries.filterMap (crosswalkRow source sourceVersion) = rows at hrows
  induction rows generalizing crosswalk with
  | nil => exact h
  | cons e rows ih =>
    obtain ⟨he, hrows⟩ := List.forall_mem_cons.mp hrows
    exact ih (h.upsert he) hrows

/-! ### Bridges -/

/-- An active entry leads from an identifier of one set to an identifier of another. -/
def LeadsTo (crosswalk : Table CrosswalkEntry) (left right : List (Str × Str)) : Prop :=
  ∃ e ∈ crosswalk.rows, e.active = true ∧ e.fromNs ≠ [] ∧ e.fromValue ≠ [] ∧
    (e.fromNs, e.fromValue) ∈ left.map normIdentifier ∧
      (e.toNs, e.toValue) ∈ right.map normIdentifier ∧ e.toValue ≠ []

omit [Unicode] in
theorem mem_resolveCrosswalkValues {crosswalk : Table CrosswalkEntry} {fromPair : Str × Str}
    {e : CrosswalkEntry} :
    e ∈ resolveCrosswalkValues crosswalk fromPair ↔
      e ∈ crosswalk.rows ∧ e.active = true ∧ e.fromNs ≠ [] ∧ e.fromValue ≠ [] ∧
        (e.fromNs, e.fromValue) = fromPair := by
  unfold resolveCrosswalkValues
  split_ifs with h
  · refine iff_of_false List.not_mem_nil ?_
    rintro ⟨-, -, hns, hvalue, rfl⟩
    exact h.elim hns hvalue
  · rw [List.mem_filter, decide_eq_true_iff]
    constructor
    · rintro ⟨hmem, hactive, rfl⟩
      exact ⟨hmem, hactive, fun hns => h (Or.inl hns), fun hvalue => h (Or.inr hvalue), rfl⟩
    · rintro ⟨hmem, hactive, -, -, hfrom⟩
      exact ⟨hmem, hactive, hfrom⟩

/-- One direction of the lookup finds an entry exactly when one leads there. -/
theorem flatMap_resolve_ne_nil_iff {crosswalk : Table CrosswalkEntry} (left right : List (Str × Str)) :
    (left.flatMap fun p => (resolveCrosswalkValues crosswalk (normIdentifier p)).filter fun e =>
        (e.toNs, e.toValue) ∈ (right.map normIdentifier).filter fun q => q.2 ≠ []) ≠ [] ↔
      LeadsTo crosswalk left right := by
  rw [← List.length_pos_iff, List.length_pos_iff_exists_mem]
  simp only [List.mem_flatMap, List.mem_filter, mem_resolveCrosswalkValues, decide_eq_true_iff]
  constructor
  · rintro ⟨e, p, hp, ⟨hmem, hactive, hns, hvalue, hfrom⟩, hright, hto⟩
    exact ⟨e, hmem, hactive, hns, hvalue, List.mem_map.mpr ⟨p, hp, hfrom.symm⟩, hright, hto⟩
  · rintro ⟨e, hmem, hactive, hns, hvalue, hleft, hright, hto⟩
    obtain ⟨p, hp, hfrom⟩ := List.mem_map.mp hleft
    exact ⟨e, p, hp, ⟨hmem, hactive, hns, hvalue, hfrom.symm⟩, hright, hto⟩

theorem crosswalkMatches_eq {crosswalk : Table CrosswalkEntry} (h : NormalizedTargets crosswalk)
    (left right : List (Str × Str)) :
    crosswalkMatches crosswalk left right =
      left.flatMap fun p => (resolveCrosswalkValues crosswalk (normIdentifier p)).filter fun e =>
        (e.toNs, e.toValue) ∈ (right.map normIdentifier).filter fun q => q.2 ≠ [] := by
  refine List.flatMap_congr fun p _ => List.filter_congr fun e he => ?_
  rw [h e (mem_resolveCrosswalkValues.mp he).1]

/-- A bridge leads from left to right or from right to left. -/
theorem identifiersCrosswalkMatch_ne_nil_iff {crosswalk : Table CrosswalkEntry}
    (h : NormalizedTargets crosswalk) (left right : List (Str × Str)) :
    identifiersCrosswalkMatch crosswalk left right ≠ [] ↔
      LeadsTo crosswalk left right ∨ LeadsTo crosswalk right left := by
  have hforward := @flatMap_resolve_ne_nil_iff _ crosswalk left right
  rw [← crosswalkMatches_eq h] at hforward
  have hbackward := @flatMap_resolve_ne_nil_iff _ crosswalk right left
  have hnil : ∀ l r : List (Str × Str), LeadsTo crosswalk l r → l ≠ [] ∧ r ≠ [] := by
    rintro l r ⟨e, -, -, -, -, hl, hr, -⟩
    exact ⟨mt List.map_eq_nil_iff.mpr (List.ne_nil_of_mem hl),
      mt List.map_eq_nil_iff.mpr (List.ne_nil_of_mem hr)⟩
  unfold identifiersCrosswalkMatch
  split_ifs with hempty
  · refine iff_of_false (not_not_intro rfl) ?_
    rintro (hleads | hleads)
    · exact hempty.elim (hnil _ _ hleads).1 (hnil _ _ hleads).2
    · exact hempty.elim (hnil _ _ hleads).2 (hnil _ _ hleads).1
  · dsimp only
    split_ifs with hfound hset
    · exact iff_of_true hfound (Or.inl (hforward.mp hfound))
    · refine iff_of_false (not_not_intro rfl) ?_
      rintro (hleads | ⟨e, -, -, -, -, -, hright, hto⟩)
      · exact hfound (hforward.mpr hleads)
      · have hmem : (e.toNs, e.toValue) ∈
            (left.map normIdentifier).filter fun q => q.2 ≠ [] :=
          List.mem_filter.mpr ⟨hright, decide_eq_true hto⟩
        rw [hset] at hmem
        cases hmem
    · rw [hbackward, or_iff_right (mt hforward.mpr hfound)]

theorem identifiersCrosswalkMatch_ne_nil_comm {crosswalk : Table CrosswalkEntry}
    (h : NormalizedTargets crosswalk) (left right : List (Str × Str)) :
    identifiersCrosswalkMatch crosswalk left right ≠ [] ↔
      identifiersCrosswalkMatch crosswalk right left ≠ [] := by
  rw [identifiersCrosswalkMatch_ne_nil_iff h, identifiersCrosswalkMatch_ne_nil_iff h, or_comm]

/-! ### Scores -/

theorem keyMatch_comm (a b : Finding) : KeyMatch a b ↔ KeyMatch b a := by
  unfold KeyMatch
  constructor
  all_goals rintro ⟨hne, heq⟩; exact ⟨heq ▸ hne, heq.symm⟩

theorem assetGate_comm (a b : Finding) : AssetGate a b ↔ AssetGate b a := by
  unfold AssetGate
  by_cases ha : assetIdentity a ≠ [] ∧ assetIdentity b ≠ []
  · rw [if_pos ha, if_pos ha.symm, ne_comm]
  · rw [if_neg ha, if_neg (mt And.symm ha), keyMatch_comm]

/-- The sum of the steps of a score. -/
theorem sum_scoreSteps (t : ScoreTables) (left right : Finding) :
    ((scoreSteps t left right).map Prod.fst).sum =
      (if KeyMatch left right then 80 else 0) +
      (if normText (some left.cveId) ≠ [] ∧
        normText (some left.cveId) = normText (some right.cveId) then 10 else 0) +
      (if ruleIdentity left ≠ [] ∧ ruleIdentity left = ruleIdentity right then 10 else 0) +
      (if identifiersWithFacts t.facts left ∩ identifiersWithFacts t.facts right ≠ [] then 10
        else 0) +
      (if identifiersCrosswalkMatch t.crosswalk (identifiersWithFacts t.facts left)
        (identifiersWithFacts t.facts right) ≠ [] then 10 else 0) := by
  simp only [scoreSteps, List.map_append, List.sum_append, sum_step]

omit [Unicode] in
theorem ne_nil_and_eq_comm (x y : Str) : (x ≠ [] ∧ x = y) ↔ (y ≠ [] ∧ y = x) := by
  constructor
  all_goals rintro ⟨hne, rfl⟩; exact ⟨hne, rfl⟩

omit [Unicode] in
theorem inter_ne_nil_comm (l r : List (Str × Str)) : l ∩ r ≠ [] ↔ r ∩ l ≠ [] := by
  rw [← List.length_pos_iff, ← List.length_pos_iff, List.length_pos_iff_exists_mem,
    List.length_pos_iff_exists_mem]
  simp only [List.mem_inter_iff, and_comm]

/-- The sum of the steps does not depend on the order of the pair. -/
theorem sum_scoreSteps_comm {t : ScoreTables} (h : NormalizedTargets t.crosswalk) (a b : Finding) :
    ((scoreSteps t a b).map Prod.fst).sum = ((scoreSteps t b a).map Prod.fst).sum := by
  rw [sum_scoreSteps, sum_scoreSteps]
  simp only [keyMatch_comm a b, ne_nil_and_eq_comm (normText (some a.cveId)),
    ne_nil_and_eq_comm (ruleIdentity a), inter_ne_nil_comm (identifiersWithFacts t.facts a),
    identifiersCrosswalkMatch_ne_nil_comm h (identifiersWithFacts t.facts a)]

theorem scoreFindingPair_comm {t : ScoreTables} (h : NormalizedTargets t.crosswalk)
    (a b : Finding) :
    (scoreFindingPair t a b).score = (scoreFindingPair t b a).score ∧
      (scoreFindingPair t a b).tier = (scoreFindingPair t b a).tier := by
  unfold scoreFindingPair
  simp only [assetGate_comm a b, sum_scoreSteps_comm h a b]
  split_ifs <;> exact ⟨rfl, rfl⟩

/-- With normalized targets, scores and tiers do not depend on the order of a pair. A pair whose
tier is above low passes the gate and has one correlation key. -/
theorem scoreFindingPair_comm_and_gated (t : ScoreTables) (h : NormalizedTargets t.crosswalk)
    (a b : Finding) :
    (scoreFindingPair t a b).score = (scoreFindingPair t b a).score ∧
      (scoreFindingPair t a b).tier = (scoreFindingPair t b a).tier ∧
        ((scoreFindingPair t a b).tier ≠ .low → ¬ AssetGate a b ∧ KeyMatch a b) :=
  ⟨(scoreFindingPair_comm h a b).1, (scoreFindingPair_comm h a b).2, fun htier =>
    ((scoreFindingPair_tier_ne_low_iff t a b).mp htier).symm⟩

end Symmetry

/-! ### A target that is not normalized -/

/-- The entry from a rule to a CVE. -/
def ruleToCve (toValue : Str) : CrosswalkEntry where
  source := str "nvd"
  sourceVersion := str "1"
  fromNs := str "rule_id"
  fromValue := str "r1"
  toNs := str "cve_id"
  toValue := toValue
  active := true

/-- The tables with this entry and no facts. -/
def ruleToCveTables (toValue : Str) : ScoreTables where
  facts := .empty
  crosswalk := .singleton (ruleToCve toValue)

/-- The finding of a rule. -/
def ruleFinding : Finding :=
  { Finding.blank (str "f-1") (str "fp-1") [] with
    image := some (str "app")
    ruleId := some (str "r1")
    correlationKey := some (str "k") }

/-- The finding of a CVE. -/
def cveFinding : Finding :=
  { Finding.blank (str "f-2") (str "fp-2") (str "cve-1") with
    image := some (str "app")
    correlationKey := some (str "k") }

/-- With the target in capitals, the pair is high in one order and medium in the other. -/
theorem not_scoreFindingPair_comm :
    ¬ ∀ (t : ScoreTables) (a b : Finding),
      (@scoreFindingPair asciiUnicode t a b).score = (@scoreFindingPair asciiUnicode t b a).score ∧
        (@scoreFindingPair asciiUnicode t a b).tier = (@scoreFindingPair asciiUnicode t b a).tier := by
  intro h
  have := (h (ruleToCveTables (str "CVE-1")) ruleFinding cveFinding).1
  revert this
  decide

/-- With the target as an ingest stores it, the pair is high in both orders. -/
theorem scoreFindingPair_comm_and_gated_cve :
    (@scoreFindingPair asciiUnicode (ruleToCveTables (str "cve-1")) ruleFinding cveFinding).score =
        (@scoreFindingPair asciiUnicode (ruleToCveTables (str "cve-1")) cveFinding ruleFinding).score ∧
      (@scoreFindingPair asciiUnicode (ruleToCveTables (str "cve-1")) ruleFinding cveFinding).tier =
        (@scoreFindingPair asciiUnicode (ruleToCveTables (str "cve-1")) cveFinding ruleFinding).tier ∧
      ((@scoreFindingPair asciiUnicode (ruleToCveTables (str "cve-1")) ruleFinding cveFinding).tier ≠
          .low →
        ¬ @AssetGate asciiUnicode ruleFinding cveFinding ∧
          @KeyMatch asciiUnicode ruleFinding cveFinding) :=
  @scoreFindingPair_comm_and_gated asciiUnicode _
    (fun e he => by rw [List.mem_singleton.mp he]; decide) _ _

end Vat
