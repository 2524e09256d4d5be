import Mathlib.Data.List.Induction
import Vat.Ingest.Payload

/-!
# Reported severities

The severity that a payload reports is its own, except that a license finding has the severity of
its license where the license is known. A row keeps the more severe of what it has and what is
reported, so that after any number of reports it has the most severe of them.

Source: `backend/app/services/ingest.py`, lines 91–168; `backend/app/models/sbom.py`, lines 15–87;
`backend/app/services/sla.py`, lines 4–30.

## Main definitions

* `licenseRiskTier`, `VatFindingSchema.reportedSeverity`: what a payload reports.
* `maxSeverity`, `MostSevere`: the more severe of two, and of several.

## Main results

* `MostSevere.of_maxSeverity`: reports can be merged one after another.
* `maxSeverity_maxSeverity`: a report that was merged before changes nothing.
-/

namespace Vat

/-! ### The order of severities -/

/-- `_SEVERITY_ORDER`. -/
def severityOrder : List Severity := [.critical, .high, .medium, .low, .informational]

/-- `_SEVERITY_ORDER.index(severity)`. -/
def Severity.index (s : Severity) : ℕ := severityOrder.idxOf s

/-- `_max_severity`. -/
def maxSeverity (a b : Severity) : Severity := if a.index ≤ b.index then a else b

/-- A severity of some severities that none of them is more severe than. -/
def MostSevere (l : List Severity) (s : Severity) : Prop := s ∈ l ∧ ∀ t ∈ l, s.index ≤ t.index

theorem Severity.eq_of_index {a b : Severity} (h : a.index = b.index) : a = b := by
  revert h
  cases a <;> cases b <;> decide

@[simp] theorem maxSeverity_self (a : Severity) : maxSeverity a a = a := ite_self a

theorem index_maxSeverity (a b : Severity) : (maxSeverity a b).index = min a.index b.index := by
  unfold maxSeverity
  split_ifs with h
  · exact (min_eq_left h).symm
  · exact (min_eq_right (Nat.le_of_not_le h)).symm

/-- What is reported again changes nothing. -/
@[simp] theorem maxSeverity_maxSeverity (a b : Severity) :
    maxSeverity (maxSeverity a b) b = maxSeverity a b := by
  refine Severity.eq_of_index ?_
  rw [index_maxSeverity, index_maxSeverity, min_assoc, min_self]

theorem mostSevere_singleton (s : Severity) : MostSevere [s] s :=
  ⟨List.mem_singleton_self s, fun _ ht => (List.mem_singleton.mp ht).symm ▸ le_rfl⟩

/-- The first two reports are merged. -/
theorem MostSevere.of_maxSeverity {a b s : Severity} {l : List Severity}
    (h : MostSevere (maxSeverity a b :: l) s) : MostSevere (a :: b :: l) s := by
  obtain ⟨hmem, hle⟩ := h
  have hmax := hle _ List.mem_cons_self
  rw [index_maxSeverity] at hmax
  refine ⟨?_, fun t ht => ?_⟩
  · rcases List.mem_cons.mp hmem with rfl | hmem
    · unfold maxSeverity
      split_ifs
      · exact List.mem_cons_self
      · exact List.mem_cons_of_mem _ List.mem_cons_self
    · exact List.mem_cons_of_mem _ (List.mem_cons_of_mem _ hmem)
  · rcases List.mem_cons.mp ht with rfl | ht
    · exact hmax.trans (min_le_left _ _)
    · rcases List.mem_cons.mp ht with rfl | ht
      · exact hmax.trans (min_le_right _ _)
      · exact hle t (List.mem_cons_of_mem _ ht)

/-! ### Licenses -/

/-- A character that a token of `_SPDX_TOKEN_RE` starts with. -/
def isSpdxStart (c : Char) : Bool := c.toNat < 128 && c.isAlphanum

/-- The other characters of a token. -/
def isSpdxChar (c : Char) : Bool := isSpdxStart c || c == '.' || c == '+' || c == '-'

/-- The tokens of a text after the characters of an open token, last one first. -/
def spdxTokensFrom : Option Str → Str → List Str
  | none, [] => []
  | some token, [] => [token.reverse]
  | none, c :: s => if isSpdxStart c then spdxTokensFrom (some [c]) s else spdxTokensFrom none s
  | some token, c :: s =>
    if isSpdxChar c then spdxTokensFrom (some (c :: token)) s
    else token.reverse :: spdxTokensFrom none s

/-- `LICENSE_RISK_CRITICAL` to `LICENSE_RISK_LOW`. -/
def licenseRisks : List (Severity × List String) :=
  [(.critical, ["AGPL-3.0", "SSPL-1.0"]),
    (.high, ["GPL-2.0", "GPL-3.0"]),
    (.medium, ["LGPL-2.1", "LGPL-3.0", "MPL-2.0", "CDDL-1.0"]),
    (.low, ["MIT", "Apache-2.0", "BSD-2-Clause", "BSD-3-Clause", "ISC", "Unlicense", "CC0-1.0"])]

section License

variable [Unicode]

/-- `_LICENSE_RISK_BY_ID.get(candidate.lower())`. -/
def licenseRiskById (candidate : Str) : Option Severity :=
  (licenseRisks.find? fun risk =>
    risk.2.any fun licenseId => Unicode.lower (str licenseId) = Unicode.lower candidate).map Prod.fst

/-- `_normalize_spdx_token`. The operators are compared by their ASCII letters: a text without such
letters has no operator for its upper case. -/
def normalizeSpdxToken (token : Str) : Str :=
  let normalized := Str.strip token
  if normalized.map Char.toUpper ∈ [str "AND", str "OR", str "WITH"] then []
  else
    let normalized := if normalized.getLast? = some '+' then normalized.dropLast else normalized
    match [str "-or-later", str "-only"].find? fun suffix =>
        suffix.isSuffixOf (Unicode.lower normalized) with
    | some suffix => Str.strip (normalized.take (normalized.length - suffix.length))
    | none => Str.strip normalized

/-- `_iter_license_ids`. -/
def iterLicenseIds (licenseExpression : Str) : List Str :=
  let expression := Str.strip licenseExpression
  let tokens := ((spdxTokensFrom none expression).map normalizeSpdxToken).filter (· ≠ [])
  if tokens ≠ [] then tokens else [normalizeSpdxToken expression].filter (· ≠ [])

/-- `license_risk_tier`, which is `none` for `Unknown`, the last of the tiers. -/
def licenseRiskTier (licenseId : Str) : Option Severity :=
  (iterLicenseIds licenseId).foldl
    (fun best candidate =>
      match licenseRiskById candidate, best with
      | none, best => best
      | some tier, none => some tier
      | some tier, some best => some (if tier.index < best.index then tier else best))
    none

/-- `_license_expression_from_payload`. -/
def licenseExpressionFromPayload (payload : VatFindingSchema) : Str :=
  let candidates := [payload.ruleId, some payload.cveId, payload.title]
  match (candidates.map fun raw => Str.strip (Str.orEmpty raw)).find? (· ≠ []) with
  | none => []
  | some value =>
    if Str.startsWith (Unicode.lower value) (str "license:") then
      Str.strip (Str.split1 ':' value).2
    else value

/-- The severity that an ingest of a payload merges. -/
def VatFindingSchema.reportedSeverity (payload : VatFindingSchema) : Severity :=
  if payload.findingType = .license then
    (licenseRiskTier (licenseExpressionFromPayload payload)).getD payload.severity
  else payload.severity

end License

/-! ### Due dates -/

/-- `SLA_DAYS`. -/
def slaDays : FindingType → Severity → ℕ
  | .secret, .critical => 1
  | .secret, .high => 1
  | .secret, .medium => 1
  | .secret, .low => 3
  | .secret, .informational => 7
  | .sca, .critical => 3
  | .sca, .high => 14
  | .sca, .medium => 30
  | .sca, .low => 90
  | .sca, .informational => 180
  | .iac, .critical => 1
  | .iac, .high => 7
  | .iac, .medium => 14
  | .iac, .low => 30
  | .iac, .informational => 90
  | .sast, .critical => 7
  | .sast, .high => 21
  | .sast, .medium => 60
  | .sast, .low => 90
  | .sast, .informational => 180
  | .license, .critical => 14
  | .license, .high => 30
  | .license, .medium => 30
  | .license, .low => 90
  | .license, .informational => 180

/-- The microseconds of a day. -/
def dayLength : ℕ := 86400000000

/-- `_compute_sla_due`. The text of the start of a day stands for the date. -/
def computeSlaDue (now : Instant) (findingType : FindingType) (severity : Severity) : Str :=
  Instant.text ((now + slaDays findingType severity * dayLength) / dayLength * dayLength)

end Vat
