import Vat.Identity.ContainerRef
import Vat.Model.Database

/-!
# Canonical asset ids

The walk along the alias table, and the canonical asset of a finding.

Source: `backend/app/services/asset_aliases.py`, lines 12–39;
`backend/app/services/asset_resolver.py`, lines 153–175; `backend/app/services/decision_ledger.py`,
lines 139–150.
-/

namespace Vat

open Relational

/-- The loop of `resolve_canonical_asset_id`: at most `depth` further aliases, none twice. -/
def followAliases (t : Table AssetAlias) : ℕ → List Str → Str → Str
  | 0, _, current => current
  | depth + 1, seen, current =>
    if current ∈ seen then current
    else
      match t.get? current with
      | none => current
      | some row =>
        let nxt := Str.strip row.canonicalAssetId
        if nxt = [] ∨ nxt = current then current else followAliases t depth (current :: seen) nxt

/-- Resolve an asset id to its canonical id by following alias links. -/
def resolveCanonicalAssetId (t : Table AssetAlias) (assetId : Str) : Str :=
  let current := Str.strip assetId
  if current = [] then current else followAliases t 16 [] current

/-- An id without an alias is its own canonical id. -/
theorem resolveCanonicalAssetId_of_get?_none {t : Table AssetAlias} {assetId : Str}
    (h : t.get? (Str.strip assetId) = none) :
    resolveCanonicalAssetId t assetId = Str.strip assetId := by
  simp only [resolveCanonicalAssetId, followAliases, List.not_mem_nil, ↓reduceIte, h, ite_self]

variable [Unicode]

/-- The asset id of a container reference before aliases, of any other id itself. -/
def correlationAssetImage (cfg : Settings) (image parserId : Str) : Str :=
  if inferAssetKind image parserId = .container then
    applyContainerAssetPathAliases cfg.containerAssetPathAliases
      (normalizeContainerRef (some image)).canonicalAssetKey
  else image

/-- The image segment of an asset: the canonical container path, then the alias chain. -/
def correlationAssetImageForIngest (cfg : Settings) (t : Table AssetAlias)
    (image parserId : Option Str) : Str :=
  let img := Str.strip (Str.orEmpty image)
  if img = [] then []
  else resolveCanonicalAssetId t (correlationAssetImage cfg img (Str.orEmpty parserId))

/-- The raw asset id of a finding: its image, else its component. -/
def Finding.rawAsset (f : Finding) : Str := Str.strip (Str.orEmpty (Str.orElse f.image f.component))

/-- `_canonical_asset_for_finding`. -/
def canonicalAssetForFinding (cfg : Settings) (t : Table AssetAlias) (f : Finding)
    (parserId : Option Str) : Str :=
  let raw := f.rawAsset
  if raw = [] then []
  else if inferAssetKind raw (Str.orEmpty parserId) = .container then
    correlationAssetImageForIngest cfg t (some raw) parserId
  else resolveCanonicalAssetId t raw

end Vat
