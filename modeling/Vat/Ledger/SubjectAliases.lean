import Vat.Ledger.Record

/-!
# Asset aliases and the decision keys they carry

An alias of an asset also gives every decision keyed on the asset an alias key on the new
canonical asset, so that a prior decision is still found after a merge.

Source: `backend/app/services/decision_ledger.py`, lines 601–660;
`backend/app/services/asset_aliases.py`, lines 42–102.

## Main definitions

* `sqlLike`, `rekeySubjectKeyAsset`, `registerDecisionAliasesForAssetMerge`.
* `upsertAssetAlias`, `repointAliases`.
-/

namespace Vat

open Relational

/-! ### Rekeying -/

/-- `s LIKE pattern` with the escape character backslash. -/
def sqlLike : Str → Str → Bool
  | [], s => s.isEmpty
  | '%' :: p, s => s.tails.any (sqlLike p)
  | '_' :: p, s =>
    match s with
    | [] => false
    | _ :: s => sqlLike p s
  | '\\' :: c :: p, s =>
    match s with
    | [] => false
    | d :: s => decide (c = d) && sqlLike p s
  | c :: p, s =>
    match s with
    | [] => false
    | d :: s => decide (c = d) && sqlLike p s

/-- Substitute the asset of a primary key: the first `|`-part of its fifth `:`-part. -/
def rekeySubjectKeyAsset (subjectKey oldNorm newNorm : Str) : Option Str :=
  let parts := subjectKey.splitOn ':'
  if parts.length < 5 ∨ parts.head? ≠ some (str "decision") then none
  else
    match (parts.getD 4 []).splitOn '|' with
    | [] => none
    | asset :: rest =>
      if asset ≠ oldNorm then none
      else some (Str.join ':' (parts.set 4 (Str.join '|' (newNorm :: rest))))

section Merge

variable [Unicode]

/-- The pattern of the keys that carry an asset. -/
def assetKeyPattern (oldNorm : Str) : Str := str "decision:v1:%:" ++ oldNorm ++ str "|%"

/-- The alias key of a decision for a merge of its asset. -/
def mergedSubjectKey (oldNorm newNorm : Str) (d : TriageDecision) : Option Str :=
  if sqlLike (assetKeyPattern oldNorm) d.subjectKey then
    match rekeySubjectKeyAsset d.subjectKey oldNorm newNorm with
    | none => none
    | some newKey => if newKey = [] ∨ newKey = d.subjectKey then none else some newKey
  else none

/-- Alias a decision to its key on the new asset. -/
def aliasMergedDecision (cfg : Settings) (now : Instant) (oldNorm newNorm : Str) (db : Db)
    (d : TriageDecision) : Db :=
  match mergedSubjectKey oldNorm newNorm d with
  | none => db
  | some newKey =>
    registerSubjectAlias cfg now db (some d.tenantId) newKey d.subjectKey (str "asset_merge")

/-- Alias the decisions keyed on a merged-away asset to their keys on the new one. -/
def registerDecisionAliasesForAssetMerge (cfg : Settings) (now : Instant) (db : Db)
    (oldAssetId newAssetId : Str) : Db :=
  let oldNorm := normalize oldAssetId
  let newNorm := normalize newAssetId
  if !cfg.decisionLedgerEnabled ∨ oldNorm = [] ∨ newNorm = [] ∨ oldNorm = newNorm then db
  else
    db.decisions.rows.foldl (aliasMergedDecision cfg now oldNorm newNorm) db

theorem sameRows_registerForMerge (cfg : Settings) (now : Instant) (db : Db)
    (oldAssetId newAssetId : Str) :
    SameRows db (registerDecisionAliasesForAssetMerge cfg now db oldAssetId newAssetId) := by
  unfold registerDecisionAliasesForAssetMerge
  dsimp only
  split_ifs
  · exact .refl db
  · generalize db.decisions.rows = ds
    induction ds generalizing db with
    | nil => exact .refl db
    | cons d ds ih =>
      rw [List.foldl_cons]
      refine SameRows.trans ?_ (ih _)
      unfold aliasMergedDecision
      split
      · exact .refl db
      · exact sameRows_registerSubjectAlias cfg now db _ _ _ _

/-! ### Asset aliases -/

/-- The alias row of a source asset, repointed or new. -/
def putAssetAlias (t : Table AssetAlias) (source canonical : Str) (createdBy : Option Str) :
    Table AssetAlias :=
  t.upsert ⟨source, canonical, createdBy⟩
    fun row => { row with
      canonicalAssetId := canonical
      createdBy := if Str.truthy createdBy then createdBy else row.createdBy }

/-- Make a source asset an alias of a canonical one. Blank or equal ids are a `ValueError`. -/
def upsertAssetAlias (cfg : Settings) (now : Instant) (db : Db)
    (sourceAssetId canonicalAssetId : Str) (createdBy : Option Str) : Option Db :=
  let source := Str.strip sourceAssetId
  let canonical := Str.strip canonicalAssetId
  if source = [] ∨ canonical = [] ∨ source = canonical then none
  else
    let changed := (db.assetAliases.get? source).map AssetAlias.canonicalAssetId ≠ some canonical
    let db' := { db with assetAliases := putAssetAlias db.assetAliases source canonical createdBy }
    some (if changed then registerDecisionAliasesForAssetMerge cfg now db' source canonical
      else db')

theorem sameRows_upsertAssetAlias {cfg : Settings} {now : Instant} {db db' : Db}
    {sourceAssetId canonicalAssetId : Str} {createdBy : Option Str}
    (h : upsertAssetAlias cfg now db sourceAssetId canonicalAssetId createdBy = some db') :
    SameRows db db' := by
  unfold upsertAssetAlias at h
  dsimp only at h
  split_ifs at h <;> cases h
  · refine SameRows.trans ?_ (sameRows_registerForMerge cfg now _ _ _)
    exact ⟨rfl, rfl, rfl⟩
  · exact ⟨rfl, rfl, rfl⟩

/-- An alias row of the old canonical id with the new one. -/
def AssetAlias.repoint (oldId newId : Str) (row : AssetAlias) : AssetAlias :=
  if row.canonicalAssetId = oldId ∧ row.sourceAssetId ≠ newId then
    { row with canonicalAssetId := newId }
  else row

omit [Unicode] in
theorem AssetAlias.keepsKeys_repoint (oldId newId : Str) :
    KeepsKeys (AssetAlias.repoint oldId newId) := by
  intro row
  unfold AssetAlias.repoint
  split_ifs <;> exact ⟨rfl, rfl⟩

/-- Repoint the aliases that target the old canonical id. -/
def repointAliases (t : Table AssetAlias) (oldCanonicalId newCanonicalId : Str) :
    Table AssetAlias :=
  let oldId := Str.strip oldCanonicalId
  let newId := Str.strip newCanonicalId
  if oldId = [] ∨ newId = [] ∨ oldId = newId then t
  else
    t.mapRows (AssetAlias.repoint oldId newId) (AssetAlias.keepsKeys_repoint oldId newId)

end Merge

end Vat
