import Vat.Ledger.SubjectAliases

/-!
# The writers of the alias table

Grouping, unmerge, deletion, the automatic merge of assets with one digest, and the aliases that
ingest creates for tagged references; and the two readers, the resolver and the map of the feed
materializer.

The automatic merge reads its clusters of asset ids from the digests of findings and observed tags,
and the kind of an asset from its row: both are arguments here.

Source: `backend/app/api/assets.py`, lines 295–300, 704–744 and 993–1064;
`backend/app/services/asset_merge_suggestions.py`, lines 548–646; `backend/app/api/ingest.py`, lines
485–512; `backend/app/services/vuln_feeds.py`, lines 1799–1807 and 1885–1888.

## Main definitions

* `groupAliases`, `unmergeAliases`, `deleteAssetAliases`, `autoMergeAssetsByDigest`, `autoTagAlias`.
* `AliasOp`, `aliasStep`: one call of a writer.
* `feedCanonicalAsset`: the single-hop reader.
-/

namespace Vat

open Relational

section Writers

variable [Unicode]

/-- Alias a source asset and repoint its own aliases. -/
def mergeAsset (cfg : Settings) (now : Instant) (db : Db) (sourceAssetId canonicalAssetId : Str)
    (createdBy : Option Str) : Option Db := do
  let db ← upsertAssetAlias cfg now db sourceAssetId canonicalAssetId createdBy
  pure { db with
    assetAliases := repointAliases db.assetAliases sourceAssetId canonicalAssetId }

/-! ### Grouping -/

omit [Unicode] in
/-- The target of a grouping, resolved. -/
def groupTarget (t : Table AssetAlias) (requestedTarget : Str) : Str :=
  let canonicalTarget := resolveCanonicalAssetId t requestedTarget
  if canonicalTarget = [] then requestedTarget else canonicalTarget

/-- The aliases that `group_asset_into_target` writes; `none` when the request is refused. -/
def groupAliases (cfg : Settings) (now : Instant) (db : Db) (assetId targetAssetId : Str)
    (createdBy : Option Str) : Option Db :=
  let sourceAssetId := Str.strip assetId
  let requestedTarget := Str.strip targetAssetId
  if sourceAssetId = [] ∨ requestedTarget = [] then none
  else
    let canonicalTarget := groupTarget db.assetAliases requestedTarget
    if sourceAssetId = canonicalTarget then none
    else mergeAsset cfg now db sourceAssetId canonicalTarget createdBy

omit [Unicode] in
/-- The alias that `unmerge_asset_alias` removes; `none` when the request is refused. -/
def unmergeAliases (db : Db) (assetId sourceAssetId : Str) : Option Db :=
  let canonicalId := Str.strip assetId
  let sourceId := Str.strip sourceAssetId
  if canonicalId = [] ∨ sourceId = [] ∨ sourceId = canonicalId then none
  else
    match db.assetAliases.get? sourceId with
    | none => none
    | some row =>
      if row.canonicalAssetId ≠ canonicalId then none
      else some { db with
        assetAliases := db.assetAliases.filter fun r => r.sourceAssetId ≠ sourceId }

omit [Unicode] in
/-- The aliases that go with a deleted asset. -/
def deleteAssetAliases (db : Db) (assetId : Str) : Db :=
  { db with
    assetAliases := db.assetAliases.filter fun r =>
      r.sourceAssetId ≠ assetId ∧ r.canonicalAssetId ≠ assetId }

/-! ### Automatic merges -/

omit [Unicode] in
/-- The first text of a sorted list. -/
def leastText : List Str → Option Str
  | [] => none
  | s :: rest =>
    match leastText rest with
    | none => some s
    | some t => some (if t < s then t else s)

/-- `_canonical_pick`. -/
def canonicalPick (assetIds : List Str) : Str :=
  let cleaned := assetIds.filter fun a => a ≠ []
  let aikidoShaped :=
    cleaned.filter fun a => Str.startsWith (Unicode.lower a) (str "containers/images/")
  ((leastText aikidoShaped).or (leastText cleaned)).getD []

omit [Unicode] in
/-- The asset ids with one digest, and the kind of each asset. -/
structure DigestCluster where
  assetIds : List Str
  kind : Str → Str

/-- Merge the assets of one kind into the picked one. -/
def mergeKind (cfg : Settings) (now : Instant) (createdBy : Option Str) (db : Db)
    (kindIds : List Str) : Option Db :=
  let canonical := canonicalPick kindIds
  if kindIds.length ≤ 1 ∨ canonical = [] then some db
  else
    kindIds.foldlM
      (fun db sourceId =>
        if sourceId = canonical then some db
        else mergeAsset cfg now db sourceId canonical createdBy)
      db

omit [Unicode] in
/-- The canonical ids of a cluster. -/
def DigestCluster.canonicals (t : Table AssetAlias) (cluster : DigestCluster) : List Str :=
  (cluster.assetIds.map fun aid =>
    let canonical := resolveCanonicalAssetId t aid
    if canonical = [] then aid else canonical).dedup

/-- Merge the canonical ids of a cluster, kind by kind. -/
def mergeCluster (cfg : Settings) (now : Instant) (createdBy : Option Str) (db : Db)
    (cluster : DigestCluster) : Option Db :=
  let canonicals := cluster.canonicals db.assetAliases
  if canonicals.length ≤ 1 then some db
  else
    (canonicals.map cluster.kind).dedup.foldlM
      (fun db kind =>
        mergeKind cfg now createdBy db (canonicals.filter fun aid => cluster.kind aid = kind))
      db

/-- `auto_merge_assets_by_digest`. -/
def autoMergeAssetsByDigest (cfg : Settings) (now : Instant) (createdBy : Option Str) (db : Db)
    (clusters : List DigestCluster) : Option Db :=
  clusters.foldlM (mergeCluster cfg now createdBy) db

/-! ### Aliases of tagged references -/

/-- The event of an automatic alias. -/
def autoTagAliasEvent (actorId : Option Str) (rawAssetId assetId : Str) : AuditEvent where
  eventType := str "asset.alias.auto_created"
  actorType := str "api_client"
  actorId := actorId
  assetId := some assetId
  findingId := none
  decisionName := str "asset_alias_auto"
  decisionReasonCode := str "tag_only_variant"
  decisionConfidence := some .high
  decisionResult := str "created"
  data := [(str "source_asset_id", rawAssetId), (str "canonical_asset_id", assetId)]

/-- The alias that ingest creates for a reference that carries only a tag beyond its asset id. -/
def autoTagAlias (cfg : Settings) (now : Instant) (db : Db) (rawAssetId assetId : Str)
    (actorId : Option Str) : Option Db :=
  let raw := Str.strip rawAssetId
  if raw ≠ [] ∧ raw ≠ assetId ∧ isSafeTagOnlyAliasVariant raw assetId then do
    let db ← upsertAssetAlias cfg now db raw assetId (some (str "system:auto-tag-alias"))
    pure (db.emitAuditEvent (autoTagAliasEvent actorId raw assetId))
  else some db

/-! ### Calls -/

omit [Unicode] in
/-- A call of a writer of the alias table. -/
inductive AliasOp
  | group (assetId targetAssetId : Str) (createdBy : Option Str)
  | unmerge (assetId sourceAssetId : Str)
  | delete (assetId : Str)
  | autoMerge (clusters : List DigestCluster) (createdBy : Option Str)
  | autoTag (rawAssetId assetId : Str) (actorId : Option Str)

/-- A call; `none` when it is refused or fails. -/
def AliasOp.perform (cfg : Settings) (now : Instant) (db : Db) : AliasOp → Option Db
  | .group assetId targetAssetId createdBy =>
    groupAliases cfg now db assetId targetAssetId createdBy
  | .unmerge assetId sourceAssetId => unmergeAliases db assetId sourceAssetId
  | .delete assetId => some (deleteAssetAliases db assetId)
  | .autoMerge clusters createdBy => autoMergeAssetsByDigest cfg now createdBy db clusters
  | .autoTag rawAssetId assetId actorId => autoTagAlias cfg now db rawAssetId assetId actorId

/-- A refused call changes nothing. -/
def aliasStep (cfg : Settings) (now : Instant) (db : Db) (op : AliasOp) : Db :=
  (op.perform cfg now db).getD db

end Writers

/-! ### The map of the feed materializer -/

/-- `source_to_canonical`, in the order of the rows. -/
def feedAliasMap (t : Table AssetAlias) : List (Str × Str) :=
  t.rows.filterMap fun row =>
    if Str.strip row.sourceAssetId ≠ [] ∧ Str.strip row.canonicalAssetId ≠ [] then
      some (Str.strip row.sourceAssetId, Str.strip row.canonicalAssetId)
    else none

/-- `source_to_canonical.get(asset_id, asset_id)`: a later row replaces an earlier one. -/
def feedCanonicalAsset (t : Table AssetAlias) (assetId : Str) : Str :=
  ((feedAliasMap t).reverse.lookup assetId).getD assetId

end Vat
