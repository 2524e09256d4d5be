import Vat.Assets.AliasTable
import Vat.Correlation.Linking

/-!
# Grouping and unmerging of assets

A grouping aliases an asset to another, rewrites the findings of the source to the target, marks the
moved findings that have a peer as duplicates of it, records what it changed, and links the moved
findings. An unmerge takes back what was recorded, as far as it still stands, and removes the alias.

A query returns rows in the order of the table. The rows of the table `assets`, the observations and
the reverting instants of merge events are left out.

Source: `backend/app/api/assets.py`, lines 59–60, 111–127, 690–963 and 993–1088;
`backend/app/services/assets_service.py`, lines 44–129; `backend/app/services/asset_aliases.py`,
lines 106–125; `backend/app/models/asset_merge_event.py`; `backend/app/core/auth.py`, lines 240–262.

## Main definitions

* `findingValueMatchesMergeSource`, `MergeSource.selects`: the findings that a grouping moves.
* `mergePeers`, `mergeCanonical`: the finding that a moved finding is a duplicate of.
* `AssetsDb.groupAssetIntoTarget`, `AssetsDb.unmergeAssetAlias`.
-/

namespace Vat

open Relational

/-! ### Rows -/

/-- The columns that a merge event keeps values of. A column that is not in the JSON object is
`none`. -/
structure MergeValues where
  image : Option (Option Str)
  component : Option (Option Str)
  correlatedTo : Option (Option Str)
  status : Option Status
  deriving DecidableEq

/-- A row of the table `asset_merge_events`. -/
structure AssetMergeEvent where
  sourceAssetId : Str
  targetAssetId : Str
  findingId : Str
  prevValues : MergeValues
  nextValues : MergeValues
  createdBy : Option Str
  reverted : Bool
  deriving DecidableEq

/-- The tables that grouping and unmerging read and write. Merge events are in the order of their
ids. -/
structure AssetsDb where
  db : Db
  edges : Table CorrelationEdge
  scores : ScoreTables
  mergeEvents : List AssetMergeEvent

/-- The database without rows. -/
def AssetsDb.empty : AssetsDb where
  db := .empty
  edges := .empty
  scores := ⟨.empty, .empty⟩
  mergeEvents := []

/-- The findings. -/
abbrev AssetsDb.findings (w : AssetsDb) : Table Finding := w.db.findings

/-- The part that linking reads and writes. -/
def AssetsDb.correlation (w : AssetsDb) : CorrelationDb := ⟨w.db.findings, w.edges, w.scores⟩

/-- The database with the part that linking reads and writes replaced. -/
def AssetsDb.withCorrelation (w : AssetsDb) (c : CorrelationDb) : AssetsDb :=
  { w with db := { w.db with findings := c.findings }, edges := c.edges, scores := c.scores }

/-- `tenant_filter`: every row, or none for a caller without a tenant. -/
def tenantFilter (ctx : UserContext) : Bool := ctx.crossTenant || ctx.tenantId.isSome

variable [Unicode]

/-! ### Findings of an asset -/

/-- `_container_image_group_key`. -/
def containerImageGroupKey (cfg : Settings) (image : Str) : Str :=
  let img := Str.strip image
  if img = [] then img
  else if Str.startsWith (Unicode.lower img) (str "k8s/") then img
  else if inferAssetKind img [] = .container ∨ inferAssetKind img [] = .repo then
    applyContainerAssetPathAliases cfg.containerAssetPathAliases
      (normalizeContainerRef (some img)).canonicalAssetKey
  else img

/-- `container_merge_group_key`. -/
def containerMergeGroupKey (cfg : Settings) (sourceAssetId : Str) : Option Str :=
  let src := Str.strip sourceAssetId
  if src = [] ∨ inferAssetKind src [] ≠ .container then none
  else some (containerImageGroupKey cfg src)

/-- `merge_candidate_image_like_prefixes`, in no order. -/
def mergeCandidateImageLikePrefixes (cfg : Settings) (sourceAssetId : Str) : List Str :=
  let s := Str.strip sourceAssetId
  if s = [] then []
  else if inferAssetKind s [] ≠ .container then [s]
  else
    let key := (normalizeContainerRef (some s)).canonicalAssetKey
    let k := applyContainerAssetPathAliases cfg.containerAssetPathAliases key
    let short := if Str.startsWith (Unicode.lower k) (str "docker.io/") then [k.drop 10] else []
    (s :: k :: key :: short).filter fun x => x ≠ []

/-- `finding_value_matches_merge_source`. -/
def findingValueMatchesMergeSource (cfg : Settings) (fieldValue : Option Str) (sourceAssetId : Str)
    (sourceContainerKey : Option Str) : Bool :=
  let val := Str.strip (Str.orEmpty fieldValue)
  let src := Str.strip sourceAssetId
  if val = [] ∨ src = [] then false
  else if val = src then true
  else
    match sourceContainerKey with
    | none => false
    | some key => inferAssetKind val [] = .container ∧ containerImageGroupKey cfg val = key

omit [Unicode] in
/-- `_escape_sql_like_prefix`. -/
def escapeSqlLikePrefix (p : Str) : Str :=
  p.flatMap fun c => if c = '\\' ∨ c = '%' ∨ c = '_' then ['\\', c] else [c]

/-- `column ILIKE pattern`; a missing value matches no pattern. -/
def sqlILike (column : Option Str) (pattern : Str) : Bool :=
  match column with
  | none => false
  | some value => sqlLike (Unicode.lower pattern) (Unicode.lower value)

omit [Unicode] in
/-- A source and a target, cleaned and resolved, with the settings. -/
structure MergeSource where
  cfg : Settings
  source : Str
  target : Str

/-- The columns that are rewritten. -/
def MergeSource.matchesValue (m : MergeSource) (fieldValue : Option Str) : Bool :=
  findingValueMatchesMergeSource m.cfg fieldValue m.source (containerMergeGroupKey m.cfg m.source)

/-- The query for the findings of the source. -/
def MergeSource.queries (m : MergeSource) (f : Finding) : Bool :=
  f.image = some m.source ∨ f.component = some m.source ∨
    Str.truthy (containerMergeGroupKey m.cfg m.source) ∧
      (mergeCandidateImageLikePrefixes m.cfg m.source).any fun p =>
        let pattern := escapeSqlLikePrefix p ++ str "%"
        sqlILike f.image pattern || sqlILike f.component pattern

/-- A finding that the grouping moves: found by the query, with a column to rewrite. -/
def MergeSource.moves (m : MergeSource) (ctx : UserContext) (f : Finding) : Bool :=
  tenantFilter ctx && m.queries f && (m.matchesValue f.image || m.matchesValue f.component)

/-- `_append_finding_audit`. -/
def appendMergeAudit (now : Instant) (ctx : UserContext) (action note : Str) (f : Finding) : Finding :=
  { f with audit := f.audit ++
      [⟨some (floorSecond now), if ctx.email = [] then str "system" else ctx.email, action,
        some note⟩] }

/-- The columns of a moved finding rewritten. -/
def MergeSource.reassign (m : MergeSource) (now : Instant) (ctx : UserContext) (f : Finding) : Finding :=
  appendMergeAudit now ctx (str "Asset merge reassigned finding") (m.source ++ str " -> " ++ m.target)
    { f with
      image := if m.matchesValue f.image then some m.target else f.image
      component := if m.matchesValue f.component then some m.target else f.component }

/-! ### Peers -/

/-- `_normalized_tag_for_merge_compare`: an asset id in the place of a tag is none. -/
def MergeSource.compareTag (m : MergeSource) (f : Finding) : Str :=
  let raw := normText f.tag
  if raw = normText (some m.source) ∨ raw = normText (some m.target) then [] else raw

/-- What the consolidation compares. -/
def MergeSource.compareKey (m : MergeSource) (f : Finding) : FindingType × Str × Str × Str × Str :=
  (f.findingType, normText f.image, normText f.branch, m.compareTag f, normText f.componentBase)

/-- A finding on the target. -/
def MergeSource.isCandidate (m : MergeSource) (ctx : UserContext) (f : Finding) : Bool :=
  tenantFilter ctx ∧
    (f.image = some m.target ∨ f.tag = some m.target ∨ f.component = some m.target)

/-- The candidates that a moved finding is a duplicate of. -/
def mergePeers (m : MergeSource) (ctx : UserContext) (findings : Table Finding) (f : Finding) :
    List Finding :=
  findings.rows.filter fun r =>
    m.isCandidate ctx r ∧ r.id ≠ f.id ∧ m.compareKey r = m.compareKey f

omit [Unicode] in
/-- The order of peers: findings that were on the target first, then by age. -/
def PeerBefore (movedIds : List Str) (a b : Finding) : Prop :=
  (a.id ∉ movedIds ∧ b.id ∈ movedIds) ∨ ((a.id ∈ movedIds ↔ b.id ∈ movedIds) ∧ CreatedBefore a b)

omit [Unicode] in
instance (movedIds : List Str) : DecidableRel (PeerBefore movedIds) := fun a b =>
  inferInstanceAs (Decidable ((a.id ∉ movedIds ∧ b.id ∈ movedIds) ∨
    ((a.id ∈ movedIds ↔ b.id ∈ movedIds) ∧ CreatedBefore a b)))

/-- The finding that a moved finding is made a duplicate of. -/
def mergeCanonical (m : MergeSource) (ctx : UserContext) (movedIds : List Str)
    (findings : Table Finding) (f : Finding) : Option Finding :=
  ((mergePeers m ctx findings f).insertionSort (PeerBefore movedIds)).head?

/-- A moved finding that has a peer. -/
def consolidateFinding (now : Instant) (ctx : UserContext) (canonical f : Finding) : Finding :=
  appendMergeAudit now ctx (str "Asset merge consolidated duplicate")
    (str "Canonical finding: " ++ canonical.id)
    { f with correlatedTo := some canonical.id, status := .duplicate }

/-! ### The grouping -/

section Group

variable (m : MergeSource) (now : Instant) (ctx : UserContext) (findings : Table Finding)

/-- The findings that the grouping moves, as they were before it. -/
def movedFindings : List Finding := findings.rows.filter fun f => m.moves ctx f

/-- A moved finding rewritten, any other as it is. -/
def reassignRow (f : Finding) : Finding := if m.moves ctx f then m.reassign now ctx f else f

theorem keepsKeys_reassignRow : KeepsKeys (reassignRow m now ctx) := fun f => by
  unfold reassignRow
  split_ifs <;> exact ⟨rfl, rfl⟩

/-- The findings after the rewriting. -/
def reassignFindings : Table Finding :=
  findings.mapRows (reassignRow m now ctx) (keepsKeys_reassignRow m now ctx)

/-- A moved finding that has a peer consolidated, any other as it is. -/
def consolidateRow (movedIds : List Str) (f : Finding) : Finding :=
  if f.id ∈ movedIds then
    match mergeCanonical m ctx movedIds findings f with
    | none => f
    | some canonical => consolidateFinding now ctx canonical f
  else f

theorem keepsKeys_consolidateRow (movedIds : List Str) :
    KeepsKeys (consolidateRow m now ctx findings movedIds) := fun f => by
  unfold consolidateRow
  split_ifs
  · split <;> exact ⟨rfl, rfl⟩
  · exact ⟨rfl, rfl⟩

/-- The findings after the consolidation. The comparison reads no column that it writes. -/
def consolidateFindings (movedIds : List Str) : Table Finding :=
  findings.mapRows (consolidateRow m now ctx findings movedIds)
    (keepsKeys_consolidateRow m now ctx findings movedIds)

/-- The merge event of a moved finding, given the finding before the move and its canonical. -/
def mergeEvent (f : Finding) (canonical : Option Finding) : AssetMergeEvent :=
  let image := m.matchesValue f.image
  let component := m.matchesValue f.component
  let target := canonical.map Finding.id
  let repointed := target.isSome ∧ f.correlatedTo ≠ target
  let marked := target.isSome ∧ f.status ≠ .duplicate
  { sourceAssetId := Str.strip m.source
    targetAssetId := Str.strip m.target
    findingId := f.id
    prevValues :=
      { image := if image then some f.image else none
        component := if component then some f.component else none
        correlatedTo := if repointed then some f.correlatedTo else none
        status := if marked then some f.status else none }
    nextValues :=
      { image := if image then some (some m.target) else none
        component := if component then some (some m.target) else none
        correlatedTo := if repointed then some target else none
        status := if marked then some .duplicate else none }
    createdBy := some ctx.email
    reverted := false }

end Group

omit [Unicode] in
/-- A request to group an asset into a target. -/
structure GroupRequest where
  now : Instant
  ctx : UserContext
  assetId : Str
  targetAssetId : Str
  reassignExistingFindings : Bool

omit [Unicode] in
/-- The source and the target of a request. -/
def GroupRequest.mergeSource (req : GroupRequest) (cfg : Settings) (w : AssetsDb) : MergeSource :=
  ⟨cfg, Str.strip req.assetId, groupTarget w.db.assetAliases (Str.strip req.targetAssetId)⟩

/-- The moved findings rewritten, consolidated and recorded. -/
def AssetsDb.moveFindings (w : AssetsDb) (m : MergeSource) (now : Instant) (ctx : UserContext) :
    AssetsDb :=
  let moved := movedFindings m ctx w.findings
  let movedIds := moved.map Finding.id
  let reassigned := reassignFindings m now ctx w.findings
  let event := fun f : Finding =>
    mergeEvent m ctx f (mergeCanonical m ctx movedIds reassigned (m.reassign now ctx f))
  { w with
    db := { w.db with findings := consolidateFindings m now ctx reassigned movedIds }
    mergeEvents := w.mergeEvents ++ moved.map event }

/-- One run of linking for each moved finding. -/
def CorrelationDb.linkFindings (c : CorrelationDb) (findingIds : List Str) :
    Except Str CorrelationDb :=
  findingIds.foldlM CorrelationDb.linkFinding c

/-- `group_asset_into_target`; an error is a request that is refused or an exception. -/
def AssetsDb.groupAssetIntoTarget (cfg : Settings) (linking : Bool) (w : AssetsDb)
    (req : GroupRequest) : Except Str AssetsDb :=
  match groupAliases cfg req.now w.db req.assetId req.targetAssetId (some req.ctx.email) with
  | none => .error (str "refused")
  | some db =>
    let m := req.mergeSource cfg w
    let w' := { w with db := db }
    if req.reassignExistingFindings then do
      let moved := w'.moveFindings m req.now req.ctx
      let movedIds := (movedFindings m req.ctx w'.findings).map Finding.id
      if linking then return moved.withCorrelation (← moved.correlation.linkFindings movedIds)
      else return moved
    else return w'

/-! ### The unmerge -/

omit [Unicode] in
/-- A column restored, when it is in both objects and still has the later value. -/
def restoreColumn {α : Type} (same : α → α → Bool) (prev next : Option α) (current : α) :
    Option α :=
  match prev, next with
  | some p, some n => if same current n then some p else none
  | _, _ => none

omit [Unicode] in
/-- Texts compared without the blanks around them, a missing one as the empty text. -/
def sameText (a b : Option Str) : Bool := Str.strip (Str.orEmpty a) = Str.strip (Str.orEmpty b)

omit [Unicode] in
/-- A finding with the values of an event restored. -/
def AssetMergeEvent.restore (ev : AssetMergeEvent) (now : Instant) (ctx : UserContext) (f : Finding) :
    Finding :=
  let image := restoreColumn sameText ev.prevValues.image ev.nextValues.image f.image
  let component := restoreColumn sameText ev.prevValues.component ev.nextValues.component f.component
  let correlatedTo :=
    restoreColumn sameText ev.prevValues.correlatedTo ev.nextValues.correlatedTo f.correlatedTo
  let status := restoreColumn (fun a b : Status => a = b) ev.prevValues.status ev.nextValues.status
    f.status
  let restored := { f with
    image := image.getD f.image
    component := component.getD f.component
    correlatedTo := correlatedTo.getD f.correlatedTo
    status := status.getD f.status }
  if image.isSome ∨ component.isSome ∨ correlatedTo.isSome ∨ status.isSome then
    appendMergeAudit now ctx (str "Asset unmerge restored finding fields")
      (ev.targetAssetId ++ str " -> " ++ ev.sourceAssetId) restored
  else f

omit [Unicode] in
theorem AssetMergeEvent.keepsKeys_restore (ev : AssetMergeEvent) (now : Instant) (ctx : UserContext) :
    KeepsKeys (ev.restore now ctx) := fun f => by
  unfold AssetMergeEvent.restore
  dsimp only
  split_ifs <;> exact ⟨rfl, rfl⟩

omit [Unicode] in
/-- A finding that the caller must not touch: of another tenant than the caller's. -/
def hiddenFrom (ctx : UserContext) (f : Finding) : Bool :=
  ctx.tenantId.isSome && !rowTenantVisible f.tenantId ctx

omit [Unicode] in
/-- An event taken back: the finding restored, and whether the event counts as reverted. -/
def restoreEvent (now : Instant) (ctx : UserContext) (findings : Table Finding)
    (ev : AssetMergeEvent) : Table Finding × Bool :=
  match findings.get? ev.findingId with
  | none => (findings, true)
  | some f =>
    if hiddenFrom ctx f then (findings, false)
    else (findings.update ev.findingId (ev.restore now ctx) (ev.keepsKeys_restore now ctx), true)

omit [Unicode] in
/-- The events from a source to a target taken back one after another. -/
def restoreEvents (now : Instant) (ctx : UserContext) (source target : Str) (findings : Table Finding) :
    List AssetMergeEvent → Table Finding × List AssetMergeEvent
  | [] => (findings, [])
  | ev :: events =>
    if ev.sourceAssetId = source ∧ ev.targetAssetId = target ∧ ev.reverted = false then
      let (findings', reverted) := restoreEvent now ctx findings ev
      let (findings'', events') := restoreEvents now ctx source target findings' events
      (findings'', { ev with reverted := reverted } :: events')
    else
      let (findings', events') := restoreEvents now ctx source target findings events
      (findings', ev :: events')

omit [Unicode] in
/-- A request to take a source asset out of a canonical one. -/
structure UnmergeRequest where
  now : Instant
  ctx : UserContext
  assetId : Str
  sourceAssetId : Str

omit [Unicode] in
/-- `unmerge_asset_alias`; an error is a request that is refused. -/
def AssetsDb.unmergeAssetAlias (w : AssetsDb) (req : UnmergeRequest) : Except Str AssetsDb :=
  match unmergeAliases w.db req.assetId req.sourceAssetId with
  | none => .error (str "refused")
  | some db =>
    let (findings, events) := restoreEvents req.now req.ctx (Str.strip req.sourceAssetId)
      (Str.strip req.assetId) w.findings w.mergeEvents
    .ok { w with db := { db with findings := findings }, mergeEvents := events }

end Vat
