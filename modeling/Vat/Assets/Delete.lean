import Vat.Assets.Group
import Vat.Export.OpenscapStorage
import Vat.Ledger.Record
import Vat.Sbom.Packages
import Vat.Transition.Run

/-!
# Deletion of assets

A deletion selects the findings of an asset by a query and a second look at each row, and deletes
from one table after another what names a selected finding or the asset. The findings are selected
under the tenant filter; the other tables are read by the ids alone.

Of the tables that nothing else reads here the columns are those that a deletion reads, and those of
their unique constraints.

Source: `backend/app/api/assets.py`, lines 59–60, 146–331 and 622–701;
`backend/app/services/assets_service.py`, lines 44–135;
`backend/app/services/decision_ledger.py`, lines 556–569.

## Main definitions

* `AssetStore`: the tables that a deletion reads and writes.
* `selectedForDelete`: the findings that a deletion selects.
* `deletionStatements`, `deleteAssetOwnedData`: the statements of a deletion.
* `AssetSession.deleteAsset`, `AssetSession.bulkDelete`: the requests, with their transactions.

## Main results

* `deleteAssetOwnedData_fst`: what a deletion leaves.
* `deleteAssetOwnedData_eq_self`: a deletion that has removed no row.
-/

namespace Vat

open Relational

/-! ### Tables -/

/-- A row of the table `finding_observations`. -/
structure FindingObservation where
  findingId : Str
  scanSessionId : Str
  sourceName : Str
  deriving DecidableEq

instance : Row FindingObservation (Str × Str × Str) (Str × Str × Str) where
  pk r := (r.findingId, r.scanSessionId, r.sourceName)
  uk r := (r.findingId, r.scanSessionId, r.sourceName)

/-- A row of the table `asset_merge_reviews`. -/
structure AssetMergeReview where
  sourceAssetId : Str
  targetAssetId : Str
  deriving DecidableEq

/-- A row of the table `asset_observed_tags`. -/
structure AssetObservedTag where
  assetId : Str
  tag : Str
  deriving DecidableEq

/-- A row of the table `asset_digest_conflicts`. -/
structure AssetDigestConflict where
  assetId : Str
  tag : Str
  deriving DecidableEq

/-- The tables that a deletion reads and writes. -/
structure AssetStore extends AssetsDb where
  observations : Table FindingObservation
  mergeReviews : List AssetMergeReview
  assets : Table Asset
  observedTags : List AssetObservedTag
  digestConflicts : List AssetDigestConflict
  openscapResults : Table OpenscapScanResult
  sbomPackages : Table SbomPackage

/-- The store with nothing but the tables of grouping. -/
def AssetStore.ofAssetsDb (w : AssetsDb) : AssetStore where
  toAssetsDb := w
  observations := .empty
  mergeReviews := []
  assets := .empty
  observedTags := []
  digestConflicts := []
  openscapResults := .empty
  sbomPackages := .empty

/-! ### Selection -/

section Selection

variable [Unicode]

/-- `_asset_key_from_finding`. -/
def assetKeyFromFinding (cfg : Settings) (f : Finding) : Str :=
  let img := Str.strip (Str.orEmpty f.image)
  let comp := Str.strip (Str.orEmpty f.component)
  if img ≠ [] then containerImageGroupKey cfg img
  else if comp ≠ [] then comp
  else str "unknown-" ++ f.id

/-- A container or a repository. -/
def isContainerOrRepo (assetId : Str) : Bool :=
  inferAssetKind assetId [] = .container ∨ inferAssetKind assetId [] = .repo

/-- `_finding_belongs_to_asset_for_delete`. -/
def findingBelongsToAssetForDelete (cfg : Settings) (f : Finding) (assetId : Str) : Bool :=
  let sourceAssetId := Str.strip assetId
  if sourceAssetId = [] then false
  else if [f.image, f.component, f.componentBase, f.tag].any fun raw =>
      Str.strip (Str.orEmpty raw) = sourceAssetId then true
  else if !isContainerOrRepo sourceAssetId then false
  else
    [f.image, f.component].any fun raw =>
      let value := Str.strip (Str.orEmpty raw)
      value ≠ [] ∧ isContainerOrRepo value ∧
        containerImageGroupKey cfg value = containerImageGroupKey cfg sourceAssetId

/-- The query for the findings of an asset. -/
def deletionQuery (cfg : Settings) (assetId : Str) (f : Finding) : Bool :=
  let columnsLike (pattern : Str) := sqlILike f.image pattern || sqlILike f.component pattern
  f.image = some assetId ∨ f.component = some assetId ∨ f.componentBase = some assetId ∨
    f.tag = some assetId ∨
    (mergeCandidateImageLikePrefixes cfg assetId).any
      (fun p => columnsLike (escapeSqlLikePrefix p ++ str "%")) ∨
    isContainerOrRepo assetId ∧ columnsLike (str "%/" ++ escapeSqlLikePrefix assetId ++ str "%")

/-- A finding that a deletion of an asset selects. -/
def selectedForDelete (cfg : Settings) (ctx : UserContext) (assetId : Str) (f : Finding) : Bool :=
  let sourceContainerKey := containerMergeGroupKey cfg assetId
  tenantFilter ctx && deletionQuery cfg assetId f &&
    (findingBelongsToAssetForDelete cfg f assetId ||
      findingValueMatchesMergeSource cfg f.image assetId sourceContainerKey ||
      findingValueMatchesMergeSource cfg f.component assetId sourceContainerKey)

/-- The ids of the selected findings. -/
def selectedIds (cfg : Settings) (ctx : UserContext) (assetId : Str) (w : AssetStore) : List Str :=
  (w.findings.rows.filter fun f => selectedForDelete cfg ctx assetId f).map Finding.id

end Selection

/-! ### Statements -/

/-- A statement of a deletion, with the number of rows that it writes. -/
structure DeletionStatement where
  apply : AssetStore → AssetStore
  rowcount : AssetStore → ℕ

section Named

variable (cfg : Settings) (assetId : Str) (findingIds : List Str)

/-- The links in use that `soft_unlink_findings` marks. -/
def linkNamed (l : DecisionFindingLink) : Bool :=
  cfg.decisionLedgerEnabled ∧ l.findingId ∈ findingIds ∧ l.unlinkedAt = none

/-! The rows of each table that a deletion names. -/

def auditEventNamed (e : AuditEvent) : Bool :=
  e.assetId = some assetId ∨ e.findingId.any fun id => id ∈ findingIds

def edgeNamed (e : CorrelationEdge) : Bool :=
  e.findingIdA ∈ findingIds ∨ e.findingIdB ∈ findingIds

def identifierNamed (r : FindingIdentifier) : Bool := r.findingId ∈ findingIds

def observationNamed (r : FindingObservation) : Bool := r.findingId ∈ findingIds

def mergeEventNamed (ev : AssetMergeEvent) : Bool :=
  ev.sourceAssetId = assetId ∨ ev.targetAssetId = assetId ∨ ev.findingId ∈ findingIds

def findingNamed (f : Finding) : Bool := f.id ∈ findingIds

def mergeReviewNamed (r : AssetMergeReview) : Bool :=
  r.sourceAssetId = assetId ∨ r.targetAssetId = assetId

def aliasNamed (a : AssetAlias) : Bool := a.sourceAssetId = assetId ∨ a.canonicalAssetId = assetId

def observedTagNamed (r : AssetObservedTag) : Bool := r.assetId = assetId

def digestConflictNamed (r : AssetDigestConflict) : Bool := r.assetId = assetId

def openscapResultNamed (r : OpenscapScanResult) : Bool := r.assetId = assetId

def packageNamed (p : SbomPackage) : Bool := p.component = some assetId

def assetNamed (a : Asset) : Bool := a.id = assetId

end Named

/-- The statements of `_delete_asset_owned_data` in their order. Without a selected finding those
that go by finding ids delete nothing, as in the branch that leaves them out. -/
def deletionStatements (cfg : Settings) (now : Instant) (assetId : Str) (findingIds : List Str) :
    List DeletionStatement :=
  [⟨fun w => { w with db := softUnlinkFindings cfg now w.db findingIds },
      fun w => w.db.links.rows.countP (linkNamed cfg findingIds)⟩,
    ⟨fun w => { w with db := { w.db with
        auditEvents := w.db.auditEvents.filter (!auditEventNamed assetId findingIds ·) } },
      fun w => w.db.auditEvents.countP (auditEventNamed assetId findingIds)⟩,
    ⟨fun w => { w with edges := w.edges.filter (!edgeNamed findingIds ·) },
      fun w => w.edges.rows.countP (edgeNamed findingIds)⟩,
    ⟨fun w => { w with
        scores := { w.scores with facts := w.scores.facts.filter (!identifierNamed findingIds ·) } },
      fun w => w.scores.facts.rows.countP (identifierNamed findingIds)⟩,
    ⟨fun w => { w with observations := w.observations.filter (!observationNamed findingIds ·) },
      fun w => w.observations.rows.countP (observationNamed findingIds)⟩,
    ⟨fun w => { w with mergeEvents := w.mergeEvents.filter (!mergeEventNamed assetId findingIds ·) },
      fun w => w.mergeEvents.countP (mergeEventNamed assetId findingIds)⟩,
    ⟨fun w => { w with db := { w.db with
        findings := w.db.findings.filter (!findingNamed findingIds ·) } },
      fun w => w.db.findings.rows.countP (findingNamed findingIds)⟩,
    ⟨fun w => { w with mergeReviews := w.mergeReviews.filter (!mergeReviewNamed assetId ·) },
      fun w => w.mergeReviews.countP (mergeReviewNamed assetId)⟩,
    ⟨fun w => { w with db := { w.db with
        assetAliases := w.db.assetAliases.filter (!aliasNamed assetId ·) } },
      fun w => w.db.assetAliases.rows.countP (aliasNamed assetId)⟩,
    ⟨fun w => { w with observedTags := w.observedTags.filter (!observedTagNamed assetId ·) },
      fun w => w.observedTags.countP (observedTagNamed assetId)⟩,
    ⟨fun w => { w with digestConflicts := w.digestConflicts.filter (!digestConflictNamed assetId ·) },
      fun w => w.digestConflicts.countP (digestConflictNamed assetId)⟩,
    ⟨fun w => { w with openscapResults := w.openscapResults.filter (!openscapResultNamed assetId ·) },
      fun w => w.openscapResults.rows.countP (openscapResultNamed assetId)⟩,
    ⟨fun w => { w with sbomPackages := w.sbomPackages.filter (!packageNamed assetId ·) },
      fun w => w.sbomPackages.rows.countP (packageNamed assetId)⟩,
    ⟨fun w => { w with assets := w.assets.filter (!assetNamed assetId ·) },
      fun w => w.assets.rows.countP (assetNamed assetId)⟩]

/-- Statements one after another, with the rows that each writes. -/
def runStatements (w : AssetStore) : List DeletionStatement → AssetStore × List ℕ
  | [] => (w, [])
  | s :: statements =>
    let (w', counts) := runStatements (s.apply w) statements
    (w', s.rowcount w :: counts)

/-- `_asset_delete_removed_any`. -/
def assetDeleteRemovedAny (counts : List ℕ) : Bool := counts.any (0 < ·)

variable [Unicode]

/-- `_delete_asset_owned_data`. -/
def deleteAssetOwnedData (cfg : Settings) (now : Instant) (ctx : UserContext) (assetId : Str)
    (w : AssetStore) : AssetStore × List ℕ :=
  runStatements w (deletionStatements cfg now assetId (selectedIds cfg ctx assetId w))

/-! ### What a deletion leaves -/

section Spec

variable (cfg : Settings) (now : Instant) (ctx : UserContext) (assetId : Str) (w : AssetStore)

omit [Unicode] in
theorem findings_softUnlink (db : Db) (findingIds : List Str) :
    (softUnlinkFindings cfg now db findingIds).findings = db.findings :=
  (sameRows_softUnlink cfg now db findingIds).findings

omit [Unicode] in
theorem auditEvents_softUnlink (db : Db) (findingIds : List Str) :
    (softUnlinkFindings cfg now db findingIds).auditEvents = db.auditEvents := by
  rw [softUnlinkFindings]
  split_ifs <;> rfl

/-- The store after a deletion. -/
theorem deleteAssetOwnedData_fst :
    let ids := selectedIds cfg ctx assetId w
    (deleteAssetOwnedData cfg now ctx assetId w).1 =
      { w with
        db := { softUnlinkFindings cfg now w.db ids with
          findings := w.findings.filter (!findingNamed ids ·)
          auditEvents := w.db.auditEvents.filter (!auditEventNamed assetId ids ·)
          assetAliases := w.db.assetAliases.filter (!aliasNamed assetId ·) }
        edges := w.edges.filter (!edgeNamed ids ·)
        scores := { w.scores with facts := w.scores.facts.filter (!identifierNamed ids ·) }
        observations := w.observations.filter (!observationNamed ids ·)
        mergeEvents := w.mergeEvents.filter (!mergeEventNamed assetId ids ·)
        mergeReviews := w.mergeReviews.filter (!mergeReviewNamed assetId ·)
        assets := w.assets.filter (!assetNamed assetId ·)
        observedTags := w.observedTags.filter (!observedTagNamed assetId ·)
        digestConflicts := w.digestConflicts.filter (!digestConflictNamed assetId ·)
        openscapResults := w.openscapResults.filter (!openscapResultNamed assetId ·)
        sbomPackages := w.sbomPackages.filter (!packageNamed assetId ·) } := by
  intro ids
  have hfindings := findings_softUnlink cfg now w.db ids
  have haudit := auditEvents_softUnlink cfg now w.db ids
  have haliases : (softUnlinkFindings cfg now w.db ids).assetAliases = w.db.assetAliases := by
    rw [softUnlinkFindings]
    split_ifs <;> rfl
  simp only [deleteAssetOwnedData, deletionStatements, runStatements, AssetsDb.findings, hfindings,
    haudit, haliases, ids]

/-- A finding is among the selected ones exactly if it is selected itself. -/
theorem mem_selectedIds {cfg : Settings} {ctx : UserContext} {assetId : Str} {w : AssetStore}
    {f : Finding} (hf : f ∈ w.findings.rows) :
    f.id ∈ selectedIds cfg ctx assetId w ↔ selectedForDelete cfg ctx assetId f = true := by
  rw [selectedIds, List.mem_map]
  constructor
  · rintro ⟨g, hg, hid⟩
    obtain ⟨hg, hselected⟩ := List.mem_filter.mp hg
    rwa [← Table.eq_of_pk hg hf hid]
  · exact fun hselected => ⟨f, List.mem_filter.mpr ⟨hf, hselected⟩, rfl⟩

end Spec

/-! ### Deletions that remove nothing -/

/-- A statement that writes no row leaves the store as it is. -/
def DeletionStatement.Inert (s : DeletionStatement) : Prop :=
  ∀ w, s.rowcount w = 0 → s.apply w = w

omit [Unicode] in
theorem filter_not_of_countP {ρ : Type*} {p : ρ → Bool} {l : List ρ} (h : l.countP p = 0) :
    l.filter (!p ·) = l := by
  rw [List.countP_eq_zero] at h
  refine List.filter_eq_self.mpr fun r hr => ?_
  rw [Bool.not_eq_true', Bool.eq_false_iff]
  exact h r hr

omit [Unicode] in
theorem Table.filter_not_of_countP {ρ κ υ : Type*} [Row ρ κ υ] {p : ρ → Bool} {t : Table ρ}
    (h : t.rows.countP p = 0) : t.filter (!p ·) = t :=
  Table.ext (Vat.filter_not_of_countP h)

omit [Unicode] in
theorem runStatements_eq_self {statements : List DeletionStatement}
    (hinert : ∀ s ∈ statements, s.Inert) {w : AssetStore}
    (h : assetDeleteRemovedAny (runStatements w statements).2 = false) :
    (runStatements w statements).1 = w := by
  induction statements generalizing w with
  | nil => rfl
  | cons s statements ih =>
    obtain ⟨hs, hinert⟩ := List.forall_mem_cons.mp hinert
    rw [assetDeleteRemovedAny, runStatements, List.any_cons, Bool.or_eq_false_iff,
      decide_eq_false_iff_not, Nat.not_lt, Nat.le_zero] at h
    have hself := hs w h.1
    rw [runStatements]
    rw [hself] at h ⊢
    exact ih hinert h.2

omit [Unicode] in
theorem softUnlinkFindings_eq_self {cfg : Settings} {now : Instant} {db : Db} {findingIds : List Str}
    (h : db.links.rows.countP (linkNamed cfg findingIds) = 0) :
    softUnlinkFindings cfg now db findingIds = db := by
  rw [softUnlinkFindings]
  split_ifs with hnone
  · rfl
  rw [not_or, Bool.not_eq_true, Bool.not_eq_false'] at hnone
  rw [List.countP_eq_zero] at h
  have hlinks : (db.links.mapRows (fun l => if l.findingId ∈ findingIds ∧ l.unlinkedAt = none then
      { l with unlinkedAt := some now } else l)
      (fun l => by dsimp only; split_ifs <;> exact ⟨rfl, rfl⟩)) = db.links := by
    refine Table.ext ((List.map_congr_left fun l hl => if_neg fun hnamed => ?_).trans
      (List.map_id _))
    exact h l hl (decide_eq_true ⟨hnone.2, hnamed⟩)
  rw [hlinks]

omit [Unicode] in
theorem inert_deletionStatements (cfg : Settings) (now : Instant) (assetId : Str)
    (findingIds : List Str) : ∀ s ∈ deletionStatements cfg now assetId findingIds, s.Inert := by
  simp only [deletionStatements, List.forall_mem_cons]
  refine ⟨fun w h => ?_, fun w h => ?_, fun w h => ?_, fun w h => ?_, fun w h => ?_, fun w h => ?_,
    fun w h => ?_, fun w h => ?_, fun w h => ?_, fun w h => ?_, fun w h => ?_, fun w h => ?_,
    fun w h => ?_, fun w h => ?_, fun s hs => absurd hs List.not_mem_nil⟩
  · dsimp only
    rw [softUnlinkFindings_eq_self h]
  all_goals
    dsimp only at h ⊢
    first
    | rw [filter_not_of_countP h]
    | rw [Table.filter_not_of_countP h]

/-- A deletion that has removed no row leaves the store as it is. -/
theorem deleteAssetOwnedData_eq_self {cfg : Settings} {now : Instant} {ctx : UserContext}
    {assetId : Str} {w : AssetStore}
    (h : assetDeleteRemovedAny (deleteAssetOwnedData cfg now ctx assetId w).2 = false) :
    (deleteAssetOwnedData cfg now ctx assetId w).1 = w :=
  runStatements_eq_self (inert_deletionStatements cfg now assetId _) h

/-! ### Requests -/

omit [Unicode] in
/-- A session with a database: what is committed, and what the open transaction sees. -/
structure AssetSession where
  committed : AssetStore
  working : AssetStore

omit [Unicode] in
/-- A session without an open transaction. -/
def AssetSession.start (w : AssetStore) : AssetSession := ⟨w, w⟩

omit [Unicode] in
def AssetSession.commit (s : AssetSession) : AssetSession := ⟨s.working, s.working⟩

omit [Unicode] in
def AssetSession.rollback (s : AssetSession) : AssetSession := ⟨s.committed, s.committed⟩

section Requests

variable (cfg : Settings) (now : Instant) (ctx : UserContext)

/-- A deletion that the database stops with an exception after some of the statements, or after all
of them at the commit. -/
def AssetSession.stopDeletion (s : AssetSession) (assetId : Str) (n : ℕ) : AssetSession :=
  { s with working := (runStatements s.working
      ((deletionStatements cfg now assetId (selectedIds cfg ctx assetId s.working)).take n)).1 }

/-- `delete_asset`. A request that raises is rolled back when its session closes. -/
def AssetSession.deleteAsset (fault : Option ℕ) (s : AssetSession) (assetId : Str) : AssetSession :=
  match fault with
  | some n => (s.stopDeletion cfg now ctx assetId n).rollback
  | none =>
    let (w, counts) := deleteAssetOwnedData cfg now ctx assetId s.working
    let s' := { s with working := w }
    if assetDeleteRemovedAny counts then s'.commit else s'.rollback

omit [Unicode] in
/-- What a bulk request reports of an id. -/
inductive BulkDeleteStatus
  | deleted | notFound | error
  deriving DecidableEq

omit [Unicode] in
/-- The session of a bulk request, with the ids that it has seen and its results. -/
structure BulkDeletion where
  session : AssetSession
  seen : List Str
  results : List (Str × BulkDeleteStatus)

/-- One id of `bulk_delete_assets`. -/
def BulkDeletion.step (fault : Str → Option ℕ) (b : BulkDeletion) (raw : Str) : BulkDeletion :=
  let aid := Str.strip raw
  if aid = [] ∨ aid ∈ b.seen then b
  else
    match fault aid with
    | some n =>
      { session := (b.session.stopDeletion cfg now ctx aid n).rollback
        seen := aid :: b.seen
        results := b.results ++ [(aid, .error)] }
    | none =>
      let (w, counts) := deleteAssetOwnedData cfg now ctx aid b.session.working
      { session := { b.session with working := w }.commit
        seen := aid :: b.seen
        results := b.results ++
          [(aid, if assetDeleteRemovedAny counts then .deleted else .notFound)] }

/-- `bulk_delete_assets`. -/
def AssetSession.bulkDelete (fault : Str → Option ℕ) (s : AssetSession) (assetIds : List Str) :
    BulkDeletion :=
  Transition.run (BulkDeletion.step cfg now ctx fault) ⟨s, [], []⟩ assetIds

end Requests

end Vat
