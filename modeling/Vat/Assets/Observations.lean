import Mathlib.Algebra.Ring.Int.Defs
import Mathlib.Data.List.Dedup
import Mathlib.Data.List.MinMax
import Mathlib.Data.List.Sort
import Vat.Model.Finding
import Vat.Relational.Rehome

/-!
# Observations that move with an asset

The tags that were observed of a container asset, and the digest conflicts of its tags, when the
asset is merged into another. A row goes to the other asset, or is merged into the row that the
other asset has for its tag.

For each tag one row is left, on the other asset: its count is the sum, its times are the first and
the last, and its digest is that of the latest row that has one.

Source: `backend/app/services/container_asset_observations.py`, lines 24–25 and 355–467;
`backend/app/models/asset_observed_tag.py`; `backend/app/models/asset_digest_conflict.py`;
`backend/alembic/versions/034_asset_observed_tags_and_digest_conflicts.py`.

## Main definitions

* `AssetObservedTag`, `AssetDigestConflict`: rows with one for each asset and tag.
* `mergeObservation`, `mergeConflict`.
* `migrateObservationsForAssetMerge`.
* `MergedFrom`, `Conserves`.

## Main results

* `mergedFrom_mergeObservation`: two rows of one tag.
* `migrate_conserves`.
-/

namespace Vat.Observations

open Relational

/-! ### Rows -/

/-- `_clean`. -/
def clean (value : Option Str) : Str := Str.strip (Str.orEmpty value)

/-- A row of the table `asset_observed_tags`. -/
structure AssetObservedTag where
  id : ℕ
  assetId : Str
  tag : Str
  observationCount : ℤ
  lastScanSessionId : Option Str
  lastDigest : Option Str
  firstSeenAt : Option Instant
  lastSeenAt : Option Instant
  deriving DecidableEq

/-- A row of the table `asset_digest_conflicts`. -/
structure AssetDigestConflict where
  id : ℕ
  assetId : Str
  tag : Str
  status : Str
  digests : List Str
  acknowledgedBy : Option Str
  acknowledgedAt : Option Instant
  firstSeenAt : Option Instant
  lastSeenAt : Option Instant
  deriving DecidableEq

/-- `uq_asset_observed_tag_asset_tag`. -/
instance : Row AssetObservedTag ℕ (Str × Str) where
  pk := AssetObservedTag.id
  uk r := (r.assetId, r.tag)

/-- `uq_asset_digest_conflict_asset_tag`. -/
instance : Row AssetDigestConflict ℕ (Str × Str) where
  pk := AssetDigestConflict.id
  uk r := (r.assetId, r.tag)

/-! ### Two rows of one tag -/

/-- The earlier of two times that are known. -/
def earliest (e r : Option Instant) : Option Instant :=
  match r, e with
  | some r, some e => some (min e r)
  | some r, none => some r
  | none, e => e

/-- The later of two times that are known. -/
def latest (e r : Option Instant) : Option Instant :=
  match r, e with
  | some r, some e => some (max e r)
  | some r, none => some r
  | none, e => e

/-- A row was seen at least as late as the one that is there. -/
def seenSince (e r : Option Instant) : Bool :=
  match r, e with
  | some r, some e => e ≤ r
  | some _, none => true
  | none, _ => false

/-- The row that is there and the row of the merged asset, with one tag. -/
def mergeObservation (existing row : AssetObservedTag) : AssetObservedTag :=
  let since := seenSince existing.lastSeenAt row.lastSeenAt
  let takesDigest := clean row.lastDigest ≠ [] ∧ (since ∨ clean existing.lastDigest = [])
  let takesSession := Str.truthy row.lastScanSessionId ∧
    (¬ Str.truthy existing.lastScanSessionId ∨ existing.lastSeenAt.isSome ∧ since)
  { existing with
    observationCount := existing.observationCount + row.observationCount
    firstSeenAt := earliest existing.firstSeenAt row.firstSeenAt
    lastSeenAt := latest existing.lastSeenAt row.lastSeenAt
    lastDigest := if takesDigest then row.lastDigest else existing.lastDigest
    lastScanSessionId :=
      if takesSession then row.lastScanSessionId else existing.lastScanSessionId }

/-- `sorted(a | b)`, of the digests that are not blank. -/
def unionDigests (a b : List Str) : List Str :=
  (((a ++ b).map Str.strip).filter fun d => d ≠ []).dedup.insertionSort fun x y => ¬ y < x

/-- The conflict that is there and the conflict of the merged asset, of one tag. -/
def mergeConflict (existing row : AssetDigestConflict) : AssetDigestConflict :=
  let merged := unionDigests existing.digests row.digests
  let open' := 2 ≤ merged.length
  { existing with
    digests := merged
    firstSeenAt := earliest existing.firstSeenAt row.firstSeenAt
    lastSeenAt := latest existing.lastSeenAt row.lastSeenAt
    status := if open' then str "open" else existing.status
    acknowledgedAt := if open' then none else existing.acknowledgedAt
    acknowledgedBy := if open' then none else existing.acknowledgedBy }

/-- Observed tags belong to assets. -/
def ownedTags : Owned AssetObservedTag where
  setOwner assetId r := { r with assetId := assetId }
  merge := mergeObservation
  pk_setOwner _ _ := rfl
  uk_setOwner _ _ := rfl
  merge_keeps _ _ := ⟨rfl, rfl⟩

/-- Digest conflicts belong to assets. -/
def ownedConflicts : Owned AssetDigestConflict where
  setOwner assetId r := { r with assetId := assetId }
  merge := mergeConflict
  pk_setOwner _ _ := rfl
  uk_setOwner _ _ := rfl
  merge_keeps _ _ := ⟨rfl, rfl⟩

/-! ### The migration -/

/-- The tables of the observations. -/
structure ObservationDb where
  observedTags : Table AssetObservedTag
  digestConflicts : Table AssetDigestConflict

/-- How many rows are moved and merged. -/
structure MigrationCounts where
  observedTagsMoved : ℕ
  observedTagsMerged : ℕ
  digestConflictsMoved : ℕ
  digestConflictsMerged : ℕ
  deriving DecidableEq

/-- `migrate_observations_for_asset_merge`; nothing if a constraint fails. -/
def migrateObservationsForAssetMerge (sourceAssetId canonicalTarget : Option Str)
    (db : ObservationDb) : Option (ObservationDb × MigrationCounts) :=
  let src := clean sourceAssetId
  let tgt := clean canonicalTarget
  if src = [] ∨ tgt = [] ∨ src = tgt then some (db, ⟨0, 0, 0, 0⟩)
  else do
    let (tags, tagsMoved, tagsMerged) ← ownedTags.rehome src tgt db.observedTags
    let (conflicts, conflictsMoved, conflictsMerged) ←
      ownedConflicts.rehome src tgt db.digestConflicts
    return (⟨tags, conflicts⟩, ⟨tagsMoved, tagsMerged, conflictsMoved, conflictsMerged⟩)

/-! ### What is left of some rows of one tag -/

/-- A time that is known is not later than another. -/
def NoLaterThan (a b : Option Instant) : Prop := ∀ x ∈ a, ∃ y ∈ b, x ≤ y

/-- One row for some rows: the sum of their counts, the first and the last of their times, and the
digest of the latest that has one. -/
structure MergedFrom (rows : List AssetObservedTag) (r' : AssetObservedTag) : Prop where
  count : r'.observationCount = (rows.map AssetObservedTag.observationCount).sum
  first : r'.firstSeenAt = (rows.filterMap AssetObservedTag.firstSeenAt).min?
  last : r'.lastSeenAt = (rows.filterMap AssetObservedTag.lastSeenAt).max?
  digest : (∀ r ∈ rows, clean r.lastDigest = []) ∧ clean r'.lastDigest = [] ∨
    ∃ r ∈ rows, clean r.lastDigest ≠ [] ∧ r'.lastDigest = r.lastDigest ∧
      ∀ s ∈ rows, clean s.lastDigest ≠ [] → NoLaterThan s.lastSeenAt r.lastSeenAt

theorem seenSince_eq_true_iff {e r : Option Instant} :
    seenSince e r = true ↔ r.isSome ∧ NoLaterThan e r := by
  cases r with
  | none => exact iff_of_false Bool.false_ne_true fun h => by cases h.1
  | some y =>
    cases e with
    | none => exact iff_of_true rfl ⟨rfl, fun x hx => by cases hx⟩
    | some x => simp [seenSince, NoLaterThan]

theorem noLaterThan_of_seenSince_eq_false {e r : Option Instant} (h : seenSince e r = false) :
    NoLaterThan r e := by
  cases r with
  | none => exact fun x hx => by cases hx
  | some y =>
    cases e with
    | none => cases h
    | some x =>
      intro z hz
      cases hz
      exact ⟨x, rfl, (not_le.mp (of_decide_eq_false h)).le⟩

theorem noLaterThan_refl (a : Option Instant) : NoLaterThan a a := fun x hx => ⟨x, hx, le_rfl⟩

/-- The digest that is left of two rows. -/
theorem digest_mergeObservation (existing row : AssetObservedTag) :
    (clean existing.lastDigest = [] ∧ clean row.lastDigest = []) ∧
      clean (mergeObservation existing row).lastDigest = [] ∨
    ∃ r ∈ [existing, row], clean r.lastDigest ≠ [] ∧
      (mergeObservation existing row).lastDigest = r.lastDigest ∧
      ∀ s ∈ [existing, row], clean s.lastDigest ≠ [] → NoLaterThan s.lastSeenAt r.lastSeenAt := by
  have hdigest : (mergeObservation existing row).lastDigest =
      if clean row.lastDigest ≠ [] ∧ (seenSince existing.lastSeenAt row.lastSeenAt = true ∨
        clean existing.lastDigest = []) then row.lastDigest else existing.lastDigest := rfl
  rw [hdigest]
  by_cases hrow : clean row.lastDigest = []
  · rw [if_neg fun h => h.1 hrow]
    by_cases hexisting : clean existing.lastDigest = []
    · exact .inl ⟨⟨hexisting, hrow⟩, hexisting⟩
    · refine .inr ⟨existing, List.mem_cons_self, hexisting, rfl, fun s hs hne => ?_⟩
      rcases List.mem_pair.mp hs with rfl | rfl
      · exact noLaterThan_refl _
      · exact absurd hrow hne
  · by_cases hexisting : clean existing.lastDigest = []
    · rw [if_pos ⟨hrow, .inr hexisting⟩]
      refine .inr ⟨row, List.mem_pair.mpr (.inr rfl), hrow, rfl, fun s hs hne => ?_⟩
      rcases List.mem_pair.mp hs with rfl | rfl
      · exact absurd hexisting hne
      · exact noLaterThan_refl _
    · cases hsince : seenSince existing.lastSeenAt row.lastSeenAt with
      | true =>
        rw [if_pos ⟨hrow, .inl rfl⟩]
        refine .inr ⟨row, List.mem_pair.mpr (.inr rfl), hrow, rfl, fun s hs _ => ?_⟩
        rcases List.mem_pair.mp hs with rfl | rfl
        · exact (seenSince_eq_true_iff.mp hsince).2
        · exact noLaterThan_refl _
      | false =>
        rw [if_neg fun h => h.2.elim Bool.false_ne_true hexisting]
        refine .inr ⟨existing, List.mem_cons_self, hexisting, rfl, fun s hs _ => ?_⟩
        rcases List.mem_pair.mp hs with rfl | rfl
        · exact noLaterThan_refl _
        · exact noLaterThan_of_seenSince_eq_false hsince

theorem mergedFrom_mergeObservation (existing row : AssetObservedTag) :
    MergedFrom [existing, row] (mergeObservation existing row) where
  count := by simp [mergeObservation]
  first := by
    change earliest existing.firstSeenAt row.firstSeenAt = _
    rw [List.filterMap_cons, List.filterMap_cons]
    cases existing.firstSeenAt <;> cases row.firstSeenAt <;> rfl
  last := by
    change latest existing.lastSeenAt row.lastSeenAt = _
    rw [List.filterMap_cons, List.filterMap_cons]
    cases existing.lastSeenAt <;> cases row.lastSeenAt <;> rfl
  digest := by
    refine (digest_mergeObservation existing row).imp_left fun h => ⟨fun r hr => ?_, h.2⟩
    rcases List.mem_pair.mp hr with rfl | rfl
    · exact h.1.1
    · exact h.1.2

/-- A row that changes its asset alone. -/
theorem mergedFrom_singleton (row : AssetObservedTag) (assetId : Str) :
    MergedFrom [row] { row with assetId := assetId } where
  count := by simp
  first := by
    rw [List.filterMap_cons]
    cases row.firstSeenAt <;> rfl
  last := by
    rw [List.filterMap_cons]
    cases row.lastSeenAt <;> rfl
  digest := by
    by_cases hrow : clean row.lastDigest = []
    · refine .inl ⟨fun r hr => ?_, hrow⟩
      rw [List.mem_singleton.mp hr]
      exact hrow
    · refine .inr ⟨row, List.mem_singleton_self row, hrow, rfl, fun s hs _ => ?_⟩
      rw [List.mem_singleton.mp hs]
      exact noLaterThan_refl _

/-! ### What the migration owes to the rows -/

/-- The rows of an asset with a tag. -/
def observations (t : Table AssetObservedTag) (assetId tag : Str) : List AssetObservedTag :=
  t.rows.filter fun r => r.assetId = assetId ∧ r.tag = tag

/-- The rows of one asset have gone to another: for each tag that either has, one row is left of
theirs. -/
structure Conserves (src tgt : Str) (t t' : Table AssetObservedTag) : Prop where
  source : ∀ r ∈ t'.rows, r.assetId ≠ src
  others : ∀ r, r.assetId ≠ src → r.assetId ≠ tgt → (r ∈ t'.rows ↔ r ∈ t.rows)
  tags : ∀ tag, observations t' tgt tag = [] ↔
    observations t tgt tag ++ observations t src tag = []
  merged : ∀ tag, ∀ r' ∈ observations t' tgt tag, observations t' tgt tag = [r'] ∧
    MergedFrom (observations t tgt tag ++ observations t src tag) r'

/-- There is at most one row of an asset with a tag. -/
theorem observations_eq_toList (t : Table AssetObservedTag) (assetId tag : Str) :
    observations t assetId tag = (t.getBy? (assetId, tag)).toList := by
  have hnodup : (observations t assetId tag).Nodup := t.pk_nodup.of_map.filter _
  have hmem : ∀ r, r ∈ observations t assetId tag ↔ t.getBy? (assetId, tag) = some r := by
    intro r
    rw [observations, List.mem_filter, decide_eq_true_eq, Table.getBy?_eq_some_iff]
    exact and_congr_right fun _ => Prod.mk_inj.symm
  cases hget : t.getBy? (assetId, tag) with
  | none =>
    refine List.eq_nil_iff_forall_not_mem.mpr fun r hr => ?_
    rw [hmem, hget] at hr
    cases hr
  | some row =>
    refine List.perm_singleton.mp ((List.perm_ext_iff_of_nodup hnodup (List.nodup_singleton row)).mpr
      fun r => ?_)
    rw [hmem, hget, Option.some_inj, List.mem_singleton, eq_comm]

/-- What is left of the rows with one tag. -/
theorem mergedFrom_combine {tgt : Str} {e r : Option AssetObservedTag} {r' : AssetObservedTag}
    (he : ∀ x ∈ e, x.assetId = tgt) (h : ownedTags.combine tgt e r = some r') :
    MergedFrom (e.toList ++ r.toList) r' := by
  cases e with
  | none =>
    cases r with
    | none => cases h
    | some row =>
      cases h
      exact mergedFrom_singleton row tgt
  | some existing =>
    cases r with
    | none =>
      obtain rfl : existing = r' := Option.some_inj.mp h
      have hself := mergedFrom_singleton existing tgt
      rwa [← he existing rfl] at hself
    | some row =>
      cases h
      exact mergedFrom_mergeObservation existing row

/-- What the rows are where the unique keys read as after the migration. -/
theorem conserves_of_reads {src tgt : Str} {t t' : Table AssetObservedTag} (hne : src ≠ tgt)
    (h : ∀ u, t'.getBy? u =
      if u.1 = src then none
      else if u.1 = tgt then ownedTags.combine tgt (t.getBy? u) (t.getBy? (src, u.2))
      else t.getBy? u) : Conserves src tgt t t' where
  source := by
    rintro r hr hsrc
    have hget := Table.getBy?_uk_of_mem hr
    rw [h, if_pos (show (Row.uk r).1 = src from hsrc)] at hget
    cases hget
  others := by
    intro r hsrc htgt
    have hread := h (Row.uk r)
    rw [if_neg (show (Row.uk r).1 ≠ src from hsrc), if_neg (show (Row.uk r).1 ≠ tgt from htgt)]
      at hread
    have hmem : ∀ t : Table AssetObservedTag, r ∈ t.rows ↔ t.getBy? (Row.uk r) = some r := fun t =>
      (Table.getBy?_eq_some_iff.trans (and_iff_left rfl)).symm
    rw [hmem, hmem, hread]
  tags := by
    intro tag
    rw [observations_eq_toList, observations_eq_toList, observations_eq_toList, h,
      if_neg hne.symm, if_pos rfl]
    cases t.getBy? (tgt, tag) <;> cases t.getBy? (src, tag) <;> simp [Owned.combine]
  merged := by
    intro tag r' hr'
    rw [observations_eq_toList] at hr' ⊢
    rw [Option.mem_toList] at hr'
    refine ⟨by rw [hr', Option.toList_some], ?_⟩
    rw [h, if_neg hne.symm, if_pos rfl] at hr'
    rw [observations_eq_toList, observations_eq_toList]
    refine mergedFrom_combine (fun x hx => ?_) hr'
    exact congrArg Prod.fst (Table.uk_of_getBy? hx)

/-- The migration of two different assets moves every row of the one to the other, and conserves
them; a second call does nothing. -/
theorem migrate_conserves {sourceAssetId canonicalTarget : Option Str} (db : ObservationDb)
    (hsrc : clean sourceAssetId ≠ []) (htgt : clean canonicalTarget ≠ [])
    (hne : clean sourceAssetId ≠ clean canonicalTarget) :
    ∃ db' counts,
      migrateObservationsForAssetMerge sourceAssetId canonicalTarget db = some (db', counts) ∧
      Conserves (clean sourceAssetId) (clean canonicalTarget) db.observedTags db'.observedTags ∧
      migrateObservationsForAssetMerge sourceAssetId canonicalTarget db' =
        some (db', ⟨0, 0, 0, 0⟩) := by
  have hguard : ¬ (clean sourceAssetId = [] ∨ clean canonicalTarget = [] ∨
      clean sourceAssetId = clean canonicalTarget) := by
    rw [not_or, not_or]
    exact ⟨hsrc, htgt, hne⟩
  obtain ⟨tags, nTags, htags, hread⟩ := ownedTags.exists_rehome hne db.observedTags
  obtain ⟨conflicts, nConflicts, hconflicts, -⟩ := ownedConflicts.exists_rehome hne
    db.digestConflicts
  refine ⟨⟨tags, conflicts⟩, ⟨nTags.1, nTags.2, nConflicts.1, nConflicts.2⟩, ?_,
    conserves_of_reads hne hread, ?_⟩
  · simp only [migrateObservationsForAssetMerge, if_neg hguard, htags, hconflicts]
    rfl
  · simp only [migrateObservationsForAssetMerge, if_neg hguard, ownedTags.rehome_rehome hne htags,
      ownedConflicts.rehome_rehome hne hconflicts]
    rfl

/-- An observation of the tag `1.0`. -/
def observed (id : ℕ) (assetId : String) (digest : Option Str) (seen : Instant) : AssetObservedTag where
  id := id
  assetId := str assetId
  tag := str "1.0"
  observationCount := 2
  lastScanSessionId := none
  lastDigest := digest
  firstSeenAt := some seen
  lastSeenAt := some seen

/-- One tag that was observed of two assets, later of the first. -/
def twoAssets : ObservationDb where
  observedTags := ⟨[observed 1 "docker.io/acme/api" none 20,
    observed 2 "containers/images/api" (some (str "sha256:ab")) 10], by decide, by decide⟩
  digestConflicts := .empty

/-- The first asset is merged into the second. -/
theorem migrate_conserves_twoAssets : ∃ db' counts,
    migrateObservationsForAssetMerge (some (str "docker.io/acme/api"))
      (some (str "containers/images/api")) twoAssets = some (db', counts) ∧
    Conserves (str "docker.io/acme/api") (str "containers/images/api") twoAssets.observedTags
      db'.observedTags ∧
    migrateObservationsForAssetMerge (some (str "docker.io/acme/api"))
      (some (str "containers/images/api")) db' = some (db', ⟨0, 0, 0, 0⟩) :=
  @migrate_conserves (some (str "docker.io/acme/api")) (some (str "containers/images/api")) twoAssets
    (by decide) (by decide) (by decide)

end Vat.Observations
