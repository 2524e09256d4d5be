import Vat.Assets.Delete
import Vat.Correlation.Chains

/-!
# References to deleted findings

A deletion of an asset deletes the edges, identifiers and observations of the findings that it
selects and takes their decision links out of use, if the ledger is on. It does not write the
findings that stay: a pointer to a selected finding stays, and so does the status of a duplicate of
it. And it selects more than the list of assets shows under the id: also findings of another asset
with the id as their component, as the base of it or as their tag.

Source: `backend/app/api/assets.py`, lines 146–323; `backend/app/services/assets_service.py`, lines
44–135.

## Main definitions

* `DeletedBetween`: an id of a finding that is gone.
* `LeavesNoTrace`: nothing that stays names a finding that is gone, and only findings of the asset
  are gone.

## Main results

* `deletedBetween_iff`: the findings that a deletion deletes are those that it selects.
* `leavesNoTrace_iff`: when a deletion leaves no trace.
-/

namespace Vat

open Relational

/-- A finding with the id was there, and is gone. -/
def DeletedBetween (w w' : AssetStore) (id : Str) : Prop :=
  (∃ f ∈ w.findings.rows, f.id = id) ∧ ∀ f ∈ w'.findings.rows, f.id ≠ id

section Deletion

variable [Unicode]

/-- No finding that stays points at one that is gone, no edge, identifier, observation or decision
link in use names one, no finding stays a duplicate of one; and the list shows all that are gone
under the id of the asset. -/
structure LeavesNoTrace (cfg : Settings) (assetId : Str) (w w' : AssetStore) : Prop where
  pointers : ∀ f ∈ w'.findings.rows, ∀ id, DeletedBetween w w' id → f.correlatedTo ≠ some id
  edges : ∀ e ∈ w'.edges.rows, e.active = true → ∀ id, DeletedBetween w w' id →
    e.findingIdA ≠ id ∧ e.findingIdB ≠ id
  identifiers : ∀ r ∈ w'.scores.facts.rows, ∀ id, DeletedBetween w w' id → r.findingId ≠ id
  observations : ∀ r ∈ w'.observations.rows, ∀ id, DeletedBetween w w' id → r.findingId ≠ id
  links : ∀ l ∈ w'.db.links.rows, l.unlinkedAt = none → ∀ id, DeletedBetween w w' id →
    l.findingId ≠ id
  duplicates : ∀ f ∈ w'.findings.rows, f.status = .duplicate → ∀ id, DeletedBetween w w' id →
    f.correlatedTo ≠ some id
  own : ∀ f ∈ w.findings.rows, DeletedBetween w w' f.id → assetKeyFromFinding cfg f = assetId

variable {cfg : Settings} {now : Instant} {ctx : UserContext} {assetId : Str} {w : AssetStore}

/-- The findings that stay are those that are not selected. -/
theorem mem_findings_deleteAssetOwnedData {f : Finding} :
    f ∈ (deleteAssetOwnedData cfg now ctx assetId w).1.findings.rows ↔
      f ∈ w.findings.rows ∧ selectedForDelete cfg ctx assetId f = false := by
  rw [deleteAssetOwnedData_fst, AssetsDb.findings]
  dsimp only
  rw [Table.rows_filter, List.mem_filter, Bool.not_eq_true']
  refine and_congr_right fun hf => ?_
  rw [← Bool.not_eq_true, ← Bool.not_eq_true, ← mem_selectedIds hf, findingNamed,
    decide_eq_true_eq]

theorem deletedBetween_iff {id : Str} :
    DeletedBetween w (deleteAssetOwnedData cfg now ctx assetId w).1 id ↔
      id ∈ selectedIds cfg ctx assetId w := by
  constructor
  · rintro ⟨⟨f, hf, rfl⟩, hgone⟩
    refine (mem_selectedIds hf).mpr ?_
    by_contra hstays
    exact hgone f (mem_findings_deleteAssetOwnedData.mpr ⟨hf, Bool.not_eq_true _ ▸ hstays⟩) rfl
  · intro hid
    obtain ⟨f, hf, rfl⟩ := List.mem_map.mp hid
    obtain ⟨hf, hselected⟩ := List.mem_filter.mp hf
    refine ⟨⟨f, hf, rfl⟩, fun g hg hgid => ?_⟩
    obtain ⟨hg, hstays⟩ := mem_findings_deleteAssetOwnedData.mp hg
    rw [Table.eq_of_pk hg hf hgid, hselected] at hstays
    cases hstays

omit [Unicode] in
/-- The links that `soft_unlink_findings` leaves in use. -/
theorem mem_links_softUnlink {db : Db} {findingIds : List Str} {l : DecisionFindingLink}
    (hunlinked : l.unlinkedAt = none) :
    l ∈ (softUnlinkFindings cfg now db findingIds).links.rows ↔
      l ∈ db.links.rows ∧ (cfg.decisionLedgerEnabled = true → l.findingId ∉ findingIds) := by
  rw [softUnlinkFindings]
  split_ifs with hnone
  · refine (and_iff_left fun henabled => ?_).symm
    rcases hnone with hnone | hnone
    · rw [hnone]
      exact List.not_mem_nil
    · rw [henabled] at hnone
      cases hnone
  rw [not_or, Bool.not_eq_true, Bool.not_eq_false'] at hnone
  constructor
  · intro hl
    obtain ⟨l', hl', rfl⟩ := List.mem_map.mp hl
    split_ifs at hunlinked ⊢ with hnamed
    exact ⟨hl', fun _ hid => hnamed ⟨hid, hunlinked⟩⟩
  · rintro ⟨hl, hid⟩
    exact List.mem_map.mpr ⟨l, hl, if_neg fun hnamed => hid hnone.2 hnamed.1⟩

/-- A deletion leaves no trace exactly when the list shows every finding that it selects under the
id of the asset, it selects every finding that points at a selected one, and it takes the links of
the selected ones out of use. -/
theorem leavesNoTrace_iff (cfg : Settings) (now : Instant) (ctx : UserContext) (assetId : Str)
    (w : AssetStore) :
    LeavesNoTrace cfg assetId w (deleteAssetOwnedData cfg now ctx assetId w).1 ↔
      ∀ f ∈ w.findings.rows, selectedForDelete cfg ctx assetId f = true →
        assetKeyFromFinding cfg f = assetId ∧
          (∀ g ∈ w.findings.rows, g.correlatedTo = some f.id →
            selectedForDelete cfg ctx assetId g = true) ∧
          (cfg.decisionLedgerEnabled = false →
            ∀ l ∈ w.db.links.rows, l.findingId = f.id → l.unlinkedAt ≠ none) := by
  constructor
  · intro h f hf hselected
    have hdeleted : DeletedBetween w (deleteAssetOwnedData cfg now ctx assetId w).1 f.id :=
      deletedBetween_iff.mpr ((mem_selectedIds hf).mpr hselected)
    refine ⟨h.own f hf hdeleted, fun g hg hpointer => ?_, fun hdisabled l hl hid hunlinked => ?_⟩
    · by_contra hstays
      exact h.pointers g (mem_findings_deleteAssetOwnedData.mpr ⟨hg, Bool.not_eq_true _ ▸ hstays⟩)
        f.id hdeleted hpointer
    · refine h.links l ?_ hunlinked f.id hdeleted hid
      rw [deleteAssetOwnedData_fst]
      refine (mem_links_softUnlink hunlinked).mpr ⟨hl, fun henabled => ?_⟩
      rw [hdisabled] at henabled
      cases henabled
  · intro h
    have hpointers : ∀ f ∈ (deleteAssetOwnedData cfg now ctx assetId w).1.findings.rows, ∀ id,
        DeletedBetween w (deleteAssetOwnedData cfg now ctx assetId w).1 id →
          f.correlatedTo ≠ some id := by
      intro f hf id hid hpointer
      obtain ⟨hf, hstays⟩ := mem_findings_deleteAssetOwnedData.mp hf
      obtain ⟨g, hg, rfl⟩ := List.mem_map.mp (deletedBetween_iff.mp hid)
      obtain ⟨hg, hselected⟩ := List.mem_filter.mp hg
      rw [(h g hg hselected).2.1 f hf hpointer] at hstays
      cases hstays
    refine ⟨hpointers, fun e he _ id hid => ?_, fun r hr id hid hname => ?_,
      fun r hr id hid hname => ?_, fun l hl hunlinked id hid hname => ?_,
      fun f hf _ => hpointers f hf, fun f hf hid => ?_⟩
    all_goals rw [deletedBetween_iff] at hid
    · rw [deleteAssetOwnedData_fst] at he
      have hnamed := (List.mem_filter.mp he).2
      rw [Bool.not_eq_true', edgeNamed, decide_eq_false_iff_not, not_or] at hnamed
      exact ⟨fun hname => hnamed.1 (hname ▸ hid), fun hname => hnamed.2 (hname ▸ hid)⟩
    · rw [deleteAssetOwnedData_fst] at hr
      have hnamed := (List.mem_filter.mp hr).2
      rw [Bool.not_eq_true', identifierNamed, decide_eq_false_iff_not, hname] at hnamed
      exact hnamed hid
    · rw [deleteAssetOwnedData_fst] at hr
      have hnamed := (List.mem_filter.mp hr).2
      rw [Bool.not_eq_true', observationNamed, decide_eq_false_iff_not, hname] at hnamed
      exact hnamed hid
    · rw [deleteAssetOwnedData_fst] at hl
      obtain ⟨hl, hkept⟩ := (mem_links_softUnlink hunlinked).mp hl
      by_cases henabled : cfg.decisionLedgerEnabled = true
      · exact hkept henabled (hname ▸ hid)
      · obtain ⟨g, hg, rfl⟩ := List.mem_map.mp hid
        obtain ⟨hg, hselected⟩ := List.mem_filter.mp hg
        exact (h g hg hselected).2.2 (Bool.not_eq_true _ ▸ henabled) l hl hname hunlinked
    · exact (h f hf ((mem_selectedIds hf).mp hid)).1

end Deletion

section Component

attribute [local instance] asciiUnicode

/-- Two findings of an image, of different packages, that ingest links. -/
def packageFindings : List AssetsOp :=
  [.correlation (.ingest { relinkFinding (str "f-1") 1 with component := some (str "openssl") }
      (str "Trivy") true),
    .correlation (.ingest { relinkFinding (str "f-2") 2 with component := some (str "libssl3") }
      (str "Grype") true)]

/-- The deletion of the package `openssl` deletes a finding that the list shows under its image, and
the other finding still points at it. -/
theorem not_leavesNoTrace_packageFindings :
    ¬ ∀ (cfg : Settings) (now : Instant) (ctx : UserContext) (assetId : Str) (ops : List AssetsOp),
        let w := AssetStore.ofAssetsDb (Transition.run (AssetsDb.step cfg) .empty ops)
        LeavesNoTrace cfg assetId w (deleteAssetOwnedData cfg now ctx assetId w).1 := by
  intro h
  have htrace := h movedSettings 3 movedAdmin (str "openssl") packageFindings
  have hgone : DeletedBetween
      (AssetStore.ofAssetsDb (Transition.run (AssetsDb.step movedSettings) .empty packageFindings))
      (deleteAssetOwnedData movedSettings 3 movedAdmin (str "openssl")
        (AssetStore.ofAssetsDb
          (Transition.run (AssetsDb.step movedSettings) .empty packageFindings))).1
      (str "f-1") := by
    refine deletedBetween_iff.mpr ?_
    decide +kernel
  refine htrace.pointers _ (List.mem_of_getElem? (i := 0) rfl) (str "f-1") hgone ?_
  rfl

end Component

end Vat
