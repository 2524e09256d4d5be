import Vat.Correlation.Unlink

/-!
# Linking points to older findings

The root of a cluster is its oldest finding, so that every pointer which linking sets leads to an
older finding, whatever the order in which the findings of a cluster come in.

## Main definitions

* `Older`, `PointsToOlder`, `AgesKept`.

## Main results

* `CorrelationDb.older_of_linkScope`, `CorrelationDb.pointsToOlder_step`: what one call does.
* `CorrelationDb.pointsToOlder_linking_run`: every run without groupings.
-/

namespace Vat

open Relational Transition Pointers

/-! ### Ages -/

/-- Created before another finding, or at the same instant with a smaller id. -/
def Older (a b : Finding) : Prop :=
  a.createdAt < b.createdAt ∨ a.createdAt = b.createdAt ∧ a.id < b.id

instance : DecidableRel Older := fun a b =>
  inferInstanceAs (Decidable (a.createdAt < b.createdAt ∨ a.createdAt = b.createdAt ∧ a.id < b.id))

/-- Two findings in the order of a cluster, with different ids. -/
theorem CreatedBefore.older {a b : Finding} (h : CreatedBefore a b) (hne : a.id ≠ b.id) :
    Older a b := by
  rcases h with h | ⟨h, hid⟩
  · exact Or.inl h
  · exact Or.inr ⟨h, (Str.lt_or_lt_of_ne hne).resolve_right hid⟩

/-! ### Pointers to older findings -/

/-- Every pointer leads to an older finding. -/
def PointsToOlder (findings : Table Finding) : Prop :=
  ∀ a b, pointerOf findings a = some (some b) →
    ∃ f g, findings.get? a = some f ∧ findings.get? b = some g ∧ Older g f

/-- The findings of a table are kept, with their ids and the instants of their creation. -/
def AgesKept (findings findings' : Table Finding) : Prop :=
  ∀ id f, findings.get? id = some f →
    ∃ f', findings'.get? id = some f' ∧ f'.createdAt = f.createdAt ∧ f'.id = f.id

theorem PointsToOlder.of_agesKept {findings findings' : Table Finding}
    (hkept : AgesKept findings findings')
    (hptr : ∀ a b, pointerOf findings' a = some (some b) →
      ∃ f g, findings.get? a = some f ∧ findings.get? b = some g ∧ Older g f) :
    PointsToOlder findings' := by
  intro a b hab
  obtain ⟨f, g, hf, hg, holder⟩ := hptr a b hab
  obtain ⟨f', hf', hfcreated, hfid⟩ := hkept a f hf
  obtain ⟨g', hg', hgcreated, hgid⟩ := hkept b g hg
  refine ⟨f', g', hf', hg', ?_⟩
  rwa [Older, hfcreated, hgcreated, hfid, hgid]

theorem SameButPointers.agesKept {findings findings' : Table Finding}
    (h : SameButPointers findings findings') : AgesKept findings findings' := by
  intro id f hf
  have hget := h.get? id
  rw [hf, Option.map_some] at hget
  obtain ⟨f', hf', heq⟩ := Option.map_eq_some_iff.mp hget
  have hcreated : (f'.pointTo none).createdAt = (f.pointTo none).createdAt := by rw [heq]
  have hid : (f'.pointTo none).id = (f.pointTo none).id := by rw [heq]
  exact ⟨f', hf', hcreated, hid⟩

section Steps

variable [Unicode] {db db' : CorrelationDb}

omit [Unicode] in
/-- The root of a cluster is older than its other members. -/
theorem CorrelationDb.older_of_linkScope {finding row : Finding} {scope : LinkScope}
    (h : db.linkScope finding = .ok scope) (hrow : row ∈ scope.peers) :
    Older scope.canonical row := by
  have hsorted := List.pairwise_insertionSort CreatedBefore (db.findings.rows.filter fun r =>
    r.correlationKey = some (Str.orEmpty finding.correlationKey) ∧
      CoalescedTenantEquals r.tenantId finding.tenantId)
  change (db.selectCorrelationCluster _ _).Pairwise CreatedBefore at hsorted
  rw [cluster_of_linkScope h, List.pairwise_cons] at hsorted
  exact (hsorted.1 row hrow).older (ne_canonical_of_mem_peers h hrow).symm

theorem CorrelationDb.pointsToOlder_linkFinding {findingId : Str}
    (holder : PointsToOlder db.findings) (h : db.linkFinding findingId = .ok db') :
    PointsToOlder db'.findings := by
  unfold linkFinding at h
  cases hget : db.findings.get? findingId with
  | none =>
    rw [hget] at h
    cases h
    exact holder
  | some finding =>
    rw [hget] at h
    obtain ⟨⟨db'', decision⟩, happly, h⟩ := bind_eq_ok_iff.mp h
    cases h
    obtain ⟨hsame, -, hptr, -⟩ := applyCorrelationLinking_eq_ok happly
    refine PointsToOlder.of_agesKept hsame.agesKept fun a b hab => ?_
    rw [hptr] at hab
    rcases links_eq_or_mem (pointerOf db.findings)
      ((db.linkWrites finding).map fun w => (w.1, some w.2)) a with hkeep | ⟨target, hmem, hset⟩
    · exact holder a b (hkeep.symm.trans hab)
    · obtain ⟨⟨rowId, rootId⟩, hw, heq⟩ := List.mem_map.mp hmem
      cases heq
      cases hset.symm.trans hab
      obtain ⟨scope, row, hscope, hrow, -, -, rfl, rfl⟩ := mem_linkWrites.mp hw
      exact ⟨row, scope.canonical, get?_of_mem_scope hscope (List.mem_cons_of_mem _ hrow),
        get?_of_mem_scope hscope List.mem_cons_self, older_of_linkScope hscope hrow⟩

omit [Unicode] in
theorem agesKept_storeFinding {findings findings' : Table Finding} {finding : Finding}
    (h : storeFinding findings finding = some findings') : AgesKept findings findings' := by
  intro id f hf
  obtain ⟨hget, hinsert, rfl⟩ | hget := storeFinding_cases h
  · refine ⟨f, ?_, rfl, rfl⟩
    rw [Table.get?_insert, if_neg, hf]
    rintro rfl
    exact absurd (hget.symm.trans hf) (by simp)
  · rw [hget]
    split_ifs with hid
    · rw [← hid, hf]
      exact ⟨_, rfl, rfl, rfl⟩
    · exact ⟨f, hf, rfl, rfl⟩

theorem CorrelationDb.pointsToOlder_store {finding : Finding} {source : Str}
    (holder : PointsToOlder db.findings) (h : db.store finding source = .ok db') :
    PointsToOlder db'.findings := by
  have hptr := (store_eq_ok h).2
  unfold store at h
  cases hstore : storeFinding db.findings finding with
  | none =>
    rw [hstore] at h
    cases h
  | some findings =>
    rw [hstore] at h
    cases h
    exact PointsToOlder.of_agesKept (agesKept_storeFinding hstore) fun a b hab =>
      holder a b ((hptr a b).mp hab)

/-- Every call without a grouping leaves every pointer with an older finding. -/
theorem CorrelationDb.pointsToOlder_step (op : CorrelationOp) (holder : PointsToOlder db.findings) :
    PointsToOlder (db.step op).findings := by
  unfold step
  cases hperform : op.perform db with
  | error e => exact holder
  | ok db' =>
    cases op with
    | ingest finding source linking =>
      obtain ⟨db'', hstore, hlink⟩ := bind_eq_ok_iff.mp hperform
      have hstored := pointsToOlder_store holder hstore
      cases linking with
      | false =>
        cases hlink
        exact hstored
      | true => exact pointsToOlder_linkFinding hstored hlink
    | link findingId => exact pointsToOlder_linkFinding holder hperform
    | crosswalk source sourceVersion entries =>
      cases hperform
      exact holder
    | remove now ctx findingId peerFindingId reason =>
      rw [(removeFindingCorrelation_eq_ok hperform).1]
      exact holder
    | restore ctx findingId peerFindingId =>
      rw [(restoreFindingCorrelation_eq_ok hperform).1]
      exact holder

/-- Without groupings, every pointer leads to an older finding in every state. -/
theorem CorrelationDb.pointsToOlder_linking_run (ops : List CorrelationOp) :
    PointsToOlder (run CorrelationDb.step .empty ops).findings := by
  have hempty : PointsToOlder CorrelationDb.empty.findings := fun a b hab => by cases hab
  have hstep : ∀ (db : CorrelationDb) op, (fun db : CorrelationDb => PointsToOlder db.findings) db →
      (fun db : CorrelationDb => PointsToOlder db.findings) (db.step op) :=
    fun _ op h => pointsToOlder_step op h
  exact run_induction hstep hempty ops

end Steps

end Vat
