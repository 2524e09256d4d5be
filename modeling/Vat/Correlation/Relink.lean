import Vat.Correlation.Linking
import Vat.Relational.Batch

/-!
# Linking again

What a run of linking writes is known before the first write: it depends on the identities of the
findings of a cluster, and not on their pointers, statuses or audit trails. A second run, whatever
has happened to those, finds every pointer and every edge as it would write them.

Source: `backend/app/services/correlation_linking.py`, lines 22–169.

## Main definitions

* `Finding.linkView`: a finding without what no run of linking reads.
* `CorrelationDb.plannedLinks`, `CorrelationDb.applyLinks`: the writes of a run.

## Main results

* `CorrelationDb.linkFinding_eq`: a run makes its planned writes.
* `CorrelationDb.linkFinding_settled`: a second run leaves everything as it is.
-/

namespace Vat

open Relational Transition

/-! ### What linking reads -/

/-- A finding without its pointer, its triage, its audit trail, its sources and its links. -/
def Finding.linkView (f : Finding) : Finding :=
  { f with
    status := .open
    justification := none
    compensatingControls := none
    reviewerNote := none
    attestation := none
    suppressionScope := none
    regressionOf := []
    regressionCount := 0
    audit := []
    sources := []
    externalLinks := []
    aikidoSourceId := none
    closedAt := none
    correlatedTo := none }

theorem Finding.keepsKeys_linkView : KeepsKeys Finding.linkView := fun _ => ⟨rfl, rfl⟩

@[simp] theorem Finding.linkView_id (f : Finding) : f.linkView.id = f.id := rfl

@[simp] theorem Finding.linkView_correlationKey (f : Finding) :
    f.linkView.correlationKey = f.correlationKey := rfl

@[simp] theorem Finding.linkView_tenantId (f : Finding) : f.linkView.tenantId = f.tenantId := rfl

/-- What a run of linking reads: no edge, and a part of the findings. -/
def CorrelationDb.linkView (db : CorrelationDb) : CorrelationDb where
  findings := db.findings.mapRows Finding.linkView Finding.keepsKeys_linkView
  edges := .empty
  scores := db.scores

/-- The members of a scope with what linking reads of them. -/
def LinkScope.linkView (scope : LinkScope) : LinkScope :=
  ⟨scope.key, scope.canonical.linkView, scope.peers.map Finding.linkView⟩

theorem CorrelationDb.selectCorrelationCluster_linkView (db : CorrelationDb) (key : Str)
    (tenantId : Option Str) :
    db.linkView.selectCorrelationCluster key tenantId =
      (db.selectCorrelationCluster key tenantId).map Finding.linkView := by
  rw [selectCorrelationCluster, selectCorrelationCluster, linkView, Table.rows_mapRows,
    List.filter_map]
  exact (List.map_insertionSort CreatedBefore CreatedBefore Finding.linkView _
    fun _ _ _ _ => Iff.rfl).symm

theorem CorrelationDb.linkScope_linkView (db : CorrelationDb) (finding : Finding) :
    db.linkView.linkScope finding.linkView = (db.linkScope finding).map LinkScope.linkView := by
  have hids : ∀ cluster : List Finding,
      (cluster.map Finding.linkView).map Finding.id = cluster.map Finding.id := by
    intro cluster
    rw [List.map_map]
    rfl
  simp only [linkScope, Finding.linkView_id, Finding.linkView_correlationKey,
    Finding.linkView_tenantId, selectCorrelationCluster_linkView, hids]
  generalize db.selectCorrelationCluster (Str.orEmpty finding.correlationKey) finding.tenantId =
    cluster
  split_ifs with hkey hmem
  · rfl
  · match cluster with
    | [] => rfl
    | [_] => rfl
    | _ :: _ :: _ => rfl
  · rfl

/-! ### The planned writes -/

/-- A pointer and an edge that a run of linking writes. -/
structure PlannedLink where
  rowId : Str
  rootId : Str
  pair : Str × Str
  confidence : Confidence
  evidence : EdgeEvidence
  deriving DecidableEq

/-- The edge of a planned link. -/
def PlannedLink.edge (p : PlannedLink) : CorrelationEdge :=
  .new p.pair (str "same_correlation_key") p.confidence p.evidence (some (str "system"))

/-- The writes of a run of linking, one after another. -/
def CorrelationDb.applyLinks (db : CorrelationDb) (planned : List PlannedLink) : CorrelationDb :=
  { db with
    findings := Table.updateEach PlannedLink.rowId (fun p => Finding.pointTo (some p.rootId))
      (fun p => Finding.keepsKeys_pointTo (some p.rootId)) db.findings planned
    edges := Table.upsertEach PlannedLink.edge
      (fun p => CorrelationEdge.link (str "same_correlation_key") p.confidence p.evidence)
      (fun p => CorrelationEdge.keepsKeys_link _ p.confidence p.evidence) db.edges planned }

section Plan

variable [Unicode]

/-- The link of a member, whose pair with the root is given. -/
def LinkScope.plan (scores : ScoreTables) (scope : LinkScope) (row : Finding × (Str × Str)) :
    PlannedLink :=
  let decision := scoreFindingPair scores scope.canonical row.1
  ⟨row.1.id, scope.canonical.id, row.2, decision.tier,
    ⟨scope.key, decision.score, decision.reasons⟩⟩

/-- The links that a run writes for a finding. -/
def CorrelationDb.plannedLinks (db : CorrelationDb) (finding : Finding) :
    Except Str (List PlannedLink) :=
  match db.linkScope finding with
  | .error _ => .ok []
  | .ok scope => (db.linkedPeers scope).mapM fun row => do
      return scope.plan db.scores (← scope.pairOf row)

/-- The links of a scope are written as they are planned. -/
theorem CorrelationDb.foldlM_linkRow (scope : LinkScope) (rows : List Finding)
    (db : CorrelationDb) :
    (rows.foldlM (fun db' row => do return db'.linkRow scope (← scope.pairOf row)) db) =
      (rows.mapM fun row => do return scope.plan db.scores (← scope.pairOf row)).map
        db.applyLinks := by
  induction rows generalizing db with
  | nil => rfl
  | cons row rows ih =>
    rw [List.foldlM_cons, List.mapM_cons]
    cases scope.pairOf row with
    | error e => rfl
    | ok b =>
      change List.foldlM _ (db.linkRow scope b) rows = _
      rw [ih]
      change Except.map _ (rows.mapM fun row => do
        return scope.plan db.scores (← scope.pairOf row)) = _
      cases rows.mapM fun row => (do return scope.plan db.scores (← scope.pairOf row) :
        Except Str PlannedLink) with
      | error e => rfl
      | ok planned => rfl

/-- A run of linking makes its planned writes. -/
theorem CorrelationDb.linkFinding_eq {db : CorrelationDb} {findingId : Str} {finding : Finding}
    (h : db.findings.get? findingId = some finding) :
    db.linkFinding findingId = (db.plannedLinks finding).map db.applyLinks := by
  rw [linkFinding, h]
  dsimp only
  unfold applyCorrelationLinking plannedLinks
  cases db.linkScope finding with
  | error reason => rfl
  | ok scope =>
    dsimp only
    rw [foldlM_linkRow]
    cases (db.linkedPeers scope).mapM fun row => (do
        return scope.plan db.scores (← scope.pairOf row) : Except Str PlannedLink) with
    | error e => rfl
    | ok planned => rfl

omit [Unicode] in
theorem LinkScope.pairOf_linkView (scope : LinkScope) (row : Finding) :
    scope.linkView.pairOf row.linkView =
      (scope.pairOf row).map fun b => (b.1.linkView, b.2) := by
  unfold pairOf
  change (do return (row.linkView, ← normalizePair scope.canonical.id row.id)) = _
  cases normalizePair scope.canonical.id row.id with
  | error e => rfl
  | ok pair => rfl

/-- The planned writes depend on what linking reads. -/
theorem CorrelationDb.plannedLinks_linkView (db : CorrelationDb) (finding : Finding) :
    db.linkView.plannedLinks finding.linkView = db.plannedLinks finding := by
  unfold plannedLinks
  rw [linkScope_linkView]
  cases db.linkScope finding with
  | error reason => rfl
  | ok scope =>
    have hpeers : db.linkView.linkedPeers scope.linkView =
        (db.linkedPeers scope).map Finding.linkView := by
      rw [linkedPeers, linkedPeers, LinkScope.linkView, List.filter_map]
      rfl
    change (db.linkView.linkedPeers scope.linkView).mapM _ = _
    rw [hpeers, List.mapM_map]
    congr 1
    funext row
    rw [Function.comp_apply, LinkScope.pairOf_linkView]
    cases scope.pairOf row with
    | error e => rfl
    | ok b => rfl

end Plan

/-! ### A second run -/

/-- The pointer that the planned writes leave a finding with. -/
def pointerAfter (planned : List PlannedLink) (f : Finding) : Option Str :=
  (Table.batchRow PlannedLink.rowId (fun p => Finding.pointTo (some p.rootId)) planned f).correlatedTo

theorem batchRow_pointTo (planned : List PlannedLink) (f : Finding) :
    Table.batchRow PlannedLink.rowId (fun p => Finding.pointTo (some p.rootId)) planned f =
      f.pointTo (pointerAfter planned f) := by
  induction planned using List.reverseRecOn with
  | nil => rfl
  | append_singleton planned p ih =>
    unfold pointerAfter
    rw [Table.batchRow_concat, ih]
    split_ifs <;> rfl

theorem keepsKeys_pointerAfter (planned : List PlannedLink) :
    KeepsKeys fun f : Finding => f.pointTo (pointerAfter planned f) := fun _ => ⟨rfl, rfl⟩

/-- The findings after the planned writes. -/
theorem CorrelationDb.findings_applyLinks (db : CorrelationDb) (planned : List PlannedLink) :
    (db.applyLinks planned).findings =
      db.findings.mapRows (fun f => f.pointTo (pointerAfter planned f))
        (keepsKeys_pointerAfter planned) := by
  refine Table.ext ?_
  change (Table.updateEach _ _ _ db.findings planned).rows = _
  rw [Table.rows_updateEach, Table.rows_mapRows]
  exact List.map_congr_left fun f _ => batchRow_pointTo planned f

/-- The planned writes to a finding depend on its id and its pointer. -/
theorem pointerAfter_congr {planned : List PlannedLink} {f g : Finding} (hid : f.id = g.id)
    (hpointer : f.correlatedTo = g.correlatedTo) :
    pointerAfter planned f = pointerAfter planned g := by
  induction planned using List.reverseRecOn with
  | nil => exact hpointer
  | append_singleton planned p ih =>
    unfold pointerAfter
    rw [Table.batchRow_concat, Table.batchRow_concat, batchRow_pointTo, batchRow_pointTo]
    change (if f.id = p.rowId then _ else _ : Finding).correlatedTo =
      (if g.id = p.rowId then _ else _ : Finding).correlatedTo
    rw [hid]
    split_ifs
    · rfl
    · exact ih

theorem pointerAfter_batchRow (planned : List PlannedLink) (f : Finding) :
    pointerAfter planned (f.pointTo (pointerAfter planned f)) = pointerAfter planned f := by
  have hpk : ∀ (p : PlannedLink) (r : Finding),
      Row.pk (Finding.pointTo (some p.rootId) r) = Row.pk r := fun _ _ => rfl
  have hreplace : ∀ (p q : PlannedLink) (r : Finding),
      Finding.pointTo (some p.rootId) (Finding.pointTo (some q.rootId) r) =
        Finding.pointTo (some p.rootId) r := fun _ _ _ => rfl
  rw [← batchRow_pointTo, pointerAfter, pointerAfter, Table.batchRow_batchRow hpk hreplace]

theorem CorrelationDb.linkView_applyLinks (db : CorrelationDb) (planned : List PlannedLink) :
    (db.applyLinks planned).linkView = db.linkView := by
  have hrows : (db.applyLinks planned).findings.mapRows Finding.linkView
      Finding.keepsKeys_linkView =
      db.findings.mapRows Finding.linkView Finding.keepsKeys_linkView := by
    refine Table.ext ?_
    rw [Table.rows_mapRows, Table.rows_mapRows]
    change ((Table.updateEach _ _ _ db.findings planned).rows.map Finding.linkView) = _
    rw [Table.rows_updateEach, List.map_map]
    refine List.map_congr_left fun r _ => ?_
    rw [Function.comp_apply, batchRow_pointTo]
    rfl
  rw [linkView, hrows]
  rfl

theorem CorrelationDb.get?_linkView (db : CorrelationDb) (id : Str) :
    db.linkView.findings.get? id = (db.findings.get? id).map Finding.linkView :=
  Table.get?_mapRows db.findings Finding.linkView Finding.keepsKeys_linkView id

/-- Planned writes whose pointers and edges are those of the tables leave the tables as they are. -/
theorem CorrelationDb.applyLinks_eq_self {db db' : CorrelationDb} {planned : List PlannedLink}
    (hpointer : pointerOf db'.findings = pointerOf (db.applyLinks planned).findings)
    (hedges : db'.edges = (db.applyLinks planned).edges) : db'.applyLinks planned = db' := by
  have hfindings : Table.updateEach PlannedLink.rowId (fun p => Finding.pointTo (some p.rootId))
      (fun p => Finding.keepsKeys_pointTo (some p.rootId)) db'.findings planned = db'.findings := by
    refine Table.updateEach_eq_self fun r hr => ?_
    have hr₁ : pointerOf (db.applyLinks planned).findings r.id = some r.correlatedTo := by
      rw [← hpointer]
      exact congrArg (Option.map Finding.correlatedTo) (Table.get?_pk_of_mem hr)
    obtain ⟨r₁, hget, hptr₁⟩ := Option.map_eq_some_iff.mp hr₁
    have hmem : r₁ ∈ (Table.updateEach _ _ _ db.findings planned).rows := Table.mem_of_get? hget
    rw [Table.rows_updateEach] at hmem
    obtain ⟨r₀, -, rfl⟩ := List.mem_map.mp hmem
    rw [batchRow_pointTo] at hget hptr₁
    have hid : r.id = (r₀.pointTo (pointerAfter planned r₀)).id := (Table.pk_of_get? hget).symm
    rw [batchRow_pointTo, pointerAfter_congr hid hptr₁.symm, pointerAfter_batchRow]
    change r.pointTo (r₀.pointTo (pointerAfter planned r₀)).correlatedTo = r
    rw [hptr₁]
    rfl
  have hreplace : ∀ (p q : PlannedLink) (r : CorrelationEdge),
      CorrelationEdge.link (str "same_correlation_key") p.confidence p.evidence
          (CorrelationEdge.link (str "same_correlation_key") q.confidence q.evidence r) =
        CorrelationEdge.link (str "same_correlation_key") p.confidence p.evidence r :=
    fun _ _ _ => rfl
  have hnew : ∀ p : PlannedLink,
      CorrelationEdge.link (str "same_correlation_key") p.confidence p.evidence p.edge = p.edge :=
    fun _ => rfl
  have hedge : Table.upsertEach PlannedLink.edge
      (fun p => CorrelationEdge.link (str "same_correlation_key") p.confidence p.evidence)
      (fun p => CorrelationEdge.keepsKeys_link _ p.confidence p.evidence)
      (db.applyLinks planned).edges planned = (db.applyLinks planned).edges :=
    Table.upsertEach_upsertEach hreplace hnew db.edges planned
  obtain ⟨findings', edges', scores'⟩ := db'
  unfold applyLinks
  dsimp only at hfindings hedges ⊢
  rw [hfindings, hedges]
  congr 1

/-- A run of linking that raises nothing makes some planned writes. -/
theorem CorrelationDb.linkFinding_eq_ok [Unicode] {db db' : CorrelationDb} {findingId : Str}
    (h : db.linkFinding findingId = .ok db') : ∃ planned, db' = db.applyLinks planned := by
  cases hfinding : db.findings.get? findingId with
  | none =>
    rw [linkFinding, hfinding] at h
    cases h
    exact ⟨[], rfl⟩
  | some finding =>
    rw [linkFinding_eq hfinding] at h
    cases hplanned : db.plannedLinks finding with
    | error e =>
      rw [hplanned] at h
      cases h
    | ok planned =>
      rw [hplanned] at h
      cases h
      exact ⟨planned, rfl⟩

/-- A second run of linking leaves everything as it is, whatever has happened since the first to
what neither of them reads. -/
theorem CorrelationDb.linkFinding_settled [Unicode] {db db₁ db' : CorrelationDb} {findingId : Str}
    (h : db.linkFinding findingId = .ok db₁) (hview : db'.linkView = db₁.linkView)
    (hpointer : pointerOf db'.findings = pointerOf db₁.findings) (hedges : db'.edges = db₁.edges) :
    db'.linkFinding findingId = .ok db' := by
  cases hfinding : db.findings.get? findingId with
  | none =>
    rw [linkFinding, hfinding] at h
    cases h
    have hnone : db'.findings.get? findingId = none := by
      rw [← Option.map_eq_none_iff, ← get?_linkView, hview, get?_linkView, hfinding]
      rfl
    rw [linkFinding, hnone]
  | some finding =>
    rw [linkFinding_eq hfinding] at h
    cases hplanned : db.plannedLinks finding with
    | error e =>
      rw [hplanned] at h
      cases h
    | ok planned =>
      rw [hplanned] at h
      cases h
      rw [linkView_applyLinks] at hview
      -- The finding that starts the second run reads like the one that started the first.
      have hget : (db'.findings.get? findingId).map Finding.linkView = some finding.linkView := by
        rw [← get?_linkView, hview, get?_linkView, hfinding]
        rfl
      obtain ⟨finding', hfinding', hsame⟩ := Option.map_eq_some_iff.mp hget
      have hplanned' : db'.plannedLinks finding' = .ok planned := by
        rw [← plannedLinks_linkView, hsame, hview, plannedLinks_linkView, hplanned]
      rw [linkFinding_eq hfinding', hplanned']
      exact congrArg Except.ok (applyLinks_eq_self hpointer hedges)

end Vat
