import Mathlib.Data.List.Sort
import Vat.Correlation.Edges
import Vat.Identity.Dedup
import Vat.Linked.Pointer

/-!
# Correlation linking

Linking takes the findings of one key in one tenant, oldest first, and links the others to the
first: each that scores high or medium gets a pointer to it and an edge with it. The pointer is
`correlated_to`. The audit events are left out; what the last one says is the decision returned.

Source: `backend/app/services/correlation_linking.py`; `backend/app/core/tenancy.py`;
`backend/app/api/findings.py`, lines 362–432.

## Main definitions

* `CorrelationDb`: the tables that linking reads and writes.
* `CorrelationDb.applyCorrelationLinking`.
* `CorrelationDb.removeFindingCorrelation`, `CorrelationDb.restoreFindingCorrelation`.
* `pointerOf`, `CorrelationDb.linkWrites`: the pointers, and those that a run of linking sets.

## Main results

* `CorrelationDb.applyCorrelationLinking_eq_ok`, `CorrelationDb.applyCorrelationLinking_ok_iff`:
  what a run of linking does to pointers and edges, and when it fails.
* `CorrelationDb.removeFindingCorrelation_eq_ok`, `CorrelationDb.restoreFindingCorrelation_eq_ok`.
* `CorrelationDb.mem_linkWrites`: which pointers it sets.
-/

namespace Vat

open Relational Transition Pointers

/-! ### Tenants -/

/-- The caller of an endpoint. -/
structure UserContext where
  email : Str
  tenantId : Option Str
  rawIdentity : Str
  crossTenant : Bool

/-- `row_tenant_visible`. -/
def rowTenantVisible (rowTenantId : Option Str) (ctx : UserContext) : Bool :=
  if ctx.crossTenant then true
  else
    match ctx.tenantId with
    | none => false
    | some tenantId => normalizeTenantId rowTenantId = normalizeTenantId (some tenantId)

/-- `coalesced_tenant_equals`: only `NULL` stands for the default tenant in a column. -/
def CoalescedTenantEquals (column tenantId : Option Str) : Prop :=
  column.getD (str "t-default") = normalizeTenantId tenantId

instance (column tenantId : Option Str) : Decidable (CoalescedTenantEquals column tenantId) :=
  inferInstanceAs (Decidable (_ = _))

/-! ### Linking -/

/-- The tables that linking reads and writes. -/
structure CorrelationDb where
  findings : Table Finding
  edges : Table CorrelationEdge
  scores : ScoreTables

/-- The database without rows. -/
def CorrelationDb.empty : CorrelationDb where
  findings := .empty
  edges := .empty
  scores := ⟨.empty, .empty⟩

/-- The order of a cluster. -/
def CreatedBefore (a b : Finding) : Prop :=
  a.createdAt < b.createdAt ∨ a.createdAt = b.createdAt ∧ ¬ b.id < a.id

instance : DecidableRel CreatedBefore := fun a b =>
  inferInstanceAs (Decidable (a.createdAt < b.createdAt ∨ a.createdAt = b.createdAt ∧ ¬ b.id < a.id))

theorem CreatedBefore.trans {a b c : Finding} (hab : CreatedBefore a b) (hbc : CreatedBefore b c) :
    CreatedBefore a c := by
  rcases hab with hab | ⟨hab, hid⟩
  · rcases hbc with hbc | ⟨hbc, -⟩
    · exact Or.inl (hab.trans hbc)
    · exact Or.inl (hbc ▸ hab)
  · rcases hbc with hbc | ⟨hbc, hid'⟩
    · exact Or.inl (hab ▸ hbc)
    · exact Or.inr ⟨hab.trans hbc, List.le_trans hid hid'⟩

theorem CreatedBefore.total (a b : Finding) : CreatedBefore a b ∨ CreatedBefore b a := by
  rcases lt_trichotomy a.createdAt b.createdAt with h | h | h
  · exact Or.inl (Or.inl h)
  · by_cases hid : b.id < a.id
    · exact Or.inr (Or.inr ⟨h.symm, List.lt_asymm hid⟩)
    · exact Or.inl (Or.inr ⟨h, hid⟩)
  · exact Or.inr (Or.inl h)

instance : IsTrans Finding CreatedBefore := ⟨fun _ _ _ => CreatedBefore.trans⟩

instance : Std.Total CreatedBefore := ⟨CreatedBefore.total⟩

/-- `select_correlation_cluster`. -/
def CorrelationDb.selectCorrelationCluster (db : CorrelationDb) (correlationKey : Str)
    (tenantId : Option Str) : List Finding :=
  (db.findings.rows.filter fun r =>
    r.correlationKey = some correlationKey ∧ CoalescedTenantEquals r.tenantId tenantId).insertionSort
      CreatedBefore

/-- Why nothing was linked, or not this finding. -/
inductive SkipReason
  | noCorrelationKey | clusterMembershipMismatch | noPeer | clusterRoot | scoreBelowPolicy
  deriving DecidableEq

/-- The reason code of the audit event. -/
def SkipReason.code : SkipReason → Str
  | .noCorrelationKey => str "no_correlation_key"
  | .clusterMembershipMismatch => str "cluster_membership_mismatch"
  | .noPeer => str "no_peer"
  | .clusterRoot => str "cluster_root"
  | .scoreBelowPolicy => str "score_below_policy"

/-- What the audit event says of the finding: `dedup.correlation.skipped` with a reason, or
`dedup.correlation.linked` with the root and a confidence. -/
inductive LinkDecision
  | skipped (reason : SkipReason)
  | linked (canonicalId : Str) (confidence : Confidence)
  deriving DecidableEq

/-- The findings that one run links to each other. -/
structure LinkScope where
  key : Str
  canonical : Finding
  peers : List Finding

/-- The cluster of a finding, unless there is nothing to link. -/
def CorrelationDb.linkScope (db : CorrelationDb) (finding : Finding) : Except SkipReason LinkScope :=
  let key := Str.orEmpty finding.correlationKey
  if key = [] then .error .noCorrelationKey
  else
    let cluster := db.selectCorrelationCluster key finding.tenantId
    if finding.id ∉ cluster.map Finding.id then .error .clusterMembershipMismatch
    else
      match cluster with
      | canonical :: peer :: peers => .ok ⟨key, canonical, peer :: peers⟩
      | _ => .error .noPeer

/-- A pointer of a finding set. -/
def Finding.pointTo (target : Option Str) (f : Finding) : Finding := { f with correlatedTo := target }

theorem Finding.keepsKeys_pointTo (target : Option Str) : KeepsKeys (Finding.pointTo target) :=
  fun _ => ⟨rfl, rfl⟩

section Linking

variable [Unicode]

/-- The members of a cluster that score high or medium. No score reads a pointer or an edge, so that
all of them are known before the first is linked. -/
def CorrelationDb.linkedPeers (db : CorrelationDb) (scope : LinkScope) : List Finding :=
  scope.peers.filter fun row => (scoreFindingPair db.scores scope.canonical row).tier ≠ .low

/-- The pointer and the edge of a member. -/
def CorrelationDb.linkRow (scope : LinkScope) (db : CorrelationDb) (row : Finding × (Str × Str)) :
    CorrelationDb :=
  let decision := scoreFindingPair db.scores scope.canonical row.1
  { db with
    findings := db.findings.update row.1.id (Finding.pointTo (some scope.canonical.id))
      (Finding.keepsKeys_pointTo (some scope.canonical.id))
    edges := upsertEdge db.edges row.2 (str "same_correlation_key") decision.tier
      ⟨scope.key, decision.score, decision.reasons⟩ (some (str "system")) }

/-- The pair of a member and the root. -/
def LinkScope.pairOf (scope : LinkScope) (row : Finding) : Except Str (Finding × (Str × Str)) := do
  return (row, ← normalizePair scope.canonical.id row.id)

/-- What the run decided on the finding that started it. -/
def CorrelationDb.linkDecision (db : CorrelationDb) (scope : LinkScope) (finding : Finding) :
    LinkDecision :=
  match scope.peers.find? fun row => row.id = finding.id with
  | none => .skipped .clusterRoot
  | some subject =>
    let decision := scoreFindingPair db.scores scope.canonical subject
    if decision.tier = .low then .skipped .scoreBelowPolicy
    else .linked scope.canonical.id (if decision.score < 85 then .medium else .high)

/-- `apply_correlation_linking`. -/
def CorrelationDb.applyCorrelationLinking (db : CorrelationDb) (finding : Finding) :
    Except Str (CorrelationDb × LinkDecision) :=
  match db.linkScope finding with
  | .error reason => return (db, .skipped reason)
  | .ok scope => do
    let db' ← (db.linkedPeers scope).foldlM
      (fun db' row => do return db'.linkRow scope (← scope.pairOf row)) db
    return (db', db.linkDecision scope finding)

/-- A run of linking for a finding in the database. -/
def CorrelationDb.linkFinding (db : CorrelationDb) (findingId : Str) : Except Str CorrelationDb :=
  match db.findings.get? findingId with
  | none => .ok db
  | some finding => do return (← db.applyCorrelationLinking finding).1

end Linking

/-! ### Removals and restores -/

/-- A finding that exists and that the caller sees. -/
def CorrelationDb.visible (db : CorrelationDb) (ctx : UserContext) (findingId : Str) : Bool :=
  match db.findings.get? findingId with
  | none => false
  | some finding => rowTenantVisible finding.tenantId ctx

/-- `ctx.email or ctx.raw_identity or "reviewer"`. -/
def UserContext.actor (ctx : UserContext) : Str :=
  if ctx.email ≠ [] then ctx.email
  else if ctx.rawIdentity ≠ [] then ctx.rawIdentity
  else str "reviewer"

/-- `remove_finding_correlation`: it writes the edge only. -/
def CorrelationDb.removeFindingCorrelation (db : CorrelationDb) (now : Instant) (ctx : UserContext)
    (findingId peerFindingId reason : Str) : Except Str CorrelationDb :=
  if ¬ (db.visible ctx findingId ∧ db.visible ctx peerFindingId) then
    .error (str "Finding not found")
  else do
    let reason := if reason = [] then str "manual uncorrelate" else reason
    match ← deactivateEdge db.edges now findingId peerFindingId ctx.actor reason with
    | none => throw (str "Correlation edge not found")
    | some edges => return { db with edges := edges }

/-- `restore_finding_correlation`. -/
def CorrelationDb.restoreFindingCorrelation (db : CorrelationDb) (ctx : UserContext)
    (findingId peerFindingId : Str) : Except Str CorrelationDb :=
  if ¬ (db.visible ctx findingId ∧ db.visible ctx peerFindingId) then
    .error (str "Finding not found")
  else do
    match ← reactivateEdge db.edges findingId peerFindingId with
    | none => throw (str "Correlation edge not found")
    | some edges => return { db with edges := edges }

/-- A removal that is not refused takes the edge of the two findings out of use and changes nothing
else. -/
theorem CorrelationDb.removeFindingCorrelation_eq_ok {db db' : CorrelationDb} {now : Instant}
    {ctx : UserContext} {findingId peerFindingId reason : Str}
    (h : db.removeFindingCorrelation now ctx findingId peerFindingId reason = .ok db') :
    db'.findings = db.findings ∧ ∃ pair, normalizePair findingId peerFindingId = .ok pair ∧
      ∀ q, EdgeActive db'.edges q ↔ q ≠ pair ∧ EdgeActive db.edges q := by
  unfold removeFindingCorrelation at h
  split at h
  · cases h
  · obtain ⟨edges, hedges, h⟩ := bind_eq_ok_iff.mp h
    cases edges with
    | none => cases h
    | some edges =>
      cases h
      exact ⟨rfl, edgeActive_of_deactivateEdge hedges⟩

/-- A restore that is not refused puts the edge of the two findings to use and changes nothing
else. -/
theorem CorrelationDb.restoreFindingCorrelation_eq_ok {db db' : CorrelationDb} {ctx : UserContext}
    {findingId peerFindingId : Str}
    (h : db.restoreFindingCorrelation ctx findingId peerFindingId = .ok db') :
    db'.findings = db.findings ∧ ∃ pair, normalizePair findingId peerFindingId = .ok pair ∧
      ∀ q, EdgeActive db'.edges q ↔ q = pair ∨ EdgeActive db.edges q := by
  unfold restoreFindingCorrelation at h
  split at h
  · cases h
  · obtain ⟨edges, hedges, h⟩ := bind_eq_ok_iff.mp h
    cases edges with
    | none => cases h
    | some edges =>
      cases h
      exact ⟨rfl, edgeActive_of_reactivateEdge hedges⟩

/-! ### Clusters -/

section Clusters

variable {db : CorrelationDb} {finding : Finding} {scope : LinkScope}

theorem CorrelationDb.mem_selectCorrelationCluster {correlationKey : Str} {tenantId : Option Str}
    {r : Finding} :
    r ∈ db.selectCorrelationCluster correlationKey tenantId ↔
      r ∈ db.findings.rows ∧ r.correlationKey = some correlationKey ∧
        CoalescedTenantEquals r.tenantId tenantId := by
  rw [selectCorrelationCluster, List.mem_insertionSort, List.mem_filter, decide_eq_true_eq]

theorem CorrelationDb.nodup_selectCorrelationCluster (db : CorrelationDb) (correlationKey : Str)
    (tenantId : Option Str) :
    ((db.selectCorrelationCluster correlationKey tenantId).map Finding.id).Nodup := by
  have hperm := List.perm_insertionSort CreatedBefore (db.findings.rows.filter fun r =>
    r.correlationKey = some correlationKey ∧ CoalescedTenantEquals r.tenantId tenantId)
  refine (hperm.map Finding.id).nodup_iff.mpr ?_
  exact db.findings.pk_nodup.sublist (List.filter_sublist.map Finding.id)

/-- The members of a scope are a cluster in its order. -/
theorem CorrelationDb.cluster_of_linkScope (h : db.linkScope finding = .ok scope) :
    db.selectCorrelationCluster (Str.orEmpty finding.correlationKey) finding.tenantId =
      scope.canonical :: scope.peers := by
  unfold linkScope at h
  dsimp only at h
  split_ifs at h with hkey hmem
  split at h
  · next canonical peer peers heq =>
    cases h
    exact heq
  · cases h

theorem CorrelationDb.get?_of_mem_scope (h : db.linkScope finding = .ok scope) {row : Finding}
    (hrow : row ∈ scope.canonical :: scope.peers) : db.findings.get? row.id = some row := by
  rw [← cluster_of_linkScope h] at hrow
  exact Table.get?_pk_of_mem (mem_selectCorrelationCluster.mp hrow).1

theorem CorrelationDb.ne_canonical_of_mem_peers (h : db.linkScope finding = .ok scope)
    {row : Finding} (hrow : row ∈ scope.peers) : row.id ≠ scope.canonical.id := by
  have hnodup := db.nodup_selectCorrelationCluster (Str.orEmpty finding.correlationKey)
    finding.tenantId
  rw [cluster_of_linkScope h, List.map_cons, List.nodup_cons] at hnodup
  intro heq
  exact hnodup.1 (heq ▸ List.mem_map_of_mem hrow)

end Clusters

/-! ### Pointers -/

/-- The pointer of a finding, `none` when there is no such finding. -/
def pointerOf (findings : Table Finding) (id : Str) : Option (Option Str) :=
  (findings.get? id).map Finding.correlatedTo

/-- The same findings in the same order, up to their pointers. -/
def SameButPointers (findings findings' : Table Finding) : Prop :=
  findings'.rows.map (Finding.pointTo none) = findings.rows.map (Finding.pointTo none)

theorem SameButPointers.get? {findings findings' : Table Finding}
    (h : SameButPointers findings findings') (id : Str) :
    (findings'.get? id).map (Finding.pointTo none) =
      (findings.get? id).map (Finding.pointTo none) := by
  have hkeeps := Finding.keepsKeys_pointTo none
  have htable : findings'.mapRows _ hkeeps = findings.mapRows _ hkeeps := Table.ext h
  rw [← Table.get?_mapRows findings' _ hkeeps, htable, Table.get?_mapRows]

/-- An update of a finding sets its pointer. -/
theorem pointerOf_update {findings : Table Finding} {id : Str} {row : Finding}
    {f : Finding → Finding} (hf : KeepsKeys f) (hget : findings.get? id = some row) :
    pointerOf (findings.update id f hf) = link (pointerOf findings) id (f row).correlatedTo := by
  funext a
  rw [pointerOf, Table.get?_update]
  split_ifs with ha
  · rw [ha, link_self, hget]
    rfl
  · rw [link_of_ne _ ha, pointerOf]

/-- An update of all findings sets the pointers that it does not keep. -/
theorem pointerOf_mapRows {findings : Table Finding} {f : Finding → Finding} (hf : KeepsKeys f)
    (sets : Finding → Option (Option Str))
    (hsets : ∀ r ∈ findings.rows, (f r).correlatedTo = (sets r).getD r.correlatedTo) :
    pointerOf (findings.mapRows f hf) =
      links (pointerOf findings)
        (findings.rows.filterMap fun r => (sets r).map fun target => (r.id, target)) := by
  funext a
  rw [pointerOf, Table.get?_mapRows]
  cases hget : findings.get? a with
  | none =>
    rcases links_eq_or_mem (pointerOf findings) _ a with h | ⟨target, hmem, -⟩
    · rw [h, pointerOf, hget]
      rfl
    · obtain ⟨r, hr, hw⟩ := List.mem_filterMap.mp hmem
      obtain ⟨t, -, heq⟩ := Option.map_eq_some_iff.mp hw
      cases heq
      exact absurd rfl (Table.get?_eq_none_iff.mp hget r hr)
  | some row =>
    obtain ⟨hrow, rfl⟩ := Table.get?_eq_some_iff.mp hget
    have hunique : ∀ target, (Row.pk row, target) ∈
        (findings.rows.filterMap fun r => (sets r).map fun target => (r.id, target)) →
        sets row = some target := by
      intro target hmem
      obtain ⟨r, hr, hw⟩ := List.mem_filterMap.mp hmem
      obtain ⟨t, ht, heq⟩ := Option.map_eq_some_iff.mp hw
      obtain ⟨hid, rfl⟩ := Prod.mk.inj heq
      rw [← Table.eq_of_pk hr hrow hid, ht]
    rw [Option.map_some, Option.map_some, hsets row hrow]
    cases hset : sets row with
    | none =>
      rcases links_eq_or_mem (pointerOf findings) _ (Row.pk row) with h | ⟨target, hmem, -⟩
      · rw [h, pointerOf, hget]
        rfl
      · rw [hunique target hmem] at hset
        cases hset
    | some target =>
      have hkey : Row.pk row ∈ (findings.rows.filterMap fun r =>
          (sets r).map fun target => (r.id, target)).map Prod.fst :=
        List.mem_map.mpr ⟨_, List.mem_filterMap.mpr ⟨row, hrow, by rw [hset]; rfl⟩, rfl⟩
      obtain ⟨target', hmem, h⟩ := exists_links_of_mem (pointerOf findings) hkey
      rw [h, ← hunique target' hmem, hset]
      rfl

variable [Unicode]

/-- The pointers that a run of linking sets: the ids of members, each with that of the root. -/
def CorrelationDb.linkWrites (db : CorrelationDb) (finding : Finding) : List (Str × Str) :=
  match db.linkScope finding with
  | .error _ => []
  | .ok scope => (db.linkedPeers scope).map fun row => (row.id, scope.canonical.id)

section Writes

variable {db db' : CorrelationDb} {finding : Finding} {scope : LinkScope}

theorem CorrelationDb.mem_linkedPeers {row : Finding} :
    row ∈ db.linkedPeers scope ↔
      row ∈ scope.peers ∧ KeyMatch scope.canonical row ∧ ¬ AssetGate scope.canonical row := by
  rw [linkedPeers, List.mem_filter, decide_eq_true_eq, scoreFindingPair_tier_ne_low_iff]

/-- A run of linking sets the pointers of the members that the asset gate does not keep from the
root. -/
theorem CorrelationDb.mem_linkWrites {rowId rootId : Str} :
    (rowId, rootId) ∈ db.linkWrites finding ↔
      ∃ scope row, db.linkScope finding = .ok scope ∧ row ∈ scope.peers ∧
        KeyMatch scope.canonical row ∧ ¬ AssetGate scope.canonical row ∧
        row.id = rowId ∧ scope.canonical.id = rootId := by
  unfold linkWrites
  cases hscope : db.linkScope finding with
  | error reason => simp
  | ok scope =>
    simp only [List.mem_map, mem_linkedPeers, Except.ok.injEq, Prod.mk.injEq]
    constructor
    · rintro ⟨row, ⟨hrow, hkey, hgate⟩, hid, hroot⟩
      exact ⟨scope, row, rfl, hrow, hkey, hgate, hid, hroot⟩
    · rintro ⟨scope', row, rfl, hrow, hkey, hgate, hid, hroot⟩
      exact ⟨row, ⟨hrow, hkey, hgate⟩, hid, hroot⟩

theorem CorrelationDb.pointerOf_linkRow {row : Finding × (Str × Str)}
    (hrow : (pointerOf db.findings row.1.id).isSome) :
    pointerOf (linkRow scope db row).findings =
      link (pointerOf db.findings) row.1.id (some scope.canonical.id) := by
  obtain ⟨old, hold⟩ := Option.isSome_iff_exists.mp (by simpa [pointerOf] using hrow)
  exact pointerOf_update (Finding.keepsKeys_pointTo _) hold

/-- The members of a run linked one after another. -/
theorem CorrelationDb.foldl_linkRow {linked : List Finding} {rows : List (Finding × (Str × Str))}
    (hrows : List.Forall₂ (fun row b => scope.pairOf row = .ok b) linked rows)
    (hmem : ∀ row ∈ linked, (pointerOf db.findings row.id).isSome) :
    SameButPointers db.findings (rows.foldl (linkRow scope) db).findings ∧
      (rows.foldl (linkRow scope) db).scores = db.scores ∧
      pointerOf (rows.foldl (linkRow scope) db).findings =
        links (pointerOf db.findings) (linked.map fun row => (row.id, some scope.canonical.id)) ∧
      ∀ q, EdgeActive (rows.foldl (linkRow scope) db).edges q ↔
        EdgeActive db.edges q ∨
          ∃ row ∈ linked, normalizePair scope.canonical.id row.id = .ok q := by
  induction hrows generalizing db with
  | nil => exact ⟨rfl, rfl, rfl, fun q => by simp⟩
  | @cons row b linked rows hb _ ih =>
    obtain ⟨pair, hpair, hb⟩ := bind_eq_ok_iff.mp hb
    cases hb
    have hpointer : pointerOf (linkRow scope db (row, pair)).findings =
        link (pointerOf db.findings) row.id (some scope.canonical.id) :=
      pointerOf_linkRow (hmem row List.mem_cons_self)
    have hmem' : ∀ r ∈ linked, 
        (pointerOf (linkRow scope db (row, pair)).findings r.id).isSome := by
      intro r hr
      rw [hpointer, isSome_link (hmem row List.mem_cons_self)]
      exact hmem r (List.mem_cons_of_mem _ hr)
    obtain ⟨hsame, hscores, hptr, hedges⟩ := ih hmem'
    refine ⟨hsame.trans ?_, hscores, hptr.trans ?_, fun q => (hedges q).trans ?_⟩
    · simp only [linkRow, Table.rows_update, List.map_map]
      refine List.map_congr_left fun r _ => ?_
      rw [Function.comp_apply]
      split_ifs <;> rfl
    · rw [hpointer]
      rfl
    · rw [linkRow, edgeActive_upsertEdge, List.exists_mem_cons_iff, hpair, Except.ok.injEq,
        eq_comm (a := q)]
      tauto

/-- What a run of linking does: it sets the pointers of the members and puts their edges to use, and
changes nothing else of the findings. -/
theorem CorrelationDb.applyCorrelationLinking_eq_ok {decision : LinkDecision}
    (h : db.applyCorrelationLinking finding = .ok (db', decision)) :
    SameButPointers db.findings db'.findings ∧
      db'.scores = db.scores ∧
      pointerOf db'.findings =
        links (pointerOf db.findings) ((db.linkWrites finding).map fun w => (w.1, some w.2)) ∧
      ∀ q, EdgeActive db'.edges q ↔
        EdgeActive db.edges q ∨ ∃ w ∈ db.linkWrites finding, normalizePair w.2 w.1 = .ok q := by
  unfold applyCorrelationLinking at h
  unfold linkWrites
  cases hscope : db.linkScope finding with
  | error reason =>
    rw [hscope] at h
    cases h
    exact ⟨rfl, rfl, rfl, fun q => by simp⟩
  | ok scope =>
    rw [hscope] at h
    obtain ⟨db'', hfold, h⟩ := bind_eq_ok_iff.mp h
    cases h
    obtain ⟨rows, hrows, rfl⟩ := foldlM_eq_ok_iff.mp hfold
    have hmem : ∀ row ∈ db.linkedPeers scope, (pointerOf db.findings row.id).isSome := by
      intro row hrow
      rw [pointerOf, get?_of_mem_scope hscope (List.mem_cons_of_mem _ (mem_linkedPeers.mp hrow).1)]
      rfl
    obtain ⟨hsame, hscores, hptr, hedges⟩ := foldl_linkRow hrows hmem
    refine ⟨hsame, hscores, ?_, fun q => ?_⟩
    · rw [hptr, List.map_map]
      rfl
    · simp only [hedges, List.mem_map, exists_exists_and_eq_and]

/-- A run fails exactly if the ids of a member that it would link and of the root make no pair. -/
theorem CorrelationDb.applyCorrelationLinking_ok_iff :
    (∃ r, db.applyCorrelationLinking finding = .ok r) ↔
      ∀ w ∈ db.linkWrites finding, ∃ q, normalizePair w.2 w.1 = .ok q := by
  unfold applyCorrelationLinking linkWrites
  cases hscope : db.linkScope finding with
  | error reason => exact iff_of_true ⟨_, rfl⟩ fun _ h => by cases h
  | ok scope =>
    rw [List.forall_mem_map]
    constructor
    · rintro ⟨r, h⟩ row hrow
      obtain ⟨db', hfold, -⟩ := bind_eq_ok_iff.mp h
      obtain ⟨rows, hrows, -⟩ := foldlM_eq_ok_iff.mp hfold
      obtain ⟨b, -, hb⟩ := exists_mem_of_forall₂ hrows hrow
      obtain ⟨pair, hpair, -⟩ := bind_eq_ok_iff.mp hb
      exact ⟨pair, hpair⟩
    · intro h
      have hpairs : ∀ row ∈ db.linkedPeers scope, ∃ b, scope.pairOf row = .ok b := by
        intro row hrow
        obtain ⟨pair, hpair⟩ := h row hrow
        exact ⟨(row, pair), bind_eq_ok_iff.mpr ⟨pair, hpair, rfl⟩⟩
      obtain ⟨rows, hrows⟩ := exists_forall₂_iff.mpr hpairs
      exact ⟨_, bind_eq_ok_iff.mpr ⟨_, foldlM_eq_ok_iff.mpr ⟨rows, hrows, rfl⟩, rfl⟩⟩

end Writes

end Vat
