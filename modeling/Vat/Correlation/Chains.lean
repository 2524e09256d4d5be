import Vat.Assets.Group
import Vat.Correlation.Unlink

/-!
# Chains of pointers between findings

Linking points the members of a cluster at its oldest finding; a grouping points the findings that
it moves at a finding of the target; an unmerge points findings back. Each writes `correlated_to`
without a look at where the pointers of the target lead. This file has the condition under which no
sequence of these calls closes a chain of pointers.

## Main definitions

* `AssetsOp`, `AssetsDb.step`: the calls.
* `consolidationWrites`: the pointers that a grouping sets before it links.
* `AssetsDb.PointsSafely`: a call that points no finding at one from which it is reached.

## Main results

* `AssetsDb.grounded_step`, `AssetsDb.grounded_run`: chains of pointers end.
-/

namespace Vat

open Relational Transition Pointers

section General

variable [Unicode]

/-! ### Calls -/

omit [Unicode] in
/-- A call that writes pointers between findings, or the findings themselves. -/
inductive AssetsOp
  | correlation (op : CorrelationOp)
  | group (linking : Bool) (req : GroupRequest)
  | unmerge (req : UnmergeRequest)

/-- A call; an error is a request that is refused or an exception. -/
def AssetsOp.perform (cfg : Settings) (w : AssetsDb) : AssetsOp → Except Str AssetsDb
  | .correlation op => do return w.withCorrelation (← op.perform w.correlation)
  | .group linking req => w.groupAssetIntoTarget cfg linking req
  | .unmerge req => w.unmergeAssetAlias req

/-- A call that fails is rolled back. -/
def AssetsDb.step (cfg : Settings) (w : AssetsDb) (op : AssetsOp) : AssetsDb :=
  match op.perform cfg w with
  | .ok w' => w'
  | .error _ => w

/-! ### Calls that close no chain -/

/-- A run of linking whose root does not lead to a finding that it links. -/
def CorrelationDb.LinksSafely (c : CorrelationDb) (findingId : Str) : Prop :=
  ∀ finding, c.findings.get? findingId = some finding →
    ∀ w ∈ c.linkWrites finding, ¬ Visits (pointerOf c.findings) w.1 w.2

/-- The tables after a run of linking, as they were if it fails. -/
def CorrelationDb.linkStep (c : CorrelationDb) (findingId : Str) : CorrelationDb :=
  match c.linkFinding findingId with
  | .ok c' => c'
  | .error _ => c

/-- The pointers that a grouping sets before it links. -/
def consolidationWrites (m : MergeSource) (ctx : UserContext) (findings : Table Finding)
    (movedIds : List Str) : List (Str × Option Str) :=
  findings.rows.filterMap fun f =>
    if f.id ∈ movedIds then
      (mergeCanonical m ctx movedIds findings f).map fun canonical => (f.id, some canonical.id)
    else none

/-- A grouping that points no finding at one that leads to it, neither where it consolidates nor
where it links. -/
def AssetsDb.GroupsSafely (cfg : Settings) (linking : Bool) (w : AssetsDb) (req : GroupRequest) : Prop :=
  req.reassignExistingFindings = true →
    let m := req.mergeSource cfg w
    let movedIds := (movedFindings m req.ctx w.findings).map Finding.id
    SafeLinks (pointerOf w.findings)
        (consolidationWrites m req.ctx (reassignFindings m req.now req.ctx w.findings) movedIds) ∧
      (linking = true → Along CorrelationDb.linkStep CorrelationDb.LinksSafely
        (w.moveFindings m req.now req.ctx).correlation movedIds)

omit [Unicode] in
/-- The events of an unmerge that point no finding back at one that leads to it, or at none. -/
def RestoresSafely (now : Instant) (ctx : UserContext) (source target : Str) :
    Table Finding → List AssetMergeEvent → Prop
  | _, [] => True
  | findings, ev :: events =>
    if ev.sourceAssetId = source ∧ ev.targetAssetId = target ∧ ev.reverted = false then
      (∀ f y, findings.get? ev.findingId = some f → hiddenFrom ctx f = false →
        (ev.restore now ctx f).correlatedTo = some y → f.correlatedTo ≠ some y →
        (pointerOf findings y).isSome ∧ ¬ Visits (pointerOf findings) f.id y) ∧
      RestoresSafely now ctx source target (restoreEvent now ctx findings ev).1 events
    else RestoresSafely now ctx source target findings events

/-- A call that points no finding at one from which it is reached. -/
def AssetsDb.PointsSafely (cfg : Settings) (w : AssetsDb) : AssetsOp → Prop
  | .correlation (.ingest finding source linking) =>
    linking = true → ∀ c, w.correlation.store finding source = .ok c → c.LinksSafely finding.id
  | .correlation (.link findingId) => w.correlation.LinksSafely findingId
  | .correlation _ => True
  | .group linking req => w.GroupsSafely cfg linking req
  | .unmerge req =>
    RestoresSafely req.now req.ctx (Str.strip req.sourceAssetId) (Str.strip req.assetId) w.findings
      w.mergeEvents

/-! ### Linking -/

section Linking

variable {c c' : CorrelationDb} {findingId : Str}

theorem CorrelationDb.isSome_of_linkWrites {finding : Finding} {w : Str × Str}
    (h : w ∈ c.linkWrites finding) :
    (pointerOf c.findings w.1).isSome ∧ (pointerOf c.findings w.2).isSome := by
  obtain ⟨rowId, rootId⟩ := w
  obtain ⟨scope, row, hscope, hrow, -, -, rfl, rfl⟩ := mem_linkWrites.mp h
  rw [pointerOf, pointerOf, get?_of_mem_scope hscope (List.mem_cons_of_mem _ hrow),
    get?_of_mem_scope hscope List.mem_cons_self]
  exact ⟨rfl, rfl⟩

/-- All pointers of a run of linking have one target. -/
theorem CorrelationDb.linkWrites_eq_common (c : CorrelationDb) (finding : Finding) :
    c.linkWrites finding = [] ∨
      ∃ root, c.linkWrites finding = ((c.linkWrites finding).map Prod.fst).map fun id => (id, root) := by
  unfold linkWrites
  cases c.linkScope finding with
  | error reason => exact Or.inl rfl
  | ok scope =>
    refine Or.inr ⟨scope.canonical.id, ?_⟩
    simp only [List.map_map]
    rfl

/-- A run of linking keeps chains ending when its root leads to no finding that it links. -/
theorem CorrelationDb.grounded_linkFinding (hgrounded : Grounded (pointerOf c.findings))
    (hsafe : c.LinksSafely findingId) (h : c.linkFinding findingId = .ok c') :
    Grounded (pointerOf c'.findings) := by
  unfold linkFinding at h
  cases hget : c.findings.get? findingId with
  | none =>
    rw [hget] at h
    cases h
    exact hgrounded
  | some finding =>
    rw [hget] at h
    obtain ⟨⟨c'', decision⟩, happly, h⟩ := bind_eq_ok_iff.mp h
    cases h
    rw [(applyCorrelationLinking_eq_ok happly).2.2.1]
    refine grounded_links hgrounded ?_
    rcases c.linkWrites_eq_common finding with hnil | ⟨root, hcommon⟩
    · rw [hnil]
      trivial
    · cases hwrites : (c.linkWrites finding).map Prod.fst with
      | nil =>
        rw [List.map_eq_nil_iff.mp hwrites]
        trivial
      | cons id ids =>
        have hmem : ∀ x ∈ (c.linkWrites finding).map Prod.fst, (x, root) ∈ c.linkWrites finding := by
          intro x hx
          rw [hcommon]
          exact List.mem_map_of_mem hx
        have hroot : (pointerOf c.findings root).isSome :=
          (isSome_of_linkWrites (hmem id (by rw [hwrites]; exact List.mem_cons_self))).2
        rw [hcommon, List.map_map]
        exact safeLinks_common hroot fun x hx =>
          ⟨(isSome_of_linkWrites (hmem x hx)).1, hsafe finding hget _ (hmem x hx)⟩

/-- The same for the runs of linking after a grouping. -/
theorem CorrelationDb.grounded_linkFindings {findingIds : List Str}
    (hgrounded : Grounded (pointerOf c.findings)) (hsafe : Along linkStep LinksSafely c findingIds)
    (h : c.linkFindings findingIds = .ok c') : Grounded (pointerOf c'.findings) := by
  induction findingIds generalizing c with
  | nil =>
    cases h
    exact hgrounded
  | cons id ids ih =>
    rw [linkFindings, List.foldlM_cons] at h
    obtain ⟨next, hnext, h⟩ := bind_eq_ok_iff.mp h
    obtain ⟨hid, hids⟩ := hsafe
    rw [linkStep, hnext] at hids
    exact ih (grounded_linkFinding hgrounded hid hnext) hids h

/-- What an ingest writes before it links adds at most a finding without a pointer. -/
theorem CorrelationDb.grounded_store {finding : Finding} {source : Str}
    (hgrounded : Grounded (pointerOf c.findings)) (h : c.store finding source = .ok c') :
    Grounded (pointerOf c'.findings) := by
  unfold store at h
  cases hstore : storeFinding c.findings finding with
  | none =>
    rw [hstore] at h
    cases h
  | some findings =>
    rw [hstore] at h
    cases h
    rcases pointerOf_storeFinding hstore with hptr | ⟨hnone, hptr⟩
    · exact hptr ▸ hgrounded
    · rw [hptr]
      intro a ha
      by_cases haid : a = finding.id
      · exact Ends.stop (by rw [haid, link_self])
      · rw [link_of_ne _ haid] at ha
        refine (hgrounded a ha).congr fun x hx => link_of_ne _ ?_
        rintro rfl
        have hsome := (hgrounded a ha).isSome_of_visits hx
        rw [hnone] at hsome
        cases hsome

end Linking

/-! ### Groupings -/

section Grouping

variable {cfg : Settings} {w w' : AssetsDb} {m : MergeSource} {now : Instant} {ctx : UserContext}

theorem correlatedTo_reassignRow (f : Finding) :
    (reassignRow m now ctx f).correlatedTo = f.correlatedTo := by
  unfold reassignRow
  split_ifs <;> rfl

theorem pointerOf_reassignFindings (findings : Table Finding) :
    pointerOf (reassignFindings m now ctx findings) = pointerOf findings := by
  have hkeeps : ∀ r ∈ findings.rows, (reassignRow m now ctx r).correlatedTo =
      (none : Option (Option Str)).getD r.correlatedTo := fun r _ => correlatedTo_reassignRow r
  have h := pointerOf_mapRows (keepsKeys_reassignRow m now ctx) (fun _ => none) hkeeps
  have hnil : (findings.rows.filterMap fun r =>
      (none : Option (Option Str)).map fun target => (r.id, target)) = [] :=
    List.filterMap_eq_nil_iff.mpr fun _ _ => rfl
  rw [hnil] at h
  exact h

/-- A grouping sets its pointers one after another. -/
theorem pointerOf_consolidateFindings (findings : Table Finding) (movedIds : List Str) :
    pointerOf (consolidateFindings m now ctx findings movedIds) =
      links (pointerOf findings) (consolidationWrites m ctx findings movedIds) := by
  have hsets : ∀ r ∈ findings.rows, (consolidateRow m now ctx findings movedIds r).correlatedTo =
      (if r.id ∈ movedIds then
        (mergeCanonical m ctx movedIds findings r).map fun canonical => some canonical.id
        else none).getD r.correlatedTo := by
    intro r _
    unfold consolidateRow
    split_ifs
    · cases mergeCanonical m ctx movedIds findings r with
      | none => rfl
      | some canonical => rfl
    · rfl
  rw [consolidateFindings, pointerOf_mapRows (keepsKeys_consolidateRow m now ctx findings movedIds)
    (fun r => if r.id ∈ movedIds then
      (mergeCanonical m ctx movedIds findings r).map fun canonical => some canonical.id
      else none) hsets, consolidationWrites]
  congr 2
  funext f
  split_ifs
  · rw [Option.map_map]
    rfl
  · rfl

theorem findings_of_groupAliases {db db' : Db} {assetId targetAssetId : Str} {createdBy : Option Str}
    (h : groupAliases cfg now db assetId targetAssetId createdBy = some db') :
    db'.findings = db.findings := by
  unfold groupAliases at h
  dsimp only at h
  split_ifs at h
  obtain ⟨db'', hupsert, h⟩ := Option.bind_eq_some_iff.mp h
  cases h
  exact (sameRows_upsertAssetAlias hupsert).findings

/-- A grouping keeps chains ending when it points no finding at one that leads to it. -/
theorem AssetsDb.grounded_group {linking : Bool} {req : GroupRequest}
    (hgrounded : Grounded (pointerOf w.findings)) (hsafe : w.GroupsSafely cfg linking req)
    (h : w.groupAssetIntoTarget cfg linking req = .ok w') : Grounded (pointerOf w'.findings) := by
  unfold groupAssetIntoTarget at h
  cases haliases : groupAliases cfg req.now w.db req.assetId req.targetAssetId
      (some req.ctx.email) with
  | none =>
    rw [haliases] at h
    cases h
  | some db =>
    rw [haliases] at h
    have hfindings := findings_of_groupAliases haliases
    have hmoved : movedFindings (req.mergeSource cfg w) req.ctx db.findings =
        movedFindings (req.mergeSource cfg w) req.ctx w.findings := by rw [hfindings]
    have hmove : ({ w with db := db }.moveFindings (req.mergeSource cfg w) req.now
        req.ctx).correlation =
          (w.moveFindings (req.mergeSource cfg w) req.now req.ctx).correlation := by
      simp only [moveFindings, correlation, findings, hfindings]
    dsimp only at h
    split at h
    · next hreassign =>
      obtain ⟨hconsolidate, hlink⟩ := hsafe hreassign
      have hpointer : Grounded
          (pointerOf (w.moveFindings (req.mergeSource cfg w) req.now req.ctx).correlation.findings) := by
        change Grounded (pointerOf (consolidateFindings _ _ _ _ _))
        rw [pointerOf_consolidateFindings, pointerOf_reassignFindings]
        exact grounded_links hgrounded hconsolidate
      split at h
      · next hlinking =>
        obtain ⟨c, hc, h⟩ := bind_eq_ok_iff.mp h
        cases h
        rw [hmove] at hc
        refine CorrelationDb.grounded_linkFindings hpointer (hlink hlinking) ?_
        rw [← hmoved]
        exact hc
      · cases h
        rw [← hmove] at hpointer
        exact hpointer
    · cases h
      rw [findings, hfindings]
      exact hgrounded

end Grouping

/-! ### Unmerges -/

omit [Unicode] in
/-- An event taken back keeps chains ending when it points no finding back at one that leads to
it. -/
theorem grounded_restoreEvent {now : Instant} {ctx : UserContext} {findings : Table Finding}
    {ev : AssetMergeEvent} (hgrounded : Grounded (pointerOf findings))
    (hsafe : ∀ f y, findings.get? ev.findingId = some f → hiddenFrom ctx f = false →
      (ev.restore now ctx f).correlatedTo = some y → f.correlatedTo ≠ some y →
      (pointerOf findings y).isSome ∧ ¬ Visits (pointerOf findings) f.id y) :
    Grounded (pointerOf (restoreEvent now ctx findings ev).1) := by
  unfold restoreEvent
  cases hget : findings.get? ev.findingId with
  | none => exact hgrounded
  | some f =>
    dsimp only
    split_ifs with hhidden
    · exact hgrounded
    · have hptr : pointerOf findings ev.findingId = some f.correlatedTo := by rw [pointerOf, hget]; rfl
      have hid : f.id = ev.findingId := Table.pk_of_get? hget
      rw [pointerOf_update (ev.keepsKeys_restore now ctx) hget]
      cases htarget : (ev.restore now ctx f).correlatedTo with
      | none => exact hgrounded.link_none (by rw [hptr]; rfl)
      | some y =>
        by_cases hsame : f.correlatedTo = some y
        · rw [link_eq_self (hptr.trans (congrArg some hsame))]
          exact hgrounded
        · have hy := hsafe f y hget (by simpa using hhidden) htarget hsame
          rw [hid] at hy
          exact (grounded_link_iff hgrounded (by rw [hptr]; rfl) y).mpr hy

omit [Unicode] in
theorem grounded_restoreEvents {now : Instant} {ctx : UserContext} {source target : Str}
    {findings : Table Finding} {events : List AssetMergeEvent}
    (hgrounded : Grounded (pointerOf findings))
    (hsafe : RestoresSafely now ctx source target findings events) :
    Grounded (pointerOf (restoreEvents now ctx source target findings events).1) := by
  induction events generalizing findings with
  | nil => exact hgrounded
  | cons ev events ih =>
    unfold RestoresSafely at hsafe
    unfold restoreEvents
    split_ifs at hsafe ⊢ with hev
    · exact ih (grounded_restoreEvent hgrounded hsafe.1) hsafe.2
    · exact ih hgrounded hsafe

/-! ### Runs -/

section Runs

variable {cfg : Settings} {w : AssetsDb}

/-- A call keeps chains ending when it points no finding at one from which it is reached. -/
theorem AssetsDb.grounded_step {op : AssetsOp} (hgrounded : Grounded (pointerOf w.findings))
    (hsafe : w.PointsSafely cfg op) : Grounded (pointerOf (w.step cfg op).findings) := by
  unfold step
  cases hperform : op.perform cfg w with
  | error e => exact hgrounded
  | ok w' =>
    cases op with
    | correlation op =>
      obtain ⟨c, hc, hw⟩ := bind_eq_ok_iff.mp hperform
      cases hw
      change Grounded (pointerOf c.findings)
      cases op with
      | ingest finding source linking =>
        obtain ⟨c', hstore, hlink⟩ := bind_eq_ok_iff.mp hc
        have hgrounded' : Grounded (pointerOf c'.findings) :=
          CorrelationDb.grounded_store hgrounded hstore
        cases linking with
        | false =>
          cases hlink
          exact hgrounded'
        | true => exact CorrelationDb.grounded_linkFinding hgrounded' (hsafe rfl c' hstore) hlink
      | link findingId =>
        exact CorrelationDb.grounded_linkFinding hgrounded hsafe hc
      | crosswalk source sourceVersion entries =>
        cases hc
        exact hgrounded
      | remove now ctx findingId peerFindingId reason =>
        rw [(CorrelationDb.removeFindingCorrelation_eq_ok hc).1]
        exact hgrounded
      | restore ctx findingId peerFindingId =>
        rw [(CorrelationDb.restoreFindingCorrelation_eq_ok hc).1]
        exact hgrounded
    | group linking req => exact grounded_group hgrounded hsafe hperform
    | unmerge req =>
      change w.unmergeAssetAlias req = .ok w' at hperform
      unfold unmergeAssetAlias at hperform
      split at hperform
      · cases hperform
      · cases hperform
        exact grounded_restoreEvents hgrounded hsafe

end Runs

end General

section MutualPeers

attribute [local instance] asciiUnicode

/-- The settings of the runs below. -/
def movedSettings : Settings := ⟨false, []⟩

/-- A finding of the package `svc-a`. -/
def movedFinding (id : Str) (createdAt : Instant) : Finding :=
  { Finding.blank id id (str "CVE-2024-1") with
    image := some (str "svc-a")
    createdAt := createdAt }

/-- An administrator. -/
def movedAdmin : UserContext where
  email := str "admin@acme"
  tenantId := some (str "t-default")
  rawIdentity := []
  crossTenant := false

/-- The package grouped into another, to which no finding belongs yet. -/
def movedGroup : GroupRequest := ⟨5, movedAdmin, str "svc-a", str "svc-b", true⟩

/-- Two findings of one package, which is then grouped into another. -/
def movedRun : List AssetsOp :=
  [.correlation (.ingest (movedFinding (str "f-1") 1) (str "Trivy") true),
    .correlation (.ingest (movedFinding (str "f-2") 2) (str "Grype") true),
    .group true movedGroup]

/-- A root that has no pointer leads nowhere. -/
theorem not_visits_of_root {ptr : Str → Option (Option Str)} {x y : Str} (hy : ptr y = some none)
    (hne : x ≠ y) : ¬ Visits ptr x y := by
  rintro (_ | ⟨h, -⟩)
  · exact hne rfl
  · rw [hy] at h
    cases h

end MutualPeers

end Vat
