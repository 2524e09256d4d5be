import Vat.Assets.Delete

/-!
# Deletions and other tenants

A deletion of an asset reads the findings under the tenant filter, which lets a caller of any tenant
see every row, and the other tables by the names alone. It leaves the rows of the other tenants as
they are exactly when none of them has a name that it goes by. A bulk request deletes one asset
after another, each in a transaction of its own; an id at which it stops loses no row.

A package and a result have the tenant of their column, an audit event that of the finding that it
names.

Source: `backend/app/api/assets.py`, lines 172–323 and 622–701; `backend/app/core/auth.py`, lines
240–262; `backend/app/core/tenancy.py`, lines 38–44.

## Main definitions

* `AssetStore.KeepsOthers`: the rows of other tenants are as they were.
* `AssetStore.Spares`: no row of another tenant has a name that a deletion goes by.
* `executedIds`: the ids of a bulk request that go through.

## Main results

* `committed_bulkDelete`: a bulk request deletes the assets of these ids one after another.
* `keepsOthers_deletions_iff`: deletions keep the rows of others exactly when each spares them.
* `isolated_iff`: the requests.
-/

namespace Vat

open Relational Transition

/-! ### Rows of other tenants -/

/-- A row of a tenant that is not the caller's. -/
def foreignTenant (ctx : UserContext) (tenantId : Option Str) : Bool := !rowTenantVisible tenantId ctx

/-- An audit event that names a finding of another tenant. -/
def AssetStore.foreignEvent (ctx : UserContext) (w : AssetStore) (e : AuditEvent) : Bool :=
  w.findings.rows.any fun f => e.findingId = some f.id ∧ foreignTenant ctx f.tenantId

/-- The findings, packages, results and audit events of other tenants are as they were. -/
structure AssetStore.KeepsOthers (ctx : UserContext) (w w' : AssetStore) : Prop where
  findings : w'.findings.rows.filter (fun f => foreignTenant ctx f.tenantId) =
    w.findings.rows.filter fun f => foreignTenant ctx f.tenantId
  packages : w'.sbomPackages.rows.filter (fun p => foreignTenant ctx p.tenantId) =
    w.sbomPackages.rows.filter fun p => foreignTenant ctx p.tenantId
  results : w'.openscapResults.rows.filter (fun r => foreignTenant ctx r.tenantId) =
    w.openscapResults.rows.filter fun r => foreignTenant ctx r.tenantId
  auditEvents : w'.db.auditEvents.filter (w.foreignEvent ctx) =
    w.db.auditEvents.filter (w.foreignEvent ctx)

section Isolation

variable [Unicode]

/-- No row of another tenant has a name that the deletion of an asset goes by. -/
structure AssetStore.Spares (cfg : Settings) (ctx : UserContext) (w : AssetStore) (assetId : Str) :
    Prop where
  findings : ∀ f ∈ w.findings.rows, foreignTenant ctx f.tenantId = true →
    selectedForDelete cfg ctx assetId f = false
  packages : ∀ p ∈ w.sbomPackages.rows, foreignTenant ctx p.tenantId = true →
    p.component ≠ some assetId
  results : ∀ r ∈ w.openscapResults.rows, foreignTenant ctx r.tenantId = true → r.assetId ≠ assetId
  auditEvents : ∀ e ∈ w.db.auditEvents, w.foreignEvent ctx e = true → e.assetId ≠ some assetId

/-! ### One deletion after another -/

variable {cfg : Settings} {now : Instant} {ctx : UserContext}

/-- The assets of some ids deleted one after another. -/
def AssetStore.deletions (cfg : Settings) (now : Instant) (ctx : UserContext) (w : AssetStore)
    (assetIds : List Str) : AssetStore :=
  run (fun w assetId => (deleteAssetOwnedData cfg now ctx assetId w).1) w assetIds

omit [Unicode] in
/-- A filter by what none of some ids takes keeps the rows of a kind. -/
theorem filter_filter_eq_iff {ρ : Type*} {taken : Str → ρ → Bool} {assetIds : List Str}
    {kind : ρ → Bool} {l : List ρ} :
    (l.filter fun r => assetIds.all fun id => !taken id r).filter kind = l.filter kind ↔
      ∀ r ∈ l, kind r = true → ∀ id ∈ assetIds, taken id r = false := by
  have hall : ∀ r, (assetIds.all fun id => !taken id r) = true ↔
      ∀ id ∈ assetIds, taken id r = false := fun r => by
    simp only [List.all_eq_true, Bool.not_eq_true']
  rw [List.filter_filter]
  constructor
  · intro h r hr hkind
    have hmem : r ∈ l.filter kind := List.mem_filter.mpr ⟨hr, hkind⟩
    rw [← h, List.mem_filter, Bool.and_eq_true] at hmem
    exact (hall r).mp hmem.2.2
  · intro h
    refine List.filter_congr fun r hr => ?_
    cases hkind : kind r with
    | false => rfl
    | true => rw [(hall r).mpr (h r hr hkind), Bool.and_self]

/-- What an id deletes of the audit events, given the findings. -/
def eventTaken (cfg : Settings) (ctx : UserContext) (findings : List Finding) (assetId : Str)
    (e : AuditEvent) : Bool :=
  e.assetId = some assetId ∨
    findings.any fun f => e.findingId = some f.id ∧ selectedForDelete cfg ctx assetId f

theorem auditEventNamed_eq {w : AssetStore} {assetId : Str} (e : AuditEvent) :
    auditEventNamed assetId (selectedIds cfg ctx assetId w) e =
      eventTaken cfg ctx w.findings.rows assetId e := by
  rw [auditEventNamed, eventTaken, decide_eq_decide, Option.any_eq_true, List.any_eq_true]
  refine or_congr_right ⟨?_, ?_⟩
  · rintro ⟨id, hid, hmem⟩
    obtain ⟨f, hf, rfl⟩ := List.mem_map.mp (of_decide_eq_true hmem)
    obtain ⟨hf, hselected⟩ := List.mem_filter.mp hf
    exact ⟨f, hf, decide_eq_true ⟨hid, hselected⟩⟩
  · rintro ⟨f, hf, hnamed⟩
    obtain ⟨hid, hselected⟩ := of_decide_eq_true hnamed
    exact ⟨f.id, hid, decide_eq_true ((mem_selectedIds hf).mpr hselected)⟩

/-- An event that is not taken names no finding that is. -/
theorem eventTaken_filter {findings : List Finding} {assetId : Str} {e : AuditEvent}
    (h : eventTaken cfg ctx findings assetId e = false) (other : Str) :
    eventTaken cfg ctx (findings.filter (!selectedForDelete cfg ctx assetId ·)) other e =
      eventTaken cfg ctx findings other e := by
  rw [eventTaken, decide_eq_false_iff_not, not_or] at h
  rw [eventTaken, eventTaken, decide_eq_decide, List.any_eq_true, List.any_eq_true]
  refine or_congr_right ⟨?_, ?_⟩
  · rintro ⟨f, hf, hnamed⟩
    exact ⟨f, List.mem_of_mem_filter hf, hnamed⟩
  · rintro ⟨f, hf, hnamed⟩
    refine ⟨f, List.mem_filter.mpr ⟨hf, ?_⟩, hnamed⟩
    rw [Bool.not_eq_true']
    by_contra hselected
    exact h.2 (List.any_eq_true.mpr ⟨f, hf,
      decide_eq_true ⟨(of_decide_eq_true hnamed).1, Bool.not_eq_false _ ▸ hselected⟩⟩)

/-- What stays of four tables when an asset is deleted. -/
theorem deletion_rows (now : Instant) (w : AssetStore) (assetId : Str) :
    let w' := (deleteAssetOwnedData cfg now ctx assetId w).1
    w'.findings.rows = w.findings.rows.filter (!selectedForDelete cfg ctx assetId ·) ∧
      w'.sbomPackages.rows = w.sbomPackages.rows.filter (!packageNamed assetId ·) ∧
      w'.openscapResults.rows = w.openscapResults.rows.filter (!openscapResultNamed assetId ·) ∧
      w'.db.auditEvents =
        w.db.auditEvents.filter (!eventTaken cfg ctx w.findings.rows assetId ·) := by
  rw [deleteAssetOwnedData_fst]
  refine ⟨List.filter_congr fun f hf => ?_, rfl, rfl, List.filter_congr fun e _ => ?_⟩
  · refine congrArg not (Bool.eq_iff_iff.mpr ?_)
    rw [findingNamed, decide_eq_true_eq]
    exact mem_selectedIds hf
  · exact congrArg not (auditEventNamed_eq e)

omit [Unicode] in
/-- A deletion after others takes what it takes of what they leave. -/
theorem filter_filter_all {ρ : Type*} (taken : Str → ρ → Bool) (assetId : Str) (assetIds : List Str)
    (l : List ρ) :
    (l.filter (!taken assetId ·)).filter (fun r => assetIds.all fun id => !taken id r) =
      l.filter fun r => (assetId :: assetIds).all fun id => !taken id r := by
  rw [List.filter_filter]
  refine List.filter_congr fun r _ => ?_
  rw [List.all_cons, Bool.and_comm]

/-- What stays of four tables when assets are deleted one after another. -/
theorem deletions_rows (w : AssetStore) (assetIds : List Str) :
    let w' := w.deletions cfg now ctx assetIds
    w'.findings.rows = w.findings.rows.filter
        (fun f => assetIds.all fun id => !selectedForDelete cfg ctx id f) ∧
      w'.sbomPackages.rows = w.sbomPackages.rows.filter
        (fun p => assetIds.all fun id => !packageNamed id p) ∧
      w'.openscapResults.rows = w.openscapResults.rows.filter
        (fun r => assetIds.all fun id => !openscapResultNamed id r) ∧
      w'.db.auditEvents = w.db.auditEvents.filter
        (fun e => assetIds.all fun id => !eventTaken cfg ctx w.findings.rows id e) := by
  induction assetIds generalizing w with
  | nil =>
    exact ⟨(List.filter_eq_self.mpr fun _ _ => rfl).symm, (List.filter_eq_self.mpr fun _ _ => rfl).symm,
      (List.filter_eq_self.mpr fun _ _ => rfl).symm, (List.filter_eq_self.mpr fun _ _ => rfl).symm⟩
  | cons assetId assetIds ih =>
    obtain ⟨hfindings, hpackages, hresults, hevents⟩ :=
      @deletion_rows _ cfg ctx now w assetId
    obtain ⟨ihFindings, ihPackages, ihResults, ihEvents⟩ :=
      ih (deleteAssetOwnedData cfg now ctx assetId w).1
    rw [hfindings] at ihFindings ihEvents
    rw [hpackages] at ihPackages
    rw [hresults] at ihResults
    rw [hevents] at ihEvents
    refine ⟨ihFindings.trans (filter_filter_all (selectedForDelete cfg ctx) _ _ _),
      ihPackages.trans (filter_filter_all packageNamed _ _ _),
      ihResults.trans (filter_filter_all openscapResultNamed _ _ _), ihEvents.trans ?_⟩
    rw [List.filter_filter]
    refine List.filter_congr fun e _ => ?_
    rw [List.all_cons, Bool.and_comm]
    cases htaken : eventTaken cfg ctx w.findings.rows assetId e with
    | true => rfl
    | false =>
      simp only [eventTaken_filter htaken]

/-- Deletions keep the rows of others exactly when each of them spares those that were there. -/
theorem keepsOthers_deletions_iff {w : AssetStore} {assetIds : List Str} :
    w.KeepsOthers ctx (w.deletions cfg now ctx assetIds) ↔
      ∀ assetId ∈ assetIds, w.Spares cfg ctx assetId := by
  obtain ⟨hfindings, hpackages, hresults, hevents⟩ :=
    @deletions_rows _ cfg now ctx w assetIds
  constructor
  · rintro ⟨h₁, h₂, h₃, h₄⟩ assetId hid
    rw [hfindings, filter_filter_eq_iff] at h₁
    rw [hpackages, filter_filter_eq_iff] at h₂
    rw [hresults, filter_filter_eq_iff] at h₃
    rw [hevents, filter_filter_eq_iff] at h₄
    refine ⟨fun f hf hforeign => h₁ f hf hforeign assetId hid,
      fun p hp hforeign => of_decide_eq_false (h₂ p hp hforeign assetId hid),
      fun r hr hforeign => of_decide_eq_false (h₃ r hr hforeign assetId hid),
      fun e he hforeign => ?_⟩
    have htaken := h₄ e he hforeign assetId hid
    rw [eventTaken, decide_eq_false_iff_not, not_or] at htaken
    exact htaken.1
  · intro h
    refine ⟨?_, ?_, ?_, ?_⟩
    · rw [hfindings, filter_filter_eq_iff]
      exact fun f hf hforeign id hid => (h id hid).findings f hf hforeign
    · rw [hpackages, filter_filter_eq_iff]
      exact fun p hp hforeign id hid => decide_eq_false ((h id hid).packages p hp hforeign)
    · rw [hresults, filter_filter_eq_iff]
      exact fun r hr hforeign id hid => decide_eq_false ((h id hid).results r hr hforeign)
    · rw [hevents, filter_filter_eq_iff]
      intro e he hforeign id hid
      rw [eventTaken, decide_eq_false_iff_not, not_or]
      refine ⟨(h id hid).auditEvents e he hforeign, fun hnamed => ?_⟩
      -- the finding that makes the event foreign is the one that it names
      obtain ⟨f, hf, hnamed⟩ := List.any_eq_true.mp hnamed
      obtain ⟨g, hg, hown⟩ := List.any_eq_true.mp hforeign
      obtain ⟨hfid, hselected⟩ := of_decide_eq_true hnamed
      obtain ⟨hgid, hforeign⟩ := of_decide_eq_true hown
      obtain rfl : g = f := Table.eq_of_pk hg hf (Option.some_inj.mp (hgid.symm.trans hfid))
      rw [(h id hid).findings g hf hforeign] at hselected
      cases hselected

/-! ### Requests -/

/-- The ids of a bulk request that go through, given those that it has seen. -/
def executedIds (fault : Str → Option ℕ) (seen : List Str) : List Str → List Str
  | [] => []
  | raw :: raws =>
    let aid := Str.strip raw
    if aid = [] ∨ aid ∈ seen then executedIds fault seen raws
    else if fault aid = none then aid :: executedIds fault (aid :: seen) raws
    else executedIds fault (aid :: seen) raws

omit [Unicode] in
theorem mem_executedIds {fault : Str → Option ℕ} {seen raws : List Str} {aid : Str} :
    aid ∈ executedIds fault seen raws ↔
      aid ∈ raws.map Str.strip ∧ aid ≠ [] ∧ aid ∉ seen ∧ fault aid = none := by
  induction raws generalizing seen with
  | nil => exact iff_of_false List.not_mem_nil fun h => List.not_mem_nil h.1
  | cons raw raws ih =>
    rw [executedIds, List.map_cons, List.mem_cons]
    split_ifs with hskip hfault
    · rw [ih]
      refine and_congr_left fun ⟨hne, hseen, _⟩ => (or_iff_right ?_).symm
      rintro rfl
      exact hskip.elim hne hseen
    · obtain ⟨hne, hseen⟩ := not_or.mp hskip
      rw [List.mem_cons, ih, List.mem_cons]
      by_cases hself : aid = Str.strip raw
      · rw [hself]
        exact iff_of_true (Or.inl rfl) ⟨Or.inl rfl, hne, hseen, hfault⟩
      · rw [or_iff_right hself, or_iff_right hself, or_iff_right hself]
    · rw [ih, List.mem_cons]
      by_cases hself : aid = Str.strip raw
      · rw [hself]
        exact iff_of_false (fun h => hfault h.2.2.2) fun h => hfault h.2.2.2
      · rw [or_iff_right hself, or_iff_right hself]

/-- An id that a bulk request deletes the asset of. -/
theorem step_of_executed {fault : Str → Option ℕ} {b : BulkDeletion} {raw : Str}
    (hnew : ¬ (Str.strip raw = [] ∨ Str.strip raw ∈ b.seen)) (hfault : fault (Str.strip raw) = none) :
    (b.step cfg now ctx fault raw).session =
        .start (deleteAssetOwnedData cfg now ctx (Str.strip raw) b.session.working).1 ∧
      (b.step cfg now ctx fault raw).seen = Str.strip raw :: b.seen := by
  simp only [BulkDeletion.step, if_neg hnew, hfault]
  exact ⟨rfl, trivial⟩

/-- An id that a bulk request fails on: what was committed is as it was. -/
theorem step_of_fault {fault : Str → Option ℕ} {b : BulkDeletion} {raw : Str} {n : ℕ}
    (hnew : ¬ (Str.strip raw = [] ∨ Str.strip raw ∈ b.seen))
    (hfault : fault (Str.strip raw) = some n) :
    (b.step cfg now ctx fault raw).session = .start b.session.committed ∧
      (b.step cfg now ctx fault raw).seen = Str.strip raw :: b.seen := by
  simp only [BulkDeletion.step, if_neg hnew, hfault]
  exact ⟨rfl, trivial⟩

/-- A failing id leaves what was committed, also if the request has seen it before. -/
theorem committed_step_of_fault {fault : Str → Option ℕ} {b : BulkDeletion} {raw : Str}
    (hfault : fault (Str.strip raw) ≠ none) :
    (b.step cfg now ctx fault raw).session.committed = b.session.committed := by
  by_cases hskip : Str.strip raw = [] ∨ Str.strip raw ∈ b.seen
  · rw [BulkDeletion.step]
    simp only [if_pos hskip]
  · obtain ⟨n, hfault⟩ := Option.ne_none_iff_exists'.mp hfault
    rw [(step_of_fault hskip hfault).1]
    rfl

/-- From a session without an open transaction, a bulk request deletes the assets of the ids that go
through one after another. -/
theorem committed_run_step (fault : Str → Option ℕ) (b : BulkDeletion) {w : AssetStore}
    (hsession : b.session = .start w) (assetIds : List Str) :
    (run (BulkDeletion.step cfg now ctx fault) b assetIds).session.committed =
      w.deletions cfg now ctx (executedIds fault b.seen assetIds) := by
  induction assetIds generalizing b w with
  | nil =>
    rw [run_nil, hsession]
    rfl
  | cons raw assetIds ih =>
    rw [run_cons, executedIds]
    split_ifs with hskip hfault
    · have hstep : b.step cfg now ctx fault raw = b := if_pos hskip
      rw [hstep, ih b hsession]
    · obtain ⟨hstep, hseen⟩ := @step_of_executed _ cfg now ctx _ b _ hskip hfault
      rw [hsession] at hstep
      rw [ih _ hstep, hseen, AssetStore.deletions, AssetStore.deletions, run_cons]
      rfl
    · obtain ⟨n, hfault⟩ := Option.ne_none_iff_exists'.mp hfault
      obtain ⟨hstep, hseen⟩ := @step_of_fault _ cfg now ctx _ b _ _ hskip hfault
      rw [hsession] at hstep
      rw [ih _ hstep, hseen]
      rfl

/-- A bulk request deletes the assets of the ids that go through one after another. -/
theorem committed_bulkDelete (fault : Str → Option ℕ) (w : AssetStore) (assetIds : List Str) :
    ((AssetSession.start w).bulkDelete cfg now ctx fault assetIds).session.committed =
      w.deletions cfg now ctx (executedIds fault [] assetIds) :=
  committed_run_step fault ⟨.start w, [], []⟩ rfl assetIds

/-- What a request for one asset leaves. -/
theorem committed_deleteAsset (fault : Option ℕ) (w : AssetStore) (assetId : Str) :
    ((AssetSession.start w).deleteAsset cfg now ctx fault assetId).committed =
      w.deletions cfg now ctx (if fault = none then [assetId] else []) := by
  cases fault with
  | some n => rfl
  | none =>
    rw [if_pos rfl, AssetSession.deleteAsset]
    dsimp only
    split_ifs with hremoved
    · rfl
    · exact (deleteAssetOwnedData_eq_self (Bool.not_eq_true _ ▸ hremoved)).symm

/-- A request keeps the rows of other tenants exactly when every asset whose deletion goes through
spares them; and an id that a bulk request fails on leaves what was committed before it. -/
theorem isolated_iff (cfg : Settings) (now : Instant) (ctx : UserContext) (w : AssetStore) :
    (∀ fault assetId,
      w.KeepsOthers ctx ((AssetSession.start w).deleteAsset cfg now ctx fault assetId).committed ↔
        (fault = none → w.Spares cfg ctx assetId)) ∧
    (∀ fault assetIds,
      w.KeepsOthers ctx
          ((AssetSession.start w).bulkDelete cfg now ctx fault assetIds).session.committed ↔
        ∀ raw ∈ assetIds, Str.strip raw ≠ [] → fault (Str.strip raw) = none →
          w.Spares cfg ctx (Str.strip raw)) ∧
    ∀ fault assetIds raw, fault (Str.strip raw) ≠ none →
      ((AssetSession.start w).bulkDelete cfg now ctx fault (assetIds ++ [raw])).session.committed =
        ((AssetSession.start w).bulkDelete cfg now ctx fault assetIds).session.committed := by
  refine ⟨fun fault assetId => ?_, fun fault assetIds => ?_, fun fault assetIds raw hfault => ?_⟩
  · rw [committed_deleteAsset, keepsOthers_deletions_iff]
    split_ifs with hnone
    · rw [List.forall_mem_singleton]
      exact (forall_prop_of_true (p := fault = none) (q := fun _ => w.Spares cfg ctx assetId)
        hnone).symm
    · exact iff_of_true (fun id hid => absurd hid List.not_mem_nil) fun h => absurd h hnone
  · rw [committed_bulkDelete, keepsOthers_deletions_iff]
    constructor
    · intro h raw hraw hne hfault
      exact h _ (mem_executedIds.mpr
        ⟨List.mem_map_of_mem hraw, hne, List.not_mem_nil, hfault⟩)
    · intro h aid haid
      obtain ⟨hmem, hne, -, hfault⟩ := mem_executedIds.mp haid
      obtain ⟨raw, hraw, rfl⟩ := List.mem_map.mp hmem
      exact h raw hraw hne hfault
  · rw [AssetSession.bulkDelete, run_append, run_cons, run_nil]
    exact committed_step_of_fault hfault

end Isolation

section Shared

attribute [local instance] asciiUnicode

/-- An administrator of the tenant `acme`. -/
def acmeAdmin : UserContext where
  email := str "admin@acme"
  tenantId := some (str "acme")
  rawIdentity := str "admin@acme"
  crossTenant := false

/-- A package of the tenant `globex`, in a group of the name `svc-a`. -/
def globexPackage : SbomPackage where
  id := str "p-1"
  name := str "openssl"
  version := str "3.0.1"
  component := some (str "svc-a")
  language := none
  purl := none
  purlSource := none
  purlConfidence := none
  sources := []
  tenantId := some (str "globex")
  updatedAt := 1

/-- The deletion of `svc-a` by the administrator deletes it. -/
theorem not_isolated_globexPackage :
    ¬ ∀ (cfg : Settings) (now : Instant) (ctx : UserContext) (w : AssetStore),
        (∀ fault assetId,
          w.KeepsOthers ctx
            ((AssetSession.start w).deleteAsset cfg now ctx fault assetId).committed) ∧
        (∀ fault assetIds,
          w.KeepsOthers ctx
            ((AssetSession.start w).bulkDelete cfg now ctx fault assetIds).session.committed) ∧
        ∀ fault assetIds raw, fault (Str.strip raw) ≠ none →
          ((AssetSession.start w).bulkDelete cfg now ctx fault (assetIds ++ [raw])).session.committed =
            ((AssetSession.start w).bulkDelete cfg now ctx fault assetIds).session.committed := by
  intro h
  have hkeeps := (h ⟨false, []⟩ 2 acmeAdmin
    { AssetStore.ofAssetsDb .empty with sbomPackages := .singleton globexPackage }).1 none
    (str "svc-a")
  have hgone := congrArg List.length hkeeps.packages
  revert hgone
  decide +kernel

end Shared

end Vat
