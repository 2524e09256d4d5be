import Vat.Export.OpenscapStorage
import Vat.Transition.Run

/-!
# The OpenSCAP evidence of a tenant

What a tenant is shown of the OpenSCAP scans, after any scans of any tenants. The scans are keyed by
their asset and their source, whoever stored them: a tenant sees a scan exactly when it was the last
to store one under that asset and source, and never the scan of another tenant.

Source: `backend/app/services/openscap_storage.py`, lines 64–158; `backend/app/core/tenancy.py`,
lines 15–42; `backend/app/models/openscap_scan_result.py`, lines 17–21.

## Main definitions

* `OpenscapStore.Under`: a call that stores a scan under an asset and a source.
* `lastStored`, `lastStoredBy`: the last of the calls that store a scan under an asset and a source,
  of any tenant and of one.

## Main results

* `OpenscapTables.get?_run`: the row under an asset and a source is that of the last scan stored
  there.
* `OpenscapTables.listed_after_run`: what a tenant is shown under an asset and a source.
-/

namespace Vat

open Relational Transition

instance : Table.SingleKey OpenscapScanResult := ⟨fun _ _ => Iff.rfl⟩

instance : Table.SingleKey OpenscapEvidenceBlob := ⟨fun _ _ => Iff.rfl⟩

/-- A call that stores a scan under an asset and a source: an empty document is not stored. -/
def OpenscapStore.Under (key : Str × Str) (call : OpenscapStore) : Prop :=
  call.rawXml ≠ [] ∧ (call.assetId, call.sourceId) = key

instance (key : Str × Str) (call : OpenscapStore) : Decidable (call.Under key) :=
  inferInstanceAs (Decidable (_ ∧ _))

/-- The tenant that a call stores for. -/
def OpenscapStore.OfTenant (tenantId : Option Str) (call : OpenscapStore) : Prop :=
  normalizeTenantId call.tenantId = normalizeTenantId tenantId

instance (tenantId : Option Str) (call : OpenscapStore) : Decidable (call.OfTenant tenantId) :=
  inferInstanceAs (Decidable (_ = _))

/-- The last of the calls that store a scan under an asset and a source. -/
def lastStored (calls : List OpenscapStore) (key : Str × Str) : Option OpenscapStore :=
  (calls.filter (·.Under key)).getLast?

/-- The last scan that a tenant stores under an asset and a source. -/
def lastStoredBy (tenantId : Option Str) (calls : List OpenscapStore) (key : Str × Str) :
    Option OpenscapStore :=
  lastStored (calls.filter (·.OfTenant tenantId)) key

theorem lastStored_append (calls : List OpenscapStore) (call : OpenscapStore) (key : Str × Str) :
    lastStored (calls ++ [call]) key =
      if call.Under key then some call else lastStored calls key := by
  rw [lastStored, List.filter_append]
  split_ifs with h
  · have hlast : [call].filter (·.Under key) = [call] := by simp [h]
    rw [hlast, List.getLast?_concat]
  · have hnone : [call].filter (·.Under key) = [] := by simp [h]
    rw [hnone, List.append_nil, lastStored]

theorem mem_of_lastStored {calls : List OpenscapStore} {key : Str × Str} {call : OpenscapStore}
    (h : lastStored calls key = some call) : call ∈ calls ∧ call.Under key := by
  obtain ⟨hmem, hunder⟩ := List.mem_filter.mp (List.mem_of_getLast? h)
  exact ⟨hmem, of_decide_eq_true hunder⟩

section Runs

variable [Sha256Bytes]

namespace OpenscapTables

variable (benchmarkOf : Bytes → Benchmark)

omit [Sha256Bytes] in
theorem evidenceSha256_of_mem_empty :
    ∀ r ∈ (Table.empty : Table OpenscapScanResult).rows, r.evidenceSha256 = none :=
  fun _ hr => absurd hr List.not_mem_nil

/-- The tables before any scan. -/
def initial : OpenscapTables :=
  .migrate .empty evidenceSha256_of_mem_empty

/-- The tables after some calls, from empty ones. -/
def after (calls : List OpenscapStore) : OpenscapTables :=
  run (storeOpenscapScanResult benchmarkOf) initial calls

variable {benchmarkOf}

theorem after_append (calls : List OpenscapStore) (call : OpenscapStore) :
    after benchmarkOf (calls ++ [call]) =
      storeOpenscapScanResult benchmarkOf (after benchmarkOf calls) call := by
  rw [after, run_append]
  rfl

/-! ### The rows -/

/-- What one call leaves under an asset and a source. -/
theorem get?_store (t : OpenscapTables) (call : OpenscapStore) (key : Str × Str) :
    (t.storeOpenscapScanResult benchmarkOf call).results.get? key =
      if call.Under key then some (call.row benchmarkOf) else t.results.get? key := by
  rw [storeOpenscapScanResult]
  by_cases hraw : call.rawXml = []
  · rw [if_pos hraw, if_neg fun h => h.1 hraw]
  rw [if_neg hraw]
  by_cases hkey : (call.assetId, call.sourceId) = key
  · have hunder : call.Under key := ⟨hraw, hkey⟩
    rw [if_pos hunder, Table.get?_insert]
    exact if_pos hkey
  · rw [if_neg fun h : call.Under key => hkey h.2, Table.get?_insert]
    have hrow : Row.pk (call.row benchmarkOf) ≠ key := hkey
    rw [if_neg hrow, resultsWithout, Table.get?_filter]
    -- the row under another key is not the one that is replaced
    cases hold : t.results.get? key with
    | none => rfl
    | some r =>
      refine Option.filter_some_pos (decide_eq_true ?_)
      rintro ⟨hasset, hsource⟩
      have hpk : (r.assetId, r.sourceId) = key := Table.pk_of_get? hold
      rw [hasset, hsource] at hpk
      exact hkey hpk

/-- The row under an asset and a source is that of the last scan stored there. -/
theorem get?_run (calls : List OpenscapStore) (key : Str × Str) :
    (after benchmarkOf calls).results.get? key =
      (lastStored calls key).map (·.row benchmarkOf) := by
  induction calls using List.reverseRecOn with
  | nil => rfl
  | append_singleton calls call ih =>
    rw [after_append, get?_store, lastStored_append, ih]
    split_ifs with hunder
    · rfl
    · rfl

/-! ### The documents -/

theorem blobs_store (t : OpenscapTables) (call : OpenscapStore) :
    (t.storeOpenscapScanResult benchmarkOf call).blobs =
      if call.rawXml = [] then t.blobs else t.blobsWith call.rawXml := by
  rw [storeOpenscapScanResult]
  split_ifs with hraw
  · rfl
  · rfl

theorem get?_blobsWith (t : OpenscapTables) (rawXml : Bytes) (sha : Str) :
    (t.blobsWith rawXml).get? sha =
      if sha = computeEvidenceSha256 rawXml then
        some ((t.blobs.get? sha).elim ⟨computeEvidenceSha256 rawXml, rawXml⟩ id)
      else t.blobs.get? sha :=
  Table.get?_upsert _ _ _ _ sha

/-- The documents are those of the calls. -/
theorem mem_blobs_run {calls : List OpenscapStore} {b : OpenscapEvidenceBlob}
    (hb : b ∈ (after benchmarkOf calls).blobs.rows) : ∃ call ∈ calls, b.rawXml = call.rawXml := by
  induction calls using List.reverseRecOn with
  | nil => cases hb
  | append_singleton calls call ih =>
    rw [after_append, blobs_store] at hb
    have hmem : b ∈ (after benchmarkOf calls).blobs.rows ∨ b.rawXml = call.rawXml := by
      split_ifs at hb with hraw
      · exact Or.inl hb
      · obtain hb | rfl | ⟨old, hold, -, rfl⟩ := Table.mem_upsert hb
        · exact Or.inl hb
        · exact Or.inr rfl
        · exact Or.inl hold
    rcases hmem with hb | hb
    · obtain ⟨c, hc, heq⟩ := ih hb
      exact ⟨c, List.mem_append_left _ hc, heq⟩
    · exact ⟨call, List.mem_append_right _ (List.mem_singleton_self call), hb⟩

/-- Every document of a call is under its digest. -/
theorem exists_blob_run {calls : List OpenscapStore} {call : OpenscapStore} (hcall : call ∈ calls)
    (hraw : call.rawXml ≠ []) :
    ∃ b, (after benchmarkOf calls).blobs.get? (computeEvidenceSha256 call.rawXml) = some b := by
  induction calls using List.reverseRecOn with
  | nil => cases hcall
  | append_singleton calls last ih =>
    rw [after_append, blobs_store]
    rcases List.mem_append.mp hcall with hcall | hcall
    · obtain ⟨b, hb⟩ := ih hcall
      split_ifs with hlast
      · exact ⟨b, hb⟩
      · rw [get?_blobsWith, hb]
        split_ifs with hsha
        · exact ⟨_, rfl⟩
        · exact ⟨b, rfl⟩
    · obtain rfl := List.mem_singleton.mp hcall
      rw [if_neg hraw, get?_blobsWith]
      exact ⟨_, if_pos rfl⟩

/-- A row of a call is listed with the document of the call. -/
theorem hydrate_row {calls : List OpenscapStore}
    (hhex : ∀ raw : Bytes, Sha256Bytes.hexdigest raw ≠ [])
    (hsha : ∀ c ∈ calls, ∀ c' ∈ calls,
      computeEvidenceSha256 c.rawXml = computeEvidenceSha256 c'.rawXml → c.rawXml = c'.rawXml)
    {call : OpenscapStore} (hcall : call ∈ calls) (hraw : call.rawXml ≠ []) :
    (after benchmarkOf calls).hydrate (call.row benchmarkOf) =
      { call.row benchmarkOf with rawXccdfXml := some call.rawXml } := by
  obtain ⟨b, hb⟩ : ∃ b, (after benchmarkOf calls).blobs.get?
      (computeEvidenceSha256 call.rawXml) = some b := exists_blob_run hcall hraw
  have hmem := Table.mem_of_get? hb
  obtain ⟨c, hc, hdoc⟩ := mem_blobs_run hmem
  have hdigest : computeEvidenceSha256 c.rawXml = computeEvidenceSha256 call.rawXml := by
    rw [← hdoc, ← (after benchmarkOf calls).addressed b hmem]
    exact Table.pk_of_get? hb
  have htruthy : Str.truthy (call.row benchmarkOf).evidenceSha256 = true := by
    simpa [OpenscapStore.row, Str.truthy, Str.orEmpty, computeEvidenceSha256] using
      hhex call.rawXml
  have hget : (after benchmarkOf calls).blobs.get?
      (Str.orEmpty (call.row benchmarkOf).evidenceSha256) = some b := hb
  rw [hydrate, if_pos ⟨rfl, htruthy⟩, hget, Option.map_some, hdoc, hsha c hc call hcall hdigest]

/-! ### What a tenant is shown -/

theorem list_tenant (t : OpenscapTables) (o : ScanOrder) (tenantId : Str) :
    t.listOpenscapScanResults o ⟨some tenantId, false⟩ =
      (o.order (t.results.filter fun r =>
        CoalescedTenantEquals r.tenantId (some tenantId)).rows).map t.hydrate := by
  rw [listOpenscapScanResults, if_neg Bool.false_ne_true, if_neg (Option.some_ne_none _),
    Table.rows_filter]

theorem list_no_tenant (t : OpenscapTables) (o : ScanOrder) :
    t.listOpenscapScanResults o ⟨none, false⟩ = [] := by
  rw [listOpenscapScanResults, if_neg Bool.false_ne_true, if_pos rfl]
  exact List.map_eq_nil_iff.mpr (o.perm []).eq_nil

/-- What a tenant is shown under an asset and a source: the last scan that was stored there, if the
tenant stored it. Whoever asks for no tenant is shown nothing. -/
theorem listed_after_run (hhex : ∀ raw : Bytes, Sha256Bytes.hexdigest raw ≠ [])
    {calls : List OpenscapStore}
    (hsha : ∀ c ∈ calls, ∀ c' ∈ calls,
      computeEvidenceSha256 c.rawXml = computeEvidenceSha256 c'.rawXml → c.rawXml = c'.rawXml)
    (benchmarkOf : Bytes → Benchmark) (o : ScanOrder) :
    (∀ (tenantId : Str) (key : Str × Str),
      ((after benchmarkOf calls).listOpenscapScanResults o ⟨some tenantId, false⟩).filter
          (fun r => (r.assetId, r.sourceId) = key) =
        ((lastStored calls key).filter (·.OfTenant (some tenantId))).toList.map fun call =>
          { call.row benchmarkOf with rawXccdfXml := some call.rawXml }) ∧
    (after benchmarkOf calls).listOpenscapScanResults o ⟨none, false⟩ = [] := by
  refine ⟨fun tenantId key => ?_, list_no_tenant _ o⟩
  have hkeys : (fun r : OpenscapScanResult => decide ((r.assetId, r.sourceId) = key)) ∘
      (after benchmarkOf calls).hydrate = fun r => decide (Row.pk r = key) :=
    funext fun r => by rw [Function.comp_apply, key_hydrate]; rfl
  rw [list_tenant, List.filter_map, hkeys, Table.filter_pk_of_perm (o.perm _),
    Table.get?_filter, get?_run]
  cases hlast : lastStored calls key with
  | none => rfl
  | some call =>
    obtain ⟨hcall, hraw, -⟩ := mem_of_lastStored hlast
    by_cases htenant : call.OfTenant (some tenantId)
    · have hrow : CoalescedTenantEquals (call.row benchmarkOf).tenantId (some tenantId) := htenant
      rw [Option.map_some, Option.filter_some_pos (by simpa using hrow),
        Option.filter_some_pos (by simpa using htenant)]
      exact congrArg (fun r => [r]) (hydrate_row hhex hsha hcall hraw)
    · have hrow : ¬ CoalescedTenantEquals (call.row benchmarkOf).tenantId (some tenantId) := htenant
      rw [Option.map_some, Option.filter_some_neg (by simpa using hrow),
        Option.filter_some_neg (by simpa using htenant)]
      rfl

end OpenscapTables

end Runs

/-! ### Two tenants with one asset -/

/-- The bytes themselves as a digest, after a mark. -/
@[reducible] def markedBytes : Sha256Bytes := ⟨fun raw => '#' :: bytesAsText.hexdigest raw⟩

/-- A benchmark of which nothing is known. -/
def Benchmark.unknown : Benchmark := ⟨none, none, none, none⟩

/-- The rows in the order of the table. -/
def ScanOrder.asStored : ScanOrder := ⟨id, fun _ => .refl _⟩

/-- The scan of an asset by a tenant. -/
def webScan (tenantId : String) (rawXml : Bytes) : OpenscapStore where
  rawXml := rawXml
  parserId := str "openscap"
  sourceId := str "OpenSCAP"
  assetId := str "web"
  tenantId := some (str tenantId)
  now := 0

section

attribute [local instance] markedBytes

/-- Two tenants store scans of an asset: the second is shown its scan, the first nothing. -/
theorem OpenscapTables.listed_after_two_scans :
    (∀ (tenantId : Str) (key : Str × Str),
      ((after (fun _ => .unknown) [webScan "t-1" [1], webScan "t-2" [2]]).listOpenscapScanResults
          .asStored ⟨some tenantId, false⟩).filter (fun r => (r.assetId, r.sourceId) = key) =
        ((lastStored [webScan "t-1" [1], webScan "t-2" [2]] key).filter
          (·.OfTenant (some tenantId))).toList.map fun call =>
            { call.row (fun _ => .unknown) with rawXccdfXml := some call.rawXml }) ∧
    (after (fun _ => .unknown) [webScan "t-1" [1], webScan "t-2" [2]]).listOpenscapScanResults
      .asStored ⟨none, false⟩ = [] :=
  listed_after_run (fun _ => List.cons_ne_nil _ _) (by decide) (fun _ => .unknown) .asStored

/-- The scan of a tenant is gone when another tenant stores one under the same asset and source. -/
theorem OpenscapTables.not_listed_by_tenant :
    ¬ ∀ (calls : List OpenscapStore) (tenantId : Option Str) (key : Str × Str),
      ((after (fun _ => .unknown) calls).listOpenscapScanResults .asStored
          ⟨tenantId, false⟩).filter (fun r => (r.assetId, r.sourceId) = key) =
        (lastStoredBy tenantId calls key).toList.map fun call =>
          { call.row (fun _ => .unknown) with rawXccdfXml := some call.rawXml } := by
  intro h
  exact absurd (h [webScan "t-1" [1], webScan "t-2" [2]] (some (str "t-1"))
    (str "web", str "OpenSCAP")) (by decide)

end

end Vat
