import Vat.Correlation.Linking
import Vat.Python.Utf8
import Vat.Relational.Table

/-!
# OpenSCAP scans

The raw results of the OpenSCAP scans. A scan is stored under its asset and its source, with the
digest of its bytes, and the bytes are stored once for each digest. Rows that are older than the
digests have their bytes and no digest. What an XML says about its benchmark is a parameter, and so
is SHA-256.

Source: `backend/app/services/openscap_storage.py`, lines 38–157;
`backend/app/models/openscap_scan_result.py`; `backend/app/models/openscap_evidence_blob.py`;
`backend/app/api/assets.py`, lines 312–315;
`backend/alembic/versions/029_phase1_finding_identity.py`, lines 108–140.

## Main definitions

* `OpenscapTables`: the two tables, with what is recorded in them.
* `OpenscapTables.storeOpenscapScanResult`, `OpenscapTables.deleteAsset`,
  `OpenscapTables.listOpenscapScanResults`.

## Main results

* `OpenscapTables.hexdigest_of_mem_list`: a listed scan has the bytes of its digest.
* `OpenscapTables.nodup_list_keys`: no two listed scans have the same asset and source.
-/

namespace Vat

open Relational

/-- `hashlib.sha256(raw).hexdigest()`. -/
class Sha256Bytes where
  hexdigest : Bytes → Str

/-- The bytes themselves as a digest. -/
@[reducible] def bytesAsText : Sha256Bytes := ⟨fun raw => raw.map fun b => Char.ofNat b.toNat⟩

/-- What a result says about its benchmark. -/
structure Benchmark where
  benchmarkId : Option Str
  benchmarkFamily : Option Str
  profileScope : Option Str
  contentVersion : Option Str
deriving DecidableEq

/-- A row of the table `openscap_scan_results`. -/
structure OpenscapScanResult where
  assetId : Str
  sourceId : Str
  rawXccdfXml : Option Bytes
  evidenceSha256 : Option Str
  benchmark : Benchmark
  parserId : Str
  createdAt : Instant
  tenantId : Option Str
deriving DecidableEq

instance : Row OpenscapScanResult (Str × Str) (Str × Str) where
  pk r := (r.assetId, r.sourceId)
  uk r := (r.assetId, r.sourceId)

/-- A row of the table `openscap_evidence_blobs`. -/
structure OpenscapEvidenceBlob where
  sha256 : Str
  rawXml : Bytes

instance : Row OpenscapEvidenceBlob Str Str where
  pk := OpenscapEvidenceBlob.sha256
  uk := OpenscapEvidenceBlob.sha256

/-- The arguments of `store_openscap_scan_result`, at the instant `now`. -/
structure OpenscapStore where
  rawXml : Bytes
  parserId : Str
  sourceId : Str
  assetId : Str
  tenantId : Option Str
  now : Instant

/-- The order in which the database answers a query: the rows of one asset may come in any order. -/
structure ScanOrder where
  order : List OpenscapScanResult → List OpenscapScanResult
  perm : ∀ rows, (order rows).Perm rows

/-- Whose scans are asked for. -/
structure TenantScope where
  tenantId : Option Str
  crossTenant : Bool

variable [Sha256Bytes]

/-- `compute_evidence_sha256`. -/
def computeEvidenceSha256 (rawXml : Bytes) : Str := Sha256Bytes.hexdigest rawXml

/-- The row of a new scan. -/
def OpenscapStore.row (benchmarkOf : Bytes → Benchmark) (call : OpenscapStore) :
    OpenscapScanResult where
  assetId := call.assetId
  sourceId := call.sourceId
  rawXccdfXml := none
  evidenceSha256 := some (computeEvidenceSha256 call.rawXml)
  benchmark := benchmarkOf call.rawXml
  parserId := call.parserId
  createdAt := call.now
  tenantId := some (normalizeTenantId call.tenantId)

/-- The two tables: bytes under their digest, and no bytes in a row with a digest. -/
structure OpenscapTables where
  results : Table OpenscapScanResult
  blobs : Table OpenscapEvidenceBlob
  addressed : ∀ b ∈ blobs.rows, b.sha256 = computeEvidenceSha256 b.rawXml
  recorded : ∀ r ∈ results.rows, r.evidenceSha256 ≠ none → r.rawXccdfXml = none

namespace OpenscapTables

/-! ### Writes -/

/-- The tables when the digests are introduced: rows with their bytes and no digest. -/
def migrate (results : Table OpenscapScanResult)
    (hold : ∀ r ∈ results.rows, r.evidenceSha256 = none) : OpenscapTables where
  results := results
  blobs := .empty
  addressed _ hb := absurd hb List.not_mem_nil
  recorded r hr hsha := absurd (hold r hr) hsha

/-- The blobs with the bytes of a scan. -/
def blobsWith (t : OpenscapTables) (rawXml : Bytes) : Table OpenscapEvidenceBlob :=
  t.blobs.upsert ⟨computeEvidenceSha256 rawXml, rawXml⟩ id

/-- The results without the one that a scan replaces. -/
def resultsWithout (t : OpenscapTables) (assetId sourceId : Str) : Table OpenscapScanResult :=
  t.results.filter fun r => ¬ (r.assetId = assetId ∧ r.sourceId = sourceId)

theorem canInsert_row (t : OpenscapTables) (benchmarkOf : Bytes → Benchmark)
    (call : OpenscapStore) :
    (t.resultsWithout call.assetId call.sourceId).CanInsert (call.row benchmarkOf) := by
  have hother : ∀ r ∈ (t.resultsWithout call.assetId call.sourceId).rows,
      (r.assetId, r.sourceId) ≠ (call.assetId, call.sourceId) := by
    intro r hr hkey
    have hnot := (List.mem_filter.mp hr).2
    simp only [decide_eq_true_eq] at hnot
    exact hnot (Prod.mk.inj hkey)
  have hpk : Row.pk (call.row benchmarkOf) ∉
      (t.resultsWithout call.assetId call.sourceId).rows.map Row.pk := by
    intro h
    obtain ⟨r, hr, hkey⟩ := List.mem_map.mp h
    exact hother r hr hkey
  exact ⟨hpk, hpk⟩

/-- `store_openscap_scan_result`. -/
def storeOpenscapScanResult (benchmarkOf : Bytes → Benchmark) (t : OpenscapTables)
    (call : OpenscapStore) : OpenscapTables :=
  if call.rawXml = [] then t
  else
    { results := (t.resultsWithout call.assetId call.sourceId).insert (call.row benchmarkOf)
        (t.canInsert_row benchmarkOf call)
      blobs := t.blobsWith call.rawXml
      addressed := by
        intro b hb
        obtain hb | rfl | ⟨old, hold, -, heq⟩ := Table.mem_upsert hb
        · exact t.addressed b hb
        · rfl
        · rw [heq]
          exact t.addressed old hold
      recorded := by
        intro r hr hsha
        rcases List.mem_append.mp hr with hr | hr
        · exact t.recorded r (List.mem_filter.mp hr).1 hsha
        · rw [List.mem_singleton.mp hr]
          rfl }

/-- The scans of an asset that is deleted go with it. -/
def deleteAsset (t : OpenscapTables) (assetId : Str) : OpenscapTables where
  results := t.results.filter fun r => r.assetId ≠ assetId
  blobs := t.blobs
  addressed := t.addressed
  recorded r hr := t.recorded r (List.mem_filter.mp hr).1

/-! ### The list -/

/-- A row with the bytes of its digest, when it has no bytes of its own. -/
def hydrate (t : OpenscapTables) (r : OpenscapScanResult) : OpenscapScanResult :=
  if r.rawXccdfXml = none ∧ Str.truthy r.evidenceSha256 then
    { r with rawXccdfXml := (t.blobs.get? (Str.orEmpty r.evidenceSha256)).map (·.rawXml) }
  else r

/-- `list_openscap_scan_results`. -/
def listOpenscapScanResults (o : ScanOrder) (t : OpenscapTables) (scope : TenantScope) :
    List OpenscapScanResult :=
  let rows :=
    if scope.crossTenant then t.results.rows
    else if scope.tenantId = none then []
    else t.results.rows.filter fun r => CoalescedTenantEquals r.tenantId scope.tenantId
  (o.order rows).map t.hydrate

variable {t : OpenscapTables} {o : ScanOrder} {scope : TenantScope}

theorem key_hydrate (r : OpenscapScanResult) :
    ((t.hydrate r).assetId, (t.hydrate r).sourceId) = (r.assetId, r.sourceId) := by
  rw [hydrate]
  split_ifs <;> rfl

theorem mem_list {r : OpenscapScanResult} (h : r ∈ t.listOpenscapScanResults o scope) :
    ∃ row ∈ t.results.rows, r = t.hydrate row := by
  obtain ⟨row, hrow, rfl⟩ := List.mem_map.mp h
  refine ⟨row, ?_, rfl⟩
  rw [(o.perm _).mem_iff] at hrow
  split_ifs at hrow with hcross htenant
  · exact hrow
  · cases hrow
  · exact (List.mem_filter.mp hrow).1

/-- A listed scan has the bytes of its digest. -/
theorem hexdigest_of_mem_list {r : OpenscapScanResult} (h : r ∈ t.listOpenscapScanResults o scope)
    {raw : Bytes} (hraw : r.rawXccdfXml = some raw) {sha : Str}
    (hsha : r.evidenceSha256 = some sha) :
    computeEvidenceSha256 raw = sha := by
  obtain ⟨row, hrow, rfl⟩ := mem_list h
  rw [hydrate] at hraw hsha
  split_ifs at hraw hsha with hblob
  · obtain ⟨b, hb, rfl⟩ := Option.map_eq_some_iff.mp hraw
    have hdigest : row.evidenceSha256 = some sha := hsha
    rw [hdigest] at hb
    exact (t.addressed b (Table.mem_of_get? hb)).symm.trans (Table.pk_of_get? hb)
  · have hnone := t.recorded row hrow (by rw [hsha]; exact Option.some_ne_none _)
    rw [hnone] at hraw
    cases hraw

/-- No two listed scans have the same asset and source. -/
theorem nodup_list_keys :
    ((t.listOpenscapScanResults o scope).map fun r => (r.assetId, r.sourceId)).Nodup := by
  rw [listOpenscapScanResults, List.map_map]
  have hkeys : (fun r : OpenscapScanResult => (r.assetId, r.sourceId)) ∘ t.hydrate = Row.pk :=
    funext key_hydrate
  rw [hkeys, ((o.perm _).map Row.pk).nodup_iff]
  split_ifs with hcross htenant
  · exact t.results.pk_nodup
  · exact List.nodup_nil
  · exact t.results.pk_nodup.sublist (List.filter_sublist.map _)

end OpenscapTables

end Vat
