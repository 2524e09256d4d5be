import Mathlib.Data.List.Dedup
import Mathlib.Data.Option.Basic
import Vat.Correlation.Linking
import Vat.Ingest.Fingerprint
import Vat.Sbom.Cyclonedx
import Vat.Transition.Except
import Vat.Transition.Run

/-!
# Packages of imported documents

The table `sbom_packages`, its imports and its list. The license columns and the license findings
that an import adds for some packages are left out; where one of them cannot be added, the import
raises and changes nothing.

Source: `backend/app/services/sbom.py`, lines 48–62, 119–137, 382–461 and 634–674;
`backend/app/models/sbom.py`.

## Main definitions

* `SbomPackage`, `packageId`.
* `importSbom`, `listSbomPackages`.
* `SbomImport.Complete`, `SbomImport.Isolated`: what an import by one tenant owes to it and to
  others.
* `SbomImport.OwnsItsPackages`.

## Main results

* `holder_importEntries`: which package an id stands for after an import.
* `tenant_complete_iff`: in a run of imports by any tenants, when every import is complete and
  isolated.
-/

namespace Vat

open Relational Transition

/-- A row of the table `sbom_packages`. -/
structure SbomPackage where
  id : Str
  name : Str
  version : Str
  component : Option Str
  language : Option Str
  purl : Option Str
  purlSource : Option Str
  purlConfidence : Option Str
  sources : List SourceEntry
  tenantId : Option Str
  updatedAt : Instant

instance : Row SbomPackage Str Str where
  pk := SbomPackage.id
  uk := SbomPackage.id

instance : Table.SingleKey SbomPackage := ⟨fun _ _ => Iff.rfl⟩

/-- The arguments of `import_sbom`, at the instant `now`. -/
structure SbomImport where
  doc : CdxDocument
  source : Str
  component : Option Str
  tenantId : Str
  now : Instant

/-- The table and the two counts of an import. -/
structure SbomImportState where
  packages : Table SbomPackage
  created : ℕ
  updated : ℕ

/-- A row that the columns can hold. -/
def SbomPackage.FitsColumns (r : SbomPackage) : Prop :=
  r.name.length ≤ 256 ∧ r.version.length ≤ 128 ∧ (Str.orEmpty r.language).length ≤ 64

instance (r : SbomPackage) : Decidable r.FitsColumns := inferInstanceAs (Decidable (_ ∧ _))

section General

variable [Unicode] [CharTables] [UrlDecoding] [Sha256]

/-! ### Imports -/

omit [CharTables] [UrlDecoding] [Sha256] in
/-- `_canonicalize_container_image`. -/
def canonicalizeContainerImage (cfg : Settings) (value : Option Str) : Option Str :=
  if Str.truthy value ∧ inferAssetKind (Str.orEmpty value) [] = .container then
    some (applyContainerAssetPathAliases cfg.containerAssetPathAliases
      (normalizeContainerRef value).canonicalAssetKey)
  else value

omit [Unicode] [CharTables] [UrlDecoding] in
/-- `_package_id`. -/
def packageId (name version : Str) (component : Option Str) : Str :=
  (Sha256.hexdigest (name ++ str "|" ++ version ++ str "|" ++ Str.orEmpty component)).take 16

omit [CharTables] [UrlDecoding] [Sha256] in
/-- The asset that a package is on. -/
def SbomImport.componentOf (cfg : Settings) (call : SbomImport) (e : SbomEntry) : Option Str :=
  let comp := clip (Str.orElse e.component call.component) 256
  clip (Str.orElse (canonicalizeContainerImage cfg comp) comp) 256

omit [Unicode] [CharTables] [UrlDecoding] [Sha256] in
/-- The record of an import among the sources of a package. -/
def SbomImport.sourceEntry (call : SbomImport) : SourceEntry := ⟨call.source, floorSecond call.now⟩

/-- The row of a new package. -/
def SbomImport.row (cfg : Settings) (call : SbomImport) (e : SbomEntry) : SbomPackage where
  id := packageId e.name e.version (call.componentOf cfg e)
  name := e.name
  version := e.version
  component := call.componentOf cfg e
  language := e.language
  purl := e.purl
  purlSource := clip e.purlSource 32
  purlConfidence := clip e.purlConfidence 16
  sources := [call.sourceEntry]
  tenantId := some (normalizeTenantId (some call.tenantId))
  updatedAt := call.now

omit [Unicode] [CharTables] [UrlDecoding] [Sha256] in
/-- Whether an import is a new source of a package. -/
def SbomImport.addsSource (call : SbomImport) (existing : SbomPackage) : Bool :=
  !existing.sources.any fun s => s.name = call.source

omit [Unicode] [CharTables] [UrlDecoding] [Sha256] in
/-- Whether an entry brings the package URL that a package lacks. -/
def addsPurl (e : SbomEntry) (existing : SbomPackage) : Bool :=
  Str.strip (Str.orEmpty existing.purl) = [] && Str.truthy e.purl

omit [Unicode] [CharTables] [UrlDecoding] [Sha256] in
/-- An existing package after an entry with its id. -/
def SbomImport.merge (call : SbomImport) (e : SbomEntry) (existing : SbomPackage) : SbomPackage :=
  { existing with
    sources :=
      if call.addsSource existing then existing.sources ++ [call.sourceEntry] else existing.sources
    purl := if addsPurl e existing then clip e.purl 512 else existing.purl
    purlSource := if addsPurl e existing then clip e.purlSource 32 else existing.purlSource
    purlConfidence :=
      if addsPurl e existing then clip e.purlConfidence 16 else existing.purlConfidence
    updatedAt :=
      if call.addsSource existing || addsPurl e existing then call.now else existing.updatedAt }

omit [Unicode] [CharTables] [UrlDecoding] [Sha256] in
theorem SbomImport.keepsKeys_merge (call : SbomImport) (e : SbomEntry) :
    KeepsKeys (call.merge e) := fun _ => ⟨rfl, rfl⟩

/-- The packages after an entry: it is looked up by its id, without a look at its tenant. -/
def SbomImport.upsertEntry (cfg : Settings) (call : SbomImport) (packages : Table SbomPackage)
    (e : SbomEntry) : Table SbomPackage :=
  packages.upsert (call.row cfg e) (call.merge e) (call.keepsKeys_merge e)

/-- One package of an import. -/
def SbomImport.importEntry (cfg : Settings) (call : SbomImport) (s : SbomImportState)
    (e : SbomEntry) : Except Str SbomImportState :=
  match s.packages.get? (call.row cfg e).id with
  | some existing =>
    .ok ⟨call.upsertEntry cfg s.packages e, s.created,
      if call.addsSource existing || addsPurl e existing then s.updated + 1 else s.updated⟩
  | none =>
    if (call.row cfg e).FitsColumns then
      .ok ⟨call.upsertEntry cfg s.packages e, s.created + 1, s.updated⟩
    else .error (str "value too long for type character varying")

/-- `import_sbom`. -/
def importSbom (cfg : Settings) (packages : Table SbomPackage) (call : SbomImport) :
    Except Str SbomImportState :=
  (parseCyclonedx call.doc).foldlM (call.importEntry cfg) ⟨packages, 0, 0⟩

/-- The table after an import; one that raises changes nothing. -/
def importStep (cfg : Settings) (packages : Table SbomPackage) (call : SbomImport) :
    Table SbomPackage :=
  match importSbom cfg packages call with
  | .ok s => s.packages
  | .error _ => packages

/-! ### The list -/

/-- The order in which the database answers a query without `ORDER BY`. -/
structure AnswerOrder where
  order : List SbomPackage → List SbomPackage
  perm : ∀ rows, (order rows).Perm rows

omit [Unicode] [CharTables] [UrlDecoding] [Sha256] in
/-- The packages of a tenant. -/
def tenantPackages (packages : Table SbomPackage) (tenantId : Str) : List SbomPackage :=
  packages.rows.filter fun r => CoalescedTenantEquals r.tenantId (some tenantId)

omit [Unicode] [CharTables] [UrlDecoding] [Sha256] in
/-- `list_sbom_packages` for a caller with a tenant, without a component to filter by. -/
def listSbomPackages (o : AnswerOrder) (packages : Table SbomPackage) (tenantId : Str) (limit : ℕ) :
    List SbomPackage :=
  (o.order (tenantPackages packages tenantId)).take limit

/-! ### What an import owes to tenants -/

/-- A package stored under the name, version and asset of an entry. -/
def SbomImport.Stores (cfg : Settings) (call : SbomImport) (r : SbomPackage) (e : SbomEntry) : Prop :=
  r.name = e.name ∧ r.version = e.version ∧ r.component = call.componentOf cfg e

omit [Unicode] [CharTables] [UrlDecoding] [Sha256] in
/-- A package of the tenant of an import. -/
def SbomImport.Owns (call : SbomImport) (r : SbomPackage) : Prop :=
  CoalescedTenantEquals r.tenantId (some call.tenantId)

/-- The list shows the tenant every package of the document. -/
def SbomImport.Complete (cfg : Settings) (limit : ℕ) (call : SbomImport)
    (packages : Table SbomPackage) : Prop :=
  ∀ o : AnswerOrder, ∀ e ∈ parseCyclonedx call.doc,
    ∃ r ∈ listSbomPackages o packages call.tenantId limit, call.Stores cfg r e

omit [Unicode] [CharTables] [UrlDecoding] [Sha256] in
/-- The packages of other tenants are as they were. -/
def SbomImport.Isolated (call : SbomImport) (packages packages' : Table SbomPackage) : Prop :=
  ∀ r ∈ packages.rows, ¬ call.Owns r → packages'.get? r.id = some r

/-- No id of the document stands for anything else than one package of the tenant, and the list is
long enough for the tenant's packages. -/
structure SbomImport.OwnsItsPackages (cfg : Settings) (limit : ℕ) (call : SbomImport)
    (packages : Table SbomPackage) : Prop where
  stored : ∀ e ∈ parseCyclonedx call.doc, ∀ r,
    packages.get? (call.row cfg e).id = some r → call.Owns r ∧ call.Stores cfg r e
  distinct : ∀ e ∈ parseCyclonedx call.doc, ∀ e' ∈ parseCyclonedx call.doc,
    (call.row cfg e').id = (call.row cfg e).id → call.Stores cfg (call.row cfg e') e
  listed : parseCyclonedx call.doc ≠ [] →
    ((tenantPackages packages call.tenantId).map SbomPackage.id ++
      (parseCyclonedx call.doc).map fun e => (call.row cfg e).id).dedup.length ≤ limit

/-! ### What is stored after an import -/

omit [Unicode] [CharTables] [UrlDecoding] [Sha256] in
theorem SbomPackage.get?_id {packages : Table SbomPackage} {r : SbomPackage}
    (h : r ∈ packages.rows) : packages.get? r.id = some r := Table.get?_pk_of_mem h

omit [Unicode] [CharTables] [UrlDecoding] [Sha256] in
theorem SbomPackage.id_of_get? {packages : Table SbomPackage} {id : Str} {r : SbomPackage}
    (h : packages.get? id = some r) : r.id = id := Table.pk_of_get? h

/-- Every id is the digest of what its row names. -/
def Keyed (packages : Table SbomPackage) : Prop :=
  ∀ r ∈ packages.rows, r.id = packageId r.name r.version r.component

section Imports

variable {cfg : Settings} {packages : Table SbomPackage} {call : SbomImport} {limit : ℕ}

omit [CharTables] [UrlDecoding] in
theorem packages_of_importEntry {s s' : SbomImportState} {e : SbomEntry}
    (h : call.importEntry cfg s e = .ok s') : s'.packages = call.upsertEntry cfg s.packages e := by
  rw [SbomImport.importEntry] at h
  split at h
  · cases h
    rfl
  · split at h
    · cases h
      rfl
    · cases h

omit [CharTables] [UrlDecoding] in
/-- A package is refused if it is new and too long for its columns. -/
theorem exists_importEntry_iff {s : SbomImportState} {e : SbomEntry} :
    (∃ s', call.importEntry cfg s e = .ok s') ↔
      (s.packages.get? (call.row cfg e).id).isSome ∨ (call.row cfg e).FitsColumns := by
  rw [SbomImport.importEntry]
  cases s.packages.get? (call.row cfg e).id with
  | some r => exact iff_of_true ⟨_, rfl⟩ (.inl rfl)
  | none =>
    dsimp only
    split_ifs with hfits
    · exact iff_of_true ⟨_, rfl⟩ (.inr hfits)
    · refine iff_of_false (fun h => ?_) fun h => ?_
      · obtain ⟨s', hs'⟩ := h
        cases hs'
      · rcases h with h | h
        · cases h
        · exact hfits h

/-- An import that succeeds is an upsert of each of its packages. -/
theorem packages_of_importSbom {s : SbomImportState} (hok : importSbom cfg packages call = .ok s) :
    s.packages = Table.upsertEach (call.row cfg) call.merge call.keepsKeys_merge packages
      (parseCyclonedx call.doc) := by
  have hall : ∀ {l : List SbomEntry} {s s' : SbomImportState},
      l.foldlM (call.importEntry cfg) s = .ok s' →
        s'.packages = Table.upsertEach (call.row cfg) call.merge call.keepsKeys_merge s.packages l := by
    intro l
    induction l with
    | nil =>
      intro s s' h
      cases h
      rfl
    | cons e l ih =>
      intro s s' h
      rw [List.foldlM_cons] at h
      obtain ⟨mid, hmid, hrest⟩ := bind_eq_ok_iff.mp h
      rw [ih hrest, packages_of_importEntry hmid]
      rfl
  exact hall hok

omit [Unicode] [CharTables] [UrlDecoding] [Sha256] in
/-- A package as its tenant and its name tell it from others. -/
def SbomPackage.label (r : SbomPackage) : Option Str × Str × Str × Option Str :=
  (r.tenantId, r.name, r.version, r.component)

/-- Which package an id stands for after an import. -/
theorem label_after_import {s : SbomImportState} (hok : importSbom cfg packages call = .ok s)
    (id : Str) : (s.packages.get? id).map SbomPackage.label =
      (packages.get? id <|> ((parseCyclonedx call.doc).map (call.row cfg)).find? fun r => r.id = id).map
        SbomPackage.label := by
  have hmerge : ∀ e r, (call.merge e r).label = r.label := fun _ _ => rfl
  rw [packages_of_importSbom hok]
  exact Table.map_get?_upsertEach hmerge packages (parseCyclonedx call.doc) id

omit [CharTables] [UrlDecoding] in
theorem keyed_upsertEach (hkeyed : Keyed packages) (l : List SbomEntry) :
    Keyed (Table.upsertEach (call.row cfg) call.merge call.keepsKeys_merge packages l) := by
  induction l generalizing packages with
  | nil => exact hkeyed
  | cons e l ih =>
    refine ih fun r hr => ?_
    rcases Table.mem_upsert hr with hold | rfl | ⟨old, hold, -, rfl⟩
    · exact hkeyed r hold
    · rfl
    · exact hkeyed old hold

theorem keyed_importStep (hkeyed : Keyed packages) : Keyed (importStep cfg packages call) := by
  rw [importStep]
  split
  · rename_i s hok
    rw [packages_of_importSbom hok]
    exact keyed_upsertEach hkeyed _
  · exact hkeyed

omit [CharTables] [UrlDecoding] in
theorem SbomImport.Stores.id_eq {r : SbomPackage} {e : SbomEntry} (h : call.Stores cfg r e)
    (hid : r.id = packageId r.name r.version r.component) : r.id = (call.row cfg e).id := by
  rw [hid, h.1, h.2.1, h.2.2]
  rfl

/-- A row and the one that an import leaves under its id have the same label. -/
theorem exists_get?_of_label {s : SbomImportState} (hok : importSbom cfg packages call = .ok s)
    (id : Str) (r : SbomPackage)
    (h : (packages.get? id <|> ((parseCyclonedx call.doc).map (call.row cfg)).find? fun r => r.id = id) =
      some r) : ∃ r', s.packages.get? id = some r' ∧ r'.label = r.label := by
  have hlabel := label_after_import hok id
  rw [h, Option.map_some, Option.map_eq_some_iff] at hlabel
  exact hlabel

/-- Under an entry's id there was a package, or the id stands for the first entry that has it. -/
theorem exists_holder (packages : Table SbomPackage) {e : SbomEntry}
    (he : e ∈ parseCyclonedx call.doc) :
    (∃ r, packages.get? (call.row cfg e).id = some r) ∨
      packages.get? (call.row cfg e).id = none ∧ ∃ e' ∈ parseCyclonedx call.doc,
        (call.row cfg e').id = (call.row cfg e).id ∧
          (((parseCyclonedx call.doc).map (call.row cfg)).find? fun r => r.id = (call.row cfg e).id) =
            some (call.row cfg e') := by
  cases hget : packages.get? (call.row cfg e).id with
  | some r => exact .inl ⟨r, rfl⟩
  | none =>
    refine .inr ⟨rfl, ?_⟩
    have hsome : (((parseCyclonedx call.doc).map (call.row cfg)).find?
        fun r => r.id = (call.row cfg e).id).isSome := by
      rw [List.find?_isSome]
      exact ⟨_, List.mem_map_of_mem he, by simp⟩
    obtain ⟨r, hr⟩ := Option.isSome_iff_exists.mp hsome
    obtain ⟨e', he', rfl⟩ := List.mem_map.mp (List.mem_of_find?_eq_some hr)
    exact ⟨e', he', by simpa using List.find?_some hr, hr⟩

omit [CharTables] [UrlDecoding] in
theorem owns_row (e : SbomEntry) : call.Owns (call.row cfg e) := rfl

omit [Unicode] [CharTables] [UrlDecoding] [Sha256] in
theorem SbomImport.Owns.of_label {r r' : SbomPackage} (h : r'.label = r.label) :
    call.Owns r' ↔ call.Owns r := by
  rw [SbomImport.Owns, SbomImport.Owns, (Prod.mk.inj h).1]

omit [CharTables] [UrlDecoding] [Sha256] in
theorem SbomImport.Stores.of_label {r r' : SbomPackage} {e : SbomEntry} (h : r'.label = r.label) :
    call.Stores cfg r' e ↔ call.Stores cfg r e := by
  obtain ⟨-, hname, hversion, hcomponent⟩ := by simpa [SbomPackage.label] using h
  rw [SbomImport.Stores, SbomImport.Stores, hname, hversion, hcomponent]

omit [Unicode] [CharTables] [UrlDecoding] [Sha256] in
theorem mem_tenantPackages {r : SbomPackage} {tenantId : Str} :
    r ∈ tenantPackages packages tenantId ↔
      r ∈ packages.rows ∧ CoalescedTenantEquals r.tenantId (some tenantId) := by
  rw [tenantPackages, List.mem_filter, decide_eq_true_eq]

omit [Unicode] [CharTables] [UrlDecoding] [Sha256] in
theorem nodup_tenantPackages (packages : Table SbomPackage) (tenantId : Str) :
    ((tenantPackages packages tenantId).map SbomPackage.id).Nodup :=
  packages.pk_nodup.sublist (List.filter_sublist.map _)

/-- When no id of the document is another tenant's, the tenant's ids after an import are the ones
before it and those of the document. -/
theorem length_tenantPackages_after {s : SbomImportState} (hok : importSbom cfg packages call = .ok s)
    (hstored : ∀ e ∈ parseCyclonedx call.doc, ∀ r,
      packages.get? (call.row cfg e).id = some r → call.Owns r) :
    (tenantPackages s.packages call.tenantId).length =
      ((tenantPackages packages call.tenantId).map SbomPackage.id ++
        (parseCyclonedx call.doc).map fun e => (call.row cfg e).id).dedup.length := by
  have hmem : ∀ id, id ∈ (tenantPackages s.packages call.tenantId).map SbomPackage.id ↔
      id ∈ ((tenantPackages packages call.tenantId).map SbomPackage.id ++
        (parseCyclonedx call.doc).map fun e => (call.row cfg e).id).dedup := by
    intro id
    rw [List.mem_dedup, List.mem_append, List.mem_map, List.mem_map, List.mem_map]
    constructor
    · rintro ⟨r', hr', rfl⟩
      obtain ⟨hrow, howns⟩ := mem_tenantPackages.mp hr'
      have hlabel := label_after_import hok r'.id
      rw [SbomPackage.get?_id hrow, Option.map_some, eq_comm, Option.map_eq_some_iff] at hlabel
      obtain ⟨r, hr, hlabel⟩ := hlabel
      rcases (Option.orElse_eq_some _ _ _).mp hr with hold | ⟨-, hnew⟩
      · have howns' : call.Owns r := (SbomImport.Owns.of_label hlabel).mpr howns
        exact .inl ⟨r, mem_tenantPackages.mpr ⟨Table.mem_of_get? hold, howns'⟩, Table.pk_of_get? hold⟩
      · obtain ⟨e, he, rfl⟩ := List.mem_map.mp (List.mem_of_find?_eq_some hnew)
        exact .inr ⟨e, he, by simpa using List.find?_some hnew⟩
    · have hleft : ∀ {r : SbomPackage}, (packages.get? r.id <|>
          ((parseCyclonedx call.doc).map (call.row cfg)).find? fun q => q.id = r.id) = some r →
            call.Owns r → ∃ a ∈ tenantPackages s.packages call.tenantId, a.id = r.id := by
        intro r hr howns
        obtain ⟨r', hr', hlabel⟩ := exists_get?_of_label hok _ _ hr
        exact ⟨r', mem_tenantPackages.mpr ⟨Table.mem_of_get? hr',
          (SbomImport.Owns.of_label hlabel).mpr howns⟩, Table.pk_of_get? hr'⟩
      rintro (⟨r, hr, rfl⟩ | ⟨e, he, rfl⟩)
      · obtain ⟨hrow, howns⟩ := mem_tenantPackages.mp hr
        exact hleft (by rw [SbomPackage.get?_id hrow]; rfl) howns
      · rcases exists_holder packages he with ⟨r, hr⟩ | ⟨hnone, e', he', hid, hfind⟩
        · have howns := hstored e he r hr
          have hid := SbomPackage.id_of_get? hr
          rw [← hid] at hr ⊢
          exact hleft (by rw [hr]; rfl) howns
        · rw [← hid] at hnone hfind ⊢
          exact hleft (by rw [hnone, hfind]; rfl) (owns_row e')
  have hperm := (List.perm_ext_iff_of_nodup (nodup_tenantPackages s.packages call.tenantId)
    (List.nodup_dedup _)).mpr hmem
  rw [← hperm.length_eq, List.length_map]

/-! ### Complete and isolated imports -/

omit [Unicode] [CharTables] [UrlDecoding] [Sha256] in
/-- The order that has the package of an id last. -/
def AnswerOrder.putLast (id : Str) : AnswerOrder where
  order rows := rows.filter (fun r => r.id ≠ id) ++ rows.filter fun r => r.id = id
  perm rows := by
    have hperm := List.filter_append_perm (fun r : SbomPackage => decide (r.id ≠ id)) rows
    simpa using hperm

omit [Unicode] [CharTables] [UrlDecoding] [Sha256] in
/-- A list that shows a package in every order is long enough for all packages. -/
theorem length_le_of_listed {tenantId id : Str} {r : SbomPackage}
    (hr : r ∈ listSbomPackages (AnswerOrder.putLast id) packages tenantId limit) (hid : r.id = id) :
    (tenantPackages packages tenantId).length ≤ limit := by
  set rows := tenantPackages packages tenantId with hrows
  have hlen : (rows.filter fun r => r.id = id).length ≤ 1 := by
    have hnodup : ((rows.filter fun r => r.id = id).map SbomPackage.id).Nodup :=
      (nodup_tenantPackages packages tenantId).sublist (List.filter_sublist.map _)
    rw [List.map_congr_left fun q hq => (by simpa using (List.mem_filter.mp hq).2 : q.id = id),
      List.map_const', List.nodup_replicate] at hnodup
    exact hnodup
  have hlt : (rows.filter fun r => r.id ≠ id).length < limit := by
    by_contra hge
    have htake : r ∈ rows.filter fun r => r.id ≠ id := by
      rw [listSbomPackages, ← hrows, AnswerOrder.putLast,
        List.take_append_of_le_length (Nat.le_of_not_lt hge)] at hr
      exact List.mem_of_mem_take hr
    have hne : r.id ≠ id := by simpa using (List.mem_filter.mp htake).2
    exact hne hid
  have hperm := ((AnswerOrder.putLast id).perm rows).length_eq
  rw [AnswerOrder.putLast, List.length_append] at hperm
  omega

/-- An import is complete and isolated exactly if the tenant owns what the ids of the document stand
for. -/
theorem complete_and_isolated_iff (hkeyed : Keyed packages) {s : SbomImportState}
    (hok : importSbom cfg packages call = .ok s) :
    (call.Complete cfg limit s.packages ∧ call.Isolated packages s.packages) ↔
      call.OwnsItsPackages cfg limit packages := by
  have hkeyed' : Keyed s.packages := by
    rw [packages_of_importSbom hok]
    exact keyed_upsertEach hkeyed _
  constructor
  · rintro ⟨hcomplete, -⟩
    -- whatever an entry's id stands for afterwards is listed under the entry's name
    have hafter : ∀ e ∈ parseCyclonedx call.doc, ∀ r, s.packages.get? (call.row cfg e).id = some r →
        call.Owns r ∧ call.Stores cfg r e := by
      intro e he r hr
      obtain ⟨q, hq, hstores⟩ := hcomplete (.putLast []) e he
      obtain ⟨hqrow, howns⟩ := mem_tenantPackages.mp
        (((AnswerOrder.putLast []).perm _).mem_iff.mp (List.mem_of_mem_take hq))
      have hqget := SbomPackage.get?_id hqrow
      rw [hstores.id_eq (hkeyed' q hqrow), hr] at hqget
      obtain rfl := Option.some.inj hqget
      exact ⟨howns, hstores⟩
    have hstored : ∀ e ∈ parseCyclonedx call.doc, ∀ r, packages.get? (call.row cfg e).id = some r →
        call.Owns r ∧ call.Stores cfg r e := by
      intro e he r hr
      obtain ⟨r', hr', hlabel⟩ := exists_get?_of_label hok (call.row cfg e).id r (by rw [hr]; rfl)
      obtain ⟨howns, hstores⟩ := hafter e he r' hr'
      exact ⟨(SbomImport.Owns.of_label hlabel).mp howns, (SbomImport.Stores.of_label hlabel).mp hstores⟩
    refine ⟨hstored, ?_, ?_⟩
    · intro e he e' he' hid
      obtain ⟨r, hr⟩ : ∃ r, s.packages.get? (call.row cfg e).id = some r := by
        rcases exists_holder packages he with ⟨r, hr⟩ | ⟨hnone, e₀, -, -, hfind⟩
        · exact (exists_get?_of_label hok _ r (by rw [hr]; rfl)).imp fun _ h => h.1
        · exact (exists_get?_of_label hok _ _ (by rw [hnone, hfind]; rfl)).imp fun _ h => h.1
      have hstores := (hafter e he r hr).2
      have hstores' := (hafter e' he' r (hid ▸ hr)).2
      exact ⟨hstores'.1.symm.trans hstores.1, hstores'.2.1.symm.trans hstores.2.1,
        hstores'.2.2.symm.trans hstores.2.2⟩
    · intro hne
      obtain ⟨e, he⟩ := List.exists_mem_of_ne_nil _ hne
      obtain ⟨q, hq, hstores⟩ := hcomplete (.putLast (call.row cfg e).id) e he
      have hqrow := (mem_tenantPackages.mp
        (((AnswerOrder.putLast _).perm _).mem_iff.mp (List.mem_of_mem_take hq))).1
      rw [← length_tenantPackages_after hok fun e he r hr => (hstored e he r hr).1]
      exact length_le_of_listed hq (hstores.id_eq (hkeyed' q hqrow))
  · rintro ⟨hstored, hdistinct, hlisted⟩
    constructor
    · intro o e he
      obtain ⟨r, hr, howns, hstores⟩ : ∃ r, s.packages.get? (call.row cfg e).id = some r ∧
          call.Owns r ∧ call.Stores cfg r e := by
        rcases exists_holder packages he with ⟨r, hr⟩ | ⟨hnone, e₀, he₀, hid, hfind⟩
        · obtain ⟨r', hr', hlabel⟩ := exists_get?_of_label hok (call.row cfg e).id r (by rw [hr]; rfl)
          obtain ⟨howns, hstores⟩ := hstored e he r hr
          exact ⟨r', hr', (SbomImport.Owns.of_label hlabel).mpr howns,
            (SbomImport.Stores.of_label hlabel).mpr hstores⟩
        · obtain ⟨r', hr', hlabel⟩ := exists_get?_of_label hok (call.row cfg e).id (call.row cfg e₀)
            (by rw [hnone, hfind]; rfl)
          exact ⟨r', hr', (SbomImport.Owns.of_label hlabel).mpr (owns_row e₀),
            (SbomImport.Stores.of_label hlabel).mpr (hdistinct e he e₀ he₀ hid)⟩
      have hlen : (o.order (tenantPackages s.packages call.tenantId)).length ≤ limit := by
        rw [(o.perm _).length_eq,
          length_tenantPackages_after hok fun e he r hr => (hstored e he r hr).1]
        exact hlisted (List.ne_nil_of_mem he)
      refine ⟨r, ?_, hstores⟩
      rw [listSbomPackages, List.take_of_length_le hlen, (o.perm _).mem_iff, mem_tenantPackages]
      exact ⟨Table.mem_of_get? hr, howns⟩
    · intro r hr hother
      have hne : ∀ e ∈ parseCyclonedx call.doc, r.id ≠ (call.row cfg e).id := fun e he hid =>
        hother (hstored e he r (hid ▸ SbomPackage.get?_id hr)).1
      rw [packages_of_importSbom hok, Table.get?_upsertEach_of_ne hne, SbomPackage.get?_id hr]

/-- In a run of imports by any tenants, every import that succeeds is complete and isolated exactly
if its tenant owns what the ids of its document stand for. -/
theorem tenant_complete_iff (calls : List SbomImport) :
    (∀ pre call post, calls = pre ++ call :: post →
      ∀ s, importSbom cfg (run (importStep cfg) .empty pre) call = .ok s →
        call.Complete cfg limit s.packages ∧
          call.Isolated (run (importStep cfg) .empty pre) s.packages) ↔
      Along (importStep cfg)
        (fun packages call => ∀ s, importSbom cfg packages call = .ok s →
          call.OwnsItsPackages cfg limit packages) .empty calls := by
  have hkeyed : ∀ pre, Keyed (run (importStep cfg) .empty pre) :=
    run_induction (fun _ _ h => keyed_importStep h) fun _ hr => absurd hr List.not_mem_nil
  rw [along_iff_forall_split]
  constructor
  · intro h pre call post heq s hok
    exact (complete_and_isolated_iff (hkeyed pre) hok).mp (h pre call post heq s hok)
  · intro h pre call post heq s hok
    exact (complete_and_isolated_iff (hkeyed pre) hok).mpr (h pre call post heq s hok)

end Imports

end General

/-! ### Two tenants with one document -/

section SharedDocument

attribute [local instance] asciiUnicode asciiCharTables plainDecoding unaryDigest

/-- A document with one package. -/
def opensslDocument : CdxDocument where
  components := [⟨some (str "openssl"), some (str "3.0.1"), [], some (str "svc-a"), none, none, none⟩]
  metadataProperties := []
  metadataName := none

/-- An import of it. -/
def opensslImport (source tenantId : String) : SbomImport :=
  ⟨opensslDocument, str source, none, str tenantId, 1000000⟩

/-- The package that the first tenant has imported is no package of the second, and no second row is
added. -/
theorem not_tenant_complete :
    ¬ ∀ (cfg : Settings) (pre : List SbomImport) (call : SbomImport) (s : SbomImportState),
        importSbom cfg (run (importStep cfg) .empty pre) call = .ok s →
          call.Complete cfg 500 s.packages ∧
            call.Isolated (run (importStep cfg) .empty pre) s.packages := by
  intro h
  have hok : importSbom ⟨false, []⟩
      (run (importStep ⟨false, []⟩) .empty [opensslImport "ci" "acme"])
        (opensslImport "ci" "globex") =
      .ok ⟨run (importStep ⟨false, []⟩) .empty [opensslImport "ci" "acme", opensslImport "ci" "globex"],
        0, 0⟩ := by rfl
  obtain ⟨e, he⟩ : ∃ e, e ∈ parseCyclonedx (opensslImport "ci" "globex").doc := ⟨_, List.mem_cons_self⟩
  obtain ⟨r, hr, -⟩ := (h _ _ _ _ hok).1 (.putLast []) e he
  have hnone : tenantPackages (run (importStep ⟨false, []⟩) .empty
      [opensslImport "ci" "acme", opensslImport "ci" "globex"]) (str "globex") = [] := by rfl
  have hmem := ((AnswerOrder.putLast []).perm _).mem_iff.mp (List.mem_of_mem_take hr)
  exact List.not_mem_nil (hnone ▸ hmem)

end SharedDocument

end Vat
