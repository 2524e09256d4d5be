import Vat.Ingest.Severity
import Vat.Keyed.Gather
import Vat.Relational.Batch
import Vat.Sbom.Packages

/-!
# License findings of imported documents

An import makes a finding for a package whose license is of critical or high risk, unless there is a
finding with its fingerprint. It looks at the first license of a component and not at license
expressions, and the fingerprint is made of the license, the name of the package and its asset in
lower case, without the version and cut at the first `@`. The id of a finding is the beginning of
its fingerprint; an import that makes a second finding with one id raises, as it does with a text
that is too long for its column, and then changes nothing.

For every finding it is kept for which occurrence of a license it was made, so that it can be said
whether an occurrence has its finding; the code keeps no such record. The columns of findings that
correlation and tags write, the assets and the links between findings are left out, as is the merge
of assets that follows an import.

Source: `backend/app/services/sbom.py`, lines 196–216 and 382–552; `backend/app/models/sbom.py`,
lines 13–85; `backend/app/models/finding.py`, lines 58–78.

## Main definitions

* `LicensedImport`, `LicenseOccurrence`, `LicenseFindings`.
* `importSbomLicenses`: `import_sbom` with its license findings.
* `LicensedImport.Storable`: nothing that an import stores is refused.
* `LicensesImported`: what is asked of an import.

## Main results

* `madeFor_import`: for which occurrences an import makes findings.
* `licensesImported_iff`.
-/

namespace Vat

open Relational Transition

/-! ### Documents -/

/-- An entry of `licenses`: a license with an id and a name, an expression, or a text. -/
inductive LicenseChoice
  | license (id name : Option Str)
  | expression (e : Str)
  | text (s : Str)

/-- The license that an import reads in an entry. -/
def LicenseChoice.licenseId : LicenseChoice → Option Str
  | .license id name => Str.orElse id name
  | .expression _ => none
  | .text s => some s

/-- The license that an entry declares. -/
def LicenseChoice.declared : LicenseChoice → Option Str
  | .expression e => some e
  | l => l.licenseId

structure DeclaringComponent extends CdxComponent where
  licenses : List LicenseChoice

structure DeclaringDocument where
  components : List DeclaringComponent
  metadataProperties : List (Option Str × Option Str)
  metadataName : Option Str

/-- The document without its licenses. -/
def DeclaringDocument.cdx (doc : DeclaringDocument) : CdxDocument where
  components := doc.components.map DeclaringComponent.toCdxComponent
  metadataProperties := doc.metadataProperties
  metadataName := doc.metadataName

/-- The arguments of `import_sbom` that packages and license findings are made of. -/
structure LicensedImport where
  doc : DeclaringDocument
  source : Str
  component : Option Str
  findingAsset : Option Str
  tenantId : Str
  now : Instant

/-- The import of the packages. -/
def LicensedImport.packages (call : LicensedImport) : SbomImport where
  doc := call.doc.cdx
  source := call.source
  component := call.component
  tenantId := call.tenantId
  now := call.now

/-- A license of a package on an asset. -/
structure LicenseOccurrence where
  license : Str
  name : Str
  version : Str
  asset : Option Str
  deriving DecidableEq

/-! ### Findings -/

/-- The columns of a license finding that an import writes. -/
structure LicenseFinding where
  id : Str
  fingerprintId : Str
  cveId : Str
  severity : Severity
  component : Str
  image : Option Str
  title : Str
  description : Str
  source : Str
  licenseExpression : Option Str
  deriving DecidableEq

instance : Row LicenseFinding Str Str where
  pk := LicenseFinding.id
  uk := LicenseFinding.fingerprintId

/-- A row that the columns can hold. -/
def LicenseFinding.FitsColumns (f : LicenseFinding) : Prop :=
  f.cveId.length ≤ 128 ∧ f.component.length ≤ 512 ∧ (Str.orEmpty f.image).length ≤ 256 ∧
    f.source.length ≤ 64

instance (f : LicenseFinding) : Decidable f.FitsColumns := inferInstanceAs (Decidable (_ ∧ _))

/-- `cve_id` of a license finding. -/
def LicenseOccurrence.cveId (o : LicenseOccurrence) : Str :=
  str "LICENSE-" ++ o.license ++ str "-" ++ o.name

/-- `occurrence_scope`. -/
def LicenseOccurrence.scope (o : LicenseOccurrence) : Str := o.name ++ str "|" ++ Str.orEmpty o.asset

/-- The title of a license finding. -/
def LicenseOccurrence.title (o : LicenseOccurrence) : Str :=
  let title := o.license ++ str " license in " ++ o.name
  (if Str.truthy o.asset then title ++ str " (" ++ Str.orEmpty o.asset ++ str ")" else title).take 512

/-- The description of a license finding. -/
def LicenseOccurrence.description (risk : Option Severity) (o : LicenseOccurrence) : Str :=
  let risk := (risk.map Severity.value).getD (str "Unknown")
  str "SBOM import detected " ++ risk ++ str " risk license " ++ o.license ++
    if Str.truthy o.asset then str " in component " ++ Str.orEmpty o.asset else []

section General

variable [Unicode] [CharTables] [UrlDecoding] [Sha256]

omit [CharTables] [UrlDecoding] in
/-- The fingerprint of a license finding. -/
def licenseFingerprint (o : LicenseOccurrence) : Str :=
  makeFingerprint o.cveId o.scope [] [] [] []

omit [CharTables] [UrlDecoding] in
/-- The id of a license finding. -/
def licenseFindingId (o : LicenseOccurrence) : Str := str "f-" ++ (licenseFingerprint o).take 8

omit [CharTables] [UrlDecoding] in
/-- The license findings, and the occurrences for which they were made. -/
structure LicenseFindings where
  table : Table LicenseFinding
  madeFor : List LicenseOccurrence
  stored : ∀ o ∈ madeFor, licenseFingerprint o ∈ table.rows.map LicenseFinding.fingerprintId
  distinct : (madeFor.map licenseFingerprint).Nodup

namespace LicenseFindings

omit [CharTables] [UrlDecoding] in
/-- The fingerprints that findings have. -/
def fingerprints (s : LicenseFindings) : List Str := s.table.rows.map LicenseFinding.fingerprintId

omit [CharTables] [UrlDecoding] in
/-- The ids that findings have. -/
def ids (s : LicenseFindings) : List Str := s.table.rows.map LicenseFinding.id

omit [CharTables] [UrlDecoding] in
/-- An occurrence whose fingerprint is there: a finding without a license expression gets one. -/
def restate (s : LicenseFindings) (o : LicenseOccurrence) : LicenseFindings where
  table := s.table.mapRows (fun f =>
      if f.fingerprintId = licenseFingerprint o ∧ Str.strip (Str.orEmpty f.licenseExpression) = [] then
        { f with licenseExpression := some o.license }
      else f) (.ite _ (fun _ => ⟨rfl, rfl⟩) keepsKeys_id)
  madeFor := s.madeFor
  stored o' ho' := by
    have hkeys : (s.table.rows.map fun f =>
        if f.fingerprintId = licenseFingerprint o ∧ Str.strip (Str.orEmpty f.licenseExpression) = []
          then { f with licenseExpression := some o.license } else f).map
        LicenseFinding.fingerprintId = s.table.rows.map LicenseFinding.fingerprintId := by
      rw [List.map_map]
      refine List.map_congr_left fun f _ => ?_
      rw [Function.comp_apply]
      split_ifs <;> rfl
    rw [Table.rows_mapRows, hkeys]
    exact s.stored o' ho'
  distinct := s.distinct

omit [CharTables] [UrlDecoding] in
/-- An occurrence with a new finding. -/
def create (s : LicenseFindings) (o : LicenseOccurrence) (f : LicenseFinding)
    (hf : f.fingerprintId = licenseFingerprint o) (h : s.table.CanInsert f) : LicenseFindings where
  table := s.table.insert f h
  madeFor := s.madeFor ++ [o]
  stored o' ho' := by
    rw [Table.rows_insert, List.map_append, List.mem_append]
    rcases List.mem_append.mp ho' with hold | hnew
    · exact .inl (s.stored o' hold)
    · rw [List.mem_singleton.mp hnew]
      exact .inr (List.mem_singleton.mpr hf.symm)
  distinct := by
    rw [List.map_append, List.map_singleton]
    refine s.distinct.append (List.nodup_singleton _) (List.disjoint_singleton.mpr fun hmem => ?_)
    obtain ⟨o', ho', heq⟩ := List.mem_map.mp hmem
    have hstored := s.stored o' ho'
    rw [heq, ← hf] at hstored
    exact h.2 hstored

end LicenseFindings

namespace LicensedImport

variable (cfg : Settings) (tier : Str → Option Severity) (call : LicensedImport)

/-- The occurrence of a license that is not allowed. -/
def occurrence (c : DeclaringComponent) (license : Str) : Option LicenseOccurrence :=
  let e := c.toCdxComponent.entry call.doc.cdx
  if tier license ∈ [some .critical, some .high] then
    some ⟨license, e.name, e.version, call.packages.componentOf cfg e⟩
  else none

/-- The occurrence that an import reads in a component. -/
def read (c : DeclaringComponent) : Option LicenseOccurrence :=
  (clip (c.licenses.head?.bind LicenseChoice.licenseId) 64).bind (call.occurrence cfg tier c)

/-- The occurrences in a component. -/
def declared (c : DeclaringComponent) : List LicenseOccurrence :=
  c.licenses.filterMap fun l => (clip l.declared 64).bind (call.occurrence cfg tier c)

/-- The occurrences in the document of an import. -/
def occurrences : List LicenseOccurrence := call.doc.components.flatMap (call.declared cfg tier)

omit [CharTables] [UrlDecoding] in
/-- The finding of an occurrence. -/
def finding (o : LicenseOccurrence) : LicenseFinding where
  id := licenseFindingId o
  fingerprintId := licenseFingerprint o
  cveId := o.cveId
  severity := if tier o.license = some .critical then .critical else .high
  component := o.name
  image := canonicalizeContainerImage cfg (Str.orElse call.findingAsset o.asset)
  title := o.title
  description := o.description (tier o.license)
  source := call.source
  licenseExpression := some o.license

omit [CharTables] [UrlDecoding] in
/-- The license finding of an occurrence. -/
def importOccurrence (s : LicenseFindings) (o : LicenseOccurrence) : Except Str LicenseFindings :=
  if licenseFingerprint o ∈ s.fingerprints then .ok (s.restate o)
  else if (call.finding cfg tier o).FitsColumns then
    if h : s.table.CanInsert (call.finding cfg tier o) then .ok (s.create o _ rfl h)
    else .error (str "duplicate key value violates unique constraint")
  else .error (str "value too long for type character varying")

/-- One package of an import, with its license finding. -/
def importComponent (s : SbomImportState × LicenseFindings) (c : DeclaringComponent) :
    Except Str (SbomImportState × LicenseFindings) := do
  let packages ← call.packages.importEntry cfg s.1 (c.toCdxComponent.entry call.doc.cdx)
  match call.read cfg tier c with
  | none => pure (packages, s.2)
  | some o => do
    let licenses ← call.importOccurrence cfg tier s.2 o
    pure (packages, licenses)

end LicensedImport

/-- `import_sbom`. -/
def importSbomLicenses (cfg : Settings) (tier : Str → Option Severity) (packages : Table SbomPackage)
    (licenses : LicenseFindings) (call : LicensedImport) :
    Except Str (SbomImportState × LicenseFindings) :=
  call.doc.components.foldlM (call.importComponent cfg tier) (⟨packages, 0, 0⟩, licenses)

/-! ### What an import stores -/

/-- The package of a component after some others, and the finding that it makes, are not refused. -/
structure LicensedImport.StepStorable (cfg : Settings) (tier : Str → Option Severity)
    (packages : Table SbomPackage) (licenses : LicenseFindings) (call : LicensedImport)
    (before : List DeclaringComponent) (c : DeclaringComponent) : Prop where
  package : (packages.get? (call.packages.row cfg (c.toCdxComponent.entry call.doc.cdx)).id).isSome ∨
    (call.packages.row cfg (c.toCdxComponent.entry call.doc.cdx)).id ∈
      before.map (fun b => (call.packages.row cfg (b.toCdxComponent.entry call.doc.cdx)).id) ∨
    (call.packages.row cfg (c.toCdxComponent.entry call.doc.cdx)).FitsColumns
  finding : ∀ o ∈ call.read cfg tier c, licenseFingerprint o ∉ licenses.fingerprints →
    licenseFingerprint o ∉ (before.filterMap (call.read cfg tier)).map licenseFingerprint →
      (call.finding cfg tier o).FitsColumns ∧ licenseFindingId o ∉ licenses.ids ∧
        ∀ o' ∈ before.filterMap (call.read cfg tier),
          licenseFingerprint o' ∉ licenses.fingerprints → licenseFindingId o' ≠ licenseFindingId o

/-- Nothing that an import stores is refused: each new package and each new finding fits its
columns, and each new finding has an id of its own. -/
def LicensedImport.Storable (cfg : Settings) (tier : Str → Option Severity)
    (packages : Table SbomPackage) (licenses : LicenseFindings) (call : LicensedImport) : Prop :=
  ∀ before c after, call.doc.components = before ++ c :: after →
    call.StepStorable cfg tier packages licenses before c

/-- After an import there is exactly one finding that was made for each occurrence in its document,
in this import or before, and the same import again makes no finding. -/
structure LicensesImported (cfg : Settings) (tier : Str → Option Severity)
    (packages : Table SbomPackage) (licenses : LicenseFindings) (call : LicensedImport)
    (s : SbomImportState × LicenseFindings) : Prop where
  imported : importSbomLicenses cfg tier packages licenses call = .ok s
  made : ∀ o ∈ call.occurrences cfg tier, s.2.madeFor.count o = 1
  settled : ∃ s', importSbomLicenses cfg tier s.1.packages s.2 call = .ok s' ∧
    s'.2.madeFor = s.2.madeFor ∧ s'.2.ids = s.2.ids

section Import

variable {cfg : Settings} {tier : Str → Option Severity} {packages : Table SbomPackage}
  {licenses : LicenseFindings} {call : LicensedImport} {s s' : SbomImportState × LicenseFindings}
  {before : List DeclaringComponent} {c : DeclaringComponent}

/-- The occurrences that an import reads in components and that are not stored. -/
def LicensedImport.fresh (cfg : Settings) (tier : Str → Option Severity) (licenses : LicenseFindings)
    (call : LicensedImport) (components : List DeclaringComponent) : List LicenseOccurrence :=
  Keyed.unseen licenseFingerprint licenses.fingerprints (components.filterMap (call.read cfg tier))

/-- What there is after some components of an import. -/
structure AfterComponents (cfg : Settings) (tier : Str → Option Severity) (packages : Table SbomPackage)
    (licenses : LicenseFindings) (call : LicensedImport) (before : List DeclaringComponent)
    (s : SbomImportState × LicenseFindings) : Prop where
  packages : ∀ id, (s.1.packages.get? id).isSome ↔ (packages.get? id).isSome ∨
    id ∈ before.map fun b => (call.packages.row cfg (b.toCdxComponent.entry call.doc.cdx)).id
  fingerprints : s.2.fingerprints =
    licenses.fingerprints ++ (call.fresh cfg tier licenses before).map licenseFingerprint
  ids : s.2.ids = licenses.ids ++ (call.fresh cfg tier licenses before).map licenseFindingId
  madeFor : s.2.madeFor = licenses.madeFor ++ call.fresh cfg tier licenses before

theorem afterComponents_nil :
    AfterComponents cfg tier packages licenses call [] (⟨packages, 0, 0⟩, licenses) where
  packages _ := by simp only [List.map_nil, List.not_mem_nil, or_false]
  fingerprints := (List.append_nil _).symm
  ids := (List.append_nil _).symm
  madeFor := (List.append_nil _).symm

omit [CharTables] [UrlDecoding] in
theorem restate_keeps (s : LicenseFindings) (o : LicenseOccurrence) :
    (s.restate o).fingerprints = s.fingerprints ∧ (s.restate o).ids = s.ids := by
  constructor
  · refine (List.map_map).trans (List.map_congr_left fun f _ => ?_)
    rw [Function.comp_apply]
    split_ifs <;> rfl
  · refine (List.map_map).trans (List.map_congr_left fun f _ => ?_)
    rw [Function.comp_apply]
    split_ifs <;> rfl

theorem mem_fingerprints_iff (h : AfterComponents cfg tier packages licenses call before s)
    {k : Str} : k ∈ s.2.fingerprints ↔ k ∈ licenses.fingerprints ∨
      k ∈ (before.filterMap (call.read cfg tier)).map licenseFingerprint := by
  rw [h.fingerprints, List.mem_append, LicensedImport.fresh, Keyed.mem_map_key_unseen]
  exact or_congr_right' fun hnot => and_iff_left hnot

/-- The ids of the new findings. -/
theorem mem_ids_iff (h : AfterComponents cfg tier packages licenses call before s) {id : Str} :
    id ∈ s.2.ids ↔ id ∈ licenses.ids ∨ ∃ o ∈ before.filterMap (call.read cfg tier),
      licenseFingerprint o ∉ licenses.fingerprints ∧ licenseFindingId o = id := by
  have hprefix : ∀ l : List LicenseOccurrence, l.map licenseFindingId =
      (l.map licenseFingerprint).map fun k => str "f-" ++ k.take 8 := fun l =>
    (List.map_map (g := fun k : Str => str "f-" ++ k.take 8) (f := licenseFingerprint)).symm
  rw [h.ids, List.mem_append, hprefix, List.mem_map]
  refine or_congr_right ⟨?_, ?_⟩
  · rintro ⟨k, hk, rfl⟩
    obtain ⟨hmem, hnot⟩ := Keyed.mem_map_key_unseen.mp hk
    obtain ⟨o, ho, rfl⟩ := List.mem_map.mp hmem
    exact ⟨o, ho, hnot, rfl⟩
  · rintro ⟨o, ho, hnot, rfl⟩
    exact ⟨licenseFingerprint o, Keyed.mem_map_key_unseen.mpr ⟨List.mem_map_of_mem ho, hnot⟩, rfl⟩

/-- One component more, with the occurrence that is read in it. -/
theorem fresh_concat (before : List DeclaringComponent) (c : DeclaringComponent) :
    call.fresh cfg tier licenses (before ++ [c]) = call.fresh cfg tier licenses before ++
      (call.read cfg tier c).elim [] fun o =>
        if licenseFingerprint o ∈ licenses.fingerprints ∨
          licenseFingerprint o ∈ (before.filterMap (call.read cfg tier)).map licenseFingerprint
        then [] else [o] := by
  rw [LicensedImport.fresh, List.filterMap_append]
  cases hread : call.read cfg tier c with
  | none =>
    rw [List.filterMap_cons_none hread, List.filterMap_nil, List.append_nil, Option.elim_none,
      List.append_nil]
    rfl
  | some o =>
    rw [List.filterMap_cons_some hread, List.filterMap_nil, Keyed.unseen_concat, Option.elim_some,
      LicensedImport.fresh]
    split_ifs <;> rfl

omit [CharTables] [UrlDecoding] in
/-- A finding is refused if it is new and too long for its columns, or its id is taken. -/
theorem exists_importOccurrence_iff {t : LicenseFindings} {o : LicenseOccurrence} :
    (∃ t', call.importOccurrence cfg tier t o = .ok t') ↔ licenseFingerprint o ∈ t.fingerprints ∨
      (call.finding cfg tier o).FitsColumns ∧ licenseFindingId o ∉ t.ids := by
  rw [LicensedImport.importOccurrence]
  split_ifs with hfp hfits hcan
  · exact iff_of_true ⟨_, rfl⟩ (.inl hfp)
  · exact iff_of_true ⟨_, rfl⟩ (.inr ⟨hfits, hcan.1⟩)
  · refine iff_of_false (fun h => ?_) fun h => ?_
    · obtain ⟨t', ht'⟩ := h
      cases ht'
    · exact hcan ⟨(h.resolve_left hfp).2, hfp⟩
  · refine iff_of_false (fun h => ?_) fun h => hfits (h.resolve_left hfp).1
    obtain ⟨t', ht'⟩ := h
    cases ht'

omit [CharTables] [UrlDecoding] in
/-- A finding is there, or it is made. -/
theorem importOccurrence_cases {t t' : LicenseFindings} {o : LicenseOccurrence}
    (h : call.importOccurrence cfg tier t o = .ok t') :
    licenseFingerprint o ∈ t.fingerprints ∧ t'.fingerprints = t.fingerprints ∧ t'.ids = t.ids ∧
        t'.madeFor = t.madeFor ∨
      licenseFingerprint o ∉ t.fingerprints ∧
        t'.fingerprints = t.fingerprints ++ [licenseFingerprint o] ∧
        t'.ids = t.ids ++ [licenseFindingId o] ∧ t'.madeFor = t.madeFor ++ [o] := by
  rw [LicensedImport.importOccurrence] at h
  split_ifs at h with hfp hfits hcan
  · cases h
    exact .inl ⟨hfp, (restate_keeps t o).1, (restate_keeps t o).2, rfl⟩
  · cases h
    exact .inr ⟨hfp, List.map_append, List.map_append, rfl⟩

/-- A component is imported exactly if nothing of it is refused. -/
theorem exists_importComponent_iff
    (h : AfterComponents cfg tier packages licenses call before s) :
    (∃ s', call.importComponent cfg tier s c = .ok s') ↔
      call.StepStorable cfg tier packages licenses before c := by
  have hpackage : (∃ p, call.packages.importEntry cfg s.1 (c.toCdxComponent.entry call.doc.cdx) =
      .ok p) ↔ _ := exists_importEntry_iff
  rw [h.packages, or_assoc] at hpackage
  have hfinding : ∀ o, (∃ t', call.importOccurrence cfg tier s.2 o = .ok t') ↔
      (licenseFingerprint o ∉ licenses.fingerprints →
        licenseFingerprint o ∉ (before.filterMap (call.read cfg tier)).map licenseFingerprint →
        (call.finding cfg tier o).FitsColumns ∧ licenseFindingId o ∉ licenses.ids ∧
          ∀ o' ∈ before.filterMap (call.read cfg tier),
            licenseFingerprint o' ∉ licenses.fingerprints →
              licenseFindingId o' ≠ licenseFindingId o) := by
    intro o
    rw [exists_importOccurrence_iff, mem_fingerprints_iff h, mem_ids_iff h, or_iff_not_imp_left,
      not_or, and_imp, not_or]
    simp only [not_exists, not_and]
  constructor
  · rintro ⟨s', hs'⟩
    obtain ⟨p, hp, hrest⟩ := bind_eq_ok_iff.mp hs'
    refine ⟨hpackage.mp ⟨p, hp⟩, fun o ho => ?_⟩
    rw [Option.mem_def.mp ho] at hrest
    obtain ⟨t', ht', -⟩ := bind_eq_ok_iff.mp hrest
    exact (hfinding o).mp ⟨t', ht'⟩
  · rintro ⟨hpack, hfind⟩
    obtain ⟨p, hp⟩ := hpackage.mpr hpack
    cases hread : call.read cfg tier c with
    | none =>
      refine ⟨(p, s.2), bind_eq_ok_iff.mpr ⟨p, hp, ?_⟩⟩
      rw [hread]
      rfl
    | some o =>
      obtain ⟨t', ht'⟩ := (hfinding o).mpr (hfind o hread)
      refine ⟨(p, t'), bind_eq_ok_iff.mpr ⟨p, hp, ?_⟩⟩
      rw [hread]
      exact bind_eq_ok_iff.mpr ⟨t', ht', rfl⟩

/-- What there is after one component more. -/
theorem AfterComponents.step (h : AfterComponents cfg tier packages licenses call before s)
    (hs : call.importComponent cfg tier s c = .ok s') :
    AfterComponents cfg tier packages licenses call (before ++ [c]) s' := by
  obtain ⟨p, hp, hrest⟩ := bind_eq_ok_iff.mp hs
  have hpackages : ∀ id, (p.packages.get? id).isSome ↔ (packages.get? id).isSome ∨
      id ∈ (before ++ [c]).map fun b =>
        (call.packages.row cfg (b.toCdxComponent.entry call.doc.cdx)).id := by
    intro id
    rw [packages_of_importEntry hp, SbomImport.upsertEntry, Table.isSome_get?_upsert, h.packages,
      List.map_append, List.mem_append, List.map_singleton, List.mem_singleton, or_comm, or_assoc]
    rfl
  cases hread : call.read cfg tier c with
  | none =>
    rw [hread] at hrest
    cases hrest
    have hfresh : call.fresh cfg tier licenses (before ++ [c]) =
        call.fresh cfg tier licenses before := by
      rw [fresh_concat, hread, Option.elim_none, List.append_nil]
    exact ⟨hpackages, by rw [hfresh]; exact h.fingerprints, by rw [hfresh]; exact h.ids,
      by rw [hfresh]; exact h.madeFor⟩
  | some o =>
    rw [hread] at hrest
    obtain ⟨t', ht', hpure⟩ := bind_eq_ok_iff.mp hrest
    cases hpure
    rcases importOccurrence_cases ht' with ⟨hfp, hfps, hids, hmade⟩ | ⟨hfp, hfps, hids, hmade⟩
    · have hfresh : call.fresh cfg tier licenses (before ++ [c]) =
          call.fresh cfg tier licenses before := by
        rw [fresh_concat, hread, Option.elim_some, if_pos ((mem_fingerprints_iff h).mp hfp),
          List.append_nil]
      refine ⟨hpackages, ?_, ?_, ?_⟩
      · rw [hfresh, hfps, h.fingerprints]
      · rw [hfresh, hids, h.ids]
      · rw [hfresh, hmade, h.madeFor]
    · have hfresh : call.fresh cfg tier licenses (before ++ [c]) =
          call.fresh cfg tier licenses before ++ [o] := by
        rw [fresh_concat, hread, Option.elim_some, if_neg (mt (mem_fingerprints_iff h).mpr hfp)]
      refine ⟨hpackages, ?_, ?_, ?_⟩
      · rw [hfresh, hfps, h.fingerprints, List.map_append, List.append_assoc, List.map_singleton]
      · rw [hfresh, hids, h.ids, List.map_append, List.append_assoc, List.map_singleton]
      · rw [hfresh, hmade, h.madeFor, List.append_assoc]

theorem afterComponents_foldlM {l : List DeclaringComponent}
    (h : l.foldlM (call.importComponent cfg tier) (⟨packages, 0, 0⟩, licenses) = .ok s) :
    AfterComponents cfg tier packages licenses call l s := by
  induction l using List.reverseRecOn generalizing s with
  | nil =>
    cases h
    exact afterComponents_nil
  | append_singleton l c ih =>
    rw [List.foldlM_append] at h
    obtain ⟨mid, hmid, hlast⟩ := bind_eq_ok_iff.mp h
    obtain ⟨s', hs', hpure⟩ := bind_eq_ok_iff.mp hlast
    cases hpure
    exact (ih hmid).step hs'

theorem exists_foldlM_iff (l : List DeclaringComponent) :
    (∃ s, l.foldlM (call.importComponent cfg tier) (⟨packages, 0, 0⟩, licenses) = .ok s) ↔
      ∀ before c after, l = before ++ c :: after →
        call.StepStorable cfg tier packages licenses before c := by
  induction l using List.reverseRecOn with
  | nil =>
    refine iff_of_true ⟨_, rfl⟩ fun before c after h => ?_
    exact absurd h.symm (List.append_ne_nil_of_right_ne_nil _ (List.cons_ne_nil _ _))
  | append_singleton l c ih =>
    rw [List.foldlM_append]
    constructor
    · rintro ⟨s, hs⟩ before c' after hsplit
      obtain ⟨mid, hmid, hlast⟩ := bind_eq_ok_iff.mp hs
      obtain ⟨s', hs', -⟩ := bind_eq_ok_iff.mp hlast
      -- the component is the last one, or one of those before
      rcases List.eq_nil_or_concat after with rfl | ⟨after, last, rfl⟩
      · obtain ⟨rfl, hc⟩ := List.append_inj' hsplit rfl
        obtain rfl := List.singleton_inj.mp hc
        exact (exists_importComponent_iff (afterComponents_foldlM hmid)).mp ⟨s', hs'⟩
      · rw [List.concat_eq_append, ← List.cons_append, ← List.append_assoc] at hsplit
        exact ih.mp ⟨mid, hmid⟩ before c' after (List.append_inj' hsplit rfl).1
    · intro h
      obtain ⟨mid, hmid⟩ := ih.mpr fun before c' after hsplit =>
        h before c' (after ++ [c]) (by rw [hsplit, List.append_assoc, List.cons_append])
      obtain ⟨s', hs'⟩ :=
        (exists_importComponent_iff (afterComponents_foldlM hmid)).mpr (h l c [] rfl)
      exact ⟨s', bind_eq_ok_iff.mpr ⟨mid, hmid, bind_eq_ok_iff.mpr ⟨s', hs', rfl⟩⟩⟩

/-! ### What is asked of an import -/

/-- For which occurrences findings were made after an import. -/
theorem madeFor_import (h : importSbomLicenses cfg tier packages licenses call = .ok s) :
    s.2.madeFor = licenses.madeFor ++ call.fresh cfg tier licenses call.doc.components :=
  (afterComponents_foldlM h).madeFor

omit [Sha256] in
/-- What an import reads in a component is declared there. -/
theorem mem_occurrences_of_read {o : LicenseOccurrence}
    (h : o ∈ call.doc.components.filterMap (call.read cfg tier)) :
    o ∈ call.occurrences cfg tier := by
  obtain ⟨c, hc, hread⟩ := List.mem_filterMap.mp h
  refine List.mem_flatMap.mpr ⟨c, hc, List.mem_filterMap.mpr ?_⟩
  rw [LicensedImport.read] at hread
  cases hhead : c.licenses.head? with
  | none =>
    rw [hhead] at hread
    cases hread
  | some l =>
    rw [hhead, Option.bind_some] at hread
    refine ⟨l, List.mem_of_mem_head? hhead, ?_⟩
    cases l with
    | expression e => cases hread
    | license id name => exact hread
    | text t => exact hread

/-- An import whose findings are there makes no finding. -/
theorem exists_import_again (h : importSbomLicenses cfg tier packages licenses call = .ok s) :
    ∃ s', importSbomLicenses cfg tier s.1.packages s.2 call = .ok s' ∧
      s'.2.madeFor = s.2.madeFor ∧ s'.2.ids = s.2.ids := by
  have hafter := afterComponents_foldlM h
  have hstored : ∀ o ∈ call.doc.components.filterMap (call.read cfg tier),
      licenseFingerprint o ∈ s.2.fingerprints := fun o ho =>
    (mem_fingerprints_iff hafter).mpr (.inr (List.mem_map_of_mem ho))
  have hfresh : call.fresh cfg tier s.2 call.doc.components = [] := by
    refine List.eq_nil_iff_forall_not_mem.mpr fun o ho => ?_
    exact Keyed.key_notMem_of_mem_unseen ho (hstored o ((Keyed.unseen_sublist _ _).subset ho))
  have hstorable : call.Storable cfg tier s.1.packages s.2 := by
    intro before c after hsplit
    have hc : c ∈ call.doc.components := by
      rw [hsplit]
      exact List.mem_append_right _ List.mem_cons_self
    refine ⟨.inl ((hafter.packages _).mpr (.inr (List.mem_map_of_mem hc))), fun o ho hnew => ?_⟩
    exact absurd (hstored o (List.mem_filterMap.mpr ⟨c, hc, ho⟩)) hnew
  obtain ⟨s', hs'⟩ := (exists_foldlM_iff call.doc.components).mpr hstorable
  have hafter' := afterComponents_foldlM hs'
  refine ⟨s', hs', ?_, ?_⟩
  · rw [hafter'.madeFor, hfresh, List.append_nil]
  · rw [hafter'.ids, hfresh, List.map_nil, List.append_nil]

/-- An import does what is asked of it exactly if nothing that it stores is refused, each occurrence
has its finding already or is read and has no finding of another under its fingerprint, and no two
occurrences have one fingerprint. -/
theorem licensesImported_iff :
    (∃ s, LicensesImported cfg tier packages licenses call s) ↔
      call.Storable cfg tier packages licenses ∧
      (∀ o ∈ call.occurrences cfg tier, o ∈ licenses.madeFor ∨
        o ∈ call.doc.components.filterMap (call.read cfg tier) ∧
          licenseFingerprint o ∉ licenses.fingerprints) ∧
      ∀ o ∈ call.occurrences cfg tier, ∀ o' ∈ call.occurrences cfg tier,
        licenseFingerprint o = licenseFingerprint o' → o = o' := by
  constructor
  · rintro ⟨s, himport, hmade, -⟩
    have hmem : ∀ o ∈ call.occurrences cfg tier, o ∈ s.2.madeFor := fun o ho =>
      List.count_pos_iff.mp (by rw [hmade o ho]; exact Nat.one_pos)
    refine ⟨(exists_foldlM_iff _).mp ⟨s, himport⟩, fun o ho => ?_, fun o ho o' ho' heq => ?_⟩
    · have ho' := hmem o ho
      rw [madeFor_import himport, List.mem_append] at ho'
      exact ho'.imp_right fun hfresh => ⟨(Keyed.unseen_sublist _ _).subset hfresh,
        Keyed.key_notMem_of_mem_unseen hfresh⟩
    · exact List.inj_on_of_nodup_map s.2.distinct (hmem o ho) (hmem o' ho') heq
  · rintro ⟨hstorable, hcovered, hinj⟩
    obtain ⟨s, himport⟩ := (exists_foldlM_iff _).mpr hstorable
    refine ⟨s, himport, fun o ho => ?_, exists_import_again himport⟩
    refine List.count_eq_one_of_mem (s.2.distinct.of_map _) ?_
    rw [madeFor_import himport, List.mem_append]
    refine (hcovered o ho).imp_right fun hread => Keyed.mem_unseen ?_ hread.1 hread.2
    exact fun o' ho' heq => hinj o' (mem_occurrences_of_read ho') o ho heq

end Import

end General

/-! ### A scoped package in two images -/

section Scoped

attribute [local instance] asciiUnicode asciiUpperCase asciiCharTables plainDecoding unaryDigest

/-- A package with a license in an image. -/
def scopedComponent (image : String) : DeclaringComponent where
  name := some (str "@acme/ui")
  version := some (str "1.0.0")
  properties := [(some (str "vat:container_ref"), some (str image))]
  group := none
  purl := none
  bomRef := none
  language := none
  licenses := [.license (some (str "AGPL-3.0")) none]

/-- An import of one package in two images. -/
def scopedImport : LicensedImport where
  doc := ⟨[scopedComponent "shop/web", scopedComponent "shop/admin"], [], none⟩
  source := str "trivy"
  component := none
  findingAsset := none
  tenantId := str "acme"
  now := 0

/-- The license of the package in an image. -/
def scopedOccurrence (image : String) : LicenseOccurrence :=
  ⟨str "AGPL-3.0", str "@acme/ui", str "1.0.0", some (str image)⟩

/-- A package whose name begins with `@` has one finding for all its images. -/
theorem not_licensesImported_scoped :
    ¬ ∀ (_ : Unicode) (_ : CharTables) (_ : UrlDecoding) (_ : Sha256) (cfg : Settings)
      (tier : Str → Option Severity) (packages : Table SbomPackage) (licenses : LicenseFindings)
      (call : LicensedImport), ∃ s, LicensesImported cfg tier packages licenses call s := by
  intro h
  obtain ⟨s, -, hmade, -⟩ := h asciiUnicode asciiCharTables plainDecoding unaryDigest ⟨true, []⟩
    licenseRiskTier .empty ⟨.empty, [], by simp, List.nodup_nil⟩ scopedImport
  have hoccurrences : scopedImport.occurrences ⟨true, []⟩ licenseRiskTier =
      [scopedOccurrence "shop/web", scopedOccurrence "shop/admin"] := by
    decide +kernel
  rw [hoccurrences] at hmade
  have hmem : ∀ image ∈ ["shop/web", "shop/admin"], scopedOccurrence image ∈ s.2.madeFor :=
    fun image himage => List.count_pos_iff.mp (by
      rw [hmade _ (List.mem_map_of_mem himage)]
      exact Nat.one_pos)
  have hscope : componentBase (scopedOccurrence "shop/web").scope =
      componentBase (scopedOccurrence "shop/admin").scope := by decide +kernel
  have heq : licenseFingerprint (scopedOccurrence "shop/web") =
      licenseFingerprint (scopedOccurrence "shop/admin") := by
    rw [licenseFingerprint, makeFingerprint, hscope]
    rfl
  have hsame := List.inj_on_of_nodup_map s.2.distinct (hmem "shop/web" (by decide))
    (hmem "shop/admin" (by decide)) heq
  exact absurd hsame (by decide)

end Scoped

end Vat
