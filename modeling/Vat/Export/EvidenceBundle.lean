import Mathlib.Data.Char
import Mathlib.Data.List.Lex
import Mathlib.Data.List.Sort
import Mathlib.Order.Lex
import Vat.Export.OpenscapStorage
import Vat.Keyed.Dictionary
import Vat.Python.Pattern
import Vat.Sbom.Packages

/-!
# Evidence bundles

An export writes the members of an archive one after another, and a manifest with the digest of
each. The packages of every component and the XML of every scan get a member of their own, whose
name is made from the names of the component or of the scan, and two indices say which member holds
what. A reader of the archive sees the last member with a path. The texts of the members are
parameters, apart from the XML of the scans.

Source: `backend/app/services/export_service.py`, lines 37–46 and 795–992.

## Main definitions

* `safeOpenscapFilename`, `safeExportFilename`, `stigFilename`.
* `buildExportBundle`, `ExportBundle.extract`.
* `ExportBundle.Consistent`: what a bundle owes to its readers.
* `NamesApart`: no two components and no two scans get one name, and every scan is encoded in UTF-8.

## Main results

* `bundle_consistent_iff`: when the bundle of a database is consistent.
-/

namespace Vat

open Keyed

/-! ### Names -/

section Names

variable [CharTables]

/-- The characters that a file name cannot have are replaced by underscores. -/
def slug (name : Str) : Str :=
  (name.map fun c => if isAlnum c || c ∈ str "._-:" then c else '_').take 200

/-- `_safe_openscap_filename`. -/
def safeOpenscapFilename (assetId : Str) : Str :=
  if slug assetId = [] then str "openscap-scan" else slug assetId

/-- `_safe_export_filename`. -/
def safeExportFilename (name : Str) : Str :=
  Str.stripWhile (· == '.') (if slug name = [] then str "unknown" else slug name)

/-- The member that the packages of a component get. -/
def sbomFile (component : Str) : Str :=
  str "sbom/by-asset/" ++ safeExportFilename component ++ str ".cdx.json"

/-- The name of a scan in the folder of the scans. -/
def stigFilename (r : OpenscapScanResult) : Str :=
  let ext := if r.parserId = str "openscap" then str "xccdf.xml" else str "oval-results.xml"
  let safeAsset := safeOpenscapFilename r.assetId
  let safeSource := safeOpenscapFilename r.sourceId
  (if safeSource ≠ [] then safeAsset ++ str "_" ++ safeSource else safeAsset) ++ str "." ++ ext

/-- The member that the XML of a scan gets. -/
def stigFile (r : OpenscapScanResult) : Str := str "stig/" ++ stigFilename r

end Names

/-! ### What is exported -/

/-- The component of a package, without blanks around it. -/
def packageComponent (p : SbomPackage) : Str := Str.strip (Str.orEmpty p.component)

/-- The components that have packages, in their order. -/
def packageComponents (packages : List SbomPackage) : List Str :=
  ((packages.map packageComponent).filter (· ≠ [])).dedup.insertionSort (· ≤ ·)

/-- The packages of a component. -/
def packagesOf (packages : List SbomPackage) (component : Str) : List SbomPackage :=
  packages.filter fun p => packageComponent p = component

/-- The bytes of a scan, unless it has none. -/
def OpenscapScanResult.evidence (r : OpenscapScanResult) : Option Bytes :=
  r.rawXccdfXml.filter (· ≠ [])

/-- An entry of the index of packages. -/
structure SbomIndexEntry where
  component : Str
  file : Str
  packageCount : ℕ
deriving DecidableEq

/-- An entry of the index of scans. -/
structure StigIndexEntry where
  assetId : Str
  sourceId : Str
  filename : Str
  parserId : Str
  createdAt : Instant
  benchmark : Benchmark
  evidenceSha256 : Option Str
deriving DecidableEq

/-- An entry of the manifest. -/
structure FileEntry where
  path : Str
  sha256 : Str
  sizeBytes : ℕ
deriving DecidableEq

/-- The texts of the members; the workbook is missing when it cannot be built. -/
structure BundleTexts where
  assetsFindings : Bytes
  findingsCsv : Bytes
  waivers : Bytes
  waiversCsv : Bytes
  executiveSummary : Bytes
  sbom : Bytes
  assetSbom : Str → List SbomPackage → Bytes
  sbomIndex : List SbomIndexEntry → Bytes
  readme : Bytes
  stigIndex : List StigIndexEntry → Bytes
  auditEvents : Bytes
  workbook : List StigIndexEntry → Option Bytes
  manifest : List FileEntry → Bytes

/-- The option that decides which members there are. -/
structure ExportBundleOptions where
  includeAuditEvents : Bool

/-! ### The archive -/

/-- An archive, its manifest and its two indices. -/
structure ExportBundle where
  members : List (Str × Bytes)
  fileEntries : List FileEntry
  sbomIndex : List SbomIndexEntry
  stigIndex : List StigIndexEntry

/-- What a reader finds at a path: the member that was written last. -/
def ExportBundle.extract (b : ExportBundle) (path : Str) : Option Bytes :=
  (b.members.reverse.find? fun m => m.1 = path).map Prod.snd

/-- The path of the manifest. -/
def manifestPath : Str := str "evidence-manifest.json"

/-- The path of the index of packages. -/
def sbomIndexPath : Str := str "sbom/by-asset/manifest.json"

/-- The path of the index of scans. -/
def stigIndexPath : Str := str "stig/manifest.json"

section Build

variable [Sha256Bytes]

/-- The entry of a member in the manifest. -/
def fileEntry (m : Str × Bytes) : FileEntry := ⟨m.1, Sha256Bytes.hexdigest m.2, m.2.length⟩

/-- `put`. -/
def ExportBundle.put (b : ExportBundle) (rel : Str) (content : Bytes) : ExportBundle :=
  { b with
    members := b.members ++ [(rel, content)]
    fileEntries :=
      if rel ≠ manifestPath then b.fileEntries ++ [fileEntry (rel, content)] else b.fileEntries }

/-- `put` of a member that may be missing. -/
def ExportBundle.putSome (b : ExportBundle) (rel : Str) : Option Bytes → ExportBundle
  | some content => b.put rel content
  | none => b

variable [CharTables]

/-- The packages of a component, and where they are. -/
def ExportBundle.putSbom (texts : BundleTexts) (packages : List SbomPackage) (b : ExportBundle)
    (component : Str) : ExportBundle :=
  let rows := packagesOf packages component
  let b := b.put (sbomFile component) (texts.assetSbom component rows)
  { b with sbomIndex := b.sbomIndex ++ [⟨component, sbomFile component, rows.length⟩] }

omit [Sha256Bytes] in
/-- The entry of a scan in the index. -/
def stigEntry (r : OpenscapScanResult) : StigIndexEntry where
  assetId := r.assetId
  sourceId := r.sourceId
  filename := stigFilename r
  parserId := r.parserId
  createdAt := r.createdAt
  benchmark := r.benchmark
  evidenceSha256 := r.evidenceSha256

/-- The XML of a scan, decoded and encoded again, and where it is. -/
def ExportBundle.putScan (b : ExportBundle) (r : OpenscapScanResult) : ExportBundle :=
  match r.evidence with
  | none => b
  | some raw =>
    let b := b.put (stigFile r) raw.decodeReplace.encodeUtf8
    { b with stigIndex := b.stigIndex ++ [stigEntry r] }

omit [CharTables] in
/-- The members that every bundle starts with. -/
def putReports (texts : BundleTexts) : ExportBundle :=
  let b : ExportBundle := ⟨[], [], [], []⟩
  let b := b.put (str "assets-findings.json") texts.assetsFindings
  let b := b.put (str "findings.csv") texts.findingsCsv
  let b := b.put (str "waivers.json") texts.waivers
  let b := b.put (str "waivers.csv") texts.waiversCsv
  let b := b.put (str "executive-summary-yearly.html") texts.executiveSummary
  b.put (str "sbom/sbom-cyclonedx.json") texts.sbom

/-- The packages of every component, and their index. -/
def ExportBundle.putSboms (texts : BundleTexts) (packages : List SbomPackage) (b : ExportBundle) :
    ExportBundle :=
  let b := (packageComponents packages).foldl (ExportBundle.putSbom texts packages) b
  b.putSome sbomIndexPath (if b.sbomIndex ≠ [] then some (texts.sbomIndex b.sbomIndex) else none)

/-- The XML of every scan, and its index. -/
def ExportBundle.putScans (texts : BundleTexts) (scans : List OpenscapScanResult)
    (b : ExportBundle) : ExportBundle :=
  let b := scans.foldl ExportBundle.putScan b
  let b := b.put (str "stig/README-STIG-Viewer.txt") texts.readme
  b.putSome stigIndexPath (if b.stigIndex ≠ [] then some (texts.stigIndex b.stigIndex) else none)

/-- `build_export_bundle`. -/
def buildExportBundle (texts : BundleTexts) (opts : ExportBundleOptions)
    (packages : List SbomPackage) (scans : List OpenscapScanResult) : ExportBundle :=
  let b := ((putReports texts).putSboms texts packages).putScans texts scans
  let b := b.putSome (str "audit-events.json")
    (if opts.includeAuditEvents then some texts.auditEvents else none)
  let b := b.putSome (str "auditor-workbook.xlsx") (texts.workbook b.stigIndex)
  b.put manifestPath (texts.manifest b.fileEntries)

/-! ### What a bundle owes to its readers -/

/-- The manifest and the indices say what a reader of the archive finds. -/
structure ExportBundle.Consistent (b : ExportBundle) (texts : BundleTexts)
    (packages : List SbomPackage) (scans : List OpenscapScanResult) : Prop where
  once : (b.members.map Prod.fst).Nodup
  manifest : b.extract manifestPath = some (texts.manifest b.fileEntries)
  listed : b.fileEntries.map FileEntry.path = (b.members.map Prod.fst).filter (· ≠ manifestPath)
  hashed : ∀ e ∈ b.fileEntries, ∃ content, b.extract e.path = some content ∧
    e.sha256 = Sha256Bytes.hexdigest content ∧ e.sizeBytes = content.length
  sbomIndex : b.sbomIndex ≠ [] → b.extract sbomIndexPath = some (texts.sbomIndex b.sbomIndex)
  sbom : ∀ e ∈ b.sbomIndex,
    b.extract e.file = some (texts.assetSbom e.component (packagesOf packages e.component))
  stigIndex : b.stigIndex ≠ [] → b.extract stigIndexPath = some (texts.stigIndex b.stigIndex)
  stig : ∀ e ∈ b.stigIndex, ∀ r ∈ scans, r.assetId = e.assetId → r.sourceId = e.sourceId →
    b.extract (str "stig/" ++ e.filename) = r.evidence
  evidence : ∀ e ∈ b.stigIndex, ∀ sha, e.evidenceSha256 = some sha →
    (b.extract (str "stig/" ++ e.filename)).map computeEvidenceSha256 = some sha

omit [Sha256Bytes] in
/-- The scans that have bytes. -/
def exportedScans (scans : List OpenscapScanResult) : List OpenscapScanResult :=
  scans.filter fun r => r.evidence.isSome

omit [Sha256Bytes] in
/-- No two components and no two scans get one name, and every scan is encoded in UTF-8. -/
structure NamesApart (packages : List SbomPackage) (scans : List OpenscapScanResult) : Prop where
  components : ∀ c ∈ packageComponents packages, ∀ c' ∈ packageComponents packages,
    safeExportFilename c = safeExportFilename c' → c = c'
  files : ∀ r ∈ exportedScans scans, ∀ r' ∈ exportedScans scans,
    stigFilename r = stigFilename r' → r.assetId = r'.assetId ∧ r.sourceId = r'.sourceId
  utf8 : ∀ r ∈ exportedScans scans, ∀ raw, r.evidence = some raw → raw.IsUtf8

/-! ### What is written -/

variable {texts : BundleTexts} {opts : ExportBundleOptions} {packages : List SbomPackage}
  {scans : List OpenscapScanResult}

namespace ExportBundle

variable {b : ExportBundle}

/-- Every member but the manifest has its entry. -/
def Written (b : ExportBundle) : Prop :=
  b.fileEntries = (b.members.filter (·.1 ≠ manifestPath)).map fileEntry

omit [CharTables] in
theorem Written.put (h : b.Written) (rel : Str) (content : Bytes) :
    (b.put rel content).Written := by
  rw [Written] at h ⊢
  simp only [ExportBundle.put]
  rw [List.filter_append, List.map_append, ← h]
  by_cases hrel : rel = manifestPath
  · simp [hrel]
  · simp [hrel]

omit [CharTables] in
theorem Written.putSome (h : b.Written) (rel : Str) : ∀ content, (b.putSome rel content).Written
  | some _ => h.put rel _
  | none => h

theorem Written.putSbom (h : b.Written) (component : Str) :
    (b.putSbom texts packages component).Written := h.put (sbomFile component) _

theorem Written.putScan (h : b.Written) (r : OpenscapScanResult) : (b.putScan r).Written := by
  rw [ExportBundle.putScan]
  split
  · exact h
  · exact h.put (stigFile r) _

theorem written_buildExportBundle : (buildExportBundle texts opts packages scans).Written := by
  have hreports : (putReports texts).Written := rfl
  have hsboms : ((putReports texts).putSboms texts packages).Written :=
    Written.putSome (List.foldlRecOn _ _ hreports fun _ hb component _ => hb.putSbom component) _ _
  have hscans : (((putReports texts).putSboms texts packages).putScans texts scans).Written :=
    Written.putSome (Written.put (List.foldlRecOn _ _ hsboms fun _ hb r _ => hb.putScan r) _ _) _ _
  exact Written.put (Written.putSome (hscans.putSome _ _) _ _) _ _

/-! ### The members -/

/-- The member of a component. -/
def sbomMember (texts : BundleTexts) (packages : List SbomPackage) (component : Str) :
    Str × Bytes :=
  (sbomFile component, texts.assetSbom component (packagesOf packages component))

/-- The entry of a component in the index. -/
def sbomEntry (packages : List SbomPackage) (component : Str) : SbomIndexEntry :=
  ⟨component, sbomFile component, (packagesOf packages component).length⟩

/-- The member of a scan. -/
def stigMember (r : OpenscapScanResult) : Str × Bytes :=
  (stigFile r, (r.evidence.getD []).decodeReplace.encodeUtf8)

/-- A member that may be missing. -/
def someMember (rel : Str) (content : Option Bytes) : List (Str × Bytes) :=
  (content.map fun c => (rel, c)).toList

omit [CharTables] in
theorem putSome_eq (b : ExportBundle) (rel : Str) (content : Option Bytes) :
    (b.putSome rel content).members = b.members ++ someMember rel content ∧
      (b.putSome rel content).sbomIndex = b.sbomIndex ∧
      (b.putSome rel content).stigIndex = b.stigIndex := by
  cases content with
  | none => exact ⟨(List.append_nil _).symm, rfl, rfl⟩
  | some c => exact ⟨rfl, rfl, rfl⟩

variable (texts packages) in
theorem foldl_putSbom (components : List Str) (b : ExportBundle) :
    let b' := components.foldl (putSbom texts packages) b
    b'.members = b.members ++ components.map (sbomMember texts packages) ∧
      b'.sbomIndex = b.sbomIndex ++ components.map (sbomEntry packages) ∧
      b'.stigIndex = b.stigIndex := by
  induction components generalizing b with
  | nil => exact ⟨(List.append_nil _).symm, (List.append_nil _).symm, rfl⟩
  | cons c components ih =>
    obtain ⟨hmembers, hsbom, hstig⟩ := ih (b.putSbom texts packages c)
    refine ⟨hmembers.trans ?_, hsbom.trans ?_, hstig⟩
    · exact List.append_assoc _ [sbomMember texts packages c] _
    · exact List.append_assoc _ [sbomEntry packages c] _

theorem foldl_putScan (scans : List OpenscapScanResult) (b : ExportBundle) :
    let b' := scans.foldl putScan b
    b'.members = b.members ++ (exportedScans scans).map stigMember ∧
      b'.sbomIndex = b.sbomIndex ∧
      b'.stigIndex = b.stigIndex ++ (exportedScans scans).map stigEntry := by
  induction scans generalizing b with
  | nil => exact ⟨(List.append_nil _).symm, rfl, (List.append_nil _).symm⟩
  | cons r scans ih =>
    obtain ⟨hmembers, hsbom, hstig⟩ := ih (b.putScan r)
    cases hraw : r.evidence with
    | none =>
      have hput : b.putScan r = b := by rw [putScan, hraw]
      have hskip : exportedScans (r :: scans) = exportedScans scans :=
        List.filter_cons_of_neg (by simp [hraw])
      rw [hput] at hmembers hsbom hstig
      rw [List.foldl_cons, hput, hskip]
      exact ⟨hmembers, hsbom, hstig⟩
    | some raw =>
      have hput : b.putScan r = { b.put (stigFile r) (stigMember r).2 with
          stigIndex := b.stigIndex ++ [stigEntry r] } := by
        rw [putScan, stigMember, hraw]
        rfl
      have htake : exportedScans (r :: scans) = r :: exportedScans scans :=
        List.filter_cons_of_pos (by simp [hraw])
      rw [hput] at hmembers hsbom hstig
      rw [List.foldl_cons, hput, htake]
      refine ⟨hmembers.trans ?_, hsbom, hstig.trans ?_⟩
      · exact List.append_assoc _ [stigMember r] _
      · exact List.append_assoc _ [stigEntry r] _

variable (texts packages) in
theorem putSboms_eq (b : ExportBundle) :
    let b' := b.putSboms texts packages
    b'.members = b.members ++ (packageComponents packages).map (sbomMember texts packages) ++
        someMember sbomIndexPath
          (if b'.sbomIndex ≠ [] then some (texts.sbomIndex b'.sbomIndex) else none) ∧
      b'.sbomIndex = b.sbomIndex ++ (packageComponents packages).map (sbomEntry packages) ∧
      b'.stigIndex = b.stigIndex := by
  obtain ⟨hmembers, hsbom, hstig⟩ := foldl_putSbom texts packages
    (packageComponents packages) b
  obtain ⟨hmembers', hsbom', hstig'⟩ := putSome_eq _ sbomIndexPath _
  refine ⟨?_, hsbom'.trans hsbom, hstig'.trans hstig⟩
  rw [← hmembers, putSboms, hsbom']
  exact hmembers'

variable (texts scans) in
theorem putScans_eq (b : ExportBundle) :
    let b' := b.putScans texts scans
    b'.members = b.members ++ (exportedScans scans).map stigMember ++
        [(str "stig/README-STIG-Viewer.txt", texts.readme)] ++
        someMember stigIndexPath
          (if b'.stigIndex ≠ [] then some (texts.stigIndex b'.stigIndex) else none) ∧
      b'.sbomIndex = b.sbomIndex ∧
      b'.stigIndex = b.stigIndex ++ (exportedScans scans).map stigEntry := by
  obtain ⟨hmembers, hsbom, hstig⟩ := foldl_putScan scans b
  obtain ⟨hmembers', hsbom', hstig'⟩ := putSome_eq _ stigIndexPath _
  refine ⟨?_, hsbom'.trans hsbom, hstig'.trans hstig⟩
  rw [← hmembers, putScans, hstig']
  exact hmembers'

variable (texts opts packages scans) in
/-- The members of a bundle and its indices. -/
theorem buildExportBundle_eq :
    let b := buildExportBundle texts opts packages scans
    b.members =
      (putReports texts).members ++ (packageComponents packages).map (sbomMember texts packages) ++
        someMember sbomIndexPath
          (if b.sbomIndex ≠ [] then some (texts.sbomIndex b.sbomIndex) else none) ++
        (exportedScans scans).map stigMember ++
        [(str "stig/README-STIG-Viewer.txt", texts.readme)] ++
        someMember stigIndexPath
          (if b.stigIndex ≠ [] then some (texts.stigIndex b.stigIndex) else none) ++
        someMember (str "audit-events.json")
          (if opts.includeAuditEvents then some texts.auditEvents else none) ++
        someMember (str "auditor-workbook.xlsx") (texts.workbook b.stigIndex) ++
        [(manifestPath, texts.manifest b.fileEntries)] ∧
      b.sbomIndex = (packageComponents packages).map (sbomEntry packages) ∧
      b.stigIndex = (exportedScans scans).map stigEntry := by
  intro b
  let b₁ := (putReports texts).putSboms texts packages
  let b₂ := b₁.putScans texts scans
  let b₃ := b₂.putSome (str "audit-events.json")
    (if opts.includeAuditEvents then some texts.auditEvents else none)
  obtain ⟨hsboms, hsbom, hstig⟩ := putSboms_eq texts packages (putReports texts)
  obtain ⟨hscans, hsbom', hstig'⟩ := putScans_eq texts scans b₁
  obtain ⟨haudits, haudit, haudit'⟩ := putSome_eq b₂ (str "audit-events.json")
    (if opts.includeAuditEvents then some texts.auditEvents else none)
  obtain ⟨hbooks, hbook, hbook'⟩ :=
    putSome_eq b₃ (str "auditor-workbook.xlsx") (texts.workbook b₃.stigIndex)
  have hsbomIndex : b.sbomIndex = b₁.sbomIndex := hbook.trans (haudit.trans hsbom')
  have hstigIndex : b.stigIndex = b₂.stigIndex := hbook'.trans haudit'
  refine ⟨?_, hsbomIndex.trans hsbom, hstigIndex.trans (hstig'.trans (congrArg (· ++ _) hstig))⟩
  rw [hsbomIndex, hstigIndex]
  rw [hsboms] at hscans
  rw [hscans] at haudits
  rw [haudits] at hbooks
  refine (congrArg (· ++ [(manifestPath, texts.manifest b.fileEntries)]) hbooks).trans ?_
  exact congrArg (fun index => _ ++ someMember _ (texts.workbook index) ++ _) haudit'

/-! ### Their paths -/

/-- The paths that are the same in every bundle. -/
def fixedPaths : List Str :=
  [str "assets-findings.json", str "findings.csv", str "waivers.json", str "waivers.csv",
    str "executive-summary-yearly.html", str "sbom/sbom-cyclonedx.json"] ++ [sbomIndexPath] ++
  [str "stig/README-STIG-Viewer.txt"] ++ [stigIndexPath] ++ [str "audit-events.json"] ++
  [str "auditor-workbook.xlsx"] ++ [manifestPath]

omit [Sha256Bytes] [CharTables] in
theorem sublist_someMember (rel : Str) (content : Option Bytes) :
    ((someMember rel content).map Prod.fst).Sublist [rel] := by
  cases content with
  | none => exact List.nil_sublist _
  | some c => exact List.Sublist.refl _

omit [Sha256Bytes] [CharTables] in
/-- Two runs of members moved behind the others. -/
theorem perm_moveLast
    (reports sboms sbomIndex stigs readme stigIndex audit workbook manifest : List Str) :
    (reports ++ sboms ++ sbomIndex ++ stigs ++ readme ++ stigIndex ++ audit ++ workbook ++
      manifest).Perm
    (reports ++ sbomIndex ++ readme ++ stigIndex ++ audit ++ workbook ++ manifest ++
      (sboms ++ stigs)) := by
  rw [List.perm_iff_count]
  intro path
  simp only [List.count_append]
  omega

variable (texts opts packages scans) in
theorem paths_perm : ∃ fixed : List Str, fixed.Sublist fixedPaths ∧
    ((buildExportBundle texts opts packages scans).members.map Prod.fst).Perm
      (fixed ++
        ((packageComponents packages).map sbomFile ++ (exportedScans scans).map stigFile)) := by
  obtain ⟨hmembers, -, -⟩ := buildExportBundle_eq texts opts packages scans
  rw [hmembers]
  simp only [List.map_append, List.map_map]
  refine ⟨_, ?_, perm_moveLast _ _ _ _ _ _ _ _ _⟩
  exact ((((((List.Sublist.refl _).append (sublist_someMember _ _)).append
    (List.Sublist.refl _)).append (sublist_someMember _ _)).append (sublist_someMember _ _)).append
    (sublist_someMember _ _)).append (List.Sublist.refl _)

/-! ### When a path is written once -/

omit [Sha256Bytes] in
theorem sbomFile_eq_iff {c c' : Str} :
    sbomFile c = sbomFile c' ↔ safeExportFilename c = safeExportFilename c' := by
  rw [sbomFile, sbomFile, List.append_left_inj, List.append_right_inj]

omit [Sha256Bytes] in
theorem stigFile_eq_iff {r r' : OpenscapScanResult} :
    stigFile r = stigFile r' ↔ stigFilename r = stigFilename r' := by
  rw [stigFile, stigFile, List.append_right_inj]

omit [Sha256Bytes] in
theorem suffix_sbomFile (c : Str) : str ".cdx.json" <:+ sbomFile c := List.suffix_append _ _

omit [Sha256Bytes] in
theorem suffix_stigFile (r : OpenscapScanResult) : str ".xml" <:+ stigFile r := by
  have hext : str ".xml" <:+ (if r.parserId = str "openscap" then str "xccdf.xml" else
      str "oval-results.xml") := by
    split_ifs
    · exact ⟨str "xccdf", rfl⟩
    · exact ⟨str "oval-results", rfl⟩
  exact (hext.trans (List.suffix_append _ _)).trans (List.suffix_append _ _)

/-- A bundle has no path twice exactly if no two components and no two scans get one path. -/
theorem nodup_paths_iff :
    ((buildExportBundle texts opts packages scans).members.map Prod.fst).Nodup ↔
      ((packageComponents packages).map sbomFile).Nodup ∧
        ((exportedScans scans).map stigFile).Nodup := by
  obtain ⟨fixed, hfixed, hperm⟩ := paths_perm texts opts packages scans
  have hplain : ∀ path ∈ fixed, ¬ str ".cdx.json" <:+ path ∧ ¬ str ".xml" <:+ path := by
    have hall : fixedPaths.all (fun path => ¬ str ".cdx.json" <:+ path ∧ ¬ str ".xml" <:+ path) =
        true := by decide
    intro path hpath
    simpa using List.all_eq_true.mp hall path (hfixed.subset hpath)
  have happart : List.Disjoint ((packageComponents packages).map sbomFile)
      ((exportedScans scans).map stigFile) := by
    intro path hsbom hstig
    obtain ⟨c, -, rfl⟩ := List.mem_map.mp hsbom
    obtain ⟨r, -, heq⟩ := List.mem_map.mp hstig
    have hxml : str ".xml" <:+ sbomFile c := heq ▸ suffix_stigFile r
    obtain h | h := List.suffix_or_suffix_of_suffix hxml (suffix_sbomFile c)
    · revert h
      decide
    · revert h
      decide
  have hgenerated : List.Disjoint fixed
      ((packageComponents packages).map sbomFile ++ (exportedScans scans).map stigFile) := by
    intro path hpath hmem
    obtain hmem | hmem := List.mem_append.mp hmem
    · obtain ⟨c, -, rfl⟩ := List.mem_map.mp hmem
      exact (hplain _ hpath).1 (suffix_sbomFile c)
    · obtain ⟨r, -, rfl⟩ := List.mem_map.mp hmem
      exact (hplain _ hpath).2 (suffix_stigFile r)
  have hnodup : fixed.Nodup := hfixed.nodup (by decide)
  rw [hperm.nodup_iff, List.nodup_append', List.nodup_append']
  simp only [hnodup, hgenerated, happart, true_and, and_true]

/-! ### What a reader finds -/

omit [Sha256Bytes] [CharTables] in
/-- A path that is written once has what was written there. -/
theorem extract_eq {b : ExportBundle} (honce : (b.members.map Prod.fst).Nodup) {path : Str}
    {content : Bytes} (h : (path, content) ∈ b.members) : b.extract path = some content := by
  have hreverse : (b.members.reverse.map Prod.fst).Nodup := by
    rw [List.map_reverse]
    exact List.nodup_reverse.mpr honce
  exact (Dictionary.get?_eq_some_iff (d := ⟨b.members.reverse, hreverse⟩)).mpr
    (List.mem_reverse.mpr h)

theorem sbomMember_mem {c : Str} (hc : c ∈ packageComponents packages) :
    sbomMember texts packages c ∈ (buildExportBundle texts opts packages scans).members := by
  rw [(buildExportBundle_eq texts opts packages scans).1]
  simp [List.mem_map_of_mem hc]

theorem stigMember_mem {r : OpenscapScanResult} (hr : r ∈ exportedScans scans) :
    stigMember r ∈ (buildExportBundle texts opts packages scans).members := by
  rw [(buildExportBundle_eq texts opts packages scans).1]
  simp [List.mem_map_of_mem hr]

theorem manifestMember_mem :
    (manifestPath, texts.manifest (buildExportBundle texts opts packages scans).fileEntries) ∈
      (buildExportBundle texts opts packages scans).members := by
  rw [(buildExportBundle_eq texts opts packages scans).1]
  exact List.mem_append_right _ (List.mem_singleton_self _)

theorem sbomIndexMember_mem (h : (buildExportBundle texts opts packages scans).sbomIndex ≠ []) :
    (sbomIndexPath, texts.sbomIndex (buildExportBundle texts opts packages scans).sbomIndex) ∈
      (buildExportBundle texts opts packages scans).members := by
  rw [(buildExportBundle_eq texts opts packages scans).1, if_pos h]
  simp [someMember]

theorem stigIndexMember_mem (h : (buildExportBundle texts opts packages scans).stigIndex ≠ []) :
    (stigIndexPath, texts.stigIndex (buildExportBundle texts opts packages scans).stigIndex) ∈
      (buildExportBundle texts opts packages scans).members := by
  rw [(buildExportBundle_eq texts opts packages scans).1, if_pos h]
  simp [someMember]

omit [Sha256Bytes] [CharTables] in
theorem nodup_packageComponents : (packageComponents packages).Nodup :=
  (List.perm_insertionSort _ _).nodup_iff.mpr (List.nodup_dedup _)

omit [Sha256Bytes] [CharTables] in
/-- An exported scan is the only one of its asset and source. -/
theorem eq_of_key (hkeys : (scans.map fun r => (r.assetId, r.sourceId)).Nodup)
    {r r' : OpenscapScanResult} (hr : r ∈ exportedScans scans) (hr' : r' ∈ scans)
    (hasset : r'.assetId = r.assetId) (hsource : r'.sourceId = r.sourceId) : r' = r :=
  List.inj_on_of_nodup_map hkeys hr' (List.mem_filter.mp hr).1 (by simp only [hasset, hsource])

omit [Sha256Bytes] [CharTables] in
theorem exists_evidence {r : OpenscapScanResult} (hr : r ∈ exportedScans scans) :
    ∃ raw, r.evidence = some raw :=
  Option.isSome_iff_exists.mp (List.mem_filter.mp hr).2

/-- A consistent bundle keeps names apart. -/
theorem Consistent.namesApart
    (h : (buildExportBundle texts opts packages scans).Consistent texts packages scans) :
    NamesApart packages scans where
  components c hc c' hc' hname := List.inj_on_of_nodup_map (nodup_paths_iff.mp h.once).1 hc hc'
    (sbomFile_eq_iff.mpr hname)
  files r hr r' hr' hname := by
    have heq := List.inj_on_of_nodup_map (nodup_paths_iff.mp h.once).2 hr hr'
      (stigFile_eq_iff.mpr hname)
    exact ⟨congrArg _ heq, congrArg _ heq⟩
  utf8 r hr raw hraw := by
    have hentry : stigEntry r ∈ (buildExportBundle texts opts packages scans).stigIndex := by
      rw [(buildExportBundle_eq texts opts packages scans).2.2]
      exact List.mem_map_of_mem hr
    have hown := h.stig _ hentry r (List.mem_filter.mp hr).1 rfl rfl
    have hwritten := extract_eq h.once (stigMember_mem hr)
    rw [hraw, Option.getD_some] at hwritten
    exact Bytes.encodeUtf8_decodeReplace_eq_iff.mp
      (Option.some.inj ((hwritten.symm.trans hown).trans hraw))

/-- A bundle whose names are apart writes no path twice. -/
theorem once_of_namesApart (hkeys : (scans.map fun r => (r.assetId, r.sourceId)).Nodup)
    (h : NamesApart packages scans) :
    ((buildExportBundle texts opts packages scans).members.map Prod.fst).Nodup := by
  have hexported : (exportedScans scans).Nodup := (List.Nodup.of_map _ hkeys).filter _
  refine nodup_paths_iff.mpr ⟨?_, ?_⟩
  · refine nodup_packageComponents.map_on ?_
    intro c hc c' hc' hpath
    exact h.components c hc c' hc' (sbomFile_eq_iff.mp hpath)
  · refine hexported.map_on ?_
    intro r hr r' hr' hpath
    obtain ⟨hasset, hsource⟩ := h.files r hr r' hr' (stigFile_eq_iff.mp hpath)
    exact eq_of_key hkeys hr' (List.mem_filter.mp hr).1 hasset hsource

variable (texts opts) in
/-- What a reader finds for an exported scan. -/
theorem extract_stigFile (hkeys : (scans.map fun r => (r.assetId, r.sourceId)).Nodup)
    (h : NamesApart packages scans) {r : OpenscapScanResult} (hr : r ∈ exportedScans scans) :
    (buildExportBundle texts opts packages scans).extract (stigFile r) = r.evidence := by
  obtain ⟨raw, hraw⟩ := exists_evidence hr
  rw [extract_eq (once_of_namesApart hkeys h) (stigMember_mem hr), hraw, Option.getD_some,
    Bytes.encodeUtf8_decodeReplace_eq_iff.mpr (h.utf8 r hr raw hraw)]

/-- A bundle that keeps names apart is consistent. -/
theorem consistent_of_namesApart (hkeys : (scans.map fun r => (r.assetId, r.sourceId)).Nodup)
    (hrecorded : ∀ r ∈ scans, ∀ raw, r.rawXccdfXml = some raw → ∀ sha, r.evidenceSha256 = some sha →
      computeEvidenceSha256 raw = sha)
    (h : NamesApart packages scans) :
    (buildExportBundle texts opts packages scans).Consistent texts packages scans where
  once := once_of_namesApart hkeys h
  manifest := extract_eq (once_of_namesApart hkeys h) manifestMember_mem
  listed := by
    rw [written_buildExportBundle, List.map_map, List.filter_map]
    rfl
  hashed := by
    intro e he
    rw [written_buildExportBundle] at he
    obtain ⟨m, hm, rfl⟩ := List.mem_map.mp he
    exact ⟨m.2, extract_eq (once_of_namesApart hkeys h) (List.mem_filter.mp hm).1, rfl, rfl⟩
  sbomIndex hne := extract_eq (once_of_namesApart hkeys h) (sbomIndexMember_mem hne)
  sbom := by
    intro e he
    rw [(buildExportBundle_eq texts opts packages scans).2.1] at he
    obtain ⟨c, hc, rfl⟩ := List.mem_map.mp he
    exact extract_eq (once_of_namesApart hkeys h) (sbomMember_mem hc)
  stigIndex hne := extract_eq (once_of_namesApart hkeys h) (stigIndexMember_mem hne)
  stig := by
    intro e he r hr hasset hsource
    rw [(buildExportBundle_eq texts opts packages scans).2.2] at he
    obtain ⟨r', hr', rfl⟩ := List.mem_map.mp he
    rw [eq_of_key hkeys hr' hr hasset hsource]
    exact extract_stigFile texts opts hkeys h hr'
  evidence := by
    intro e he sha hsha
    rw [(buildExportBundle_eq texts opts packages scans).2.2] at he
    obtain ⟨r, hr, rfl⟩ := List.mem_map.mp he
    obtain ⟨raw, hraw⟩ := exists_evidence hr
    have hfound := extract_stigFile texts opts hkeys h hr
    rw [hraw] at hfound
    have hbytes : r.rawXccdfXml = some raw := (Option.filter_eq_some_iff.mp hraw).1
    refine (congrArg (Option.map _) hfound).trans ?_
    exact congrArg some (hrecorded r (List.mem_filter.mp hr).1 raw hbytes sha hsha)

end ExportBundle

end Build

section TwoScans

attribute [local instance] asciiCharTables bytesAsText

/-- Texts that are empty. -/
def emptyTexts : BundleTexts where
  assetsFindings := []
  findingsCsv := []
  waivers := []
  waiversCsv := []
  executiveSummary := []
  sbom := []
  assetSbom _ _ := []
  sbomIndex _ := []
  readme := []
  stigIndex _ := []
  auditEvents := []
  workbook _ := none
  manifest _ := []

/-- A scan of an asset by a source, at the instant zero. -/
def scanOf (assetId sourceId xml : String) : OpenscapStore :=
  ⟨(str xml).encodeUtf8, str "openscap", str sourceId, str assetId, none, 0⟩

/-- The scan of `a_b` by `c` and the scan of `a` by `b_c`. -/
def twoScans : OpenscapTables :=
  ((OpenscapTables.migrate .empty fun _ hr => absurd hr List.not_mem_nil).storeOpenscapScanResult
    (fun _ => ⟨none, none, none, none⟩) (scanOf "a_b" "c" "<x/>")).storeOpenscapScanResult
    (fun _ => ⟨none, none, none, none⟩) (scanOf "a" "b_c" "<y/>")

end TwoScans

end Vat
