import Vat.Scanner.IncrementalScan
import Vat.Scanner.Snippets
import Vat.Transition.Script

/-!
# What the scan commands send with `--no-snippets`

The payloads that each scan command sends to VAT when it is run with `--no-snippets`, as a script
that depends on which ingest keys there are and which payloads VAT accepts. The commands have a URL
and a key or token of VAT. The client's attempts for one payload count as one.

`scan` and `scan-archive` strip every report, but not inside tuples; the other commands strip the
reports of Trivy only. So what is sent may have snippets, in Gitleaks and Grype reports and in
CycloneDX documents: `payloads_withheld_iff` says exactly when no payload has any.

Source: `vat-local-scanner/vat_scanner/cli.py`, lines 784–1192, 1946–2060, 2271–2399, 2419–2590 and
2798–2880.

## Main definitions

* `PathScan`, `ImageReports`, `ObjectReports`: what the scanners give.
* `Invocation`, `Invocation.script`: a run of a command, and what it sends.
* `Invocation.Withheld`.

## Main results

* `payloads_withheld_iff`.
-/

namespace Vat.Snippets

open Nested Transition Incremental

/-! ### Directories and archives -/

/-- The scan of a directory: the reports that are published while it goes on, in order, with their
parsers, and the reports at its end, unless a scanner fails it. -/
structure PathScan where
  published : List (Str × Obj)
  reports : Option (List (Str × Obj))

/-- The push of a report without its snippets. A missing key fails the command. -/
def pushReport (x : Str × Obj) (next : Script Payload) : Script Payload :=
  .ask fun key =>
    if key then
      match pushPayloads x.1 (stripSnippets x.2) with
      | none => .done
      | some payloads => Script.sendAll next .done payloads
    else .done

/-- Set the latest report of a parser. -/
def remember (latest : List (Str × Obj)) (parser : Str) (payload : Obj) : List (Str × Obj) :=
  if latest.any (·.1 = parser) then
    latest.map fun x => if x.1 = parser then (parser, payload) else x
  else latest ++ [(parser, payload)]

/-- `incremental_latest`. -/
def latestReports (published : List (Str × Obj)) : List (Str × Obj) :=
  published.foldl (fun latest x => remember latest x.1 (stripSnippets x.2)) []

/-- A push after a failed scan, which ignores that it fails itself. -/
def pushFailed (x : Str × Obj) (next : Script Payload) : Script Payload :=
  .ask fun key =>
    if key then
      match pushPayloads x.1 x.2 with
      | none => .done
      | some payloads => Script.sendAll next next payloads
    else next

/-- `cmd_scan` on one directory. -/
def scanPath (path : PathScan) : Script Payload :=
  path.published.foldr pushReport
    (match path.reports with
    | none => (latestReports path.published).foldr pushFailed .done
    | some reports => reports.foldr pushReport .done)

/-- `cmd_scan` on one of several directories. -/
def scanNextPath (path : PathScan) (next : Script Payload) : Script Payload :=
  match path.reports with
  | none => .done
  | some reports => reports.foldr pushReport next

/-- The push of a report of an archive, which is left out if there is no key. -/
def pushArchiveReport (x : Str × Obj) (next : Script Payload) : Script Payload :=
  .ask fun key =>
    if key then
      match pushPayloads x.1 (stripSnippets x.2) with
      | none => .done
      | some payloads => Script.sendAll next .done payloads
    else next

/-- `cmd_scan_archive` on one archive, with its reports unless it cannot be scanned. -/
def scanArchive (reports : Option (List (Str × Obj))) (next : Script Payload) : Script Payload :=
  match reports with
  | none => .done
  | some reports => reports.foldr pushArchiveReport next

/-! ### Images and objects -/

/-- A JSON object that a scanner gives, of which no part is a tuple. -/
structure Document where
  fields : Fields
  tupleFree : fields.toValue.TupleFree

/-- The reports on an image that are not empty; Trivy's as `normalize_trivy` leaves it. -/
structure ImageReports where
  asset : Str
  trivy : Option Document
  grype : Option Document
  sbom : Option Document
  stig : Option Str

/-- The scans that gave a report. -/
def ImageReports.produced (r : ImageReports) : ScanType → Bool
  | .imageSca => r.trivy.isSome
  | .imageGrype => r.grype.isSome
  | .imageSbom => r.sbom.isSome
  | .imageStig | .containerStig => r.stig.isSome

/-- Some requested scan gave no report. -/
def ImageReports.incomplete (r : ImageReports) (types : List ScanType) : Bool :=
  types.any fun t => !r.produced t

/-- The report of a scan type, if it was requested. -/
def requested {α : Type} (types : List ScanType) (t : ScanType) (report : Option α) : List α :=
  if t ∈ types then report.toList else []

/-- The payloads on an image, with those for which a key is looked up. -/
def ImageReports.uploads (r : ImageReports) (stigType : ScanType) (types : List ScanType) :
    List (Payload × Bool) :=
  (requested types .imageSca r.trivy).map
      (fun d => (.json (stripSnippets d.fields.toValue), false)) ++
    (requested types .imageGrype r.grype).map
      (fun d => (.json (normalizeGrype d.fields r.asset), true)) ++
    (requested types stigType r.stig).map (fun content => (.xml content, true)) ++
    (requested types .imageSbom r.sbom).map (fun d => (.json d.fields.toValue, true))

/-- The payloads on an image of the queue. -/
def ImageReports.queueUploads (r : ImageReports) (types : List ScanType) : List (Payload × Bool) :=
  (requested types .imageSca r.trivy).map
      (fun d => (.json (stripSnippets d.fields.toValue), false)) ++
    (requested types .imageSbom r.sbom).map (fun d => (.json d.fields.toValue, false)) ++
    (requested types .containerStig r.stig).map (fun content => (.xml content, false))

/-- Upload one after the other. Without a key the rest is left out. -/
def uploadAll (failOnError : Bool) (next : Script Payload) :
    List (Payload × Bool) → Script Payload
  | [] => next
  | (payload, keyed) :: uploads =>
    let sending := .send payload fun accepted =>
      if !accepted && failOnError then .done else uploadAll failOnError next uploads
    if keyed then
      .ask fun key => if key then sending else if failOnError then .done else next
    else sending

/-- The pass of `cmd_scan_runtime` and `cmd_scan_inventory` over an image. -/
def scanImage (command : Command) (failOnError : Bool) (types : List ScanType) (r : ImageReports)
    (next : Script Payload) : Script Payload :=
  if failOnError && r.incomplete types then .done
  else uploadAll failOnError next (r.uploads command.stigType types)

/-- The reports on a Kubernetes object; Trivy's as `normalize_trivy` leaves it, unless it raises. -/
structure ObjectReports where
  asset : Str
  tag : Str
  trivy : Option Document
  gitleaks : Option Obj

/-- The pass of `cmd_scan_k8s_inventory` over an object. -/
def scanObject (failOnError gitleaksKey : Bool) (r : ObjectReports) (next : Script Payload) :
    Script Payload :=
  match r.trivy with
  | none => if failOnError then .done else next
  | some d =>
    .send (.json (stripSnippets d.fields.toValue)) fun accepted =>
      if accepted then
        match r.gitleaks with
        | none => next
        | some report =>
          if gitleaksKey then
            .send (.json (normalizeGitleaks report r.asset r.tag)) fun accepted =>
              if !accepted && failOnError then .done else next
          else next
      else if failOnError then .done
      else next

/-! ### Commands -/

/-- A run of a scan command with `--no-snippets`; `scanImages` is one of `cmd_scan_runtime` or
`cmd_scan_inventory`. -/
inductive Invocation
  | scan (dryRun : Bool) (paths : List PathScan)
  | scanArchive (dryRun : Bool) (archives : List (Option (List (Str × Obj))))
  | scanImage (dryRun : Bool) (trivy : Option Document)
  | scanImages (command : Command) (dryRun failOnError : Bool) (types : List ScanType)
      (images : List ImageReports)
  | scanK8sInventory (dryRun failOnError : Bool) (objects : List ObjectReports)
  | scanQueue (requests : List (List ScanType × ImageReports))

/-- What a run sends. -/
def Invocation.script : Invocation → Script Payload
  | .scan dryRun paths =>
    if dryRun then .done
    else
      match paths with
      | [path] => scanPath path
      | paths => paths.foldr scanNextPath .done
  | .scanArchive dryRun archives =>
    if dryRun then .done else archives.foldr Snippets.scanArchive .done
  | .scanImage dryRun trivy =>
    match trivy with
    | none => .done
    | some d =>
      if dryRun then .done
      else
        .ask fun key =>
          if key then .send (.json (stripSnippets d.fields.toValue)) fun _ => .done else .done
  | .scanImages command dryRun failOnError types images =>
    if dryRun then .done else images.foldr (Snippets.scanImage command failOnError types) .done
  | .scanK8sInventory dryRun failOnError objects =>
    if dryRun then .done
    else .ask fun gitleaksKey => objects.foldr (scanObject failOnError gitleaksKey) .done
  | .scanQueue requests =>
    requests.foldr (fun r next => uploadAll false next (r.2.queueUploads r.1)) .done

/-! ### Snippets in what is sent -/

/-- The reports that are pushed, as far as there is going on, have no snippets where they are not
removed. -/
def ReportsWithheld (reports : List (Str × Obj)) (last : Prop) : Prop :=
  Script.UpTo (fun x => Sendable x.2) (fun x => Sendable x.2 → Withheld x.1 x.2) last reports

/-- The reports on an image that are not stripped have no snippets. -/
def ImageReports.Withheld (r : ImageReports) (types : List ScanType) : Prop :=
  (∀ d ∈ requested types .imageGrype r.grype, ¬ HasSnippet (grypeKept d.fields)) ∧
    ∀ d ∈ requested types .imageSbom r.sbom, ¬ HasSnippet d.fields.toValue

/-- Where the code leaves snippets, the reports have none. -/
def Invocation.Withheld : Invocation → Prop
  | .scan dryRun paths => dryRun = false →
    match paths with
    | [path] =>
      ReportsWithheld path.published (∀ reports ∈ path.reports, ReportsWithheld reports True)
    | paths => Script.UpTo (fun path => ∃ reports ∈ path.reports, ∀ x ∈ reports, Sendable x.2)
        (fun path => ∀ reports ∈ path.reports, ReportsWithheld reports True) True paths
  | .scanArchive dryRun archives => dryRun = false →
    Script.UpTo (fun reports => reports.isSome = true)
      (fun reports => ∀ reports' ∈ reports, ∀ x ∈ reports',
        Sendable x.2 → Snippets.Withheld x.1 x.2) True archives
  | .scanImage _ _ => True
  | .scanImages _ dryRun failOnError types images => dryRun = false →
    Script.UpTo (fun r => (failOnError && r.incomplete types) = false)
      (fun r => (failOnError && r.incomplete types) = false → r.Withheld types) True images
  | .scanK8sInventory dryRun failOnError objects => dryRun = false →
    Script.UpTo (fun r => r.trivy.isSome = true ∨ failOnError = false)
      (fun r => r.trivy.isSome = true → ∀ report ∈ r.gitleaks,
        ¬ HasSnippet (gitleaksKept report r.tag)) True objects
  | .scanQueue requests => ∀ r ∈ requests, ∀ d ∈ requested r.1 .imageSbom r.2.sbom,
      ¬ HasSnippet d.fields.toValue

section Pushes

variable {next : Script Payload}

/-- No payload that a script sends has a snippet. -/
def Clean (s : Script Payload) : Prop := s.All fun q => ¬ q.HasSnippet

theorem clean_ask_iff {next : Bool → Script Payload} :
    Clean (.ask next) ↔ Clean (next false) ∧ Clean (next true) := Bool.forall_bool

theorem clean_send_iff {payload : Payload} {next : Bool → Script Payload} :
    Clean (.send payload next) ↔
      ¬ payload.HasSnippet ∧ Clean (next false) ∧ Clean (next true) :=
  and_congr_right fun _ => Bool.forall_bool

theorem clean_done : Clean .done := trivial

/-- The push of a report without its snippets. -/
theorem clean_payloads_iff {x : Str × Obj} :
    Clean (match pushPayloads x.1 (stripSnippets x.2) with
      | none => .done
      | some payloads => Script.sendAll next .done payloads) ↔
      (Sendable x.2 → Withheld x.1 x.2) ∧ (Sendable x.2 → Clean next) := by
  cases h : pushPayloads x.1 (stripSnippets x.2) with
  | none =>
    have hnot := pushPayloads_eq_none_iff.mp h
    exact iff_of_true clean_done ⟨fun hs => absurd hs hnot, fun hs => absurd hs hnot⟩
  | some payloads =>
    have hsendable : Sendable x.2 := by
      by_contra hnot
      rw [pushPayloads_eq_none_iff.mpr hnot] at h
      simp at h
    rw [forall_prop_of_true hsendable, forall_prop_of_true hsendable, ← forall_pushPayloads_iff h]
    exact Script.all_sendAll_iff fun _ => clean_done

theorem clean_pushReport_iff (x : Str × Obj) (next : Script Payload) :
    Clean (pushReport x next) ↔
      (Sendable x.2 → Withheld x.1 x.2) ∧ (Sendable x.2 → Clean next) := by
  rw [pushReport, clean_ask_iff, if_neg Bool.false_ne_true, if_pos rfl,
    and_iff_right clean_done, clean_payloads_iff]

theorem clean_pushArchiveReport_iff (x : Str × Obj) (next : Script Payload) :
    Clean (pushArchiveReport x next) ↔
      (Sendable x.2 → Withheld x.1 x.2) ∧ (True → Clean next) := by
  rw [pushArchiveReport, clean_ask_iff, if_neg Bool.false_ne_true, if_pos rfl, clean_payloads_iff]
  tauto

theorem clean_uploadAll_iff {failOnError : Bool} {uploads : List (Payload × Bool)} :
    Clean (uploadAll failOnError next uploads) ↔
      (∀ u ∈ uploads, ¬ u.1.HasSnippet) ∧ Clean next := by
  induction uploads with
  | nil => simp [uploadAll]
  | cons u uploads ih =>
    obtain ⟨payload, keyed⟩ := u
    have hsending : Clean (.send payload fun accepted =>
        if !accepted && failOnError then .done else uploadAll failOnError next uploads) ↔
          ¬ payload.HasSnippet ∧ (∀ u ∈ uploads, ¬ u.1.HasSnippet) ∧ Clean next := by
      rw [clean_send_iff, ← ih]
      cases failOnError <;> simp [clean_done]
    rw [uploadAll, List.forall_mem_cons, and_assoc, ← hsending]
    cases keyed with
    | false => rfl
    | true =>
      rw [if_pos rfl, clean_ask_iff, if_pos rfl, if_neg Bool.false_ne_true]
      refine and_iff_right_of_imp fun h => ?_
      split
      · exact clean_done
      · exact (hsending.mp h).2.2

/-! ### Directories and archives -/

theorem clean_foldr_pushReport_iff {reports : List (Str × Obj)} :
    Clean (reports.foldr pushReport next) ↔ ReportsWithheld reports (Clean next) :=
  Script.all_foldr_iff clean_pushReport_iff next reports

theorem clean_foldr_pushReport_done_iff {reports : List (Str × Obj)} :
    Clean (reports.foldr pushReport .done) ↔ ReportsWithheld reports True := by
  rw [clean_foldr_pushReport_iff, eq_true clean_done]

theorem mem_remember {latest : List (Str × Obj)} {parser : Str} {payload : Obj} {x : Str × Obj}
    (h : x ∈ remember latest parser payload) : x ∈ latest ∨ x = (parser, payload) := by
  rw [remember] at h
  split at h
  · obtain ⟨y, hy, rfl⟩ := List.mem_map.mp h
    split
    · exact .inr rfl
    · exact .inl hy
  · rcases List.mem_append.mp h with h | h
    · exact .inl h
    · exact .inr (List.mem_singleton.mp h)

/-- The latest reports are published ones without their snippets. -/
theorem mem_latestReports {published : List (Str × Obj)} {x : Str × Obj}
    (h : x ∈ latestReports published) : ∃ y ∈ published, x = (y.1, stripSnippets y.2) := by
  induction published using List.reverseRecOn with
  | nil => simp [latestReports] at h
  | append_singleton published y ih =>
    rw [latestReports, List.foldl_append] at h
    rcases mem_remember h with h | rfl
    · obtain ⟨z, hz, rfl⟩ := ih h
      exact ⟨z, List.mem_append_left _ hz, rfl⟩
    · exact ⟨y, List.mem_append_right _ List.mem_cons_self, rfl⟩

/-- After a failed scan nothing else is sent than before it. -/
theorem clean_pushFailed {published : List (Str × Obj)}
    (h : ∀ y ∈ published, Sendable y.2 → Withheld y.1 y.2) :
    Clean ((latestReports published).foldr pushFailed .done) := by
  have hlatest : ∀ x ∈ latestReports published, ∀ payloads,
      pushPayloads x.1 x.2 = some payloads → ∀ q ∈ payloads, ¬ q.HasSnippet := by
    intro x hx payloads hpush
    obtain ⟨y, hy, rfl⟩ := mem_latestReports hx
    refine (forall_pushPayloads_iff hpush).mpr (h y hy ?_)
    by_contra hnot
    rw [pushPayloads_eq_none_iff.mpr hnot] at hpush
    simp at hpush
  generalize latestReports published = latest at hlatest
  induction latest with
  | nil => exact clean_done
  | cons x latest ih =>
    obtain ⟨hx, hrest⟩ := List.forall_mem_cons.mp hlatest
    have hnext := ih hrest
    rw [List.foldr_cons, pushFailed, clean_ask_iff, if_neg Bool.false_ne_true, if_pos rfl]
    refine ⟨hnext, ?_⟩
    split
    · exact clean_done
    · next payloads hpush => exact (Script.all_sendAll_iff id).mpr ⟨hx payloads hpush, hnext⟩

theorem clean_scanPath_iff (path : PathScan) :
    Clean (scanPath path) ↔
      ReportsWithheld path.published (∀ reports ∈ path.reports, ReportsWithheld reports True) := by
  rw [scanPath, clean_foldr_pushReport_iff]
  cases path.reports with
  | some reports =>
    simp only [clean_foldr_pushReport_done_iff, Option.mem_def, Option.some.injEq, forall_eq']
  | none =>
    simp only [Option.mem_def, reduceCtorEq, false_implies, implies_true]
    refine Script.upTo_iff.trans (and_iff_left_of_imp fun h hall => clean_pushFailed ?_)
    exact ((Script.upTo_iff_forall hall).mp h).1

theorem clean_scanNextPath_iff (path : PathScan) (next : Script Payload) :
    Clean (scanNextPath path next) ↔
      (∀ reports ∈ path.reports, ReportsWithheld reports True) ∧
        ((∃ reports ∈ path.reports, ∀ x ∈ reports, Sendable x.2) → Clean next) := by
  rw [scanNextPath]
  cases path.reports with
  | none => simp [clean_done]
  | some reports =>
    rw [clean_foldr_pushReport_iff, ReportsWithheld, Script.upTo_iff]
    simp [ReportsWithheld]

theorem clean_scanArchive_iff (reports : Option (List (Str × Obj))) (next : Script Payload) :
    Clean (scanArchive reports next) ↔
      (∀ reports' ∈ reports, ∀ x ∈ reports', Sendable x.2 → Withheld x.1 x.2) ∧
        (reports.isSome = true → Clean next) := by
  cases reports with
  | none => simp [scanArchive, clean_done]
  | some reports =>
    have hall : Clean (reports.foldr pushArchiveReport next) ↔
        Script.UpTo (fun _ => True) (fun x : Str × Obj => Sendable x.2 → Withheld x.1 x.2)
          (Clean next) reports := Script.all_foldr_iff clean_pushArchiveReport_iff next reports
    rw [scanArchive, hall, Script.upTo_iff_forall fun _ _ => trivial]
    simp

/-! ### Images and objects -/

/-- A document without its snippets has none. -/
theorem Document.not_hasSnippet_strip (d : Document) :
    ¬ HasSnippet (stripSnippets d.fields.toValue) :=
  d.tupleFree.not_hasKey_strip

theorem forall_uploads_iff {r : ImageReports} {stigType : ScanType} {types : List ScanType} :
    (∀ u ∈ r.uploads stigType types, ¬ u.1.HasSnippet) ↔ r.Withheld types := by
  simp only [ImageReports.uploads, List.forall_mem_append, List.forall_mem_map,
    ImageReports.Withheld, Payload.HasSnippet, hasSnippet_normalizeGrype_iff,
    Document.not_hasSnippet_strip]
  simp

theorem forall_queueUploads_iff {r : ImageReports} {types : List ScanType} :
    (∀ u ∈ r.queueUploads types, ¬ u.1.HasSnippet) ↔
      ∀ d ∈ requested types .imageSbom r.sbom, ¬ HasSnippet d.fields.toValue := by
  simp only [ImageReports.queueUploads, List.forall_mem_append, List.forall_mem_map,
    Payload.HasSnippet, Document.not_hasSnippet_strip]
  simp

theorem clean_scanImage_iff (command : Command) (failOnError : Bool) (types : List ScanType)
    (r : ImageReports) (next : Script Payload) :
    Clean (scanImage command failOnError types r next) ↔
      ((failOnError && r.incomplete types) = false → r.Withheld types) ∧
        ((failOnError && r.incomplete types) = false → Clean next) := by
  rw [scanImage]
  cases habort : failOnError && r.incomplete types with
  | true => simp [clean_done]
  | false =>
    rw [if_neg Bool.false_ne_true, clean_uploadAll_iff, forall_uploads_iff]
    simp

/-- Without a key for Gitleaks only what is stripped is sent. -/
theorem clean_scanObject_of_no_key {failOnError : Bool} (r : ObjectReports)
    {next : Script Payload} (h : Clean next) : Clean (scanObject failOnError false r next) := by
  have hstop : Clean (if failOnError then .done else next) := by
    split
    · exact clean_done
    · exact h
  rw [scanObject]
  split
  · exact hstop
  · next d _ =>
    refine clean_send_iff.mpr ⟨d.not_hasSnippet_strip, hstop, ?_⟩
    rw [if_pos rfl]
    split
    · exact h
    · exact h

theorem clean_scanObject_iff (failOnError : Bool) (r : ObjectReports) (next : Script Payload) :
    Clean (scanObject failOnError true r next) ↔
      (r.trivy.isSome = true → ∀ report ∈ r.gitleaks, ¬ HasSnippet (gitleaksKept report r.tag)) ∧
        (r.trivy.isSome = true ∨ failOnError = false → Clean next) := by
  rw [scanObject]
  cases r.trivy with
  | none => cases failOnError <;> simp [clean_done]
  | some d =>
    have hd : ¬ Payload.HasSnippet (.json (stripSnippets d.fields.toValue)) :=
      d.not_hasSnippet_strip
    cases r.gitleaks with
    | none => cases failOnError <;> simp [clean_send_iff, hd, clean_done]
    | some report =>
      have hreport : Payload.HasSnippet (.json (normalizeGitleaks report r.asset r.tag)) ↔
          HasSnippet (gitleaksKept report r.tag) := hasSnippet_normalizeGitleaks_iff
      cases failOnError <;> simp [clean_send_iff, hd, hreport, clean_done]

theorem clean_scan_iff {paths : List PathScan} :
    Clean (Invocation.scan false paths).script ↔ (Invocation.scan false paths).Withheld := by
  have hmany : ∀ paths, Clean (paths.foldr scanNextPath .done) ↔
      Script.UpTo (fun path => ∃ reports ∈ path.reports, ∀ x ∈ reports, Sendable x.2)
        (fun path => ∀ reports ∈ path.reports, ReportsWithheld reports True) True paths :=
    fun paths => Script.all_foldr_iff clean_scanNextPath_iff .done paths
  match paths with
  | [] => exact iff_of_true clean_done fun _ => trivial
  | [path] =>
    exact ⟨fun h _ => (clean_scanPath_iff path).mp h,
      fun h => (clean_scanPath_iff path).mpr (h rfl)⟩
  | path :: path' :: paths => exact ⟨fun h _ => (hmany _).mp h, fun h => (hmany _).mpr (h rfl)⟩

theorem clean_script_iff (c : Invocation) : Clean c.script ↔ c.Withheld := by
  cases c with
  | scan dryRun paths =>
    cases dryRun with
    | true => exact iff_of_true clean_done fun h => absurd h (by decide)
    | false => exact clean_scan_iff
  | scanArchive dryRun archives =>
    cases dryRun with
    | true => exact iff_of_true clean_done fun h => absurd h (by decide)
    | false =>
      have hall := Script.all_foldr_iff clean_scanArchive_iff .done archives
      exact ⟨fun h _ => hall.mp h, fun h => hall.mpr (h rfl)⟩
  | scanImage dryRun trivy =>
    refine iff_of_true ?_ trivial
    cases trivy with
    | none => exact clean_done
    | some d =>
      cases dryRun with
      | true => exact clean_done
      | false =>
        exact clean_ask_iff.mpr
          ⟨clean_done, clean_send_iff.mpr ⟨d.not_hasSnippet_strip, clean_done, clean_done⟩⟩
  | scanImages command dryRun failOnError types images =>
    cases dryRun with
    | true => exact iff_of_true clean_done fun h => absurd h (by decide)
    | false =>
      have hall := Script.all_foldr_iff (clean_scanImage_iff command failOnError types) .done images
      exact ⟨fun h _ => hall.mp h, fun h => hall.mpr (h rfl)⟩
  | scanK8sInventory dryRun failOnError objects =>
    cases dryRun with
    | true => exact iff_of_true clean_done fun h => absurd h (by decide)
    | false =>
      have hnoKey : Clean (objects.foldr (scanObject failOnError false) .done) := by
        induction objects with
        | nil => exact clean_done
        | cons r objects ih => exact clean_scanObject_of_no_key r ih
      have hall := Script.all_foldr_iff (clean_scanObject_iff failOnError) .done objects
      refine clean_ask_iff.trans ((and_iff_right hnoKey).trans ?_)
      exact ⟨fun h _ => hall.mp h, fun h => hall.mpr (h rfl)⟩
  | scanQueue requests =>
    rw [Invocation.script, Invocation.Withheld]
    induction requests with
    | nil => simp [clean_done]
    | cons r requests ih =>
      rw [List.foldr_cons, clean_uploadAll_iff, forall_queueUploads_iff, ih, List.forall_mem_cons]

end Pushes

/-- No payload that a scan command sends with `--no-snippets` has a snippet, whatever keys there are
and whatever VAT accepts, exactly if the reports have none where the code leaves them. -/
theorem payloads_withheld_iff (c : Invocation) :
    (∀ answers, ∀ q ∈ c.script.run answers, ¬ q.HasSnippet) ↔ c.Withheld :=
  (Script.forall_run_iff c.script).trans (clean_script_iff c)

/-- A Secret whose manifest has a token. -/
def leakedToken : ObjectReports where
  asset := str "cluster/default"
  tag := []
  trivy := some ⟨Fields.empty, by simp [Fields.empty, Dict.toValue, Value.TupleFree]⟩
  gitleaks := some (.list 1 fun _ =>
    .dict [str "RuleID", str "Secret"] fun k =>
      text (if k = str "Secret" then str "ghp_0123456789" else str "github-pat"))

/-- `scan-k8s-inventory` sends the secrets that Gitleaks finds. -/
theorem not_payloads_withheld :
    ¬ ∀ (c : Invocation) (answers : List Bool), ∀ q ∈ c.script.run answers, ¬ q.HasSnippet := by
  intro h
  have hsent : .json (normalizeGitleaks (leakedToken.gitleaks.get rfl) leakedToken.asset []) ∈
      (Invocation.scanK8sInventory false false [leakedToken]).script.run [true, true, true] :=
    List.mem_cons_of_mem _ List.mem_cons_self
  have hsnippet : HasSnippet (leakedToken.gitleaks.get rfl) := by decide
  refine h _ _ _ hsent ((hasSnippet_normalizeGitleaks_iff).mpr ?_)
  exact hsnippet

end Vat.Snippets
