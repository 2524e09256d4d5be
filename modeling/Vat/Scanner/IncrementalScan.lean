import Mathlib.Data.Char
import Mathlib.Data.List.Lex
import Mathlib.Logic.Function.Basic
import Mathlib.Order.Lex
import Vat.Delimited.Fields
import Vat.Python.Text
import Vat.Transition.Run

/-!
# Incremental scans

`scan-inventory` and `scan-runtime` keep a state file with the signature under which each image was
scanned last, and skip an image whose signature is still the same. Runs share the file: a run begins
with the file that the runs before it have left, scans or skips one image after the other, and may
end anywhere.

Every checkpoint in the file stands for reports that VAT has accepted exactly if no pass over an
image writes one without that (`checkpoints_reported_iff`): a dry run does, and `scan-runtime` does
for an image that a scanner has failed on. Then what is skipped has been reported, if its reference
is that of its checkpoint (`skipped_reported`), which the signature of an image with a digest does
not say.

Source: `vat-local-scanner/vat_scanner/cli.py`, lines 255–337, 1195–1228, 1345–1422, 1690–1695,
1853–2078 and 2138–2416.

## Main definitions

* `Incremental.Command`, `Incremental.ScanType`, `Incremental.parseScanTypes`.
* `Incremental.Item`, `Incremental.Identity`: images and their signatures.
* `Incremental.Context`, `Incremental.Outcome`: a run, and what scanners and VAT do in a pass.
* `Incremental.State`, `Incremental.Op`, `Incremental.step`.
* `Incremental.Reported`, `Incremental.Earned`, `Incremental.KeepsReference`.

## Main results

* `Incremental.checkpoints_reported_iff`, `Incremental.skipped_reported`.
-/

namespace Vat.Incremental

open Transition Delimited

/-! ### Scan types -/

inductive Command
  | inventory | runtime
deriving DecidableEq

inductive ScanType
  | imageSca | imageGrype | imageSbom | imageStig | containerStig
deriving DecidableEq

namespace ScanType

def text : ScanType → Str
  | .imageSca => str "image-sca"
  | .imageGrype => str "image-grype"
  | .imageSbom => str "image-sbom"
  | .imageStig => str "image-stig"
  | .containerStig => str "container-stig"

/-- The types that are not best effort. -/
def required : ScanType → Bool
  | .imageSca | .imageSbom | .containerStig => true
  | .imageGrype | .imageStig => false

end ScanType

namespace Command

/-- `INVENTORY_SCAN_TYPES` and `RUNTIME_SCAN_TYPES`. -/
def defaultTypes : Command → List ScanType
  | .inventory => [.imageSca, .imageSbom]
  | .runtime => [.imageSca, .imageSbom, .containerStig]

/-- `INVENTORY_SCAN_TYPES_ALL` and `RUNTIME_SCAN_TYPES_ALL`. -/
def allTypes : Command → List ScanType
  | .inventory => [.imageSca, .imageGrype, .imageSbom, .imageStig]
  | .runtime => [.imageSca, .imageGrype, .imageSbom, .containerStig]

def stigType : Command → ScanType
  | .inventory => .imageStig
  | .runtime => .containerStig

/-- The other names of scan types. -/
def aliases (c : Command) : List (Str × Str) :=
  [(str "trivy", ScanType.imageSca.text), (str "sca", ScanType.imageSca.text),
    (str "grype", ScanType.imageGrype.text), (str "sbom", ScanType.imageSbom.text),
    (str "cyclonedx", ScanType.imageSbom.text), (str "stig", c.stigType.text),
    (str "openscap", c.stigType.text), (str "container-stig", c.stigType.text)]

/-- The scan type that a part of the option names. -/
def scanType (c : Command) (part : Str) : Option ScanType :=
  c.allTypes.find? fun t => t.text = (c.aliases.lookup part).getD part

end Command

/-- `_parse_inventory_scan_types` and `_parse_runtime_scan_types`, from the text that the option,
the environment or the default gives. -/
def parseScanTypes [Unicode] (c : Command) (value : Str) : List ScanType :=
  let requested := ((value.splitOn ',').filter (Str.strip · ≠ [])).map fun part =>
    Unicode.lower (Str.strip part)
  if requested.any fun part => part = str "all" ∨ part = str "*" then c.allTypes
  else
    let out := (requested.filterMap c.scanType).eraseDups
    if out = [] then c.defaultTypes else out

theorem parseScanTypes_ne_nil [Unicode] (c : Command) (value : Str) :
    parseScanTypes c value ≠ [] := by
  rw [parseScanTypes]
  dsimp only
  split
  · cases c <;> simp [Command.allTypes]
  · split
    · cases c <;> simp [Command.defaultTypes]
    · assumption

/-! ### Images -/

/-- A target of an image in the inventory. -/
structure InventoryTarget where
  ns : Str
  kind : Str
  name : Str
  containerName : Str
  imagePullSecrets : List Str

/-- A container of an image, or the image itself, in a runtime. -/
structure RuntimeTarget where
  containerId : Str
  state : Str

/-- An image that a run comes to. -/
inductive Item
  | inventory (image imageDigest : Str) (targets : List InventoryTarget)
  | runtime (image : Str) (targets : List RuntimeTarget)

/-- What a run makes of an image. The asset of all its targets is its reference. -/
structure Identity where
  key : Str
  signature : Str
  image : Str
  digest : Str

/-- `sorted`. -/
def sorted (texts : List Str) : List Str := texts.mergeSort fun a b => decide (a ≤ b)

/-- `_inventory_target_signature`. -/
def inventoryTargetSignature (t : InventoryTarget) : Str :=
  let secrets := Str.join ',' (sorted ((t.imagePullSecrets.map Str.strip).filter (· ≠ [])))
  Str.join '/' ([Str.strip t.ns, Str.strip t.kind, Str.strip t.name, Str.strip t.containerName] ++
    if secrets = [] then [] else [str "pullSecrets=" ++ secrets])

/-- The end of a signature. -/
def typesText (types : List ScanType) : Str := Str.join ',' (types.map ScanType.text)

/-- `_runtime_image_signature`. -/
def runtimeImageSignature (image : Str) (targets : List RuntimeTarget) (types : List ScanType) :
    Str :=
  let bits := targets.map fun t => image ++ str "|" ++ t.containerId ++ str "|" ++ t.state
  image ++ str "|targets=" ++ Str.join ',' (sorted bits) ++ str "|scanTypes=" ++ typesText types

/-- The key and the signature of an image; nothing if it has no reference. -/
def Item.identify (types : List ScanType) : Item → Option Identity
  | .inventory image imageDigest targets =>
    let image := Str.strip image
    let digest := Str.strip imageDigest
    let key := if digest = [] then image else digest
    if image = [] then none
    else some
      { key := key
        signature :=
          key ++ str "|" ++ Str.join ',' (sorted (targets.map inventoryTargetSignature)) ++
            str "|scanTypes=" ++ typesText types
        image := image
        digest := digest }
  | .runtime image targets =>
    let image := Str.strip image
    if image = [] then none
    else some
      { key := image
        signature := runtimeImageSignature image targets types
        image := image
        digest := [] }

/-- The command that an image is given to. -/
def Item.command : Item → Command
  | .inventory _ _ _ => .inventory
  | .runtime _ _ => .runtime

/-! ### Runs -/

/-- A checkpoint. -/
structure Checkpoint where
  signature : Str
  image : Str

/-- The state file. -/
structure StateFile where
  images : Str → Option Checkpoint
  lastFullScanAt : Option ℕ

/-- `_full_rescan_due`. -/
def fullRescanDue (file : StateFile) (interval : ℤ) (force : Bool) (now : ℕ) : Bool :=
  if force then true
  else if interval ≤ 0 then false
  else
    match file.lastFullScanAt with
    | none => false
    | some last => interval ≤ (now : ℤ) - last

/-- The options of a run, its time, and what VAT says of the digests that it knows, if it does. -/
structure Args where
  command : Command
  dryRun : Bool
  failOnError : Bool
  force : Bool
  scanTypes : Str
  interval : ℤ
  now : ℕ
  known : Option (List Str)

/-- A run under way. -/
structure Context where
  command : Command
  dryRun : Bool
  failOnError : Bool
  scanTypes : List ScanType
  fullRescan : Bool
  known : Option (List Str)
  failures : ℕ

/-- What happens in the pass over an image: which scanners produce a report, for which parsers there
is a key, and which reports VAT accepts. -/
structure Outcome where
  produced : ScanType → Bool
  hasKey : ScanType → Bool
  accepts : ScanType → Bool

/-- The uploads of a pass. -/
structure Uploads where
  failures : ℕ
  ingested : List ScanType
  aborted : Bool

/-- The order in which reports are uploaded. -/
def uploadOrder : List ScanType := [.imageSca, .imageGrype, .imageStig, .containerStig, .imageSbom]

/-- The uploads of some reports. Without a key the rest is left out; the key of trivy is not
checked. -/
def upload (failOnError : Bool) (o : Outcome) : List ScanType → Uploads
  | [] => ⟨0, [], false⟩
  | t :: ts =>
    if t ≠ .imageSca ∧ ¬ o.hasKey t then ⟨1, [], failOnError⟩
    else
      let rest := upload failOnError o ts
      if o.accepts t then { rest with ingested := t :: rest.ingested }
      else if failOnError then ⟨1, [], true⟩
      else { rest with failures := rest.failures + 1 }

namespace Context

variable (c : Context) (o : Outcome)

/-- The requested scans that produced no report. -/
def missing : List ScanType := c.scanTypes.filter fun t => !o.produced t

/-- Those of them that are no best effort. -/
def requiredMissing : List ScanType := (c.missing o).filter ScanType.required

def uploads : Uploads :=
  if c.dryRun then ⟨0, [], false⟩
  else upload c.failOnError o (uploadOrder.filter fun t => t ∈ c.scanTypes ∧ o.produced t)

/-- `target_failures`: `scan-runtime` does not count the scanners. -/
def targetFailures : ℕ :=
  match c.command with
  | .inventory => (c.requiredMissing o).length + (c.uploads o).failures
  | .runtime => (c.uploads o).failures

/-- Whether a scanner fails the run. -/
def scannersAbort : Bool := c.failOnError && c.missing o ≠ []

end Context

/-- A pass over an image that was not skipped. -/
structure Scan where
  signature : Str
  asset : Str
  dryRun : Bool
  ingested : List ScanType

/-- The file, the run under way, and the scans so far. -/
structure State where
  file : StateFile
  run : Option Context
  scans : List Scan

/-- A step of a run: it begins, comes to an image, or ends. -/
inductive Op
  | start (args : Args)
  | item (i : Item) (o : Outcome)
  | finish (now : ℕ)

section Steps

variable [Unicode]

/-- The beginning of a run. -/
def Args.context (args : Args) (file : StateFile) : Context where
  command := args.command
  dryRun := args.dryRun
  failOnError := args.failOnError
  scanTypes := parseScanTypes args.command args.scanTypes
  fullRescan := fullRescanDue file args.interval args.force args.now
  known := if args.command = .inventory ∧ ¬ args.dryRun then args.known else none
  failures := 0

/-- Whether an image is skipped. -/
def skips (file : StateFile) (c : Context) (id : Identity) : Bool :=
  !c.fullRescan &&
    (match c.known with
      | none => true
      | some known => id.digest = [] || Unicode.lower id.digest ∈ known) &&
    (file.images id.key).any fun checkpoint => checkpoint.signature = id.signature

/-- The pass over an image that is not skipped. -/
def State.scan (s : State) (c : Context) (id : Identity) (o : Outcome) : State :=
  if c.scannersAbort o then { s with run := none }
  else
    let scans := s.scans ++ [⟨id.signature, id.image, c.dryRun, (c.uploads o).ingested⟩]
    if (c.uploads o).aborted then { s with run := none, scans := scans }
    else
      { file :=
          if c.targetFailures o = 0 then
            { s.file with
              images := Function.update s.file.images id.key (some ⟨id.signature, id.image⟩) }
          else s.file
        run := some { c with
          failures := c.failures + (c.requiredMissing o).length + (c.uploads o).failures }
        scans := scans }

/-- The run under way and the image that it comes to. -/
def State.visit (s : State) (i : Item) : Option (Context × Identity) :=
  s.run.bind fun c => if c.command = i.command then (i.identify c.scanTypes).map (c, ·) else none

def step (s : State) : Op → State
  | .start args => { s with run := some (args.context s.file) }
  | .item i o =>
    match s.visit i with
    | none => s
    | some (c, id) => if skips s.file c id then s else s.scan c id o
  | .finish now =>
    match s.run with
    | none => s
    | some c =>
      { s with
        file :=
          if c.failures = 0 ∧ (c.fullRescan ∨ s.file.lastFullScanAt = none) then
            { s.file with lastFullScanAt := some now }
          else s.file
        run := none }

end Steps

/-- No state file yet. -/
def start : State := ⟨⟨fun _ => none, none⟩, none, []⟩

/-! ### Reports -/

/-- A pass that is no dry run has brought VAT the required reports on an asset. -/
structure Scan.Covers (e : Scan) (signature : Str) (types : List ScanType) (asset : Str) :
    Prop where
  signature : e.signature = signature
  asset : e.asset = asset
  dryRun : e.dryRun = false
  ingested : ∀ t ∈ types, t.required = true → t ∈ e.ingested

def Reported (scans : List Scan) (signature : Str) (types : List ScanType) (asset : Str) : Prop :=
  ∃ e ∈ scans, e.Covers signature types asset

instance Scan.Covers.decidable (e : Scan) (signature : Str) (types : List ScanType) (asset : Str) :
    Decidable (e.Covers signature types asset) :=
  decidable_of_iff (e.signature = signature ∧ e.asset = asset ∧ e.dryRun = false ∧
      ∀ t ∈ types, t.required = true → t ∈ e.ingested)
    ⟨fun ⟨hs, ha, hd, hi⟩ => ⟨hs, ha, hd, hi⟩, fun ⟨hs, ha, hd, hi⟩ => ⟨hs, ha, hd, hi⟩⟩

instance Reported.decidable (scans : List Scan) (signature : Str) (types : List ScanType)
    (asset : Str) : Decidable (Reported scans signature types asset) :=
  inferInstanceAs (Decidable (∃ e ∈ scans, e.Covers signature types asset))

/-- A signature is made for some scan types. -/
def Signed (signature : Str) (types : List ScanType) : Prop :=
  types ≠ [] ∧ ∃ base, signature = base ++ str "|scanTypes=" ++ typesText types

/-- Every checkpoint stands for reports that VAT has. -/
def CheckpointsReported (s : State) : Prop :=
  ∀ key e, s.file.images key = some e →
    ∃ types, Signed e.signature types ∧ Reported s.scans e.signature types e.image

namespace ScanType

theorem not_mem_text : ∀ t : ScanType, ',' ∉ t.text ∧ '|' ∉ t.text
  | .imageSca | .imageGrype | .imageSbom | .imageStig | .containerStig => by decide

theorem text_injective : Function.Injective text := by
  intro t t' h
  cases t <;> cases t' <;> first | rfl | exact absurd h (by decide)

end ScanType

theorem not_mem_typesText (types : List ScanType) : '|' ∉ typesText types := by
  cases types with
  | nil => simp [typesText, Str.join]
  | cons t types =>
    rw [typesText, Str.join, List.map_cons, intercalate_cons]
    simp [(ScanType.not_mem_text _).2]

/-- A signature tells its scan types. -/
theorem Signed.unique {signature : Str} {types types' : List ScanType} (h : Signed signature types)
    (h' : Signed signature types') : types = types' := by
  obtain ⟨hne, base, rfl⟩ := h
  obtain ⟨hne', base', heq⟩ := h'
  have hmark : ∀ text : Str, str "|scanTypes=" ++ text = '|' :: (str "scanTypes=" ++ text) :=
    fun _ => rfl
  have hno : ∀ types, '|' ∉ str "scanTypes=" ++ typesText types := by
    intro types hmem
    rcases List.mem_append.mp hmem with h | h
    · exact absurd h (by decide)
    · exact not_mem_typesText types h
  rw [List.append_assoc, List.append_assoc, hmark, hmark] at heq
  have htexts : typesText types = typesText types' :=
    List.append_cancel_left ((append_cons_inj_right (hno types) (hno types')).mp heq).2
  have hcomma : ∀ (types : List ScanType), ∀ text ∈ types.map ScanType.text, ',' ∉ text := by
    intro types text hmem
    obtain ⟨t, -, rfl⟩ := List.mem_map.mp hmem
    exact t.not_mem_text.1
  refine List.map_injective_iff.mpr ScanType.text_injective ?_
  exact intercalate_inj (by simpa using hne) (by simpa using hne') (hcomma types) (hcomma types')
    htexts

/-- The signature of an image is made for the scan types of the run. -/
theorem Item.signed_identify {types : List ScanType} (hne : types ≠ []) {i : Item} {id : Identity}
    (h : i.identify types = some id) : Signed id.signature types := by
  refine ⟨hne, ?_⟩
  cases i with
  | inventory image imageDigest targets =>
    simp only [Item.identify, Option.ite_none_left_eq_some] at h
    obtain ⟨-, h⟩ := h
    cases h
    exact ⟨_, rfl⟩
  | runtime image targets =>
    simp only [Item.identify, Option.ite_none_left_eq_some] at h
    obtain ⟨-, h⟩ := h
    cases h
    exact ⟨_, rfl⟩

theorem Reported.append {scans : List Scan} {e : Scan} {signature asset : Str}
    {types : List ScanType} :
    Reported (scans ++ [e]) signature types asset ↔
      Reported scans signature types asset ∨ e.Covers signature types asset := by
  simp [Reported, or_and_right, exists_or]

/-- The run under way has scan types. -/
def Requests (s : State) : Prop := ∀ c, s.run = some c → c.scanTypes ≠ []

/-! ### Uploads -/

/-- A report is uploaded: there is a key for it, and VAT accepts it. -/
def Outcome.Uploads (o : Outcome) (t : ScanType) : Prop :=
  (t ≠ .imageSca → o.hasKey t = true) ∧ o.accepts t = true

instance Outcome.Uploads.decidable (o : Outcome) (t : ScanType) : Decidable (o.Uploads t) :=
  inferInstanceAs (Decidable ((t ≠ .imageSca → o.hasKey t = true) ∧ o.accepts t = true))

variable {failOnError : Bool} {o : Outcome} {ts : List ScanType}

theorem upload_of_uploads (h : ∀ t ∈ ts, o.Uploads t) :
    upload failOnError o ts = ⟨0, ts, false⟩ := by
  induction ts with
  | nil => rfl
  | cons t ts ih =>
    obtain ⟨hkey, haccepts⟩ := h t List.mem_cons_self
    have hno : ¬ (t ≠ .imageSca ∧ ¬ o.hasKey t) := fun ⟨hne, hnot⟩ => hnot (hkey hne)
    rw [upload, if_neg hno, ih fun t' ht' => h t' (List.mem_cons_of_mem t ht'), if_pos haccepts]

/-- Uploads without failure are complete. -/
theorem uploads_of_failures_eq_zero (h : (upload failOnError o ts).failures = 0) :
    ∀ t ∈ ts, o.Uploads t := by
  induction ts with
  | nil => simp
  | cons t ts ih =>
    rw [upload] at h
    split at h
    · simp at h
    · next hkey =>
      split at h
      · next haccepts =>
        refine List.forall_mem_cons.mpr ⟨⟨fun hne => ?_, haccepts⟩, ih h⟩
        by_contra hno
        exact hkey ⟨hne, hno⟩
      · split at h <;> simp at h

namespace Context

variable (c : Context) (o : Outcome)

/-- The pass over an image completes without a failure that counts against its checkpoint. -/
def Passes : Prop :=
  c.scannersAbort o = false ∧ (c.command = .inventory → c.requiredMissing o = []) ∧
    (c.dryRun = true ∨ ∀ t ∈ c.scanTypes, o.produced t = true → o.Uploads t)

instance Passes.decidable : Decidable (c.Passes o) :=
  inferInstanceAs (Decidable (c.scannersAbort o = false ∧
    (c.command = .inventory → c.requiredMissing o = []) ∧
      (c.dryRun = true ∨ ∀ t ∈ c.scanTypes, o.produced t = true → o.Uploads t)))

variable {c o}

theorem mem_uploadOrder {t : ScanType} :
    t ∈ uploadOrder.filter (fun t => t ∈ c.scanTypes ∧ o.produced t) ↔
      t ∈ c.scanTypes ∧ o.produced t = true := by
  have hall : t ∈ uploadOrder := by cases t <;> decide
  simp [List.mem_filter, hall]

theorem uploads_of_passes (h : c.Passes o) :
    c.uploads o = ⟨0, if c.dryRun then [] else
      uploadOrder.filter fun t => t ∈ c.scanTypes ∧ o.produced t, false⟩ := by
  rw [uploads]
  split
  · rfl
  · next hdry =>
    refine upload_of_uploads fun t ht => ?_
    obtain ⟨hmem, hproduced⟩ := mem_uploadOrder.mp ht
    exact (h.2.2.resolve_left hdry) t hmem hproduced

theorem targetFailures_of_passes (h : c.Passes o) : c.targetFailures o = 0 := by
  rw [targetFailures, uploads_of_passes h]
  cases hc : c.command with
  | inventory => simp [h.2.1 hc]
  | runtime => rfl

theorem passes_of_targetFailures (habort : c.scannersAbort o = false)
    (h : c.targetFailures o = 0) : c.Passes o := by
  have huploads : (c.uploads o).failures = 0 := by
    rw [targetFailures] at h
    split at h
    · exact (Nat.add_eq_zero_iff.mp h).2
    · exact h
  refine ⟨habort, fun hc => ?_, or_iff_not_imp_left.mpr fun hdry t ht hproduced => ?_⟩
  · rw [targetFailures, hc] at h
    exact List.length_eq_zero_iff.mp (Nat.add_eq_zero_iff.mp h).1
  · rw [uploads, if_neg hdry] at huploads
    exact uploads_of_failures_eq_zero huploads t (mem_uploadOrder.mpr ⟨ht, hproduced⟩)

end Context

/-! ### Checkpoints -/

section Checkpoints

variable {s : State} {c : Context} {id : Identity}

/-- What a pass over an image leaves in the scans. -/
def Context.record (c : Context) (id : Identity) (o : Outcome) : Scan :=
  ⟨id.signature, id.image, c.dryRun, (c.uploads o).ingested⟩

/-- A pass that passes writes a checkpoint and goes on; any other one leaves the file. -/
theorem scan_cases (s : State) (c : Context) (id : Identity) (o : Outcome) :
    (c.Passes o ∧ ∃ failures, s.scan c id o =
      { file := { s.file with
          images := Function.update s.file.images id.key (some ⟨id.signature, id.image⟩) }
        run := some { c with failures := failures }
        scans := s.scans ++ [c.record id o] }) ∨
    (¬ c.Passes o ∧ (s.scan c id o).file = s.file ∧
      (∀ c', (s.scan c id o).run = some c' → c'.scanTypes = c.scanTypes) ∧
      ∃ new, (s.scan c id o).scans = s.scans ++ new) := by
  by_cases hpasses : c.Passes o
  · have haborted : (c.uploads o).aborted = false := by rw [c.uploads_of_passes hpasses]
    refine .inl ⟨hpasses, ?_⟩
    simp only [State.scan, hpasses.1, haborted, c.targetFailures_of_passes hpasses,
      Bool.false_eq_true, if_false, if_true]
    exact ⟨_, rfl⟩
  · refine .inr ⟨hpasses, ?_⟩
    rw [State.scan]
    split
    · exact ⟨rfl, by simp, [], by simp⟩
    · next habort =>
      have hfailures : c.targetFailures o ≠ 0 := fun hzero =>
        hpasses (c.passes_of_targetFailures (by simpa using habort) hzero)
      dsimp only
      by_cases haborted : (c.uploads o).aborted = true
      · rw [if_pos haborted]
        exact ⟨rfl, by simp, _, rfl⟩
      · rw [if_neg haborted, if_neg hfailures]
        refine ⟨rfl, fun c' hc' => ?_, _, rfl⟩
        rw [← Option.some.inj hc']

/-- The report of a pass that passes is complete, unless the pass was a dry run or a required
scanner failed in it. -/
theorem covers_record_iff (h : c.Passes o) :
    (c.record id o).Covers id.signature c.scanTypes id.image ↔
      c.dryRun = false ∧ c.requiredMissing o = [] := by
  rw [Context.record, c.uploads_of_passes h]
  constructor
  · rintro ⟨-, -, hdry, hall⟩
    dsimp only at hdry hall
    refine ⟨hdry, List.eq_nil_iff_forall_not_mem.mpr fun t ht => ?_⟩
    obtain ⟨hmissing, hrequired⟩ := List.mem_filter.mp ht
    obtain ⟨hmem, hproduced⟩ := List.mem_filter.mp hmissing
    have hingested := hall t hmem hrequired
    rw [hdry, if_neg Bool.false_ne_true] at hingested
    simp [(Context.mem_uploadOrder.mp hingested).2] at hproduced
  · rintro ⟨hdry, hnone⟩
    refine ⟨rfl, rfl, hdry, fun t ht hrequired => ?_⟩
    dsimp only
    rw [hdry, if_neg Bool.false_ne_true]
    refine Context.mem_uploadOrder.mpr ⟨ht, ?_⟩
    by_contra hproduced
    have hmissing : t ∈ c.requiredMissing o :=
      List.mem_filter.mpr ⟨List.mem_filter.mpr ⟨ht, by simpa using hproduced⟩, hrequired⟩
    rw [hnone] at hmissing
    exact List.not_mem_nil hmissing

theorem visit_eq_some {i : Item} (h : s.visit i = some (c, id)) :
    s.run = some c ∧ i.identify c.scanTypes = some id := by
  obtain ⟨c', hrun, hitem⟩ := Option.bind_eq_some_iff.mp h
  obtain ⟨-, hitem⟩ := Option.ite_none_right_eq_some.mp hitem
  obtain ⟨id', hid, heq⟩ := Option.map_eq_some_iff.mp hitem
  obtain ⟨rfl, rfl⟩ := Prod.mk.inj heq
  exact ⟨hrun, hid⟩

theorem CheckpointsReported.mono (h : CheckpointsReported s) {s' : State}
    (hfile : s'.file.images = s.file.images) {new : List Scan}
    (hscans : s'.scans = s.scans ++ new) : CheckpointsReported s' := by
  intro key e he
  rw [hfile] at he
  obtain ⟨types, hsigned, r, hr, hcovers⟩ := h key e he
  exact ⟨types, hsigned, r, by rw [hscans]; exact List.mem_append_left new hr, hcovers⟩

/-- A checkpoint that is written stands for reports if the pass has made them, or they had been
there. -/
theorem checkpointsReported_update_iff (h : CheckpointsReported s)
    (hsigned : Signed id.signature c.scanTypes) (hpasses : c.Passes o) {s' : State}
    (hfile : s'.file.images =
      Function.update s.file.images id.key (some ⟨id.signature, id.image⟩))
    (hscans : s'.scans = s.scans ++ [c.record id o]) :
    CheckpointsReported s' ↔ c.dryRun = false ∧ c.requiredMissing o = [] ∨
      Reported s.scans id.signature c.scanTypes id.image := by
  have hnew : Reported s'.scans id.signature c.scanTypes id.image ↔
      c.dryRun = false ∧ c.requiredMissing o = [] ∨
        Reported s.scans id.signature c.scanTypes id.image := by
    rw [hscans, Reported.append, covers_record_iff hpasses, or_comm]
  rw [← hnew]
  constructor
  · intro hall
    obtain ⟨types, hsigned', hreported⟩ := hall id.key ⟨id.signature, id.image⟩
      (by rw [hfile, Function.update_self])
    rwa [hsigned.unique hsigned']
  · intro hreported key e he
    rw [hfile] at he
    by_cases hkey : key = id.key
    · rw [hkey, Function.update_self] at he
      rw [← Option.some.inj he]
      exact ⟨c.scanTypes, hsigned, hreported⟩
    · rw [Function.update_of_ne hkey] at he
      obtain ⟨types, hsigned', r, hr, hcovers⟩ := h key e he
      exact ⟨types, hsigned', r, by rw [hscans]; exact List.mem_append_left _ hr, hcovers⟩

theorem checkpointsReported_start : CheckpointsReported start := fun _ _ he => nomatch he

theorem requests_start : Requests start := fun _ hc => nomatch hc

end Checkpoints

section Runs

variable [Unicode] {s : State} {c : Context} {id : Identity}

theorem Requests.step (h : Requests s) (op : Op) : Requests (step s op) := by
  cases op with
  | start args =>
    intro c hc
    rw [← Option.some.inj hc]
    exact parseScanTypes_ne_nil args.command args.scanTypes
  | finish now =>
    rw [Incremental.step]
    cases hrun : s.run with
    | none => exact h
    | some c => exact fun c' hc' => by simp at hc'
  | item i o =>
    rw [Incremental.step]
    split
    · exact h
    · next c id hvisit =>
      have hne := h c (visit_eq_some hvisit).1
      split
      · exact h
      · obtain ⟨-, failures, heq⟩ | ⟨-, -, hrun, -⟩ := scan_cases s c id o
        · intro c' hc'
          rw [heq] at hc'
          rw [← Option.some.inj hc']
          exact hne
        · intro c' hc'
          rw [hrun c' hc']
          exact hne

/-- A pass that writes a checkpoint reports, or the reports had been there. -/
def Earned (s : State) : Op → Prop
  | .item i o => ∀ p ∈ s.visit i, skips s.file p.1 p.2 = false → p.1.Passes o →
      p.1.dryRun = false ∧ p.1.requiredMissing o = [] ∨
        Reported s.scans p.2.signature p.1.scanTypes p.2.image
  | .start _ | .finish _ => True

/-- An image that is skipped has the reference of its checkpoint. -/
def KeepsReference (s : State) : Op → Prop
  | .item i _ => ∀ p ∈ s.visit i, skips s.file p.1 p.2 = true →
      ∀ e ∈ s.file.images p.2.key, e.image = p.2.image
  | .start _ | .finish _ => True

/-- An image that is skipped has been reported. -/
def SkipsReported (s : State) : Op → Prop
  | .item i _ => ∀ p ∈ s.visit i, skips s.file p.1 p.2 = true →
      Reported s.scans p.2.signature p.1.scanTypes p.2.image
  | .start _ | .finish _ => True

instance Earned.decidable (s : State) : ∀ op, Decidable (Earned s op)
  | .item i _ => inferInstanceAs (Decidable (∀ p ∈ s.visit i, _))
  | .start _ | .finish _ => inferInstanceAs (Decidable True)

instance KeepsReference.decidable (s : State) : ∀ op, Decidable (KeepsReference s op)
  | .item i _ => inferInstanceAs (Decidable (∀ p ∈ s.visit i, _))
  | .start _ | .finish _ => inferInstanceAs (Decidable True)

instance SkipsReported.decidable (s : State) : ∀ op, Decidable (SkipsReported s op)
  | .item i _ => inferInstanceAs (Decidable (∀ p ∈ s.visit i, _))
  | .start _ | .finish _ => inferInstanceAs (Decidable True)

/-- A step keeps every checkpoint reported exactly if it earns the one that it writes. -/
theorem checkpointsReported_step_iff (h : CheckpointsReported s) (hrequests : Requests s)
    (op : Op) : CheckpointsReported (step s op) ↔ Earned s op := by
  cases op with
  | start args => exact iff_of_true (h.mono rfl (List.append_nil _).symm) trivial
  | finish now =>
    refine iff_of_true ?_ trivial
    rw [step]
    split
    · exact h
    · refine h.mono ?_ (List.append_nil _).symm
      dsimp only
      split <;> rfl
  | item i o =>
    rw [step]
    split
    · next hvisit => exact iff_of_true h fun p hp => by simp [hvisit] at hp
    · next c id hvisit =>
      have hearned : Earned s (.item i o) ↔ (skips s.file c id = false → c.Passes o →
          c.dryRun = false ∧ c.requiredMissing o = [] ∨
            Reported s.scans id.signature c.scanTypes id.image) := by
        rw [Earned, hvisit]
        exact ⟨fun hall => hall (c, id) rfl, fun hthis p hp => by cases hp; exact hthis⟩
      rw [hearned]
      split
      · next hskip => exact iff_of_true h fun hnot => by simp [hskip] at hnot
      · next hskip =>
        have hskip : skips s.file c id = false := by simpa using hskip
        obtain ⟨hpasses, failures, heq⟩ | ⟨hpasses, hfile, -, new, hscans⟩ := scan_cases s c id o
        · have hsigned : Signed id.signature c.scanTypes :=
            i.signed_identify (hrequests c (visit_eq_some hvisit).1) (visit_eq_some hvisit).2
          rw [checkpointsReported_update_iff h hsigned hpasses (by rw [heq]) (by rw [heq])]
          exact ⟨fun hreported _ _ => hreported, fun hreported => hreported hskip hpasses⟩
        · exact iff_of_true (h.mono (by rw [hfile]) hscans) fun _ hpasses' =>
            absurd hpasses' hpasses

/-- Every checkpoint stands for reports, in every state of a run, exactly if each one is earned. -/
theorem checkpoints_reported_iff (ops : List Op) :
    (∀ pre, pre <+: ops → CheckpointsReported (run step start pre)) ↔
      Along step Earned start ops :=
  forall_prefix_iff_along_of_inv (S := CheckpointsReported)
    (fun _ op hs hi => checkpointsReported_step_iff hs hi op) (fun _ op _ hi _ => hi.step op)
    checkpointsReported_start requests_start ops

theorem skipsReported_of_checkpointsReported (h : CheckpointsReported s) (hrequests : Requests s)
    {op : Op} (hop : KeepsReference s op) : SkipsReported s op := by
  cases op with
  | start args => trivial
  | finish now => trivial
  | item i o =>
    intro ⟨c, id⟩ hvisit hskip
    have hmatch : (s.file.images id.key).any (fun e => e.signature = id.signature) = true :=
      (Bool.and_eq_true_iff.mp hskip).2
    obtain ⟨e, he, hsignature⟩ := (Option.any_eq_true _ _).mp hmatch
    obtain ⟨types, hsigned, hreported⟩ := h id.key e he
    rw [of_decide_eq_true hsignature] at hsigned hreported
    have hsigned' : Signed id.signature c.scanTypes :=
      i.signed_identify (hrequests c (visit_eq_some hvisit).1) (visit_eq_some hvisit).2
    rwa [hop (c, id) hvisit hskip e he, hsigned.unique hsigned'] at hreported

end Runs

/-- In a run that earns its checkpoints, and whose images keep the reference that they have in the
file, every image that is skipped has been reported. -/
theorem skipped_reported [Unicode] (ops : List Op)
    (h : Along step (fun s op => Earned s op ∧ KeepsReference s op) start ops) :
    Along step SkipsReported start ops := by
  have hstep : ∀ s op, CheckpointsReported s ∧ Requests s → Earned s op ∧ KeepsReference s op →
      CheckpointsReported (step s op) ∧ Requests (step s op) := by
    rintro s op ⟨hs, hrequests⟩ ⟨hearned, -⟩
    exact ⟨(checkpointsReported_step_iff hs hrequests op).mpr hearned, hrequests.step op⟩
  have hskip : ∀ s op, CheckpointsReported s ∧ Requests s → Earned s op ∧ KeepsReference s op →
      SkipsReported s op := by
    rintro s op ⟨hs, hrequests⟩ ⟨-, hkeeps⟩
    exact skipsReported_of_checkpointsReported hs hrequests hkeeps
  exact along_of_along hstep hskip ⟨checkpointsReported_start, requests_start⟩ h

/-! ### A dry run -/

section DryRun

attribute [local instance] asciiUnicode

/-- A run of `scan-inventory` over one image, for which every scanner and every upload succeeds. -/
def inventoryRun (dryRun : Bool) : List Op :=
  [.start
    { command := .inventory
      dryRun := dryRun
      failOnError := false
      force := false
      scanTypes := str "image-sca"
      interval := 0
      now := 0
      known := none },
    .item (.inventory (str "app:1") [] []) ⟨fun _ => true, fun _ => true, fun _ => true⟩]

theorem skipped_reported_inventoryRun :
    Along step (fun s op => Earned s op ∧ KeepsReference s op) start
        (inventoryRun false ++ inventoryRun false) ∧
      Along step SkipsReported start (inventoryRun false ++ inventoryRun false) :=
  ⟨by decide +kernel,
    skipped_reported (inventoryRun false ++ inventoryRun false) (by decide +kernel)⟩

/-- A run skips what a dry run has seen. -/
theorem not_skipped_reported : ¬ ∀ ops, Along step SkipsReported start ops := fun h =>
  absurd (h (inventoryRun true ++ inventoryRun false)) (by decide +kernel)

end DryRun

end Vat.Incremental
