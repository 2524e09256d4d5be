import Mathlib.Data.List.MinMax
import Vat.Assets.Resolve
import Vat.Ingest.Fingerprint
import Vat.Transition.Run

/-!
# Ids of new findings

An ingest looks for a finding with the fingerprint of its payload, then for the newest one that
is linked to the issue of the source, and gives that one the fingerprint. If there is neither, it
stores a finding whose id is made of the first sixteen characters of the fingerprint. A fingerprint
can change later, an id cannot.

Source: `backend/app/services/ingest.py`, lines 250–423 and 533–616;
`backend/app/services/asset_resolver.py`, lines 63–152;
`backend/app/services/external_links_service.py`, lines 123–190;
`backend/app/services/findings_service.py`, lines 703–727; `backend/app/models/finding.py`, lines
57–61.

## Main definitions

* `StoredFinding`, `resolveAssetForPayload`, `findFindingByExternalId`, `IngestCall`.
* `FindingStore.ingestFinding`, `FindingStore.overrideFingerprint`, `FindingStore.step`.
* `FindingStore.FreshId`, `FindingStore.NewPrefix`.

## Main results

* `FindingStore.named_run`: the ids are those of the fingerprints that findings were created under.
* `FindingStore.fresh_ids_iff`: the ids of a run are free exactly if no two findings of it are
  created under fingerprints with the same sixteen first characters.
-/

namespace Vat

open Relational Transition

/-! ### The asset of a payload -/

section Resolve

variable [Unicode]

/-- The payload of a container: its reference is split into the key of the asset, a tag and a
digest. -/
def VatFindingSchema.ofContainer (pathAliases : Str) (payload : VatFindingSchema) (assetId : Str) :
    VatFindingSchema :=
  let normalized := normalizeContainerRef (some assetId)
  let mergedDigest := Str.orElse (effectiveImageDigest payload.imageDigest (some assetId))
    normalized.observedDigest
  { payload with
    image := some (applyContainerAssetPathAliases pathAliases normalized.canonicalAssetKey)
    tag := if Str.strip (Str.orEmpty payload.tag) = [] ∧ Str.truthy normalized.observedTag then
        normalized.observedTag
      else payload.tag
    imageDigest := if Str.truthy mergedDigest then mergedDigest else payload.imageDigest }

/-- `resolve_asset_for_payload` without an override. No parser requires an explicit asset. -/
def resolveAssetForPayload (pathAliases : Str) (payload : VatFindingSchema) (parserId : Str) :
    VatFindingSchema :=
  let img := Str.strip (Str.orEmpty payload.image)
  let comp := Str.strip (Str.orEmpty payload.component)
  let fpath := Str.strip (Str.orEmpty payload.filePath)
  let ofAsset := fun (assetId : Str) (payload' : VatFindingSchema) =>
    if inferAssetKind assetId parserId = .container then payload.ofContainer pathAliases assetId
    else payload'
  if img ≠ [] then ofAsset img payload
  else if comp ≠ [] then ofAsset comp payload
  else if fpath ≠ [] then
    ofAsset (str "path:" ++ fpath) { payload with image := some (str "path:" ++ fpath) }
  else ofAsset (str "unknown") payload

end Resolve

/-! ### Findings and the links of their sources -/

/-- The columns of `findings` that an ingest finds a row by. -/
structure StoredFinding where
  id : Str
  fingerprintId : Str
  image : Option Str
  component : Option Str
  externalLinks : List ExternalLink
  createdAt : Instant
  deriving DecidableEq

/-- `findings.id` is the primary key and `findings.fingerprint_id` is unique. -/
instance : Row StoredFinding Str Str where
  pk := StoredFinding.id
  uk := StoredFinding.fingerprintId

/-- The declared lengths of `Finding.id` and of `Finding.fingerprint_id`. -/
def idLength : ℕ := 32

def fingerprintIdLength : ℕ := 64

/-- `order_by(Finding.created_at.desc()).limit(1)`. Which of several newest rows the database gives
is not fixed. -/
class NewestFinding where
  newest : List StoredFinding → Option StoredFinding
  newest_nil : newest [] = none
  exists_newest : ∀ rows : List StoredFinding, rows ≠ [] →
    ∃ r ∈ rows, newest rows = some r ∧ ∀ s ∈ rows, s.createdAt ≤ r.createdAt

/-- Among the newest rows, the first one. -/
@[reducible] def firstNewestFinding : NewestFinding where
  newest rows := rows.argmax (·.createdAt)
  newest_nil := rfl
  exists_newest rows hne := by
    cases hr : rows.argmax (·.createdAt) with
    | none => exact absurd (List.argmax_eq_none.mp hr) hne
    | some r => exact ⟨r, List.argmax_mem hr, rfl, fun s hs => List.le_of_mem_argmax hs hr⟩

/-- Find a finding by adapter key and issue id, of a source or a tracker. -/
def findFindingByExternalId [NewestFinding] (findings : Table StoredFinding)
    (adapterKey issueId : Str) : Option StoredFinding :=
  NewestFinding.newest (findings.rows.filter fun f =>
    f.externalLinks.any fun l => l.adapterKey = adapterKey ∧ l.issueId = issueId)

/-- Add or replace the source link of an adapter. -/
def addSourceLink (links : List ExternalLink) (adapterKey issueId : Str) (url : Option Str)
    (now : Instant) : List ExternalLink :=
  (links.filter fun l => ¬ (l.kind = str "source" ∧ l.adapterKey = adapterKey)) ++
    [⟨adapterKey, str "source", issueId, url, now⟩]

/-! ### Ingest -/

/-- A call of `ingest_finding`. It commits unless what it does after the finding is written
fails. -/
structure IngestCall where
  payload : VatFindingSchema
  sourceName : Str
  parserId : Option Str
  now : Instant
  commits : Bool

/-- `source_url if source_url and source_url.strip() else None`. -/
def VatFindingSchema.sourceUrl (payload : VatFindingSchema) : Option Str :=
  if Str.strip (Str.orEmpty payload.sourceIssueUrl) ≠ [] then payload.sourceIssueUrl else none

/-- The asset that tells whether a linked finding is another one. -/
def assetText (image component : Option Str) : Str :=
  Str.strip (Str.orEmpty (Str.orElse image component))

/-- `f"f-{fp[:16]}"`. -/
def newFindingId (fp : Str) : Str := str "f-" ++ fp.take 16

section Ingest

variable [Unicode] [Sha256]

/-- The payload with its asset. -/
def IngestCall.resolved (cfg : Settings) (call : IngestCall) : VatFindingSchema :=
  resolveAssetForPayload cfg.containerAssetPathAliases call.payload
    (if Str.truthy call.parserId then Str.orEmpty call.parserId else str "unknown")

def IngestCall.fingerprint (cfg : Settings) (call : IngestCall) : Str :=
  computeIngestFingerprint (call.resolved cfg) call.sourceName

/-- What a merge writes to the columns of the row, the fingerprint of a migration included. -/
def IngestCall.merge (cfg : Settings) (call : IngestCall) (existing : StoredFinding) :
    StoredFinding :=
  let payload := call.resolved cfg
  { existing with
    fingerprintId := call.fingerprint cfg
    externalLinks := if Str.truthy payload.sourceIssueId then
        addSourceLink existing.externalLinks call.sourceName (Str.orEmpty payload.sourceIssueId)
          payload.sourceUrl call.now
      else existing.externalLinks
    image := if Str.truthy payload.image ∧ ¬ Str.truthy existing.image then payload.image
      else existing.image
    component := if Str.truthy payload.component ∧ ¬ Str.truthy existing.component then
        payload.component
      else existing.component }

/-- The row of a new finding. -/
def IngestCall.newFinding (cfg : Settings) (call : IngestCall) : StoredFinding :=
  let payload := call.resolved cfg
  { id := newFindingId (call.fingerprint cfg)
    fingerprintId := call.fingerprint cfg
    image := payload.image
    component := Str.orElse payload.component none
    externalLinks := if Str.truthy payload.sourceIssueId then
        [⟨call.sourceName, str "source", Str.orEmpty payload.sourceIssueId, payload.sourceUrl,
          call.now⟩]
      else []
    createdAt := call.now }

/-- The finding that an ingest updates: by fingerprint, else by the link of its source, unless that
one is about another asset. -/
def IngestCall.existing [NewestFinding] (cfg : Settings) (call : IngestCall)
    (findings : Table StoredFinding) : Option StoredFinding :=
  let payload := call.resolved cfg
  let sid := Str.strip (Str.orEmpty payload.sourceIssueId)
  match findings.getBy? (call.fingerprint cfg) with
  | some f => some f
  | none =>
    if sid = [] then none
    else
      (findFindingByExternalId findings call.sourceName sid).filter fun f =>
        let incomingAsset := assetText payload.image payload.component
        let existingAsset := assetText f.image f.component
        ¬ (incomingAsset ≠ [] ∧ existingAsset ≠ [] ∧ incomingAsset ≠ existingAsset)

/-- The table `findings`, and the fingerprints that its rows were created under, which the code does
not keep. -/
structure FindingStore where
  findings : Table StoredFinding
  createdUnder : List Str

namespace FindingStore

def start : FindingStore := ⟨.empty, []⟩

/-- `ingest_finding`. A write that breaks a constraint of the table is rolled back. -/
def ingestFinding [NewestFinding] (cfg : Settings) (s : FindingStore) (call : IngestCall) :
    FindingStore :=
  match call.existing cfg s.findings with
  | some f =>
    match s.findings.update? f.id (call.merge cfg) fun _ => rfl with
    | some findings => if call.commits then { s with findings } else s
    | none => s
  | none =>
    match s.findings.insert? (call.newFinding cfg) with
    | some findings =>
      if call.commits then ⟨findings, s.createdUnder ++ [call.fingerprint cfg]⟩ else s
    | none => s

omit [Unicode] [Sha256] in
/-- `override_fingerprint`, with the digits drawn. A fingerprint that is longer than its column is
refused. -/
def overrideFingerprint (s : FindingStore) (findingId hex : Str) : FindingStore :=
  match s.findings.get? findingId with
  | none => s
  | some f =>
    let newFp := f.fingerprintId ++ str "_override_" ++ hex.take 12
    if newFp.length ≤ fingerprintIdLength then
      match s.findings.update? findingId (fun f => { f with fingerprintId := newFp })
        fun _ => rfl with
      | some findings => { s with findings }
      | none => s
    else s

end FindingStore

/-- What happens to findings. The other writes change neither an id nor a fingerprint. -/
inductive FindingOp
  | ingest (call : IngestCall)
  | overrideFingerprint (findingId hex : Str)
  | write (f : StoredFinding → StoredFinding) (hf : KeepsKeys f)

namespace FindingStore

variable [NewestFinding]

def step (cfg : Settings) (s : FindingStore) : FindingOp → FindingStore
  | .ingest call => s.ingestFinding cfg call
  | .overrideFingerprint findingId hex => s.overrideFingerprint findingId hex
  | .write f hf => { s with findings := s.findings.mapRows f hf }

/-! ### The ids of the table -/

omit [Unicode] [Sha256] [NewestFinding] in
/-- The ids in use. -/
def ids (s : FindingStore) : List Str := s.findings.rows.map StoredFinding.id

/-- The ids in use are those of the fingerprints that findings were created under, whatever
fingerprints they have now. -/
def Named (s : FindingStore) : Prop := s.ids = s.createdUnder.map newFindingId

omit [Unicode] [Sha256] [NewestFinding] in
theorem named_start : start.Named := rfl

/-- An update or an insert that commits, or nothing. -/
theorem named_ingestFinding {cfg : Settings} {s : FindingStore} (h : s.Named) (call : IngestCall) :
    (s.ingestFinding cfg call).Named := by
  rw [ingestFinding]
  split
  · split
    · next findings hupdate =>
      split
      · exact (Table.map_pk_of_update? hupdate).trans h
      · exact h
    · exact h
  · split
    · next findings hinsert =>
      split
      · have hids : findings.rows.map StoredFinding.id =
            s.ids ++ [newFindingId (call.fingerprint cfg)] := by
          rw [Table.rows_of_insert? hinsert, List.map_append]
          rfl
        rw [Named, ids, hids, h, List.map_append, List.map_singleton]
      · exact h
    · exact h

omit [Unicode] [Sha256] [NewestFinding] in
theorem named_overrideFingerprint {s : FindingStore} (h : s.Named) (findingId hex : Str) :
    (s.overrideFingerprint findingId hex).Named := by
  rw [overrideFingerprint]
  split
  · exact h
  · dsimp only
    split
    · split
      · next findings hupdate => exact (Table.map_pk_of_update? hupdate).trans h
      · exact h
    · exact h

theorem named_step (cfg : Settings) (s : FindingStore) (op : FindingOp) (h : s.Named) :
    (s.step cfg op).Named := by
  cases op with
  | ingest call => exact named_ingestFinding h call
  | overrideFingerprint findingId hex => exact named_overrideFingerprint h findingId hex
  | write f hf => exact (Table.map_pk_mapRows s.findings f hf).trans h

/-- After every run the ids are those of the fingerprints that findings were created under. -/
theorem named_run (cfg : Settings) (ops : List FindingOp) : (run (step cfg) start ops).Named :=
  run_induction (named_step cfg) named_start ops

/-! ### Free ids -/

/-- The fingerprint of the finding that an ingest creates, if it finds none. -/
def creates (cfg : Settings) (s : FindingStore) : FindingOp → Option Str
  | .ingest call =>
    if (call.existing cfg s.findings).isNone then some (call.fingerprint cfg) else none
  | .overrideFingerprint _ _ | .write _ _ => none

/-- The id of the finding that is created is free, and fits its column. -/
def FreshId (cfg : Settings) (s : FindingStore) (op : FindingOp) : Prop :=
  ∀ fp, s.creates cfg op = some fp → newFindingId fp ∉ s.ids ∧ (newFindingId fp).length ≤ idLength

/-- No finding was created under a fingerprint with the same sixteen first characters, though it may
have another fingerprint by now. -/
def NewPrefix (cfg : Settings) (s : FindingStore) (op : FindingOp) : Prop :=
  ∀ fp, s.creates cfg op = some fp → ∀ old ∈ s.createdUnder, old.take 16 ≠ fp.take 16

omit [Unicode] [Sha256] [NewestFinding] in
theorem newFindingId_inj {fp fp' : Str} :
    newFindingId fp = newFindingId fp' ↔ fp.take 16 = fp'.take 16 := List.append_right_inj _

omit [Unicode] [Sha256] [NewestFinding] in
theorem length_newFindingId_le (fp : Str) : (newFindingId fp).length ≤ idLength := by
  have : (fp.take 16).length ≤ 16 := List.length_take_le 16 fp
  rw [newFindingId, List.length_append]
  exact Nat.add_le_of_le_sub' (by decide) (this.trans (by decide))

theorem freshId_iff {cfg : Settings} {s : FindingStore} (h : s.Named) (op : FindingOp) :
    s.FreshId cfg op ↔ s.NewPrefix cfg op := by
  refine forall₂_congr fun fp hfp => ?_
  rw [and_iff_left (length_newFindingId_le fp), h, List.mem_map, not_exists]
  refine forall_congr' fun old => ?_
  rw [not_and, newFindingId_inj]

/-- In a run of ingests, fingerprint overrides and other writes, every finding that is created gets
an id that is free and fits exactly if none is created under a fingerprint with the same sixteen
first characters as one before it. -/
theorem fresh_ids_iff (cfg : Settings) (ops : List FindingOp) :
    Along (step cfg) (FreshId cfg) start ops ↔ Along (step cfg) (NewPrefix cfg) start ops :=
  along_iff_along (fun _ op h => freshId_iff h op) (fun s op h _ => named_step cfg s op h)
    named_start

end FindingStore

end Ingest

/-! ### An id that is taken -/

/-- A digest that gives some listed texts short values. -/
def listedHex (listed : List Str) (s : Str) : Str :=
  if s ∈ listed then List.replicate (listed.idxOf s) '0' ++ ['a'] else 'f' :: unaryHex s

theorem head?_listedHex_ne (n : ℕ) (t : Str) : List.replicate n '0' ++ ['a'] ≠ 'f' :: t := by
  cases n with
  | zero => exact fun h => absurd (List.cons.inj h).1 (by decide)
  | succ n =>
    intro h
    rw [List.replicate_succ, List.cons_append] at h
    exact absurd (List.cons.inj h).1 (by decide)

theorem listedHex_injective (listed : List Str) : Function.Injective (listedHex listed) := by
  intro s t h
  rw [listedHex, listedHex] at h
  split_ifs at h with hs ht ht
  · have hlen := congrArg List.length h
    simp only [List.length_append, List.length_replicate, List.length_singleton,
      Nat.add_right_cancel_iff] at hlen
    exact (List.idxOf_inj hs).mp hlen
  · exact absurd h (head?_listedHex_ne _ _)
  · exact absurd h.symm (head?_listedHex_ne _ _)
  · exact unaryHex_injective (List.cons.inj h).2

/-- An injective digest whose values on some listed texts differ in their first characters. -/
@[reducible] def listedDigest (listed : List Str) : Sha256 where
  hexdigest := listedHex listed
  hexdigest_injective := listedHex_injective listed
  mem_hexdigest s c hc := by
    rw [listedHex] at hc
    split_ifs at hc with hs
    · rcases List.mem_append.mp hc with hc | hc
      · rw [List.eq_of_mem_replicate hc]
        decide
      · rw [List.mem_singleton.mp hc]
        decide
    · rcases List.mem_cons.mp hc with rfl | hc
      · decide
      · exact unaryDigest.mem_hexdigest s c hc

section Taken

attribute [local instance] asciiUnicode firstNewestFinding

/-- An issue of a source on a branch of a repository. -/
def branchIssue (image branch : String) (now : Instant) : IngestCall where
  payload := { VatFindingSchema.blank (str "CVE-2024-1") .high with
    image := some (str image)
    branch := some (str branch)
    sourceIssueId := some (str "7") }
  sourceName := str "Aikido"
  parserId := none
  now := now
  commits := true

/-- The texts of the fingerprints of the issue on three branches. -/
def branchTexts : List Str :=
  [str "Aikido:7|team/app|main|", str "Aikido:7|team/app|develop|", str "Aikido:7|team/web|main|"]

/-- The issue moves to another branch and takes its finding along, shows up in another repository,
and comes back to the first branch. The finding that is created for it gets the id of the first
one. -/
theorem FindingStore.not_fresh_ids :
    ¬ ∀ (_ : Unicode) (_ : Sha256) (_ : NewestFinding) (cfg : Settings) (ops : List FindingOp),
      Along (step cfg) (FreshId cfg) start ops := by
  intro h
  have fresh := h asciiUnicode (listedDigest branchTexts) firstNewestFinding ⟨true, []⟩
    [.ingest (branchIssue "team/app" "main" 1), .ingest (branchIssue "team/app" "develop" 2),
      .ingest (branchIssue "team/web" "main" 3), .ingest (branchIssue "team/app" "main" 4)]
  obtain ⟨-, -, -, hlast, -⟩ := fresh
  exact (hlast (str "a") (by decide +kernel)).1 (by decide +kernel)

end Taken

end Vat
