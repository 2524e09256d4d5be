import Vat.Correlation.Relink
import Vat.Ingest.Merge
import Vat.Ledger.Idempotence

/-!
# The ingest of a finding

The row of a finding is merged or created; then the observation of the scan and the identifiers of
the finding are stored, its cluster is linked, and the decision of the ledger is applied to it. All
of it commits together, or nothing does. The observed tags of containers and the conflicts of their
digests, which say what was last seen where, and the events for the tracker, which only a new
finding gets, are not modelled.

Source: `backend/app/services/ingest.py`, lines 170–680.

## Main definitions

* `IngestDb`, `ScanObservation`: the tables of an ingest.
* `IngestDb.store`, `IngestDb.observe`, `IngestDb.link`: its steps before the ledger.
* `IngestDb.ingestFinding`: all of it.

## Main results

* `IngestDb.beforeDecision_spec`: what the steps before the ledger leave.
-/

namespace Vat

open Relational Transition

/-! ### Tables -/

/-- A row of the table `finding_observations`, with what a scan says in it. -/
structure ScanObservation where
  findingId : Str
  scanSessionId : Str
  sourceName : Str
  clusterId : Option Str
  scannerVersion : Option Str
  contentVersion : Option Str
  benchmarkId : Option Str
  benchmarkFamily : Option Str
  profileScope : Option Str
  stableRuleKey : Option Str
  resultState : Str
  rawEvidenceRef : Option Str
  deriving DecidableEq

/-- The constraint `uq_finding_observation_session_source`. -/
def ScanObservation.key (o : ScanObservation) : Str × Str × Str :=
  (o.findingId, o.scanSessionId, o.sourceName)

instance : Row ScanObservation (Str × Str × Str) (Str × Str × Str) where
  pk := ScanObservation.key
  uk := ScanObservation.key

instance : Table.SingleKey ScanObservation := ⟨fun _ _ => Iff.rfl⟩

instance : Table.SingleKey FindingIdentifier := ⟨fun _ _ => Iff.rfl⟩

/-- The tables that an ingest reads and writes. -/
structure IngestDb where
  db : Db
  edges : Table CorrelationEdge
  scores : ScoreTables
  observations : Table ScanObservation

/-- The part that linking reads and writes. -/
def IngestDb.correlation (s : IngestDb) : CorrelationDb := ⟨s.db.findings, s.edges, s.scores⟩

/-- The tables with other findings. -/
def IngestDb.withFindings (s : IngestDb) (findings : Table Finding) : IngestDb :=
  { s with db := { s.db with findings := findings } }

/-- The tables after a run of linking. -/
def IngestDb.withCorrelation (s : IngestDb) (c : CorrelationDb) : IngestDb :=
  { s with db := { s.db with findings := c.findings }, edges := c.edges, scores := c.scores }

section Steps

variable [Unicode] [Sha256]

/-! ### Steps -/

/-- `_infer_result_state`. -/
def IngestArguments.inferResultState (payload : VatFindingSchema) (args : IngestArguments) : Str :=
  let explicit := normText args.resultState
  let status := normText payload.status
  if explicit ≠ [] then explicit
  else if status ∈ [str "pass", str "fail", str "error", str "unknown", str "notapplicable",
      str "notchecked"] then status
  else str "fail"

/-- The observation of a finding in a scan session. -/
def IngestArguments.observation (cfg : IngestSettings) (args : IngestArguments)
    (findingId scanSessionId : Str) : ScanObservation :=
  let payload := args.resolved cfg
  { findingId := findingId
    scanSessionId := scanSessionId
    sourceName := args.sourceName
    clusterId := args.clusterId
    scannerVersion := args.scannerVersion
    contentVersion := payload.contentVersion
    benchmarkId := payload.benchmarkId
    benchmarkFamily := payload.benchmarkFamily
    profileScope := payload.profileScope
    stableRuleKey := payload.stableRuleKey
    resultState := args.inferResultState payload
    rawEvidenceRef := args.rawEvidenceRef }

/-- `_upsert_observation`: every column outside the key is written. -/
def IngestArguments.upsertObservation (cfg : IngestSettings) (args : IngestArguments)
    (findingId : Str) (observations : Table ScanObservation) : Table ScanObservation :=
  let scanSessionId := Str.orEmpty args.scanSessionId
  if scanSessionId = [] then observations
  else
    let data := args.observation cfg findingId scanSessionId
    observations.upsert data fun row => { data with
      findingId := row.findingId
      scanSessionId := row.scanSessionId
      sourceName := row.sourceName }

/-- The finding that an ingest updates: by fingerprint, else by the link of its source, unless that
one is about another asset. -/
def IngestArguments.existing [NewestFinding] (cfg : IngestSettings) (args : IngestArguments)
    (findings : Table Finding) : Option Finding :=
  let payload := args.resolved cfg
  let sid := Str.strip (Str.orEmpty payload.sourceIssueId)
  match findings.getBy? (args.fingerprint cfg) with
  | some f => some f
  | none =>
    if sid = [] then none
    else
      let linked := findings.rows.filter fun f =>
        f.externalLinks.any fun l => l.adapterKey = args.sourceName ∧ l.issueId = sid
      ((NewestFinding.newest (linked.map Finding.stored)).bind fun r => findings.get? r.id).filter
        fun f =>
          let incomingAsset := assetText payload.image payload.component
          let existingAsset := assetText f.image f.component
          ¬ (incomingAsset ≠ [] ∧ existingAsset ≠ [] ∧ incomingAsset ≠ existingAsset)

theorem IngestArguments.pk_mergeFinding (cfg : IngestSettings) (now : Instant)
    (corr : Str × Confidence) (args : IngestArguments) (f : Finding) :
    Row.pk (args.mergeFinding cfg now corr f) = Row.pk f := by
  have hmigrate : ∀ fp : Str, (migrateFingerprint now fp f).id = f.id := by
    intro fp
    unfold migrateFingerprint
    split_ifs <;> rfl
  have hstatus : ∀ (payload : VatFindingSchema) (g : Finding),
      (payload.mergeStatus now g).id = g.id := by
    intro payload g
    unfold VatFindingSchema.mergeStatus
    split
    · rfl
    · split_ifs <;> rfl
  exact (hstatus _ _).trans (hmigrate _)

/-- The write of the row: its id, and whether it is a new one. -/
def IngestDb.store [NewestFinding] (cfg : IngestSettings) (now : Instant) (args : IngestArguments)
    (s : IngestDb) : Option (IngestDb × Str × Bool) :=
  let corr := args.correlation cfg s.db.assetAliases
  match args.existing cfg s.db.findings with
  | some f =>
    (s.db.findings.update? f.id (args.mergeFinding cfg now corr)
      (args.pk_mergeFinding cfg now corr)).map fun findings => (s.withFindings findings, f.id, false)
  | none =>
    let f := args.newFinding cfg now corr
    (s.db.findings.insert? f).map fun findings => (s.withFindings findings, f.id, true)

/-- The observation of the scan, and the identifiers of the finding. -/
def IngestDb.observe (cfg : IngestSettings) (args : IngestArguments) (f : Finding) (s : IngestDb) :
    IngestDb :=
  { s with
    observations := args.upsertObservation cfg f.id s.observations
    scores := { s.scores with
      facts := upsertIdentifierFacts s.scores.facts f args.sourceName } }

omit [Sha256] in
/-- `apply_correlation_linking`, where it is enabled. What it raises rolls the ingest back. -/
def IngestDb.link (cfg : IngestSettings) (findingId : Str) (s : IngestDb) : Option IngestDb :=
  if cfg.correlationLinkingEnabled then
    match s.correlation.linkFinding findingId with
    | .ok c => some (s.withCorrelation c)
    | .error _ => none
  else some s

/-- What is written before the ledger. -/
def IngestDb.beforeDecision [NewestFinding] (cfg : IngestSettings) (now : Instant)
    (args : IngestArguments) (s : IngestDb) : Option (IngestDb × Str × Bool) := do
  let (stored, findingId, created) ← s.store cfg now args
  let f ← stored.db.findings.get? findingId
  let linked ← (stored.observe cfg args f).link cfg findingId
  return (linked, findingId, created)

omit [Sha256] in
/-- The decision of the ledger, applied. -/
def IngestDb.decide (cfg : IngestSettings) (now : Instant) (args : IngestArguments) (findingId : Str)
    (s : IngestDb) : IngestDb :=
  { s with db := (resolveAndApplyDecision cfg.toSettings now s.db findingId args.parserId).1 }

/-- `ingest_finding`: the tables that it commits, and whether it created a finding. -/
def IngestDb.ingestFinding [NewestFinding] (cfg : IngestSettings) (now : Instant)
    (args : IngestArguments) (s : IngestDb) : Option (IngestDb × Bool) :=
  (s.beforeDecision cfg now args).map fun p => (p.1.decide cfg now args p.2.1, p.2.2)

/-! ### What the steps leave -/

omit [Sha256] in
/-- The identifiers of a finding, stored again. -/
theorem upsertIdentifierFacts_twice (facts : Table FindingIdentifier) {f g : Finding} (source : Str)
    (hid : g.id = f.id) (hfacts : extractIdentifierFacts g = extractIdentifierFacts f) :
    upsertIdentifierFacts (upsertIdentifierFacts facts f source) g source =
      upsertIdentifierFacts facts f source := by
  unfold upsertIdentifierFacts
  rw [hid, hfacts]
  dsimp only
  split_ifs with h
  · rfl
  · have htwice := @Table.upsertEach_upsertEach _ _ _ _ _ _ _ _
      (fun fact : Str × Str × Confidence =>
        (⟨normText (some f.id), fact.1, fact.2.1, fact.2.2, source⟩ : FindingIdentifier))
      (fun fact row => { row with confidence := fact.2.2 }) (fun _ _ => ⟨rfl, rfl⟩)
      (fun _ _ _ => rfl) (fun _ => rfl) facts (extractIdentifierFacts f)
    exact htwice

omit [Sha256] in
/-- An observation stored again. -/
theorem upsertObservation_twice (cfg : IngestSettings) (args : IngestArguments) (findingId : Str)
    (observations : Table ScanObservation) :
    args.upsertObservation cfg findingId (args.upsertObservation cfg findingId observations) =
      args.upsertObservation cfg findingId observations := by
  unfold IngestArguments.upsertObservation
  dsimp only
  split_ifs with h
  · rfl
  · have htwice := @Table.upsertEach_upsertEach _ _ _ _ _ _ _ _
      (fun data : ScanObservation => data)
      (fun data row => { data with
        findingId := row.findingId
        scanSessionId := row.scanSessionId
        sourceName := row.sourceName }) (fun _ _ => ⟨rfl, rfl⟩)
      (fun _ _ _ => rfl) (fun _ => rfl) observations
      [args.observation cfg findingId (Str.orEmpty args.scanSessionId)]
    exact htwice

/-- The row that an ingest writes is a merge into an existing one, or a new one. -/
inductive IngestDb.Writes [NewestFinding] (cfg : IngestSettings) (now : Instant)
    (args : IngestArguments) (s : IngestDb) : Finding → Bool → Prop
  | merged (f : Finding) (h : args.existing cfg s.db.findings = some f) :
      Writes cfg now args s
        (args.mergeFinding cfg now (args.correlation cfg s.db.assetAliases) f) false
  | created (h : args.existing cfg s.db.findings = none) :
      Writes cfg now args s (args.newFinding cfg now (args.correlation cfg s.db.assetAliases)) true

/-- What the steps before the ledger leave for the finding `findingId`, whose row was written as
`row`. -/
structure IngestDb.Prepared (cfg : IngestSettings) (args : IngestArguments) (s t : IngestDb)
    (findingId : Str) (row : Finding) : Prop where
  id : row.id = findingId
  stored : ∃ target, t.db.findings.get? findingId = some (row.pointTo target)
  others : t.db = { s.db with findings := t.db.findings }
  observations : t.observations = args.upsertObservation cfg findingId s.observations
  facts : t.scores.facts = upsertIdentifierFacts s.scores.facts row args.sourceName
  linked : cfg.correlationLinkingEnabled = true →
    ∃ c : CorrelationDb, c.linkFinding findingId = .ok t.correlation

variable {cfg : IngestSettings} {now : Instant} {args : IngestArguments} {s t : IngestDb}
  {findingId : Str} {created : Bool}

theorem IngestArguments.get?_of_existing [NewestFinding] {findings : Table Finding} {f : Finding}
    (h : args.existing cfg findings = some f) : findings.get? f.id = some f := by
  unfold existing at h
  dsimp only at h
  split at h
  · next g hg =>
    cases h
    exact Table.get?_pk_of_mem (Table.mem_of_getBy? hg)
  · split_ifs at h with hsid
    obtain ⟨hbind, -⟩ := Option.filter_eq_some_iff.mp h
    obtain ⟨r, -, hget⟩ := Option.bind_eq_some_iff.mp hbind
    exact Table.get?_pk_of_mem (Table.mem_of_get? hget)

theorem IngestDb.store_eq_some [NewestFinding] (h : s.store cfg now args = some (t, findingId, created)) :
    ∃ row, s.Writes cfg now args row created ∧ row.id = findingId ∧
      t.db.findings.get? findingId = some row ∧ t = s.withFindings t.db.findings := by
  unfold store at h
  dsimp only at h
  split at h
  · next f hf =>
    obtain ⟨findings, hupdate, heq⟩ := Option.map_eq_some_iff.mp h
    cases heq
    have hid := args.pk_mergeFinding cfg now (args.correlation cfg s.db.assetAliases) f
    refine ⟨_, .merged f hf, hid, ?_, rfl⟩
    rw [withFindings, Table.get?_of_update? hupdate, if_pos rfl, IngestArguments.get?_of_existing hf]
    rfl
  · next hf =>
    obtain ⟨findings, hinsert, heq⟩ := Option.map_eq_some_iff.mp h
    cases heq
    refine ⟨_, .created hf, rfl, ?_, rfl⟩
    refine Table.get?_pk_of_mem ?_
    change _ ∈ findings.rows
    rw [Table.rows_of_insert? hinsert]
    exact List.mem_append_right _ (List.mem_singleton_self _)

omit [Sha256] in
/-- Linking writes pointers and edges. -/
theorem IngestDb.link_eq_some (h : s.link cfg findingId = some t) :
    (∃ planned, t.db.findings = s.db.findings.mapRows
      (fun f => f.pointTo (pointerAfter planned f)) (keepsKeys_pointerAfter planned)) ∧
    t.db = { s.db with findings := t.db.findings } ∧ t.observations = s.observations ∧
    t.scores = s.scores ∧
    (cfg.correlationLinkingEnabled = true → s.correlation.linkFinding findingId = .ok t.correlation) := by
  unfold link at h
  split_ifs at h with henabled
  · cases hlink : s.correlation.linkFinding findingId with
    | error e =>
      rw [hlink] at h
      cases h
    | ok c =>
      rw [hlink] at h
      cases h
      obtain ⟨planned, rfl⟩ := CorrelationDb.linkFinding_eq_ok hlink
      exact ⟨⟨planned, CorrelationDb.findings_applyLinks _ planned⟩, rfl, rfl, rfl, fun _ => rfl⟩
  · cases h
    refine ⟨⟨[], Table.ext ?_⟩, rfl, rfl, rfl, fun he => absurd he henabled⟩
    rw [Table.rows_mapRows]
    exact (List.map_id' _).symm

theorem IngestDb.beforeDecision_spec [NewestFinding]
    (h : s.beforeDecision cfg now args = some (t, findingId, created)) :
    ∃ row, s.Writes cfg now args row created ∧ Prepared cfg args s t findingId row := by
  obtain ⟨⟨stored, id, new⟩, hstore, h⟩ := Option.bind_eq_some_iff.mp h
  obtain ⟨row, hwrites, hid, hget, hstored⟩ := store_eq_some hstore
  obtain ⟨f, hf, h⟩ := Option.bind_eq_some_iff.mp h
  obtain rfl : row = f := Option.some.inj (hget.symm.trans hf)
  obtain ⟨linked, hlink, h⟩ := Option.bind_eq_some_iff.mp h
  cases h
  obtain ⟨⟨planned, hfindings⟩, hdb, hobservations, hscores, hlinked⟩ := link_eq_some hlink
  refine ⟨row, hwrites, hid, ⟨pointerAfter planned row, ?_⟩, ?_, ?_, ?_, fun henabled =>
    ⟨_, hlinked henabled⟩⟩
  · rw [hfindings, Table.get?_mapRows]
    exact congrArg (Option.map fun f => Finding.pointTo (pointerAfter planned f) f) hget
  · rw [hdb, hstored]
    rfl
  · rw [hobservations, hstored, ← hid]
    rfl
  · rw [hscores, hstored]
    rfl

end Steps

end Vat
