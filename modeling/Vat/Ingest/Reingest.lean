import Vat.Ingest.Pipeline
import Vat.Ingest.SecondTurn

/-!
# Ingesting a payload again

A second ingest of a payload finds the row of the first one, every column of it merged, the
observation and the identifiers stored, the cluster linked and, when the first turn of the ledger
was settling, the decision applied.

Source: `backend/app/services/ingest.py`, lines 370–532.

## Main definitions

* `IngestDb.lasting`: the tables without audit trails and what says when something was last seen.
* `IngestArguments.Ingested`: what an ingest leaves.
* `IngestDb.Settles`: the condition on a first ingest.

## Main results

* `IngestDb.ingested_decide`: an ingest leaves a row that is merged, observed and linked.
* `IngestDb.ingest_again`: a second ingest creates nothing, and changes nothing that lasts when the
  first one settles.
-/

namespace Vat

open Relational Transition

/-- The tables of an ingest without audit trails and the times of what was last seen. -/
def IngestDb.lasting (s : IngestDb) : IngestDb := { s with db := s.db.lasting }

/-! ### What is read of the details of a row -/

section Details

variable [Unicode]

omit [Unicode] in
theorem Finding.linkView_details (f : Finding) : f.details.lasting.linkView = f.linkView := rfl

theorem extractIdentifierFacts_details (f : Finding) :
    extractIdentifierFacts f.details.lasting = extractIdentifierFacts f := rfl

end Details

section Again

variable [Unicode] [Sha256]

/-! ### The second merge -/

omit [Unicode] [Sha256] in
/-- A merge of the status writes triage. -/
theorem VatFindingSchema.details_mergeStatus (now : Instant) (payload : VatFindingSchema)
    (f : Finding) : (payload.mergeStatus now f).details = f.details := by
  unfold mergeStatus
  split
  · rfl
  · split_ifs <;> rfl

theorem details_lasting_mergeFinding {cfg : IngestSettings} {corr : Str × Confidence}
    {args : IngestArguments} {f : Finding} (now : Instant)
    (hfp : f.fingerprintId = args.fingerprint cfg) (hmerged : args.Merged cfg corr f) :
    (args.mergeFinding cfg now corr f).details.lasting = f.details.lasting := by
  have hmigrate : migrateFingerprint now (args.fingerprint cfg) f = f := if_pos hfp
  unfold IngestArguments.mergeFinding
  rw [hmigrate, VatFindingSchema.details_mergeStatus]
  exact hmerged now

theorem correlatedTo_mergeFinding (cfg : IngestSettings) (now : Instant) (corr : Str × Confidence)
    (args : IngestArguments) (f : Finding) :
    (args.mergeFinding cfg now corr f).correlatedTo = f.correlatedTo := by
  have hmigrate : ∀ fp : Str, (migrateFingerprint now fp f).correlatedTo = f.correlatedTo := by
    intro fp
    unfold migrateFingerprint
    split_ifs <;> rfl
  have hstatus : ∀ (payload : VatFindingSchema) (g : Finding),
      (payload.mergeStatus now g).correlatedTo = g.correlatedTo := by
    intro payload g
    unfold VatFindingSchema.mergeStatus
    split
    · rfl
    · split_ifs <;> rfl
  exact (hstatus _ _).trans (hmigrate _)

/-- A merge writes entries of the system. -/
theorem latestHumanEdit_mergeFinding (cfg : IngestSettings) (now : Instant) (corr : Str × Confidence)
    (args : IngestArguments) (f : Finding) :
    latestHumanEdit (args.mergeFinding cfg now corr f).audit = latestHumanEdit f.audit := by
  have hsystem : ∀ (audit : List AuditEntry) (ts : Option Instant) (action : Str) (note : Option Str),
      latestHumanEdit (audit ++ [⟨ts, str "system", action, note⟩]) = latestHumanEdit audit := by
    intro audit ts action note
    refine latestHumanEdit_append fun e he => ?_
    rw [List.mem_singleton.mp he]
    exact isHumanUser_system
  have hmigrate : ∀ fp : Str,
      latestHumanEdit (migrateFingerprint now fp f).audit = latestHumanEdit f.audit := by
    intro fp
    unfold migrateFingerprint
    split_ifs
    · rfl
    · exact hsystem _ _ _ _
  have hstatus : ∀ (payload : VatFindingSchema) (g : Finding),
      latestHumanEdit (payload.mergeStatus now g).audit = latestHumanEdit g.audit := by
    intro payload g
    unfold VatFindingSchema.mergeStatus
    split
    · exact hsystem _ _ _ _
    · split_ifs
      · exact hsystem _ _ _ _
      · rfl
  exact (hstatus _ _).trans ((hsystem _ _ _ _).trans (hmigrate _))

theorem fingerprintId_mergeFinding (cfg : IngestSettings) (now : Instant) (corr : Str × Confidence)
    (args : IngestArguments) (f : Finding) :
    (args.mergeFinding cfg now corr f).fingerprintId = args.fingerprint cfg := by
  have hmigrate : (migrateFingerprint now (args.fingerprint cfg) f).fingerprintId =
      args.fingerprint cfg := by
    unfold migrateFingerprint
    split_ifs with h
    · exact h
    · rfl
  have hstatus : ∀ (payload : VatFindingSchema) (g : Finding),
      (payload.mergeStatus now g).fingerprintId = g.fingerprintId := by
    intro payload g
    unfold VatFindingSchema.mergeStatus
    split
    · rfl
    · split_ifs <;> rfl
  exact (hstatus _ _).trans hmigrate

/-! ### Links -/

/-- A row as linking reads it, with its pointer. -/
def Finding.linked (f : Finding) : Finding := f.linkView.pointTo f.correlatedTo

omit [Unicode] [Sha256] in
theorem Finding.keepsKeys_linked : KeepsKeys Finding.linked := fun _ => ⟨rfl, rfl⟩

/-- Findings that linking reads alike and that point to the same findings. -/
def SameLinks (a b : Table Finding) : Prop :=
  b.mapRows Finding.linked Finding.keepsKeys_linked = a.mapRows Finding.linked Finding.keepsKeys_linked

omit [Unicode] [Sha256] in
theorem SameLinks.trans {a b c : Table Finding} (h : SameLinks a b) (h' : SameLinks b c) :
    SameLinks a c := Eq.trans h' h

omit [Unicode] [Sha256] in
theorem Finding.linked_congr {f g : Finding} (hdetails : g.details.lasting = f.details.lasting)
    (hpointer : g.correlatedTo = f.correlatedTo) : g.linked = f.linked := by
  rw [linked, linked, ← linkView_details, hdetails, linkView_details, hpointer]

omit [Unicode] [Sha256] in
theorem SameLinks.of_update? {a b : Table Finding} {f : Finding} {g : Finding → Finding}
    {hg : ∀ r, Row.pk (g r) = Row.pk r} (hget : a.get? f.id = some f)
    (hupdate : a.update? f.id g hg = some b) (hdetails : (g f).details.lasting = f.details.lasting)
    (hpointer : (g f).correlatedTo = f.correlatedTo) : SameLinks a b := by
  refine Table.mapRows_of_update? hupdate fun r hr => ?_
  rw [Option.some.inj (hr.symm.trans hget)]
  exact Finding.linked_congr hdetails hpointer

omit [Sha256] in
/-- A second run of linking finds everything as the first one left it. -/
theorem SameLinks.linkFinding_again {c t : IngestDb} {s : IngestDb} {findings : Table Finding}
    {findingId : Str} (h : SameLinks t.db.findings findings)
    (hfirst : c.correlation.linkFinding findingId = .ok t.correlation) (hedges : s.edges = t.edges)
    (hscores : s.scores = t.scores) :
    (s.withFindings findings).correlation.linkFinding findingId =
      .ok (s.withFindings findings).correlation := by
  refine CorrelationDb.linkFinding_settled hfirst ?_ ?_ hedges
  · have hview : findings.mapRows Finding.linkView Finding.keepsKeys_linkView =
        t.db.findings.mapRows Finding.linkView Finding.keepsKeys_linkView := by
      have hmap := congrArg (fun rows => rows.mapRows Finding.linkView Finding.keepsKeys_linkView) h
      have hcomp : ∀ rows : Table Finding, (rows.mapRows Finding.linked Finding.keepsKeys_linked).mapRows
          Finding.linkView Finding.keepsKeys_linkView =
            rows.mapRows Finding.linkView Finding.keepsKeys_linkView := by
        intro rows
        refine Table.ext ?_
        rw [Table.rows_mapRows, Table.rows_mapRows, List.map_map]
        rfl
      rwa [hcomp, hcomp] at hmap
    unfold CorrelationDb.linkView
    change CorrelationDb.mk (findings.mapRows _ _) .empty s.scores = _
    rw [hview, hscores]
    rfl
  · refine funext fun id => ?_
    have hread : ∀ rows : Table Finding, pointerOf rows id =
        ((rows.mapRows Finding.linked Finding.keepsKeys_linked).get? id).map Finding.correlatedTo := by
      intro rows
      rw [Table.get?_mapRows, Option.map_map]
      rfl
    change pointerOf findings id = pointerOf t.db.findings id
    rw [hread, hread, h]

/-! ### What an ingest leaves -/

/-- The tables that an ingest of the finding `f` leaves, and that other writes to its triage keep:
what the steps before the ledger would write is there. -/
structure IngestArguments.Ingested (cfg : IngestSettings) (args : IngestArguments) (s : IngestDb)
    (f : Finding) : Prop where
  get : s.db.findings.get? f.id = some f
  fingerprintId : f.fingerprintId = args.fingerprint cfg
  merged : args.Merged cfg (args.correlation cfg s.db.assetAliases) f
  facts : ∀ g : Finding, g.id = f.id → g.details.lasting = f.details.lasting →
    upsertIdentifierFacts s.scores.facts g args.sourceName = s.scores.facts
  observations : args.upsertObservation cfg f.id s.observations = s.observations
  linked : cfg.correlationLinkingEnabled = true → ∃ c t : IngestDb,
    c.correlation.linkFinding f.id = .ok t.correlation ∧ SameLinks t.db.findings s.db.findings ∧
      s.edges = t.edges ∧ s.scores = t.scores

variable {cfg : IngestSettings} {args : IngestArguments} {s t : IngestDb} {f : Finding}

/-- A second ingest updates the row and writes nothing else before the ledger. -/
theorem IngestArguments.Ingested.beforeDecision [NewestFinding] (h : args.Ingested cfg s f)
    (now : Instant) :
    ∃ findings, s.db.findings.update? f.id
        (args.mergeFinding cfg now (args.correlation cfg s.db.assetAliases))
        (args.pk_mergeFinding cfg now (args.correlation cfg s.db.assetAliases)) = some findings ∧
      s.beforeDecision cfg now args = some (s.withFindings findings, f.id, false) := by
  set merge := args.mergeFinding cfg now (args.correlation cfg s.db.assetAliases) with hmerge
  have hself : ∀ r, s.db.findings.get? f.id = some r → r = f := fun r hr =>
    Option.some.inj (hr.symm.trans h.get)
  have hdetails : (merge f).details.lasting = f.details.lasting :=
    details_lasting_mergeFinding now h.fingerprintId h.merged
  obtain ⟨findings, hupdate⟩ := Table.exists_update?
    (args.pk_mergeFinding cfg now (args.correlation cfg s.db.assetAliases)) fun r hr => by
      rw [hself r hr]
      exact (fingerprintId_mergeFinding _ _ _ _ _).trans h.fingerprintId.symm
  refine ⟨findings, hupdate, ?_⟩
  have hexisting : args.existing cfg s.db.findings = some f := by
    have hfp : s.db.findings.getBy? (args.fingerprint cfg) = some f :=
      Table.getBy?_eq_some_iff.mpr ⟨Table.mem_of_get? h.get, h.fingerprintId⟩
    unfold IngestArguments.existing
    dsimp only
    rw [hfp]
  have hstore : s.store cfg now args = some (s.withFindings findings, f.id, false) := by
    unfold IngestDb.store
    dsimp only
    rw [hexisting]
    dsimp only
    rw [hupdate]
    rfl
  have hget : (s.withFindings findings).db.findings.get? f.id = some (merge f) := by
    refine (Table.get?_of_update? hupdate f.id).trans ?_
    rw [if_pos rfl, h.get]
    rfl
  have hid : (merge f).id = f.id := args.pk_mergeFinding cfg now _ f
  have hobserve : (s.withFindings findings).observe cfg args (merge f) = s.withFindings findings := by
    have hfacts := h.facts (merge f) hid hdetails
    have hobservations := h.observations
    rw [← hid] at hobservations
    unfold IngestDb.observe
    change IngestDb.mk _ _ { s.scores with facts := upsertIdentifierFacts s.scores.facts _ _ }
      (args.upsertObservation cfg _ s.observations) = _
    rw [hfacts, hobservations]
    rfl
  have hlink : (s.withFindings findings).link cfg f.id = some (s.withFindings findings) := by
    unfold IngestDb.link
    split_ifs with henabled
    · obtain ⟨c, t, hfirst, hlinks, hedges, hscores⟩ := h.linked henabled
      have hsame : SameLinks s.db.findings findings := .of_update? h.get hupdate hdetails
        (correlatedTo_mergeFinding cfg now _ args f)
      have hagain := (hlinks.trans hsame).linkFinding_again hfirst hedges hscores
      rw [hagain]
      rfl
    · rfl
  unfold IngestDb.beforeDecision
  rw [hstore]
  change ((s.withFindings findings).db.findings.get? f.id).bind _ = _
  rw [hget]
  change (((s.withFindings findings).observe cfg args (merge f)).link cfg f.id).bind _ = _
  rw [hobserve, hlink]
  rfl

omit [Sha256] in
/-- The ledger leaves the findings as they are or writes a terminal decision onto one. -/
theorem resolveAndApplyDecision_findings (cfg : Settings) (now : Instant) (db : Db)
    (findingId : Str) (parserId : Option Str) :
    (resolveAndApplyDecision cfg now db findingId parserId).1.findings = db.findings ∨
      ∃ d : TriageDecision, d.status ∈ terminalDecisionStatuses ∧
        (resolveAndApplyDecision cfg now db findingId parserId).1.findings =
          db.findings.update findingId (fun f => applyDecisionProjection now f d)
            (keepsKeys_projection now d) := by
  rcases resolveAndApplyDecision_cases cfg now db findingId parserId with
    ⟨heq, -⟩ | ⟨f, d, matched, -, hf, -, heq⟩
  · rw [heq]
    exact Or.inl rfl
  · obtain rfl : f.id = findingId := Table.pk_of_get? hf
    rw [heq]
    by_cases happly : relinkAction db f d = .apply
    · exact Or.inr ⟨d, ((decisionApplyAction_eq_apply_iff f d _).mp happly).1, if_pos happly⟩
    · exact Or.inl (if_neg happly)

omit [Sha256] in
theorem resolveAndApplyDecision_aliases (cfg : Settings) (now : Instant) (db : Db)
    (findingId : Str) (parserId : Option Str) :
    (resolveAndApplyDecision cfg now db findingId parserId).1.assetAliases = db.assetAliases := by
  rcases resolveAndApplyDecision_cases cfg now db findingId parserId with
    ⟨heq, -⟩ | ⟨f, d, matched, -, -, -, heq⟩ <;> rw [heq]
  rfl

/-- What the ledger writes onto a row. -/
structure LedgerWrite (f g : Finding) : Prop where
  id : g.id = f.id
  details : g.details = f.details
  correlatedTo : g.correlatedTo = f.correlatedTo
  closedAt : g.closedAt = f.closedAt
  regressionOf : g.regressionOf = f.regressionOf
  regressionCount : g.regressionCount = f.regressionCount
  status : g.status = f.status ∨ g.status ∈ terminalDecisionStatuses
  edits : latestHumanEdit g.audit = latestHumanEdit f.audit

omit [Sha256] in
/-- The row of a finding after the ledger, and how the other rows are linked. -/
theorem IngestDb.decide_spec {now : Instant} {findingId : Str}
    (hget : t.db.findings.get? findingId = some f) :
    ∃ g, LedgerWrite f g ∧ (t.decide cfg now args findingId).db.findings.get? findingId = some g ∧
      SameLinks t.db.findings (t.decide cfg now args findingId).db.findings := by
  obtain rfl : f.id = findingId := Table.pk_of_get? hget
  rcases resolveAndApplyDecision_findings cfg.toSettings now t.db f.id args.parserId with
    heq | ⟨d, hterm, heq⟩
  · refine ⟨f, ⟨rfl, rfl, rfl, rfl, rfl, rfl, Or.inl rfl, rfl⟩, ?_, ?_⟩
    · exact (congrArg (fun rows => Table.get? rows f.id) heq).trans hget
    · exact congrArg (fun rows => Table.mapRows rows Finding.linked Finding.keepsKeys_linked) heq
  · refine ⟨applyDecisionProjection now f d, ⟨rfl, rfl, rfl, rfl, rfl, rfl, Or.inr hterm,
      latestHumanEdit_projection now f d⟩, ?_, ?_⟩
    · refine (congrArg (fun rows => Table.get? rows f.id) heq).trans ?_
      rw [Table.get?_update_self, hget]
      rfl
    · refine (congrArg (fun rows => Table.mapRows rows Finding.linked Finding.keepsKeys_linked)
        heq).trans ?_
      exact Table.mapRows_update_of_view fun r _ => Finding.linked_congr rfl rfl

/-- The row that an ingest writes is merged, and has its fingerprint. -/
theorem IngestDb.Writes.merged_row [NewestFinding] {now : Instant} {row : Finding} {created : Bool}
    (h : s.Writes cfg now args row created) :
    row.fingerprintId = args.fingerprint cfg ∧
      args.Merged cfg (args.correlation cfg s.db.assetAliases) row := by
  cases h with
  | merged f _ =>
    refine ⟨fingerprintId_mergeFinding _ _ _ _ _, ?_⟩
    exact (merged_mergeDetails now (migrateFingerprint now (args.fingerprint cfg) f)).congr
      (VatFindingSchema.details_mergeStatus now _ _)
  | created _ => exact ⟨rfl, merged_newFinding now⟩

/-- What an ingest leaves of its finding. -/
theorem IngestDb.ingested_decide [NewestFinding] {now : Instant} {findingId : Str} {created : Bool}
    (h : s.beforeDecision cfg now args = some (t, findingId, created)) :
    ∃ f row target, s.Writes cfg now args row created ∧ f.id = findingId ∧
      t.db.findings.get? findingId = some (row.pointTo target) ∧
      LedgerWrite (row.pointTo target) f ∧
      args.Ingested cfg (t.decide cfg now args findingId) f := by
  obtain ⟨row, hwrites, hprepared⟩ := beforeDecision_spec h
  obtain ⟨target, hrow⟩ := hprepared.stored
  obtain ⟨f, hwrite, hget, hlinks⟩ := decide_spec hrow
  obtain ⟨hfp, hmerged⟩ := hwrites.merged_row
  have hid : f.id = findingId := Table.pk_of_get? hget
  have hdetails : f.details = row.details := hwrite.details
  have haliases : (t.decide cfg now args findingId).db.assetAliases = s.db.assetAliases := by
    refine (resolveAndApplyDecision_aliases _ _ _ _ _).trans ?_
    rw [hprepared.others]
  refine ⟨f, row, target, hwrites, hid, hrow, hwrite, ?_⟩
  refine ⟨hid.symm ▸ hget, ?_, ?_, ?_, ?_, ?_⟩
  · exact (congrArg Finding.fingerprintId hdetails).trans hfp
  · rw [haliases]
    exact hmerged.congr hdetails
  · intro g hg hgdetails
    change upsertIdentifierFacts t.scores.facts g args.sourceName = t.scores.facts
    rw [hprepared.facts]
    refine upsertIdentifierFacts_twice _ _ ((hg.trans hid).trans hprepared.id.symm) ?_
    rw [← extractIdentifierFacts_details g, hgdetails, hdetails, extractIdentifierFacts_details]
  · change args.upsertObservation cfg f.id t.observations = t.observations
    rw [hprepared.observations, hid]
    exact upsertObservation_twice cfg args findingId s.observations
  · intro henabled
    obtain ⟨c, hc⟩ := hprepared.linked henabled
    refine ⟨⟨{ s.db with findings := c.findings }, c.edges, c.scores, s.observations⟩, t, ?_, hlinks,
      rfl, rfl⟩
    rw [hid]
    exact hc

/-- After an ingest that left the row `f`, people and jobs have written to the triage of findings,
and the row is `g`. -/
structure IngestDb.TriagedSince (first between : IngestDb) (f g : Finding) : Prop where
  get : between.db.findings.get? f.id = some g
  details : g.details = f.details
  links : SameLinks first.db.findings between.db.findings
  assetAliases : between.db.assetAliases = first.db.assetAliases
  edges : between.edges = first.edges
  scores : between.scores = first.scores
  observations : between.observations = first.observations

theorem IngestArguments.Ingested.triaged {between : IngestDb} {g : Finding}
    (h : args.Ingested cfg s f) (hsince : s.TriagedSince between f g) :
    args.Ingested cfg between g := by
  have hid : g.id = f.id := Table.pk_of_get? hsince.get
  refine ⟨hid ▸ hsince.get, (congrArg Finding.fingerprintId hsince.details).trans h.fingerprintId,
    ?_, ?_, ?_, ?_⟩
  · rw [hsince.assetAliases]
    exact h.merged.congr hsince.details
  · intro r hr hdetails
    rw [hsince.scores]
    exact h.facts r (hr.trans hid) (hdetails.trans (congrArg Finding.lasting hsince.details))
  · rw [hsince.observations, hid]
    exact h.observations
  · intro henabled
    obtain ⟨c, t, hfirst, hlinks, hedges, hscores⟩ := h.linked henabled
    exact ⟨c, t, hid ▸ hfirst, hlinks.trans hsince.links, hsince.edges.trans hedges,
      hsince.scores.trans hscores⟩

/-! ### The second ingest -/

/-- The settings and the tables of a first ingest at `now`: the first turn of the ledger is
settling, no person's edit is stamped later, and no row with a closing date in the payload is
reopened. -/
structure IngestDb.Settles [NewestFinding] (cfg : IngestSettings) (now : Instant)
    (args : IngestArguments) (s : IngestDb) : Prop where
  settling : ∀ t findingId created, s.beforeDecision cfg now args = some (t, findingId, created) →
    SettlingTurn cfg.toSettings args.parserId t.db findingId
  present : Present now s.db.findings
  notReopened : ∀ f, args.existing cfg s.db.findings = some f →
    ¬ (args.resolved cfg).ReopensClosed f

theorem IngestDb.Writes.statusMerged [NewestFinding] {now : Instant} {row : Finding} {created : Bool}
    (h : s.Writes cfg now args row created)
    (hnot : ∀ f, args.existing cfg s.db.findings = some f → ¬ (args.resolved cfg).ReopensClosed f) :
    (args.resolved cfg).StatusMerged row ∧
      (args.resolved cfg).syncedStatus.getD row.status = row.status := by
  cases h with
  | merged f hf =>
    refine VatFindingSchema.statusMerged_mergeStatus now fun hreopen => hnot f hf ?_
    have hmigrate : (migrateFingerprint now (args.fingerprint cfg) f).status = f.status := by
      unfold migrateFingerprint
      split_ifs <;> rfl
    exact ⟨hreopen.1, hmigrate.symm.trans hreopen.2.1, hreopen.2.2⟩
  | created _ => exact VatFindingSchema.statusMerged_new now _ args

theorem IngestDb.Writes.edits [NewestFinding] {now : Instant} {row : Finding} {created : Bool}
    (h : s.Writes cfg now args row created) (hpresent : Present now s.db.findings) :
    ∀ ts, latestHumanEdit row.audit = some ts → ts ≤ now := by
  intro ts hts
  cases h with
  | merged f hf =>
    rw [latestHumanEdit_mergeFinding] at hts
    exact hpresent f (Table.mem_of_get? (IngestArguments.get?_of_existing hf)) ts hts
  | created _ =>
    have hnone : latestHumanEdit (args.newFinding cfg now
        (args.correlation cfg s.db.assetAliases)).audit = none :=
      @latestHumanEdit_append _ [] _ fun e he => by
        rw [List.mem_singleton.mp he]
        exact isHumanUser_system
    rw [hnone] at hts
    cases hts

omit [Sha256] in
theorem map_id_decide (cfg : IngestSettings) (now : Instant) (args : IngestArguments)
    (findingId : Str) (s : IngestDb) :
    (s.decide cfg now args findingId).db.findings.rows.map Finding.id =
      s.db.findings.rows.map Finding.id := by
  rcases resolveAndApplyDecision_findings cfg.toSettings now s.db findingId args.parserId with
    heq | ⟨d, -, heq⟩
  · exact congrArg (fun rows : Table Finding => rows.rows.map Finding.id) heq
  · refine (congrArg (fun rows : Table Finding => rows.rows.map Finding.id) heq).trans ?_
    exact Table.map_pk_mapRows s.db.findings _ _

/-- A second ingest of a payload creates nothing; what the first one left lasts when it settles. -/
theorem IngestDb.ingest_again [NewestFinding] {now : Instant} {first : IngestDb} {created : Bool}
    (h : s.ingestFinding cfg now args = some (first, created)) (now' : Instant) :
    ∃ second, first.ingestFinding cfg now' args = some (second, false) ∧
      second.db.findings.rows.map Finding.id = first.db.findings.rows.map Finding.id ∧
      (s.Settles cfg now args → second.lasting = first.lasting) := by
  obtain ⟨⟨t, findingId, new⟩, hbefore, hfirst⟩ := Option.map_eq_some_iff.mp h
  cases hfirst
  obtain ⟨f, row, target, hwrites, rfl, hrow, hledger, hingested⟩ := ingested_decide hbefore
  obtain ⟨findings, hupdate, hagain⟩ := hingested.beforeDecision now'
  refine ⟨_, congrArg (Option.map _) hagain,
    (map_id_decide _ _ _ _ _).trans (Table.map_pk_of_update? hupdate), fun hsettles => ?_⟩
  obtain ⟨hmerged, hsynced⟩ := hwrites.statusMerged hsettles.notReopened
  have hedits := hwrites.edits hsettles.present
  have hsettling := hsettles.settling t f.id new hbefore
  -- The row that the second merge leaves.
  set g := args.mergeFinding cfg now' (args.correlation cfg
    (t.decide cfg now args f.id).db.assetAliases) f with hg
  have hlasting : g.lasting = f.lasting.withStatus ((args.resolved cfg).syncedStatus.getD f.status) :=
    lasting_mergeFinding now' hingested.fingerprintId hingested.merged
      (hmerged.congr (hledger.status.imp_right fun hterm hresolved => by
        rw [hresolved] at hterm
        revert hterm
        decide) hledger.closedAt)
  have hgdetails : g.details.lasting = f.details.lasting :=
    details_lasting_mergeFinding now' hingested.fingerprintId hingested.merged
  have hgedits : ∀ ts, latestHumanEdit g.audit = some ts → ts ≤ now := by
    intro ts hts
    rw [hg, latestHumanEdit_mergeFinding, hledger.edits] at hts
    exact hedits ts hts
  exact congrArg (fun db => IngestDb.mk db t.edges t.scores t.observations)
    (lasting_resolve_again hrow hingested.get hupdate hg.symm hlasting hgdetails hsynced hgedits
      hsettling)

end Again

end Vat
