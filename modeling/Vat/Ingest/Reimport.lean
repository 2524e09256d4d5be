import Vat.Ingest.Reingest
import Vat.Transition.Run

/-!
# Many ingests of one fingerprint

A run of ingests with one fingerprint, some of which are rolled back. Its finding has the most
severe of the severities that were reported and of the one it had; once it was resolved, the next
report of it as open counts one regression, and the reports after that none until it is resolved
again.

Source: `backend/app/services/ingest.py`, lines 137–147 and 370–532.

## Main definitions

* `IngestDb.turn`: an ingest that commits or is rolled back.
* `Db.ruledStatus`: the status of a finding under its decision.
* `IngestDb.reports`, `IngestDb.foundSeverity`: the severities of a run.

## Main results

* `IngestDb.regression_of_resolved`, `IngestDb.regressionCount_run`: a regression is counted once.
* `IngestDb.mostSevere_run`: the severity after a run.
-/

namespace Vat

open Relational Transition

section Runs

variable [Unicode] [Sha256] [NewestFinding] {cfg : IngestSettings} {args : IngestArguments}
  {s t : IngestDb}

/-- An ingest, which a failure rolls back. -/
def IngestDb.turn (cfg : IngestSettings) (s : IngestDb) (call : Instant × IngestArguments) :
    IngestDb :=
  ((s.ingestFinding cfg call.1 call.2).map Prod.fst).getD s

/-- The finding with a fingerprint. -/
def IngestDb.finding (s : IngestDb) (fp : Str) : Option Finding := s.db.findings.getBy? fp

/-- An ingest that goes through is a turn. -/
theorem IngestDb.ingestFinding_eq_turn {now : Instant}
    {created : Bool} (h : (s.ingestFinding cfg now args).map Prod.snd = some created) :
    s.ingestFinding cfg now args = some (s.turn cfg (now, args), created) := by
  obtain ⟨p, hp, rfl⟩ := Option.map_eq_some_iff.mp h
  rw [turn, hp]
  rfl

/-! ### The row of an ingest -/

omit [Sha256] [NewestFinding] in
/-- The asset of a payload changes neither what it says of the status nor what it reports. -/
theorem IngestArguments.resolved_reports (cfg : IngestSettings) (args : IngestArguments) :
    ((args.resolved cfg).ReportsOpen ↔ args.payload.ReportsOpen) ∧
      (args.resolved cfg).reportedSeverity = args.payload.reportedSeverity := by
  unfold resolved IngestCall.resolved resolveAssetForPayload
  dsimp only
  split_ifs <;> exact ⟨Iff.rfl, rfl⟩

/-- The row that an ingest leaves under its fingerprint. -/
theorem IngestDb.finding_of_ingest {now : Instant} {created : Bool}
    (h : s.ingestFinding cfg now args = some (t, created)) :
    ∃ f row target, ∃ t₀ : IngestDb, s.Writes cfg now args row created ∧
      LedgerWrite (row.pointTo target) f ∧ t.finding (args.fingerprint cfg) = some f ∧
      t₀.db.findings.get? f.id = some (row.pointTo target) ∧ t = t₀.decide cfg now args f.id := by
  obtain ⟨⟨t₀, findingId, new⟩, hbefore, heq⟩ := Option.map_eq_some_iff.mp h
  cases heq
  obtain ⟨f, row, target, hwrites, rfl, hrow, hledger, hingested⟩ := ingested_decide hbefore
  exact ⟨f, row, target, t₀, hwrites, hledger,
    Table.getBy?_eq_some_iff.mpr ⟨Table.mem_of_get? hingested.get, hingested.fingerprintId⟩, hrow, rfl⟩

omit [NewestFinding] in
theorem IngestArguments.existing_of_finding [NewestFinding] {f : Finding}
    (h : s.finding (args.fingerprint cfg) = some f) : args.existing cfg s.db.findings = some f := by
  have hget : s.db.findings.getBy? (args.fingerprint cfg) = some f := h
  unfold existing
  dsimp only
  rw [hget]

/-- An ingest under a fingerprint that is there merges the row. -/
theorem IngestDb.Writes.eq_merge {now : Instant} {row f : Finding} {created : Bool}
    (h : s.Writes cfg now args row created) (hf : s.finding (args.fingerprint cfg) = some f) :
    created = false ∧ row = (args.resolved cfg).mergeStatus now
      (args.mergeDetails cfg now (args.correlation cfg s.db.assetAliases) f) := by
  have hexisting := IngestArguments.existing_of_finding hf
  have hfp : f.fingerprintId = args.fingerprint cfg := Table.uk_of_getBy? hf
  cases h with
  | merged g hg =>
    obtain rfl : f = g := Option.some.inj (hexisting.symm.trans hg)
    refine ⟨rfl, ?_⟩
    unfold IngestArguments.mergeFinding
    rw [migrateFingerprint, if_pos hfp]
  | created hnone =>
    rw [hnone] at hexisting
    cases hexisting

/-! ### Regressions -/

/-- The status of a finding that the ledger finds with `status`. -/
def Db.ruledStatus (cfg : Settings) (parserId : Option Str) (db : Db) (f : Finding)
    (status : Status) : Status :=
  if cfg.decisionLedgerEnabled then
    match governingDecision cfg db f parserId with
    | some (d, _) => if d.status ∈ terminalDecisionStatuses then d.status else status
    | none => status
  else status

omit [Sha256] [NewestFinding] in
/-- A terminal decision is applied to a finding that was reopened. -/
theorem status_resolve_of_reopened {cfg : Settings} {parserId : Option Str} {now : Instant} {db : Db}
    {findingId : Str} {f g : Finding} (hget : db.findings.get? findingId = some f)
    (hreopened : f.status = .reopened)
    (hg : (resolveAndApplyDecision cfg now db findingId parserId).1.findings.get? findingId = some g) :
    g.status = (resolveAndApplyDecision cfg now db findingId parserId).1.ruledStatus cfg parserId g
      .reopened := by
  unfold Db.ruledStatus
  rcases resolveAndApplyDecision_cases cfg now db findingId parserId with
    ⟨heq, hnone⟩ | ⟨f', d, matched, henabled, hf', hgov, heq⟩
  · rw [heq] at hg ⊢
    obtain rfl : f = g := Option.some.inj (hget.symm.trans hg)
    split_ifs with henabled
    · cases hgov : governingDecision cfg db f parserId with
      | none => exact hreopened
      | some p => exact absurd hgov (hnone f p.1 p.2 henabled hget)
    · exact hreopened
  · obtain rfl : f = f' := Option.some.inj (hget.symm.trans hf')
    obtain rfl : f.id = findingId := Table.pk_of_get? hget
    rw [heq] at hg ⊢
    obtain rfl : relinkedFinding now db f d = g :=
      Option.some.inj ((findings_relink_self hget).symm.trans hg)
    have hgov' : governingDecision cfg (relinkDecision now db f d matched) (relinkedFinding now db f d)
        parserId = some (d.touch now f.id, matched) := by
      rw [governingDecision_relink (sameSubject_relinkedFinding now db f d), hgov]
      simp
    have hpre : f.status ∈ preDecisionStatuses := by
      rw [hreopened]
      decide
    have happly := decisionApplyAction_eq_apply_iff f d (linkApplied db d.id f.id)
    rw [if_pos henabled, hgov']
    change _ = if d.status ∈ terminalDecisionStatuses then d.status else .reopened
    unfold relinkedFinding
    split_ifs with haction hterm hterm
    · rfl
    · exact absurd (happly.mp haction).1 hterm
    · exact absurd (happly.mpr ⟨hterm, Or.inl hpre⟩) haction
    · exact hreopened

omit [Unicode] [Sha256] [NewestFinding] in
/-- A report as open of a resolved finding. -/
theorem VatFindingSchema.ReportsOpen.mergeStatus_of_resolved {payload : VatFindingSchema}
    (h : payload.ReportsOpen) (now : Instant) {f : Finding} (hf : f.status = .resolved) :
    (payload.mergeStatus now f).id = f.id ∧ (payload.mergeStatus now f).status = .reopened ∧
      (payload.mergeStatus now f).closedAt = none ∧
      (payload.mergeStatus now f).regressionOf = f.regressionOf ++ [f.id] ∧
      (payload.mergeStatus now f).regressionCount = f.regressionCount + 1 := by
  rw [mergeStatus, syncedStatus_eq_none h]
  dsimp only
  rw [if_pos ⟨h, hf⟩]
  exact ⟨rfl, rfl, rfl, rfl, rfl⟩

omit [Unicode] [Sha256] [NewestFinding] in
/-- Any other report counts no regression. -/
theorem VatFindingSchema.regression_mergeStatus {payload : VatFindingSchema} {f : Finding}
    (h : ¬ (payload.ReportsOpen ∧ f.status = .resolved)) (now : Instant) :
    (payload.mergeStatus now f).regressionCount = f.regressionCount ∧
      (payload.mergeStatus now f).regressionOf = f.regressionOf := by
  unfold mergeStatus
  dsimp only
  split
  · exact ⟨rfl, rfl⟩
  · rw [if_neg h]
    exact ⟨rfl, rfl⟩

omit [Sha256] [NewestFinding] in
theorem ruledStatus_ne_resolved {cfg : Settings} {parserId : Option Str} {db : Db} {f : Finding} :
    db.ruledStatus cfg parserId f .reopened ≠ .resolved := by
  have hterminal : ∀ d : TriageDecision, d.status ∈ terminalDecisionStatuses → d.status ≠ .resolved := by
    intro d hterm hresolved
    rw [hresolved] at hterm
    revert hterm
    decide
  unfold Db.ruledStatus
  split_ifs with henabled
  · cases governingDecision cfg db f parserId with
    | none => decide
    | some p =>
      change (if p.1.status ∈ terminalDecisionStatuses then p.1.status else .reopened) ≠ _
      split_ifs with hterm
      · exact hterminal p.1 hterm
      · decide
  · decide

/-- A resolved finding that is reported as open is reopened, and its regression counted; then the
ledger rules. -/
theorem IngestDb.regression_of_resolved {now : Instant} {created : Bool} {f : Finding}
    (h : s.ingestFinding cfg now args = some (t, created)) (hopen : args.payload.ReportsOpen)
    (hf : s.finding (args.fingerprint cfg) = some f) (hresolved : f.status = .resolved) :
    created = false ∧ ∃ g, t.finding (args.fingerprint cfg) = some g ∧ g.id = f.id ∧
      g.regressionCount = f.regressionCount + 1 ∧ g.regressionOf = f.regressionOf ++ [f.id] ∧
      g.closedAt = none ∧
      g.status = t.db.ruledStatus cfg.toSettings args.parserId g .reopened := by
  obtain ⟨g, row, target, t₀, hwrites, hledger, hfinding, hrow, rfl⟩ := finding_of_ingest h
  obtain ⟨hcreated, hmerge⟩ := hwrites.eq_merge hf
  have hopen' : (args.resolved cfg).ReportsOpen := (args.resolved_reports cfg).1.mpr hopen
  obtain ⟨hid, hstatus, hclosed, hregressionOf, hcount⟩ := hopen'.mergeStatus_of_resolved now
    (show (args.mergeDetails cfg now (args.correlation cfg s.db.assetAliases) f).status = .resolved
      from hresolved)
  rw [← hmerge] at hid hstatus hclosed hregressionOf hcount
  refine ⟨hcreated, g, hfinding, hledger.id.trans hid, hledger.regressionCount.trans hcount,
    hledger.regressionOf.trans hregressionOf, hledger.closedAt.trans hclosed, ?_⟩
  refine status_resolve_of_reopened hrow hstatus ?_
  exact Table.get?_pk_of_mem (Table.getBy?_eq_some_iff.mp hfinding).1

/-- A second ingest of a payload, whatever was done in between to the triage of findings, leaves the
details of the row, the links, the identifiers and the observations. -/
theorem IngestDb.details_ingest_again {now : Instant} {created : Bool} {first between : IngestDb}
    {f g : Finding} (h : s.ingestFinding cfg now args = some (first, created))
    (hf : first.finding (args.fingerprint cfg) = some f) (hsince : first.TriagedSince between f g)
    (now' : Instant) :
    between.finding (args.fingerprint cfg) = some g ∧
    ∃ second r, between.ingestFinding cfg now' args = some (second, false) ∧
      second.finding (args.fingerprint cfg) = some r ∧ r.details.lasting = g.details.lasting ∧
      second.edges = between.edges ∧ second.scores = between.scores ∧
      second.observations = between.observations ∧
      (¬ (args.payload.ReportsOpen ∧ g.status = .resolved) →
        r.regressionCount = g.regressionCount ∧ r.regressionOf = g.regressionOf) := by
  obtain ⟨⟨t, findingId, new⟩, hbefore, heq⟩ := Option.map_eq_some_iff.mp h
  cases heq
  obtain ⟨f', row, target, -, rfl, -, -, hingested⟩ := ingested_decide hbefore
  have hfinding := Table.getBy?_uk_of_mem (Table.mem_of_get? hingested.get)
  change Table.getBy? _ f'.fingerprintId = _ at hfinding
  rw [hingested.fingerprintId] at hfinding
  obtain rfl : f' = f := Option.some.inj (hfinding.symm.trans hf)
  have hagain := hingested.triaged hsince
  have hbetween : between.finding (args.fingerprint cfg) = some g :=
    Table.getBy?_eq_some_iff.mpr ⟨Table.mem_of_get? hagain.get, hagain.fingerprintId⟩
  obtain ⟨findings, hupdate, hbefore'⟩ := hagain.beforeDecision now'
  have hingest : between.ingestFinding cfg now' args =
      some ((between.withFindings findings).decide cfg now' args g.id, false) :=
    congrArg (Option.map _) hbefore'
  have hrow : (between.withFindings findings).db.findings.get? g.id = some
      (args.mergeFinding cfg now' (args.correlation cfg between.db.assetAliases) g) := by
    refine (Table.get?_of_update? hupdate g.id).trans ?_
    rw [if_pos rfl, hagain.get]
    rfl
  have hdecide : ∃ r, LedgerWrite _ r ∧
      ((between.withFindings findings).decide cfg now' args g.id).db.findings.get? g.id = some r ∧
      _ := decide_spec hrow
  obtain ⟨r, hledger, hget, -⟩ := hdecide
  have hdetails : r.details.lasting = g.details.lasting := by
    rw [hledger.details]
    exact details_lasting_mergeFinding now' hagain.fingerprintId hagain.merged
  have hfp : r.fingerprintId = args.fingerprint cfg :=
    (congrArg Finding.fingerprintId hdetails).trans hagain.fingerprintId
  refine ⟨hbetween, _, r, hingest, Table.getBy?_eq_some_iff.mpr ⟨Table.mem_of_get? hget, hfp⟩,
    hdetails, rfl, rfl, rfl, fun hnot => ?_⟩
  have hmerge : args.mergeFinding cfg now' (args.correlation cfg between.db.assetAliases) g =
      (args.resolved cfg).mergeStatus now'
        (args.mergeDetails cfg now' (args.correlation cfg between.db.assetAliases) g) := by
    unfold IngestArguments.mergeFinding
    rw [migrateFingerprint, if_pos hagain.fingerprintId]
  have hkept := @VatFindingSchema.regression_mergeStatus (args.resolved cfg)
    (args.mergeDetails cfg now' (args.correlation cfg between.db.assetAliases) g)
    (fun hopen => hnot ⟨(args.resolved_reports cfg).1.mp hopen.1, hopen.2⟩) now'
  rw [← hmerge] at hkept
  exact ⟨hledger.regressionCount.trans hkept.1, hledger.regressionOf.trans hkept.2⟩

/-- The finding with a fingerprint is not resolved, and has had `n` regressions. -/
def IngestDb.Unresolved (fp : Str) (n : ℕ) (s : IngestDb) : Prop :=
  ∃ f, s.finding fp = some f ∧ f.status ≠ .resolved ∧ f.regressionCount = n

/-- A report as open of a finding that is not resolved counts no regression. -/
theorem IngestDb.Unresolved.turn {n : ℕ} {call : Instant × IngestArguments}
    (h : s.Unresolved (call.2.fingerprint cfg) n) (hopen : call.2.payload.ReportsOpen) :
    (s.turn cfg call).Unresolved (call.2.fingerprint cfg) n := by
  obtain ⟨f, hf, hresolved, hcount⟩ := h
  unfold IngestDb.turn
  cases hingest : s.ingestFinding cfg call.1 call.2 with
  | none => exact ⟨f, hf, hresolved, hcount⟩
  | some p =>
    obtain ⟨t, created⟩ := p
    obtain ⟨g, row, target, t₀, hwrites, hledger, hfinding, -, -⟩ := finding_of_ingest hingest
    obtain ⟨-, hmerge⟩ := hwrites.eq_merge hf
    have hopen' : (call.2.resolved cfg).ReportsOpen := (call.2.resolved_reports cfg).1.mpr hopen
    have hkept : row.status = f.status ∧ row.regressionCount = f.regressionCount := by
      rw [hmerge, VatFindingSchema.mergeStatus, VatFindingSchema.syncedStatus_eq_none hopen']
      dsimp only
      rw [if_neg fun hreopen => hresolved hreopen.2]
      exact ⟨rfl, rfl⟩
    refine ⟨g, hfinding, ?_, hledger.regressionCount.trans (hkept.2.trans hcount)⟩
    rcases hledger.status with hstatus | hterm
    · rw [hstatus]
      exact fun heq => hresolved (hkept.1.symm.trans heq)
    · intro heq
      rw [heq] at hterm
      revert hterm
      decide

/-- A run of reports as open counts no regression of a finding that is not resolved. -/
theorem IngestDb.regressionCount_run {fp : Str} {n : ℕ} {calls : List (Instant × IngestArguments)}
    (h : s.Unresolved fp n)
    (hcalls : ∀ call ∈ calls, call.2.fingerprint cfg = fp ∧ call.2.payload.ReportsOpen) :
    (run (IngestDb.turn cfg) s calls).Unresolved fp n := by
  induction calls generalizing s with
  | nil => exact h
  | cons call calls ih =>
    obtain ⟨⟨hfp, hopen⟩, hrest⟩ := List.forall_mem_cons.mp hcalls
    rw [run_cons]
    refine ih ?_ hrest
    subst hfp
    exact h.turn hopen

/-! ### Severities -/

/-- The severities that the ingests of a run report, without those that are rolled back. -/
def IngestDb.reports (cfg : IngestSettings) (s : IngestDb) :
    List (Instant × IngestArguments) → List Severity
  | [] => []
  | call :: calls =>
    match s.ingestFinding cfg call.1 call.2 with
    | none => s.reports cfg calls
    | some (t, _) => call.2.payload.reportedSeverity :: t.reports cfg calls

/-- The severity of the row that the first ingest of a run merges into. -/
def IngestDb.foundSeverity (cfg : IngestSettings) (s : IngestDb) :
    List (Instant × IngestArguments) → Option Severity
  | [] => none
  | call :: calls =>
    match s.ingestFinding cfg call.1 call.2 with
    | none => s.foundSeverity cfg calls
    | some _ => (call.2.existing cfg s.db.findings).map Finding.severity

/-- The severity that an ingest leaves. -/
theorem IngestDb.severity_of_ingest {now : Instant} {created : Bool}
    (h : s.ingestFinding cfg now args = some (t, created)) :
    (t.finding (args.fingerprint cfg)).map Finding.severity =
      some (match args.existing cfg s.db.findings with
        | none => args.payload.reportedSeverity
        | some f => maxSeverity f.severity args.payload.reportedSeverity) := by
  obtain ⟨g, row, target, t₀, hwrites, hledger, hfinding, -, -⟩ := finding_of_ingest h
  have hdetails : g.details.severity = row.details.severity :=
    congrArg Finding.severity hledger.details
  have hseverity : g.severity = row.severity := hdetails
  have hreported := (args.resolved_reports cfg).2
  rw [hfinding, Option.map_some, hseverity]
  cases hwrites with
  | merged f hf =>
    have hstatus : (args.mergeFinding cfg now (args.correlation cfg s.db.assetAliases)
          f).details.severity =
        (args.mergeDetails cfg now (args.correlation cfg s.db.assetAliases)
          (migrateFingerprint now (args.fingerprint cfg) f)).details.severity :=
      congrArg Finding.severity (VatFindingSchema.details_mergeStatus now (args.resolved cfg) _)
    have hmerge : (args.mergeFinding cfg now (args.correlation cfg s.db.assetAliases) f).severity =
        maxSeverity (migrateFingerprint now (args.fingerprint cfg) f).severity
          (args.resolved cfg).reportedSeverity := hstatus
    have hmigrate : (migrateFingerprint now (args.fingerprint cfg) f).severity = f.severity := by
      unfold migrateFingerprint
      split_ifs <;> rfl
    rw [hf, hmerge, hmigrate, hreported]
  | created hnone =>
    rw [hnone, ← hreported]
    rfl

/-- A run from a finding with a severity leaves the most severe of it and the reports. -/
theorem IngestDb.mostSevere_from {fp : Str} {v : Severity} {calls : List (Instant × IngestArguments)}
    (hv : (s.finding fp).map Finding.severity = some v)
    (hcalls : ∀ call ∈ calls, call.2.fingerprint cfg = fp) :
    ∃ w, ((run (IngestDb.turn cfg) s calls).finding fp).map Finding.severity = some w ∧
      MostSevere (v :: s.reports cfg calls) w := by
  induction calls generalizing s v with
  | nil => exact ⟨v, hv, mostSevere_singleton v⟩
  | cons call calls ih =>
    obtain ⟨rfl, hrest⟩ := List.forall_mem_cons.mp hcalls
    obtain ⟨f, hf, rfl⟩ := Option.map_eq_some_iff.mp hv
    rw [run_cons, reports, IngestDb.turn]
    cases hingest : s.ingestFinding cfg call.1 call.2 with
    | none => exact ih hv hrest
    | some p =>
      obtain ⟨t, created⟩ := p
      have hseverity := severity_of_ingest hingest
      rw [IngestArguments.existing_of_finding hf] at hseverity
      obtain ⟨w, hw, hmost⟩ := ih hseverity hrest
      exact ⟨w, hw, hmost.of_maxSeverity⟩

/-- A run leaves the most severe of what is reported and what was found. -/
theorem IngestDb.mostSevere_run {fp : Str} {calls : List (Instant × IngestArguments)}
    (hcalls : ∀ call ∈ calls, call.2.fingerprint cfg = fp) (hreports : s.reports cfg calls ≠ []) :
    ∃ w, ((run (IngestDb.turn cfg) s calls).finding fp).map Finding.severity = some w ∧
      MostSevere ((s.foundSeverity cfg calls).toList ++ s.reports cfg calls) w := by
  induction calls with
  | nil => exact absurd rfl hreports
  | cons call calls ih =>
    obtain ⟨rfl, hrest⟩ := List.forall_mem_cons.mp hcalls
    rw [run_cons, IngestDb.turn]
    unfold reports at hreports ⊢
    unfold foundSeverity
    cases hingest : s.ingestFinding cfg call.1 call.2 with
    | none =>
      rw [hingest] at hreports
      exact ih hrest hreports
    | some p =>
      obtain ⟨t, created⟩ := p
      obtain ⟨w, hw, hmost⟩ := mostSevere_from (severity_of_ingest hingest) hrest
      refine ⟨w, hw, ?_⟩
      cases hexisting : call.2.existing cfg s.db.findings with
      | none =>
        rw [hexisting] at hmost
        exact hmost
      | some f =>
        rw [hexisting] at hmost
        exact hmost.of_maxSeverity

/-! ### All of it -/

/-- A second ingest of a payload creates no finding, and after a first one that settles it changes
nothing but audit trails and what says when something was last seen. A finding that was resolved in
between and that the payload reports as open becomes reopened, with one more regression, unless a
terminal decision of the ledger governs it; no later ingest of the payload counts another one. Over
a run of ingests of one fingerprint the severity does not decrease, and ends as the most severe of
the reported ones and of the one that the first of them found. -/
theorem IngestDb.reingest (cfg : IngestSettings) :
    (∀ (now now' : Instant) (args : IngestArguments) (s first : IngestDb) (created : Bool),
      s.ingestFinding cfg now args = some (first, created) →
      ∃ second : IngestDb, first.ingestFinding cfg now' args = some (second, false) ∧
        second.db.findings.rows.map Finding.id = first.db.findings.rows.map Finding.id ∧
        (s.Settles cfg now args → second.lasting = first.lasting)) ∧
    (∀ (now now' : Instant) (args : IngestArguments) (s first between : IngestDb) (created : Bool)
      (f g : Finding), s.ingestFinding cfg now args = some (first, created) →
      first.finding (args.fingerprint cfg) = some f → first.TriagedSince between f g →
      ∃ (second : IngestDb) (r : Finding),
        between.ingestFinding cfg now' args = some (second, false) ∧
        second.finding (args.fingerprint cfg) = some r ∧ r.details.lasting = g.details.lasting ∧
        second.edges = between.edges ∧ second.scores = between.scores ∧
        second.observations = between.observations ∧
        (args.payload.ReportsOpen ∧ g.status = .resolved →
          r.regressionCount = g.regressionCount + 1 ∧ r.regressionOf = g.regressionOf ++ [g.id] ∧
          r.closedAt = none ∧
          r.status = second.db.ruledStatus cfg.toSettings args.parserId r .reopened ∧
          ∀ later : List Instant, (run (IngestDb.turn cfg) second
            (later.map fun now => (now, args))).Unresolved (args.fingerprint cfg)
              (g.regressionCount + 1)) ∧
        (¬ (args.payload.ReportsOpen ∧ g.status = .resolved) →
          r.regressionCount = g.regressionCount ∧ r.regressionOf = g.regressionOf)) ∧
    ∀ (fp : Str) (s : IngestDb) (calls : List (Instant × IngestArguments)),
      (∀ call ∈ calls, call.2.fingerprint cfg = fp) →
      (∀ v, (s.finding fp).map Finding.severity = some v →
        ∃ w, ((run (IngestDb.turn cfg) s calls).finding fp).map Finding.severity = some w ∧
          w.index ≤ v.index) ∧
      (s.reports cfg calls ≠ [] →
        ∃ w, ((run (IngestDb.turn cfg) s calls).finding fp).map Finding.severity = some w ∧
          MostSevere ((s.foundSeverity cfg calls).toList ++ s.reports cfg calls) w) := by
  refine ⟨fun now now' args s first created h => ingest_again h now',
    fun now now' args s first between created f g h hf hsince => ?_, fun fp s calls hcalls =>
    ⟨fun v hv => ?_, mostSevere_run hcalls⟩⟩
  · obtain ⟨hbetween, second, r, hingest, hr, hdetails, hedges, hscores, hobservations, hnone⟩ :=
      details_ingest_again h hf hsince now'
    refine ⟨second, r, hingest, hr, hdetails, hedges, hscores, hobservations, fun hopen => ?_, hnone⟩
    obtain ⟨-, r', hr', -, hcount, hregressions, hclosed, hstatus⟩ :=
      regression_of_resolved hingest hopen.1 hbetween hopen.2
    obtain rfl : r = r' := Option.some.inj (hr.symm.trans hr')
    refine ⟨hcount, hregressions, hclosed, hstatus, fun later => ?_⟩
    refine regressionCount_run ⟨r, hr, ?_, hcount⟩ fun call hcall => ?_
    · rw [hstatus]
      exact ruledStatus_ne_resolved
    · obtain ⟨now, -, rfl⟩ := List.mem_map.mp hcall
      exact ⟨rfl, hopen.1⟩
  · obtain ⟨w, hw, hmost⟩ := mostSevere_from hv hcalls
    exact ⟨w, hw, hmost.2 v List.mem_cons_self⟩

end Runs

/-! ### A report of a mitigated finding -/

section Mitigated

attribute [local instance] asciiUnicode firstNewestFinding unaryDigest

/-- Settings without linking and without the ledger. -/
def plainSettings : IngestSettings := ⟨⟨false, []⟩, false, false⟩

/-- A report of a finding with a status. -/
def statusReport (status : String) : IngestArguments where
  payload := { VatFindingSchema.blank (str "CVE-2024-1") .high with status := some (str status) }
  resultState := none
  sourceName := str "grype"
  tenantId := none
  aikidoSourceId := none
  parserId := none
  scanSessionId := none
  scannerVersion := none
  rawEvidenceRef := none
  forceTagOverride := false
  clusterId := none
  keysOnce _ h := by cases h
  aikidoOnly h := absurd rfl h

/-- The tables without rows. -/
def IngestDb.empty : IngestDb := ⟨.empty, .empty, ⟨.empty, .empty⟩, .empty⟩

theorem Finding.keepsKeys_withStatus (status : Status) :
    KeepsKeys fun f : Finding => f.withStatus status := fun _ => ⟨rfl, rfl⟩

/-- Somebody resolves all findings. -/
def IngestDb.resolveAll (s : IngestDb) : IngestDb :=
  s.withFindings (s.db.findings.mapRows (fun f => f.withStatus .resolved)
    (Finding.keepsKeys_withStatus .resolved))

theorem IngestDb.triagedSince_resolveAll {s : IngestDb} {f : Finding} (h : s.db.findings.get? f.id = some f) :
    s.TriagedSince s.resolveAll f (f.withStatus .resolved) := by
  refine ⟨?_, rfl, ?_, rfl, rfl, rfl, rfl⟩
  · refine (Table.get?_mapRows s.db.findings (fun f => f.withStatus .resolved)
      (Finding.keepsKeys_withStatus .resolved) f.id).trans ?_
    rw [h]
    rfl
  · refine Table.ext ?_
    rw [Table.rows_mapRows, Table.rows_mapRows]
    exact List.map_map

/-- A finding that is reported as mitigated and resolved in between stays resolved. -/
theorem not_reopened :
    ¬ ∀ (now now' : Instant) (args : IngestArguments) (s first between second : IngestDb)
      (created created' : Bool) (f g r : Finding),
      s.ingestFinding plainSettings now args = some (first, created) →
      first.finding (args.fingerprint plainSettings) = some f → first.TriagedSince between f g →
      g.status = .resolved → between.ingestFinding plainSettings now' args = some (second, created') →
      second.finding (args.fingerprint plainSettings) = some r →
      r.status = .reopened ∧ r.regressionCount = g.regressionCount + 1 := by
  intro h
  let first := IngestDb.empty.turn plainSettings (1, statusReport "Mitigated")
  let second := first.resolveAll.turn plainSettings (2, statusReport "Mitigated")
  let fp := (statusReport "Mitigated").fingerprint plainSettings
  obtain ⟨f, hf⟩ : ∃ f, first.finding fp = some f :=
    Option.isSome_iff_exists.mp (by decide +kernel)
  obtain ⟨r, hr⟩ : ∃ r, second.finding fp = some r :=
    Option.isSome_iff_exists.mp (by decide +kernel)
  have hreopened := h 1 2 (statusReport "Mitigated") .empty first first.resolveAll second true false f
    (f.withStatus .resolved) r (IngestDb.ingestFinding_eq_turn (by decide +kernel)) hf
    (IngestDb.triagedSince_resolveAll (Table.get?_pk_of_mem (Table.mem_of_getBy? hf))) rfl
    (IngestDb.ingestFinding_eq_turn (by decide +kernel)) hr
  have hstatus : (second.finding fp).map Finding.status = some .resolved := by decide +kernel
  rw [hr] at hstatus
  cases (Option.some.inj hstatus).symm.trans hreopened.1

/-- The same report of an open finding. -/
theorem reingest_open :
    let first := IngestDb.empty.turn plainSettings (1, statusReport "Open")
    let fp := (statusReport "Open").fingerprint plainSettings
    (∃ second, first.ingestFinding plainSettings 2 (statusReport "Open") = some (second, false) ∧
      second.lasting = first.lasting) ∧
    ∃ (second : IngestDb) (r : Finding),
      first.resolveAll.ingestFinding plainSettings 2 (statusReport "Open") = some (second, false) ∧
      second.finding fp = some r ∧ r.regressionCount = 1 := by
  intro first fp
  obtain ⟨hagain, hbetween, -⟩ := IngestDb.reingest plainSettings
  have hfirst : IngestDb.empty.ingestFinding plainSettings 1 (statusReport "Open") =
      some (first, true) := IngestDb.ingestFinding_eq_turn (by decide +kernel)
  constructor
  · obtain ⟨second, hsecond, -, hlasting⟩ := hagain 1 2 (statusReport "Open") .empty first true hfirst
    refine ⟨second, hsecond, hlasting ⟨fun _ _ _ _ hledger => ?_, fun f hf => ?_, fun f hf => ?_⟩⟩
    · cases hledger
    · cases hf
    · have hnone : (statusReport "Open").existing plainSettings IngestDb.empty.db.findings = none := by
        rw [← Option.isNone_iff_eq_none]
        decide +kernel
      rw [hnone] at hf
      cases hf
  · obtain ⟨f, hf⟩ : ∃ f, first.finding fp = some f :=
      Option.isSome_iff_exists.mp (by decide +kernel)
    obtain ⟨second, r, hsecond, hr, -, -, -, -, hreopened, -⟩ := hbetween 1 2 (statusReport "Open")
      .empty first first.resolveAll true f (f.withStatus .resolved) hfirst hf
      (IngestDb.triagedSince_resolveAll (Table.get?_pk_of_mem (Table.mem_of_getBy? hf)))
    have hcount : (first.finding fp).map Finding.regressionCount = some 0 := by decide +kernel
    rw [hf] at hcount
    refine ⟨second, r, hsecond, hr, (hreopened ⟨by decide, rfl⟩).1.trans ?_⟩
    change f.regressionCount + 1 = 1
    rw [Option.some.inj hcount]

end Mitigated

end Vat
