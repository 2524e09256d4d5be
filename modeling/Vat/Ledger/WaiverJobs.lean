import Vat.Ledger.ExpiryEffects
import Vat.Python.Calendar

/-!
# Waiver expiry and reconcile in either order

Expiry leaves no risk-accepted finding or decision with an expired date, and a reconcile does not
bring one back: it writes only the attestations of stored decisions. A reconcile writes an
unexpired waiver onto every finding it scans, except where the finding already shows the decision.

## Main definitions

* `LedgerDb`: a database with complete histories and without audit stamps from the future.
* `HoldsIsoDateBefore`: an attestation with an ISO date before a day.

## Main results

* `attestationExpired_iff`: the expiry test on ISO dates.
* `resolveEach_finding`: what a reconcile leaves of a finding under an accepted risk.
* `waiver_jobs`: both orders of the two jobs.
-/

namespace Vat

open Relational Transition

/-! ### Dates -/

/-- The expiry value of an attestation. -/
def expiresAtOf (att : Option JsonObject) : JsonValue := JsonObject.get (att.getD []) (str "expiresAt")

/-- The attestation holds an ISO date, or an ISO time, before the day. -/
def HoldsIsoDateBefore (today : Date) (att : Option JsonObject) : Prop :=
  ∃ (date : Date) (time : Str), expiresAtOf att = .text (date.isoformat ++ time) ∧ date < today

theorem expDateStr_text {s : Str} (hs : s ≠ []) (hlong : 10 ≤ (Str.strip s).length) :
    expDateStr (.text s) = some ((Str.strip s).take 10) := by
  simp [expDateStr, JsonValue.truthy, JsonValue.pyStr, hs, hlong]

/-- The expiry test compares dates. -/
theorem attestationExpired_iff {att : Option JsonObject} {date today : Date} {time : Str}
    (hatt : expiresAtOf att = .text (date.isoformat ++ time)) :
    attestationExpired att today.isoformat = true ↔ date < today := by
  have hlength : date.isoformat.length = 10 := date.length_isoformat
  have hne : date.isoformat ≠ [] := List.ne_nil_of_length_pos (by omega)
  have hstrip := Str.strip_append date.isSpace_isoformat hne time
  have hdate : expDateStr (.text (date.isoformat ++ time)) = some date.isoformat := by
    have hlong : 10 ≤ (Str.strip (date.isoformat ++ time)).length := by
      rw [hstrip, List.length_append]
      omega
    rw [expDateStr_text (List.append_ne_nil_of_left_ne_nil hne time) hlong, hstrip,
      List.take_append_of_le_length (by omega), List.take_of_length_le (by omega)]
  rw [attestationExpired, ← expiresAtOf, hatt, isWaiverExpired, hdate, ← Date.isoformat_lt_iff]
  simp [hne]

/-! ### No expired risk -/

/-- No risk-accepted finding holds an expired attestation. -/
def FindingsUnexpired (today : Str) (db : Db) : Prop :=
  ∀ f ∈ db.findings.rows, f.status = .riskAccepted → attestationExpired f.attestation today = false

/-- The scan of the findings leaves none. -/
theorem findingsUnexpired_onFindings (now : Instant) (today : Str) (db : Db) :
    FindingsUnexpired today (enforceWaiverExpiryOnFindings now today db).1 := by
  intro f' hf' hstatus
  obtain ⟨f, -, rfl⟩ := List.mem_map.mp hf'
  by_cases hown : f.ownWaiverExpired today = true
  · rw [if_pos hown] at hstatus
    cases hstatus
  · rw [if_neg hown] at hstatus ⊢
    rw [ownWaiverExpired_iff, not_and] at hown
    simpa using hown hstatus

section Jobs

variable [Unicode]

/-- A resolve writes only attestations of stored decisions. -/
theorem FindingsUnexpired.resolve {cfg : Settings} {now : Instant} {today : Str} {db : Db}
    (hf : FindingsUnexpired today db) (hd : DecisionsUnexpired today db) (findingId : Str)
    (parserId : Option Str) :
    FindingsUnexpired today (resolveAndApplyDecision cfg now db findingId parserId).1 ∧
      DecisionsUnexpired today (resolveAndApplyDecision cfg now db findingId parserId).1 := by
  rcases resolveAndApplyDecision_cases cfg now db findingId parserId with
    ⟨heq, -⟩ | ⟨f, d, matched, -, hget, hg, heq⟩
  · rw [heq]
    exact ⟨hf, hd⟩
  · rw [heq]
    constructor
    · intro f' hf' hstatus
      by_cases happly : relinkAction db f d = .apply
      · simp only [relinkDecision, happly, ↓reduceIte] at hf'
        rcases Table.mem_update.mp hf' with ⟨hrow, -⟩ | ⟨g, -, -, rfl⟩
        · exact hf f' hrow hstatus
        · exact hd d (governingDecision_mem hg) hstatus
      · simp only [relinkDecision, happly, ↓reduceIte] at hf'
        exact hf f' hf' hstatus
    · intro d' hd' hstatus
      change d' ∈ (db.decisions.update d.id (TriageDecision.touch now f.id)
        (TriageDecision.keepsKeys_touch now f.id)).rows at hd'
      rcases Table.mem_update.mp hd' with ⟨hrow, -⟩ | ⟨e, he, -, rfl⟩
      · exact hd d' hrow hstatus
      · exact hd e he hstatus

theorem FindingsUnexpired.resolveEach {cfg : Settings} {now : Instant} {today : Str} {db : Db}
    (hf : FindingsUnexpired today db) (hd : DecisionsUnexpired today db) (ids : List Str) :
    FindingsUnexpired today (resolveEach cfg now db ids).1 := by
  induction ids generalizing db with
  | nil => exact hf
  | cons findingId ids ih =>
    obtain ⟨hf', hd'⟩ := @FindingsUnexpired.resolve _ cfg now today db hf hd findingId none
    exact ih hf' hd'

/-! ### What a reconcile leaves of one finding -/

variable {cfg : Settings} {now : Instant} {today : Str}

/-- The finding keeps an accepted risk of its own: it already shows the decision, with another
attestation. -/
def KeepsOwnWaiver (f : Finding) (d : TriageDecision) (linkApplied : Option ℕ) : Prop :=
  ShowsDecision f d linkApplied ∧ f.attestation ≠ d.attestation

/-- What a reconcile leaves of the finding `f` that the accepted risk `d` governs. -/
structure WaiverProjected (db db' : Db) (f : Finding) (d : TriageDecision) (f' : Finding) :
    Prop where
  row : db'.findings.get? f.id = some f'
  status : f'.status = .riskAccepted
  attestation : f'.attestation = d.attestation ↔ ¬ KeepsOwnWaiver f d (linkApplied db d.id f.id)
  active : ∀ decisionId, decisionId ≠ d.id →
    (LinkActive db' decisionId f.id ↔ LinkActive db decisionId f.id)

theorem linkActive_relink {db : Db} {f : Finding} {d : TriageDecision}
    {matched : DecisionSubjectCandidate} {decisionId findingId : Str}
    (hne : (decisionId, findingId) ≠ (d.id, f.id)) :
    LinkActive (relinkDecision now db f d matched) decisionId findingId ↔
      LinkActive db decisionId findingId := by
  have hlink := get?_upsertDecisionLink_ne now db.links d matched
    (if relinkAction db f d = .apply then d.decisionVersion else (linkApplied db d.id f.id).getD 0)
    hne
  unfold LinkActive
  rw [show (relinkDecision now db f d matched).links.get? (decisionId, findingId) =
    db.links.get? (decisionId, findingId) from hlink]

/-- A resolve of another finding leaves the row and its links. -/
theorem resolve_ne {db : Db} {findingId other : Str} (hne : findingId ≠ other) :
    let db' := (resolveAndApplyDecision cfg now db other none).1
    db'.findings.get? findingId = db.findings.get? findingId ∧
      ∀ decisionId, LinkActive db' decisionId findingId ↔ LinkActive db decisionId findingId := by
  intro db'
  rcases resolveAndApplyDecision_cases cfg now db other none with
    ⟨heq, -⟩ | ⟨f, d, matched, -, hget, -, heq⟩
  · rw [show db' = db from congrArg Prod.fst heq]
    exact ⟨rfl, fun _ => Iff.rfl⟩
  · obtain rfl : f.id = other := Table.pk_of_get? hget
    rw [show db' = relinkDecision now db f d matched from congrArg Prod.fst heq]
    exact ⟨findings_relink_ne hne, fun _ => linkActive_relink fun h => hne (Prod.mk.inj h).2⟩

theorem resolveEach_ne {db : Db} {findingId : Str} {ids : List Str} (hid : findingId ∉ ids) :
    let db' := (resolveEach cfg now db ids).1
    db'.findings.get? findingId = db.findings.get? findingId ∧
      ∀ decisionId, LinkActive db' decisionId findingId ↔ LinkActive db decisionId findingId := by
  induction ids generalizing db with
  | nil => exact ⟨rfl, fun _ => Iff.rfl⟩
  | cons other ids ih =>
    rw [List.mem_cons, not_or] at hid
    obtain ⟨hrow, hactive⟩ := @resolve_ne _ cfg now db _ _ hid.1
    obtain ⟨hrow', hactive'⟩ := @ih (resolveAndApplyDecision cfg now db other none).1 hid.2
    exact ⟨hrow'.trans hrow, fun e => (hactive' e).trans (hactive e)⟩

/-- A decision with the bookkeeping of some resolves at `now`. -/
structure Rewritten (now : Instant) (d d' : TriageDecision) : Prop where
  id : d'.id = d.id
  status : d'.status = d.status
  attestation : d'.attestation = d.attestation
  version : d'.decisionVersion = d.decisionVersion
  stamp : d'.updatedAt = now ∨ d'.updatedAt = d.updatedAt

/-- A finding is governed by the same decision after a resolve of another finding. -/
theorem governing_resolve_ne {db : Db} {f : Finding} {other : Str} (hne : f.id ≠ other)
    (hf : db.findings.get? f.id = some f) {d : TriageDecision} {matched : DecisionSubjectCandidate}
    (hg : governingDecision cfg db f none = some (d, matched)) :
    let db' := (resolveAndApplyDecision cfg now db other none).1
    ∃ d', governingDecision cfg db' f none = some (d', matched) ∧ Rewritten now d d' ∧
      linkApplied db' d.id f.id = linkApplied db d.id f.id := by
  intro db'
  rcases resolveAndApplyDecision_cases cfg now db other none with
    ⟨heq, -⟩ | ⟨g, e, m, -, hget, -, heq⟩
  · rw [show db' = db from congrArg Prod.fst heq]
    exact ⟨d, hg, ⟨rfl, rfl, rfl, rfl, Or.inr rfl⟩, rfl⟩
  · obtain rfl : g.id = other := Table.pk_of_get? hget
    rw [show db' = relinkDecision now db g e m from congrArg Prod.fst heq]
    refine ⟨_, (governing_relink_ne hne |>.mpr ⟨hf, d, hg, rfl⟩).2, ?_, linkApplied_relink_ne hne⟩
    split_ifs
    · exact ⟨rfl, rfl, rfl, rfl, Or.inl rfl⟩
    · exact ⟨rfl, rfl, rfl, rfl, Or.inr rfl⟩

/-- Bookkeeping does not make an edit newer. -/
theorem Rewritten.not_newer {d d' : TriageDecision} (h : Rewritten now d d') {f : Finding}
    (hpast : ∀ ts, latestHumanEdit f.audit = some ts → ts ≤ now)
    (hedit : findingHasNewerHumanEdit f d = false) : findingHasNewerHumanEdit f d' = false := by
  unfold findingHasNewerHumanEdit at hedit ⊢
  cases hlatest : latestHumanEdit f.audit with
  | none => rfl
  | some ts =>
    rw [hlatest] at hedit
    rcases h.stamp with hstamp | hstamp <;> rw [hstamp]
    · exact decide_eq_false (not_lt.mpr (hpast ts hlatest))
    · exact hedit

omit [Unicode] in
theorem Rewritten.keepsOwnWaiver_iff {d d' : TriageDecision} (h : Rewritten now d d') (f : Finding)
    (link : Option ℕ) : KeepsOwnWaiver f d' link ↔ KeepsOwnWaiver f d link := by
  rw [KeepsOwnWaiver, KeepsOwnWaiver, ShowsDecision, ShowsDecision, h.status, h.version,
    h.attestation]

/-- A resolve writes an accepted risk onto its finding, unless the finding shows it already. -/
theorem waiverProjected_relink {db : Db} {f : Finding} {d : TriageDecision}
    {matched : DecisionSubjectCandidate} (hf : db.findings.get? f.id = some f)
    (hstatus : d.status = .riskAccepted) (hedit : findingHasNewerHumanEdit f d = false) :
    WaiverProjected db (relinkDecision now db f d matched) f d (relinkedFinding now db f d) := by
  have hterm : d.status ∈ terminalDecisionStatuses := by
    rw [hstatus]
    decide
  have happly := decisionApplyAction_eq_apply_iff f d (linkApplied db d.id f.id)
  rw [and_iff_right hterm, hedit, and_iff_left rfl] at happly
  have hactive : ∀ decisionId, decisionId ≠ d.id →
      (LinkActive (relinkDecision now db f d matched) decisionId f.id ↔
        LinkActive db decisionId f.id) :=
    fun decisionId hne => linkActive_relink fun h => hne (Prod.mk.inj h).1
  by_cases ha : relinkAction db f d = .apply
  · have hrow : relinkedFinding now db f d = applyDecisionProjection now f d := if_pos ha
    refine ⟨findings_relink_self hf, by rw [hrow]; exact hstatus, ?_, hactive⟩
    rw [hrow]
    refine iff_of_true rfl fun hown => ?_
    -- A finding that shows an accepted risk is not undecided.
    rcases happly.mp ha with hpre | hshow
    · rw [hown.1.1, hstatus] at hpre
      exact absurd hpre (by decide)
    · exact hshow hown.1
  · have hrow : relinkedFinding now db f d = f := if_neg ha
    have hshow : ShowsDecision f d (linkApplied db d.id f.id) := by
      by_contra hnot
      exact ha (happly.mpr (Or.inr hnot))
    refine ⟨findings_relink_self hf, by rw [hrow, hshow.1, hstatus], ?_, hactive⟩
    rw [hrow, KeepsOwnWaiver]
    tauto

/-- A reconcile writes an accepted risk onto every finding it scans, unless the finding shows it
already. -/
theorem resolveEach_finding (henabled : cfg.decisionLedgerEnabled = true) {ids : List Str} {db : Db}
    {f : Finding} {d : TriageDecision} {matched : DecisionSubjectCandidate} (hnodup : ids.Nodup)
    (hmem : f.id ∈ ids) (hpresent : Present now db.findings) (hf : db.findings.get? f.id = some f)
    (hg : governingDecision cfg db f none = some (d, matched)) (hstatus : d.status = .riskAccepted)
    (hedit : findingHasNewerHumanEdit f d = false) :
    ∃ f', WaiverProjected db (resolveEach cfg now db ids).1 f d f' := by
  induction ids generalizing db d with
  | nil => exact absurd hmem List.not_mem_nil
  | cons other ids ih =>
    rw [List.nodup_cons] at hnodup
    by_cases hid : f.id = other
    · subst hid
      have hrun := @resolveAndApplyDecision_of_governing _ cfg now db f.id none f d matched henabled hf hg
      have hproj := @waiverProjected_relink _ now db f d matched hf hstatus hedit
      obtain ⟨hrow, hactive⟩ := @resolveEach_ne _ cfg now
        (resolveAndApplyDecision cfg now db f.id none).1 f.id ids hnodup.1
      rw [hrun] at hrow hactive
      refine ⟨_, ⟨?_, hproj.status, hproj.attestation, fun e he => ?_⟩⟩
      · rw [resolveEach, hrun]
        exact hrow.trans hproj.row
      · rw [resolveEach, hrun]
        exact (hactive e).trans (hproj.active e he)
    · obtain ⟨hrow, hactive⟩ := @resolve_ne _ cfg now db f.id other hid
      obtain ⟨d', hg', hsame, hlink⟩ := @governing_resolve_ne _ cfg now db f other hid hf d matched hg
      have hpast := hpresent f (Table.mem_of_get? hf)
      obtain ⟨f', hproj⟩ := ih hnodup.2 ((List.mem_cons.mp hmem).resolve_left hid)
        (hpresent.of_sameEdits (sameEdits_resolve cfg now db other none)) (hrow.trans hf) hg'
        (hsame.status.trans hstatus) (hsame.not_newer hpast hedit)
      refine ⟨f', hproj.row, hproj.status, ?_, fun e he => ?_⟩
      · rw [← hsame.attestation, hproj.attestation, hsame.keepsOwnWaiver_iff, hsame.id, hlink]
      · exact (hproj.active e (hsame.id ▸ he)).trans (hactive e)

/-! ### Both jobs -/

/-- A database in which every decision has its complete history, and no audit entry of a person is
stamped after the present. -/
structure LedgerDb (t : Instant) extends PresentDb t, CompleteDb

/-- An accepted risk that governs a finding a reconcile scans: it is unexpired, and the finding was
not edited after it. -/
structure Waived (cfg : Settings) (db : Db) (today : Str) (scanned : List Str) (f : Finding)
    (d : TriageDecision) : Prop where
  enabled : cfg.decisionLedgerEnabled = true
  row : f ∈ db.findings.rows
  scanned : f.id ∈ scanned
  governs : ∃ matched, governingDecision cfg db f none = some (d, matched)
  status : d.status = .riskAccepted
  unexpired : attestationExpired d.attestation today = false
  notNewer : findingHasNewerHumanEdit f d = false

omit [Unicode] in
/-- The row of the finding holds the accepted risk, with the attestation of the decision. -/
def HoldsWaiver (db : Db) (findingId : Str) (d : TriageDecision) : Prop :=
  ∃ f, db.findings.get? findingId = some f ∧ f.status = .riskAccepted ∧
    f.attestation = d.attestation

omit [Unicode] in
theorem HoldsWaiver.iff_of_row {db : Db} {findingId : Str} {f : Finding}
    (hf : db.findings.get? findingId = some f) (d : TriageDecision) :
    HoldsWaiver db findingId d ↔ f.status = .riskAccepted ∧ f.attestation = d.attestation := by
  constructor
  · rintro ⟨g, hg, hholds⟩
    obtain rfl := Option.some.inj (hf.symm.trans hg)
    exact hholds
  · exact fun h => ⟨f, hf, h⟩

omit [Unicode] in
/-- A finding under an expired date is not risk-accepted. -/
theorem FindingsUnexpired.not_holdsIsoDateBefore {today : Date} {db : Db}
    (h : FindingsUnexpired today.isoformat db) : ∀ f ∈ db.findings.rows,
      f.status = .riskAccepted → ¬ HoldsIsoDateBefore today f.attestation := by
  rintro f hf hstatus ⟨date, time, hatt, hlt⟩
  have hexpired := (attestationExpired_iff hatt).mpr hlt
  rw [h f hf hstatus] at hexpired
  cases hexpired

variable [UuidSource]

/-- The database that a run of the ledger leaves. -/
def LedgerDb.ofRun (cfg : Settings) (start : UneditedDb) (clock : Instant) (ops : List TimedOp) :
    LedgerDb (run (World.step cfg) (World.start start.db clock) ops).clock where
  db := (run (World.step cfg) (World.start start.db clock) ops).db
  present := (traced_run cfg start clock ops).present
  complete := revisionHistoryComplete_run cfg start.db clock ops

/-- Waiver expiry, then reconcile. -/
def expiryThenReconcile (cfg : Settings) (t t' : Instant) (today : Str) (tenantId : Option Str)
    (crossTenant : Bool) (limit : ℕ) (db : Db) : Option Db := do
  let (db, _) ← enforceWaiverExpiry cfg t today db
  pure (reconcileDecisionLinks cfg t' db tenantId crossTenant limit).1

/-- Reconcile, then waiver expiry. -/
def reconcileThenExpiry (cfg : Settings) (t t' : Instant) (today : Str) (tenantId : Option Str)
    (crossTenant : Bool) (limit : ℕ) (db : Db) : Option Db := do
  let (db, _) ← enforceWaiverExpiry cfg t' today
    (reconcileDecisionLinks cfg t db tenantId crossTenant limit).1
  pure db

omit [UuidSource] in
theorem reconcile_of_enabled (henabled : cfg.decisionLedgerEnabled = true) (now : Instant) (db : Db)
    (tenantId : Option Str) (crossTenant : Bool) (limit : ℕ) :
    (reconcileDecisionLinks cfg now db tenantId crossTenant limit).1 =
      (resolveEach cfg now db (scannedIds db tenantId crossTenant limit)).1 := by
  simp [reconcileDecisionLinks, henabled]

omit [UuidSource] in
theorem reconcile_of_disabled (henabled : cfg.decisionLedgerEnabled = false) (now : Instant)
    (db : Db) (tenantId : Option Str) (crossTenant : Bool) (limit : ℕ) :
    (reconcileDecisionLinks cfg now db tenantId crossTenant limit).1 = db := by
  simp [reconcileDecisionLinks, henabled]

/-- A reconcile after the job brings no expired waiver back. -/
theorem findingsUnexpired_expiryThenReconcile {t t' : Instant} {db db₁ : Db} {n : ℕ}
    (h : enforceWaiverExpiry cfg t today db = some (db₁, n)) (tenantId : Option Str)
    (crossTenant : Bool) (limit : ℕ) :
    FindingsUnexpired today (reconcileDecisionLinks cfg t' db₁ tenantId crossTenant limit).1 := by
  have hfindings : FindingsUnexpired today db₁ := by
    obtain ⟨db₂, -, -, rfl⟩ := enforceWaiverExpiry_cases h
    exact findingsUnexpired_onFindings t today db₂
  cases henabled : cfg.decisionLedgerEnabled with
  | false => rwa [reconcile_of_disabled henabled]
  | true =>
    rw [reconcile_of_enabled henabled]
    exact hfindings.resolveEach (enforceWaiverExpiry_decisions henabled h) _

/-- Expiry first: the accepted risk is written unless the finding keeps its own, and neither that
one nor an older one linked to it has expired. -/
theorem holdsWaiver_expiryThenReconcile {t t' s : Instant} {db db₁ : Db} {n : ℕ}
    (hpresent : Present s db.findings) (hs : s ≤ t')
    (h : enforceWaiverExpiry cfg t today db = some (db₁, n)) {tenantId : Option Str}
    {crossTenant : Bool} {limit : ℕ} {f : Finding} {d : TriageDecision}
    (hw : Waived cfg db today (scannedIds db tenantId crossTenant limit) f d) :
    HoldsWaiver (reconcileDecisionLinks cfg t' db₁ tenantId crossTenant limit).1 f.id d ↔
      (KeepsOwnWaiver f d (linkApplied db d.id f.id) →
        OldWaiverLinked db today f.id ∨ attestationExpired f.attestation today = true) := by
  obtain ⟨matched, hg⟩ := hw.governs
  obtain ⟨f₁, hf₁, hsubject, hatt, hedits, hstatus⟩ :=
    @enforceWaiverExpiry_finding _ _ t cfg today db db₁ n h f.id f (Table.get?_pk_of_mem hw.row)
  have hid : f₁.id = f.id := hsubject.id.symm
  obtain ⟨hg₁, hlink⟩ := enforceWaiverExpiry_governing h hsubject hg hw.unexpired f.id
  have hsame := sameEdits_enforceWaiverExpiry h
  have hpresent₁ : Present t' db₁.findings := fun g hg ts hts =>
    (hpresent.of_sameEdits hsame g hg ts hts).trans hs
  have hedit₁ : findingHasNewerHumanEdit f₁ d = false := by
    rw [findingHasNewerHumanEdit, hedits]
    exact hw.notNewer
  obtain ⟨f', hproj⟩ := resolveEach_finding hw.enabled
    (scannedIds_nodup db tenantId crossTenant limit) (hid ▸ hw.scanned) hpresent₁
    (hid.symm ▸ hf₁) hg₁ hw.status hedit₁
  have hrow := hproj.row
  rw [hid] at hrow
  rw [reconcile_of_enabled hw.enabled, hsame.scannedIds, HoldsWaiver.iff_of_row hrow,
    and_iff_right hproj.status, hproj.attestation, hid, hlink, KeepsOwnWaiver, KeepsOwnWaiver,
    ShowsDecision, ShowsDecision, hatt, hw.status, hstatus, forall_prop_of_true hw.enabled,
    ← Bool.not_eq_true]
  tauto

omit [Unicode] [UuidSource] in
/-- The same waivers have expired after calls that write no content. -/
theorem SameContent.mem_expiredWaivers {db db' : Db} (h : SameContent db db') {d' : TriageDecision}
    (hd' : d' ∈ expiredWaivers db' today) : ∃ d ∈ expiredWaivers db today, d.id = d'.id := by
  obtain ⟨hrow, hp⟩ := List.mem_filter.mp hd'
  obtain ⟨d, hd, hcontent⟩ := h.mem hrow
  obtain ⟨hid, hsnap⟩ := Prod.mk.inj hcontent
  have hstatus : d.status = d'.status := congrArg DecisionSnapshot.status hsnap
  have hatt : d.attestation = d'.attestation := congrArg DecisionSnapshot.attestation hsnap
  refine ⟨d, List.mem_filter.mpr ⟨hd, ?_⟩, hid⟩
  rwa [hstatus, hatt]

omit [Unicode] [UuidSource] in
/-- A finding under an unexpired decision is linked to the same expired ones after a reconcile. -/
theorem oldWaiverLinked_iff {db db' : Db} (hsame : SameContent db db') {f f' : Finding}
    {d : TriageDecision} (hproj : WaiverProjected db db' f d f') (hd : d ∈ db.decisions.rows)
    (hunexpired : attestationExpired d.attestation today = false) :
    OldWaiverLinked db' today f.id ↔ OldWaiverLinked db today f.id := by
  have hother : ∀ e ∈ expiredWaivers db today, e.id ≠ d.id := by
    intro e he heq
    obtain ⟨hrow, hp⟩ := List.mem_filter.mp he
    obtain rfl := Table.eq_of_pk hrow hd heq
    rw [(of_decide_eq_true hp).2.2] at hunexpired
    cases hunexpired
  constructor
  · rintro ⟨e', he', hactive⟩
    obtain ⟨e, he, hid⟩ := hsame.mem_expiredWaivers he'
    rw [← hid] at hactive
    exact ⟨e, he, (hproj.active e.id (hother e he)).mp hactive⟩
  · rintro ⟨e, he, hactive⟩
    obtain ⟨e', he', hid⟩ := hsame.symm.mem_expiredWaivers he
    exact ⟨e', he', hid.symm ▸ (hproj.active e.id (hother e he)).mpr hactive⟩

/-- Reconcile first: the accepted risk is written unless the finding keeps its own, and stays unless
an expired waiver is linked to the finding. -/
theorem holdsWaiver_reconcileThenExpiry {t t' s : Instant} {db db' : Db} {n : ℕ}
    {tenantId : Option Str} {crossTenant : Bool} {limit : ℕ} (hpresent : Present s db.findings)
    (hs : s ≤ t)
    (h : enforceWaiverExpiry cfg t' today
      (reconcileDecisionLinks cfg t db tenantId crossTenant limit).1 = some (db', n))
    {f : Finding} {d : TriageDecision}
    (hw : Waived cfg db today (scannedIds db tenantId crossTenant limit) f d) :
    HoldsWaiver db' f.id d ↔
      ¬ KeepsOwnWaiver f d (linkApplied db d.id f.id) ∧ ¬ OldWaiverLinked db today f.id := by
  obtain ⟨matched, hg⟩ := hw.governs
  have hpresent' : Present t db.findings := fun g hg ts hts => (hpresent g hg ts hts).trans hs
  rw [reconcile_of_enabled hw.enabled] at h
  obtain ⟨f₁, hproj⟩ := resolveEach_finding hw.enabled
    (scannedIds_nodup db tenantId crossTenant limit) hw.scanned hpresent'
    (Table.get?_pk_of_mem hw.row) hg hw.status hw.notNewer
  have hold := oldWaiverLinked_iff (sameContent_resolveEach cfg t db _) hproj
    (governingDecision_mem hg) hw.unexpired
  obtain ⟨f', hf', -, hatt, -, hstatus⟩ := enforceWaiverExpiry_finding h hproj.row
  rw [HoldsWaiver.iff_of_row hf', hatt, hstatus, hproj.attestation, and_iff_right hproj.status,
    forall_prop_of_true hw.enabled, ← hold]
  constructor
  · exact fun h => ⟨h.2, h.1.1⟩
  · rintro ⟨hown, hlinked⟩
    rw [hproj.attestation.mpr hown]
    exact ⟨⟨hlinked, hw.unexpired⟩, hown⟩

/-- In either order the two jobs succeed and leave no risk-accepted finding with an ISO date before
the day. An unexpired accepted risk ends on every finding it governs: when expiry comes first,
unless the finding showed an accepted risk of its own and none of its waivers has expired; when
reconcile comes first, unless the finding showed one of its own or an expired waiver is linked to
it. -/
theorem waiver_jobs (cfg : Settings) (t a b : Instant) (start : LedgerDb t) (today : Date)
    (tenantId : Option Str) (crossTenant : Bool) (limit : ℕ) :
    let scanned := scannedIds start.db tenantId crossTenant limit
    (∃ db, expiryThenReconcile cfg (t + a) (t + b) today.isoformat tenantId crossTenant limit
        start.db = some db ∧
      (∀ f ∈ db.findings.rows, f.status = .riskAccepted →
        ¬ HoldsIsoDateBefore today f.attestation) ∧
      ∀ f d, Waived cfg start.db today.isoformat scanned f d → (HoldsWaiver db f.id d ↔
        (KeepsOwnWaiver f d (linkApplied start.db d.id f.id) →
          OldWaiverLinked start.db today.isoformat f.id ∨
            attestationExpired f.attestation today.isoformat = true))) ∧
    ∃ db, reconcileThenExpiry cfg (t + a) (t + b) today.isoformat tenantId crossTenant limit
        start.db = some db ∧
      (∀ f ∈ db.findings.rows, f.status = .riskAccepted →
        ¬ HoldsIsoDateBefore today f.attestation) ∧
      ∀ f d, Waived cfg start.db today.isoformat scanned f d → (HoldsWaiver db f.id d ↔
        ¬ KeepsOwnWaiver f d (linkApplied start.db d.id f.id) ∧
          ¬ OldWaiverLinked start.db today.isoformat f.id) := by
  intro scanned
  constructor
  · obtain ⟨⟨db₁, n⟩, h⟩ := @enforceWaiverExpiry_succeeds _ (t + a) cfg today.isoformat start.db
      start.complete
    have hunexpired := @findingsUnexpired_expiryThenReconcile _ cfg today.isoformat _ (t + a) (t + b)
      _ _ _ h tenantId crossTenant limit
    exact ⟨_, Option.bind_eq_some_iff.mpr ⟨_, h, rfl⟩, hunexpired.not_holdsIsoDateBefore,
      fun f d hw => holdsWaiver_expiryThenReconcile start.present (Nat.le_add_right t b) h hw⟩
  · have hcomplete : RevisionHistoryComplete
        (reconcileDecisionLinks cfg (t + a) start.db tenantId crossTenant limit).1 := by
      cases henabled : cfg.decisionLedgerEnabled with
      | false => exact (reconcile_of_disabled henabled _ _ _ _ _).symm ▸ start.complete
      | true =>
        rw [reconcile_of_enabled henabled]
        exact start.complete.of_sameContent (sameContent_resolveEach cfg _ _ _)
    obtain ⟨⟨db₁, n⟩, h⟩ := @enforceWaiverExpiry_succeeds _ (t + b) cfg today.isoformat _ hcomplete
    have hunexpired : FindingsUnexpired today.isoformat db₁ := by
      obtain ⟨db₂, -, -, rfl⟩ := enforceWaiverExpiry_cases h
      exact findingsUnexpired_onFindings _ _ db₂
    exact ⟨db₁, Option.bind_eq_some_iff.mpr ⟨_, h, rfl⟩, hunexpired.not_holdsIsoDateBefore,
      fun f d hw => holdsWaiver_reconcileThenExpiry start.present (Nat.le_add_right t a) h hw⟩

end Jobs

/-! ### An accepted risk that does not reach its finding -/

section Kept

attribute [local instance] asciiUnicode longestIds

/-- An attestation that expires on a day. -/
def waiverUntil (day : String) : JsonObject := [(str "expiresAt", .text (str day))]

/-- The edit that accepts a risk until a day. -/
def acceptUntil (day : String) : FindingUpdate :=
  { FindingUpdate.none with
    status := some (some (str "Risk Accepted"))
    attestation := some (some (waiverUntil day)) }

/-- Two findings of one subject, the second under an accepted risk that is not in the ledger. -/
def ownWaiverFindings : Table Finding :=
  (Table.singleton openFinding).upsert
    { openFinding with
      id := str "f-2"
      fingerprintId := str "fp-2"
      status := .riskAccepted
      attestation := some (waiverUntil "2098-01-01") }
    (fun f => f)

/-- The risk of the first finding is accepted. -/
def ownWaiverRun : List TimedOp := [⟨1000000, .edit (str "f-1") (acceptUntil "2099-01-01") (str "alice")⟩]

/-- Two findings of one vendor issue. -/
def oneIssueFindings : Table Finding :=
  let first := { openFinding with
    externalLinks := [⟨str "aikido", str "source", str "I-1", none, 0⟩] }
  (Table.singleton first).upsert
    { first with id := str "f-2", fingerprintId := str "fp-2", cveId := str "CVE-2024-2" }
    (fun f => f)

/-- The risk of the first is accepted and reaches the second by the issue; then the risk of the
second is accepted for longer. -/
def oneIssueRun : List TimedOp :=
  [⟨1000000, .edit (str "f-1") (acceptUntil "2026-01-01") (str "alice")⟩,
    ⟨1000000, .ingest (str "f-2") .same none⟩,
    ⟨1000000, .edit (str "f-2") (acceptUntil "2099-01-01") (str "alice")⟩]

/-- The day on which the accepted risk that governs a finding expires, when it has not expired and
the finding was not edited after it. -/
def waivedUntil (db : Db) (findingId today : Str) : Option Str := do
  let f ← db.findings.get? findingId
  let (d, _) ← governingDecision ⟨true, []⟩ db f none
  if d.status = .riskAccepted ∧ attestationExpired d.attestation today = false ∧
      findingHasNewerHumanEdit f d = false then
    some ((d.attestation.getD []).textOf (str "expiresAt") [])
  else none

/-- Status and expiry day of the second finding after some jobs. -/
def secondFinding (db : Option Db) : Option (Status × Str) := do
  let db ← db
  let f ← db.findings.get? (str "f-2")
  pure (f.status, (f.attestation.getD []).textOf (str "expiresAt") [])

/-- The second finding keeps its own accepted risk in both orders; the finding that an expired
waiver is still linked to is open after the expiry that follows the reconcile. -/
theorem waiver_jobs_miss_findings :
    let today := str "2026-01-02"
    let own := (run (World.step ⟨true, []⟩) (World.start (Db.ofFindings ownWaiverFindings) 0)
      ownWaiverRun).db
    let issue := (run (World.step ⟨true, []⟩) (World.start (Db.ofFindings oneIssueFindings) 0)
      oneIssueRun).db
    waivedUntil own (str "f-2") today = some (str "2099-01-01") ∧
      secondFinding (expiryThenReconcile ⟨true, []⟩ 2000000 2000000 today none true 5000 own) =
        some (.riskAccepted, str "2098-01-01") ∧
      secondFinding (reconcileThenExpiry ⟨true, []⟩ 2000000 2000000 today none true 5000 own) =
        some (.riskAccepted, str "2098-01-01") ∧
      waivedUntil issue (str "f-2") today = some (str "2099-01-01") ∧
      secondFinding (reconcileThenExpiry ⟨true, []⟩ 9000000 9000000 today none true 5000 issue) =
        some (.open, str "2099-01-01") := by
  decide +kernel

end Kept

end Vat
