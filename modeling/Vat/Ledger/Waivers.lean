import Vat.Ledger.Record

/-!
# Waiver expiry and reconcile

The two nightly jobs. Waiver expiry first reopens the expired waivers of the ledger and the
findings linked to them, then the risk-accepted findings whose own attestation has expired.
Reconcile resolves every finding again.

`select` without `ORDER BY` returns rows in the order of the table.

Source: `backend/app/services/decision_ledger.py`, lines 127–136 and 1048–1192;
`backend/app/services/waiver_expiry.py`.

## Main definitions

* `isWaiverExpired`, `expireDecisionWaivers`, `enforceWaiverExpiryOnFindings`,
  `enforceWaiverExpiry`.
* `resolveEach`, `reconcileDecisionLinks`.
-/

namespace Vat

open Relational

/-! ### The expiry test -/

/-- The date part of an `expiresAt` value. -/
def expDateStr (expiresAt : JsonValue) : Option Str :=
  if !expiresAt.truthy then none
  else
    let text := Str.strip expiresAt.pyStr
    if 10 ≤ text.length then some (text.take 10) else Str.orNone text

/-- Whether the date part comes before today's date. -/
def isWaiverExpired (expiresAt : JsonValue) (today : Str) : Bool :=
  match expDateStr expiresAt with
  | none => false
  | some expDate => decide (expDate ≠ [] ∧ expDate < today)

/-- Whether an attestation holds an expired date. -/
def attestationExpired (att : Option JsonObject) (today : Str) : Bool :=
  isWaiverExpired (JsonObject.get (att.getD []) (str "expiresAt")) today

/-- The note of an expiry. -/
def waiverExpiredNote (att : JsonObject) : Str :=
  str "Waiver " ++ att.textOf (str "waiverRef") [] ++ str " expired " ++
    att.textOf (str "expiresAt") []

/-! ### Waivers of the ledger -/

/-- The actor of expiry revisions. -/
def waiverExpiryActor : Str := str "system@waiver-expiry"

/-- The decision without its waiver, as its next version. -/
def TriageDecision.expire (now : Instant) (d : TriageDecision) : TriageDecision :=
  { d with
    status := .open
    attestation := some ((d.attestation.getD []).set (str "expiredAt") (.text now.text))
    decisionVersion := d.decisionVersion + 1
    updatedBy := waiverExpiryActor
    updatedAt := now }

theorem TriageDecision.keepsKeys_expire (now : Instant) :
    KeepsKeys (TriageDecision.expire now) := fun _ => ⟨rfl, rfl⟩

/-- A finding reopened because the waiver of its decision expired. -/
def Finding.reopenExpired (now : Instant) (note : Str) (f : Finding) : Finding :=
  { f with
    status := .open
    previousStatus := some Status.riskAccepted.value
    audit := f.audit ++
      [⟨some now, str "system", str "Waiver expired — auto-reopened", some note⟩] }

theorem Finding.keepsKeys_reopenExpired (now : Instant) (note : Str) :
    KeepsKeys (Finding.reopenExpired now note) := fun _ => ⟨rfl, rfl⟩

/-- A link that shows another version. -/
def DecisionFindingLink.atVersion (version : ℕ) (l : DecisionFindingLink) : DecisionFindingLink :=
  { l with appliedDecisionVersion := version }

theorem DecisionFindingLink.keepsKeys_atVersion (version : ℕ) :
    KeepsKeys (DecisionFindingLink.atVersion version) := fun _ => ⟨rfl, rfl⟩

/-- Reopen the finding of a link to an expired decision, when it is risk-accepted. -/
def reopenLinked (now : Instant) (note : Str) (version : ℕ) (db : Db) (l : DecisionFindingLink) :
    Db :=
  match db.findings.get? l.findingId with
  | none => db
  | some f =>
    if f.status ≠ .riskAccepted then db
    else
      { db with
        findings := db.findings.update f.id (Finding.reopenExpired now note)
          (Finding.keepsKeys_reopenExpired now note)
        links := db.links.update (l.decisionId, l.findingId) (DecisionFindingLink.atVersion version)
          (DecisionFindingLink.keepsKeys_atVersion version) }

/-- The event of an expiry. -/
def waiverExpiredEvent (d : TriageDecision) : AuditEvent where
  eventType := str "decision.waiver_expired"
  actorType := str "system"
  actorId := some waiverExpiryActor
  assetId := none
  findingId := none
  decisionName := str "waiver_expiry"
  decisionReasonCode := str "attestation_expired"
  decisionConfidence := none
  decisionResult := Status.open.value
  data := [(str "decision_id", d.id), (str "subject_key", d.subjectKey),
    (str "waiver_ref", (d.attestation.getD []).textOf (str "waiverRef") []),
    (str "expires_at", (d.attestation.getD []).textOf (str "expiresAt") [])]

/-- The active links of a decision. -/
def activeLinks (db : Db) (decisionId : Str) : List DecisionFindingLink :=
  db.links.rows.filter fun l => l.decisionId = decisionId ∧ l.unlinkedAt = none

section Expire

variable [UuidSource]

/-- Expire one decision and reopen the findings linked to it. -/
def expireDecision (now : Instant) (db : Db) (d : TriageDecision) : Option Db := do
  let expired := d.expire now
  let db := { db with
    decisions := db.decisions.update d.id (TriageDecision.expire now)
      (TriageDecision.keepsKeys_expire now) }
  let db ← addRevision now waiverExpiryActor (some (str "waiver_expired")) db expired
  let db := (activeLinks db d.id).foldl
    (reopenLinked now (waiverExpiredNote (d.attestation.getD [])) expired.decisionVersion) db
  pure (db.emitAuditEvent (waiverExpiredEvent d))

omit [UuidSource] in
/-- Reopening findings writes neither decisions nor revisions nor aliases. -/
theorem reopenLinked_frame (now : Instant) (note : Str) (version : ℕ) (db : Db)
    (links : List DecisionFindingLink) :
    let db' := links.foldl (reopenLinked now note version) db
    db'.decisions = db.decisions ∧ db'.revisions = db.revisions ∧
      db'.subjectAliases = db.subjectAliases ∧ db'.assetAliases = db.assetAliases := by
  intro db'
  induction links generalizing db with
  | nil => exact ⟨rfl, rfl, rfl, rfl⟩
  | cons l links ih =>
    obtain ⟨hd, hr, hs, ha⟩ := ih (reopenLinked now note version db l)
    have hone : (reopenLinked now note version db l).decisions = db.decisions ∧
        (reopenLinked now note version db l).revisions = db.revisions ∧
        (reopenLinked now note version db l).subjectAliases = db.subjectAliases ∧
        (reopenLinked now note version db l).assetAliases = db.assetAliases := by
      unfold reopenLinked
      split
      · exact ⟨rfl, rfl, rfl, rfl⟩
      · split_ifs <;> exact ⟨rfl, rfl, rfl, rfl⟩
    exact ⟨hd.trans hone.1, hr.trans hone.2.1, hs.trans hone.2.2.1, ha.trans hone.2.2.2⟩

/-- What expiring one decision writes. -/
theorem expireDecision_cases {now : Instant} {db db' : Db} {d : TriageDecision}
    (h : expireDecision now db d = some db') :
    ∃ revisions rev, revisions.rows = db.revisions.rows ++ [rev] ∧ rev.decisionId = d.id ∧
      rev.revision = (d.expire now).decisionVersion ∧
      rev.snapshot = decisionSnapshot (d.expire now) ∧
      db' = ((activeLinks db d.id).foldl
        (reopenLinked now (waiverExpiredNote (d.attestation.getD [])) (d.decisionVersion + 1))
        { db with
          decisions := db.decisions.update d.id (TriageDecision.expire now)
            (TriageDecision.keepsKeys_expire now)
          revisions := revisions }).emitAuditEvent (waiverExpiredEvent d) := by
  obtain ⟨db₁, hadd, h⟩ := Option.bind_eq_some_iff.mp h
  obtain ⟨revisions, rev, rfl, hrows, hid, hnumber, hsnap⟩ := addRevision_cases hadd
  cases h
  exact ⟨revisions, rev, hrows, hid, hnumber, hsnap, rfl⟩

/-- What expiring one decision writes to the decisions and revisions. -/
theorem expireDecision_decisions {now : Instant} {db db' : Db} {d : TriageDecision}
    (h : expireDecision now db d = some db') :
    db'.decisions = db.decisions.update d.id (TriageDecision.expire now)
        (TriageDecision.keepsKeys_expire now) ∧
      ∃ rev, db'.revisions.rows = db.revisions.rows ++ [rev] ∧ rev.decisionId = d.id ∧
        rev.revision = (d.expire now).decisionVersion ∧
        rev.snapshot = decisionSnapshot (d.expire now) := by
  obtain ⟨revisions, rev, hrows, hid, hnumber, hsnap, rfl⟩ := expireDecision_cases h
  obtain ⟨hdec, hrev, -, -⟩ := reopenLinked_frame now (waiverExpiredNote (d.attestation.getD []))
    (d.decisionVersion + 1)
    { db with
      decisions := db.decisions.update d.id (TriageDecision.expire now)
        (TriageDecision.keepsKeys_expire now)
      revisions := revisions } (activeLinks db d.id)
  exact ⟨hdec, rev, (congrArg Table.rows hrev).trans hrows, hid, hnumber, hsnap⟩

/-- The decisions whose waiver has expired. -/
def expiredWaivers (db : Db) (today : Str) : List TriageDecision :=
  db.decisions.rows.filter fun d =>
    d.status = .riskAccepted ∧ d.attestation.isSome ∧ attestationExpired d.attestation today

/-- Expire waivers in the ledger and reopen linked findings. -/
def expireDecisionWaivers (cfg : Settings) (now : Instant) (today : Str) (db : Db) :
    Option (Db × ℕ) :=
  if !cfg.decisionLedgerEnabled then some (db, 0)
  else do
    let db' ← (expiredWaivers db today).foldlM (expireDecision now) db
    pure (db', (expiredWaivers db today).length)

end Expire

/-! ### Findings outside the ledger -/

/-- A finding reopened because its own attestation expired. -/
def Finding.reopenOwn (now : Instant) (f : Finding) : Finding :=
  { f with
    status := .open
    audit := f.audit ++
      [⟨some (floorSecond now), str "system", str "Waiver expired — auto-reopened",
        some (waiverExpiredNote (f.attestation.getD []))⟩] }

/-- The findings the fallback reopens. -/
def Finding.ownWaiverExpired (today : Str) (f : Finding) : Bool :=
  decide (f.status = .riskAccepted) && f.attestation.isSome && attestationExpired f.attestation today

/-- Fallback for risk-accepted findings not represented in the ledger. -/
def enforceWaiverExpiryOnFindings (now : Instant) (today : Str) (db : Db) : Db × ℕ :=
  ({ db with
    findings := db.findings.mapRows
      (fun f => if f.ownWaiverExpired today then f.reopenOwn now else f)
      (KeepsKeys.ite _ (fun _ => ⟨rfl, rfl⟩) keepsKeys_id) },
    (db.findings.rows.filter (Finding.ownWaiverExpired today)).length)

/-- Expire waivers from the ledger first, then scan the findings. -/
def enforceWaiverExpiry [UuidSource] (cfg : Settings) (now : Instant) (today : Str) (db : Db) :
    Option (Db × ℕ) := do
  let (db, n) ← expireDecisionWaivers cfg now today db
  let (db, m) := enforceWaiverExpiryOnFindings now today db
  pure (db, n + m)

/-! ### Reconcile -/

section Reconcile

variable [Unicode]

/-- Resolve the findings with the given ids one after the other. -/
def resolveEach (cfg : Settings) (now : Instant) :
    Db → List Str → Db × List DecisionApplyResult
  | db, [] => (db, [])
  | db, findingId :: ids =>
    let (db', result) := resolveAndApplyDecision cfg now db findingId none
    let (db'', results) := resolveEach cfg now db' ids
    (db'', result :: results)

/-- What a reconcile returns. -/
structure ReconcileCounts where
  scanned : ℕ
  applied : ℕ
  conflicts : ℕ
  relinked : ℕ
  deriving DecidableEq

/-- The counts of a list of results. -/
def reconcileCounts (results : List DecisionApplyResult) : ReconcileCounts where
  scanned := results.length
  applied := results.countP fun r => r.applied
  conflicts := results.countP fun r => r.conflict
  relinked := results.countP fun r => r.decisionId.isSome

omit [Unicode] in
/-- The ids of the findings a reconcile scans. -/
def scannedIds (db : Db) (tenantId : Option Str) (crossTenant : Bool) (limit : ℕ) : List Str :=
  let ids := db.findings.rows.map Finding.id
  let visible := if !crossTenant && tenantId.isNone then [] else ids
  if 0 < limit then visible.take limit else visible

/-- Re-run decision re-linking across findings to repair drift. -/
def reconcileDecisionLinks (cfg : Settings) (now : Instant) (db : Db) (tenantId : Option Str)
    (crossTenant : Bool) (limit : ℕ) : Db × ReconcileCounts :=
  if !cfg.decisionLedgerEnabled then (db, ⟨0, 0, 0, 0⟩)
  else
    let (db', results) := resolveEach cfg now db (scannedIds db tenantId crossTenant limit)
    (db', reconcileCounts results)

end Reconcile

end Vat
