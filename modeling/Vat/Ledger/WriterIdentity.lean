import Vat.Ledger.RevisionHistory
import Vat.Ledger.NewerWork

/-!
# The row a recording writes to

A lookup walks all candidate keys and one alias each, a recording takes the primary key alone. The
recording revises the decision that a lookup finds exactly when that decision is stored under the
primary key; a decision found through an alias or another candidate gets a second row beside it.

## Main definitions

* `primarySubjectKey`: the key a recording writes to.
* `RevisesInPlace`: what a recording does when it agrees with the lookup.

## Main results

* `record_revises_governing_iff`.
-/

namespace Vat

open Relational Transition

section Lookup

/-- A decision is found under its tenant. -/
theorem decisionUnderKey_tenantId {db : Db} {tenant key : Str} {d : TriageDecision}
    (h : decisionUnderKey db tenant key = some d) : d.tenantId = tenant := by
  have hkey : ∀ {key : Str}, db.decisions.getBy? (tenant, key) = some d → d.tenantId = tenant :=
    fun hd => (Prod.mk.inj (show (d.tenantId, d.subjectKey) = (tenant, _) from
      Table.uk_of_getBy? hd)).1
  unfold decisionUnderKey at h
  split at h
  · next hd =>
    cases h
    exact hkey hd
  · split at h
    · exact hkey h
    · cases h

theorem lookupDecision_tenantId {db : Db} {tenantId : Option Str}
    {candidates : List DecisionSubjectCandidate} {d : TriageDecision}
    {c : DecisionSubjectCandidate} (h : lookupDecision db tenantId candidates = some (d, c)) :
    d.tenantId = normalizeTenantId tenantId := by
  induction candidates with
  | nil => cases h
  | cons candidate candidates ih =>
    unfold lookupDecision at h
    split at h
    · next hd =>
      cases h
      exact decisionUnderKey_tenantId hd
    · exact ih h

/-- A decision stored under the first candidate is found first. -/
theorem lookupDecision_cons_of_getBy? {db : Db} {tenantId : Option Str}
    {candidate : DecisionSubjectCandidate} {d : TriageDecision}
    (h : db.decisions.getBy? (normalizeTenantId tenantId, candidate.subjectKey) = some d)
    (candidates : List DecisionSubjectCandidate) :
    lookupDecision db tenantId (candidate :: candidates) = some (d, candidate) := by
  simp only [lookupDecision, decisionUnderKey, h]

end Lookup

section Writer

variable [Unicode]

/-- The candidate of the key a recording writes to. -/
def primaryOf (cfg : Settings) (db : Db) (f : Finding) (parserId : Option Str) :
    DecisionSubjectCandidate :=
  primaryCandidate (f.keyPayload (sourceLinkFields f).1 (sourceLinkFields f).2)
    (canonicalAssetForFinding cfg db.assetAliases f parserId)

/-- The key a recording writes to. -/
def primarySubjectKey (cfg : Settings) (db : Db) (f : Finding) (parserId : Option Str) : Str :=
  (primaryOf cfg db f parserId).subjectKey

theorem exists_candidatesForFinding (cfg : Settings) (db : Db) (f : Finding)
    (parserId : Option Str) :
    ∃ others, candidatesForFinding cfg db f parserId = primaryOf cfg db f parserId :: others :=
  ⟨_, rfl⟩

variable {cfg : Settings} {now : Instant} {db : Db} {f : Finding} {d : TriageDecision}
  {matched : DecisionSubjectCandidate} {parserId : Option Str}

/-- The decision that governs a finding is stored under the primary key when its key says so. -/
theorem getBy?_primary_of_governing (hg : governingDecision cfg db f parserId = some (d, matched))
    (hkey : d.subjectKey = primarySubjectKey cfg db f parserId) :
    db.decisions.getBy? (normalizeTenantId f.tenantId, primarySubjectKey cfg db f parserId) =
      some d := by
  have hget : db.decisions.getBy? (d.tenantId, d.subjectKey) = some d :=
    Table.getBy?_uk_of_mem (governingDecision_mem hg)
  rwa [lookupDecision_tenantId hg, hkey] at hget

/-- A decision stored under the primary key governs the finding. -/
theorem governing_of_primary
    (hd : db.decisions.getBy?
      (normalizeTenantId f.tenantId, primarySubjectKey cfg db f parserId) = some d) :
    governingDecision cfg db f parserId = some (d, primaryOf cfg db f parserId) := by
  obtain ⟨others, hcand⟩ := exists_candidatesForFinding cfg db f parserId
  rw [governingDecision, hcand]
  exact lookupDecision_cons_of_getBy? hd others

variable [UuidSource]

/-- A recording with a result was made for a finding with a decision to record, and revised the
decision under its primary key or inserted one with a new id. -/
theorem recordDecisionFromFinding_recorded {db' : Db} {user reason decisionId : Str}
    (hf : db.findings.get? f.id = some f)
    (h : recordDecisionFromFinding cfg now db f.id user reason parserId =
      some (db', some decisionId)) :
    cfg.decisionLedgerEnabled = true ∧ isRecordable f = true ∧
      ((∃ d₀, db.decisions.getBy?
          (normalizeTenantId f.tenantId, primarySubjectKey cfg db f parserId) = some d₀ ∧
        d₀.id = decisionId) ∨ ∀ d₀ ∈ db.decisions.rows, d₀.id ≠ decisionId) := by
  have henabled : cfg.decisionLedgerEnabled = true := by
    by_contra hoff
    rw [Bool.not_eq_true] at hoff
    simp [recordDecisionFromFinding, hoff] at h
  have hrec : isRecordable f = true := by
    by_contra hnot
    rw [Bool.not_eq_true] at hnot
    simp [recordDecisionFromFinding, henabled, hf, hnot] at h
  refine ⟨henabled, hrec, ?_⟩
  rcases recordDecisionFromFinding_cases h with
    ⟨-, hnone⟩ | ⟨f', primary, others, d, db₁, db₂, hf', hcand, hstore, -, -, hid⟩
  · cases hnone
  · obtain rfl := Option.some.inj (hf.symm.trans hf')
    obtain ⟨others', hprimary⟩ := exists_candidatesForFinding cfg db f parserId
    obtain ⟨rfl, -⟩ := List.cons.inj (hcand.symm.trans hprimary)
    obtain rfl := Option.some.inj hid
    rcases storeDecision_cases hstore with ⟨d₀, hd₀, rfl, -⟩ | ⟨-, hcan, rfl, -⟩
    · exact Or.inl ⟨d₀, hd₀, rfl⟩
    · exact Or.inr fun d₀ hd₀ heq => hcan.1 (List.mem_map.mpr ⟨d₀, hd₀, heq⟩)

/-- The recording revises the decision in its row and adds no other row, and the finding resolves
to the revised decision afterwards. -/
def RevisesInPlace (cfg : Settings) (now : Instant) (user : Str) (db : Db) (f : Finding)
    (parserId : Option Str) (d : TriageDecision) (result : Option (Db × Option Str)) : Prop :=
  ∃ db', result = some (db', some d.id) ∧
    db'.decisions.rows.map TriageDecision.id = db.decisions.rows.map TriageDecision.id ∧
    db'.decisions.get? d.id = some (d.revise now user f) ∧
    ∃ matched, governingDecision cfg db' f parserId = some (d.revise now user f, matched)

/-- A recording revises the decision under the primary key. -/
theorem revisesInPlace_of_primary (hc : RevisionHistoryComplete db)
    (henabled : cfg.decisionLedgerEnabled = true) (hf : db.findings.get? f.id = some f)
    (hrec : isRecordable f = true)
    (hd : db.decisions.getBy?
      (normalizeTenantId f.tenantId, primarySubjectKey cfg db f parserId) = some d)
    (user reason : Str) :
    RevisesInPlace cfg now user db f parserId d
      (recordDecisionFromFinding cfg now db f.id user reason parserId) := by
  have hmem := Table.mem_of_getBy? hd
  have hkeep := TriageDecision.keepsKeys_revise now user f
  obtain ⟨others, hcand⟩ := exists_candidatesForFinding cfg db f parserId
  obtain ⟨db₁, hadd⟩ := addRevision_succeeds now user (some reason) hc hmem
    (db.decisions.update d.id _ hkeep) (show (d.revise now user f).id = d.id from rfl) rfl
  have hstore : storeDecision now user db f (primaryOf cfg db f parserId) =
      some ({ db with decisions := db.decisions.update d.id _ hkeep }, d.revise now user f) := by
    have hd' : db.decisions.getBy?
        (normalizeTenantId f.tenantId, (primaryOf cfg db f parserId).subjectKey) = some d := hd
    simp only [storeDecision, hd']
  have hresult : recordDecisionFromFinding cfg now db f.id user reason parserId =
      some (finishRecording now user reason db₁ f (primaryOf cfg db f parserId) others
        (d.revise now user f), some d.id) := by
    simp only [recordDecisionFromFinding, henabled, hf, hrec, hcand, Bool.not_true,
      Bool.false_eq_true, ↓reduceIte, hstore, hadd, Option.bind_eq_bind, Option.bind_some]
    rfl
  obtain ⟨revisions, rev, rfl, -⟩ := addRevision_cases hadd
  refine ⟨_, hresult, ?_, ?_, primaryOf cfg db f parserId, ?_⟩
  · change (db.decisions.update d.id _ hkeep).rows.map TriageDecision.id = _
    rw [Table.rows_update, List.map_map]
    refine List.map_congr_left fun e _ => ?_
    simp only [Function.comp_apply]
    split_ifs <;> rfl
  · change (db.decisions.update d.id _ hkeep).get? d.id = _
    have hget : db.decisions.get? d.id = some d := Table.get?_pk_of_mem hmem
    rw [Table.get?_update_self, hget, Option.map_some]
  · refine governing_of_primary ?_
    change (db.decisions.update d.id _ hkeep).getBy?
      (normalizeTenantId f.tenantId, primarySubjectKey cfg db f parserId) = _
    rw [Table.getBy?_update, hd, Option.map_some]
    exact congrArg some (if_pos rfl)

/-- Over complete histories, a recording revises the decision that governs its finding exactly when
the ledger is on, the finding holds a decision to record, and the governing decision is stored
under the primary key of the finding. -/
theorem record_revises_governing_iff (cfg : Settings) (now : Instant) (start : CompleteDb)
    {f : Finding} (hf : start.db.findings.get? f.id = some f) {d : TriageDecision}
    {matched : DecisionSubjectCandidate} {parserId : Option Str}
    (hg : governingDecision cfg start.db f parserId = some (d, matched)) (user reason : Str) :
    RevisesInPlace cfg now user start.db f parserId d
        (recordDecisionFromFinding cfg now start.db f.id user reason parserId) ↔
      cfg.decisionLedgerEnabled = true ∧ isRecordable f = true ∧
        d.subjectKey = primarySubjectKey cfg start.db f parserId := by
  constructor
  · rintro ⟨db', hresult, -⟩
    obtain ⟨henabled, hrec, hrow⟩ := recordDecisionFromFinding_recorded hf hresult
    refine ⟨henabled, hrec, ?_⟩
    rcases hrow with ⟨d₀, hd₀, hid⟩ | hnew
    · obtain rfl := Table.eq_of_pk (Table.mem_of_getBy? hd₀) (governingDecision_mem hg) hid
      exact (Prod.mk.inj (show (d₀.tenantId, d₀.subjectKey) = _ from Table.uk_of_getBy? hd₀)).2
    · exact absurd rfl (hnew d (governingDecision_mem hg))
  · rintro ⟨henabled, hrec, hkey⟩
    exact revisesInPlace_of_primary start.complete henabled hf hrec
      (getBy?_primary_of_governing hg hkey) user reason

end Writer

section Merged

attribute [local instance] asciiUnicode longestIds

/-- The risk of a finding is accepted. -/
def acceptedRun : List TimedOp :=
  [⟨1000000, .edit (str "f-1")
    { FindingUpdate.none with status := some (some (str "Risk Accepted")) } (str "alice")⟩]

/-- The risk of a finding is accepted, its asset is merged into another, and the finding is a false
positive. -/
def mergedRun : List TimedOp :=
  acceptedRun ++
    [⟨1000000, .aliasAsset (str "registry.io/app") (str "registry.io/portal") none⟩,
      ⟨1000000, .edit (str "f-1")
        { FindingUpdate.none with status := some (some (str "False Positive")) } (str "alice")⟩]

/-- The database of a run on an open finding. -/
def runDb (ops : List TimedOp) : Db :=
  (run (World.step ⟨true, []⟩) (World.start (Db.ofFindings (.singleton openFinding)) 0) ops).db

/-- The decision of the finding after a run, and whether a recording would revise it. -/
def resolvedDecision (db : Db) : Option (TriageDecision × Bool) := do
  let f ← db.findings.get? (str "f-1")
  let (d, _) ← governingDecision ⟨true, []⟩ db f none
  pure (d, isRecordable f && decide (d.subjectKey = primarySubjectKey ⟨true, []⟩ db f none))

/-- After an accepted risk, a recording revises it. -/
theorem record_revises_accepted :
    ∃ f d, (runDb acceptedRun).findings.get? (str "f-1") = some f ∧
      RevisesInPlace ⟨true, []⟩ 2000000 (str "bob") (runDb acceptedRun) f none d
        (recordDecisionFromFinding ⟨true, []⟩ 2000000 (runDb acceptedRun) f.id (str "bob")
          (str "review") none) := by
  have hready : (resolvedDecision (runDb acceptedRun)).map Prod.snd = some true := by
    decide +kernel
  obtain ⟨⟨d, b⟩, hresolved, rfl⟩ := Option.map_eq_some_iff.mp hready
  rw [resolvedDecision, Option.bind_eq_bind] at hresolved
  obtain ⟨f, hf, h⟩ := Option.bind_eq_some_iff.mp hresolved
  obtain ⟨⟨d', matched⟩, hg, h⟩ := Option.bind_eq_some_iff.mp h
  obtain ⟨rfl, hcond⟩ := Prod.mk.inj (Option.some.inj h)
  obtain ⟨hrec, hkey⟩ := Bool.and_eq_true_iff.mp hcond
  have hid : f.id = str "f-1" := Table.pk_of_get? hf
  refine ⟨f, d', hf, (record_revises_governing_iff ⟨true, []⟩ 2000000
    ⟨runDb acceptedRun, revisionHistoryComplete_run _ _ _ _⟩ (hid ▸ hf) hg (str "bob")
    (str "review")).mpr ⟨rfl, hrec, of_decide_eq_true hkey⟩⟩

/-- After a merge, the recording adds a second row beside the decision that was found. -/
theorem record_adds_second_row :
    let before := runDb (mergedRun.take 2)
    let after := runDb mergedRun
    (resolvedDecision before).map (fun p => p.1.decisionVersion) = some 1 ∧
      before.decisions.rows.map TriageDecision.status = [.riskAccepted] ∧
      after.decisions.rows.map TriageDecision.status = [.riskAccepted, .falsePositive] ∧
      after.decisions.rows.map TriageDecision.decisionVersion = [1, 1] := by
  decide +kernel

end Merged

end Vat
