import Vat.Ledger.Idempotence
import Vat.Ledger.RevisionHistory

/-!
# What waiver expiry does

The effect of the expiry job on one finding, on the links and on the decisions. A risk-accepted
finding is reopened when one of its active links leads to an expired waiver decision, or when its
own attestation has expired; nothing else changes for it. The job fails only where the revision
histories are not complete.

## Main definitions

* `LinkActive`, `OldWaiverLinked`, `ReopenedIf`, `DecisionsUnexpired`.

## Main results

* `enforceWaiverExpiry_finding`: the effect on a finding.
* `enforceWaiverExpiry_governing`: the decision that governs a finding, when it is not expired.
* `enforceWaiverExpiry_succeeds`: the job succeeds over complete histories.
-/

namespace Vat

open Relational Transition

/-- The decision has a link to the finding that is not unlinked. -/
def LinkActive (db : Db) (decisionId findingId : Str) : Prop :=
  ∃ l, db.links.get? (decisionId, findingId) = some l ∧ l.unlinkedAt = none

/-- An expired waiver decision has an active link to the finding. -/
def OldWaiverLinked (db : Db) (today findingId : Str) : Prop :=
  ∃ d ∈ expiredWaivers db today, LinkActive db d.id findingId

theorem mem_activeLinks_iff (db : Db) (decisionId findingId : Str) :
    (∃ l ∈ activeLinks db decisionId, l.findingId = findingId) ↔
      LinkActive db decisionId findingId := by
  constructor
  · rintro ⟨l, hl, rfl⟩
    obtain ⟨hmem, hp⟩ := List.mem_filter.mp hl
    obtain ⟨rfl, hactive⟩ := of_decide_eq_true hp
    exact ⟨l, Table.get?_pk_of_mem hmem, hactive⟩
  · rintro ⟨l, hget, hactive⟩
    obtain ⟨hmem, hkey⟩ := Table.get?_eq_some_iff.mp hget
    obtain ⟨hd, hf⟩ := Prod.mk.inj (show (l.decisionId, l.findingId) = (decisionId, findingId) from hkey)
    exact ⟨l, List.mem_filter.mpr ⟨hmem, decide_eq_true ⟨hd, hactive⟩⟩, hf⟩

/-! ### Reopening along links -/

section Reopen

variable (now : Instant) (note : Str) (version : ℕ)

theorem findings_reopenLinked (db : Db) (l : DecisionFindingLink) (findingId : Str) :
    (reopenLinked now note version db l).findings.get? findingId =
      (db.findings.get? findingId).map fun f =>
        if f.status = .riskAccepted ∧ l.findingId = findingId then f.reopenExpired now note
        else f := by
  by_cases hid : l.findingId = findingId
  · subst hid
    unfold reopenLinked
    cases hf : db.findings.get? l.findingId with
    | none => simp [hf]
    | some f =>
      have hk : f.id = l.findingId := Table.pk_of_get? hf
      by_cases hs : f.status = .riskAccepted
      · simp [hs, hk, hf]
      · simp [hs, hf]
  · have hkeep : (reopenLinked now note version db l).findings.get? findingId =
        db.findings.get? findingId := by
      unfold reopenLinked
      split
      · rfl
      · next f hf =>
        split_ifs
        · rfl
        · have hk : f.id = l.findingId := Table.pk_of_get? hf
          exact Table.get?_update_ne _ _ (Finding.keepsKeys_reopenExpired now note) fun h =>
            hid (hk.symm.trans h.symm)
    rw [hkeep]
    simp [hid]

/-- Reopening along links leaves a link's activity, and the applied version of the links of other
decisions. -/
theorem links_reopenLinked (db : Db) (l : DecisionFindingLink) (decisionId findingId : Str) :
    (LinkActive (reopenLinked now note version db l) decisionId findingId ↔
      LinkActive db decisionId findingId) ∧
    (decisionId ≠ l.decisionId →
      linkApplied (reopenLinked now note version db l) decisionId findingId =
        linkApplied db decisionId findingId) := by
  unfold reopenLinked LinkActive linkApplied
  split
  · exact ⟨Iff.rfl, fun _ => rfl⟩
  · split_ifs
    · exact ⟨Iff.rfl, fun _ => rfl⟩
    · have hupdate := Table.get?_update db.links (l.decisionId, l.findingId) (decisionId, findingId)
        (DecisionFindingLink.atVersion version) (DecisionFindingLink.keepsKeys_atVersion version)
      dsimp only
      rw [hupdate]
      split_ifs with hkey
      · refine ⟨?_, fun hne => absurd (Prod.mk.inj hkey).1 hne⟩
        rw [hkey]
        cases db.links.get? (l.decisionId, l.findingId) <;> simp [DecisionFindingLink.atVersion]
      · exact ⟨Iff.rfl, fun _ => rfl⟩

end Reopen

/-- What expiry leaves of a finding: the same finding, reopened when it is due. -/
structure ReopenedIf [Unicode] (due : Prop) (f f' : Finding) : Prop where
  sameSubject : SameSubject f f'
  attestation : f'.attestation = f.attestation
  edits : latestHumanEdit f'.audit = latestHumanEdit f.audit
  opened : due → f'.status = .open
  kept : ¬ due → f' = f

section Effects

variable [Unicode]

theorem ReopenedIf.refl (f : Finding) : ReopenedIf False f f :=
  ⟨.refl f, rfl, rfl, False.elim, fun _ => rfl⟩

theorem reopenedIf_reopenExpired (now : Instant) (note : Str) (f : Finding) :
    ReopenedIf True f (f.reopenExpired now note) :=
  ⟨⟨rfl, rfl, rfl, rfl, rfl, rfl⟩, rfl,
    latestHumanEdit_append fun e he => by
      rw [List.mem_singleton.mp he]
      exact isHumanUser_system, fun _ => rfl, fun h => (h trivial).elim⟩

theorem ReopenedIf.congr {due due' : Prop} (hiff : due ↔ due') {f f' : Finding}
    (h : ReopenedIf due f f') : ReopenedIf due' f f' := by
  rwa [← propext hiff]

/-- A finding that was reopened is not due again. -/
theorem ReopenedIf.trans {p q : Prop} {f g h : Finding}
    (hfg : ReopenedIf (f.status = .riskAccepted ∧ p) f g)
    (hgh : ReopenedIf (g.status = .riskAccepted ∧ q) g h) :
    ReopenedIf (f.status = .riskAccepted ∧ (p ∨ q)) f h := by
  refine ⟨hfg.sameSubject.trans hgh.sameSubject, hgh.attestation.trans hfg.attestation,
    hgh.edits.trans hfg.edits, ?_, ?_⟩
  · rintro ⟨hf, hpq⟩
    by_cases hp : p
    · have hg : g.status = .open := hfg.opened ⟨hf, hp⟩
      rw [hgh.kept fun h' => by rw [hg] at h'; exact absurd h'.1 (by decide), hg]
    · rw [hfg.kept fun h' => hp h'.2] at hgh
      exact hgh.opened ⟨hf, hpq.resolve_left hp⟩
  · intro hnot
    have hg : g = f := hfg.kept fun h' => hnot ⟨h'.1, Or.inl h'.2⟩
    rw [hgh.kept fun h' => hnot ⟨hg ▸ h'.1, Or.inr h'.2⟩, hg]

variable (now : Instant) (note : Str) (version : ℕ)

theorem findings_reopenEach (links : List DecisionFindingLink) (db : Db) {findingId : Str}
    {f : Finding} (hf : db.findings.get? findingId = some f) :
    ∃ f', (links.foldl (reopenLinked now note version) db).findings.get? findingId = some f' ∧
      ReopenedIf (f.status = .riskAccepted ∧ ∃ l ∈ links, l.findingId = findingId) f f' := by
  induction links generalizing db f with
  | nil => exact ⟨f, hf, (ReopenedIf.refl f).congr (by simp)⟩
  | cons l links ih =>
    have hone := findings_reopenLinked now note version db l findingId
    rw [hf, Option.map_some] at hone
    obtain ⟨f', hf', hrest⟩ := ih _ hone
    refine ⟨f', hf', ?_⟩
    have hstep : ReopenedIf (f.status = .riskAccepted ∧ l.findingId = findingId) f
        (if f.status = .riskAccepted ∧ l.findingId = findingId then f.reopenExpired now note
          else f) := by
      split_ifs with hdue
      · exact (reopenedIf_reopenExpired now note f).congr (by simp [hdue])
      · exact (ReopenedIf.refl f).congr (by simp only [hdue])
    exact (hstep.trans hrest).congr (by simp only [List.exists_mem_cons_iff])

omit [Unicode] in
theorem links_reopenEach (links : List DecisionFindingLink) (db : Db)
    (decisionId findingId : Str) :
    (LinkActive (links.foldl (reopenLinked now note version) db) decisionId findingId ↔
      LinkActive db decisionId findingId) ∧
    ((∀ l ∈ links, decisionId ≠ l.decisionId) →
      linkApplied (links.foldl (reopenLinked now note version) db) decisionId findingId =
        linkApplied db decisionId findingId) := by
  induction links generalizing db with
  | nil => exact ⟨Iff.rfl, fun _ => rfl⟩
  | cons l links ih =>
    obtain ⟨hactive, happlied⟩ := ih (reopenLinked now note version db l)
    obtain ⟨hactive₁, happlied₁⟩ := links_reopenLinked now note version db l decisionId findingId
    refine ⟨hactive.trans hactive₁, fun hne => ?_⟩
    rw [List.forall_mem_cons] at hne
    exact (happlied hne.2).trans (happlied₁ hne.1)

/-! ### Expiring decisions -/

variable [UuidSource]

/-- What an expiry of decisions leaves of the rows a resolve reads. -/
structure ExpiryFrame (db db' : Db) (ids : List Str) (findingId : Str) : Prop where
  active : ∀ decisionId, LinkActive db' decisionId findingId ↔ LinkActive db decisionId findingId
  applied : ∀ decisionId ∉ ids,
    linkApplied db' decisionId findingId = linkApplied db decisionId findingId
  aliases : db'.subjectAliases = db.subjectAliases ∧ db'.assetAliases = db.assetAliases
  decisions : ∃ (u : TriageDecision → TriageDecision) (hu : KeepsKeys u),
    db'.decisions = db.decisions.mapRows u hu ∧
      ∀ d, (d.id ∉ ids → u d = d) ∧ (d.id ∈ ids → (u d).status = .open)

variable {now : Instant}

omit [Unicode] [UuidSource] in
theorem ExpiryFrame.refl (db : Db) (findingId : Str) : ExpiryFrame db db [] findingId :=
  ⟨fun _ => Iff.rfl, fun _ _ => rfl, ⟨rfl, rfl⟩, id, keepsKeys_id,
    Table.ext (List.map_id _).symm, fun _ => ⟨fun _ => rfl, by simp⟩⟩

omit [Unicode] [UuidSource] in
theorem ExpiryFrame.trans {db db' db'' : Db} {ids ids' : List Str} {findingId : Str}
    (h : ExpiryFrame db db' ids findingId) (h' : ExpiryFrame db' db'' ids' findingId) :
    ExpiryFrame db db'' (ids ++ ids') findingId := by
  obtain ⟨u, hu, hdec, hkeep⟩ := h.decisions
  obtain ⟨u', hu', hdec', hkeep'⟩ := h'.decisions
  refine ⟨fun d => (h'.active d).trans (h.active d), fun d hd => ?_,
    ⟨h'.aliases.1.trans h.aliases.1, h'.aliases.2.trans h.aliases.2⟩, u' ∘ u, hu'.comp hu, ?_,
    fun d => ?_⟩
  · rw [List.mem_append, not_or] at hd
    exact (h'.applied d hd.2).trans (h.applied d hd.1)
  · rw [hdec', hdec]
    exact Table.ext (List.map_map ..)
  · have hid : (u d).id = d.id := (hu d).1
    obtain ⟨hkept, hopen⟩ := hkeep d
    obtain ⟨hkept', hopen'⟩ := hkeep' (u d)
    rw [hid] at hkept' hopen'
    rw [List.mem_append, Function.comp_apply]
    constructor
    · intro hd
      rw [not_or] at hd
      rw [hkept' hd.2, hkept hd.1]
    · intro hd
      by_cases hd' : d.id ∈ ids'
      · exact hopen' hd'
      · rw [hkept' hd', hopen (hd.resolve_right hd')]

omit [Unicode] in
theorem expireDecision_frame {db db' : Db} {d : TriageDecision}
    (h : expireDecision now db d = some db') (findingId : Str) :
    ExpiryFrame db db' [d.id] findingId := by
  obtain ⟨revisions, rev, -, -, -, -, rfl⟩ := expireDecision_cases h
  obtain ⟨hdec, -, hsub, hasset⟩ := reopenLinked_frame now
    (waiverExpiredNote (d.attestation.getD [])) (d.decisionVersion + 1)
    { db with
      decisions := db.decisions.update d.id (TriageDecision.expire now)
        (TriageDecision.keepsKeys_expire now)
      revisions := revisions } (activeLinks db d.id)
  refine ⟨fun decisionId => (links_reopenEach now _ _ _ _ decisionId findingId).1,
    fun decisionId hne => (links_reopenEach now _ _ _ _ decisionId findingId).2 fun l hl heq => ?_,
    ⟨hsub, hasset⟩, fun e => if e.id = d.id then e.expire now else e,
    KeepsKeys.ite (fun e => e.id = d.id) (TriageDecision.keepsKeys_expire now) keepsKeys_id, hdec,
    fun e => ⟨fun he => if_neg fun heq => he (by simp [heq]), fun he => ?_⟩⟩
  · have hd : l.decisionId = d.id := (of_decide_eq_true (List.mem_filter.mp hl).2).1
    exact hne (by simp [heq, hd])
  · have hexp : (if e.id = d.id then e.expire now else e) = e.expire now :=
      if_pos (List.mem_singleton.mp he)
    exact congrArg TriageDecision.status hexp

theorem expireDecision_finding {db db' : Db} {d : TriageDecision}
    (h : expireDecision now db d = some db') {findingId : Str} {f : Finding}
    (hf : db.findings.get? findingId = some f) :
    ∃ f', db'.findings.get? findingId = some f' ∧
      ReopenedIf (f.status = .riskAccepted ∧ LinkActive db d.id findingId) f f' := by
  obtain ⟨revisions, rev, -, -, -, -, rfl⟩ := expireDecision_cases h
  obtain ⟨f', hf', hre⟩ := findings_reopenEach now (waiverExpiredNote (d.attestation.getD []))
    (d.decisionVersion + 1) (activeLinks db d.id)
    { db with
      decisions := db.decisions.update d.id (TriageDecision.expire now)
        (TriageDecision.keepsKeys_expire now)
      revisions := revisions } hf
  exact ⟨f', hf', hre.congr (and_congr_right fun _ => mem_activeLinks_iff db d.id findingId)⟩

omit [Unicode] in
theorem expireEach_frame {ds : List TriageDecision} {db db' : Db}
    (h : ds.foldlM (expireDecision now) db = some db') (findingId : Str) :
    ExpiryFrame db db' (ds.map TriageDecision.id) findingId := by
  induction ds generalizing db with
  | nil =>
    cases h
    exact .refl _ _
  | cons d ds ih =>
    rw [List.foldlM_cons] at h
    obtain ⟨db₁, hd, h⟩ := Option.bind_eq_some_iff.mp h
    exact (expireDecision_frame hd findingId).trans (ih h)

theorem expireEach_finding {ds : List TriageDecision} {db db' : Db}
    (h : ds.foldlM (expireDecision now) db = some db') {findingId : Str} {f : Finding}
    (hf : db.findings.get? findingId = some f) :
    ∃ f', db'.findings.get? findingId = some f' ∧
      ReopenedIf (f.status = .riskAccepted ∧ ∃ d ∈ ds, LinkActive db d.id findingId) f f' := by
  induction ds generalizing db f with
  | nil =>
    cases h
    exact ⟨f, hf, (ReopenedIf.refl f).congr (by simp)⟩
  | cons d ds ih =>
    rw [List.foldlM_cons] at h
    obtain ⟨db₁, hd, h⟩ := Option.bind_eq_some_iff.mp h
    obtain ⟨f₁, hf₁, hstep⟩ := expireDecision_finding hd hf
    obtain ⟨f', hf', hrest⟩ := ih h hf₁
    refine ⟨f', hf', (hstep.trans hrest).congr ?_⟩
    simp only [List.exists_mem_cons_iff, (expireDecision_frame hd findingId).active]

/-! ### The whole job -/

variable {cfg : Settings} {today : Str}

omit [Unicode] in
/-- The ledger part, then the findings. -/
theorem enforceWaiverExpiry_cases {db db' : Db} {n : ℕ}
    (h : enforceWaiverExpiry cfg now today db = some (db', n)) :
    ∃ db₁, (cfg.decisionLedgerEnabled = false → db₁ = db) ∧
      (cfg.decisionLedgerEnabled = true →
        (expiredWaivers db today).foldlM (expireDecision now) db = some db₁) ∧
      db' = (enforceWaiverExpiryOnFindings now today db₁).1 := by
  obtain ⟨⟨db₁, m⟩, hledger, h⟩ := Option.bind_eq_some_iff.mp h
  cases h
  refine ⟨db₁, fun hoff => ?_, fun hon => ?_, rfl⟩
  · simp only [expireDecisionWaivers, hoff, Bool.not_false, ↓reduceIte, Option.some.injEq,
      Prod.mk.injEq] at hledger
    exact hledger.1.symm
  · simp only [expireDecisionWaivers, hon, Bool.not_true, Bool.false_eq_true, ↓reduceIte] at hledger
    obtain ⟨db₂, hfold, hledger⟩ := Option.bind_eq_some_iff.mp hledger
    cases hledger
    exact hfold

omit [UuidSource] in
theorem latestHumanEdit_reopenOwn (f : Finding) :
    latestHumanEdit (f.reopenOwn now).audit = latestHumanEdit f.audit :=
  latestHumanEdit_append fun e he => by
    rw [List.mem_singleton.mp he]
    exact isHumanUser_system

omit [Unicode] [UuidSource] in
theorem ownWaiverExpired_iff (f : Finding) :
    f.ownWaiverExpired today = true ↔
      f.status = .riskAccepted ∧ attestationExpired f.attestation today = true := by
  have hnone : attestationExpired none today = false := rfl
  unfold Finding.ownWaiverExpired
  cases hatt : f.attestation with
  | none => simp [hnone]
  | some att => simp

/-- A finding is risk-accepted after the job when it was before, no expired waiver decision is
linked to it and its own attestation has not expired. -/
theorem enforceWaiverExpiry_finding {db db' : Db} {n : ℕ}
    (h : enforceWaiverExpiry cfg now today db = some (db', n)) {findingId : Str} {f : Finding}
    (hf : db.findings.get? findingId = some f) :
    ∃ f', db'.findings.get? findingId = some f' ∧ SameSubject f f' ∧
      f'.attestation = f.attestation ∧ latestHumanEdit f'.audit = latestHumanEdit f.audit ∧
      (f'.status = .riskAccepted ↔ f.status = .riskAccepted ∧
        (cfg.decisionLedgerEnabled = true → ¬ OldWaiverLinked db today findingId) ∧
        attestationExpired f.attestation today = false) := by
  obtain ⟨db₁, hoff, hon, rfl⟩ := enforceWaiverExpiry_cases h
  obtain ⟨f₁, hf₁, hre⟩ : ∃ f₁, db₁.findings.get? findingId = some f₁ ∧
      ReopenedIf (f.status = .riskAccepted ∧ cfg.decisionLedgerEnabled = true ∧
        OldWaiverLinked db today findingId) f f₁ := by
    cases henabled : cfg.decisionLedgerEnabled with
    | false => exact ⟨f, by rwa [hoff henabled], (ReopenedIf.refl f).congr (by simp)⟩
    | true =>
      obtain ⟨f₁, hf₁, hre⟩ := expireEach_finding (hon henabled) hf
      exact ⟨f₁, hf₁, hre.congr (by simp [OldWaiverLinked])⟩
  have hget : (enforceWaiverExpiryOnFindings now today db₁).1.findings.get? findingId =
      some (if f₁.ownWaiverExpired today then f₁.reopenOwn now else f₁) := by
    simp only [enforceWaiverExpiryOnFindings, Table.get?_mapRows, hf₁, Option.map_some]
  have hstatus : f₁.status = .riskAccepted ↔ f.status = .riskAccepted ∧
      (cfg.decisionLedgerEnabled = true → ¬ OldWaiverLinked db today findingId) := by
    by_cases hdue : f.status = .riskAccepted ∧ cfg.decisionLedgerEnabled = true ∧
        OldWaiverLinked db today findingId
    · rw [hre.opened hdue]
      exact iff_of_false (by decide) fun h' => h'.2 hdue.2.1 hdue.2.2
    · rw [hre.kept hdue]
      exact ⟨fun hs => ⟨hs, fun hen hl => hdue ⟨hs, hen, hl⟩⟩, And.left⟩
  refine ⟨_, hget, ?_⟩
  split_ifs with hown
  · obtain ⟨-, hexp⟩ := (ownWaiverExpired_iff f₁).mp hown
    refine ⟨hre.sameSubject.trans ⟨rfl, rfl, rfl, rfl, rfl, rfl⟩, hre.attestation,
      (latestHumanEdit_reopenOwn f₁).trans hre.edits, iff_of_false (by simp [Finding.reopenOwn])
        fun h' => ?_⟩
    rw [hre.attestation, h'.2.2] at hexp
    cases hexp
  · refine ⟨hre.sameSubject, hre.attestation, hre.edits, ?_⟩
    rw [ownWaiverExpired_iff, hre.attestation] at hown
    rw [← and_assoc, ← hstatus]
    refine ⟨fun hs => ⟨hs, ?_⟩, And.left⟩
    simpa using fun hexp => hown ⟨hs, hexp⟩

theorem sameEdits_expireEach {ds : List TriageDecision} {db db' : Db}
    (h : ds.foldlM (expireDecision now) db = some db') : SameEdits db.findings db'.findings := by
  induction ds generalizing db with
  | nil =>
    cases h
    exact .refl _
  | cons d ds ih =>
    rw [List.foldlM_cons] at h
    obtain ⟨db₁, hd, h⟩ := Option.bind_eq_some_iff.mp h
    obtain ⟨revisions, rev, -, -, -, -, rfl⟩ := expireDecision_cases hd
    refine SameEdits.trans ?_ (ih h)
    exact sameEdits_reopenLinked now _ _ { db with
      decisions := db.decisions.update d.id (TriageDecision.expire now)
        (TriageDecision.keepsKeys_expire now)
      revisions := revisions } _

/-- The job writes no edit of a person. -/
theorem sameEdits_enforceWaiverExpiry {db db' : Db} {n : ℕ}
    (h : enforceWaiverExpiry cfg now today db = some (db', n)) :
    SameEdits db.findings db'.findings := by
  obtain ⟨db₁, hoff, hon, rfl⟩ := enforceWaiverExpiry_cases h
  have hledger : SameEdits db.findings db₁.findings := by
    cases henabled : cfg.decisionLedgerEnabled with
    | false =>
      rw [hoff henabled]
      exact .refl _
    | true => exact sameEdits_expireEach (hon henabled)
  refine hledger.trans (sameEdits_of_map rfl fun f => ?_)
  split_ifs
  · exact ⟨rfl, latestHumanEdit_reopenOwn f⟩
  · exact ⟨rfl, rfl⟩

/-- The decision that governs a finding is still the same after the job, unless it expired. -/
theorem enforceWaiverExpiry_governing {db db' : Db} {n : ℕ}
    (h : enforceWaiverExpiry cfg now today db = some (db', n)) {f f' : Finding}
    (hff : SameSubject f f') {d : TriageDecision} {matched : DecisionSubjectCandidate}
    {parserId : Option Str} (hg : governingDecision cfg db f parserId = some (d, matched))
    (hd : attestationExpired d.attestation today = false) (findingId : Str) :
    governingDecision cfg db' f' parserId = some (d, matched) ∧
      linkApplied db' d.id findingId = linkApplied db d.id findingId := by
  obtain ⟨db₁, hoff, hon, rfl⟩ := enforceWaiverExpiry_cases h
  have hkept : d.id ∉ (expiredWaivers db today).map TriageDecision.id := by
    intro hmem
    obtain ⟨e, he, heid⟩ := List.mem_map.mp hmem
    obtain ⟨hrow, hexp⟩ := List.mem_filter.mp he
    obtain rfl := Table.eq_of_pk hrow (governingDecision_mem hg) heid
    have := (of_decide_eq_true hexp).2.2
    rw [hd] at this
    cases this
  obtain ⟨ids, hids, hframe⟩ : ∃ ids, d.id ∉ ids ∧ ExpiryFrame db db₁ ids findingId := by
    cases henabled : cfg.decisionLedgerEnabled with
    | false => exact ⟨[], by simp, hoff henabled ▸ .refl db findingId⟩
    | true => exact ⟨_, hkept, expireEach_frame (hon henabled) findingId⟩
  obtain ⟨u, hu, hdec, hkeep⟩ := hframe.decisions
  refine ⟨?_, hframe.applied d.id hids⟩
  have hgov := @governingDecision_mapRows _ f f' hff db
    (enforceWaiverExpiryOnFindings now today db₁).1 u hu hdec hframe.aliases.1 hframe.aliases.2 cfg
    parserId
  rw [hgov, hg, Option.map_some, (hkeep d).1 hids]

/-- No risk-accepted decision has an expired attestation. -/
def DecisionsUnexpired (today : Str) (db : Db) : Prop :=
  ∀ d ∈ db.decisions.rows, d.status = .riskAccepted → attestationExpired d.attestation today = false

omit [Unicode] [UuidSource] in
theorem attestation_isSome_of_expired {att : Option JsonObject}
    (h : attestationExpired att today = true) : att.isSome = true := by
  cases att with
  | none => exact absurd h Bool.false_ne_true
  | some => rfl

omit [Unicode] in
/-- The job leaves no expired waiver in the ledger. -/
theorem enforceWaiverExpiry_decisions {db db' : Db} {n : ℕ}
    (henabled : cfg.decisionLedgerEnabled = true)
    (h : enforceWaiverExpiry cfg now today db = some (db', n)) : DecisionsUnexpired today db' := by
  obtain ⟨db₁, -, hon, rfl⟩ := enforceWaiverExpiry_cases h
  obtain ⟨u, hu, hdec, hkeep⟩ := (expireEach_frame (hon henabled) []).decisions
  intro e he hstatus
  obtain ⟨d, hd, rfl⟩ := List.mem_map.mp (show e ∈ db.decisions.rows.map u from
    Table.rows_mapRows db.decisions u hu ▸ hdec ▸ he)
  by_cases hid : d.id ∈ (expiredWaivers db today).map TriageDecision.id
  · rw [(hkeep d).2 hid] at hstatus
    cases hstatus
  · rw [(hkeep d).1 hid] at hstatus ⊢
    by_contra hexp
    rw [Bool.not_eq_false] at hexp
    exact hid (List.mem_map_of_mem (List.mem_filter.mpr
      ⟨hd, decide_eq_true ⟨hstatus, attestation_isSome_of_expired hexp, hexp⟩⟩))

/-! ### Success -/

omit [Unicode] in
theorem expireDecision_succeeds {db : Db} (hc : RevisionHistoryComplete db) {d : TriageDecision}
    (hd : d ∈ db.decisions.rows) : ∃ db', expireDecision now db d = some db' := by
  obtain ⟨db₁, hadd⟩ := @addRevision_succeeds _ now waiverExpiryActor (some (str "waiver_expired")) db
    hc d hd (db.decisions.update d.id (TriageDecision.expire now)
      (TriageDecision.keepsKeys_expire now)) (d.expire now) rfl rfl
  exact ⟨_, Option.bind_eq_some_iff.mpr ⟨db₁, hadd, rfl⟩⟩

omit [Unicode] in
theorem expireEach_succeeds {ds : List TriageDecision} {db : Db} (hc : RevisionHistoryComplete db)
    (hmem : ∀ d ∈ ds, d ∈ db.decisions.rows) (hnodup : (ds.map TriageDecision.id).Nodup) :
    ∃ db', ds.foldlM (expireDecision now) db = some db' := by
  induction ds generalizing db with
  | nil => exact ⟨db, rfl⟩
  | cons d ds ih =>
    obtain ⟨db₁, hd⟩ := @expireDecision_succeeds _ now db hc d (hmem d List.mem_cons_self)
    obtain ⟨hcomplete, hkeep⟩ := expireDecision_keeps hc hmem hnodup hd
    obtain ⟨db', hrest⟩ := ih hcomplete hkeep (List.nodup_cons.mp hnodup).2
    exact ⟨db', by rw [List.foldlM_cons, hd]; exact hrest⟩

omit [Unicode] in
/-- The job succeeds over complete histories. -/
theorem enforceWaiverExpiry_succeeds {db : Db} (hc : RevisionHistoryComplete db) :
    ∃ r, enforceWaiverExpiry cfg now today db = some r := by
  suffices h : ∃ r, expireDecisionWaivers cfg now today db = some r by
    obtain ⟨r, hr⟩ := h
    exact ⟨_, Option.bind_eq_some_iff.mpr ⟨r, hr, rfl⟩⟩
  unfold expireDecisionWaivers
  split_ifs
  · exact ⟨_, rfl⟩
  · obtain ⟨db', h⟩ := @expireEach_succeeds _ now _ db hc
      (fun d hd => List.mem_of_mem_filter hd)
      (db.decisions.pk_nodup.sublist (List.filter_sublist.map _))
    exact ⟨_, Option.bind_eq_some_iff.mpr ⟨db', h, rfl⟩⟩

end Effects

end Vat
