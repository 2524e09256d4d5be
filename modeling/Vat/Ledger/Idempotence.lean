import Vat.Ledger.NewerWork

/-!
# Applying the ledger twice

A resolve reads what earlier resolves wrote: the link with the version it applied, and the stamp
of the decision's row, which its own bookkeeping moves. A finding is at rest when another resolve
would not write onto it (`AtRest`); a resolve brings its finding to rest exactly when its turn was
settling (`SettlingTurn`), and the resolves of other findings do not disturb it.

## Main definitions

* `SettlingTurn`: the condition on a first resolve.
* `AtRest`, `Visited`: what a resolve leaves for its finding.
* `PresentDb`: a database without audit stamps from the future.

## Main results

* `atRest_relink_iff`: a resolve settles its finding exactly when the condition holds.
* `atRest_resolve_ne_iff`: other resolves change nothing about it.
* `apply_twice_iff`: a second resolve, and a second reconcile, apply nothing exactly when every
  turn of the first one was settling.
-/

namespace Vat

open Relational Transition

section Twice

variable [Unicode]

/-- The condition on a resolve: its finding does not already have the status of a terminal
decision it is not linked to, and is not a decided one that differs from its terminal decision
and was edited after the last write to the decision's row. -/
def SettlingTurn (cfg : Settings) (parserId : Option Str) (db : Db) (findingId : Str) : Prop :=
  cfg.decisionLedgerEnabled = true → ∀ f d matched, db.findings.get? findingId = some f →
    governingDecision cfg db f parserId = some (d, matched) →
    d.status ∈ terminalDecisionStatuses → f.status ∉ preDecisionStatuses →
    ¬ (f.status = d.status ∧ linkApplied db d.id f.id = none ∧ 1 ≤ d.decisionVersion) ∧
    ¬ (¬ ShowsDecision f d (linkApplied db d.id f.id) ∧ findingHasNewerHumanEdit f d = true)

/-- A terminal decision of the finding shows on it, in the version of its link. -/
def AtRest (cfg : Settings) (parserId : Option Str) (db : Db) (findingId : Str) : Prop :=
  ∀ f d matched, db.findings.get? findingId = some f →
    governingDecision cfg db f parserId = some (d, matched) →
    d.status ∈ terminalDecisionStatuses →
    f.status ∉ preDecisionStatuses ∧ ShowsDecision f d (linkApplied db d.id f.id)

/-- A resolve at or after `t` has linked the finding to its decision. -/
def Visited (cfg : Settings) (parserId : Option Str) (t : Instant) (db : Db) (findingId : Str) :
    Prop :=
  ∀ f d matched, db.findings.get? findingId = some f →
    governingDecision cfg db f parserId = some (d, matched) →
    t ≤ d.updatedAt ∧ (linkApplied db d.id f.id).isSome

/-! ### What a resolve leaves for any finding -/

section Relink

variable {cfg : Settings} {now : Instant} {db : Db} {f : Finding} {d : TriageDecision}
  {matched : DecisionSubjectCandidate}

/-- Which decision governs a finding after a resolve: the same one, with the bookkeeping. -/
theorem governingDecision_relink {g h : Finding} (hgh : SameSubject g h) (parserId : Option Str) :
    governingDecision cfg (relinkDecision now db f d matched) h parserId =
      (governingDecision cfg db g parserId).map fun p =>
        (if p.1.id = d.id then p.1.touch now f.id else p.1, p.2) :=
  @governingDecision_mapRows _ g h hgh db (relinkDecision now db f d matched) _
    (KeepsKeys.ite (fun c => c.id = d.id) (TriageDecision.keepsKeys_touch now f.id) keepsKeys_id)
    rfl rfl rfl cfg parserId

/-- The row of the resolved finding after the resolve. -/
def relinkedFinding (now : Instant) (db : Db) (f : Finding) (d : TriageDecision) : Finding :=
  if relinkAction db f d = .apply then applyDecisionProjection now f d else f

theorem sameSubject_relinkedFinding (now : Instant) (db : Db) (f : Finding) (d : TriageDecision) :
    SameSubject f (relinkedFinding now db f d) := by
  unfold relinkedFinding
  split_ifs
  · exact sameSubject_projection now f d
  · exact .refl f

theorem findings_relink_self (hf : db.findings.get? f.id = some f) :
    (relinkDecision now db f d matched).findings.get? f.id = some (relinkedFinding now db f d) := by
  unfold relinkDecision relinkedFinding
  dsimp only
  split_ifs
  · rw [Table.get?_update_self, hf]
    rfl
  · exact hf

theorem findings_relink_ne {findingId : Str} (hne : findingId ≠ f.id) :
    (relinkDecision now db f d matched).findings.get? findingId =
      db.findings.get? findingId := by
  unfold relinkDecision
  dsimp only
  split_ifs
  · exact Table.get?_update_ne _ _ _ hne
  · rfl

theorem linkApplied_relink_self :
    linkApplied (relinkDecision now db f d matched) d.id f.id =
      some (if relinkAction db f d = .apply then d.decisionVersion
        else (linkApplied db d.id f.id).getD 0) :=
  appliedVersion_upsertDecisionLink now db.links d f.id matched _

theorem linkApplied_relink_ne {decisionId findingId : Str} (hne : findingId ≠ f.id) :
    linkApplied (relinkDecision now db f d matched) decisionId findingId =
      linkApplied db decisionId findingId := by
  have hkey : (decisionId, findingId) ≠ (d.id, f.id) := fun h => hne (Prod.mk.inj h).2
  exact congrArg (Option.map _) (get?_upsertDecisionLink_ne now db.links d matched _ hkey)

/-- A finding other than the resolved one is governed by the same decision, is the same row and
has the same link. -/
theorem governing_relink_ne {findingId : Str} (hne : findingId ≠ f.id) {g : Finding}
    {c : TriageDecision} {m : DecisionSubjectCandidate} {parserId : Option Str} :
    ((relinkDecision now db f d matched).findings.get? findingId = some g ∧
      governingDecision cfg (relinkDecision now db f d matched) g parserId = some (c, m)) ↔
    db.findings.get? findingId = some g ∧
      ∃ c₀, governingDecision cfg db g parserId = some (c₀, m) ∧
        c = if c₀.id = d.id then c₀.touch now f.id else c₀ := by
  rw [findings_relink_ne hne, governingDecision_relink (.refl g)]
  refine and_congr_right fun _ => ?_
  constructor
  · intro h
    obtain ⟨⟨c₀, m₀⟩, hg, heq⟩ := Option.map_eq_some_iff.mp h
    obtain ⟨rfl, rfl⟩ := Prod.mk.inj heq
    exact ⟨c₀, hg, rfl⟩
  · rintro ⟨c₀, hg, rfl⟩
    rw [hg]
    rfl

end Relink

/-! ### Rest -/

section Rest

variable {cfg : Settings} {parserId : Option Str}

omit [Unicode] in
/-- The bookkeeping of a resolve does not change what a decision asks of a finding. -/
private theorem touched_eq (now : Instant) (findingId decisionId : Str) (c : TriageDecision) :
    let c' := if c.id = decisionId then c.touch now findingId else c
    c'.id = c.id ∧ c'.status = c.status ∧ c'.decisionVersion = c.decisionVersion ∧
      (c'.updatedAt = now ∨ c'.updatedAt = c.updatedAt) := by
  dsimp only
  split_ifs
  · exact ⟨rfl, rfl, rfl, Or.inl rfl⟩
  · exact ⟨rfl, rfl, rfl, Or.inr rfl⟩

/-- The condition on a resolve that finds a decision. -/
theorem settlingTurn_iff {db : Db} {f : Finding} {d : TriageDecision}
    {matched : DecisionSubjectCandidate} (henabled : cfg.decisionLedgerEnabled = true)
    (hf : db.findings.get? f.id = some f)
    (hg : governingDecision cfg db f parserId = some (d, matched)) :
    SettlingTurn cfg parserId db f.id ↔
      (d.status ∈ terminalDecisionStatuses → f.status ∉ preDecisionStatuses →
        ¬ (f.status = d.status ∧ linkApplied db d.id f.id = none ∧ 1 ≤ d.decisionVersion) ∧
        ¬ (¬ ShowsDecision f d (linkApplied db d.id f.id) ∧
          findingHasNewerHumanEdit f d = true)) := by
  constructor
  · exact fun h => h henabled f d matched hf hg
  · intro h _ f' d' m' hf' hg'
    obtain rfl := Option.some.inj (hf.symm.trans hf')
    obtain ⟨rfl, -⟩ := Prod.mk.inj (Option.some.inj (hg.symm.trans hg'))
    exact h

/-- Rest after a resolve that finds a decision. -/
theorem atRest_relink {now : Instant} {db : Db} {f : Finding} {d : TriageDecision}
    {matched : DecisionSubjectCandidate} (hf : db.findings.get? f.id = some f)
    (hg : governingDecision cfg db f parserId = some (d, matched)) :
    AtRest cfg parserId (relinkDecision now db f d matched) f.id ↔
      (d.status ∈ terminalDecisionStatuses →
        (relinkedFinding now db f d).status ∉ preDecisionStatuses ∧
        (relinkedFinding now db f d).status = d.status ∧
        d.decisionVersion ≤ if relinkAction db f d = .apply then d.decisionVersion
          else (linkApplied db d.id f.id).getD 0) := by
  have hid : (relinkedFinding now db f d).id = f.id :=
    (sameSubject_relinkedFinding now db f d).id.symm
  have hgov : governingDecision cfg (relinkDecision now db f d matched) (relinkedFinding now db f d)
      parserId = some (d.touch now f.id, matched) := by
    rw [governingDecision_relink (sameSubject_relinkedFinding now db f d), hg]
    simp
  constructor
  · intro h hterm
    obtain ⟨hpre, hstatus, hversion⟩ := h _ _ _ (findings_relink_self hf) hgov hterm
    refine ⟨hpre, hstatus, hversion _ ?_⟩
    rw [hid]
    exact linkApplied_relink_self
  · intro h f' d' m' hf' hg' hterm
    obtain rfl := Option.some.inj ((findings_relink_self hf).symm.trans hf')
    obtain ⟨rfl, -⟩ := Prod.mk.inj (Option.some.inj (hgov.symm.trans hg'))
    obtain ⟨hpre, hstatus, hversion⟩ := h hterm
    refine ⟨hpre, hstatus, fun v hv => ?_⟩
    rw [hid] at hv
    obtain rfl := Option.some.inj (linkApplied_relink_self.symm.trans hv)
    exact hversion

/-- A resolve that finds a decision brings its finding to rest exactly when its turn is
settling. -/
theorem atRest_relink_iff {now : Instant} {db : Db} {f : Finding} {d : TriageDecision}
    {matched : DecisionSubjectCandidate} (henabled : cfg.decisionLedgerEnabled = true)
    (hf : db.findings.get? f.id = some f)
    (hg : governingDecision cfg db f parserId = some (d, matched)) :
    AtRest cfg parserId (relinkDecision now db f d matched) f.id ↔
      SettlingTurn cfg parserId db f.id := by
  rw [atRest_relink hf hg, settlingTurn_iff henabled hf hg]
  refine imp_congr_right fun hterm => ?_
  have happly := decisionApplyAction_eq_apply_iff f d (linkApplied db d.id f.id)
  rw [and_iff_right hterm] at happly
  by_cases ha : relinkAction db f d = .apply
  · -- The finding shows the decision now, and did not show it before.
    have hstatus : (relinkedFinding now db f d).status = d.status := by
      rw [relinkedFinding, if_pos ha]
      rfl
    rw [hstatus, if_pos ha]
    refine iff_of_true ⟨not_mem_preDecisionStatuses_of_terminal hterm, rfl, le_rfl⟩ fun hpre => ?_
    obtain ⟨hshow, hedit⟩ := (happly.mp ha).resolve_left hpre
    refine ⟨fun ⟨hs, hnone, _⟩ => hshow ⟨hs, fun v hv => ?_⟩, fun ⟨_, hnewer⟩ => ?_⟩
    · rw [hnone] at hv
      cases hv
    · rw [hedit] at hnewer
      cases hnewer
  · -- The finding is as it was, and linked with version zero when it had no link.
    have hkept : relinkedFinding now db f d = f := by rw [relinkedFinding, if_neg ha]
    obtain ⟨hpre, hor⟩ : f.status ∉ preDecisionStatuses ∧
        (¬ ShowsDecision f d (linkApplied db d.id f.id) → findingHasNewerHumanEdit f d = true) := by
      have := mt happly.mpr ha
      push Not at this
      exact ⟨this.1, fun hs => by simpa using this.2 hs⟩
    rw [hkept, if_neg ha]
    simp only [hpre, not_false_eq_true, true_and, forall_const]
    cases hlink : linkApplied db d.id f.id with
    | none =>
      have hshow : ShowsDecision f d none ↔ f.status = d.status := by simp [ShowsDecision]
      rw [hlink, hshow] at hor
      simp only [hshow, Option.getD_none]
      by_cases hs : f.status = d.status
      · simp [hs]
      · simp [hs, hor hs]
    | some v =>
      have hshow : ShowsDecision f d (some v) ↔ f.status = d.status ∧ d.decisionVersion ≤ v := by
        simp [ShowsDecision]
      rw [hlink, hshow] at hor
      simp only [hshow, Option.getD_some]
      by_cases hs : f.status = d.status ∧ d.decisionVersion ≤ v
      · simp [hs]
      · simp [hs, hor hs]

/-- A resolve brings its finding to rest exactly when its turn is settling. -/
theorem atRest_resolve_iff (henabled : cfg.decisionLedgerEnabled = true) (now : Instant) (db : Db)
    (findingId : Str) :
    AtRest cfg parserId (resolveAndApplyDecision cfg now db findingId parserId).1 findingId ↔
      SettlingTurn cfg parserId db findingId := by
  rcases resolveAndApplyDecision_cases cfg now db findingId parserId with
    ⟨heq, hnone⟩ | ⟨f, d, matched, -, hf, hg, heq⟩
  · rw [heq]
    exact iff_of_true (fun f d m hf hg => absurd hg (hnone f d m henabled hf))
      fun _ f d m hf hg => absurd hg (hnone f d m henabled hf)
  · obtain rfl : f.id = findingId := Table.pk_of_get? hf
    rw [heq]
    exact atRest_relink_iff henabled hf hg

/-- A resolve links its finding. -/
theorem visited_resolve (henabled : cfg.decisionLedgerEnabled = true) (now : Instant) (db : Db)
    (findingId : Str) :
    Visited cfg parserId now (resolveAndApplyDecision cfg now db findingId parserId).1 findingId := by
  rcases resolveAndApplyDecision_cases cfg now db findingId parserId with
    ⟨heq, hnone⟩ | ⟨f, d, matched, -, hf, hg, heq⟩
  · rw [heq]
    exact fun f d m hf hg => absurd hg (hnone f d m henabled hf)
  · obtain rfl : f.id = findingId := Table.pk_of_get? hf
    rw [heq]
    intro f' d' m' hf' hg'
    obtain rfl := Option.some.inj ((findings_relink_self hf).symm.trans hf')
    rw [governingDecision_relink (sameSubject_relinkedFinding now db f d), hg] at hg'
    obtain ⟨rfl, -⟩ := Prod.mk.inj (Option.some.inj hg')
    rw [if_pos rfl, ← (sameSubject_relinkedFinding now db f d).id]
    exact ⟨le_rfl, Option.isSome_of_eq_some linkApplied_relink_self⟩

/-- Resolves of other findings do not change whether a finding is at rest. -/
theorem atRest_resolve_ne_iff {now : Instant} {db : Db} {findingId other : Str}
    (hne : findingId ≠ other) :
    AtRest cfg parserId (resolveAndApplyDecision cfg now db other parserId).1 findingId ↔
      AtRest cfg parserId db findingId := by
  rcases resolveAndApplyDecision_cases cfg now db other parserId with
    ⟨heq, -⟩ | ⟨f, d, matched, -, hf, -, heq⟩
  · rw [heq]
  · obtain rfl : f.id = other := Table.pk_of_get? hf
    rw [heq]
    constructor
    · intro h g c m hgf hg hterm
      obtain ⟨hid, hstatus, hversion, -⟩ := touched_eq now f.id d.id c
      obtain ⟨hgf', hg'⟩ := (governing_relink_ne hne).mpr ⟨hgf, c, hg, rfl⟩
      have hrest := h g _ m hgf' hg' (hstatus ▸ hterm)
      have hgid : g.id = findingId := Table.pk_of_get? hgf
      rwa [hid, linkApplied_relink_ne (hgid ▸ hne), ShowsDecision, hstatus, hversion] at hrest
    · intro h g c m hgf hg hterm
      obtain ⟨hgf', c₀, hg', rfl⟩ := (governing_relink_ne hne).mp ⟨hgf, hg⟩
      obtain ⟨hid, hstatus, hversion, -⟩ := touched_eq now f.id d.id c₀
      have hrest := h g c₀ m hgf' hg' (hstatus ▸ hterm)
      have hgid : g.id = findingId := Table.pk_of_get? hgf'
      rwa [hid, linkApplied_relink_ne (hgid ▸ hne), ShowsDecision, hstatus, hversion]

/-- Resolves of other findings keep a finding visited. -/
theorem Visited.resolve_ne {t now : Instant} (htime : t ≤ now) {db : Db} {findingId other : Str}
    (hne : findingId ≠ other) (h : Visited cfg parserId t db findingId) :
    Visited cfg parserId t (resolveAndApplyDecision cfg now db other parserId).1 findingId := by
  rcases resolveAndApplyDecision_cases cfg now db other parserId with
    ⟨heq, -⟩ | ⟨f, d, matched, -, hf, -, heq⟩
  · rwa [heq]
  · obtain rfl : f.id = other := Table.pk_of_get? hf
    rw [heq]
    intro g c m hgf hg
    obtain ⟨hgf', c₀, hg', rfl⟩ := (governing_relink_ne hne).mp ⟨hgf, hg⟩
    obtain ⟨hid, -, -, hstamp⟩ := touched_eq now f.id d.id c₀
    obtain ⟨hle, hlink⟩ := h g c₀ m hgf' hg'
    have hgid : g.id = findingId := Table.pk_of_get? hgf'
    refine ⟨?_, ?_⟩
    · rcases hstamp with hstamp | hstamp <;> rw [hstamp]
      · exact htime
      · exact hle
    · rwa [hid, linkApplied_relink_ne (hgid ▸ hne)]

/-! ### A second resolve -/

/-- No audit entry of a person is stamped after `t`. -/
def Present (t : Instant) (findings : Table Finding) : Prop :=
  ∀ f ∈ findings.rows, ∀ ts, latestHumanEdit f.audit = some ts → ts ≤ t

theorem Present.of_sameEdits {t : Instant} {a b : Table Finding} (h : Present t a)
    (hs : SameEdits a b) : Present t b := by
  intro f hf ts hts
  obtain ⟨g, hg, -, hstamp⟩ := hs.mem hf
  exact h g hg ts (hstamp.trans hts)

theorem sameEdits_resolve (cfg : Settings) (now : Instant) (db : Db) (findingId : Str)
    (parserId : Option Str) :
    SameEdits db.findings (resolveAndApplyDecision cfg now db findingId parserId).1.findings := by
  rcases resolveAndApplyDecision_cases cfg now db findingId parserId with
    ⟨heq, -⟩ | ⟨f, d, matched, -, -, -, heq⟩
  · rw [heq]
    exact .refl _
  · rw [heq]
    exact sameEdits_relink now db f d matched

/-- A resolve that applies nothing leaves the findings as they are. -/
theorem findings_of_not_applied {now : Instant} {db : Db} {findingId : Str}
    (h : (resolveAndApplyDecision cfg now db findingId parserId).2.applied = false) :
    (resolveAndApplyDecision cfg now db findingId parserId).1.findings = db.findings := by
  rcases resolveAndApplyDecision_cases cfg now db findingId parserId with
    ⟨heq, -⟩ | ⟨f, d, matched, -, -, -, heq⟩
  · rw [heq]
  · rw [heq] at h ⊢
    exact if_neg (of_decide_eq_false h)

/-- A finding that was visited is not written to exactly when it is at rest. -/
theorem not_applied_iff_atRest {t now : Instant} {db : Db} {findingId : Str}
    (henabled : cfg.decisionLedgerEnabled = true) (hpresent : Present t db.findings)
    (hvisited : Visited cfg parserId t db findingId) :
    (resolveAndApplyDecision cfg now db findingId parserId).2.applied = false ↔
      AtRest cfg parserId db findingId := by
  rcases resolveAndApplyDecision_cases cfg now db findingId parserId with
    ⟨heq, hnone⟩ | ⟨f, d, matched, -, hf, hg, heq⟩
  · rw [heq]
    exact iff_of_true rfl fun f d m hf hg => absurd hg (hnone f d m henabled hf)
  · have hrest : AtRest cfg parserId db findingId ↔
        (d.status ∈ terminalDecisionStatuses → f.status ∉ preDecisionStatuses ∧
          ShowsDecision f d (linkApplied db d.id f.id)) := by
      constructor
      · exact fun h => h f d matched hf hg
      · intro h f' d' m' hf' hg'
        obtain rfl := Option.some.inj (hf.symm.trans hf')
        obtain ⟨rfl, -⟩ := Prod.mk.inj (Option.some.inj (hg.symm.trans hg'))
        exact h
    -- The row of the decision was last written after every edit of the finding.
    have hnewer : findingHasNewerHumanEdit f d = false := by
      unfold findingHasNewerHumanEdit
      cases hl : latestHumanEdit f.audit with
      | none => rfl
      | some ts =>
        have hle : ts ≤ d.updatedAt :=
          (hpresent f (Table.mem_of_get? hf) ts hl).trans (hvisited f d matched hf hg).1
        exact decide_eq_false (not_lt.mpr hle)
    rw [heq, hrest]
    change decide (relinkAction db f d = .apply) = false ↔ _
    rw [decide_eq_false_iff_not, relinkAction, decisionApplyAction_eq_apply_iff, hnewer]
    tauto

/-- The second of two resolves of a finding applies nothing exactly when the first was settling. -/
theorem resolve_twice_iff {t now : Instant} {db : Db} (findingId : Str)
    (henabled : cfg.decisionLedgerEnabled = true) (hpresent : Present t db.findings) :
    let first := resolveAndApplyDecision cfg t db findingId parserId
    let second := resolveAndApplyDecision cfg now first.1 findingId parserId
    (second.2.applied = false ∧ second.1.findings = first.1.findings) ↔
      SettlingTurn cfg parserId db findingId := by
  intro first second
  have hiff := @not_applied_iff_atRest _ cfg parserId t now first.1 findingId henabled
    (hpresent.of_sameEdits (sameEdits_resolve cfg t db findingId parserId))
    (visited_resolve henabled t db findingId)
  rw [← atRest_resolve_iff henabled t db findingId, ← hiff]
  exact ⟨And.left, fun h => ⟨h, findings_of_not_applied h⟩⟩

/-! ### A second reconcile -/

theorem sameEdits_resolveEach (cfg : Settings) (now : Instant) (db : Db) (ids : List Str) :
    SameEdits db.findings (resolveEach cfg now db ids).1.findings := by
  induction ids generalizing db with
  | nil => exact .refl _
  | cons findingId ids ih => exact (sameEdits_resolve cfg now db findingId none).trans (ih _)

theorem atRest_resolveEach_iff {now : Instant} {db : Db} {findingId : Str} {ids : List Str}
    (hid : findingId ∉ ids) :
    AtRest cfg none (resolveEach cfg now db ids).1 findingId ↔ AtRest cfg none db findingId := by
  induction ids generalizing db with
  | nil => rfl
  | cons other ids ih =>
    rw [List.mem_cons, not_or] at hid
    exact (ih hid.2).trans (atRest_resolve_ne_iff hid.1)

theorem Visited.resolveEach {t now : Instant} (htime : t ≤ now) {db : Db} {findingId : Str}
    {ids : List Str} (hid : findingId ∉ ids) (h : Visited cfg none t db findingId) :
    Visited cfg none t (resolveEach cfg now db ids).1 findingId := by
  induction ids generalizing db with
  | nil => exact h
  | cons other ids ih =>
    rw [List.mem_cons, not_or] at hid
    exact ih hid.2 (h.resolve_ne htime hid.1)

/-- A first pass brings all its findings to rest exactly when every turn is settling. -/
theorem first_pass_iff (henabled : cfg.decisionLedgerEnabled = true) (t : Instant) (db : Db)
    {ids : List Str} (hnodup : ids.Nodup) :
    (∀ i ∈ ids, AtRest cfg none (resolveEach cfg t db ids).1 i) ↔
      Along (fun db i => (resolveAndApplyDecision cfg t db i none).1) (SettlingTurn cfg none) db
        ids := by
  induction ids generalizing db with
  | nil => simp
  | cons i ids ih =>
    rw [List.nodup_cons] at hnodup
    rw [List.forall_mem_cons, along_cons, ← ih _ hnodup.2, ← atRest_resolve_iff henabled t db i]
    exact and_congr_left fun _ => atRest_resolveEach_iff hnodup.1

theorem visited_first_pass (henabled : cfg.decisionLedgerEnabled = true) (t : Instant) (db : Db)
    {ids : List Str} (hnodup : ids.Nodup) :
    ∀ i ∈ ids, Visited cfg none t (resolveEach cfg t db ids).1 i := by
  induction ids generalizing db with
  | nil => simp
  | cons i ids ih =>
    rw [List.nodup_cons] at hnodup
    have hi : Visited cfg none t
        (resolveEach cfg t (resolveAndApplyDecision cfg t db i none).1 ids).1 i :=
      (visited_resolve henabled t db i).resolveEach le_rfl hnodup.1
    exact List.forall_mem_cons.mpr ⟨hi, ih _ hnodup.2⟩

/-- A second pass applies nothing exactly when all its findings are at rest. -/
theorem second_pass_iff {t now : Instant} (htime : t ≤ now)
    (henabled : cfg.decisionLedgerEnabled = true) {db : Db} (hpresent : Present t db.findings)
    {ids : List Str} (hnodup : ids.Nodup) (hvisited : ∀ i ∈ ids, Visited cfg none t db i) :
    ((∀ r ∈ (resolveEach cfg now db ids).2, r.applied = false) ↔ ∀ i ∈ ids, AtRest cfg none db i) ∧
      ((∀ r ∈ (resolveEach cfg now db ids).2, r.applied = false) →
        (resolveEach cfg now db ids).1.findings = db.findings) := by
  induction ids generalizing db with
  | nil => exact ⟨by simp [resolveEach], fun _ => rfl⟩
  | cons i ids ih =>
    rw [List.nodup_cons] at hnodup
    obtain ⟨hi, hids⟩ := List.forall_mem_cons.mp hvisited
    obtain ⟨hiff, hsame⟩ := ih (hpresent.of_sameEdits (sameEdits_resolve cfg now db i none)) hnodup.2
      fun j hj => (hids j hj).resolve_ne htime (ne_of_mem_of_not_mem hj hnodup.1)
    have hrest : (∀ j ∈ ids, AtRest cfg none (resolveAndApplyDecision cfg now db i none).1 j) ↔
        ∀ j ∈ ids, AtRest cfg none db j :=
      forall₂_congr fun j hj => atRest_resolve_ne_iff (ne_of_mem_of_not_mem hj hnodup.1)
    simp only [resolveEach, List.forall_mem_cons]
    refine ⟨?_, fun h => (hsame h.2).trans (findings_of_not_applied h.1)⟩
    rw [hiff, hrest, not_applied_iff_atRest henabled hpresent hi]

omit [Unicode] in
theorem scannedIds_nodup (db : Db) (tenantId : Option Str) (crossTenant : Bool) (limit : ℕ) :
    (scannedIds db tenantId crossTenant limit).Nodup := by
  have hids : (db.findings.rows.map Finding.id).Nodup := db.findings.pk_nodup
  unfold scannedIds
  dsimp only
  split_ifs
  · exact List.nodup_nil.sublist (List.take_sublist _ _)
  · exact hids.sublist (List.take_sublist _ _)
  · exact List.nodup_nil
  · exact hids

/-- A reconcile scans the same findings when only their fields were written. -/
theorem SameEdits.scannedIds {db db' : Db} (h : SameEdits db.findings db'.findings)
    (tenantId : Option Str) (crossTenant : Bool) (limit : ℕ) :
    scannedIds db' tenantId crossTenant limit = scannedIds db tenantId crossTenant limit := by
  have hids : db'.findings.rows.map Finding.id = db.findings.rows.map Finding.id := by
    have hfst := congrArg (List.map Prod.fst) h
    rw [List.map_map, List.map_map] at hfst
    exact hfst
  rw [Vat.scannedIds, Vat.scannedIds, hids]

/-- The second of two reconciles applies nothing exactly when every turn of the first was
settling. -/
theorem reconcile_twice_iff {t now : Instant} (htime : t ≤ now) {db : Db}
    (hpresent : Present t db.findings) (tenantId : Option Str) (crossTenant : Bool) (limit : ℕ) :
    let first := reconcileDecisionLinks cfg t db tenantId crossTenant limit
    let second := reconcileDecisionLinks cfg now first.1 tenantId crossTenant limit
    (second.2.applied = 0 ∧ second.1.findings = first.1.findings) ↔
      Along (fun db i => (resolveAndApplyDecision cfg t db i none).1) (SettlingTurn cfg none) db
        (scannedIds db tenantId crossTenant limit) := by
  intro first second
  cases henabled : cfg.decisionLedgerEnabled with
  | false =>
    have hdone : ∀ now db, reconcileDecisionLinks cfg now db tenantId crossTenant limit =
        (db, ⟨0, 0, 0, 0⟩) := fun now db => by simp [reconcileDecisionLinks, henabled]
    have halong : ∀ ids db, Along (fun db i => (resolveAndApplyDecision cfg t db i none).1)
        (SettlingTurn cfg none) db ids := by
      intro ids
      induction ids with
      | nil => exact fun _ => trivial
      | cons i ids ih => exact fun db => ⟨fun h => by simp [henabled] at h, ih _⟩
    refine iff_of_true ?_ (halong _ _)
    simp only [second, first, hdone, and_self]
  | true =>
    have hrun : ∀ now db, reconcileDecisionLinks cfg now db tenantId crossTenant limit =
        ((resolveEach cfg now db (scannedIds db tenantId crossTenant limit)).1,
          reconcileCounts (resolveEach cfg now db (scannedIds db tenantId crossTenant limit)).2) :=
      fun now db => by simp [reconcileDecisionLinks, henabled]
    have hnodup := scannedIds_nodup db tenantId crossTenant limit
    obtain ⟨hiff, hsame⟩ := second_pass_iff htime henabled
      (hpresent.of_sameEdits (sameEdits_resolveEach cfg t db _)) hnodup
      (visited_first_pass henabled t db hnodup)
    rw [← first_pass_iff henabled t db hnodup, ← hiff]
    simp only [second, first, hrun, (sameEdits_resolveEach cfg t db _).scannedIds, reconcileCounts, List.countP_eq_zero,
      Bool.not_eq_true]
    exact ⟨And.left, fun h => ⟨h, hsame h⟩⟩

end Rest

/-! ### The databases of runs -/

/-- A database in which no audit entry of a person is stamped after the present. -/
structure PresentDb (t : Instant) where
  db : Db
  present : Present t db.findings

/-- In a run no edit is stamped after the clock. -/
theorem Traced.present {w : World} (h : Traced w) : Present w.clock w.db.findings := by
  intro f hf ts hts
  rw [h.audit f hf] at hts
  obtain ⟨edit, hedit, rfl⟩ := Option.map_eq_some_iff.mp hts
  exact (floorSecond_le edit).trans (h.past f.id edit (mem_of_lastEdit hedit))

/-- A second resolve of a finding applies nothing and leaves all findings as they are exactly when
the first one was settling, and a second reconcile exactly when every turn of the first one was. -/
theorem apply_twice_iff (cfg : Settings) (t after : Instant) (start : PresentDb t) :
    (∀ findingId parserId,
      let first := resolveAndApplyDecision cfg t start.db findingId parserId
      let second := resolveAndApplyDecision cfg (t + after) first.1 findingId parserId
      (second.2.applied = false ∧ second.1.findings = first.1.findings) ↔
        SettlingTurn cfg parserId start.db findingId) ∧
    ∀ tenantId crossTenant limit,
      let first := reconcileDecisionLinks cfg t start.db tenantId crossTenant limit
      let second := reconcileDecisionLinks cfg (t + after) first.1 tenantId crossTenant limit
      (second.2.applied = 0 ∧ second.1.findings = first.1.findings) ↔
        Along (fun db i => (resolveAndApplyDecision cfg t db i none).1) (SettlingTurn cfg none)
          start.db (scannedIds start.db tenantId crossTenant limit) := by
  refine ⟨fun findingId parserId => ?_, fun tenantId crossTenant limit =>
    reconcile_twice_iff (Nat.le_add_right t after) start.present tenantId crossTenant limit⟩
  cases henabled : cfg.decisionLedgerEnabled with
  | false => simp [resolveAndApplyDecision, SettlingTurn, henabled, DecisionApplyResult.unresolved]
  | true => exact resolve_twice_iff findingId henabled start.present

end Twice

section Conflict

attribute [local instance] asciiUnicode longestIds

/-- A false positive, then an accepted risk, reverted to the false positive. -/
def conflictRun : List TimedOp :=
  [⟨1000000, .edit (str "f-1")
      { FindingUpdate.none with status := some (some (str "False Positive")) } (str "alice")⟩,
    ⟨60000000, .edit (str "f-1")
      { FindingUpdate.none with status := some (some (str "Risk Accepted")) } (str "alice")⟩,
    ⟨60000000, .revert (str "f-1") (str "still a false positive") (str "bob")⟩,
    ⟨60000000, .unlink []⟩]

/-- The first resolve answers conflict, the second applies the decision. -/
theorem second_resolve_applies_conflict :
    let w := run (World.step ⟨true, []⟩)
      (World.start (Db.ofFindings (.singleton openFinding)) 0) conflictRun
    let first := resolveAndApplyDecision ⟨true, []⟩ w.clock w.db (str "f-1") none
    let second := resolveAndApplyDecision ⟨true, []⟩ (w.clock + 1) first.1 (str "f-1") none
    first.2.conflict = true ∧ second.2.applied = true ∧
      first.1.findings.rows.map Finding.status = [.falsePositive] ∧
      second.1.findings.rows.map Finding.status = [.riskAccepted] := by
  decide +kernel

end Conflict

end Vat
