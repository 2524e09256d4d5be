import Vat.Ingest.Merge
import Vat.Ledger.Idempotence
import Vat.Relational.Batch

/-!
# The second turn of the ledger

Between two turns of the ledger on a finding its row is merged with a payload, which writes at most
its status. Where the first turn was settling, the second one applies the decision exactly if the
merge has changed what the row shows of it, and then writes what the first one wrote.

Source: `backend/app/services/decision_ledger.py`, lines 208–414; `backend/app/services/ingest.py`,
lines 517–529.

## Main definitions

* `Db.lasting`: a database without audit trails and what says when something was last seen.
* `Rested`: what a settling turn leaves.

## Main results

* `governingDecision_details`: the decision of a finding depends on its details.
* `lasting_resolve_again`: a settling resolve, a merge and a second resolve.
-/

namespace Vat

open Relational Transition

/-! ### What lasts -/

/-- A decision without the times of its last application. -/
def TriageDecision.lasting (d : TriageDecision) : TriageDecision :=
  { d with
    lastAppliedAt := none
    updatedAt := 0 }

/-- A link without the time when it was last written. -/
def DecisionFindingLink.lasting (l : DecisionFindingLink) : DecisionFindingLink :=
  { l with linkedAt := 0 }

theorem Finding.keepsKeys_lasting : KeepsKeys Finding.lasting := fun _ => ⟨rfl, rfl⟩

theorem TriageDecision.keepsKeys_lasting : KeepsKeys TriageDecision.lasting := fun _ => ⟨rfl, rfl⟩

theorem DecisionFindingLink.keepsKeys_lasting : KeepsKeys DecisionFindingLink.lasting :=
  fun _ => ⟨rfl, rfl⟩

/-- A database without audit trails, audit events and the times of what was last seen. -/
def Db.lasting (db : Db) : Db :=
  { db with
    findings := db.findings.mapRows Finding.lasting Finding.keepsKeys_lasting
    decisions := db.decisions.mapRows TriageDecision.lasting TriageDecision.keepsKeys_lasting
    links := db.links.mapRows DecisionFindingLink.lasting DecisionFindingLink.keepsKeys_lasting
    auditEvents := [] }

/-- A database whose findings are replaced. -/
def Db.withFindings (db : Db) (findings : Table Finding) : Db := { db with findings := findings }

section SecondTurn

variable [Unicode]

/-! ### The decision of a merged row -/

omit [Unicode] in
theorem sourceLinkFields_lasting (f : Finding) : sourceLinkFields f.lasting = sourceLinkFields f := by
  have hkind : ∀ l : ExternalLink, l.lasting.kind = l.kind := by
    intro l
    unfold ExternalLink.lasting
    split_ifs <;> rfl
  have hread : ∀ l : ExternalLink,
      (l.lasting.adapterKey, l.lasting.issueId) = (l.adapterKey, l.issueId) := by
    intro l
    unfold ExternalLink.lasting
    split_ifs <;> rfl
  unfold sourceLinkFields
  have hlinks : f.lasting.externalLinks = f.externalLinks.map ExternalLink.lasting := rfl
  rw [hlinks, List.find?_map]
  have hpred : ((fun l : ExternalLink => decide (l.kind = str "source")) ∘ ExternalLink.lasting) =
      fun l => decide (l.kind = str "source") := funext fun l => by rw [Function.comp_apply, hkind]
  rw [hpred]
  cases f.externalLinks.find? fun l => decide (l.kind = str "source") with
  | none => rfl
  | some l =>
    obtain ⟨hadapter, hissue⟩ := Prod.mk.inj (hread l)
    simp only [Option.map_some, hadapter, hissue]

/-- The decision that governs a finding depends on its details and on no other finding. -/
theorem governingDecision_details {f g : Finding} (hdetails : g.details.lasting = f.details.lasting)
    (cfg : Settings) (db : Db) (findings : Table Finding) (parserId : Option Str) :
    governingDecision cfg (db.withFindings findings) g parserId =
      governingDecision cfg db f parserId := by
  have hview : ∀ (db : Db) (r : Finding),
      governingDecision cfg db r parserId = governingDecision cfg db r.details.lasting parserId := by
    intro db r
    have hlinks : sourceLinkFields r.details.lasting = sourceLinkFields r :=
      sourceLinkFields_lasting r.details
    unfold governingDecision candidatesForFinding
    rw [hlinks]
    rfl
  have hdb : ∀ r : Finding, governingDecision cfg (db.withFindings findings) r parserId =
      governingDecision cfg db r parserId := by
    intro r
    have hrows : (db.withFindings findings).decisions = db.decisions.mapRows id keepsKeys_id :=
      Table.ext (List.map_id _).symm
    rw [governingDecision_mapRows (.refl r) hrows rfl rfl]
    exact Option.map_id'
  rw [hdb, hview, hdetails, ← hview]

/-! ### The second turn of the ledger -/

/-- What a link shows of the candidate and the version that it is written with. -/
def DecisionFindingLink.relinked (now : Instant) (candidate : DecisionSubjectCandidate) (version : ℕ)
    (l : DecisionFindingLink) : DecisionFindingLink :=
  { l with
    linkMethod := candidate.kind
    linkConfidence := candidate.confidence
    appliedDecisionVersion := version
    linkedAt := now
    unlinkedAt := none }

omit [Unicode] in
theorem DecisionFindingLink.keepsKeys_relinked (now : Instant) (candidate : DecisionSubjectCandidate)
    (version : ℕ) : KeepsKeys (DecisionFindingLink.relinked now candidate version) :=
  fun _ => ⟨rfl, rfl⟩

omit [Unicode] in
/-- A link written again with the same version. -/
theorem upsertDecisionLink_twice (now now' : Instant) (links : Table DecisionFindingLink)
    {d d' : TriageDecision} (hid : d'.id = d.id) (findingId : Str)
    (candidate : DecisionSubjectCandidate) (version : ℕ) :
    (upsertDecisionLink now' (upsertDecisionLink now links d findingId candidate version) d' findingId
        candidate version).mapRows DecisionFindingLink.lasting DecisionFindingLink.keepsKeys_lasting =
      (upsertDecisionLink now links d findingId candidate version).mapRows
        DecisionFindingLink.lasting DecisionFindingLink.keepsKeys_lasting := by
  have hupsert : ∀ (now : Instant) (links : Table DecisionFindingLink),
      upsertDecisionLink now links d findingId candidate version =
        links.upsert ⟨d.id, findingId, candidate.kind, candidate.confidence, version, now, none⟩
          (DecisionFindingLink.relinked now candidate version)
          (DecisionFindingLink.keepsKeys_relinked now candidate version) := fun _ _ => rfl
  have hd : upsertDecisionLink now' (upsertDecisionLink now links d findingId candidate version) d'
      findingId candidate version = upsertDecisionLink now'
        (upsertDecisionLink now links d findingId candidate version) d findingId candidate version := by
    unfold upsertDecisionLink
    rw [hid]
  have hself := Table.get?_upsert_self links
    (⟨d.id, findingId, candidate.kind, candidate.confidence, version, now, none⟩ :
      DecisionFindingLink) (DecisionFindingLink.relinked now candidate version)
    (DecisionFindingLink.keepsKeys_relinked now candidate version)
  have hthere : ((links.upsert
      (⟨d.id, findingId, candidate.kind, candidate.confidence, version, now, none⟩ :
        DecisionFindingLink) (DecisionFindingLink.relinked now candidate version)
      (DecisionFindingLink.keepsKeys_relinked now candidate version)).get?
      (Row.pk (⟨d.id, findingId, candidate.kind, candidate.confidence, version, now', none⟩ :
        DecisionFindingLink))).isSome := Option.isSome_of_eq_some hself
  rw [hd, hupsert now' (upsertDecisionLink now links d findingId candidate version), hupsert now,
    Table.upsert_of_isSome hthere]
  refine Table.mapRows_update_of_view fun r hr => ?_
  rw [Option.some.inj (hr.symm.trans hself)]
  cases links.get? _ <;> rfl

omit [Unicode] in
/-- The bookkeeping of a decision, done again. -/
theorem touch_twice (now now' : Instant) (decisions : Table TriageDecision) (id findingId : Str) :
    ((decisions.update id (TriageDecision.touch now findingId)
        (TriageDecision.keepsKeys_touch now findingId)).update id
          (TriageDecision.touch now' findingId)
          (TriageDecision.keepsKeys_touch now' findingId)).mapRows TriageDecision.lasting
        TriageDecision.keepsKeys_lasting =
      (decisions.update id (TriageDecision.touch now findingId)
        (TriageDecision.keepsKeys_touch now findingId)).mapRows TriageDecision.lasting
        TriageDecision.keepsKeys_lasting := by
  refine Table.mapRows_update_of_view fun r hr => ?_
  rw [Table.get?_update_self] at hr
  obtain ⟨r₀, -, rfl⟩ := Option.map_eq_some_iff.mp hr
  rfl

/-- A row that the rest of a decision shows, the status of which was written since. -/
structure Rested (d : TriageDecision) (v : ℕ) (f : Finding) : Prop where
  status : d.status ∈ terminalDecisionStatuses → f.status = d.status
  version : d.status ∈ terminalDecisionStatuses → d.decisionVersion ≤ v

/-- The second turn applies a decision exactly when the row shows another status again. -/
theorem second_action_iff {now : Instant} {d : TriageDecision} {v : ℕ} {f g : Finding}
    (hrest : Rested d v f) (hedits : ∀ ts, latestHumanEdit g.audit = some ts → ts ≤ now) :
    decisionApplyAction g (d.touch now g.id) (some v) = .apply ↔
      d.status ∈ terminalDecisionStatuses ∧ g.status ≠ d.status := by
  have hnewer : findingHasNewerHumanEdit g (d.touch now g.id) = false := by
    unfold findingHasNewerHumanEdit
    cases hl : latestHumanEdit g.audit with
    | none => rfl
    | some ts => exact decide_eq_false (not_lt.mpr (hedits ts hl))
  rw [decisionApplyAction_eq_apply_iff, hnewer]
  change d.status ∈ terminalDecisionStatuses ∧ _ ↔ _
  refine and_congr_right fun hterm => ?_
  have hshow : ShowsDecision g (d.touch now g.id) (some v) ↔ g.status = d.status := by
    refine and_iff_left fun w hw => ?_
    cases hw
    exact hrest.version hterm
  rw [hshow]
  simp only [and_true]
  refine or_iff_right_of_imp fun hpre heq => ?_
  rw [heq] at hpre
  exact not_mem_preDecisionStatuses_of_terminal hterm hpre

omit [Unicode] in
/-- A decision written onto a row that it was written onto before. -/
theorem lasting_projection_again (now now' : Instant) {d d' : TriageDecision} {f f₁ g : Finding}
    {status : Status} (hd : d' = d.touch now f.id) (hf₁ : f₁ = applyDecisionProjection now f d)
    (hg : g.lasting = f₁.lasting.withStatus status) :
    (applyDecisionProjection now' g d').lasting = f₁.lasting := by
  have hview : (applyDecisionProjection now' g d').lasting =
      { applyDecisionProjection 0 g.lasting d' with audit := [] } := rfl
  rw [hview, hg, hf₁, hd]
  unfold applyDecisionProjection TriageDecision.touch
  cases d.suppressionScope <;> rfl

/-- A row that is merged after a decision was written onto it, with the status it then has. -/
structure MergedAfterRelink (now : Instant) (db : Db) (f : Finding) (d : TriageDecision)
    (matched : DecisionSubjectCandidate) (merge : Finding → Finding)
    (hmerge : ∀ r, Row.pk (merge r) = Row.pk r) (findings : Table Finding) (status : Status) : Prop where
  get : db.findings.get? f.id = some f
  rested : Rested d (if relinkAction db f d = .apply then d.decisionVersion
    else (linkApplied db d.id f.id).getD 0) (relinkedFinding now db f d)
  update : (relinkDecision now db f d matched).findings.update? f.id merge hmerge = some findings
  lasting : (merge (relinkedFinding now db f d)).lasting =
    (relinkedFinding now db f d).lasting.withStatus status
  kept : relinkAction db f d ≠ .apply → status = f.status
  edits : ∀ ts, latestHumanEdit (merge (relinkedFinding now db f d)).audit = some ts → ts ≤ now

/-- The merged row is still the row of the finding. -/
theorem id_of_merge_relinked {now : Instant} {db : Db} {f g : Finding} {d : TriageDecision}
    {merge : Finding → Finding} (hmerge : ∀ r, Row.pk (merge r) = Row.pk r)
    (hg : merge (relinkedFinding now db f d) = g) : g.id = f.id := by
  have hmergeid : (merge (relinkedFinding now db f d)).id = (relinkedFinding now db f d).id :=
    hmerge _
  rw [← hg, hmergeid]
  exact (sameSubject_relinkedFinding now db f d).id.symm

namespace MergedAfterRelink

variable {now now' : Instant} {db : Db} {f g : Finding} {d : TriageDecision}
  {matched : DecisionSubjectCandidate} {merge : Finding → Finding}
  {hmerge : ∀ r, Row.pk (merge r) = Row.pk r} {findings : Table Finding} {status : Status}
  (h : MergedAfterRelink now db f d matched merge hmerge findings status)
  (hg : merge (relinkedFinding now db f d) = g)

/-- The second turn reads the version that the first one wrote. -/
theorem linkApplied_eq (now : Instant) (db : Db) (f : Finding) (d : TriageDecision)
    (matched : DecisionSubjectCandidate) (findings : Table Finding) :
    linkApplied ((relinkDecision now db f d matched).withFindings findings) d.id f.id =
      some (if relinkAction db f d = .apply then d.decisionVersion
        else (linkApplied db d.id f.id).getD 0) := linkApplied_relink_self

include h hg

theorem get_eq {r : Finding} (hr : (relinkDecision now db f d matched).findings.get? f.id = some r) :
    merge r = g := by
  rw [← hg, Option.some.inj (hr.symm.trans (findings_relink_self h.get))]

/-- When the second turn applies the decision. -/
theorem action_iff :
    relinkAction ((relinkDecision now db f d matched).withFindings findings) g (d.touch now f.id) =
      .apply ↔ d.status ∈ terminalDecisionStatuses ∧ status ≠ d.status := by
  have hedits := h.edits
  have hlasting := h.lasting
  rw [hg] at hedits hlasting
  have hstatus : g.status = status := congrArg Finding.status hlasting
  have hsecond := second_action_iff h.rested hedits
  rw [id_of_merge_relinked hmerge hg, hstatus] at hsecond
  unfold relinkAction
  change decisionApplyAction g (d.touch now f.id) (linkApplied _ d.id g.id) = .apply ↔ _
  rw [id_of_merge_relinked hmerge hg, linkApplied_eq]
  exact hsecond

/-- It applies the decision only where the first one did. -/
theorem apply_of_second
    (hsecond : relinkAction ((relinkDecision now db f d matched).withFindings findings) g
      (d.touch now f.id) = .apply) : relinkAction db f d = .apply := by
  obtain ⟨hterm, hne⟩ := (h.action_iff hg).mp hsecond
  by_contra hnot
  have hshown := h.rested.status hterm
  rw [relinkedFinding, if_neg hnot] at hshown
  exact hne ((h.kept hnot).trans hshown)

/-- Where it does not, the row has kept its status. -/
theorem status_of_no_second
    (hsecond : relinkAction ((relinkDecision now db f d matched).withFindings findings) g
      (d.touch now f.id) ≠ .apply) : status = (relinkedFinding now db f d).status := by
  by_cases hterm : d.status ∈ terminalDecisionStatuses
  · rw [h.rested.status hterm]
    by_contra hne
    exact hsecond ((h.action_iff hg).mpr ⟨hterm, hne⟩)
  · have hnot : relinkAction db f d ≠ .apply := fun happly =>
      hterm ((decisionApplyAction_eq_apply_iff f d _).mp happly).1
    rw [relinkedFinding, if_neg hnot]
    exact h.kept hnot

theorem findings_again (now' : Instant) :
    (relinkDecision now' ((relinkDecision now db f d matched).withFindings findings) g
      (d.touch now f.id) matched).findings.mapRows Finding.lasting Finding.keepsKeys_lasting =
      (relinkDecision now db f d matched).findings.mapRows Finding.lasting
        Finding.keepsKeys_lasting := by
  have hlasting := h.lasting
  rw [hg] at hlasting
  by_cases hsecond : relinkAction ((relinkDecision now db f d matched).withFindings findings) g
      (d.touch now f.id) = .apply
  · have hprojected : relinkedFinding now db f d = applyDecisionProjection now f d :=
      if_pos (h.apply_of_second hg hsecond)
    refine (congrArg (fun rows => Table.mapRows rows Finding.lasting Finding.keepsKeys_lasting)
      (if_pos hsecond)).trans ?_
    rw [id_of_merge_relinked hmerge hg]
    refine Table.mapRows_update_of_update? h.update fun r hr => ?_
    rw [h.get_eq hg hr, Option.some.inj (hr.symm.trans (findings_relink_self h.get))]
    exact lasting_projection_again now now' rfl hprojected hlasting
  · refine (congrArg (fun rows => Table.mapRows rows Finding.lasting Finding.keepsKeys_lasting)
      (if_neg hsecond)).trans ?_
    refine Table.mapRows_of_update? h.update fun r hr => ?_
    rw [h.get_eq hg hr, Option.some.inj (hr.symm.trans (findings_relink_self h.get)), hlasting,
      h.status_of_no_second hg hsecond]
    rfl

theorem links_again (now' : Instant) :
    (relinkDecision now' ((relinkDecision now db f d matched).withFindings findings) g
      (d.touch now f.id) matched).links.mapRows DecisionFindingLink.lasting
        DecisionFindingLink.keepsKeys_lasting =
      (relinkDecision now db f d matched).links.mapRows DecisionFindingLink.lasting
        DecisionFindingLink.keepsKeys_lasting := by
  have hversion : (if relinkAction ((relinkDecision now db f d matched).withFindings findings) g
        (d.touch now f.id) = .apply then d.decisionVersion
      else (linkApplied ((relinkDecision now db f d matched).withFindings findings) d.id g.id).getD 0) =
      if relinkAction db f d = .apply then d.decisionVersion
        else (linkApplied db d.id f.id).getD 0 := by
    rw [id_of_merge_relinked hmerge hg, linkApplied_eq, Option.getD_some]
    split_ifs with hsecond hdone
    · rfl
    · exact absurd (h.apply_of_second hg hsecond) hdone
    · rfl
    · rfl
  refine (congrArg (fun version => (upsertDecisionLink now' (relinkDecision now db f d matched).links
    (d.touch now f.id) g.id matched version).mapRows _ DecisionFindingLink.keepsKeys_lasting)
      hversion).trans ?_
  rw [id_of_merge_relinked hmerge hg]
  exact upsertDecisionLink_twice now now' db.links rfl f.id matched _

/-- The second turn on a decision, after a merge of the row, changes nothing that lasts. -/
theorem lasting_relink_again (now' : Instant) :
    (relinkDecision now' ((relinkDecision now db f d matched).withFindings findings) g
        (d.touch now f.id) matched).lasting =
      (relinkDecision now db f d matched).lasting := by
  have hdecisions : (relinkDecision now' ((relinkDecision now db f d matched).withFindings findings) g
      (d.touch now f.id) matched).decisions.mapRows TriageDecision.lasting
        TriageDecision.keepsKeys_lasting =
      (relinkDecision now db f d matched).decisions.mapRows TriageDecision.lasting
        TriageDecision.keepsKeys_lasting := by
    refine (congrArg (fun id => ((db.decisions.update d.id (TriageDecision.touch now f.id)
      (TriageDecision.keepsKeys_touch now f.id)).update d.id (TriageDecision.touch now' id)
        (TriageDecision.keepsKeys_touch now' id)).mapRows TriageDecision.lasting
          TriageDecision.keepsKeys_lasting) (id_of_merge_relinked hmerge hg)).trans ?_
    exact touch_twice now now' db.decisions d.id f.id
  unfold Db.lasting
  rw [h.findings_again hg now', hdecisions, h.links_again hg now']
  rfl

end MergedAfterRelink

/-- A resolve, a merge of the row and a second resolve, when the first one is settling. -/
theorem lasting_resolve_again {cfg : Settings} {parserId : Option Str} {now now' : Instant} {db : Db}
    {findingId : Str} {f₀ f g : Finding} {merge : Finding → Finding}
    {hmerge : ∀ r, Row.pk (merge r) = Row.pk r} {findings : Table Finding} {status : Option Status}
    (hget₀ : db.findings.get? findingId = some f₀)
    (hget : (resolveAndApplyDecision cfg now db findingId parserId).1.findings.get? findingId = some f)
    (hupdate : (resolveAndApplyDecision cfg now db findingId parserId).1.findings.update? findingId
      merge hmerge = some findings)
    (hg : merge f = g) (hlasting : g.lasting = f.lasting.withStatus (status.getD f.status))
    (hdetails : g.details.lasting = f.details.lasting) (hkept : status.getD f₀.status = f₀.status)
    (hedits : ∀ ts, latestHumanEdit g.audit = some ts → ts ≤ now)
    (hsettling : SettlingTurn cfg parserId db findingId) :
    (resolveAndApplyDecision cfg now'
        ((resolveAndApplyDecision cfg now db findingId parserId).1.withFindings findings) findingId
        parserId).1.lasting =
      (resolveAndApplyDecision cfg now db findingId parserId).1.lasting := by
  have hsecond : findings.get? findingId = some g := by
    rw [Table.get?_of_update? hupdate, if_pos rfl, hget]
    exact congrArg some hg
  rcases resolveAndApplyDecision_cases cfg now db findingId parserId with
    ⟨heq, hnone⟩ | ⟨f', d, matched, henabled, hf', hgov, heq⟩
  · rw [heq] at hget hupdate ⊢
    obtain rfl : f₀ = f := Option.some.inj (hget₀.symm.trans hget)
    rcases resolveAndApplyDecision_cases cfg now' (db.withFindings findings) findingId parserId with
      ⟨heq', -⟩ | ⟨g', d, matched, henabled, hg', hgov, -⟩
    · rw [heq']
      have hrows : findings.mapRows Finding.lasting Finding.keepsKeys_lasting =
          db.findings.mapRows Finding.lasting Finding.keepsKeys_lasting := by
        refine Table.mapRows_of_update? hupdate fun r hr => ?_
        rw [Option.some.inj (hr.symm.trans hget), hg, hlasting, hkept]
        rfl
      unfold Db.lasting
      rw [← hrows]
      rfl
    · obtain rfl : g = g' := Option.some.inj (hsecond.symm.trans hg')
      have hsame : governingDecision cfg (db.withFindings findings) g parserId =
          governingDecision cfg db f₀ parserId := governingDecision_details hdetails _ _ _ parserId
      exact absurd (hsame.symm.trans hgov) (hnone f₀ d matched henabled hget₀)
  · obtain rfl : f₀ = f' := Option.some.inj (hget₀.symm.trans hf')
    obtain rfl : f₀.id = findingId := Table.pk_of_get? hget₀
    rw [heq] at hget hupdate ⊢
    obtain rfl : relinkedFinding now db f₀ d = f :=
      Option.some.inj ((findings_relink_self hget₀).symm.trans hget)
    -- The same decision governs the merged row.
    have hgov' : governingDecision cfg ((relinkDecision now db f₀ d matched).withFindings findings) g
        parserId = some (d.touch now f₀.id, matched) := by
      have hsame : governingDecision cfg ((relinkDecision now db f₀ d matched).withFindings findings) g
          parserId = governingDecision cfg (relinkDecision now db f₀ d matched)
            (relinkedFinding now db f₀ d) parserId :=
        governingDecision_details hdetails _ _ _ parserId
      rw [hsame, governingDecision_relink (sameSubject_relinkedFinding now db f₀ d), hgov]
      simp
    have hatRest : AtRest cfg parserId (relinkDecision now db f₀ d matched) f₀.id :=
      (atRest_relink_iff henabled hget₀ hgov).mpr hsettling
    have hrest := (atRest_relink hget₀ hgov).mp hatRest
    rw [resolveAndApplyDecision_of_governing henabled hsecond hgov']
    have hmerged : MergedAfterRelink now db f₀ d matched merge hmerge findings
        (status.getD (relinkedFinding now db f₀ d).status) := by
      refine ⟨hget₀, ⟨fun hterm => (hrest hterm).2.1, fun hterm => (hrest hterm).2.2⟩, hupdate,
        hg.symm ▸ hlasting, fun hnot => ?_, hg.symm ▸ hedits⟩
      rw [relinkedFinding, if_neg hnot]
      exact hkept
    exact hmerged.lasting_relink_again hg now'

end SecondTurn

end Vat
