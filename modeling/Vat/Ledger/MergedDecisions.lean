import Vat.Assets.FlatAliases
import Vat.Ledger.RekeyedKeys
import Vat.Ledger.WriterIdentity

/-!
# Decisions across asset merges

A grouping gives every decision that is keyed on its source an alias key on its target, resolved at
that moment. An alias key leads to a decision in one hop, and the grouping of a later asset does not
look at alias keys. So a decision is found under the key of the last asset of a chain exactly when
a grouping of its own asset was made while the target resolved to the last asset.

## Main definitions

* `GroupCall`, `groupStep`: one grouping.
* `GroupCall.Bridges`: a grouping that gives a decision an alias key.
* `Reaches`: a decision is stored under a key or was the last one to be given it.

## Main results

* `aliasKeyOf_groupStep`: what one grouping does to one alias key.
* `decisionUnderKey_run_iff`: runs of groupings.
* `decision_survives_merges_iff`: the lookup of a finding after a run.
-/

namespace Vat

open Relational Transition

/-- Where the alias row of a subject key leads. -/
def aliasKeyOf (db : Db) (tenant key : Str) : Option Str :=
  (db.subjectAliases.get? (tenant, key)).map DecisionSubjectAlias.canonicalKey

/-- A decision is found under a key without a decision row exactly when an alias leads to it. -/
theorem decisionUnderKey_iff_alias {db : Db} {tenant key : Str} {d : TriageDecision}
    (hd : db.decisions.getBy? (tenant, d.subjectKey) = some d)
    (hnone : db.decisions.getBy? (tenant, key) = none) :
    decisionUnderKey db tenant key = some d ↔ aliasKeyOf db tenant key = some d.subjectKey := by
  unfold decisionUnderKey aliasKeyOf
  rw [hnone]
  cases ha : db.subjectAliases.get? (tenant, key) with
  | none => simp
  | some a =>
    dsimp only
    rw [Option.map_some, Option.some.injEq]
    constructor
    · intro h
      exact (Prod.mk.inj (show (d.tenantId, d.subjectKey) = (tenant, a.canonicalKey) from
        Table.uk_of_getBy? h)).2.symm
    · rintro h
      rw [h, hd]

section Register

/-- A merge of the assets gives the decision the alias key. -/
def GivesAlias (oldNorm newNorm tenant key : Str) (d : TriageDecision) : Prop :=
  normalizeTenantId (some d.tenantId) = tenant ∧ mergedSubjectKey oldNorm newNorm d = some key

instance (oldNorm newNorm tenant key : Str) (d : TriageDecision) :
    Decidable (GivesAlias oldNorm newNorm tenant key d) :=
  inferInstanceAs (Decidable (_ ∧ _))

/-- The ledger is on and the two names are not blank and not equal. -/
structure RewritesKeys (cfg : Settings) (oldNorm newNorm : Str) : Prop where
  enabled : cfg.decisionLedgerEnabled = true
  old_ne : oldNorm ≠ []
  new_ne : newNorm ≠ []
  moves : oldNorm ≠ newNorm

variable {cfg : Settings}

theorem aliasKeyOf_registerSubjectAlias (henabled : cfg.decisionLedgerEnabled = true)
    (now : Instant) (db : Db) (tenantId : Option Str) (aliasKey canonicalKey reason tenant key : Str) :
    aliasKeyOf (registerSubjectAlias cfg now db tenantId aliasKey canonicalKey reason) tenant key =
      if normalizeTenantId tenantId = tenant ∧ aliasKey = key then some canonicalKey
      else aliasKeyOf db tenant key := by
  simp only [registerSubjectAlias, henabled, Bool.not_true, Bool.false_eq_true, ↓reduceIte,
    aliasKeyOf]
  by_cases h : normalizeTenantId tenantId = tenant ∧ aliasKey = key
  · obtain ⟨rfl, rfl⟩ := h
    rw [if_pos ⟨rfl, rfl⟩]
    refine (congrArg _ (Table.get?_upsert_self db.subjectAliases
      (⟨normalizeTenantId tenantId, aliasKey, canonicalKey, reason, now⟩ :
        DecisionSubjectAlias) _ _)).trans ?_
    cases db.subjectAliases.get? (normalizeTenantId tenantId, aliasKey) <;> rfl
  · rw [if_neg h]
    refine congrArg _ (Table.get?_upsert_ne db.subjectAliases
      (r := ⟨normalizeTenantId tenantId, aliasKey, canonicalKey, reason, now⟩) _ _ ?_)
    exact fun heq => h ⟨(Prod.mk.inj heq).1.symm, (Prod.mk.inj heq).2.symm⟩

theorem aliasKeyOf_aliasMergedDecision (henabled : cfg.decisionLedgerEnabled = true)
    (now : Instant) (oldNorm newNorm : Str) (db : Db) (d : TriageDecision) (tenant key : Str) :
    aliasKeyOf (aliasMergedDecision cfg now oldNorm newNorm db d) tenant key =
      if GivesAlias oldNorm newNorm tenant key d then some d.subjectKey
      else aliasKeyOf db tenant key := by
  unfold aliasMergedDecision
  split
  · next hnone => rw [if_neg fun h => by simp [GivesAlias, hnone] at h]
  · next newKey hnew =>
    rw [aliasKeyOf_registerSubjectAlias henabled]
    simp only [GivesAlias, hnew, Option.some.injEq]

/-- After a merge a key that decisions are rewritten to leads to their key, and the other keys lead
where they led. Only one key is rewritten to a given one. -/
theorem aliasKeyOf_foldl (henabled : cfg.decisionLedgerEnabled = true) (now : Instant)
    (oldNorm newNorm tenant key k : Str) (ds : List TriageDecision) (db : Db) :
    aliasKeyOf (ds.foldl (aliasMergedDecision cfg now oldNorm newNorm) db) tenant key = some k ↔
      (∃ d ∈ ds, d.subjectKey = k ∧ GivesAlias oldNorm newNorm tenant key d) ∨
        aliasKeyOf db tenant key = some k ∧
          ∀ d ∈ ds, GivesAlias oldNorm newNorm tenant key d → d.subjectKey = k := by
  induction ds generalizing db with
  | nil => simp
  | cons d ds ih =>
    rw [List.foldl_cons, ih, aliasKeyOf_aliasMergedDecision henabled]
    by_cases hd : GivesAlias oldNorm newNorm tenant key d
    · have hsame : ∀ e, GivesAlias oldNorm newNorm tenant key e → e.subjectKey = d.subjectKey :=
        fun e he => mergedSubjectKey_inj he.2 hd.2
      rw [if_pos hd]
      by_cases hk : d.subjectKey = k
      · subst hk
        exact iff_of_true (Or.inr ⟨rfl, fun e _ => hsame e⟩)
          (Or.inl ⟨d, List.mem_cons_self, rfl, hd⟩)
      · refine iff_of_false ?_ ?_
        · rintro (⟨e, -, he, hgives⟩ | ⟨heq, -⟩)
          · exact hk ((hsame e hgives).symm.trans he)
          · exact hk (Option.some.inj heq)
        · rintro (⟨e, -, he, hgives⟩ | ⟨-, hall⟩)
          · exact hk ((hsame e hgives).symm.trans he)
          · exact hk (hall d List.mem_cons_self hd)
    · simp only [List.mem_cons, exists_eq_or_imp, hd, and_false, false_or,
        forall_eq_or_imp, false_imp_iff, true_and, ↓reduceIte]

end Register

/-! ### One grouping -/

section Group

variable [Unicode]

omit [Unicode] in
/-- A request to group an asset into a target. -/
structure GroupCall where
  now : Instant
  assetId : Str
  targetAssetId : Str
  createdBy : Option Str

/-- A grouping; a refused one changes nothing. -/
def groupStep (cfg : Settings) (db : Db) (call : GroupCall) : Db :=
  (groupAliases cfg call.now db call.assetId call.targetAssetId call.createdBy).getD db

omit [Unicode] in
/-- The asset that a grouping moves. -/
def GroupCall.source (call : GroupCall) : Str := Str.strip call.assetId

omit [Unicode] in
/-- The asset that a grouping moves to. -/
def GroupCall.canonical (t : Table AssetAlias) (call : GroupCall) : Str :=
  Str.strip (groupTarget t (Str.strip call.targetAssetId))

/-- The grouping changes where its source leads, decision keys are rewritten for the two assets, and
the decision under `canonicalKey` is thereby given the alias key. -/
structure GroupCall.Bridges (cfg : Settings) (db : Db) (call : GroupCall)
    (tenant key canonicalKey : Str) : Prop where
  changes : aliasOf db.assetAliases call.source ≠ some (call.canonical db.assetAliases)
  rewrites : RewritesKeys cfg (normalize call.source) (normalize (call.canonical db.assetAliases))
  gives : ∃ d ∈ db.decisions.rows, d.subjectKey = canonicalKey ∧
    GivesAlias (normalize call.source) (normalize (call.canonical db.assetAliases)) tenant key d

/-- What a merge of two assets does to one alias key. -/
theorem aliasKeyOf_registerForMerge (cfg : Settings) (now : Instant) (db : Db)
    (oldAssetId newAssetId tenant key k : Str) :
    aliasKeyOf (registerDecisionAliasesForAssetMerge cfg now db oldAssetId newAssetId) tenant key =
        some k ↔
      (∃ d ∈ db.decisions.rows, RewritesKeys cfg (normalize oldAssetId) (normalize newAssetId) ∧
          d.subjectKey = k ∧
          GivesAlias (normalize oldAssetId) (normalize newAssetId) tenant key d) ∨
        aliasKeyOf db tenant key = some k ∧
          ∀ d ∈ db.decisions.rows, RewritesKeys cfg (normalize oldAssetId) (normalize newAssetId) →
            GivesAlias (normalize oldAssetId) (normalize newAssetId) tenant key d →
              d.subjectKey = k := by
  unfold registerDecisionAliasesForAssetMerge
  dsimp only
  by_cases hrewrites : RewritesKeys cfg (normalize oldAssetId) (normalize newAssetId)
  · obtain ⟨henabled, hold, hnew, hne⟩ := id hrewrites
    rw [if_neg (by simp [henabled, hold, hnew, hne]), aliasKeyOf_foldl henabled]
    simp only [hrewrites, true_and, true_imp_iff]
  · rw [if_pos]
    · simp [hrewrites]
    · by_contra h
      simp only [Bool.not_eq_true', not_or, Bool.not_eq_false] at h
      exact hrewrites ⟨h.1, h.2.1, h.2.2.1, h.2.2.2⟩

/-- A grouping that gives an alias key is not refused. -/
theorem GroupCall.Bridges.performed {cfg : Settings} {db : Db} {call : GroupCall}
    {tenant key canonicalKey : Str} (h : call.Bridges cfg db tenant key canonicalKey) :
    (call.source ≠ [] ∧ Str.strip call.targetAssetId ≠ []) ∧
      call.canonical db.assetAliases ≠ [] ∧ call.source ≠ call.canonical db.assetAliases := by
  have hcanonical : call.canonical db.assetAliases ≠ [] := fun hnil =>
    h.rewrites.new_ne (by rw [hnil, normalize_nil])
  refine ⟨⟨fun hnil => h.rewrites.old_ne (by rw [hnil, normalize_nil]), fun hnil => ?_⟩,
    hcanonical, fun heq => h.rewrites.moves (by rw [heq])⟩
  refine hcanonical ?_
  rw [GroupCall.canonical, hnil]
  rfl

/-- What one grouping does to one alias key. -/
theorem aliasKeyOf_groupStep (cfg : Settings) (db : Db) (call : GroupCall)
    (tenant key k : Str) :
    aliasKeyOf (groupStep cfg db call) tenant key = some k ↔
      call.Bridges cfg db tenant key k ∨
        aliasKeyOf db tenant key = some k ∧ ∀ k', call.Bridges cfg db tenant key k' → k' = k := by
  have hskip : (∀ k', ¬ call.Bridges cfg db tenant key k') →
      (aliasKeyOf db tenant key = some k ↔ call.Bridges cfg db tenant key k ∨
        aliasKeyOf db tenant key = some k ∧ ∀ k', call.Bridges cfg db tenant key k' → k' = k) :=
    fun hno => by simp [hno]
  have hcanonical : Str.strip (groupTarget db.assetAliases (Str.strip call.targetAssetId)) =
      call.canonical db.assetAliases := rfl
  have hsource : Str.strip (Str.strip call.assetId) = call.source := Str.strip_strip _
  unfold groupStep groupAliases mergeAsset upsertAssetAlias
  simp only [hcanonical, hsource]
  split_ifs with hblank hself hbad hchanged
  · exact hskip fun k' h => not_or.mpr h.performed.1 hblank
  · refine hskip fun k' h => h.performed.2.2 ?_
    rw [← hcanonical, ← hself, Str.strip_strip, GroupCall.source]
  · refine hskip fun k' h => ?_
    exact not_or.mpr ⟨h.performed.1.1, not_or.mpr h.performed.2⟩ hbad
  · have hbridges : ∀ k', call.Bridges cfg db tenant key k' ↔ ∃ d ∈ db.decisions.rows,
        RewritesKeys cfg (normalize call.source) (normalize (call.canonical db.assetAliases)) ∧
          d.subjectKey = k' ∧ GivesAlias (normalize call.source)
            (normalize (call.canonical db.assetAliases)) tenant key d := by
      intro k'
      constructor
      · rintro ⟨-, hrewrites, d, hd, hk, hgives⟩
        exact ⟨d, hd, hrewrites, hk, hgives⟩
      · rintro ⟨d, hd, hrewrites, hk, hgives⟩
        exact ⟨hchanged, hrewrites, d, hd, hk, hgives⟩
    refine (aliasKeyOf_registerForMerge cfg call.now _ _ _ tenant key k).trans
      (or_congr (hbridges k).symm (and_congr_right fun _ => ?_))
    constructor
    · intro h k' hk'
      obtain ⟨d, hd, hrewrites, rfl, hgives⟩ := (hbridges k').mp hk'
      exact h d hd hrewrites hgives
    · intro h d hd hrewrites hgives
      exact h _ ((hbridges _).mpr ⟨d, hd, hrewrites, rfl, hgives⟩)
  · exact hskip fun k' h => h.changes (by rw [aliasOf]; exact not_not.mp hchanged)

theorem groupStep_decisions (cfg : Settings) (db : Db) (call : GroupCall) :
    (groupStep cfg db call).decisions = db.decisions := by
  unfold groupStep
  cases h : groupAliases cfg call.now db call.assetId call.targetAssetId call.createdBy with
  | none => rfl
  | some db' =>
    unfold groupAliases at h
    dsimp only at h
    split_ifs at h
    obtain ⟨db₁, hup, h⟩ := Option.bind_eq_some_iff.mp h
    cases h
    exact (sameRows_upsertAssetAlias hup).decisions

theorem run_groupStep_decisions (cfg : Settings) (db : Db) (calls : List GroupCall) :
    (run (groupStep cfg) db calls).decisions = db.decisions :=
  @run_induction _ _ (groupStep cfg) (fun s => s.decisions = db.decisions)
    (fun s call h => (groupStep_decisions cfg s call).trans h) _ rfl calls

/-! ### Runs of groupings -/

/-- After the groupings a decision is found under a key: it is stored there, or nothing is and the
key was last given to it. -/
def Reaches (cfg : Settings) (db : Db) (calls : List GroupCall) (tenant key : Str)
    (d : TriageDecision) : Prop :=
  d.subjectKey = key ∨
    db.decisions.getBy? (tenant, key) = none ∧
      Since (groupStep cfg) (fun db call => call.Bridges cfg db tenant key d.subjectKey)
        (fun db call => ∀ k, call.Bridges cfg db tenant key k → k = d.subjectKey)
        (aliasKeyOf db tenant key = some d.subjectKey) db calls

/-- The decision under a key after a run of groupings. -/
theorem decisionUnderKey_run_iff (cfg : Settings) {db : Db} {tenant : Str} {d : TriageDecision}
    (hd : db.decisions.getBy? (tenant, d.subjectKey) = some d) (calls : List GroupCall)
    (key : Str) :
    decisionUnderKey (run (groupStep cfg) db calls) tenant key = some d ↔
      Reaches cfg db calls tenant key d := by
  have hdecisions := run_groupStep_decisions cfg db calls
  have halias := @run_iff_since _ _ (groupStep cfg)
    (fun db => aliasKeyOf db tenant key = some d.subjectKey) _ _
    (fun db call => aliasKeyOf_groupStep cfg db call tenant key d.subjectKey) db calls
  unfold Reaches
  cases hstored : db.decisions.getBy? (tenant, key) with
  | some e =>
    have hfound : decisionUnderKey (run (groupStep cfg) db calls) tenant key = some e := by
      rw [decisionUnderKey, hdecisions, hstored]
    rw [hfound]
    constructor
    · intro h
      obtain rfl := Option.some.inj h
      exact Or.inl (Prod.mk.inj (show (e.tenantId, e.subjectKey) = (tenant, key) from
        Table.uk_of_getBy? hstored)).2
    · rintro (rfl | ⟨h, -⟩)
      · exact hstored.symm.trans hd
      · cases h
  | none =>
    have hne : d.subjectKey ≠ key := by
      rintro rfl
      rw [hd] at hstored
      cases hstored
    rw [decisionUnderKey_iff_alias (hdecisions ▸ hd) (hdecisions ▸ hstored), halias]
    simp [hne]

/-- The first of the keys that any decision of the tenant reaches is reached by the decision. -/
def FirstReached (cfg : Settings) (db : Db) (calls : List GroupCall) (tenant : Str)
    (d : TriageDecision) : List DecisionSubjectCandidate → Prop
  | [] => False
  | c :: candidates =>
    Reaches cfg db calls tenant c.subjectKey d ∨
      (∀ e ∈ db.decisions.rows, e.tenantId = tenant →
        ¬ Reaches cfg db calls tenant c.subjectKey e) ∧
        FirstReached cfg db calls tenant d candidates

theorem lookupDecision_run_iff (cfg : Settings) {db : Db} {tenantId : Option Str}
    {d : TriageDecision}
    (hd : db.decisions.getBy? (normalizeTenantId tenantId, d.subjectKey) = some d)
    (calls : List GroupCall) (candidates : List DecisionSubjectCandidate) :
    (∃ matched, lookupDecision (run (groupStep cfg) db calls) tenantId candidates =
        some (d, matched)) ↔
      FirstReached cfg db calls (normalizeTenantId tenantId) d candidates := by
  induction candidates with
  | nil => simp [lookupDecision, FirstReached]
  | cons c candidates ih =>
    rw [FirstReached, ← ih, ← decisionUnderKey_run_iff cfg hd, lookupDecision]
    cases hfound : decisionUnderKey (run (groupStep cfg) db calls) (normalizeTenantId tenantId)
        c.subjectKey with
    | none =>
      have hnone : ∀ e ∈ db.decisions.rows, e.tenantId = normalizeTenantId tenantId →
          ¬ Reaches cfg db calls (normalizeTenantId tenantId) c.subjectKey e := by
        rintro e he htenant hreaches
        have hget : db.decisions.getBy? (normalizeTenantId tenantId, e.subjectKey) = some e :=
          htenant ▸ Table.getBy?_uk_of_mem he
        rw [← decisionUnderKey_run_iff cfg hget, hfound] at hreaches
        cases hreaches
      constructor
      · exact fun h => Or.inr ⟨hnone, h⟩
      · rintro (h | ⟨-, h⟩)
        · cases h
        · exact h
    | some e =>
      have he : e ∈ db.decisions.rows :=
        run_groupStep_decisions cfg db calls ▸ decisionUnderKey_mem hfound
      have htenant := decisionUnderKey_tenantId hfound
      have hget : db.decisions.getBy? (normalizeTenantId tenantId, e.subjectKey) = some e :=
        htenant ▸ Table.getBy?_uk_of_mem he
      have hreaches := (decisionUnderKey_run_iff cfg hget calls c.subjectKey).mp hfound
      constructor
      · rintro ⟨matched, h⟩
        obtain ⟨rfl, -⟩ := Prod.mk.inj (Option.some.inj h)
        exact Or.inl rfl
      · rintro (h | ⟨hno, -⟩)
        · obtain rfl := Option.some.inj h
          exact ⟨c, rfl⟩
        · exact absurd hreaches (hno e he htenant)

/-- For a decision recorded for a finding on one asset, and any groupings: the lookup of the finding
on another asset finds the decision exactly when the first of its keys there that any decision
reaches is reached by this one. -/
theorem decision_survives_merges_iff (cfg : Settings) (db : Db) {p : KeyPayload} {first : Str}
    {d : TriageDecision}
    (hd : db.decisions.getBy?
      (normalizeTenantId p.tenantId, (primaryCandidate p first).subjectKey) = some d)
    (calls : List GroupCall) (last : Str) :
    (∃ matched, lookupDecision (run (groupStep cfg) db calls) p.tenantId
        (decisionSubjectKeysForPayload p last) = some (d, matched)) ↔
      FirstReached cfg db calls (normalizeTenantId p.tenantId) d
        (decisionSubjectKeysForPayload p last) := by
  have hkey : d.subjectKey = (primaryCandidate p first).subjectKey :=
    (Prod.mk.inj (show (d.tenantId, d.subjectKey) = _ from Table.uk_of_getBy? hd)).2
  exact lookupDecision_run_iff cfg (hkey ▸ hd) calls _

end Group

section Chain

attribute [local instance] asciiUnicode longestIds

/-- The fields of the open finding. -/
def openPayload : KeyPayload := openFinding.keyPayload none none

/-- The asset of the open finding is grouped into the portal. -/
def appToPortal : GroupCall :=
  ⟨2000000, str "registry.io/app", str "registry.io/portal", none⟩

/-- The portal is grouped into the hub. -/
def portalToHub : GroupCall :=
  ⟨3000000, str "registry.io/portal", str "registry.io/hub", none⟩

/-- The status of the decision that the lookup of the open finding on the hub finds after groupings
that follow an accepted risk. -/
def statusOnHub (calls : List GroupCall) : Option Status :=
  (lookupDecision (run (groupStep ⟨true, []⟩) (runDb acceptedRun) calls) openPayload.tenantId
    (decisionSubjectKeysForPayload openPayload (str "registry.io/hub"))).map fun p => p.1.status

/-- When the own asset of the decision is grouped last, the decision is reached on the hub. -/
theorem reached_after_reverse_chain :
    ∃ d, (runDb acceptedRun).decisions.getBy? (normalizeTenantId openPayload.tenantId,
        (primaryCandidate openPayload (str "registry.io/app")).subjectKey) = some d ∧
      FirstReached ⟨true, []⟩ (runDb acceptedRun) [portalToHub, appToPortal]
        (normalizeTenantId openPayload.tenantId) d
        (decisionSubjectKeysForPayload openPayload (str "registry.io/hub")) := by
  have hcount : (runDb acceptedRun).decisions.rows.length = 1 := by decide +kernel
  have hstored : ((runDb acceptedRun).decisions.getBy? (normalizeTenantId openPayload.tenantId,
      (primaryCandidate openPayload (str "registry.io/app")).subjectKey)).isSome = true := by
    decide +kernel
  have hfound : (lookupDecision
      (run (groupStep ⟨true, []⟩) (runDb acceptedRun) [portalToHub, appToPortal])
      openPayload.tenantId
      (decisionSubjectKeysForPayload openPayload (str "registry.io/hub"))).isSome = true := by
    decide +kernel
  obtain ⟨d, hd⟩ := Option.isSome_iff_exists.mp hstored
  obtain ⟨⟨e, matched⟩, he⟩ := Option.isSome_iff_exists.mp hfound
  have hmem := lookupDecision_mem he
  rw [run_groupStep_decisions] at hmem
  obtain ⟨x, hx⟩ := List.length_eq_one_iff.mp hcount
  have hed : e = d := by
    have hdmem := Table.mem_of_getBy? hd
    rw [hx, List.mem_singleton] at hmem hdmem
    exact hmem.trans hdmem.symm
  exact ⟨d, hd, (decision_survives_merges_iff ⟨true, []⟩ (runDb acceptedRun) hd
    [portalToHub, appToPortal] (str "registry.io/hub")).mp ⟨matched, hed ▸ he⟩⟩

/-- When the chain is grouped from its start, the finding on the hub has no decision, though none
was recorded for a later asset of the chain; in the other order it has. -/
theorem lost_after_chain :
    (runDb acceptedRun).decisions.rows.map TriageDecision.subjectKey =
        [(primaryCandidate openPayload (str "registry.io/app")).subjectKey] ∧
      statusOnHub [appToPortal, portalToHub] = none ∧
      statusOnHub [portalToHub, appToPortal] = some .riskAccepted := by
  decide +kernel

end Chain

end Vat
