import Vat.Ledger.System
import Vat.Transition.Recorded

/-!
# The revision history of decisions

Every write of a decision's content comes with one version and one revision row, so the revisions
of a decision are a complete journal of its content (`RevisionHistoryComplete`). The calls that
resolve, link and alias write neither content nor revisions (`SameContent`).

## Main definitions

* `revisionsOf`, `RevisionHistoryComplete`, `SameContent`.

## Main results

* `RevisionHistoryComplete.perform`: every call keeps the histories complete and only appends
  revisions.
* `revision_history_complete`: the histories after any run.
-/

namespace Vat

open Relational Transition

/-- The revisions of a decision, oldest first. -/
def revisionsOf (db : Db) (decisionId : Str) : List TriageDecisionRevision :=
  db.revisions.rows.filter fun r => r.decisionId = decisionId

/-- A decision without its bookkeeping. -/
def TriageDecision.content (d : TriageDecision) : Str × DecisionSnapshot := (d.id, decisionSnapshot d)

/-- The revisions of every decision are a journal of its content, and no other decision has any. -/
structure RevisionHistoryComplete (db : Db) : Prop where
  journal : ∀ d ∈ db.decisions.rows,
    Journal TriageDecisionRevision.revision TriageDecisionRevision.snapshot (revisionsOf db d.id)
      d.decisionVersion (decisionSnapshot d)
  owned : ∀ r ∈ db.revisions.rows, ∃ d ∈ db.decisions.rows, d.id = r.decisionId

/-! ### Calls that write no content -/

/-- The same revisions, and the same decisions up to bookkeeping. -/
structure SameContent (db db' : Db) : Prop where
  revisions : db'.revisions = db.revisions
  contents : db'.decisions.rows.map TriageDecision.content =
    db.decisions.rows.map TriageDecision.content

theorem SameContent.refl (db : Db) : SameContent db db := ⟨rfl, rfl⟩

theorem SameContent.trans {db db' db'' : Db} (h : SameContent db db') (h' : SameContent db' db'') :
    SameContent db db'' :=
  ⟨h'.revisions.trans h.revisions, h'.contents.trans h.contents⟩

theorem SameContent.symm {db db' : Db} (h : SameContent db db') : SameContent db' db :=
  ⟨h.revisions.symm, h.contents.symm⟩

/-- A call that writes neither decisions nor revisions. -/
theorem SameContent.of_eq {db db' : Db} (hd : db'.decisions = db.decisions)
    (hr : db'.revisions = db.revisions) : SameContent db db' := ⟨hr, by rw [hd]⟩

theorem SameRows.sameContent {db db' : Db} (h : SameRows db db') : SameContent db db' :=
  .of_eq h.decisions h.revisions

theorem SameContent.mem {db db' : Db} (h : SameContent db db') {d' : TriageDecision}
    (hd' : d' ∈ db'.decisions.rows) : ∃ d ∈ db.decisions.rows, d.content = d'.content := by
  have hmem : d'.content ∈ db.decisions.rows.map TriageDecision.content :=
    h.contents ▸ List.mem_map_of_mem hd'
  simpa using hmem

/-- Complete histories stay complete where no content is written. -/
theorem RevisionHistoryComplete.of_sameContent {db db' : Db} (hc : RevisionHistoryComplete db)
    (h : SameContent db db') : RevisionHistoryComplete db' := by
  constructor
  · intro d' hd'
    obtain ⟨d, hd, heq⟩ := h.mem hd'
    obtain ⟨hid, hsnap⟩ := Prod.mk.inj heq
    have hversion : d.decisionVersion = d'.decisionVersion :=
      congrArg DecisionSnapshot.decisionVersion hsnap
    have hj := hc.journal d hd
    rwa [hid, hsnap, hversion, revisionsOf, ← h.revisions] at hj
  · intro r hr
    rw [h.revisions] at hr
    obtain ⟨d, hd, hid⟩ := hc.owned r hr
    have hmem : d.content ∈ db'.decisions.rows.map TriageDecision.content :=
      h.contents ▸ List.mem_map_of_mem hd
    obtain ⟨d', hd', heq⟩ := List.mem_map.mp hmem
    exact ⟨d', hd', (Prod.mk.inj heq).1.trans hid⟩

/-- An update of a decision row that writes no content. -/
theorem sameContent_update {db db' : Db} {k : Str} {f : TriageDecision → TriageDecision}
    (hf : KeepsKeys f) (hcontent : ∀ d, (f d).content = d.content)
    (hd : db'.decisions = db.decisions.update k f hf) (hr : db'.revisions = db.revisions) :
    SameContent db db' := by
  refine ⟨hr, ?_⟩
  rw [hd, Table.rows_update, List.map_map]
  refine List.map_congr_left fun d _ => ?_
  simp only [Function.comp_apply]
  split_ifs
  · exact hcontent d
  · rfl

section Relink

variable [Unicode]

theorem sameContent_resolve (cfg : Settings) (now : Instant) (db : Db) (findingId : Str)
    (parserId : Option Str) :
    SameContent db (resolveAndApplyDecision cfg now db findingId parserId).1 := by
  unfold resolveAndApplyDecision
  split_ifs
  · exact .refl db
  · split
    · exact .refl db
    · split
      · exact .refl db
      · exact sameContent_update (TriageDecision.keepsKeys_touch now _) (fun _ => rfl) rfl rfl

theorem sameContent_resolveEach (cfg : Settings) (now : Instant) (db : Db) (ids : List Str) :
    SameContent db (resolveEach cfg now db ids).1 := by
  induction ids generalizing db with
  | nil => exact .refl db
  | cons findingId ids ih => exact (sameContent_resolve cfg now db findingId none).trans (ih _)

end Relink

/-! ### Calls that write content -/

section Write

/-- The revisions of a decision after one more revision. -/
theorem revisionsOf_append {db db' : Db} {rev : TriageDecisionRevision}
    (h : db'.revisions.rows = db.revisions.rows ++ [rev]) (decisionId : Str) :
    revisionsOf db' decisionId =
      revisionsOf db decisionId ++ if rev.decisionId = decisionId then [rev] else [] := by
  rw [revisionsOf, h, List.filter_append, revisionsOf, List.filter_singleton]
  simp

/-- The complete history of a new decision with its first revision, and of all others. -/
theorem RevisionHistoryComplete.insert {db db' : Db} (hc : RevisionHistoryComplete db)
    {d : TriageDecision} {rev : TriageDecisionRevision} (hnew : ∀ e ∈ db.decisions.rows, e.id ≠ d.id)
    (hd : db'.decisions.rows = db.decisions.rows ++ [d])
    (hr : db'.revisions.rows = db.revisions.rows ++ [rev]) (hid : rev.decisionId = d.id)
    (hversion : d.decisionVersion = 1) (hrev : rev.revision = d.decisionVersion)
    (hsnap : rev.snapshot = decisionSnapshot d) : RevisionHistoryComplete db' := by
  have hnone : revisionsOf db d.id = [] := by
    rw [revisionsOf, List.filter_eq_nil_iff]
    intro r hr hrd
    obtain ⟨e, he, heid⟩ := hc.owned r hr
    exact hnew e he (heid.trans (of_decide_eq_true hrd))
  constructor
  · intro e he
    rw [revisionsOf_append hr, hid]
    rcases List.mem_append.mp (hd ▸ he) with he | he
    · rw [if_neg (Ne.symm (hnew e he)), List.append_nil]
      exact hc.journal e he
    · obtain rfl := List.mem_singleton.mp he
      rw [if_pos rfl, hnone, List.nil_append, hversion, ← hsnap]
      exact .singleton (hrev.trans hversion)
  · intro r hr'
    rcases List.mem_append.mp (hr ▸ hr') with hr' | hr'
    · obtain ⟨e, he, heid⟩ := hc.owned r hr'
      exact ⟨e, hd ▸ List.mem_append_left _ he, heid⟩
    · obtain rfl := List.mem_singleton.mp hr'
      exact ⟨d, hd ▸ List.mem_append_right _ (List.mem_singleton_self d), hid.symm⟩

/-- The complete history of a decision rewritten as its next version with one more revision, and
of all others. -/
theorem RevisionHistoryComplete.update {db db' : Db} (hc : RevisionHistoryComplete db)
    {d : TriageDecision} (hmem : d ∈ db.decisions.rows) {f : TriageDecision → TriageDecision}
    (hf : KeepsKeys f) {rev : TriageDecisionRevision}
    (hd : db'.decisions = db.decisions.update d.id f hf)
    (hr : db'.revisions.rows = db.revisions.rows ++ [rev]) (hid : rev.decisionId = d.id)
    (hversion : (f d).decisionVersion = d.decisionVersion + 1)
    (hrev : rev.revision = (f d).decisionVersion) (hsnap : rev.snapshot = decisionSnapshot (f d)) :
    RevisionHistoryComplete db' := by
  have hfid : (f d).id = d.id := (hf d).1
  constructor
  · intro e he
    rw [revisionsOf_append hr, hid]
    rw [hd] at he
    rcases Table.mem_update.mp he with ⟨he, hne⟩ | ⟨e₀, he₀, hk, rfl⟩
    · have hne' : d.id ≠ e.id := Ne.symm hne
      rw [if_neg hne', List.append_nil]
      exact hc.journal e he
    · obtain rfl := Table.eq_of_pk he₀ hmem hk
      rw [hfid, if_pos rfl, hversion, ← hsnap]
      exact (hc.journal e₀ he₀).append (hrev.trans hversion)
  · intro r hr'
    have hkeep : ∀ e ∈ db.decisions.rows, ∃ e' ∈ db'.decisions.rows, e'.id = e.id := by
      intro e he
      by_cases hk : e.id = d.id
      · exact ⟨f e, hd ▸ Table.mem_update.mpr (Or.inr ⟨e, he, hk, rfl⟩), (hf e).1⟩
      · exact ⟨e, hd ▸ Table.mem_update.mpr (Or.inl ⟨he, hk⟩), rfl⟩
    rcases List.mem_append.mp (hr ▸ hr') with hr' | hr'
    · obtain ⟨e, he, heid⟩ := hc.owned r hr'
      obtain ⟨e', he', heid'⟩ := hkeep e he
      exact ⟨e', he', heid'.trans heid⟩
    · obtain rfl := List.mem_singleton.mp hr'
      obtain ⟨e', he', heid'⟩ := hkeep d hmem
      exact ⟨e', he', heid'.trans hid.symm⟩

variable [UuidSource]

/-- A revision can be added for the next version of a decision with a complete history. -/
theorem addRevision_succeeds (now : Instant) (actorId : Str) (reason : Option Str) {db : Db}
    (hc : RevisionHistoryComplete db) {d : TriageDecision} (hd : d ∈ db.decisions.rows)
    (decisions : Table TriageDecision) {e : TriageDecision} (hid : e.id = d.id)
    (hversion : e.decisionVersion = d.decisionVersion + 1) :
    ∃ db', addRevision now actorId reason { db with decisions := decisions } e = some db' := by
  have hcan : db.revisions.CanInsert ⟨newRevisionId { db with decisions := decisions }, e.id,
      e.decisionVersion, decisionSnapshot e, actorId, reason, now⟩ := by
    refine ⟨newRevisionId_not_mem _, fun hmem => ?_⟩
    obtain ⟨r, hr, hkey⟩ := List.mem_map.mp hmem
    obtain ⟨hrid, hrev⟩ := Prod.mk.inj
      (show (r.decisionId, r.revision) = (e.id, e.decisionVersion) from hkey)
    -- The versions of the decision so far are at most its version.
    have hmem : r.revision ∈ (revisionsOf db d.id).map TriageDecisionRevision.revision :=
      List.mem_map.mpr ⟨r, List.mem_filter.mpr ⟨hr, decide_eq_true (hrid.trans hid)⟩, rfl⟩
    rw [(hc.journal d hd).numbers, List.mem_range'_1] at hmem
    omega
  exact ⟨_, by rw [addRevision, Table.insert?_eq_some hcan, Option.map_some]⟩

/-- A database in which every decision has its complete history. -/
structure CompleteDb where
  db : Db
  complete : RevisionHistoryComplete db

/-- What a call leaves of complete histories: complete histories, with the old revisions first. -/
structure ExtendsHistory (db db' : Db) : Prop where
  complete : RevisionHistoryComplete db'
  appended : db.revisions.rows <+: db'.revisions.rows

omit [UuidSource] in
theorem ExtendsHistory.trans {db db' db'' : Db} (h : ExtendsHistory db db')
    (h' : ExtendsHistory db' db'') : ExtendsHistory db db'' :=
  ⟨h'.complete, h.appended.trans h'.appended⟩

omit [UuidSource] in
theorem SameContent.extends {db db' : Db} (h : SameContent db db')
    (hc : RevisionHistoryComplete db) : ExtendsHistory db db' :=
  ⟨hc.of_sameContent h, h.revisions ▸ List.prefix_refl _⟩

/-- Storing a decision and adding its revision extends the histories. -/
theorem extendsHistory_storeDecision {now : Instant} {user : Str} {reason : Option Str}
    {db db₁ db₂ : Db} {f : Finding} {primary : DecisionSubjectCandidate} {d : TriageDecision}
    (hc : RevisionHistoryComplete db) (hstore : storeDecision now user db f primary = some (db₁, d))
    (hadd : addRevision now user reason db₁ d = some db₂) : ExtendsHistory db db₂ := by
  obtain ⟨revisions, rev, rfl, hrows, hid, hnumber, hsnap⟩ := addRevision_cases hadd
  rcases storeDecision_cases hstore with ⟨d₀, hd₀, rfl, rfl⟩ | ⟨-, hins, rfl, rfl⟩
  · exact ⟨hc.update (Table.mem_of_getBy? hd₀) (TriageDecision.keepsKeys_revise now user f) rfl
      hrows hid rfl hnumber hsnap, ⟨_, hrows.symm⟩⟩
  · refine ⟨hc.insert (fun e he heq => hins.1 ?_) rfl hrows hid rfl hnumber hsnap, ⟨_, hrows.symm⟩⟩
    exact List.mem_map.mpr ⟨e, he, heq⟩

omit [UuidSource] in
/-- A further write of neither decisions nor revisions. -/
theorem ExtendsHistory.of_eq {db db' db'' : Db} (h : ExtendsHistory db db')
    (hd : db''.decisions = db'.decisions) (hr : db''.revisions = db'.revisions) :
    ExtendsHistory db db'' :=
  h.trans ((SameContent.of_eq hd hr).extends h.complete)

variable [Unicode] in
theorem extendsHistory_record {cfg : Settings} {now : Instant} {db db' : Db}
    {findingId user reason : Str} {parserId recorded : Option Str}
    (hc : RevisionHistoryComplete db)
    (h : recordDecisionFromFinding cfg now db findingId user reason parserId =
      some (db', recorded)) : ExtendsHistory db db' := by
  rcases recordDecisionFromFinding_cases h with
    ⟨rfl, -⟩ | ⟨f, primary, others, d, db₁, db₂, -, -, hstore, hadd, rfl, -⟩
  · exact (SameContent.refl db').extends hc
  · have h₂ := extendsHistory_storeDecision hc hstore hadd
    exact h₂.of_eq rfl rfl

/-- Expiring one of a list of stored decisions keeps the histories complete and the rows of the
others, which have other ids. -/
theorem expireDecision_keeps {now : Instant} {d : TriageDecision} {ds : List TriageDecision}
    {db db' : Db} (hc : RevisionHistoryComplete db) (hmem : ∀ e ∈ d :: ds, e ∈ db.decisions.rows)
    (hnodup : ((d :: ds).map TriageDecision.id).Nodup) (h : expireDecision now db d = some db') :
    RevisionHistoryComplete db' ∧ ∀ e ∈ ds, e ∈ db'.decisions.rows := by
  obtain ⟨hdec, rev, hrows, hid, hnumber, hsnap⟩ := expireDecision_decisions h
  rw [List.map_cons, List.nodup_cons] at hnodup
  refine ⟨hc.update (hmem d List.mem_cons_self) (TriageDecision.keepsKeys_expire now) hdec hrows hid
    rfl hnumber hsnap, fun e he => ?_⟩
  rw [hdec]
  refine Table.mem_update.mpr (Or.inl ⟨hmem e (List.mem_cons_of_mem d he), fun hk => ?_⟩)
  exact hnodup.1 (List.mem_map.mpr ⟨e, he, hk⟩)

/-- Expiring a list of stored decisions extends the histories. -/
theorem extendsHistory_expireEach {now : Instant} {ds : List TriageDecision} {db db' : Db}
    (hc : RevisionHistoryComplete db) (hmem : ∀ d ∈ ds, d ∈ db.decisions.rows)
    (hnodup : (ds.map TriageDecision.id).Nodup)
    (h : ds.foldlM (expireDecision now) db = some db') : ExtendsHistory db db' := by
  induction ds generalizing db with
  | nil =>
    cases h
    exact (SameContent.refl _).extends hc
  | cons d ds ih =>
    rw [List.foldlM_cons] at h
    obtain ⟨db₁, hd, h⟩ := Option.bind_eq_some_iff.mp h
    obtain ⟨-, rev, hrows, -⟩ := expireDecision_decisions hd
    obtain ⟨hcomplete, hkeep⟩ := expireDecision_keeps hc hmem hnodup hd
    have h₁ : ExtendsHistory db db₁ := ⟨hcomplete, ⟨_, hrows.symm⟩⟩
    exact h₁.trans (ih hcomplete hkeep (List.nodup_cons.mp hnodup).2 h)

theorem extendsHistory_enforceWaiverExpiry {cfg : Settings} {now : Instant} {today : Str}
    {db db' : Db} {n : ℕ} (hc : RevisionHistoryComplete db)
    (h : enforceWaiverExpiry cfg now today db = some (db', n)) : ExtendsHistory db db' := by
  obtain ⟨⟨db₁, m⟩, hexp, h⟩ := Option.bind_eq_some_iff.mp h
  cases h
  have h₁ : ExtendsHistory db db₁ := by
    unfold expireDecisionWaivers at hexp
    split_ifs at hexp
    · cases hexp
      exact (SameContent.refl db).extends hc
    · obtain ⟨db₂, hfold, h⟩ := Option.bind_eq_some_iff.mp hexp
      cases h
      refine extendsHistory_expireEach hc (fun d hd => List.mem_of_mem_filter hd) ?_ hfold
      exact db.decisions.pk_nodup.sublist (List.filter_sublist.map _)
  exact h₁.of_eq rfl rfl

end Write

/-! ### Runs -/

section Runs

variable [Unicode] [UuidSource]

/-- The calls that resolve, link and alias. -/
def LedgerOp.Relinks : LedgerOp → Prop
  | .ingest .. | .create .. | .reconcile .. | .unlink .. | .aliasAsset .. | .aliasSubject .. => True
  | .edit .. | .revert .. | .record .. | .expireWaivers .. => False

/-- Resolve, link and alias calls write neither content nor revisions. -/
theorem World.sameContent_perform (cfg : Settings) (w : World) (op : LedgerOp) (h : op.Relinks) :
    SameContent w.db (w.perform cfg op).db := by
  cases op with
  | edit => cases h
  | revert => cases h
  | record => cases h
  | expireWaivers => cases h
  | ingest findingId rewrite parserId =>
    simp only [World.perform, World.ingest]
    split
    · exact .refl _
    · refine SameContent.trans ?_ (sameContent_resolve cfg _ _ _ _)
      exact .of_eq rfl rfl
  | create finding parserId =>
    simp only [World.perform, World.create]
    split
    · exact .refl _
    · refine SameContent.trans ?_ (sameContent_resolve cfg _ _ _ _)
      exact .of_eq rfl rfl
  | reconcile tenantId crossTenant limit =>
    rw [World.perform, (World.reconcile_db_clock cfg w _).1]
    exact sameContent_resolveEach cfg _ _ _
  | unlink findingIds => exact (sameRows_softUnlink cfg _ _ _).sameContent
  | aliasAsset sourceAssetId canonicalAssetId createdBy =>
    simp only [World.perform, World.aliasAsset]
    cases h : upsertAssetAlias cfg w.clock w.db sourceAssetId canonicalAssetId createdBy with
    | none => exact .refl _
    | some db => exact (sameRows_upsertAssetAlias h).sameContent
  | aliasSubject tenantId aliasKey canonicalKey reason =>
    exact (sameRows_registerSubjectAlias cfg _ _ _ _ _ _).sameContent

omit [Unicode] [UuidSource] in
private theorem sameContent_saveEdit {now : Instant} {db db' : Db} {findingId user : Str}
    {data : FindingUpdate} (h : saveEdit now db findingId data user = some db') :
    SameContent db db' := by
  obtain ⟨f, -, h⟩ := Option.bind_eq_some_iff.mp h
  obtain ⟨s, -, h⟩ := Option.bind_eq_some_iff.mp h
  cases h
  exact .of_eq rfl rfl

omit [Unicode] [UuidSource] in
private theorem sameContent_revertFinding {now : Instant} {db db' : Db}
    {findingId reason user : Str} (h : revertFinding now db findingId reason user = some db') :
    SameContent db db' := by
  obtain ⟨f, -, h⟩ := Option.bind_eq_some_iff.mp h
  obtain ⟨previous, -, h⟩ := Option.bind_eq_some_iff.mp h
  split_ifs at h
  obtain ⟨target, -, h⟩ := Option.bind_eq_some_iff.mp h
  cases h
  exact .of_eq rfl rfl

/-- Every call keeps the histories complete and only appends revisions. -/
theorem RevisionHistoryComplete.perform (cfg : Settings) (w : World)
    (hc : RevisionHistoryComplete w.db) (op : LedgerOp) :
    ExtendsHistory w.db (w.perform cfg op).db := by
  cases op with
  | edit findingId data user =>
    simp only [World.perform, World.edit]
    split
    · exact (SameContent.refl _).extends hc
    · next db hsave =>
      have h₁ := (sameContent_saveEdit hsave).extends hc
      split
      · exact (SameContent.refl _).extends hc
      · next hrec => exact h₁.trans (extendsHistory_record h₁.complete hrec)
  | revert findingId reason user =>
    simp only [World.perform, World.revert]
    split
    · exact (SameContent.refl _).extends hc
    · next hrev => exact (sameContent_revertFinding hrev).extends hc
  | record findingId user reason parserId =>
    simp only [World.perform, World.record]
    split
    · exact (SameContent.refl _).extends hc
    · next hrec => exact extendsHistory_record hc hrec
  | expireWaivers today =>
    simp only [World.perform, World.expireWaivers]
    split
    · exact (SameContent.refl _).extends hc
    · next hexp => exact extendsHistory_enforceWaiverExpiry hc hexp
  | ingest findingId rewrite parserId =>
    exact (World.sameContent_perform cfg w (.ingest findingId rewrite parserId) trivial).extends hc
  | create finding parserId =>
    exact (World.sameContent_perform cfg w (.create finding parserId) trivial).extends hc
  | reconcile tenantId crossTenant limit =>
    exact (World.sameContent_perform cfg w (.reconcile tenantId crossTenant limit) trivial).extends hc
  | unlink findingIds =>
    exact (World.sameContent_perform cfg w (.unlink findingIds) trivial).extends hc
  | aliasAsset source canonical createdBy =>
    exact (World.sameContent_perform cfg w (.aliasAsset source canonical createdBy) trivial).extends hc
  | aliasSubject tenantId aliasKey canonicalKey reason =>
    exact (World.sameContent_perform cfg w (.aliasSubject tenantId aliasKey canonicalKey reason) trivial).extends hc

omit [Unicode] [UuidSource] in
theorem revisionHistoryComplete_start (db : Db) (clock : Instant) :
    RevisionHistoryComplete (World.start db clock).db :=
  ⟨fun _ h => (List.not_mem_nil h).elim, fun _ h => (List.not_mem_nil h).elim⟩

theorem revisionHistoryComplete_run (cfg : Settings) (db : Db) (clock : Instant)
    (ops : List TimedOp) :
    RevisionHistoryComplete (run (World.step cfg) (World.start db clock) ops).db :=
  @run_induction _ _ (World.step cfg) (fun w => RevisionHistoryComplete w.db)
    (fun w t hw => (hw.perform cfg (w.wait t.after) t.op).complete) _
    (revisionHistoryComplete_start db clock) ops

/-- After any run, the revisions of each decision are numbered from one to its version and the last
one holds its content; the next call only appends revisions, and writes neither content nor
revisions when it resolves, links or aliases. -/
theorem revision_history_complete (cfg : Settings) (db : Db) (clock : Instant)
    (ops : List TimedOp) :
    let w := run (World.step cfg) (World.start db clock) ops
    (∀ d ∈ w.db.decisions.rows,
      (revisionsOf w.db d.id).map TriageDecisionRevision.revision =
          List.range' 1 d.decisionVersion ∧
        ∃ r, (revisionsOf w.db d.id).getLast? = some r ∧ r.snapshot = decisionSnapshot d) ∧
    ∀ t : TimedOp,
      w.db.revisions.rows <+: (w.step cfg t).db.revisions.rows ∧
      (t.op.Relinks →
        (w.step cfg t).db.revisions = w.db.revisions ∧
        (w.step cfg t).db.decisions.rows.map TriageDecision.content =
          w.db.decisions.rows.map TriageDecision.content) := by
  intro w
  have hc : RevisionHistoryComplete w.db := revisionHistoryComplete_run cfg db clock ops
  refine ⟨fun d hd => ⟨(hc.journal d hd).numbers, (hc.journal d hd).last⟩, fun t => ⟨?_, ?_⟩⟩
  · exact (hc.perform cfg (w.wait t.after) t.op).appended
  · intro ht
    have hsame := World.sameContent_perform cfg (w.wait t.after) t.op ht
    exact ⟨hsame.revisions, hsame.contents⟩

end Runs

end Vat
