import Vat.Ledger.System

/-!
# Newer human work

A decision overwrites newer work when a resolve writes it onto a finding that a person edited
after the decision's content was last written. The history of a run says whether this happened
(`NeverOverwrites`); the policy only sees time stamps. This file relates the two: in a run the
stamp of a decision is the time of the last write to its row, bookkeeping included, and the
latest audit stamp of a finding is the whole second of its last edit (`Traced`). So a resolve
respects newer work exactly when its decision is not terminal, or the finding is decided and
either shows the decision already or was edited in a later second than the last write to the
row (`World.LeavesAlone`).

## Main definitions

* `humanWorkNewer`, `NeverOverwrites`: the property of a history.
* `Traced`: what the stamps of the database say about the history.
* `World.RespectsTurn`, `World.Respects`: the condition on a resolve and on a call.

## Main results

* `neverOverwrites_resolve_iff`: one resolve.
* `never_overwrites_iff`: every run.
-/

namespace Vat

open Relational Transition

/-! ### Histories -/

/-- The latest edit of the finding came after the last revision of the decision. -/
def humanWorkNewer (findingId decisionId : Str) : List Event → Bool
  | [] => false
  | .edited f _ :: older => decide (f = findingId) || humanWorkNewer findingId decisionId older
  | .revised d _ :: older => decide (d ≠ decisionId) && humanWorkNewer findingId decisionId older
  | .booked _ _ :: older => humanWorkNewer findingId decisionId older
  | .projected _ _ :: older => humanWorkNewer findingId decisionId older

/-- The event writes a decision over newer work. -/
def Event.overwrites (older : List Event) : Event → Bool
  | .projected d f => humanWorkNewer f d older
  | .edited _ _ | .revised _ _ | .booked _ _ => false

/-- No decision was ever written over newer work. -/
def NeverOverwrites : List Event → Prop
  | [] => True
  | e :: older => e.overwrites older = false ∧ NeverOverwrites older

instance decidableNeverOverwrites : (h : List Event) → Decidable (NeverOverwrites h)
  | [] => inferInstanceAs (Decidable True)
  | _ :: older =>
    have := decidableNeverOverwrites older
    inferInstanceAs (Decidable (_ ∧ _))

/-- When the row of a decision was last written. -/
def lastTouch (decisionId : Str) : List Event → Option Instant
  | [] => none
  | .revised d t :: older => if d = decisionId then some t else lastTouch decisionId older
  | .booked d t :: older => if d = decisionId then some t else lastTouch decisionId older
  | .edited _ _ :: older => lastTouch decisionId older
  | .projected _ _ :: older => lastTouch decisionId older

/-- When a finding was last edited. -/
def lastEdit (findingId : Str) : List Event → Option Instant
  | [] => none
  | .edited f t :: older => if f = findingId then some t else lastEdit findingId older
  | .revised _ _ :: older => lastEdit findingId older
  | .booked _ _ :: older => lastEdit findingId older
  | .projected _ _ :: older => lastEdit findingId older

/-- Newer work means that there was an edit. -/
theorem exists_lastEdit_of_humanWorkNewer {findingId decisionId : Str} {h : List Event}
    (hn : humanWorkNewer findingId decisionId h = true) : ∃ t, lastEdit findingId h = some t := by
  induction h with
  | nil => cases hn
  | cons e older ih =>
    cases e with
    | edited f t =>
      rw [lastEdit]
      split_ifs with hf
      · exact ⟨t, rfl⟩
      · simp only [humanWorkNewer, hf, decide_false, Bool.false_or] at hn
        exact ih hn
    | revised d t =>
      rw [humanWorkNewer, Bool.and_eq_true] at hn
      exact ih hn.2
    | booked d t => exact ih hn
    | projected d f => exact ih hn

theorem mem_of_lastEdit {findingId : Str} {h : List Event} {t : Instant}
    (ht : lastEdit findingId h = some t) : .edited findingId t ∈ h := by
  induction h with
  | nil => cases ht
  | cons e older ih =>
    cases e with
    | edited f t' =>
      rw [lastEdit] at ht
      split_ifs at ht with hf
      · cases ht
        exact hf ▸ List.mem_cons_self
      · exact List.mem_cons_of_mem _ (ih ht)
    | revised d t' => exact List.mem_cons_of_mem _ (ih ht)
    | booked d t' => exact List.mem_cons_of_mem _ (ih ht)
    | projected d f => exact List.mem_cons_of_mem _ (ih ht)

/-- The event is an edit by a person. -/
def Event.isEdit : Event → Bool
  | .edited _ _ => true
  | .revised _ _ | .booked _ _ | .projected _ _ => false

/-- The event is a write of a decision onto a finding. -/
def Event.isProjection : Event → Bool
  | .projected _ _ => true
  | .edited _ _ | .revised _ _ | .booked _ _ => false

theorem lastEdit_append {evs h : List Event} (hevs : ∀ e ∈ evs, e.isEdit = false)
    (findingId : Str) : lastEdit findingId (evs ++ h) = lastEdit findingId h := by
  induction evs with
  | nil => rfl
  | cons e evs ih =>
    have ih := ih fun e' he' => hevs e' (List.mem_cons_of_mem e he')
    cases e with
    | edited f t => exact absurd (hevs _ List.mem_cons_self) (by simp [Event.isEdit])
    | revised d t => exact ih
    | booked d t => exact ih
    | projected d f => exact ih

theorem neverOverwrites_append {evs h : List Event} (hevs : ∀ e ∈ evs, e.isProjection = false) :
    NeverOverwrites (evs ++ h) ↔ NeverOverwrites h := by
  induction evs with
  | nil => rfl
  | cons e evs ih =>
    have ih := ih fun e' he' => hevs e' (List.mem_cons_of_mem e he')
    rw [List.cons_append, NeverOverwrites, ih, and_iff_right]
    cases e with
    | edited f t => rfl
    | revised d t => rfl
    | booked d t => rfl
    | projected d f => exact absurd (hevs _ List.mem_cons_self) (by simp [Event.isProjection])

/-! ### Stamps of decisions -/

/-- The stamp of every decision is the time of the last write to its row. -/
def Stamped (decisions : Table TriageDecision) (h : List Event) : Prop :=
  ∀ d ∈ decisions.rows, lastTouch d.id h = some d.updatedAt

/-- The events of a write to the row of a decision. -/
def Event.Touches (decisionId : Str) (now : Instant) (e : Event) : Prop :=
  e = .revised decisionId now ∨ e = .booked decisionId now

theorem lastTouch_cons_of_touches {e : Event} {k : Str} {now : Instant} (he : e.Touches k now)
    (decisionId : Str) (h : List Event) :
    lastTouch decisionId (e :: h) = if k = decisionId then some now else lastTouch decisionId h := by
  rcases he with rfl | rfl <;> rfl

theorem Stamped.update {t : Table TriageDecision} {h : List Event} (hs : Stamped t h) {k : Str}
    {now : Instant} {f : TriageDecision → TriageDecision} (hf : KeepsKeys f)
    (hnow : ∀ d, (f d).updatedAt = now) {e : Event} (he : e.Touches k now) :
    Stamped (t.update k f hf) (e :: h) := by
  intro d hd
  rw [lastTouch_cons_of_touches he]
  rcases Table.mem_update.mp hd with ⟨hd, hne⟩ | ⟨d₀, -, hk, rfl⟩
  · have hne' : k ≠ d.id := Ne.symm hne
    rw [if_neg hne']
    exact hs d hd
  · have hid : (f d₀).id = k := (hf d₀).1.trans hk
    rw [hid, if_pos rfl, hnow]

theorem Stamped.insert {t : Table TriageDecision} {h : List Event} (hs : Stamped t h)
    {d : TriageDecision} (hins : t.CanInsert d) :
    Stamped (t.insert d hins) (.revised d.id d.updatedAt :: h) := by
  intro e he
  rw [lastTouch]
  rcases List.mem_append.mp he with he | he
  · have hne : d.id ≠ e.id := fun heq => hins.1 (List.mem_map.mpr ⟨e, he, heq.symm⟩)
    rw [if_neg hne]
    exact hs e he
  · rw [List.mem_singleton.mp he, if_pos rfl]

/-! ### Stamps of findings -/

section Audit

variable [Unicode]

/-- The latest audit stamp of every finding is the second of its last edit. -/
def AuditTraced (findings : Table Finding) (h : List Event) : Prop :=
  ∀ f ∈ findings.rows, latestHumanEdit f.audit = (lastEdit f.id h).map floorSecond

/-- The id of a finding and its latest audit stamp. -/
def Finding.editStamp (f : Finding) : Str × Option Instant := (f.id, latestHumanEdit f.audit)

/-- The same findings with the same latest stamps. -/
def SameEdits (t t' : Table Finding) : Prop :=
  t'.rows.map Finding.editStamp = t.rows.map Finding.editStamp

theorem SameEdits.refl (t : Table Finding) : SameEdits t t := rfl

theorem SameEdits.trans {t t' t'' : Table Finding} (h : SameEdits t t') (h' : SameEdits t' t'') :
    SameEdits t t'' := Eq.trans h' h

theorem SameEdits.mem {t t' : Table Finding} (h : SameEdits t t') {f' : Finding}
    (hf' : f' ∈ t'.rows) :
    ∃ f ∈ t.rows, f.id = f'.id ∧ latestHumanEdit f.audit = latestHumanEdit f'.audit := by
  have hmem : f'.editStamp ∈ t.rows.map Finding.editStamp := by
    rw [← show _ = _ from h]
    exact List.mem_map_of_mem hf'
  obtain ⟨f, hf, heq⟩ := List.mem_map.mp hmem
  exact ⟨f, hf, (Prod.mk.inj heq).1, (Prod.mk.inj heq).2⟩

theorem SameEdits.symm {t t' : Table Finding} (h : SameEdits t t') : SameEdits t' t := Eq.symm h

/-- Rewriting rows without a new edit. -/
theorem sameEdits_of_map {t t' : Table Finding} {g : Finding → Finding}
    (hrows : t'.rows = t.rows.map g)
    (hg : ∀ f, (g f).id = f.id ∧ latestHumanEdit (g f).audit = latestHumanEdit f.audit) :
    SameEdits t t' := by
  rw [SameEdits, hrows, List.map_map]
  exact List.map_congr_left fun f _ => Prod.ext (hg f).1 (hg f).2

/-- Rewriting one row without a new edit. -/
theorem sameEdits_update {t : Table Finding} {k : Str} {g : Finding → Finding} (hk : KeepsKeys g)
    (hg : ∀ f, latestHumanEdit (g f).audit = latestHumanEdit f.audit) :
    SameEdits t (t.update k g hk) := by
  refine sameEdits_of_map (Table.rows_update t k g hk) fun f => ?_
  split_ifs
  · exact ⟨(hk f).1, hg f⟩
  · exact ⟨rfl, rfl⟩

theorem AuditTraced.of_sameEdits {t t' : Table Finding} {h : List Event} (ha : AuditTraced t h)
    (hs : SameEdits t t') {evs : List Event} (hevs : ∀ e ∈ evs, e.isEdit = false) :
    AuditTraced t' (evs ++ h) := by
  intro f' hf'
  obtain ⟨f, hf, hid, hstamp⟩ := hs.mem hf'
  rw [lastEdit_append hevs, ← hstamp, ← hid]
  exact ha f hf

omit [Unicode] in
/-- The later of two stamps in order. -/
theorem laterEdit_of_le {o : Option Instant} {s : Instant} (h : ∀ t ∈ o, t ≤ s) :
    laterEdit o (some s) = some s := by
  cases o with
  | none => rfl
  | some t =>
    have hle : t ≤ s := h t rfl
    rw [laterEdit]
    split_ifs with hlt
    · rfl
    · rw [le_antisymm hle (not_lt.mp hlt)]

/-! ### The invariant of runs -/

/-- What the stamps of the database say about the history. -/
structure Traced (w : World) : Prop where
  stamped : Stamped w.db.decisions w.history
  audit : AuditTraced w.db.findings w.history
  past : ∀ f t, .edited f t ∈ w.history → t ≤ w.clock
  known : ∀ f t, .edited f t ∈ w.history → ∃ g ∈ w.db.findings.rows, g.id = f

theorem traced_wait {w : World} (h : Traced w) (after : ℕ) : Traced (w.wait after) :=
  ⟨h.stamped, h.audit, fun f t ht => (h.past f t ht).trans (Nat.le_add_right _ _), h.known⟩

/-- Events other than edits, over findings with the same edits. -/
theorem Traced.extend {w w' : World} (h : Traced w) (evs : List Event)
    (hhist : w'.history = evs ++ w.history) (hclock : w'.clock = w.clock)
    (hevs : ∀ e ∈ evs, e.isEdit = false) (hfindings : SameEdits w.db.findings w'.db.findings)
    (hdecisions : Stamped w'.db.decisions w'.history) : Traced w' := by
  have hold : ∀ f t, .edited f t ∈ w'.history → .edited f t ∈ w.history := by
    intro f t ht
    rw [hhist] at ht
    rcases List.mem_append.mp ht with ht | ht
    · exact absurd (hevs _ ht) (by simp [Event.isEdit])
    · exact ht
  refine ⟨hdecisions, hhist ▸ h.audit.of_sameEdits hfindings hevs, fun f t ht => ?_,
    fun f t ht => ?_⟩
  · rw [hclock]
    exact h.past f t (hold f t ht)
  · obtain ⟨g, hg, hid⟩ := h.known f t (hold f t ht)
    obtain ⟨g', hg', hid', -⟩ := hfindings.symm.mem hg
    exact ⟨g', hg', hid'.trans hid⟩

/-! ### One resolve -/

namespace World

/-- The decision `d` is not written onto the finding `f`: it is not terminal, or the finding is
decided and shows it already, or was edited in a later second than the last write to the row. -/
def LeavesAlone (w : World) (f : Finding) (d : TriageDecision) : Prop :=
  d.status ∉ terminalDecisionStatuses ∨
    (f.status ∉ preDecisionStatuses ∧
      (ShowsDecision f d (linkApplied w.db d.id f.id) ∨
        ∃ touch edit, lastTouch d.id w.history = some touch ∧
          lastEdit f.id w.history = some edit ∧ touch < floorSecond edit))

/-- A resolve of the finding respects newer work. -/
def RespectsTurn (cfg : Settings) (w : World) (findingId : Str) (parserId : Option Str) : Prop :=
  cfg.decisionLedgerEnabled = true → ∀ f d matched, w.db.findings.get? findingId = some f →
    governingDecision cfg w.db f parserId = some (d, matched) →
    humanWorkNewer findingId d.id w.history = true → LeavesAlone w f d

end World

/-- Under the invariant, the policy answers `apply` over newer work exactly when the condition
fails. -/
theorem Traced.apply_iff_not_leavesAlone {w : World} (h : Traced w) {f : Finding}
    (hf : f ∈ w.db.findings.rows) {d : TriageDecision} (hd : d ∈ w.db.decisions.rows)
    (hn : humanWorkNewer f.id d.id w.history = true) :
    relinkAction w.db f d = .apply ↔ ¬ w.LeavesAlone f d := by
  obtain ⟨edit, hedit⟩ := exists_lastEdit_of_humanWorkNewer hn
  have hlatest : latestHumanEdit f.audit = some (floorSecond edit) := by
    rw [h.audit f hf, hedit]
    rfl
  have htouch := h.stamped d hd
  have hnewer : findingHasNewerHumanEdit f d = decide (d.updatedAt < floorSecond edit) := by
    rw [findingHasNewerHumanEdit, hlatest]
  have hex : (∃ touch e, lastTouch d.id w.history = some touch ∧
      lastEdit f.id w.history = some e ∧ touch < floorSecond e) ↔
      d.updatedAt < floorSecond edit := by
    simp only [htouch, hedit, Option.some.injEq, exists_eq_left', exists_and_left]
  rw [relinkAction, decisionApplyAction_eq_apply_iff, World.LeavesAlone, hex, hnewer,
    decide_eq_false_iff_not]
  tauto

theorem sameEdits_relink (now : Instant) (db : Db) (f : Finding) (d : TriageDecision)
    (matched : DecisionSubjectCandidate) :
    SameEdits db.findings (relinkDecision now db f d matched).findings := by
  simp only [relinkDecision]
  split_ifs
  · exact sameEdits_update _ fun g => latestHumanEdit_projection now g d
  · exact .refl _

/-- A resolve keeps the invariant, and respects newer work exactly when the condition holds. -/
theorem neverOverwrites_resolve_iff (cfg : Settings) {w : World} (h : Traced w) (findingId : Str)
    (parserId : Option Str) :
    Traced (w.resolve cfg findingId parserId) ∧
      (NeverOverwrites (w.resolve cfg findingId parserId).history ↔
        NeverOverwrites w.history ∧ w.RespectsTurn cfg findingId parserId) := by
  rcases resolveAndApplyDecision_cases cfg w.clock w.db findingId parserId with
    ⟨heq, hnone⟩ | ⟨f, d, matched, henabled, hf, hg, heq⟩
  · rw [World.resolve_of_unresolved heq]
    exact ⟨h, (and_iff_left fun he f d m hf hg => absurd hg (hnone f d m he hf)).symm⟩
  · have hmem := Table.mem_of_get? hf
    have hid : f.id = findingId := Table.pk_of_get? hf
    subst hid
    have hturn : w.RespectsTurn cfg f.id parserId ↔
        (humanWorkNewer f.id d.id w.history = true → w.LeavesAlone f d) := by
      constructor
      · exact fun hr => hr henabled f d matched hf hg
      · intro hr _ f' d' m' hf' hg'
        obtain rfl := Option.some.inj (hf.symm.trans hf')
        obtain ⟨rfl, -⟩ := Prod.mk.inj (Option.some.inj (hg.symm.trans hg'))
        exact hr
    have hhist := World.resolve_history heq
    have hdb : (w.resolve cfg f.id parserId).db = relinkDecision w.clock w.db f d matched := by
      rw [World.resolve_db, heq]
    refine ⟨h.extend (.booked d.id w.clock ::
      if relinkAction w.db f d = .apply then [.projected d.id f.id] else []) hhist rfl ?_ ?_ ?_, ?_⟩
    · intro e he
      rcases List.mem_cons.mp he with rfl | he
      · rfl
      · split_ifs at he
        · rw [List.mem_singleton.mp he]
          rfl
        · cases he
    · rw [hdb]
      exact sameEdits_relink w.clock w.db f d matched
    · rw [hdb, hhist]
      have hs : Stamped w.db.decisions
          ((if relinkAction w.db f d = .apply then [.projected d.id f.id] else []) ++
            w.history) := by
        split_ifs <;> exact h.stamped
      exact hs.update (TriageDecision.keepsKeys_touch w.clock f.id) (fun _ => rfl) (Or.inr rfl)
    · have hbooked : ∀ older, NeverOverwrites (.booked d.id w.clock :: older) ↔
          NeverOverwrites older := fun older => and_iff_right rfl
      rw [hhist, hturn, hbooked]
      have happly := h.apply_iff_not_leavesAlone hmem (governingDecision_mem hg)
      split_ifs with ha
      · rw [List.singleton_append, NeverOverwrites, and_comm]
        refine and_congr_right fun _ => ?_
        change humanWorkNewer f.id d.id w.history = false ↔ _
        cases hn : humanWorkNewer f.id d.id w.history with
        | false => simp
        | true => simpa using (happly hn).mp ha
      · exact (and_iff_left fun hn => not_not.mp fun hl => ha ((happly hn).mpr hl)).symm

/-! ### The other calls -/

/-- A person's or the system's edit of one finding, at the present second. -/
theorem Traced.edit {w : World} (h : Traced w) {findingId user : Str} {f : Finding}
    (hf : w.db.findings.get? findingId = some f) {g : Finding → Finding} (hk : KeepsKeys g)
    (hg : ∀ f, ∃ action note,
      (g f).audit = f.audit ++ [⟨some (floorSecond w.clock), user, action, note⟩])
    {db : Db} (hfindings : db.findings = w.db.findings.update findingId g hk)
    (hdecisions : db.decisions = w.db.decisions) :
    Traced { w with
      db := db
      history := World.editEvents w.clock findingId user ++ w.history } := by
  unfold World.editEvents
  cases hu : isHumanUser user with
  | false =>
    refine h.extend [] rfl rfl (by simp) ?_ (hdecisions ▸ h.stamped)
    rw [hfindings]
    refine sameEdits_update hk fun f => ?_
    obtain ⟨action, note, haudit⟩ := hg f
    rw [haudit, latestHumanEdit_concat, AuditEntry.isHuman, hu]
    rfl
  | true =>
    refine ⟨hdecisions ▸ h.stamped, ?_, ?_, ?_⟩
    · intro f' hf'
      have hrows : f' ∈ (w.db.findings.update findingId g hk).rows := hfindings ▸ hf'
      change _ = (if findingId = f'.id then some w.clock else lastEdit f'.id w.history).map _
      rcases Table.mem_update.mp hrows with ⟨hold, hne⟩ | ⟨f₀, hf₀, hid, rfl⟩
      · have hne' : findingId ≠ f'.id := Ne.symm hne
        rw [if_neg hne']
        exact h.audit f' hold
      · have hid' : findingId = (g f₀).id := (hid.symm.trans (hk f₀).1.symm)
        obtain ⟨action, note, haudit⟩ := hg f₀
        rw [if_pos hid', haudit, latestHumanEdit_concat, AuditEntry.isHuman, hu, h.audit f₀ hf₀]
        -- Earlier edits of the finding were in no later second.
        refine laterEdit_of_le fun s hs => ?_
        obtain ⟨t, ht, rfl⟩ := Option.map_eq_some_iff.mp hs
        exact floorSecond_mono (h.past _ t (mem_of_lastEdit ht))
    · intro f' t ht
      rcases List.mem_cons.mp ht with heq | ht
      · cases heq
        exact le_rfl
      · exact h.past f' t ht
    · intro f' t ht
      have hkeep : ∀ k, (∃ r ∈ w.db.findings.rows, r.id = k) → ∃ r ∈ db.findings.rows, r.id = k := by
        rintro k ⟨r, hr, rfl⟩
        have hget := Table.get?_pk_of_mem hr
        have hsome : (db.findings.get? r.id).isSome := by
          rw [hfindings, Table.get?_update]
          split_ifs
          · rw [hf]
            rfl
          · exact Option.isSome_of_eq_some hget
        obtain ⟨r', hr'⟩ := Option.isSome_iff_exists.mp hsome
        exact ⟨r', Table.mem_of_get? hr', Table.pk_of_get? hr'⟩
      rcases List.mem_cons.mp ht with heq | ht
      · cases heq
        exact hkeep _ ⟨f, Table.mem_of_get? hf, Table.pk_of_get? hf⟩
      · exact hkeep f' (h.known f' t ht)

section Recording

variable [UuidSource]

theorem Traced.record {cfg : Settings} {w : World} (h : Traced w) {findingId user reason : Str}
    {parserId recorded : Option Str} {db : Db}
    (hrec : recordDecisionFromFinding cfg w.clock w.db findingId user reason parserId =
      some (db, recorded)) :
    Traced { w with db := db, history := World.recordEvents w.clock recorded ++ w.history } := by
  rcases recordDecisionFromFinding_cases hrec with
    ⟨rfl, rfl⟩ | ⟨f, primary, others, d, db₁, db₂, -, -, hstore, hadd, rfl, rfl⟩
  · exact h
  · obtain ⟨revisions, rev, rfl, -⟩ := addRevision_cases hadd
    refine h.extend [.revised d.id w.clock] rfl rfl (by simp [Event.isEdit]) ?_ ?_
    · rcases storeDecision_cases hstore with ⟨d₀, -, -, rfl⟩ | ⟨-, -, -, rfl⟩ <;> exact .refl _
    · rcases storeDecision_cases hstore with ⟨d₀, -, rfl, rfl⟩ | ⟨-, hins, rfl, rfl⟩
      · exact h.stamped.update (TriageDecision.keepsKeys_revise w.clock user f) (fun _ => rfl)
          (Or.inl rfl)
      · exact h.stamped.insert hins

omit [UuidSource] in
private theorem latestHumanEdit_system (audit : List AuditEntry) (ts : Option Instant)
    (action : Str) (note : Option Str) :
    latestHumanEdit (audit ++ [⟨ts, str "system", action, note⟩]) = latestHumanEdit audit :=
  latestHumanEdit_append fun e he => by
    rw [List.mem_singleton.mp he]
    exact isHumanUser_system

omit [UuidSource] in
theorem sameEdits_reopenLinked (now : Instant) (note : Str) (version : ℕ) (db : Db)
    (links : List DecisionFindingLink) :
    SameEdits db.findings (links.foldl (reopenLinked now note version) db).findings := by
  induction links generalizing db with
  | nil => exact .refl _
  | cons l links ih =>
    refine SameEdits.trans ?_ (ih _)
    unfold reopenLinked
    split
    · exact .refl _
    · split_ifs
      · exact .refl _
      · exact sameEdits_update (Finding.keepsKeys_reopenExpired now note) fun f =>
          latestHumanEdit_system _ _ _ _

theorem Traced.expireDecision {w : World} (h : Traced w) {d : TriageDecision} {db : Db}
    (hexp : expireDecision w.clock w.db d = some db) :
    Traced { w with db := db, history := .revised d.id w.clock :: w.history } := by
  have hdec := (expireDecision_decisions hexp).1
  obtain ⟨revisions, rev, -, -, -, -, rfl⟩ := expireDecision_cases hexp
  refine h.extend [.revised d.id w.clock] rfl rfl (by simp [Event.isEdit]) ?_ ?_
  · exact sameEdits_reopenLinked w.clock _ _
      { w.db with
        decisions := w.db.decisions.update d.id (TriageDecision.expire w.clock)
          (TriageDecision.keepsKeys_expire w.clock)
        revisions := revisions } _
  · rw [hdec]
    exact h.stamped.update (TriageDecision.keepsKeys_expire w.clock) (fun _ => rfl) (Or.inl rfl)

theorem Traced.expireEach {ds : List TriageDecision} {w : World} (h : Traced w) {db : Db}
    (hexp : ds.foldlM (Vat.expireDecision w.clock) w.db = some db) :
    Traced { w with
      db := db
      history := (ds.map fun d => .revised d.id w.clock).reverse ++ w.history } := by
  induction ds generalizing w with
  | nil =>
    cases hexp
    exact h
  | cons d ds ih =>
    rw [List.foldlM_cons] at hexp
    obtain ⟨db₁, hd, hexp⟩ := Option.bind_eq_some_iff.mp hexp
    have h₁ := ih (h.expireDecision hd) hexp
    rwa [List.map_cons, List.reverse_cons, List.append_assoc, List.singleton_append]

/-- Waiver expiry keeps the invariant. -/
theorem Traced.expireWaivers {cfg : Settings} {w : World} (h : Traced w) (today : Str) :
    Traced (w.expireWaivers cfg today) := by
  unfold World.expireWaivers
  split
  · exact h
  · next db n hexp =>
    obtain ⟨⟨db₁, m⟩, hledger, hexp⟩ := Option.bind_eq_some_iff.mp hexp
    cases hexp
    have h₁ : Traced { w with
        db := db₁
        history :=
          (if cfg.decisionLedgerEnabled then
            ((expiredWaivers w.db today).map fun d => .revised d.id w.clock).reverse
          else []) ++ w.history } := by
      unfold expireDecisionWaivers at hledger
      cases henabled : cfg.decisionLedgerEnabled with
      | false =>
        rw [henabled] at hledger
        cases hledger
        exact h
      | true =>
        rw [henabled] at hledger
        obtain ⟨db₂, hfold, hledger⟩ := Option.bind_eq_some_iff.mp hledger
        cases hledger
        exact h.expireEach hfold
    refine h₁.extend [] rfl rfl (by simp) (sameEdits_of_map rfl fun f => ?_) h₁.stamped
    split_ifs
    · exact ⟨rfl, latestHumanEdit_system _ _ _ _⟩
    · exact ⟨rfl, rfl⟩

end Recording

/-! ### Runs -/

section Runs

variable [UuidSource]

/-- A call respects newer work: every resolve it makes does. -/
def World.RespectsNow (cfg : Settings) (w : World) : LedgerOp → Prop
  | .ingest findingId rewrite parserId =>
    ∀ findings, w.db.findings.update? findingId rewrite.apply rewrite.id_eq = some findings →
      World.RespectsTurn cfg { w with db := { w.db with findings := findings } } findingId parserId
  | .create finding parserId =>
    ∀ findings, w.db.findings.insert? finding.row = some findings →
      World.RespectsTurn cfg { w with db := { w.db with findings := findings } } finding.row.id
        parserId
  | .reconcile tenantId crossTenant limit =>
    Along (fun w findingId => w.resolve cfg findingId none)
      (fun w findingId => w.RespectsTurn cfg findingId none) w
      (scannedIds w.db tenantId crossTenant limit)
  | .edit .. | .revert .. | .record .. | .expireWaivers .. | .unlink .. | .aliasAsset ..
  | .aliasSubject .. => True

/-- A call of a run respects newer work. -/
def World.Respects (cfg : Settings) (w : World) (t : TimedOp) : Prop :=
  World.RespectsNow cfg (w.wait t.after) t.op

omit [UuidSource] in
/-- An import rewrites a finding without editing it. -/
theorem sameEdits_ingest {t t' : Table Finding} {k : Str} {rewrite : IngestRewrite}
    (h : t.update? k rewrite.apply rewrite.id_eq = some t') : SameEdits t t' := by
  refine sameEdits_of_map (Table.rows_of_update? h) fun f => ?_
  split_ifs
  · obtain ⟨added, hadded, hsystem⟩ := rewrite.audit_eq f
    exact ⟨rewrite.id_eq f, by rw [hadded, latestHumanEdit_append hsystem]⟩
  · exact ⟨rfl, rfl⟩

omit [UuidSource] in
/-- A new finding has not been edited. -/
theorem Traced.insert {w : World} (h : Traced w) (finding : ImportedFinding)
    {findings : Table Finding} (hins : w.db.findings.insert? finding.row = some findings) :
    Traced { w with db := { w.db with findings := findings } } := by
  obtain ⟨hcan, rfl⟩ := Table.insert?_eq_some_iff.mp hins
  refine ⟨h.stamped, ?_, h.past, fun f t ht => ?_⟩
  · intro f hf
    rcases List.mem_append.mp hf with hf | hf
    · exact h.audit f hf
    · obtain rfl := List.mem_singleton.mp hf
      have hnone : lastEdit finding.row.id w.history = none := by
        rw [Option.eq_none_iff_forall_ne_some]
        intro t ht
        obtain ⟨g, hg, hid⟩ := h.known _ t (mem_of_lastEdit ht)
        exact hcan.1 (List.mem_map.mpr ⟨g, hg, hid⟩)
      rw [hnone, ← List.nil_append finding.row.audit, latestHumanEdit_append finding.unedited]
      rfl
  · obtain ⟨g, hg, hid⟩ := h.known f t ht
    exact ⟨g, List.mem_append_left _ hg, hid⟩

/-- A call that resolves nothing: the invariant is kept and no decision is written onto a
finding. -/
structure KeepsTrace (w w' : World) : Prop where
  traced : Traced w'
  history : ∃ evs, w'.history = evs ++ w.history ∧ ∀ e ∈ evs, e.isProjection = false

omit [UuidSource] in
theorem KeepsTrace.refl {w : World} (h : Traced w) : KeepsTrace w w := ⟨h, [], rfl, by simp⟩

omit [UuidSource] in
theorem KeepsTrace.neverOverwrites_iff {w w' : World} (h : KeepsTrace w w') :
    NeverOverwrites w'.history ↔ NeverOverwrites w.history := by
  obtain ⟨evs, heq, hevs⟩ := h.history
  rw [heq]
  exact neverOverwrites_append hevs

omit [UuidSource] in
private theorem editEvents_isProjection (now : Instant) (findingId user : Str) :
    ∀ e ∈ World.editEvents now findingId user, e.isProjection = false := by
  unfold World.editEvents
  split_ifs <;> simp [Event.isProjection]

omit [Unicode] [UuidSource] in
private theorem recordEvents_isProjection (now : Instant) (recorded : Option Str) :
    ∀ e ∈ World.recordEvents now recorded, e.isProjection = false := by
  simp [World.recordEvents, Event.isProjection]

theorem Traced.keeps_edit (cfg : Settings) {w : World} (h : Traced w) (findingId : Str)
    (data : FindingUpdate) (user : Str) : KeepsTrace w (w.edit cfg findingId data user) := by
  unfold World.edit
  split
  · exact .refl h
  · next db hsave =>
    split
    · exact .refl h
    · next db' recorded hrec =>
      obtain ⟨f, hf, hsave⟩ := Option.bind_eq_some_iff.mp hsave
      obtain ⟨newStatus, -, hsave⟩ := Option.bind_eq_some_iff.mp hsave
      have hdb := (Option.some.inj hsave).symm
      have h₁ : Traced { w with
          db := db
          history := World.editEvents w.clock findingId user ++ w.history } :=
        h.edit hf (Finding.keepsKeys_edited w.clock data user newStatus) (fun f => ⟨_, _, rfl⟩)
          (by rw [hdb]) (by rw [hdb])
      refine ⟨h₁.record hrec, _, (List.append_assoc _ _ _).symm, fun e he => ?_⟩
      rcases List.mem_append.mp he with he | he
      · exact recordEvents_isProjection _ _ e he
      · exact editEvents_isProjection _ _ _ e he

omit [UuidSource] in
theorem Traced.keeps_revert {w : World} (h : Traced w) (findingId reason user : Str) :
    KeepsTrace w (w.revert findingId reason user) := by
  unfold World.revert
  split
  · exact .refl h
  · next db hrev =>
    obtain ⟨f, hf, hrev⟩ := Option.bind_eq_some_iff.mp hrev
    obtain ⟨previous, -, hrev⟩ := Option.bind_eq_some_iff.mp hrev
    split_ifs at hrev
    obtain ⟨target, -, hrev⟩ := Option.bind_eq_some_iff.mp hrev
    have hdb := (Option.some.inj hrev).symm
    exact ⟨h.edit hf (Finding.keepsKeys_reverted w.clock reason user target)
      (fun f => ⟨_, _, rfl⟩) (by rw [hdb]) (by rw [hdb]), _, rfl, editEvents_isProjection _ _ _⟩

theorem Traced.keeps_record (cfg : Settings) {w : World} (h : Traced w)
    (findingId user reason : Str) (parserId : Option Str) :
    KeepsTrace w (w.record cfg findingId user reason parserId) := by
  unfold World.record
  split
  · exact .refl h
  · next hrec => exact ⟨h.record hrec, _, rfl, recordEvents_isProjection _ _⟩

theorem Traced.keeps_expireWaivers (cfg : Settings) {w : World} (h : Traced w) (today : Str) :
    KeepsTrace w (w.expireWaivers cfg today) := by
  refine ⟨h.expireWaivers today, ?_⟩
  unfold World.expireWaivers
  split
  · exact ⟨[], rfl, by simp⟩
  · refine ⟨_, rfl, ?_⟩
    split_ifs <;> simp [Event.isProjection]

omit [UuidSource] in
/-- A call that writes neither findings nor decisions. -/
theorem Traced.keeps_of_sameRows {w : World} (h : Traced w) {db : Db} (hs : SameRows w.db db) :
    KeepsTrace w { w with db := db } :=
  ⟨⟨hs.decisions ▸ h.stamped, hs.findings ▸ h.audit, h.past, hs.findings ▸ h.known⟩, [], rfl,
    by simp⟩

/-- A call keeps the invariant, and leaves a history without overwrites exactly when there was
none and the call respects newer work. -/
theorem neverOverwrites_perform_iff (cfg : Settings) {w : World} (h : Traced w) (op : LedgerOp) :
    Traced (w.perform cfg op) ∧
      (NeverOverwrites (w.perform cfg op).history ↔
        NeverOverwrites w.history ∧ w.RespectsNow cfg op) := by
  have hplain : ∀ {w'}, KeepsTrace w w' → Traced w' ∧
      (NeverOverwrites w'.history ↔ NeverOverwrites w.history ∧ True) := fun hk =>
    ⟨hk.traced, hk.neverOverwrites_iff.trans (and_true _).symm.to_iff⟩
  cases op with
  | edit findingId data user => exact hplain (h.keeps_edit cfg findingId data user)
  | revert findingId reason user => exact hplain (h.keeps_revert findingId reason user)
  | record findingId user reason parserId =>
    exact hplain (h.keeps_record cfg findingId user reason parserId)
  | expireWaivers today => exact hplain (h.keeps_expireWaivers cfg today)
  | unlink findingIds => exact hplain (h.keeps_of_sameRows (sameRows_softUnlink cfg _ _ _))
  | aliasAsset source canonical createdBy =>
    simp only [World.perform, World.aliasAsset]
    cases hup : upsertAssetAlias cfg w.clock w.db source canonical createdBy with
    | none => exact hplain (.refl h)
    | some db => exact hplain (h.keeps_of_sameRows (sameRows_upsertAssetAlias hup))
  | aliasSubject tenantId aliasKey canonicalKey reason =>
    exact hplain (h.keeps_of_sameRows (sameRows_registerSubjectAlias cfg _ _ _ _ _ _))
  | ingest findingId rewrite parserId =>
    simp only [World.perform, World.ingest, World.RespectsNow]
    cases hup : w.db.findings.update? findingId rewrite.apply rewrite.id_eq with
    | none => simpa using h
    | some findings =>
      have h₁ : Traced { w with db := { w.db with findings := findings } } :=
        h.extend [] rfl rfl (by simp) (sameEdits_ingest hup) h.stamped
      simpa using neverOverwrites_resolve_iff cfg h₁ findingId parserId
  | create finding parserId =>
    simp only [World.perform, World.create, World.RespectsNow]
    cases hins : w.db.findings.insert? finding.row with
    | none => simpa using h
    | some findings =>
      simpa using neverOverwrites_resolve_iff cfg (h.insert finding hins) finding.row.id parserId
  | reconcile tenantId crossTenant limit =>
    have hturn := fun (w : World) (findingId : Str) (h : Traced w) =>
      neverOverwrites_resolve_iff cfg h findingId none
    exact ⟨run_induction (fun w findingId h => (hturn w findingId h).1) h _,
      @run_iff_along _ _ _ Traced (fun w => NeverOverwrites w.history) _
        (fun w findingId h => (hturn w findingId h).1)
        (fun w findingId h => (hturn w findingId h).2) _ h _⟩

/-- A finding table that no person has edited. -/
def Unedited (findings : Table Finding) : Prop :=
  ∀ f ∈ findings.rows, ∀ e ∈ f.audit, e.isHuman = false

/-- A database in which no person has edited a finding. -/
structure UneditedDb where
  db : Db
  unedited : Unedited db.findings

omit [UuidSource] in
theorem traced_start (start : UneditedDb) (clock : Instant) :
    Traced (World.start start.db clock) := by
  refine ⟨fun d hd => (List.not_mem_nil hd).elim, fun f hf => ?_, fun f t ht => ?_, fun f t ht => ?_⟩
  · exact @latestHumanEdit_append _ [] _ (start.unedited f hf)
  · exact (List.not_mem_nil ht).elim
  · exact (List.not_mem_nil ht).elim

/-- The history of a run traces its database. -/
theorem traced_run (cfg : Settings) (start : UneditedDb) (clock : Instant) (ops : List TimedOp) :
    Traced (run (World.step cfg) (World.start start.db clock) ops) :=
  @run_induction _ _ (World.step cfg) Traced
    (fun _ t h => (neverOverwrites_perform_iff cfg (traced_wait h t.after) t.op).1) _
    (traced_start start clock) ops

/-- Over a run, decisions are never written over newer human work exactly when every resolve of
the run finds its decision not terminal, or its finding decided and either showing the decision
or edited in a later second than the last write to the decision's row. -/
theorem never_overwrites_iff (cfg : Settings) (start : UneditedDb) (clock : Instant)
    (ops : List TimedOp) :
    NeverOverwrites (run (World.step cfg) (World.start start.db clock) ops).history ↔
      Along (World.step cfg) (World.Respects cfg) (World.start start.db clock) ops := by
  have hrun := @run_iff_along _ _ _ Traced (fun w => NeverOverwrites w.history)
    (World.Respects cfg)
    (fun w t h => (neverOverwrites_perform_iff cfg (traced_wait h t.after) t.op).1)
    (fun w t h => (neverOverwrites_perform_iff cfg (traced_wait h t.after) t.op).2) _
    (traced_start start clock) ops
  exact hrun.trans (and_iff_right trivial)

end Runs

end Audit

/-! ### A reverted decision comes back -/

section Reverted

attribute [local instance] asciiUnicode longestIds

/-- An open finding. -/
def openFinding : Finding :=
  { Finding.blank (str "f-1") (str "fp-1") (str "CVE-2024-1") with
    image := some (str "registry.io/app")
    component := some (str "openssl") }

/-- Risk accepted by one person, reverted to Open by another, and imported again. -/
def revertedRun : List TimedOp :=
  [⟨1000000, .edit (str "f-1")
      { FindingUpdate.none with status := some (some (str "Risk Accepted")) } (str "alice")⟩,
    ⟨60000000, .revert (str "f-1") (str "needs a fix") (str "bob")⟩,
    ⟨60000000, .ingest (str "f-1") .same none⟩]

/-- The import writes the decision onto the finding that was reverted after it. -/
theorem overwrites_reverted_finding :
    ¬ NeverOverwrites (run (World.step ⟨true, []⟩)
      (World.start (Db.ofFindings (.singleton openFinding)) 0) revertedRun).history := by
  decide +kernel

end Reverted

end Vat
