import Vat.Audit.Event
import Vat.Model.Database
import Vat.Sorted.Lists
import Vat.Transition.Run

/-!
# Daily checkpoints of the audit log

The anchor of a day of audit events and the job that writes it. A date is the number of days since
1970-01-01 UTC, and an instant the number of microseconds.

Source: `backend/app/services/audit_events.py`, lines 220–271; `backend/app/tasks/audit_tasks.py`;
`backend/app/models/audit_ledger_checkpoint.py`.

## Main definitions

* `InCheckpoint`, `dayEvents`, `anchorHash`.
* `createDailyCheckpoint`, `runDailyCheckpoint`, `anchored`.
* `Covered`: an event that some day's window takes in.

## Main results

* `anchored_eq`: what the checkpoints hold after the job has run.
* `mem_dayEvents_iff`: which day an event belongs to.
* `checkpoints_exact_iff`: when an event is in exactly one checkpoint, which notices that the event
  is deleted or altered.
-/

namespace Vat

open Relational Transition Sorted

/-- A row of the table `audit_ledger_checkpoints`. -/
structure AuditLedgerCheckpoint where
  id : Str
  checkpointDate : ℕ
  retentionClass : Str
  eventCount : ℕ
  anchorHash : Str
  createdAt : Instant

instance : Row AuditLedgerCheckpoint Str (ℕ × Str) where
  pk := AuditLedgerCheckpoint.id
  uk cp := (cp.checkpointDate, cp.retentionClass)

instance : Row AuditEventRow Str Str where
  pk := AuditEventRow.eventId
  uk := AuditEventRow.eventId

/-- The settings of the job. -/
structure CheckpointSettings where
  auditDailyCheckpointEnabled : Bool
  auditCheckpointRetentionClass : Str

/-! ### The events of a day -/

/-- An event of the window of a day: up to `23:59:59`, on the dot. -/
def InCheckpoint (retentionClass : Str) (date : ℕ) (r : AuditEventRow) : Prop :=
  r.retentionClass = retentionClass ∧ date * 86400000000 ≤ r.createdAt ∧
    r.createdAt ≤ date * 86400000000 + 86399000000

instance (retentionClass : Str) (date : ℕ) (r : AuditEventRow) :
    Decidable (InCheckpoint retentionClass date r) := inferInstanceAs (Decidable (_ ∧ _))

/-- The order of the events of a day. -/
def EventBefore (a b : AuditEventRow) : Prop :=
  a.createdAt < b.createdAt ∨ a.createdAt = b.createdAt ∧ ¬ b.eventId < a.eventId

instance : DecidableRel EventBefore := fun a b =>
  inferInstanceAs (Decidable (a.createdAt < b.createdAt ∨ _ ∧ ¬ b.eventId < a.eventId))

/-- The events of a day. -/
def dayEvents (retentionClass : Str) (events : Table AuditEventRow) (date : ℕ) :
    List AuditEventRow :=
  (events.rows.filter fun r => InCheckpoint retentionClass date r).insertionSort EventBefore

/-- The day of an event. -/
def AuditEventRow.day (r : AuditEventRow) : ℕ := r.createdAt / 86400000000

/-- An event of the retention class, at `23:59:59` or before it on its day. -/
def Covered (retentionClass : Str) (r : AuditEventRow) : Prop :=
  r.retentionClass = retentionClass ∧ r.createdAt % 86400000000 ≤ 86399000000

instance (retentionClass : Str) (r : AuditEventRow) : Decidable (Covered retentionClass r) :=
  inferInstanceAs (Decidable (_ ∧ _))

theorem inCheckpoint_iff {retentionClass : Str} {date : ℕ} {r : AuditEventRow} :
    InCheckpoint retentionClass date r ↔ Covered retentionClass r ∧ date = r.day := by
  have hwindow : ∀ t : ℕ, date * 86400000000 ≤ t ∧ t ≤ date * 86400000000 + 86399000000 ↔
      t % 86400000000 ≤ 86399000000 ∧ date = t / 86400000000 := by
    intro t
    omega
  rw [InCheckpoint, Covered, AuditEventRow.day, and_assoc, hwindow]

theorem mem_dayEvents_iff {retentionClass : Str} {events : Table AuditEventRow} {date : ℕ}
    {r : AuditEventRow} : r ∈ dayEvents retentionClass events date ↔
      r ∈ events.rows ∧ Covered retentionClass r ∧ date = r.day := by
  rw [dayEvents, List.mem_insertionSort, List.mem_filter, decide_eq_true_eq, inCheckpoint_iff]

section Order

instance : Std.Total EventBefore := ⟨fun a b => by
  rcases lt_trichotomy a.createdAt b.createdAt with h | h | h
  · exact .inl (.inl h)
  · by_cases hid : b.eventId < a.eventId
    · exact .inr (.inr ⟨h.symm, lt_asymm hid⟩)
    · exact .inl (.inr ⟨h, hid⟩)
  · exact .inr (.inl h)⟩

instance : IsTrans AuditEventRow EventBefore := ⟨fun a b c hab hbc => by
  rcases hab with hab | ⟨hab, hidab⟩
  · exact .inl (lt_of_lt_of_le hab (hbc.elim le_of_lt fun h => h.1.le))
  · rcases hbc with hbc | ⟨hbc, hidbc⟩
    · exact .inl (hab ▸ hbc)
    · exact .inr ⟨hab.trans hbc, not_lt.mpr ((not_lt.mp hidab).trans (not_lt.mp hidbc))⟩⟩

/-- Only one event stands at a place. -/
theorem eventId_eq_of_eventBefore {a b : AuditEventRow} (hab : EventBefore a b)
    (hba : EventBefore b a) : a.eventId = b.eventId := by
  rcases hab with hab | ⟨hab, hidab⟩
  · exact absurd (hba.elim le_of_lt fun h => h.1.le) (not_le.mpr hab)
  · rcases hba with hba | ⟨-, hidba⟩
    · exact absurd hab hba.ne'
    · exact le_antisymm (not_lt.mp hidab) (not_lt.mp hidba)

end Order

/-! ### Anchors -/

section General

variable [Sha256]

/-- The anchor of the events of a day. -/
def anchorHash (rows : List AuditEventRow) : Str :=
  let chained := (rows.map AuditEventRow.recordHash).flatten
  if chained ≠ [] then Sha256.hexdigest chained else Sha256.hexdigest []

/-- What a checkpoint says of the events of a day. -/
def anchorOf (rows : List AuditEventRow) : ℕ × Str := (rows.length, anchorHash rows)

omit [Sha256] in
/-- The content of a checkpoint. -/
def AuditLedgerCheckpoint.content (cp : AuditLedgerCheckpoint) : ℕ × Str :=
  (cp.eventCount, cp.anchorHash)

omit [Sha256] in
/-- A checkpoint written again. -/
def AuditLedgerCheckpoint.rewrite (content : ℕ × Str) (cp : AuditLedgerCheckpoint) :
    AuditLedgerCheckpoint :=
  { cp with eventCount := content.1, anchorHash := content.2 }

omit [Sha256] in
theorem AuditLedgerCheckpoint.keepsKeys_rewrite (content : ℕ × Str) :
    KeepsKeys (AuditLedgerCheckpoint.rewrite content) := fun _ => ⟨rfl, rfl⟩

theorem anchorHash_eq_iff {rows rows' : List AuditEventRow} :
    anchorHash rows = anchorHash rows' ↔
      (rows.map AuditEventRow.recordHash).flatten = (rows'.map AuditEventRow.recordHash).flatten := by
  have hdigest : ∀ rows : List AuditEventRow,
      anchorHash rows = Sha256.hexdigest (rows.map AuditEventRow.recordHash).flatten := by
    intro rows
    simp only [anchorHash]
    split_ifs with hempty
    · rfl
    · rw [not_not.mp hempty]
  rw [hdigest, hdigest, Sha256.hexdigest_injective.eq_iff]

variable [UuidSource]

/-- `create_daily_checkpoint`. -/
def createDailyCheckpoint (events : Table AuditEventRow) (cps : Table AuditLedgerCheckpoint)
    (checkpointDate : ℕ) (retentionClass : Str) (now : Instant) : Table AuditLedgerCheckpoint :=
  let content := anchorOf (dayEvents retentionClass events checkpointDate)
  match cps.getBy? (checkpointDate, retentionClass) with
  | some existing =>
    cps.update existing.id (.rewrite content) (AuditLedgerCheckpoint.keepsKeys_rewrite content)
  | none =>
    (cps.insert? ⟨UuidSource.draw [] (cps.rows.map AuditLedgerCheckpoint.id), checkpointDate,
      retentionClass, content.1, content.2, now⟩).getD cps

omit [Sha256] [UuidSource] in
/-- The day before the one of an instant. -/
def yesterday (now : Instant) : ℕ := now / 86400000000 - 1

/-- `_run_daily_checkpoint` at the instant `now`. -/
def runDailyCheckpoint (cfg : CheckpointSettings) (events : Table AuditEventRow)
    (cps : Table AuditLedgerCheckpoint) (now : Instant) : Table AuditLedgerCheckpoint :=
  if ¬ cfg.auditDailyCheckpointEnabled then cps
  else createDailyCheckpoint events cps (yesterday now) cfg.auditCheckpointRetentionClass now

/-- What the checkpoint of a day says after the job has run at some instants. -/
def anchored (cfg : CheckpointSettings) (events : Table AuditEventRow) (nows : List Instant)
    (date : ℕ) : Option (ℕ × Str) :=
  ((run (runDailyCheckpoint cfg events) .empty nows).getBy?
    (date, cfg.auditCheckpointRetentionClass)).map AuditLedgerCheckpoint.content

variable {cfg : CheckpointSettings} {events : Table AuditEventRow}

/-- A checkpoint that is written leaves those of other days as they are. -/
theorem content_createDailyCheckpoint (cps : Table AuditLedgerCheckpoint) (checkpointDate date : ℕ)
    (retentionClass : Str) (now : Instant) :
    ((createDailyCheckpoint events cps checkpointDate retentionClass now).getBy?
        (date, retentionClass)).map AuditLedgerCheckpoint.content =
      if date = checkpointDate then some (anchorOf (dayEvents retentionClass events checkpointDate))
      else (cps.getBy? (date, retentionClass)).map AuditLedgerCheckpoint.content := by
  simp only [createDailyCheckpoint]
  split
  · rename_i existing hget
    rw [Table.getBy?_update]
    split_ifs with hdate
    · have hpk : Row.pk existing = existing.id := rfl
      rw [hdate, hget, Option.map_some, Option.map_some, if_pos hpk]
      rfl
    · cases hother : cps.getBy? (date, retentionClass) with
      | none => rfl
      | some cp =>
        have hne : Row.pk cp ≠ existing.id := by
          intro hid
          have hcp := Table.eq_of_pk (Table.mem_of_getBy? hother) (Table.mem_of_getBy? hget) hid
          have huk := Table.uk_of_getBy? hother
          rw [hcp, Table.uk_of_getBy? hget] at huk
          exact hdate (Prod.mk.inj huk).1.symm
        rw [Option.map_some, if_neg hne]
  · rename_i hnone
    have hfresh : UuidSource.draw [] (cps.rows.map AuditLedgerCheckpoint.id) ∉
        cps.rows.map AuditLedgerCheckpoint.id := UuidSource.fresh [] _
    have hcan : cps.CanInsert ⟨UuidSource.draw [] (cps.rows.map AuditLedgerCheckpoint.id),
        checkpointDate, retentionClass, (anchorOf (dayEvents retentionClass events checkpointDate)).1,
        (anchorOf (dayEvents retentionClass events checkpointDate)).2, now⟩ := by
      refine ⟨hfresh, ?_⟩
      rw [List.mem_map]
      rintro ⟨cp, hcp, hkey⟩
      exact Table.getBy?_eq_none_iff.mp hnone cp hcp hkey
    rw [Table.insert?_eq_some hcan, Option.getD_some, Table.getBy?_insert]
    have hkey : ((checkpointDate, retentionClass) : ℕ × Str) = (date, retentionClass) ↔
        date = checkpointDate := by
      rw [Prod.mk.injEq, and_iff_left rfl, eq_comm]
    simp only [Row.uk, hkey]
    split_ifs
    · rfl
    · rfl

/-- What the checkpoints hold after the job has run: the anchor of every day that had its run. -/
theorem anchored_eq (nows : List Instant) (date : ℕ) :
    anchored cfg events nows date =
      if cfg.auditDailyCheckpointEnabled = true ∧ date ∈ nows.map yesterday then
        some (anchorOf (dayEvents cfg.auditCheckpointRetentionClass events date))
      else none := by
  have hrun : ∀ (nows : List Instant) (cps : Table AuditLedgerCheckpoint),
      ((run (runDailyCheckpoint cfg events) cps nows).getBy?
        (date, cfg.auditCheckpointRetentionClass)).map AuditLedgerCheckpoint.content =
      if cfg.auditDailyCheckpointEnabled = true ∧ date ∈ nows.map yesterday then
        some (anchorOf (dayEvents cfg.auditCheckpointRetentionClass events date))
      else (cps.getBy? (date, cfg.auditCheckpointRetentionClass)).map
        AuditLedgerCheckpoint.content := by
    intro nows
    induction nows with
    | nil => simp
    | cons now nows ih =>
      intro cps
      rw [run_cons, ih, runDailyCheckpoint]
      by_cases henabled : cfg.auditDailyCheckpointEnabled = true
      · rw [if_neg (not_not.mpr henabled), content_createDailyCheckpoint]
        by_cases hdate : date = yesterday now
        · subst hdate
          simp [henabled]
        · simp [henabled, hdate]
      · simp [henabled]
  exact hrun nows .empty

/-! ### Logs with one event deleted or altered -/

omit [Sha256] [UuidSource] in
/-- A log without one of its events. -/
def without (events : Table AuditEventRow) (e : AuditEventRow) : Table AuditEventRow :=
  events.filter fun r => r.eventId ≠ e.eventId

/-- Of the checkpoints that are written, exactly the one of the day of an event tells two logs
apart. -/
def ChangesDayOf (cfg : CheckpointSettings) (e : AuditEventRow) (events events' : Table AuditEventRow) :
    Prop :=
  ∀ nows : List Instant, ∀ date ∈ nows.map yesterday,
    (anchored cfg events' nows date ≠ anchored cfg events nows date ↔ date = e.day)

omit [Sha256] [UuidSource] in
/-- An event that stands between the places of two others. -/
def Passes (e e' f : AuditEventRow) : Prop :=
  EventBefore e f ∧ EventBefore f e' ∨ EventBefore e' f ∧ EventBefore f e

omit [Sha256] [UuidSource] in
/-- An altered event that is in no checkpoint any more, or in the one of the same day with another
hash, or past an event with another hash. -/
def Noticed (retentionClass : Str) (events : Table AuditEventRow) (e e' : AuditEventRow) : Prop :=
  Covered retentionClass e' → e'.day = e.day ∧ (e'.recordHash ≠ e.recordHash ∨
    ∃ f ∈ events.rows, f.eventId ≠ e.eventId ∧ Covered retentionClass f ∧ f.day = e.day ∧
      Passes e e' f ∧ f.recordHash ≠ e.recordHash)

section Logs

variable {retentionClass : Str} {rest : Table AuditEventRow} {e e' : AuditEventRow} {date : ℕ}

omit [Sha256] [UuidSource] in
/-- An event takes its place among the events of its day. -/
theorem dayEvents_insert (h : rest.CanInsert e) : dayEvents retentionClass (rest.insert e h) date =
    if Covered retentionClass e ∧ date = e.day then
      (dayEvents retentionClass rest date).orderedInsert EventBefore e
    else dayEvents retentionClass rest date := by
  rw [dayEvents, Table.rows_insert, List.filter_append]
  split_ifs with hin
  · rw [List.filter_singleton, decide_eq_true (inCheckpoint_iff.mpr hin), cond_true, dayEvents,
      ← List.insertionSort_cons]
    refine insertionSort_eq_of_perm (List.perm_append_singleton _ _) fun a ha b hb hab hba => ?_
    have hmem : ∀ a ∈ rest.rows.filter (fun r => InCheckpoint retentionClass date r) ++ [e],
        a ∈ (rest.insert e h).rows := fun a ha =>
      List.Sublist.mem ha (List.filter_sublist.append_right [e])
    exact Table.eq_of_pk (hmem a ha) (hmem b hb) (eventId_eq_of_eventBefore hab hba)
  · rw [List.filter_singleton, decide_eq_false (mt inCheckpoint_iff.mp hin), cond_false,
      List.append_nil, dayEvents]

omit [Sha256] [UuidSource] in
theorem canInsert_without (events : Table AuditEventRow) (e : AuditEventRow) :
    (without events e).CanInsert e := by
  have hnot : e.eventId ∉ (without events e).rows.map AuditEventRow.eventId := by
    rw [List.mem_map]
    rintro ⟨r, hr, hid⟩
    exact absurd hid (by simpa using (List.mem_filter.mp hr).2)
  exact ⟨hnot, hnot⟩

omit [Sha256] [UuidSource] in
/-- A log as one of its events put back where it was deleted. -/
theorem dayEvents_without (he : e ∈ events.rows) : dayEvents retentionClass events date =
    dayEvents retentionClass ((without events e).insert e (canInsert_without events e)) date := by
  have hperm : events.rows.Perm ((without events e).insert e (canInsert_without events e)).rows := by
    refine (List.perm_ext_iff_of_nodup events.pk_nodup.of_map (Table.pk_nodup _).of_map).mpr fun r => ?_
    rw [Table.rows_insert, List.mem_append, List.mem_singleton, without, Table.rows_filter,
      List.mem_filter, decide_eq_true_eq]
    constructor
    · intro hr
      by_cases hid : r.eventId = e.eventId
      · exact .inr (Table.eq_of_pk hr he hid)
      · exact .inl ⟨hr, hid⟩
    · rintro (⟨hr, -⟩ | rfl)
      · exact hr
      · exact he
  refine insertionSort_eq_of_perm (hperm.filter _) fun a ha b hb hab hba => ?_
  exact Table.eq_of_pk (List.mem_of_mem_filter ha) (List.mem_of_mem_filter hb)
    (eventId_eq_of_eventBefore hab hba)

omit [UuidSource] in
/-- The anchor of a day with one of two events tells which, unless they have one hash and nothing
with another hash stands between their places. -/
theorem anchorOf_orderedInsert_eq_iff (hrest : ∀ r ∈ rest.rows, r.recordHash.length = 64)
    (hlen : e.recordHash.length = 64) (hcan : rest.CanInsert e) (hcan' : rest.CanInsert e') :
    anchorOf ((dayEvents retentionClass rest date).orderedInsert EventBefore e) =
        anchorOf ((dayEvents retentionClass rest date).orderedInsert EventBefore e') ↔
      e.recordHash = e'.recordHash ∧
        ∀ f ∈ dayEvents retentionClass rest date, Passes e e' f → f.recordHash = e.recordHash := by
  set l := dayEvents retentionClass rest date with hl
  have hmem : ∀ r ∈ l, r ∈ rest.rows := fun r hr => (mem_dayEvents_iff.mp hr).1
  have hplace : ∀ {a : AuditEventRow}, rest.CanInsert a → ∀ f ∈ l, EventBefore a f →
      ¬ EventBefore f a := fun hcan f hf haf hfa =>
    hcan.1 (List.mem_map.mpr ⟨f, hmem f hf, eventId_eq_of_eventBefore hfa haf⟩)
  have hnodup : l.Nodup :=
    (List.perm_insertionSort _ _).nodup_iff.mpr (rest.pk_nodup.of_map.filter _)
  have hsorted : l.Pairwise EventBefore := List.pairwise_insertionSort _ _
  refine Iff.trans ?_ (map_orderedInsert_eq_iff hsorted hnodup (hplace hcan) (hplace hcan')
    AuditEventRow.recordHash)
  rw [anchorOf, anchorOf, Prod.mk.injEq, anchorHash_eq_iff, List.orderedInsert_length, List.orderedInsert_length,
    and_iff_right rfl]
  refine ⟨fun h => ?_, congrArg _⟩
  have hlen' : e'.recordHash.length = 64 := by
    have hperm : ∀ a : AuditEventRow,
        ((l.orderedInsert EventBefore a).map AuditEventRow.recordHash).flatten.length =
          a.recordHash.length + (l.map AuditEventRow.recordHash).flatten.length := fun a => by
      rw [((List.perm_orderedInsert EventBefore a l).map AuditEventRow.recordHash).flatten.length_eq,
        List.map_cons, List.flatten_cons, List.length_append]
    have htotal := congrArg List.length h
    rw [hperm, hperm] at htotal
    omega
  have hall : ∀ {a : AuditEventRow}, a.recordHash.length = 64 →
      ∀ x ∈ (l.orderedInsert EventBefore a).map AuditEventRow.recordHash, x.length = 64 := by
    intro a ha x hx
    obtain ⟨r, hr, rfl⟩ := List.mem_map.mp hx
    rcases (List.mem_orderedInsert EventBefore).mp hr with rfl | hr
    · exact ha
    · exact hrest r (hmem r hr)
  refine flatten_inj_of_length (hall hlen) (hall hlen') ?_ h
  rw [List.length_map, List.length_map, List.orderedInsert_length, List.orderedInsert_length]

/-- The day of a deleted event, if it was in a checkpoint, is the one whose checkpoint changes. -/
theorem changed_without_iff (he : e ∈ events.rows) (nows : List Instant) (date : ℕ) :
    anchored cfg (without events e) nows date ≠ anchored cfg events nows date ↔
      (cfg.auditDailyCheckpointEnabled = true ∧ date ∈ nows.map yesterday) ∧
        Covered cfg.auditCheckpointRetentionClass e ∧ date = e.day := by
  rw [anchored_eq, anchored_eq, dayEvents_without he, dayEvents_insert]
  by_cases hrun : cfg.auditDailyCheckpointEnabled = true ∧ date ∈ nows.map yesterday
  · rw [if_pos hrun, if_pos hrun, and_iff_right hrun]
    split_ifs with hin
    · refine iff_of_true (fun h => ?_) hin
      have hcount := congrArg Prod.fst (Option.some.inj h)
      rw [anchorOf, anchorOf, List.orderedInsert_length] at hcount
      omega
    · exact iff_of_false (not_not.mpr rfl) hin
  · rw [if_neg hrun, if_neg hrun]
    exact iff_of_false (not_not.mpr rfl) fun h => hrun h.1

/-- The days whose checkpoints an alteration changes. -/
theorem changed_altered_iff (hhash : ∀ r ∈ events.rows, r.recordHash.length = 64)
    (he : e ∈ events.rows) (he' : (without events e).CanInsert e') (nows : List Instant) (date : ℕ) :
    anchored cfg ((without events e).insert e' he') nows date ≠ anchored cfg events nows date ↔
      (cfg.auditDailyCheckpointEnabled = true ∧ date ∈ nows.map yesterday) ∧
        (¬ ((Covered cfg.auditCheckpointRetentionClass e ∧ date = e.day) ↔
            (Covered cfg.auditCheckpointRetentionClass e' ∧ date = e'.day)) ∨
          (Covered cfg.auditCheckpointRetentionClass e ∧ date = e.day) ∧
            (e'.recordHash ≠ e.recordHash ∨
              ∃ f ∈ dayEvents cfg.auditCheckpointRetentionClass (without events e) date,
                Passes e e' f ∧ f.recordHash ≠ e.recordHash)) := by
  rw [anchored_eq, anchored_eq, dayEvents_without he, dayEvents_insert, dayEvents_insert]
  by_cases hrun : cfg.auditDailyCheckpointEnabled = true ∧ date ∈ nows.map yesterday
  swap
  · rw [if_neg hrun, if_neg hrun]
    exact iff_of_false (not_not.mpr rfl) fun h => hrun h.1
  have hcount : ∀ (a : AuditEventRow) (l : List AuditEventRow),
      anchorOf (l.orderedInsert EventBefore a) ≠ anchorOf l := by
    intro a l h
    have hlen := congrArg Prod.fst h
    rw [anchorOf, anchorOf, List.orderedInsert_length] at hlen
    omega
  rw [if_pos hrun, if_pos hrun, and_iff_right hrun, Ne, Option.some.injEq]
  split_ifs with hin' hin hin
  · have hrest : ∀ r ∈ (without events e).rows, r.recordHash.length = 64 := fun r hr =>
      hhash r (List.mem_of_mem_filter hr)
    rw [eq_comm, anchorOf_orderedInsert_eq_iff hrest (hhash e he) (canInsert_without events e) he']
    rw [or_iff_right (not_not.mpr (iff_of_true hin hin')), and_iff_right hin, not_and_or, ne_comm]
    simp only [not_forall, exists_prop]
  · exact iff_of_true (hcount e' _) (.inl fun h => hin (h.mpr hin'))
  · exact iff_of_true (hcount e _).symm (.inl fun h => hin' (h.mp hin))
  · simp [hin, hin']

omit [Sha256] [UuidSource] in
theorem yesterday_of_day (date : ℕ) : yesterday ((date + 1) * 86400000000) = date := by
  have hday : (date + 1) * 86400000000 / 86400000000 = date + 1 := Nat.mul_div_cancel _ (by omega)
  rw [yesterday, hday, Nat.add_sub_cancel]

omit [Sha256] [UuidSource] in
/-- An event is in exactly one day's checkpoint if it is covered, and in none otherwise. -/
theorem existsUnique_day_iff (he : e ∈ events.rows) :
    (∃! date, e ∈ dayEvents retentionClass events date) ↔ Covered retentionClass e := by
  simp only [mem_dayEvents_iff, and_iff_right he]
  constructor
  · rintro ⟨date, ⟨hcovered, -⟩, -⟩
    exact hcovered
  · intro hcovered
    exact ⟨e.day, ⟨hcovered, rfl⟩, fun _ h => h.2⟩

/-- The job puts an event into exactly one day's checkpoint, and that checkpoint alone notices that
the event is deleted or altered, exactly if the job runs, the event is in the window of its day, and
the alteration is one that moves the anchor of that day. -/
theorem checkpoints_exact_iff (hhash : ∀ r ∈ events.rows, r.recordHash.length = 64)
    (he : e ∈ events.rows) (he' : (without events e).CanInsert e') :
    ((∃! date, e ∈ dayEvents cfg.auditCheckpointRetentionClass events date) ∧
        ChangesDayOf cfg e events (without events e) ∧
        ChangesDayOf cfg e events ((without events e).insert e' he')) ↔
      cfg.auditDailyCheckpointEnabled = true ∧ Covered cfg.auditCheckpointRetentionClass e ∧
        Noticed cfg.auditCheckpointRetentionClass events e e' := by
  have hruns : ∀ date, date ∈ [(date + 1) * 86400000000].map yesterday := fun date => by
    rw [List.map_singleton, yesterday_of_day]
    exact List.mem_singleton_self date
  rw [existsUnique_day_iff he]
  constructor
  · rintro ⟨hcovered, hdeleted, haltered⟩
    have henabled := ((changed_without_iff he _ e.day).mp
      ((hdeleted _ e.day (hruns e.day)).mpr rfl)).1.1
    refine ⟨henabled, hcovered, fun hcovered' => ?_⟩
    have hday : e'.day = e.day := by
      by_contra hne
      have hchanged := (changed_altered_iff hhash he he' _ e'.day).mpr
        ⟨⟨henabled, hruns e'.day⟩, .inl fun h => hne (h.mpr ⟨hcovered', rfl⟩).2⟩
      exact hne ((haltered _ e'.day (hruns e'.day)).mp hchanged)
    refine ⟨hday, ?_⟩
    have hchanged := ((changed_altered_iff hhash he he' _ e.day).mp
      ((haltered _ e.day (hruns e.day)).mpr rfl)).2
    rcases hchanged with hnot | ⟨-, hhash' | ⟨f, hf, hpasses, hne⟩⟩
    · exact absurd (iff_of_true ⟨hcovered, rfl⟩ ⟨hcovered', hday.symm⟩) hnot
    · exact .inl hhash'
    · obtain ⟨hmem, hcoveredf, hdayf⟩ := mem_dayEvents_iff.mp hf
      obtain ⟨hrow, hid⟩ := List.mem_filter.mp hmem
      exact .inr ⟨f, hrow, by simpa using hid, hcoveredf, hdayf.symm, hpasses, hne⟩
  · rintro ⟨henabled, hcovered, hnoticed⟩
    refine ⟨hcovered, fun nows date hdate => ?_, fun nows date hdate => ?_⟩
    · rw [changed_without_iff he, and_iff_right ⟨henabled, hdate⟩, and_iff_right hcovered]
    · rw [changed_altered_iff hhash he he', and_iff_right ⟨henabled, hdate⟩]
      constructor
      · rintro (hnot | ⟨⟨-, hday⟩, -⟩)
        · by_contra hne
          have hin' : Covered cfg.auditCheckpointRetentionClass e' ∧ date = e'.day := by
            by_contra hout
            exact hnot (iff_of_false (fun h => hne h.2) hout)
          exact hne (hin'.2.trans (hnoticed hin'.1).1)
        · exact hday
      · rintro rfl
        by_cases hcovered' : Covered cfg.auditCheckpointRetentionClass e'
        · refine .inr ⟨⟨hcovered, rfl⟩, (hnoticed hcovered').2.imp_right ?_⟩
          rintro ⟨f, hrow, hid, hcoveredf, hdayf, hpasses, hne⟩
          exact ⟨f, mem_dayEvents_iff.mpr ⟨List.mem_filter.mpr ⟨hrow, by simpa using hid⟩, hcoveredf,
            hdayf.symm⟩, hpasses, hne⟩
        · exact .inl fun h => hcovered' (h.mp ⟨hcovered, rfl⟩).1

end Logs

end General

/-! ### Half a second before midnight -/

section LastSecond

attribute [local instance] unaryDigest longestIds

/-- An event at an instant, with a hash of 64 digits. -/
def eventAt (createdAt : Instant) (digit : Char) : AuditEventRow :=
  { auditRow (traceCall "trace" "e1" createdAt) none with recordHash := List.replicate 64 digit }

/-- The settings of the job as they are by default. -/
def defaultCheckpoints : CheckpointSettings := ⟨true, str "operational"⟩

/-- An event in the last second of a day is in no checkpoint. -/
theorem not_checkpoints_exact :
    ¬ ∀ (events : Table AuditEventRow) (e e' : AuditEventRow)
        (he' : (without events e).CanInsert e'), e ∈ events.rows →
        (∀ r ∈ events.rows, r.recordHash.length = 64) →
        (∃! date, e ∈ dayEvents defaultCheckpoints.auditCheckpointRetentionClass events date) ∧
          ChangesDayOf defaultCheckpoints e events (without events e) ∧
          ChangesDayOf defaultCheckpoints e events ((without events e).insert e' he') := by
  intro h
  have hhash : ∀ r ∈ (Table.singleton (eventAt 86399500000 'a')).rows, r.recordHash.length = 64 := by
    intro r hr
    rw [List.mem_singleton.mp hr]
    rfl
  obtain ⟨⟨date, hdate, -⟩, -⟩ := h (.singleton (eventAt 86399500000 'a')) (eventAt 86399500000 'a')
    (eventAt 86399500000 'a') (canInsert_without _ _) (List.mem_singleton_self _) hhash
  exact absurd (mem_dayEvents_iff.mp hdate).2.1.2 (by decide)

theorem checkpoints_exact_noon :
    (∃! date, eventAt 43200000000 'a' ∈ dayEvents defaultCheckpoints.auditCheckpointRetentionClass
        (.singleton (eventAt 43200000000 'a')) date) ∧
      ChangesDayOf defaultCheckpoints (eventAt 43200000000 'a')
        (.singleton (eventAt 43200000000 'a'))
        (without (.singleton (eventAt 43200000000 'a')) (eventAt 43200000000 'a')) ∧
      ChangesDayOf defaultCheckpoints (eventAt 43200000000 'a')
        (.singleton (eventAt 43200000000 'a'))
        ((without (.singleton (eventAt 43200000000 'a')) (eventAt 43200000000 'a')).insert
          (eventAt 43200000000 'b')
          (canInsert_without (.singleton (eventAt 43200000000 'a')) (eventAt 43200000000 'b'))) := by
  have hhash : ∀ r ∈ (Table.singleton (eventAt 43200000000 'a')).rows, r.recordHash.length = 64 := by
    intro r hr
    rw [List.mem_singleton.mp hr]
    rfl
  have hnoticed : Noticed (str "operational") (.singleton (eventAt 43200000000 'a'))
      (eventAt 43200000000 'a') (eventAt 43200000000 'b') := fun _ => ⟨rfl, .inl (by decide)⟩
  exact (checkpoints_exact_iff hhash (List.mem_singleton_self _) _).mpr
    ⟨rfl, by decide, hnoticed⟩

end LastSecond

end Vat
