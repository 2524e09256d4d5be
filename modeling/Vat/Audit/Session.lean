import Mathlib.Data.List.MinMax
import Mathlib.Logic.Function.Basic
import Vat.Audit.Event

/-!
# Sessions that emit audit events

A session keeps its uncommitted writes to the table, with the marks of its open savepoints. Inside
`bulk_audit_chain` the rows wait in a list and the last hash of each trace is kept in a dict; both
are context variables, which no rollback touches.

Source: `backend/app/services/audit_events.py`, lines 34–88 and 136–186;
`backend/app/api/assets.py`, lines 219–272.

## Main definitions

* `NewestRow`, `newestFirst`: the query for the previous hash.
* `AuditSession`, `AuditSession.emitAuditEvent`, `AuditSession.flushBulkAuditEvents`,
  `AuditSession.deleteAsset`.
-/

namespace Vat

/-! ### The newest row of a trace -/

/-- The rows of a trace. -/
def traceRows (rows : List AuditEventRow) (traceId : Str) : List AuditEventRow :=
  rows.filter fun r => r.traceId = traceId

/-- `order_by(created_at.desc()).limit(1)` on the rows of a trace. Which of several newest rows the
database gives is not fixed. -/
class NewestRow where
  newest : List AuditEventRow → Option AuditEventRow
  newest_nil : newest [] = none
  exists_newest : ∀ rows : List AuditEventRow, rows ≠ [] →
    ∃ r ∈ rows, newest rows = some r ∧ ∀ s ∈ rows, s.createdAt ≤ r.createdAt

/-- A row that maximizes a key that goes by `created_at` first. -/
@[reducible] def newestBy {κ : Type} [LinearOrder κ] (key : AuditEventRow → κ)
    (hkey : ∀ r s, key r ≤ key s → r.createdAt ≤ s.createdAt) : NewestRow where
  newest rows := rows.argmax key
  newest_nil := rfl
  exists_newest rows hne := by
    cases hr : rows.argmax key with
    | none => exact absurd (List.argmax_eq_none.mp hr) hne
    | some r =>
      exact ⟨r, List.argmax_mem hr, rfl, fun s hs => hkey s r (List.le_of_mem_argmax hs hr)⟩

/-- Among the newest rows, the first one. -/
@[reducible] def newestFirst : NewestRow := newestBy (·.createdAt) fun _ _ h => h

/-- The query gives the only newest row. -/
theorem NewestRow.newest_eq [NewestRow] {rows : List AuditEventRow} {r : AuditEventRow}
    (hr : r ∈ rows) (hnewest : ∀ s ∈ rows, s ≠ r → s.createdAt < r.createdAt) :
    newest rows = some r := by
  obtain ⟨q, hq, hnew, hmax⟩ := exists_newest rows (List.ne_nil_of_mem hr)
  have hqr : q = r := by
    by_contra hne
    exact absurd (hmax r hr) (Nat.not_le.mpr (hnewest q hq hne))
  rw [hnew, hqr]

/-! ### Sessions -/

/-- The state of an open `bulk_audit_chain` block: the last hash of each trace that it wrote, and
the rows that wait for the next flush. -/
structure BulkScope where
  chain : Str → Option Str
  rows : List AuditEventRow

/-- A write of a session to `audit_events`. A deletion is given by the rows that it matched. -/
inductive AuditWrite
  | insert (r : AuditEventRow)
  | delete (gone : List AuditEventRow)

/-- Whether a row is one of those deleted. -/
def IsGone (gone : List AuditEventRow) (r : AuditEventRow) : Prop :=
  ∃ d ∈ gone, d.eventId = r.eventId ∧ d.traceId = r.traceId

instance (gone : List AuditEventRow) : DecidablePred (IsGone gone) := fun r =>
  inferInstanceAs (Decidable (∃ d ∈ gone, d.eventId = r.eventId ∧ d.traceId = r.traceId))

/-- The table after a write. -/
def AuditWrite.apply (rows : List AuditEventRow) : AuditWrite → List AuditEventRow
  | .insert r => rows ++ [r]
  | .delete gone => rows.filter fun r => ¬ IsGone gone r

/-- A database session of one task: its uncommitted writes, the numbers of them at the open
savepoints (innermost first), and the `bulk_audit_chain` block of the task. -/
structure AuditSession where
  writes : List AuditWrite
  marks : List ℕ
  bulk : Option BulkScope

namespace AuditSession

/-- A new session. -/
def fresh : AuditSession := ⟨[], [], none⟩

/-- The table as the session sees it. -/
def visible (s : AuditSession) (committed : List AuditEventRow) : List AuditEventRow :=
  s.writes.foldl AuditWrite.apply committed

/-- The rows that wait in the block. -/
def queued (s : AuditSession) : List AuditEventRow := (s.bulk.map BulkScope.rows).getD []

/-- The last hash that the block keeps for a trace. -/
def cached (s : AuditSession) (traceId : Str) : Option Str := s.bulk.bind fun b => b.chain traceId

/-- `begin_nested`. -/
def beginNested (s : AuditSession) : AuditSession := { s with marks := s.writes.length :: s.marks }

/-- The release of the innermost savepoint. -/
def release (s : AuditSession) : AuditSession := { s with marks := s.marks.tail }

/-- The rollback to the innermost savepoint. -/
def rollbackNested (s : AuditSession) : AuditSession :=
  { s with writes := s.writes.take (s.marks.headD 0), marks := s.marks.tail }

/-- The rollback of the transaction. -/
def rollback (s : AuditSession) : AuditSession := { s with writes := [], marks := [] }

/-- The end of the transaction. The table becomes what the session saw. -/
def commit (s : AuditSession) : AuditSession := { s with writes := [], marks := [] }

/-- The beginning of a `bulk_audit_chain` block. -/
def enterBulk (s : AuditSession) : AuditSession := { s with bulk := some ⟨fun _ => none, []⟩ }

/-- The end of the block. Rows that still wait are lost. -/
def exitBulk (s : AuditSession) : AuditSession := { s with bulk := none }

/-- `flush_bulk_audit_events`. -/
def flushBulkAuditEvents (s : AuditSession) : AuditSession where
  writes := s.writes ++ s.queued.map AuditWrite.insert
  marks := s.marks
  bulk := s.bulk.map fun b => { b with rows := [] }

/-- The deletion of the audit events of an asset and of its findings. -/
def deleteAsset (s : AuditSession) (committed : List AuditEventRow) (assetId : Str)
    (findingIds : List Str) : AuditSession :=
  { s with
    writes := s.writes ++ [.delete ((s.visible committed).filter fun r =>
      r.assetId = some assetId ∨ ∃ id ∈ findingIds, r.findingId = some id)] }

/-- The previous hash of a trace: from the block where it has one, else from the newest row. -/
def prevHash [NewestRow] (s : AuditSession) (committed : List AuditEventRow) (traceId : Str) : Option Str :=
  match s.cached traceId with
  | some hash => some hash
  | none => (NewestRow.newest (traceRows (s.visible committed) traceId)).map (·.recordHash)

section Emission

variable [Sha256] [NewestRow]

/-- The row that a call stores or queues. -/
def emitted (s : AuditSession) (committed : List AuditEventRow) (c : AuditCall) : AuditEventRow :=
  auditRow c (s.prevHash committed c.traceId)

/-- `emit_audit_event`. -/
def emitAuditEvent (s : AuditSession) (committed : List AuditEventRow) (c : AuditCall) :
    AuditSession :=
  let row := s.emitted committed c
  match s.bulk with
  | some b =>
    { s with
      bulk := some
        { chain := Function.update b.chain c.traceId (some row.recordHash)
          rows := b.rows ++ [row] } }
  | none => { s with writes := s.writes ++ [.insert row] }

end Emission

/-! ### What the operations leave -/

theorem prevHash_of_cached [NewestRow] {s : AuditSession} (committed : List AuditEventRow)
    {traceId hash : Str} (h : s.cached traceId = some hash) :
    s.prevHash committed traceId = some hash := by
  rw [prevHash, h]

theorem prevHash_of_not_cached [NewestRow] {s : AuditSession} (committed : List AuditEventRow)
    {traceId : Str} (h : s.cached traceId = none) :
    s.prevHash committed traceId =
      (NewestRow.newest (traceRows (s.visible committed) traceId)).map (·.recordHash) := by
  rw [prevHash, h]

theorem foldl_insert (committed rows : List AuditEventRow) :
    (rows.map AuditWrite.insert).foldl AuditWrite.apply committed = committed ++ rows := by
  rw [List.foldl_map]
  induction rows using List.reverseRecOn with
  | nil => simp
  | append_singleton rows r ih =>
    simp only [List.foldl_append, List.foldl_cons, List.foldl_nil, AuditWrite.apply] at ih ⊢
    rw [ih, List.append_assoc]

@[simp] theorem queued_flush (s : AuditSession) : s.flushBulkAuditEvents.queued = [] := by
  rw [queued, flushBulkAuditEvents]
  cases s.bulk <;> rfl

theorem visible_flush (s : AuditSession) (committed : List AuditEventRow) :
    s.flushBulkAuditEvents.visible committed = s.visible committed ++ s.queued := by
  rw [visible, flushBulkAuditEvents, List.foldl_append, foldl_insert, visible]

variable [Sha256] [NewestRow]

@[simp] theorem traceId_emitted (s : AuditSession) (committed : List AuditEventRow) (c : AuditCall) :
    (s.emitted committed c).traceId = c.traceId := rfl

theorem emitAuditEvent_of_bulk {s : AuditSession} {b : BulkScope} (hb : s.bulk = some b)
    (committed : List AuditEventRow) (c : AuditCall) :
    s.emitAuditEvent committed c =
      { s with
        bulk := some
          { chain := Function.update b.chain c.traceId (some (s.emitted committed c).recordHash)
            rows := b.rows ++ [s.emitted committed c] } } := by
  rw [emitAuditEvent, hb]

theorem emitAuditEvent_of_plain {s : AuditSession} (hb : s.bulk = none)
    (committed : List AuditEventRow) (c : AuditCall) :
    s.emitAuditEvent committed c =
      { s with writes := s.writes ++ [.insert (s.emitted committed c)] } := by
  rw [emitAuditEvent, hb]

/-- In either mode a call adds its row, last, to what the session has written or will flush. -/
theorem visible_flush_emit (s : AuditSession) (committed : List AuditEventRow) (c : AuditCall) :
    (s.emitAuditEvent committed c).flushBulkAuditEvents.visible committed =
      s.flushBulkAuditEvents.visible committed ++ [s.emitted committed c] := by
  cases hb : s.bulk with
  | none =>
    rw [emitAuditEvent_of_plain hb, visible_flush, visible_flush, queued, queued, hb, visible,
      visible, List.foldl_append]
    simp [AuditWrite.apply]
  | some b =>
    rw [emitAuditEvent_of_bulk hb, visible_flush, visible_flush, queued, queued, hb]
    simp [visible]

end AuditSession

end Vat
