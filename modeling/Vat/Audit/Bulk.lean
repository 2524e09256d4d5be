import Mathlib.Data.Prod.Lex
import Vat.Audit.Session
import Vat.Transition.Recorded

/-!
# The rows that `bulk_audit_chain` stores

A bulk replay emits its events inside savepoints, one or more for each finding, and flushes and
commits after each batch. The replay is compared with the same replay outside `bulk_audit_chain`.

Source: `backend/app/services/audit_events.py`, lines 34–88 and 136–186;
`backend/app/services/aikido_full_sync.py`, lines 314–397.

## Main definitions

* `AuditProgram`, `AuditProgram.run`: emissions inside nested savepoints.
* `storedRows`, `bulkRows`, `plainRows`.
* `AuditProgram.KeepsAll`, `ClockAdvances`.

## Main results

* `plainRows_eq`, `bulkRows_eq`: what each replay stores, event by event.
* `bulkRows_eq_plainRows_iff`: when both store the same rows.
-/

namespace Vat

open Transition

/-! ### Programs -/

/-- Emissions inside savepoints. A `failing` savepoint is rolled back after its body, and the
exception is caught outside. -/
inductive AuditProgram
  | skip
  | emit (c : AuditCall)
  | seq (p q : AuditProgram)
  | savepoint (p : AuditProgram)
  | failing (p : AuditProgram)

namespace AuditProgram

/-- The calls of a program. -/
def calls : AuditProgram → List AuditCall
  | .skip => []
  | .emit c => [c]
  | .seq p q => p.calls ++ q.calls
  | .savepoint p | .failing p => p.calls

/-- The calls outside savepoints that are rolled back. -/
def keptCalls : AuditProgram → List AuditCall
  | .skip => []
  | .emit c => [c]
  | .seq p q => p.keptCalls ++ q.keptCalls
  | .savepoint p => p.keptCalls
  | .failing _ => []

/-- No event is emitted inside a savepoint that is rolled back. -/
def KeepsAll : AuditProgram → Prop
  | .skip | .emit _ => True
  | .seq p q => p.KeepsAll ∧ q.KeepsAll
  | .savepoint p => p.KeepsAll
  | .failing p => p.calls = []

theorem keptCalls_of_keepsAll {p : AuditProgram} (h : p.KeepsAll) : p.keptCalls = p.calls := by
  induction p with
  | skip | emit => rfl
  | seq p q ihp ihq => rw [keptCalls, calls, ihp h.1, ihq h.2]
  | savepoint p ih => exact ih h
  | failing p _ => exact h.symm

theorem length_keptCalls_le (p : AuditProgram) : p.keptCalls.length ≤ p.calls.length := by
  induction p with
  | skip | emit => exact le_rfl
  | seq p q ihp ihq => simpa only [keptCalls, calls, List.length_append] using Nat.add_le_add ihp ihq
  | savepoint p ih => exact ih
  | failing p _ => exact Nat.zero_le _

theorem keepsAll_of_length {p : AuditProgram} (h : p.keptCalls.length = p.calls.length) :
    p.KeepsAll := by
  induction p with
  | skip | emit => trivial
  | seq p q ihp ihq =>
    have hp := p.length_keptCalls_le
    have hq := q.length_keptCalls_le
    simp only [keptCalls, calls, List.length_append] at h
    exact ⟨ihp (by omega), ihq (by omega)⟩
  | savepoint p ih => exact ih h
  | failing p _ => exact List.eq_nil_of_length_eq_zero h.symm

end AuditProgram

section Replays

variable [Sha256] [NewestRow]

/-- What a program does to the session. -/
def AuditProgram.run (committed : List AuditEventRow) : AuditProgram → AuditSession → AuditSession
  | .skip, s => s
  | .emit c, s => s.emitAuditEvent committed c
  | .seq p q, s => q.run committed (p.run committed s)
  | .savepoint p, s => (p.run committed s.beginNested).release
  | .failing p, s => (p.run committed s.beginNested).rollbackNested

/-- A batch of the replay, with the flush and the commit after it. -/
def replayBatch (state : List AuditEventRow × AuditSession) (p : AuditProgram) :
    List AuditEventRow × AuditSession :=
  let s := (p.run state.1 state.2).flushBulkAuditEvents
  (s.visible state.1, s.commit)

/-- The table after the batches of a replay. -/
def storedRows (committed : List AuditEventRow) (s : AuditSession) (batches : List AuditProgram) :
    List AuditEventRow :=
  (batches.foldl replayBatch (committed, s)).1

/-- The replay inside `bulk_audit_chain`. -/
def bulkRows (committed : List AuditEventRow) (batches : List AuditProgram) : List AuditEventRow :=
  storedRows committed AuditSession.fresh.enterBulk batches

/-- The same replay without it. -/
def plainRows (committed : List AuditEventRow) (batches : List AuditProgram) :
    List AuditEventRow :=
  storedRows committed .fresh batches

/-! ### What a replay stores -/

/-- The row of a call outside `bulk_audit_chain`, given the table. -/
def plainNext (rows : List AuditEventRow) (c : AuditCall) : AuditEventRow :=
  auditRow c ((NewestRow.newest (traceRows rows c.traceId)).map (·.recordHash))

/-- The hash that the block keeps for a trace, or else that of the newest row from before it. -/
def bulkPrev (before rows : List AuditEventRow) (traceId : Str) : Option Str :=
  match (traceRows rows traceId).getLast? with
  | some r => some r.recordHash
  | none => (NewestRow.newest (traceRows before traceId)).map (·.recordHash)

/-- The row of a call inside `bulk_audit_chain`, given the rows from before the block and the rows
emitted in it. -/
def bulkNext (before rows : List AuditEventRow) (c : AuditCall) : AuditEventRow :=
  auditRow c (bulkPrev before rows c.traceId)

/-- Outside the block a program inserts the rows of its kept calls. -/
theorem run_plain (p : AuditProgram) (committed : List AuditEventRow) {s : AuditSession}
    (hs : s.bulk = none) :
    ∃ rows, p.run committed s = { s with writes := s.writes ++ rows.map .insert } ∧
      s.visible committed ++ rows = record plainNext (s.visible committed) p.keptCalls := by
  induction p generalizing s with
  | skip => exact ⟨[], by simp [AuditProgram.run], by simp [AuditProgram.keptCalls]⟩
  | emit c =>
    refine ⟨[s.emitted committed c], AuditSession.emitAuditEvent_of_plain hs committed c, ?_⟩
    rw [AuditProgram.keptCalls, record_cons, record_nil, plainNext, AuditSession.emitted,
      AuditSession.prevHash, AuditSession.cached, hs]
    rfl
  | seq p q ihp ihq =>
    obtain ⟨rows, hp, hrows⟩ := ihp hs
    obtain ⟨rows', hq, hrows'⟩ := ihq (s := p.run committed s) (by rw [hp, hs])
    have hvisible : (p.run committed s).visible committed = s.visible committed ++ rows := by
      rw [hp, AuditSession.visible, List.foldl_append, AuditSession.foldl_insert,
        AuditSession.visible]
    refine ⟨rows ++ rows', ?_, ?_⟩
    · rw [AuditProgram.run, hq, hp, List.map_append, List.append_assoc]
    · rw [AuditProgram.keptCalls, record_append, ← hrows, ← hvisible, ← hrows', hvisible,
        List.append_assoc]
  | savepoint p ih =>
    obtain ⟨rows, hp, hrows⟩ := ih (s := s.beginNested) hs
    exact ⟨rows, by rw [AuditProgram.run, hp]; rfl, hrows⟩
  | failing p ih =>
    obtain ⟨rows, hp, -⟩ := ih (s := s.beginNested) hs
    refine ⟨[], ?_, by simp [AuditProgram.keptCalls]⟩
    rw [AuditProgram.run, hp]
    simp [AuditSession.beginNested, AuditSession.rollbackNested]

/-- Outside the block a replay stores the rows of its kept calls. -/
theorem storedRows_plain (committed : List AuditEventRow) {s : AuditSession} (hs : s.bulk = none)
    (hwrites : s.writes = []) (batches : List AuditProgram) :
    storedRows committed s batches =
      record plainNext committed (batches.flatMap AuditProgram.keptCalls) := by
  induction batches generalizing committed s with
  | nil => rfl
  | cons p batches ih =>
    obtain ⟨rows, hp, hrows⟩ := run_plain p committed hs
    have hvisible : s.visible committed = committed := by rw [AuditSession.visible, hwrites]; rfl
    have hbatch : (replayBatch (committed, s) p).1 = record plainNext committed p.keptCalls := by
      rw [hvisible] at hrows
      rw [← hrows, replayBatch, hp, AuditSession.visible_flush, AuditSession.queued,
        AuditSession.visible, hs, hwrites]
      simp [AuditSession.foldl_insert]
    rw [storedRows, List.foldl_cons, ← Prod.mk.eta (p := replayBatch (committed, s) p), ← storedRows,
      ih _ (by rw [replayBatch, hp]; simp [AuditSession.commit, AuditSession.flushBulkAuditEvents, hs])
        rfl, hbatch, List.flatMap_cons, record_append]

/-- A block that has emitted `rows` since the table was `before`: it has flushed a part of them and
keeps the rest, and knows the last hash of each trace. -/
structure BulkScope.Holds (before rows committed : List AuditEventRow) (b : BulkScope) : Prop where
  all : committed ++ b.rows = before ++ rows
  table : before <+: committed
  chain : ∀ traceId, b.chain traceId = (traceRows rows traceId).getLast?.map (·.recordHash)

omit [Sha256] [NewestRow] in
/-- The rows of a trace that the block has not written are those from before it. -/
theorem BulkScope.Holds.traceRows_eq {before rows committed : List AuditEventRow} {b : BulkScope}
    (h : b.Holds before rows committed) {traceId : Str} (hnone : traceRows rows traceId = []) :
    traceRows committed traceId = traceRows before traceId := by
  obtain ⟨flushed, rfl⟩ := h.table
  have hrows : rows = flushed ++ b.rows := by simpa using h.all.symm
  rw [hrows, traceRows, List.filter_append, List.append_eq_nil_iff] at hnone
  rw [traceRows, traceRows, List.filter_append, hnone.1, List.append_nil]

/-- One call inside the block. -/
theorem emit_bulk {before rows committed : List AuditEventRow} {s : AuditSession} {b : BulkScope}
    (hwrites : s.writes = []) (hb : s.bulk = some b) (h : b.Holds before rows committed)
    (c : AuditCall) :
    ∃ b', s.emitAuditEvent committed c = { s with bulk := some b' } ∧
      b'.Holds before (rows ++ [bulkNext before rows c]) committed := by
  have hvisible : s.visible committed = committed := by rw [AuditSession.visible, hwrites]; rfl
  have hrow : s.emitted committed c = bulkNext before rows c := by
    rw [AuditSession.emitted, bulkNext, AuditSession.prevHash, bulkPrev, AuditSession.cached, hb,
      Option.bind_some, h.chain, hvisible]
    cases hlast : (traceRows rows c.traceId).getLast? with
    | some r => rfl
    | none => rw [h.traceRows_eq (List.getLast?_eq_none_iff.mp hlast)]; rfl
  refine ⟨_, AuditSession.emitAuditEvent_of_bulk hb committed c, ?_, h.table, fun traceId => ?_⟩
  · rw [hrow, ← List.append_assoc, h.all, List.append_assoc]
  · rw [hrow, traceRows, List.filter_append]
    by_cases htrace : traceId = c.traceId
    · subst htrace
      simp [bulkNext, auditRow]
    · simp [Function.update_of_ne htrace, h.chain, traceRows, bulkNext, auditRow, Ne.symm htrace]

/-- Inside the block a program queues the rows of all its calls. -/
theorem run_bulk (p : AuditProgram) {before rows committed : List AuditEventRow}
    {s : AuditSession} {b : BulkScope} (hwrites : s.writes = []) (hb : s.bulk = some b)
    (h : b.Holds before rows committed) :
    ∃ b', p.run committed s = { s with bulk := some b' } ∧
      b'.Holds before (record (bulkNext before) rows p.calls) committed := by
  induction p generalizing s b rows with
  | skip => exact ⟨b, by rw [AuditProgram.run, ← hb], h⟩
  | emit c => exact emit_bulk hwrites hb h c
  | seq p q ihp ihq =>
    obtain ⟨b', hp, h'⟩ := ihp hwrites hb h
    obtain ⟨b'', hq, h''⟩ := ihq (s := p.run committed s) (by rw [hp, hwrites]) (by rw [hp]) h'
    refine ⟨b'', by rw [AuditProgram.run, hq, hp], ?_⟩
    rwa [AuditProgram.calls, record_append]
  | savepoint p ih =>
    obtain ⟨b', hp, h'⟩ := ih (s := s.beginNested) hwrites hb h
    exact ⟨b', by rw [AuditProgram.run, hp]; rfl, h'⟩
  | failing p ih =>
    obtain ⟨b', hp, h'⟩ := ih (s := s.beginNested) hwrites hb h
    refine ⟨b', ?_, h'⟩
    rw [AuditProgram.run, hp]
    simp [AuditSession.beginNested, AuditSession.rollbackNested, hwrites]

/-- Inside the block a replay stores the rows of all its calls. -/
theorem storedRows_bulk {before rows committed : List AuditEventRow} {s : AuditSession}
    {b : BulkScope} (hwrites : s.writes = []) (hb : s.bulk = some b)
    (h : b.Holds before rows committed) (hflushed : b.rows = []) (batches : List AuditProgram) :
    storedRows committed s batches =
      before ++ record (bulkNext before) rows (batches.flatMap AuditProgram.calls) := by
  induction batches generalizing committed s b rows with
  | nil =>
    have hall := h.all
    rwa [hflushed, List.append_nil] at hall
  | cons p batches ih =>
    obtain ⟨b', hp, h'⟩ := run_bulk p hwrites hb h
    have htable : (replayBatch (committed, s) p).1 =
        before ++ record (bulkNext before) rows p.calls := by
      rw [replayBatch, hp, AuditSession.visible_flush, AuditSession.queued, AuditSession.visible,
        hwrites, ← h'.all]
      rfl
    have hholds : BulkScope.Holds before (record (bulkNext before) rows p.calls)
        (replayBatch (committed, s) p).1 { b' with rows := [] } :=
      ⟨by rw [htable, List.append_nil], by rw [htable]; exact List.prefix_append _ _, h'.chain⟩
    rw [storedRows, List.foldl_cons, ← Prod.mk.eta (p := replayBatch (committed, s) p), ← storedRows,
      ih rfl (by rw [replayBatch, hp]; rfl) hholds rfl, List.flatMap_cons, record_append]

/-- What the replay stores outside `bulk_audit_chain`. -/
theorem plainRows_eq (before : List AuditEventRow) (batches : List AuditProgram) :
    plainRows before batches =
      record plainNext before (batches.flatMap AuditProgram.keptCalls) :=
  storedRows_plain before rfl rfl batches

/-- What the replay stores inside `bulk_audit_chain`. -/
theorem bulkRows_eq (before : List AuditEventRow) (batches : List AuditProgram) :
    bulkRows before batches =
      before ++ record (bulkNext before) [] (batches.flatMap AuditProgram.calls) :=
  have hholds : BulkScope.Holds before [] before ⟨fun _ => none, []⟩ :=
    ⟨rfl, List.prefix_rfl, fun _ => rfl⟩
  storedRows_bulk rfl rfl hholds rfl batches

/-! ### When both replays store the same rows -/

/-- Every event that is followed by another of its trace was created strictly later than all earlier
events of the trace. -/
def ClockAdvances (before : List AuditEventRow) (calls : List AuditCall) : Prop :=
  ∀ pre c post, calls = pre ++ c :: post → (∃ d ∈ post, d.traceId = c.traceId) →
    (∀ r ∈ before, r.traceId = c.traceId → r.createdAt < c.createdAt) ∧
      ∀ d ∈ pre, d.traceId = c.traceId → d.createdAt < c.createdAt

/-- Among the newest rows, one of another event where there is one. -/
@[reducible] def newestBut (eventId : Str) : NewestRow :=
  newestBy (fun r => toLex (r.createdAt, decide (r.eventId ≠ eventId))) fun _ _ h =>
    (Prod.Lex.toLex_le_toLex.mp h).elim le_of_lt fun h => h.1.le

omit [Sha256] in
/-- The block continues from the last row that it wrote to a trace. -/
theorem bulkPrev_of_last (before : List AuditEventRow) {rows rest : List AuditEventRow}
    {r : AuditEventRow} {traceId : Str} (hr : r.traceId = traceId)
    (hrest : ∀ s ∈ rest, s.traceId ≠ traceId) :
    bulkPrev before (rows ++ r :: rest) traceId = some r.recordHash := by
  have hnil : traceRows rest traceId = [] :=
    List.filter_eq_nil_iff.mpr fun s hs => by simpa using hrest s hs
  have hlast : (traceRows (rows ++ r :: rest) traceId).getLast? = some r := by
    rw [traceRows, List.filter_append, List.filter_cons_of_pos (by simpa using hr), ← traceRows,
      ← traceRows, hnil]
    simp
  rw [bulkPrev, hlast]

omit [Sha256] in
/-- The block continues a trace that it has not written from the newest row before it. -/
theorem bulkPrev_of_forall_ne (before : List AuditEventRow) {rows : List AuditEventRow}
    {traceId : Str} (hrows : ∀ r ∈ rows, r.traceId ≠ traceId) :
    bulkPrev before rows traceId =
      (NewestRow.newest (traceRows (before ++ rows) traceId)).map (·.recordHash) := by
  have hnil : traceRows rows traceId = [] :=
    List.filter_eq_nil_iff.mpr fun s hs => by simpa using hrows s hs
  rw [bulkPrev, hnil, List.getLast?_nil, traceRows, traceRows, List.filter_append, ← traceRows,
    ← traceRows, hnil, List.append_nil]

/-- The rows of the block around a call that has no later one of its trace. -/
theorem exists_record_split (before : List AuditEventRow) (pre : List AuditCall)
    {mid : List AuditCall} {c : AuditCall}
    (hmid : ∀ d ∈ mid, d.traceId ≠ c.traceId) :
    ∃ rest, record (bulkNext before) [] (pre ++ c :: mid) =
        record (bulkNext before) [] pre ++
          bulkNext before (record (bulkNext before) [] pre) c :: rest ∧
      ∀ s ∈ rest, s.traceId ≠ c.traceId := by
  obtain ⟨rest, heq, hrest⟩ := exists_record_eq (bulkNext before)
    (record (bulkNext before) [] pre ++ [bulkNext before (record (bulkNext before) [] pre) c]) mid
  refine ⟨rest, ?_, fun s hs => ?_⟩
  · rw [record_append, record_cons, heq, List.append_assoc, List.singleton_append]
  · obtain ⟨d, hd, l, rfl⟩ := hrest s hs
    exact hmid d hd

/-- Where the clock advances, the last event of a trace in the block is its newest row. -/
theorem bulkNext_eq_plainNext {before : List AuditEventRow} {calls pre post : List AuditCall}
    {c : AuditCall} (hclock : ClockAdvances before calls) (hcalls : calls = pre ++ c :: post) :
    bulkNext before (record (bulkNext before) [] pre) c =
      plainNext (before ++ record (bulkNext before) [] pre) c := by
  rw [bulkNext, plainNext]
  congr 1
  by_cases htrace : ∃ d ∈ pre, d.traceId = c.traceId
  · obtain ⟨d, hd, hdc⟩ := htrace
    obtain ⟨pre', e, mid, rfl, hec, hmid⟩ :=
      exists_last_of_mem (p := fun d => d.traceId = c.traceId) hd hdc
    obtain ⟨hbefore, hpre'⟩ := hclock pre' e (mid ++ c :: post) (by rw [hcalls]; simp)
      ⟨c, by simp, hec.symm⟩
    obtain ⟨rest, hrecord, hrest⟩ := exists_record_split before pre'
      fun d hd => hec ▸ hmid d hd
    have hprev : bulkPrev before (record (bulkNext before) [] (pre' ++ e :: mid)) e.traceId = _ :=
      hrecord ▸ bulkPrev_of_last before rfl hrest
    rw [← hec, hprev, hrecord, NewestRow.newest_eq]
    · rfl
    · simp [traceRows, bulkNext, auditRow]
    · intro s hs hne
      obtain ⟨hs, htrace⟩ := List.mem_filter.mp hs
      replace htrace : s.traceId = e.traceId := by simpa using htrace
      rcases List.mem_append.mp hs with hs | hs
      · exact hbefore s hs htrace
      · rcases List.mem_append.mp hs with hs | hs
        · obtain hs | ⟨d, hd, l, rfl⟩ := mem_record hs
          · simp at hs
          · exact hpre' d hd htrace
        · exact absurd htrace (hrest s ((List.mem_cons.mp hs).resolve_left hne))
  · refine bulkPrev_of_forall_ne before fun r hr heq => htrace ?_
    obtain hr | ⟨d, hd, l, rfl⟩ := mem_record hr
    · simp at hr
    · exact ⟨d, hd, heq⟩

omit [NewestRow] in
/-- Where it does not, some newest row is another one. -/
theorem clockAdvances_of_eq {before : List AuditEventRow} {calls : List AuditCall}
    (hwritten : Written before)
    (hids : (before.map (·.eventId) ++ calls.map (·.eventId)).Nodup)
    (heq : ∀ [NewestRow], ∀ pre c post, calls = pre ++ c :: post →
      bulkNext before (record (bulkNext before) [] pre) c =
        plainNext (before ++ record (bulkNext before) [] pre) c) :
    ClockAdvances before calls := by
  rintro pre c post rfl ⟨d', hd', hdc'⟩
  obtain ⟨mid, d, post, rfl, hdc, hmid⟩ :=
    exists_first_of_mem (p := fun d => d.traceId = c.traceId) hd' hdc'
  let := newestBut c.eventId
  obtain ⟨rest, hrecord, hrest⟩ := exists_record_split before pre hmid
  obtain ⟨-, hcalls, hdisj⟩ := List.nodup_append'.mp hids
  have hsplit : (pre ++ c :: mid) ++ d :: post = pre ++ c :: (mid ++ d :: post) := by simp
  have hc : c ∈ pre ++ c :: (mid ++ d :: post) := by simp
  -- The query gives the event of `c`, since the block continues from it.
  have hprev := congrArg AuditEventRow.prevRecordHash (heq (pre ++ c :: mid) d post hsplit.symm)
  have hlast : bulkPrev before (record (bulkNext before) [] (pre ++ c :: mid)) d.traceId =
      some (recordHash c (bulkPrev before (record (bulkNext before) [] pre) c.traceId)) := by
    rw [hrecord, hdc]
    exact bulkPrev_of_last before rfl hrest
  obtain ⟨q, hq, hqhash⟩ := Option.map_eq_some_iff.mp (hprev.symm.trans hlast)
  have hqc : q.eventId = c.eventId ∧ q.createdAt = c.createdAt := by
    rcases List.mem_append.mp (List.mem_filter.mp (List.argmax_mem hq)).1 with hmem | hmem
    · obtain ⟨e, prev, rfl⟩ := hwritten q hmem
      refine absurd hqhash (recordHash_ne (fun hid => ?_) prev _)
      exact hdisj (List.mem_map_of_mem hmem) (List.mem_map.mpr ⟨c, hc, hid.symm⟩)
    · obtain hmem | ⟨e, he, l, rfl⟩ := mem_record hmem
      · cases hmem
      · have hid : e.eventId = c.eventId := by
          by_contra hne
          exact recordHash_ne hne _ _ hqhash
        obtain rfl := List.inj_on_of_nodup_map hcalls (hsplit ▸ List.mem_append_left _ he) hc hid
        exact ⟨rfl, rfl⟩
  -- Every other row of the trace is older, or the query would have given it.
  have holder : ∀ s ∈ before ++ record (bulkNext before) [] (pre ++ c :: mid),
      s.traceId = c.traceId → s.eventId ≠ c.eventId → s.createdAt < c.createdAt := by
    intro s hs htrace hne
    have hs' : s ∈ traceRows (before ++ record (bulkNext before) [] (pre ++ c :: mid)) d.traceId :=
      List.mem_filter.mpr ⟨hs, decide_eq_true (htrace.trans hdc.symm)⟩
    have hle := List.le_of_mem_argmax hs' hq
    rw [Prod.Lex.toLex_le_toLex, hqc.2] at hle
    refine hle.resolve_right fun h => ?_
    simp only [hne, hqc.1, ne_eq, not_false_eq_true, not_true_eq_false, decide_true,
      decide_false] at h
    exact absurd h.2 (by decide)
  refine ⟨fun r hr htrace => ?_, fun e he htrace => ?_⟩
  · refine holder r (List.mem_append_left _ hr) htrace fun hid => ?_
    exact hdisj (List.mem_map_of_mem hr) (List.mem_map.mpr ⟨c, hc, hid.symm⟩)
  · obtain ⟨l, hl⟩ := exists_mem_record (bulkNext before) [] (List.mem_append_left _ he)
    refine holder _ (List.mem_append_right _ hl) htrace fun hid => ?_
    rw [List.map_append] at hcalls
    exact (List.nodup_append'.mp hcalls).2.2 (List.mem_map_of_mem he)
      (List.mem_map.mpr ⟨c, List.mem_cons_self, hid.symm⟩)

omit [Sha256] [NewestRow] in
theorem length_flatMap_keptCalls_le (batches : List AuditProgram) :
    (batches.flatMap AuditProgram.keptCalls).length ≤
      (batches.flatMap AuditProgram.calls).length := by
  induction batches with
  | nil => exact le_rfl
  | cons p batches ih =>
    rw [List.flatMap_cons, List.flatMap_cons, List.length_append, List.length_append]
    exact Nat.add_le_add p.length_keptCalls_le ih

omit [Sha256] [NewestRow] in
/-- Where all calls are kept, no event is emitted inside a savepoint that is rolled back. -/
theorem forall_keepsAll {batches : List AuditProgram}
    (h : (batches.flatMap AuditProgram.keptCalls).length =
      (batches.flatMap AuditProgram.calls).length) : ∀ p ∈ batches, p.KeepsAll := by
  induction batches with
  | nil => simp
  | cons p batches ih =>
    have hp := p.length_keptCalls_le
    have hbatches := length_flatMap_keptCalls_le batches
    rw [List.flatMap_cons, List.flatMap_cons, List.length_append, List.length_append] at h
    exact List.forall_mem_cons.mpr
      ⟨AuditProgram.keepsAll_of_length (by omega), ih (by omega)⟩

omit [NewestRow] in
/-- The replay stores the same rows inside `bulk_audit_chain` and outside it, whichever newest rows
the queries give, exactly when no event is emitted inside a savepoint that is rolled back and the
clock advances along each trace. -/
theorem bulkRows_eq_plainRows_iff {before : List AuditEventRow} {batches : List AuditProgram}
    (hwritten : Written before)
    (hids : (before.map (·.eventId) ++
      (batches.flatMap AuditProgram.calls).map (·.eventId)).Nodup) :
    (∀ [NewestRow], bulkRows before batches = plainRows before batches) ↔
      (∀ p ∈ batches, p.KeepsAll) ∧
        ClockAdvances before (batches.flatMap AuditProgram.calls) := by
  have hplain [NewestRow] (hkeeps : ∀ p ∈ batches, p.KeepsAll) : plainRows before batches =
      before ++ record (fun rows => plainNext (before ++ rows)) []
        (batches.flatMap AuditProgram.calls) := by
    rw [plainRows_eq, List.flatMap_congr fun p hp => AuditProgram.keptCalls_of_keepsAll (hkeeps p hp),
      ← record_eq_append, List.append_nil]
  constructor
  · intro h
    have hkeeps : ∀ p ∈ batches, p.KeepsAll := by
      let := newestFirst
      have hlength := congrArg List.length (bulkRows_eq before batches ▸ plainRows_eq before batches ▸ h)
      refine forall_keepsAll ?_
      rw [List.length_append, length_record, length_record, List.length_nil] at hlength
      omega
    refine ⟨hkeeps, clockAdvances_of_eq hwritten hids fun {_} => ?_⟩
    have heq := (bulkRows_eq before batches).symm.trans (h.trans (hplain hkeeps))
    exact record_eq_iff.mp (List.append_cancel_left heq)
  · rintro ⟨hkeeps, hclock⟩ _
    rw [bulkRows_eq, hplain hkeeps]
    exact congrArg _ (record_eq_iff.mpr fun pre c post hcalls => bulkNext_eq_plainNext hclock hcalls)

end Replays

/-! ### Replays of two events -/

/-- A batch with two events of a trace, the second inside a savepoint that is released. -/
def releasedBatch : AuditProgram :=
  .seq (.emit (traceCall "a" "e1" 1)) (.savepoint (.emit (traceCall "a" "e2" 2)))

/-- A batch with an event inside a savepoint that is rolled back. -/
def failedBatch : AuditProgram :=
  .seq (.emit (traceCall "a" "e1" 1)) (.failing (.emit (traceCall "b" "e2" 2)))

attribute [local instance] unaryDigest

theorem bulkRows_eq_plainRows_released_iff :
    (∀ [NewestRow], bulkRows [] [releasedBatch] = plainRows [] [releasedBatch]) ↔
      (∀ p ∈ [releasedBatch], p.KeepsAll) ∧
        ClockAdvances [] ([releasedBatch].flatMap AuditProgram.calls) :=
  bulkRows_eq_plainRows_iff (fun _ h => by cases h) (by decide)

attribute [local instance] newestFirst

/-- A finding that fails after its first event keeps that event inside the block. -/
theorem bulkRows_ne_plainRows : bulkRows [] [failedBatch] ≠ plainRows [] [failedBatch] := by
  intro h
  exact absurd (congrArg List.length h) (by decide)

end Vat
