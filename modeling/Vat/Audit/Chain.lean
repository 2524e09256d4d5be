import Vat.Audit.Session
import Vat.Linked.Pointer
import Vat.Transition.Run

/-!
# The chains of the audit table

Sessions emit, delete, roll back and commit in any order, each reading what is committed and what it
wrote itself. Nothing in the code keeps two sessions from continuing a trace from the same row, so
the chains stay linear in the runs that keep to a discipline, which is stated step by step.

Source: `backend/app/services/audit_events.py`, lines 34–88 and 113–186;
`backend/app/api/assets.py`, lines 219–272.

## Main definitions

* `LinearChains`: every trace of the table is linear.
* `AuditOp`, `WorldOp`, `AuditWorld.step`: the runs.
* `WorldOp.Allowed`: the discipline.

## Main results

* `AuditWorld.sound_step`: the invariant of one step.
* `linearChains_run`: the chains of every state of a disciplined run are linear.
-/

namespace Vat

open Chains Transition

/-- Every previous hash is that of a row of the same trace, and no two rows of a trace share one. -/
structure LinearChains (rows : List AuditEventRow) : Prop where
  exists_prev : ∀ r ∈ rows, ∀ hash ∈ r.prevRecordHash,
    ∃ q ∈ rows, q.traceId = r.traceId ∧ q.recordHash = hash
  nodup_prev : ∀ traceId, ((traceRows rows traceId).map (·.prevRecordHash)).Nodup

/-! ### Traces -/

@[simp] theorem traceRows_nil (traceId : Str) : traceRows [] traceId = [] := rfl

@[simp] theorem traceRows_append (rows rows' : List AuditEventRow) (traceId : Str) :
    traceRows (rows ++ rows') traceId = traceRows rows traceId ++ traceRows rows' traceId :=
  List.filter_append ..

theorem traceRows_singleton (r : AuditEventRow) (traceId : Str) :
    traceRows [r] traceId = if r.traceId = traceId then [r] else [] := by
  simp [traceRows, List.filter_cons]

theorem traceRows_filter (rows : List AuditEventRow) (p : AuditEventRow → Bool) (traceId : Str) :
    traceRows (rows.filter p) traceId = (traceRows rows traceId).filter p :=
  List.filter_comm ..

/-- A write concerns a trace. -/
def AuditWrite.Touches (traceId : Str) : AuditWrite → Prop
  | .insert r => r.traceId = traceId
  | .delete gone => ∃ d ∈ gone, d.traceId = traceId

/-- Writes to a trace see only its rows. -/
theorem traceRows_foldl_congr {rows rows' : List AuditEventRow} {traceId : Str}
    (h : traceRows rows traceId = traceRows rows' traceId) (writes : List AuditWrite) :
    traceRows (writes.foldl AuditWrite.apply rows) traceId =
      traceRows (writes.foldl AuditWrite.apply rows') traceId := by
  induction writes generalizing rows rows' with
  | nil => exact h
  | cons w writes ih =>
    refine ih ?_
    cases w with
    | insert r => rw [AuditWrite.apply, AuditWrite.apply, traceRows_append, traceRows_append, h]
    | delete gone => rw [AuditWrite.apply, AuditWrite.apply, traceRows_filter, traceRows_filter, h]

/-- Writes to other traces leave a trace as it is. -/
theorem traceRows_foldl_of_not_touches (rows : List AuditEventRow) {traceId : Str}
    {writes : List AuditWrite} (h : ∀ w ∈ writes, ¬ w.Touches traceId) :
    traceRows (writes.foldl AuditWrite.apply rows) traceId = traceRows rows traceId := by
  induction writes generalizing rows with
  | nil => rfl
  | cons w writes ih =>
    rw [List.forall_mem_cons] at h
    rw [List.foldl_cons, ih _ h.2]
    cases w with
    | insert r =>
      have hr : ¬ r.traceId = traceId := h.1
      rw [AuditWrite.apply, traceRows_append, traceRows_singleton, if_neg hr, List.append_nil]
    | delete gone =>
      rw [AuditWrite.apply, traceRows_filter, List.filter_eq_self]
      intro r hr
      have hgone : ¬ IsGone gone r := by
        rintro ⟨d, hd, -, hdr⟩
        exact h.1 ⟨d, hd, hdr.trans (of_decide_eq_true (List.mem_filter.mp hr).2)⟩
      exact decide_eq_true hgone

/-! ### Operations of a session -/

/-- The operations of a session, but for the commit. -/
inductive AuditOp
  | emit (c : AuditCall)
  | deleteAsset (assetId : Str) (findingIds : List Str)
  | beginNested
  | release
  | rollbackNested
  | rollback
  | enterBulk
  | flush
  | exitBulk

namespace AuditSession

/-- The session has uncommitted writes to a trace. -/
def Writes (s : AuditSession) (traceId : Str) : Prop := ∃ w ∈ s.writes, w.Touches traceId

/-- The session has writes or queued rows of a trace. -/
def Pending (s : AuditSession) (traceId : Str) : Prop :=
  s.Writes traceId ∨ traceRows s.queued traceId ≠ []

end AuditSession

/-! ### The discipline of a session -/

/-- The call continues the trace from its last event: where the block has no hash of the trace, the
last row that the session sees was created strictly later than the others; where it has one, it is
the hash of the last row seen or queued. The id is new. -/
structure EmitsAtTail (committed : List AuditEventRow) (s : AuditSession) (c : AuditCall) :
    Prop where
  fresh : ∀ r ∈ traceRows (s.visible committed ++ s.queued) c.traceId, r.eventId ≠ c.eventId
  newest : s.cached c.traceId = none → ∀ pre r, traceRows (s.visible committed) c.traceId =
    pre ++ [r] → ∀ q ∈ pre, q.createdAt < r.createdAt
  cached : ∀ hash ∈ s.cached c.traceId,
    (traceRows (s.visible committed ++ s.queued) c.traceId).getLast?.map (·.recordHash) = some hash

/-- What the discipline asks of an operation for one trace. A deletion takes the last events of the
trace, and a change that takes rows away leaves a trace with queued events as it is. -/
def AuditOp.Allowed (committed : List AuditEventRow) (s : AuditSession) (traceId : Str) :
    AuditOp → Prop
  | .emit c => c.traceId = traceId → EmitsAtTail committed s c
  | .deleteAsset assetId findingIds =>
    let rest := traceRows ((s.deleteAsset committed assetId findingIds).visible committed) traceId
    let all := traceRows (s.visible committed) traceId
    rest <+: all ∧ (traceRows s.queued traceId = [] ∨ rest = all)
  | .rollbackNested => traceRows s.queued traceId ≠ [] →
    ∀ w ∈ s.writes.drop (s.marks.headD 0), ¬ w.Touches traceId
  | .rollback => traceRows s.queued traceId ≠ [] → ¬ s.Writes traceId
  | .beginNested | .release | .enterBulk | .flush | .exitBulk => True

/-! ### What one session keeps -/

section Runs

variable [Sha256]

/-- Rows of a trace that make a chain. -/
structure TraceChain (rows : List AuditEventRow) : Prop where
  written : Written rows
  nodup : (rows.map (·.eventId)).Nodup
  linked : Linked (·.prevRecordHash) (·.recordHash) rows

theorem TraceChain.of_prefix {rows rows' : List AuditEventRow} (h : TraceChain rows)
    (hsub : rows' <+: rows) : TraceChain rows' :=
  ⟨fun r hr => h.written r (hsub.subset hr), h.nodup.sublist (hsub.sublist.map _),
    h.linked.of_prefix hsub⟩

theorem TraceChain.append_auditRow {rows : List AuditEventRow} (h : TraceChain rows) {c : AuditCall}
    (hfresh : ∀ r ∈ rows, r.eventId ≠ c.eventId) :
    TraceChain (rows ++ [auditRow c (rows.getLast?.map (·.recordHash))]) where
  written r hr := by
    rcases List.mem_append.mp hr with hr | hr
    · exact h.written r hr
    · exact ⟨c, _, List.mem_singleton.mp hr⟩
  nodup := by
    rw [List.map_append, List.map_singleton, ← List.concat_eq_append]
    exact h.nodup.concat fun hmem =>
      have ⟨r, hr, heq⟩ := List.mem_map.mp hmem
      hfresh r hr heq
  linked := h.linked.append_singleton rfl

/-- The trace is a chain as the session sees it, now and after every rollback, and with the queued
rows. -/
structure Sound (committed : List AuditEventRow) (s : AuditSession) (traceId : Str) : Prop where
  prefixes : ∀ n, TraceChain (traceRows ((s.writes.take n).foldl AuditWrite.apply committed) traceId)
  all : TraceChain (traceRows (s.visible committed ++ s.queued) traceId)

/-- A trace that a session has not written or queued is sound where the table is. -/
theorem sound_of_not_pending {committed : List AuditEventRow} {s : AuditSession} {traceId : Str}
    (h : TraceChain (traceRows committed traceId)) (hpending : ¬ s.Pending traceId) :
    Sound committed s traceId := by
  rw [AuditSession.Pending, not_or, not_not] at hpending
  have hwrites : ∀ w ∈ s.writes, ¬ w.Touches traceId := fun w hw htouches =>
    hpending.1 ⟨w, hw, htouches⟩
  constructor
  · intro n
    rwa [traceRows_foldl_of_not_touches committed fun w hw => hwrites w (List.mem_of_mem_take hw)]
  · rwa [traceRows_append, hpending.2, List.append_nil, AuditSession.visible,
      traceRows_foldl_of_not_touches committed hwrites]

theorem Sound.visible {committed : List AuditEventRow} {s : AuditSession} {traceId : Str}
    (h : Sound committed s traceId) : TraceChain (traceRows (s.visible committed) traceId) := by
  have hall := h.prefixes s.writes.length
  rwa [List.take_length] at hall

/-- Writes more, where each of them keeps the chain. -/
theorem Sound.append {committed : List AuditEventRow} {s s' : AuditSession} {traceId : Str}
    (h : Sound committed s traceId) {more : List AuditWrite} (hwrites : s'.writes = s.writes ++ more)
    (hmore : ∀ n, TraceChain (traceRows ((more.take n).foldl AuditWrite.apply (s.visible committed))
      traceId))
    (hall : TraceChain (traceRows (s'.visible committed ++ s'.queued) traceId)) :
    Sound committed s' traceId := by
  refine ⟨fun n => ?_, hall⟩
  rw [hwrites, List.take_append, List.foldl_append]
  rcases Nat.le_total s.writes.length n with hle | hle
  · rw [List.take_of_length_le hle]
    exact hmore _
  · rw [Nat.sub_eq_zero_of_le hle]
    exact h.prefixes n

/-- A rollback, where it takes nothing from a trace with queued rows. -/
theorem Sound.take {committed : List AuditEventRow} {s s' : AuditSession} {traceId : Str}
    (h : Sound committed s traceId) (n : ℕ) (hwrites : s'.writes = s.writes.take n)
    (hqueued : s'.queued = s.queued) (hdrop : traceRows s.queued traceId ≠ [] →
      ∀ w ∈ s.writes.drop n, ¬ w.Touches traceId) : Sound committed s' traceId := by
  constructor
  · intro m
    rw [hwrites, List.take_take]
    exact h.prefixes _
  · rw [traceRows_append, hqueued, AuditSession.visible, hwrites]
    by_cases hempty : traceRows s.queued traceId = []
    · rw [hempty, List.append_nil]
      exact h.prefixes n
    · have hvisible : traceRows (s.visible committed) traceId =
          traceRows ((s.writes.take n).foldl AuditWrite.apply committed) traceId := by
        rw [← traceRows_foldl_of_not_touches ((s.writes.take n).foldl AuditWrite.apply committed)
          (hdrop hempty), ← List.foldl_append, List.take_append_drop, AuditSession.visible]
      rw [← hvisible, ← traceRows_append]
      exact h.all

variable [NewestRow]

/-- What an operation does to its session. -/
def AuditOp.apply (committed : List AuditEventRow) (s : AuditSession) : AuditOp → AuditSession
  | .emit c => s.emitAuditEvent committed c
  | .deleteAsset assetId findingIds => s.deleteAsset committed assetId findingIds
  | .beginNested => s.beginNested
  | .release => s.release
  | .rollbackNested => s.rollbackNested
  | .rollback => s.rollback
  | .enterBulk => s.enterBulk
  | .flush => s.flushBulkAuditEvents
  | .exitBulk => s.exitBulk

omit [Sha256] in
/-- A call at the tail names the last row of the trace. -/
theorem prevHash_of_emitsAtTail {committed : List AuditEventRow} {s : AuditSession} {c : AuditCall}
    (h : EmitsAtTail committed s c)
    (hqueued : s.cached c.traceId = none → traceRows s.queued c.traceId = []) :
    s.prevHash committed c.traceId =
      (traceRows (s.visible committed ++ s.queued) c.traceId).getLast?.map (·.recordHash) := by
  cases hcached : s.cached c.traceId with
  | some hash => rw [AuditSession.prevHash_of_cached committed hcached, h.cached hash hcached]
  | none =>
    rw [AuditSession.prevHash_of_not_cached committed hcached, traceRows_append, hqueued hcached,
      List.append_nil]
    congr 1
    rcases List.eq_nil_or_concat (traceRows (s.visible committed) c.traceId) with hnil | ⟨pre, r, hr⟩
    · rw [hnil, NewestRow.newest_nil, List.getLast?_nil]
    · rw [List.concat_eq_append] at hr
      rw [hr, List.getLast?_concat]
      have hmem : r ∈ pre ++ [r] := by simp
      refine NewestRow.newest_eq hmem fun q hq hne => h.newest hcached pre r hr q ?_
      exact (List.mem_append.mp hq).resolve_right fun hqr => hne (List.mem_singleton.mp hqr)

/-- A call at the tail keeps its trace sound, and every call keeps the other traces. -/
theorem Sound.emit {committed : List AuditEventRow} {s : AuditSession} {traceId : Str}
    (h : Sound committed s traceId) {c : AuditCall}
    (htail : c.traceId = traceId → EmitsAtTail committed s c)
    (hqueued : s.cached traceId = none → traceRows s.queued traceId = []) :
    Sound committed (s.emitAuditEvent committed c) traceId := by
  have hchain : TraceChain (traceRows (s.visible committed ++ s.queued ++ [s.emitted committed c])
      traceId) := by
    rw [traceRows_append, traceRows_singleton, AuditSession.traceId_emitted]
    by_cases htrace : c.traceId = traceId
    · subst htrace
      rw [if_pos rfl, AuditSession.emitted, prevHash_of_emitsAtTail (htail rfl) hqueued]
      exact h.all.append_auditRow (htail rfl).fresh
    · rw [if_neg htrace, List.append_nil]
      exact h.all
  cases hb : s.bulk with
  | some b =>
    rw [AuditSession.emitAuditEvent_of_bulk hb]
    refine ⟨h.prefixes, ?_⟩
    rw [AuditSession.queued, hb, List.append_assoc] at hchain
    exact hchain
  | none =>
    rw [AuditSession.emitAuditEvent_of_plain hb]
    rw [AuditSession.queued, hb, Option.map_none, Option.getD_none, List.append_nil] at hchain
    refine h.append rfl (fun n => ?_) ?_
    · cases n with
      | zero => exact h.visible
      | succ n =>
        rw [List.take_succ_cons, List.take_nil]
        exact hchain
    · rw [AuditSession.visible, List.foldl_append, AuditSession.queued, hb, Option.map_none,
        Option.getD_none, List.append_nil]
      exact hchain

/-- An allowed operation keeps a trace sound. -/
theorem Sound.apply {committed : List AuditEventRow} {s : AuditSession} {traceId : Str}
    (h : Sound committed s traceId) {o : AuditOp} (ho : o.Allowed committed s traceId)
    (hqueued : s.cached traceId = none → traceRows s.queued traceId = []) :
    Sound committed (o.apply committed s) traceId := by
  cases o with
  | emit c => exact h.emit ho hqueued
  | deleteAsset assetId findingIds =>
    obtain ⟨hrest, hkept⟩ := ho
    have hchain := h.visible.of_prefix hrest
    have hvisible : (s.deleteAsset committed assetId findingIds).visible committed =
        (s.visible committed).filter _ := List.foldl_append
    refine h.append rfl (fun n => ?_) ?_
    · cases n with
      | zero => exact h.visible
      | succ n =>
        rw [List.take_succ_cons, List.take_nil]
        rwa [hvisible] at hchain
    · change TraceChain (traceRows ((s.deleteAsset committed assetId findingIds).visible committed ++
        s.queued) traceId)
      rw [traceRows_append]
      rcases hkept with hempty | hkept
      · rwa [hempty, List.append_nil]
      · rw [hkept, ← traceRows_append]
        exact h.all
  | beginNested | release => exact ⟨h.prefixes, h.all⟩
  | rollbackNested => exact h.take _ rfl rfl ho
  | rollback => exact h.take 0 rfl rfl fun hne w hw htouches => ho hne ⟨w, hw, htouches⟩
  | enterBulk | exitBulk =>
    refine ⟨h.prefixes, ?_⟩
    change TraceChain (traceRows (s.visible committed ++ []) traceId)
    rw [List.append_nil]
    exact h.visible
  | flush =>
    refine h.append rfl (fun n => ?_) ?_
    · rw [← List.map_take, AuditSession.foldl_insert]
      refine h.all.of_prefix ?_
      rw [traceRows_append, traceRows_append, List.prefix_append_right_inj]
      exact (List.take_prefix n _).filter _
    · rw [AuditOp.apply, AuditSession.visible_flush, AuditSession.queued_flush, List.append_nil]
      exact h.all

/-- A trace without a kept hash has no queued rows. -/
theorem queued_of_not_cached_apply {committed : List AuditEventRow} {s : AuditSession}
    (h : ∀ traceId, s.cached traceId = none → traceRows s.queued traceId = []) (o : AuditOp)
    {traceId : Str} (hcached : (o.apply committed s).cached traceId = none) :
    traceRows (o.apply committed s).queued traceId = [] := by
  cases o with
  | emit c =>
    rw [AuditOp.apply] at hcached ⊢
    cases hb : s.bulk with
    | none =>
      rw [AuditSession.emitAuditEvent_of_plain hb, AuditSession.queued, hb]
      rfl
    | some b =>
      rw [AuditSession.emitAuditEvent_of_bulk hb, AuditSession.cached, Option.bind_some] at hcached
      have hne : traceId ≠ c.traceId := by
        rintro rfl
        simp at hcached
      have hempty := h traceId
      rw [AuditSession.cached, AuditSession.queued, hb] at hempty
      rw [AuditSession.emitAuditEvent_of_bulk hb, AuditSession.queued, Option.map_some,
        Option.getD_some, traceRows_append, traceRows_singleton, AuditSession.traceId_emitted,
        if_neg hne.symm, List.append_nil]
      exact hempty (by simpa [hne] using hcached)
  | deleteAsset | beginNested | release | rollbackNested | rollback => exact h traceId hcached
  | enterBulk | exitBulk => rfl
  | flush => rw [AuditOp.apply, AuditSession.queued_flush, traceRows_nil]

/-! ### Runs of all sessions -/

/-- The committed rows, the sessions, and for each session the traces that it has pending and to
which another session has committed since. -/
structure AuditWorld (ι : Type) where
  committed : List AuditEventRow
  sessions : ι → AuditSession
  overtaken : ι → Str → Prop

/-- An operation of one of the sessions. -/
inductive WorldOp (ι : Type)
  | act (i : ι) (o : AuditOp)
  | commit (i : ι)

variable {ι : Type} [DecidableEq ι]

/-- An empty table with new sessions. -/
def AuditWorld.initial : AuditWorld ι := ⟨[], fun _ => .fresh, fun _ _ => False⟩

/-- One operation. -/
def AuditWorld.step (w : AuditWorld ι) : WorldOp ι → AuditWorld ι
  | .act i o =>
    let sessions := Function.update w.sessions i (o.apply w.committed (w.sessions i))
    { committed := w.committed
      sessions := sessions
      overtaken := fun j traceId => w.overtaken j traceId ∧ (sessions j).Pending traceId }
  | .commit i =>
    let sessions := Function.update w.sessions i (w.sessions i).commit
    { committed := (w.sessions i).visible w.committed
      sessions := sessions
      overtaken := fun j traceId =>
        (w.overtaken j traceId ∨ j ≠ i ∧ (w.sessions i).Writes traceId) ∧
          (sessions j).Pending traceId }

/-- The discipline: operations on traces that were not overtaken are as `AuditOp.Allowed` asks, and
a session whose writes were overtaken does not commit. -/
def WorldOp.Allowed (w : AuditWorld ι) : WorldOp ι → Prop
  | .act i o => ∀ traceId, ¬ w.overtaken i traceId → o.Allowed w.committed (w.sessions i) traceId
  | .commit i => ∀ traceId, (w.sessions i).Writes traceId → ¬ w.overtaken i traceId

/-- The invariant of the runs. -/
structure AuditWorld.Sound (w : AuditWorld ι) : Prop where
  table : ∀ traceId, TraceChain (traceRows w.committed traceId)
  sessions : ∀ i traceId, ¬ w.overtaken i traceId →
    Vat.Sound w.committed (w.sessions i) traceId
  queued : ∀ i traceId, (w.sessions i).cached traceId = none →
    traceRows (w.sessions i).queued traceId = []

namespace AuditWorld

theorem sessions_act_self (w : AuditWorld ι) (i : ι) (o : AuditOp) :
    (w.step (.act i o)).sessions i = o.apply w.committed (w.sessions i) :=
  Function.update_self ..

theorem sessions_act_of_ne (w : AuditWorld ι) {i j : ι} (o : AuditOp) (h : j ≠ i) :
    (w.step (.act i o)).sessions j = w.sessions j :=
  Function.update_of_ne h ..

theorem sessions_commit_self (w : AuditWorld ι) (i : ι) :
    (w.step (.commit i)).sessions i = (w.sessions i).commit :=
  Function.update_self ..

theorem sessions_commit_of_ne (w : AuditWorld ι) {i j : ι} (h : j ≠ i) :
    (w.step (.commit i)).sessions j = w.sessions j :=
  Function.update_of_ne h ..

theorem sound_act {w : AuditWorld ι} (h : w.Sound) {i : ι} {o : AuditOp}
    (ho : (WorldOp.act i o).Allowed w) : (w.step (.act i o)).Sound where
  table := h.table
  sessions j traceId hovertaken := by
    by_cases hpending : ((w.step (.act i o)).sessions j).Pending traceId
    · have hj : ¬ w.overtaken j traceId := fun hj => hovertaken ⟨hj, hpending⟩
      by_cases hji : j = i
      · subst hji
        rw [sessions_act_self]
        exact (h.sessions j traceId hj).apply (ho traceId hj) (h.queued j traceId)
      · rw [sessions_act_of_ne w o hji]
        exact h.sessions j traceId hj
    · exact sound_of_not_pending (h.table traceId) hpending
  queued j traceId := by
    by_cases hji : j = i
    · subst hji
      rw [sessions_act_self]
      exact queued_of_not_cached_apply (h.queued j) o
    · rw [sessions_act_of_ne w o hji]
      exact h.queued j traceId

omit [Sha256] [NewestRow] in
/-- What a session sees of a trace that it did not write. -/
theorem traceRows_visible_of_not_writes (committed : List AuditEventRow) {s : AuditSession}
    {traceId : Str} (h : ¬ s.Writes traceId) :
    traceRows (s.visible committed) traceId = traceRows committed traceId :=
  traceRows_foldl_of_not_touches committed fun w hw htouches => h ⟨w, hw, htouches⟩

theorem sound_commit {w : AuditWorld ι} (h : w.Sound) {i : ι}
    (hi : (WorldOp.commit i).Allowed w) : (w.step (.commit i)).Sound := by
  have htable (traceId : Str) : TraceChain (traceRows (w.step (.commit i)).committed traceId) := by
    by_cases hwrites : (w.sessions i).Writes traceId
    · exact (h.sessions i traceId (hi traceId hwrites)).visible
    · rw [show (w.step (.commit i)).committed = (w.sessions i).visible w.committed from rfl,
        traceRows_visible_of_not_writes w.committed hwrites]
      exact h.table traceId
  refine ⟨htable, fun j traceId hovertaken => ?_, fun j traceId => ?_⟩
  · by_cases hpending : ((w.step (.commit i)).sessions j).Pending traceId
    · by_cases hji : j = i
      · subst hji
        have hj : ¬ w.overtaken j traceId := fun hj => hovertaken ⟨.inl hj, hpending⟩
        rw [sessions_commit_self]
        refine ⟨fun n => ?_, (h.sessions j traceId hj).all⟩
        rw [AuditSession.commit, List.take_nil]
        exact htable traceId
      · -- The other sessions see the trace as before, since this one did not write it.
        have hj : ¬ w.overtaken j traceId := fun hj => hovertaken ⟨.inl hj, hpending⟩
        have hwrites : ¬ (w.sessions i).Writes traceId := fun hwrites =>
          hovertaken ⟨.inr ⟨hji, hwrites⟩, hpending⟩
        rw [sessions_commit_of_ne w hji]
        obtain ⟨hbefore, hall⟩ := h.sessions j traceId hj
        have hsame := traceRows_visible_of_not_writes w.committed hwrites
        constructor
        · intro n
          exact traceRows_foldl_congr hsame _ ▸ hbefore n
        · rw [traceRows_append] at hall ⊢
          exact traceRows_foldl_congr hsame _ ▸ hall
    · exact sound_of_not_pending (htable traceId) hpending
  · by_cases hji : j = i
    · subst hji
      rw [sessions_commit_self]
      exact h.queued j traceId
    · rw [sessions_commit_of_ne w hji]
      exact h.queued j traceId

theorem sound_step {w : AuditWorld ι} {o : WorldOp ι} (h : w.Sound) (ho : o.Allowed w) :
    (w.step o).Sound := by
  cases o with
  | act i o => exact sound_act h ho
  | commit i => exact sound_commit h ho

end AuditWorld

omit [NewestRow] [DecidableEq ι] in
/-- The chains of a sound world are linear. -/
theorem AuditWorld.Sound.linearChains {w : AuditWorld ι} (h : w.Sound) :
    LinearChains w.committed where
  exists_prev r hr hash hhash := by
    have hmem : r ∈ traceRows w.committed r.traceId := List.mem_filter.mpr ⟨hr, by simp⟩
    obtain ⟨q, hq, hqhash⟩ := (h.table r.traceId).linked.exists_key hmem hhash
    obtain ⟨hq, htrace⟩ := List.mem_filter.mp hq
    exact ⟨q, hq, of_decide_eq_true htrace, hqhash⟩
  nodup_prev traceId :=
    (h.table traceId).linked.nodup_prev
      ((h.table traceId).written.nodup_recordHash (h.table traceId).nodup)

omit [Sha256] [NewestRow] [DecidableEq ι] in
theorem not_pending_fresh (traceId : Str) : ¬ AuditSession.fresh.Pending traceId := by
  rintro (⟨w, hw, -⟩ | hqueued)
  · cases hw
  · exact hqueued rfl

omit [NewestRow] [DecidableEq ι] in
theorem AuditWorld.sound_initial : (AuditWorld.initial : AuditWorld ι).Sound := by
  have hnil (traceId : Str) : TraceChain (traceRows [] traceId) :=
    ⟨fun _ hr => absurd hr List.not_mem_nil, List.nodup_nil, Linked.nil⟩
  exact ⟨hnil, fun _ traceId _ => sound_of_not_pending (hnil traceId) (not_pending_fresh traceId),
    fun _ _ _ => rfl⟩

/-- In every state of a run that keeps to the discipline, the chains are linear. -/
theorem linearChains_run {ops pre : List (WorldOp ι)}
    (h : Along AuditWorld.step (fun w o => o.Allowed w) AuditWorld.initial ops)
    (hpre : pre <+: ops) : LinearChains (run AuditWorld.step AuditWorld.initial pre).committed :=
  (run_of_along (fun _ _ hs ho => AuditWorld.sound_step hs ho) AuditWorld.sound_initial
    (h.of_prefix hpre)).linearChains

end Runs

/-! ### Two sessions on one trace -/

attribute [local instance] unaryDigest newestFirst

/-- The second session emits after the first one committed. -/
def turnsRun : List (WorldOp Bool) :=
  [.act false (.emit (traceCall "a" "e1" 1)), .commit false,
    .act true (.emit (traceCall "a" "e2" 2)), .commit true]

theorem linearChains_turnsRun :
    LinearChains (run AuditWorld.step AuditWorld.initial turnsRun).committed := by
  have hrun : Along AuditWorld.step (fun w o => o.Allowed w) AuditWorld.initial turnsRun := by
    refine ⟨fun t _ _ => ?_, fun t _ h => h.1, fun t _ _ => ?_,
      fun t _ h => not_pending_fresh t h.1.2, trivial⟩
    · exact ⟨fun _ hr => absurd hr List.not_mem_nil, fun _ pre r h =>
        absurd h.symm (List.append_ne_nil_of_right_ne_nil pre (List.cons_ne_nil r [])),
        fun _ h => by cases h⟩
    · refine ⟨fun r hr => ?_, fun _ pre r h => ?_, fun _ h => by cases h⟩
      · obtain rfl : r = auditRow (traceCall "a" "e1" 1) none := List.mem_singleton.mp hr
        decide
      · have hone : [auditRow (traceCall "a" "e1" 1) none] = pre ++ [r] := h
        cases pre with
        | nil => simp
        | cons q pre => simp at hone
  exact linearChains_run hrun List.prefix_rfl

/-- Both sessions emit before either commits, so both events begin the trace. -/
def forkRun : List (WorldOp Bool) :=
  [.act false (.emit (traceCall "a" "e1" 1)), .act true (.emit (traceCall "a" "e2" 2)),
    .commit false, .commit true]

theorem not_linearChains_forkRun :
    ¬ LinearChains (run AuditWorld.step AuditWorld.initial forkRun).committed := by
  intro h
  have hprev : (traceRows (run AuditWorld.step AuditWorld.initial forkRun).committed
      (str "a")).map (·.prevRecordHash) = [none, none] := rfl
  have hnodup := hprev ▸ h.nodup_prev (str "a")
  exact absurd hnodup (by decide)

end Vat
