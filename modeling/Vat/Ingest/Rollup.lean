import Mathlib.Data.List.Forall2
import Vat.Python.Text
import Vat.Transition.Run
import Vat.Transition.Segments

/-!
# The rollup of ingest events

While a report is ingested, its asset mappings, deduplicated findings and failures are not written
to the audit log one by one. A window counts them and keeps the first few of each kind; it is
written as one event once it is old or idle, which only the next outcome finds out, and at the end
of the ingest. Times are of any type with a subtraction, an order and the integers, which is all
that the accumulator asks of the floats of the monotonic clock; `round3` stands for `round(·, 3)`.

Whatever the clock reads, and whenever the log refuses an event, the windows cut the recorded
outcomes into consecutive segments, one for each window, and their counts and samples are those of
their segments (`rollup_conserves`).

Source: `backend/app/api/ingest.py`, lines 54–199.

## Main definitions

* `Outcome`, `IngestRollupWindow`, `IngestRollupAccumulator`, `RollupEvent`.
* `flush`, `flushIfDue`, `recordMapping`, `recordDedup`, `recordFailure`, `flushFinal`.
* `Op`, `step`, `recorded`: a run of the accumulator, and what it records.
* `Tallies`, `Refines`: the counts and samples of a segment, and of all segments.

## Main results

* `Refines.flush`, `Refines.record`, `Refines.run`.
* `rollup_conserves`.
-/

namespace Vat.Rollup

open Transition

/-! ### The accumulator -/

/-- What the ingest of a finding reports, with the sampled detail. -/
inductive Outcome (π : Type*)
  | mapping (payload : π)
  | dedup (payload : π) (isNew : Bool)
  | failure (payload : π)
  deriving DecidableEq

/-- `_IngestRollupWindow`. -/
structure IngestRollupWindow (τ π : Type*) where
  startedMono : τ
  lastEventMono : τ
  startedAtIso : Str
  eventCount : ℕ
  mappingsCount : ℕ
  dedupNewCount : ℕ
  dedupMergedCount : ℕ
  failedCount : ℕ
  sampledMappings : List π
  sampledDedup : List π
  sampledFailures : List π

/-- `_IngestRollupAccumulator`. -/
structure IngestRollupAccumulator (τ π : Type*) where
  enabled : Bool
  windowSeconds : ℤ
  idleTimeoutSeconds : ℤ
  sampleSize : ℤ
  traceId : Str
  actorId : Option Str
  sourceId : Str
  parserId : Str
  window : Option (IngestRollupWindow τ π)

/-- `_IngestRollupAccumulator.__init__`. -/
def IngestRollupAccumulator.init (τ π : Type*) (enabled : Bool)
    (windowSeconds idleTimeoutSeconds sampleSize : ℤ) (traceId : Str) (actorId : Option Str)
    (sourceId parserId : Str) : IngestRollupAccumulator τ π where
  enabled := enabled
  windowSeconds := max 1 windowSeconds
  idleTimeoutSeconds := max 1 idleTimeoutSeconds
  sampleSize := max 1 sampleSize
  traceId := traceId
  actorId := actorId
  sourceId := sourceId
  parserId := parserId
  window := none

/-- The audit event of a window. -/
structure RollupEvent (τ π : Type*) where
  traceId : Str
  eventType : Str
  actorType : Str
  actorId : Option Str
  sourceId : Str
  parserId : Str
  decisionName : Str
  decisionReasonCode : Str
  decisionConfidence : Str
  decisionResult : Str
  windowStart : Str
  windowEnd : Str
  windowDurationSec : τ
  flushReason : Str
  eventsInWindow : ℕ
  assetMappingsResolvedCount : ℕ
  dedupNewCount : ℕ
  dedupMergedCount : ℕ
  failed : ℕ
  sampledMappings : List π
  sampledDedup : List π
  sampledFailures : List π
  rollupMode : Str

/-- What a call meets: the monotonic clock, the wall clock when it closes a window and when it opens
one, and whether the audit log takes the event of a window or raises. -/
structure Call (τ : Type*) where
  nowMono : τ
  endIso : Str
  startIso : Str
  emits : Bool

/-- The accumulator of an ingest, and the windows in the audit log. -/
structure State (τ π : Type*) where
  acc : IngestRollupAccumulator τ π
  emitted : List (RollupEvent τ π)

section Accumulator

variable {τ π : Type*}

/-- `_ensure_window`. -/
def ensureWindow (acc : IngestRollupAccumulator τ π) (call : Call τ) : IngestRollupWindow τ π :=
  match acc.window with
  | some w => w
  | none => ⟨call.nowMono, call.nowMono, call.startIso, 0, 0, 0, 0, 0, [], [], []⟩

/-- `window.sampled.append(payload)` below the sample size. -/
def sample (sampleSize : ℤ) (sampled : List π) (payload : π) : List π :=
  if (sampled.length : ℤ) < sampleSize then sampled ++ [payload] else sampled

variable [Sub τ]

/-- The event that `_flush` writes. -/
def rollupEvent (round3 : τ → τ) (acc : IngestRollupAccumulator τ π) (w : IngestRollupWindow τ π)
    (flushReason : Str) (call : Call τ) : RollupEvent τ π where
  traceId := acc.traceId
  eventType := str "ingest.rollup.window"
  actorType := str "api_client"
  actorId := acc.actorId
  sourceId := acc.sourceId
  parserId := acc.parserId
  decisionName := str "ingest_activity_rollup"
  decisionReasonCode := str "flush_" ++ flushReason
  decisionConfidence := str "high"
  decisionResult := str "window_emitted"
  windowStart := w.startedAtIso
  windowEnd := call.endIso
  windowDurationSec := round3 (call.nowMono - w.startedMono)
  flushReason := flushReason
  eventsInWindow := w.eventCount
  assetMappingsResolvedCount := w.mappingsCount
  dedupNewCount := w.dedupNewCount
  dedupMergedCount := w.dedupMergedCount
  failed := w.failedCount
  sampledMappings := w.sampledMappings
  sampledDedup := w.sampledDedup
  sampledFailures := w.sampledFailures
  rollupMode := str "event_window_sample_only"

/-- `_flush`. It has changed nothing when the audit log raises (`none`). -/
def flush (round3 : τ → τ) (s : State τ π) (flushReason : Str) (call : Call τ) :
    Option (State τ π) :=
  match s.acc.window with
  | none => some s
  | some w =>
    if s.acc.enabled = false ∨ w.eventCount = 0 then some { s with acc.window := none }
    else if call.emits then
      some
        { acc := { s.acc with window := none }
          emitted := s.emitted ++ [rollupEvent round3 s.acc w flushReason call] }
    else none

variable [LE τ] [DecidableLE τ] [IntCast τ]

/-- `_flush_if_due`. -/
def flushIfDue (round3 : τ → τ) (s : State τ π) (call : Call τ) : Option (State τ π) :=
  match s.acc.window with
  | none => some s
  | some w =>
    let idleAge := call.nowMono - w.lastEventMono
    let windowAge := call.nowMono - w.startedMono
    if s.acc.enabled = false then some s
    else if (s.acc.idleTimeoutSeconds : τ) ≤ idleAge ∨ (s.acc.windowSeconds : τ) ≤ windowAge then
      let reason :=
        if (s.acc.windowSeconds : τ) ≤ windowAge then str "timeout" else str "idle_timeout"
      flush round3 s reason call
    else some s

/-- What the three `record_*` share: `count` is what they do to the window of the event. -/
def record (round3 : τ → τ) (count : IngestRollupWindow τ π → IngestRollupWindow τ π)
    (s : State τ π) (call : Call τ) : Option (State τ π) :=
  if s.acc.enabled = false then some s
  else
    (flushIfDue round3 s call).map fun s =>
      let w := ensureWindow s.acc call
      let w := { w with lastEventMono := call.nowMono, eventCount := w.eventCount + 1 }
      { s with acc.window := some (count w) }

/-- `record_mapping`. -/
def recordMapping (round3 : τ → τ) (s : State τ π) (payload : π) (call : Call τ) :
    Option (State τ π) :=
  record round3 (fun w =>
    { w with
      mappingsCount := w.mappingsCount + 1
      sampledMappings := sample s.acc.sampleSize w.sampledMappings payload }) s call

/-- `record_dedup`. -/
def recordDedup (round3 : τ → τ) (s : State τ π) (payload : π) (isNew : Bool) (call : Call τ) :
    Option (State τ π) :=
  record round3 (fun w =>
    let w :=
      if isNew then { w with dedupNewCount := w.dedupNewCount + 1 }
      else { w with dedupMergedCount := w.dedupMergedCount + 1 }
    { w with sampledDedup := sample s.acc.sampleSize w.sampledDedup payload }) s call

/-- `record_failure`. -/
def recordFailure (round3 : τ → τ) (s : State τ π) (payload : π) (call : Call τ) :
    Option (State τ π) :=
  record round3 (fun w =>
    { w with
      failedCount := w.failedCount + 1
      sampledFailures := sample s.acc.sampleSize w.sampledFailures payload }) s call

/-- `flush_final`. -/
def flushFinal (round3 : τ → τ) (s : State τ π) (call : Call τ) : Option (State τ π) :=
  if s.acc.enabled = false then some s else flush round3 s (str "ingest_complete") call

/-! ### Runs -/

/-- A call of the accumulator. -/
inductive Op (τ π : Type*)
  | report (o : Outcome π) (call : Call τ)
  | flushFinal (call : Call τ)

/-- What a call leaves, when it does not raise. -/
def Op.result (round3 : τ → τ) (s : State τ π) : Op τ π → Option (State τ π)
  | .report (.mapping payload) call => recordMapping round3 s payload call
  | .report (.dedup payload isNew) call => recordDedup round3 s payload isNew call
  | .report (.failure payload) call => recordFailure round3 s payload call
  | .flushFinal call => Rollup.flushFinal round3 s call

/-- One call. A call that raises changes nothing. -/
def step (round3 : τ → τ) (s : State τ π) (op : Op τ π) : State τ π :=
  (op.result round3 s).getD s

/-- What a call records: its outcome, unless it raises or the rollup is off. -/
def Op.recordedIn (round3 : τ → τ) (s : State τ π) (op : Op τ π) : List (Outcome π) :=
  match op with
  | .report o _ => if s.acc.enabled ∧ (op.result round3 s).isSome then [o] else []
  | .flushFinal _ => []

/-- What a run records. -/
def recorded (round3 : τ → τ) : State τ π → List (Op τ π) → List (Outcome π)
  | _, [] => []
  | s, op :: ops => op.recordedIn round3 s ++ recorded round3 (step round3 s op) ops

end Accumulator

/-! ### What a window counts -/

/-- The counters of a window. -/
inductive CountKey
  | events
  | mappings
  | dedupNew
  | dedupMerged
  | failed
  deriving DecidableEq

/-- The samples of a window. -/
inductive SampleKey
  | mappings
  | dedup
  | failures
  deriving DecidableEq

section Tallies

variable {τ π : Type*}

/-- The outcomes that a counter counts. -/
def CountKey.counts : CountKey → Outcome π → Bool
  | .events, _ => true
  | .mappings, .mapping _ => true
  | .dedupNew, .dedup _ isNew => isNew
  | .dedupMerged, .dedup _ isNew => !isNew
  | .failed, .failure _ => true
  | _, _ => false

/-- The detail of an outcome that a sample is taken from. -/
def SampleKey.payload? : SampleKey → Outcome π → Option π
  | .mappings, .mapping payload => some payload
  | .dedup, .dedup payload _ => some payload
  | .failures, .failure payload => some payload
  | _, _ => none

def IngestRollupWindow.count (w : IngestRollupWindow τ π) : CountKey → ℕ
  | .events => w.eventCount
  | .mappings => w.mappingsCount
  | .dedupNew => w.dedupNewCount
  | .dedupMerged => w.dedupMergedCount
  | .failed => w.failedCount

def IngestRollupWindow.sampled (w : IngestRollupWindow τ π) : SampleKey → List π
  | .mappings => w.sampledMappings
  | .dedup => w.sampledDedup
  | .failures => w.sampledFailures

def RollupEvent.count (e : RollupEvent τ π) : CountKey → ℕ
  | .events => e.eventsInWindow
  | .mappings => e.assetMappingsResolvedCount
  | .dedupNew => e.dedupNewCount
  | .dedupMerged => e.dedupMergedCount
  | .failed => e.failed

def RollupEvent.sampled (e : RollupEvent τ π) : SampleKey → List π
  | .mappings => e.sampledMappings
  | .dedup => e.sampledDedup
  | .failures => e.sampledFailures

/-- The counts of the pending window. -/
def State.pendingCount (s : State τ π) (k : CountKey) : ℕ := (s.acc.window.map (·.count k)).getD 0

/-- The samples of the pending window. -/
def State.pendingSampled (s : State τ π) (k : SampleKey) : List π :=
  (s.acc.window.map (·.sampled k)).getD []

/-- The counts and samples of a segment of the outcomes: all outcomes of each kind are counted, and
the first ones are the sample. -/
structure Tallies (sampleSize : ℤ) (count : CountKey → ℕ) (sampled : SampleKey → List π)
    (l : List (Outcome π)) : Prop where
  count_eq : ∀ k, count k = l.countP k.counts
  sampled_eq : ∀ k, sampled k = (l.filterMap k.payload?).take sampleSize.toNat

/-- The windows in the audit log are those of the closed segments, none of which is empty, and the
pending window is that of the open one. -/
structure Refines (acc : IngestRollupAccumulator τ π) (s : State τ π)
    (segs : Segments (Outcome π)) : Prop where
  enabled : s.acc.enabled = acc.enabled
  sampleSize : s.acc.sampleSize = acc.sampleSize
  off : acc.enabled = false → s.acc.window = none
  emitted : List.Forall₂ (fun e l => l ≠ [] ∧ Tallies acc.sampleSize e.count e.sampled l) s.emitted
    segs.closed
  pending : Tallies acc.sampleSize s.pendingCount s.pendingSampled segs.pending

/-- A sample takes one more as long as there is room. -/
theorem sample_take (n : ℤ) (l : List π) (payload : π) :
    sample n (l.take n.toNat) payload = (l ++ [payload]).take n.toNat := by
  rw [sample, List.length_take]
  split_ifs with h
  · have hlt : l.length < n.toNat := by omega
    rw [List.take_of_length_le hlt.le, List.take_of_length_le]
    rw [List.length_append, List.length_singleton]
    exact hlt
  · rw [List.take_append_of_le_length (by omega)]

/-- The window of no outcome. -/
theorem Tallies.nil (n : ℤ) : Tallies (π := π) n (fun _ => 0) (fun _ => []) [] where
  count_eq k := by simp
  sampled_eq k := by simp

theorem Tallies.count_events {n : ℤ} {count : CountKey → ℕ} {sampled : SampleKey → List π}
    {l : List (Outcome π)} (h : Tallies n count sampled l) : count .events = l.length := by
  rw [h.count_eq]
  exact List.countP_eq_length.mpr fun _ _ => rfl

/-- Samples never exceed their bound. -/
theorem Tallies.length_sampled_le {n : ℤ} {count : CountKey → ℕ} {sampled : SampleKey → List π}
    {l : List (Outcome π)} (h : Tallies n count sampled l) (k : SampleKey) :
    (sampled k).length ≤ n.toNat := by
  rw [h.sampled_eq]
  exact List.length_take_le _ _

/-- One more outcome adds one to the counters of its kind, and its detail to their sample. -/
theorem Tallies.concat {n : ℤ} {count count' : CountKey → ℕ} {sampled sampled' : SampleKey → List π}
    {l : List (Outcome π)} {o : Outcome π} (h : Tallies n count sampled l)
    (hcount : ∀ k, count' k = count k + if k.counts o then 1 else 0)
    (hsampled : ∀ k, sampled' k = match k.payload? o with
      | some payload => sample n (sampled k) payload
      | none => sampled k) : Tallies n count' sampled' (l ++ [o]) where
  count_eq k := by rw [hcount, h.count_eq, List.countP_append, List.countP_singleton]
  sampled_eq k := by
    rw [hsampled, h.sampled_eq, List.filterMap_append]
    cases ho : k.payload? o with
    | none => simp [ho]
    | some payload => simp [ho, sample_take]

end Tallies

/-! ### What the calls keep -/

section Refinement

variable {τ π : Type*} {acc : IngestRollupAccumulator τ π} {s s' : State τ π}
  {segs : Segments (Outcome π)}

theorem State.pendingCount_of_none (h : s.acc.window = none) : s.pendingCount = fun _ => 0 := by
  funext k
  rw [State.pendingCount, h]
  rfl

theorem State.pendingSampled_of_none (h : s.acc.window = none) :
    s.pendingSampled = fun _ => [] := by
  funext k
  rw [State.pendingSampled, h]
  rfl

theorem State.pendingCount_of_some {w : IngestRollupWindow τ π} (h : s.acc.window = some w) :
    s.pendingCount = w.count := by
  funext k
  rw [State.pendingCount, h]
  rfl

theorem State.pendingSampled_of_some {w : IngestRollupWindow τ π} (h : s.acc.window = some w) :
    s.pendingSampled = w.sampled := by
  funext k
  rw [State.pendingSampled, h]
  rfl

theorem Refines.init (hacc : acc.window = none) :
    Refines acc ⟨acc, []⟩ Segments.empty where
  enabled := rfl
  sampleSize := rfl
  off := fun _ => hacc
  emitted := .nil
  pending := by
    rw [State.pendingCount_of_none hacc, State.pendingSampled_of_none hacc]
    exact Tallies.nil _

/-- Without a window, no outcome is pending. -/
theorem Refines.pending_eq_nil (h : Refines acc s segs) (hwindow : s.acc.window = none) :
    segs.pending = [] := by
  have hcount := h.pending.count_events
  rw [State.pendingCount_of_none hwindow] at hcount
  exact List.length_eq_zero_iff.mp hcount.symm

/-- What is pending is tallied in the window. -/
theorem Refines.tallies_window (h : Refines acc s segs) {w : IngestRollupWindow τ π}
    (hwindow : s.acc.window = some w) : Tallies acc.sampleSize w.count w.sampled segs.pending := by
  rw [← State.pendingCount_of_some hwindow, ← State.pendingSampled_of_some hwindow]
  exact h.pending

variable [Sub τ] (round3 : τ → τ)

/-- A flush closes the open segment, or finds nothing in it. -/
theorem Refines.flush {flushReason : Str} {call : Call τ} (h : Refines acc s segs)
    (henabled : acc.enabled = true) (hs : flush round3 s flushReason call = some s') :
    ∃ segs', Refines acc s' segs' ∧ segs'.events = segs.events ∧ s'.acc.window = none := by
  unfold Rollup.flush at hs
  cases hwindow : s.acc.window with
  | none =>
    simp only [hwindow] at hs
    cases hs
    exact ⟨segs, h, rfl, hwindow⟩
  | some w =>
    have hw := h.tallies_window hwindow
    have hon : ¬ s.acc.enabled = false := by simp [h.enabled, henabled]
    simp only [hwindow] at hs
    split_ifs at hs with hidle hemits
    · cases hs
      have hzero : w.eventCount = 0 := hidle.resolve_left hon
      have hnil : segs.pending = [] :=
        List.length_eq_zero_iff.mp (hw.count_events.symm.trans hzero)
      refine ⟨segs, ⟨h.enabled, h.sampleSize, fun _ => rfl, h.emitted, ?_⟩, rfl, rfl⟩
      rw [hnil]
      exact Tallies.nil _
    · cases hs
      have hne : segs.pending ≠ [] := fun hnil =>
        hidle (.inr (hw.count_events.trans (List.length_eq_zero_iff.mpr hnil)))
      refine ⟨segs.close, ⟨h.enabled, h.sampleSize, fun _ => rfl, ?_, Tallies.nil _⟩,
        segs.events_close, rfl⟩
      exact List.rel_append h.emitted (.cons ⟨hne, hw.count_eq, hw.sampled_eq⟩ .nil)

variable [LE τ] [DecidableLE τ] [IntCast τ]

/-- A look at the clock closes the open segment or leaves everything as it is. -/
theorem Refines.flushIfDue {call : Call τ} (h : Refines acc s segs) (henabled : acc.enabled = true)
    (hs : flushIfDue round3 s call = some s') :
    ∃ segs', Refines acc s' segs' ∧ segs'.events = segs.events := by
  unfold Rollup.flushIfDue at hs
  split at hs
  · cases hs
    exact ⟨segs, h, rfl⟩
  · dsimp only at hs
    split_ifs at hs with hoff hdue
    · cases hs
      exact ⟨segs, h, rfl⟩
    · obtain ⟨segs', h', hevents, -⟩ := h.flush round3 henabled hs
      exact ⟨segs', h', hevents⟩
    · obtain ⟨segs', h', hevents, -⟩ := h.flush round3 henabled hs
      exact ⟨segs', h', hevents⟩
    · cases hs
      exact ⟨segs, h, rfl⟩

omit [Sub τ] [LE τ] [DecidableLE τ] [IntCast τ] in
/-- What the window of a call counts before the call. -/
theorem Refines.tallies_ensureWindow {call : Call τ} (h : Refines acc s segs) :
    Tallies acc.sampleSize (ensureWindow s.acc call).count (ensureWindow s.acc call).sampled
      segs.pending := by
  cases hwindow : s.acc.window with
  | none =>
    rw [h.pending_eq_nil hwindow, ensureWindow, hwindow]
    exact ⟨fun k => by cases k <;> rfl, fun k => by cases k <;> simp [IngestRollupWindow.sampled]⟩
  | some w =>
    rw [ensureWindow, hwindow]
    exact h.tallies_window hwindow

/-- A record adds its outcome to the open segment, when it counts it in the window. -/
theorem Refines.record {count : IngestRollupWindow τ π → IngestRollupWindow τ π} {o : Outcome π}
    {call : Call τ} (h : Refines acc s segs) (henabled : acc.enabled = true)
    (hcount : ∀ (w : IngestRollupWindow τ π) (k : CountKey),
      (count { w with lastEventMono := call.nowMono, eventCount := w.eventCount + 1 }).count k =
        w.count k + if k.counts o then 1 else 0)
    (hsampled : ∀ (w : IngestRollupWindow τ π) (k : SampleKey),
      (count { w with lastEventMono := call.nowMono, eventCount := w.eventCount + 1 }).sampled k =
        match k.payload? o with
        | some payload => sample acc.sampleSize (w.sampled k) payload
        | none => w.sampled k)
    (hs : record round3 count s call = some s') :
    ∃ segs', Refines acc s' segs' ∧ segs'.events = segs.events ++ [o] := by
  have hon : ¬ s.acc.enabled = false := by simp [h.enabled, henabled]
  rw [Rollup.record, if_neg hon] at hs
  obtain ⟨t, ht, rfl⟩ := Option.map_eq_some_iff.mp hs
  obtain ⟨segs', h', hevents⟩ := h.flushIfDue round3 henabled ht
  have hoff : acc.enabled = false → False := by simp [henabled]
  refine ⟨segs'.push o, ⟨h'.enabled, h'.sampleSize, fun h => (hoff h).elim, h'.emitted, ?_⟩, ?_⟩
  · rw [State.pendingCount_of_some rfl, State.pendingSampled_of_some rfl]
    exact h'.tallies_ensureWindow.concat (hcount _) (hsampled _)
  · rw [Segments.events_push, hevents]

/-- A report of any kind. -/
theorem Refines.report {o : Outcome π} {call : Call τ} (h : Refines acc s segs)
    (henabled : acc.enabled = true) (hs : (Op.report o call).result round3 s = some s') :
    ∃ segs', Refines acc s' segs' ∧ segs'.events = segs.events ++ [o] := by
  have hsize := h.sampleSize
  cases o with
  | mapping payload =>
    change recordMapping round3 s payload call = some s' at hs
    rw [recordMapping] at hs
    refine h.record round3 henabled (fun w k => ?_) (fun w k => ?_) hs
    · cases k <;> rfl
    · rw [hsize]
      cases k <;> rfl
  | dedup payload isNew =>
    change recordDedup round3 s payload isNew call = some s' at hs
    rw [recordDedup] at hs
    refine h.record round3 henabled (fun w k => ?_) (fun w k => ?_) hs
    · cases isNew <;> cases k <;> rfl
    · rw [hsize]
      cases isNew <;> cases k <;> rfl
  | failure payload =>
    change recordFailure round3 s payload call = some s' at hs
    rw [recordFailure] at hs
    refine h.record round3 henabled (fun w k => ?_) (fun w k => ?_) hs
    · cases k <;> rfl
    · rw [hsize]
      cases k <;> rfl

/-- The last flush leaves nothing pending. -/
theorem Refines.flushFinal {call : Call τ} (h : Refines acc s segs)
    (hs : (Op.flushFinal call).result round3 s = some s') :
    ∃ segs', Refines acc s' segs' ∧ segs'.events = segs.events ∧ s'.acc.window = none := by
  rw [Op.result, Rollup.flushFinal] at hs
  split_ifs at hs with hoff
  · cases hs
    exact ⟨segs, h, rfl, h.off (h.enabled.symm.trans hoff)⟩
  · exact h.flush round3 (h.enabled.symm.trans (eq_true_of_ne_false hoff)) hs

/-- A rollup that is off does nothing. -/
theorem result_of_disabled (hoff : s.acc.enabled = false) (op : Op τ π) :
    op.result round3 s = some s := by
  cases op with
  | report o call => cases o <;> exact if_pos hoff
  | flushFinal call => exact if_pos hoff

/-- Each call adds to the segments what it records. -/
theorem Refines.step (h : Refines acc s segs) (op : Op τ π) :
    ∃ segs', Refines acc (step round3 s op) segs' ∧
      segs'.events = segs.events ++ op.recordedIn round3 s := by
  have hoff_or : s.acc.enabled = false ∨ acc.enabled = true := by
    rw [h.enabled]
    cases acc.enabled <;> simp
  rcases hoff_or with hoff | henabled
  · have hresult : op.result round3 s = some s := result_of_disabled round3 hoff op
    refine ⟨segs, by rwa [Rollup.step, hresult], ?_⟩
    cases op <;> simp [Op.recordedIn, hoff]
  · have hon : s.acc.enabled = true := h.enabled.trans henabled
    rw [Rollup.step]
    cases hresult : op.result round3 s with
    | none =>
      refine ⟨segs, h, ?_⟩
      cases op <;> simp [Op.recordedIn, hresult]
    | some t =>
      cases op with
      | report o call =>
        obtain ⟨segs', h', hevents⟩ := h.report round3 henabled hresult
        exact ⟨segs', h', by simp [hevents, Op.recordedIn, hon, hresult]⟩
      | flushFinal call =>
        obtain ⟨segs', h', hevents, -⟩ := h.flushFinal round3 hresult
        exact ⟨segs', h', by simp [hevents, Op.recordedIn]⟩

/-- A run adds to the segments what it records. -/
theorem Refines.run (h : Refines acc s segs) (ops : List (Op τ π)) :
    ∃ segs', Refines acc (run (Rollup.step round3) s ops) segs' ∧
      segs'.events = segs.events ++ recorded round3 s ops := by
  induction ops generalizing s segs with
  | nil => exact ⟨segs, h, by simp [recorded]⟩
  | cons op ops ih =>
    obtain ⟨segs₁, h₁, hevents₁⟩ := h.step round3 op
    obtain ⟨segs₂, h₂, hevents₂⟩ := ih h₁
    exact ⟨segs₂, h₂, by rw [hevents₂, hevents₁, recorded, List.append_assoc]⟩

end Refinement

/-! ### Conservation -/

section Conservation

variable {τ π : Type*} {acc : IngestRollupAccumulator τ π} {s : State τ π}
  {segs : Segments (Outcome π)}

/-- The counters of the windows add up to the outcomes in all segments. -/
theorem Refines.sum_count (h : Refines acc s segs) (k : CountKey) :
    (s.emitted.map (·.count k)).sum + s.pendingCount k = segs.events.countP k.counts := by
  have hclosed : s.emitted.map (·.count k) = segs.closed.map (List.countP k.counts) := by
    refine List.forall₂_eq_eq_eq ▸ List.forall₂_map_left_iff.mpr (List.forall₂_map_right_iff.mpr ?_)
    exact h.emitted.imp fun e l hl => hl.2.count_eq k
  rw [hclosed, h.pending.count_eq, segs.sum_countP]

theorem Refines.length_sampled_le (h : Refines acc s segs) (k : SampleKey) :
    (∀ e ∈ s.emitted, (e.sampled k).length ≤ acc.sampleSize.toNat) ∧
      (s.pendingSampled k).length ≤ acc.sampleSize.toNat := by
  have hemitted := h.emitted.imp fun e l hl => And.intro (hl.2.length_sampled_le k) hl
  exact ⟨((List.forall₂_and_left _ _).mp hemitted).1, h.pending.length_sampled_le k⟩

variable [Sub τ] [LE τ] [DecidableLE τ] [IntCast τ]

/-- **The rollup conserves events**, over any calls: the recorded outcomes are the segments of the
windows one after another, the pending one last, and each window has the counts and samples of its
segment. So the counters of all windows add up to what was recorded, no sample exceeds its bound,
and after a last flush that the log takes, every recorded outcome is in one window of the log. -/
theorem rollup_conserves (round3 : τ → τ) (enabled : Bool)
    (windowSeconds idleTimeoutSeconds sampleSize : ℤ) (traceId : Str) (actorId : Option Str)
    (sourceId parserId : Str) (ops : List (Op τ π)) :
    let acc := IngestRollupAccumulator.init τ π enabled windowSeconds idleTimeoutSeconds sampleSize
      traceId actorId sourceId parserId
    let s := run (step round3) ⟨acc, []⟩ ops
    let events := recorded round3 ⟨acc, []⟩ ops
    (∃ segs : Segments (Outcome π), segs.events = events ∧ Refines acc s segs) ∧
      (∀ k, (s.emitted.map (·.count k)).sum + s.pendingCount k = events.countP k.counts) ∧
      (∀ k, (∀ e ∈ s.emitted, ((e.sampled k).length : ℤ) ≤ max 1 sampleSize) ∧
        ((s.pendingSampled k).length : ℤ) ≤ max 1 sampleSize) ∧
      ∀ call t, (Op.flushFinal call).result round3 s = some t →
        ∃ segs : Segments (Outcome π), segs.closed.flatten = events ∧ segs.pending = [] ∧
          Refines acc t segs := by
  intro acc s events
  have hinit : Refines acc ⟨acc, []⟩ Segments.empty := Refines.init rfl
  obtain ⟨segs, h, hevents⟩ := hinit.run round3 ops
  replace hevents : segs.events = events := hevents
  have hsize : (acc.sampleSize.toNat : ℤ) = max 1 sampleSize :=
    Int.toNat_of_nonneg (by change 0 ≤ max 1 sampleSize; omega)
  refine ⟨⟨segs, hevents, h⟩, fun k => hevents ▸ h.sum_count k, fun k => ?_, fun call t ht => ?_⟩
  · rw [← hsize]
    exact_mod_cast h.length_sampled_le k
  · obtain ⟨segs', h', hevents', hwindow⟩ := h.flushFinal round3 ht
    have hnil : segs'.pending = [] := h'.pending_eq_nil hwindow
    refine ⟨segs', ?_, hnil, h'⟩
    rw [← hevents, ← hevents', Segments.events, hnil, List.append_nil]

end Conservation

end Vat.Rollup
