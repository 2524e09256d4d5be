import Vat.Sync.Pass
import Vat.Transition.Run

/-!
# Retries

The queue with the hand-overs of each event so far: whether each one succeeded, in their order. The
worker hands an event over when it takes it for delivery, alone or in a batch.
A reset starts the count again.

The three paths count alike only in part. The single path counts one attempt for each hand-over and
gives up at the last one. The update batch counts one for each answer but never gives up. The create
batch counts two for each result, and none of the paths counts what a pass that ends early did.

Source: `backend/app/services/sync_service.py`, lines 450–948.

## Main definitions

* `SyncWorld`: the queue with the hand-overs.
* `RetryLaw`: what a retry machine keeps of an event.
* `AttemptsCounted`: no pass takes an event where the count is off.

## Main results

* `retryLaw_settled_iff`: the outcomes that keep the law of an event.
* `SyncWorld.law_step_iff`: the steps that keep the law of every event.
* `SyncWorld.law_run_iff`: the law holds in every state of a run exactly if every step meets
  `AttemptsCounted`.
-/

namespace Vat

open Relational Transition

/-! ### Hand-overs -/

/-- Whether a hand-over with this outcome succeeded; `none` when there was none. -/
def Outcome.delivered : Outcome → Option Bool
  | .skipped => none
  | .sent _ | .batchLinked _ | .batchCreated _ _ | .batchUpdated => some true
  | .failed _ | .batchCreateFailed _ | .batchCreateUnanswered | .batchUpdateFailed _
  | .batchUpdateUnanswered | .batchRaised => some false

/-- The queue with the hand-overs of each event, in their order. -/
structure SyncWorld where
  db : SyncDb
  deliveries : Str → List Bool

namespace SyncWorld

/-- No events. -/
def start (findings : Str → TrackedFinding) : SyncWorld := ⟨⟨.empty, findings⟩, fun _ => []⟩

/-- The hand-overs of an event by a pass. -/
def passDeliveries (p : SyncPass) (db : SyncDb) (id : Str) : List Bool :=
  ((p.handedOver db).filter (·.1.id = id)).filterMap (·.2.delivered)

/-- The world after an operation. -/
def step [UuidSource] (w : SyncWorld) (op : SyncOp) : SyncWorld where
  db := w.db.step op
  deliveries := fun id =>
    match op with
    | .pass p => w.deliveries id ++ passDeliveries p w.db id
    | .resetFailed _ key =>
      if (w.db.events.get? id).any (·.isReset key) then [] else w.deliveries id
    | _ => w.deliveries id

end SyncWorld

/-! ### The law -/

/-- What a retry machine keeps of an event that was handed over so often: the count is right and
within the limit, an event that failed as often as the limit says is given up, and it is not handed
over once it is. -/
structure RetryLaw (ev : SyncEvent) (ds : List Bool) : Prop where
  attempts_eq : ev.attempts = ds.length
  attempts_le : ev.attempts ≤ ev.maxAttempts
  failed_of_failures : ev.maxAttempts ≤ ds.count false → ev.status = .failed
  not_sent_again : ∀ before d after, ds = before ++ d :: after → before.count false < ev.maxAttempts

/-- The last part follows from the count. -/
theorem RetryLaw.of_count {ev : SyncEvent} {ds : List Bool} (heq : ev.attempts = ds.length)
    (hle : ev.attempts ≤ ev.maxAttempts)
    (hfailed : ev.maxAttempts ≤ ds.count false → ev.status = .failed) : RetryLaw ev ds := by
  refine ⟨heq, hle, hfailed, ?_⟩
  rintro before d after rfl
  have hcount : before.count false ≤ before.length := List.count_le_length
  simp only [List.length_append, List.length_cons] at heq
  omega

/-- The outcomes that are counted as the law says. -/
def Outcome.Counted (ev : SyncEvent) : Outcome → Prop
  | .skipped | .sent _ | .failed _ | .batchUpdated => True
  | .batchCreateUnanswered | .batchUpdateFailed _ => ¬ ev.lastAttempt
  | .batchLinked _ | .batchCreated _ _ | .batchCreateFailed _ | .batchUpdateUnanswered
  | .batchRaised => False

theorem RetryLaw.attempts_lt {ev : SyncEvent} {ds : List Bool} (h : RetryLaw ev ds)
    (hqueued : ev.Queued) (hds : ∀ d ∈ ds, d = false) : ev.attempts < ev.maxAttempts := by
  by_contra hlt
  have hcount : ds.count false = ds.length := List.count_eq_length.mpr fun d hd => (hds d hd).symm
  have hfailed := h.failed_of_failures (by rw [hcount, ← h.attempts_eq]; omega)
  rcases hqueued with hq | hq <;> rw [hq] at hfailed <;> cases hfailed

section Settled

variable {ev ev' : SyncEvent} {ds : List Bool}

/-- A hand-over that is counted once and ends the work on the event keeps the law. -/
theorem RetryLaw.of_success (heq : ev.attempts = ds.length) (hlt : ev.attempts < ev.maxAttempts)
    (hattempts : ev'.attempts = ev.attempts + 1) (hmax : ev'.maxAttempts = ev.maxAttempts) :
    RetryLaw ev' (ds ++ [true]) := by
  have hcount : ds.count false ≤ ds.length := List.count_le_length
  refine RetryLaw.of_count ?_ ?_ fun h => ?_
  · rw [List.length_append, List.length_singleton]
    omega
  · omega
  · rw [List.count_append, List.count_singleton] at h
    simp only [beq_iff_eq, Bool.true_eq_false, if_false] at h
    omega

/-- A failed hand-over that is counted once keeps the law when it was the last one and the event is
given up, and when it was not the last one. -/
theorem retryLaw_of_failure_iff (heq : ev.attempts = ds.length) (hlt : ev.attempts < ev.maxAttempts)
    (hds : ∀ d ∈ ds, d = false) (hattempts : ev'.attempts = ev.attempts + 1)
    (hmax : ev'.maxAttempts = ev.maxAttempts) :
    RetryLaw ev' (ds ++ [false]) ↔ (ev.lastAttempt → ev'.status = .failed) := by
  have hcount : (ds ++ [false]).count false = ds.length + 1 := by
    rw [List.count_append, List.count_eq_length.mpr fun d hd => (hds d hd).symm,
      List.count_singleton_self]
  rw [SyncEvent.lastAttempt]
  constructor
  · intro h hlast
    exact h.failed_of_failures (by omega)
  · intro h
    refine RetryLaw.of_count ?_ ?_ fun hfailed => h (by omega)
    · rw [List.length_append, List.length_singleton]
      omega
    · omega

/-- The law fails when the count is off. -/
theorem not_retryLaw (heq : ev.attempts = ds.length) {b : Bool}
    (h : ev'.attempts ≠ ev.attempts + 1) : ¬ RetryLaw ev' (ds ++ [b]) := by
  intro hlaw
  have := hlaw.attempts_eq
  rw [List.length_append, List.length_singleton] at this
  omega

/-- The outcomes that keep the law of a queued event are the ones that are counted. -/
theorem retryLaw_settled_iff (h : RetryLaw ev ds) (hqueued : ev.Queued) (hds : ∀ d ∈ ds, d = false)
    (now : Instant) (o : Outcome) :
    RetryLaw (ev.settled now o) (ds ++ o.delivered.toList) ↔ o.Counted ev := by
  have hlt := h.attempts_lt hqueued hds
  have heq := h.attempts_eq
  cases o with
  | skipped =>
    rw [show Outcome.skipped.delivered.toList = [] from rfl, List.append_nil]
    exact iff_of_true h trivial
  | sent d => exact iff_of_true (.of_success heq hlt rfl rfl) trivial
  | batchUpdated => exact iff_of_true (.of_success heq hlt rfl rfl) trivial
  | failed e =>
    refine iff_of_true ?_ trivial
    rw [SyncEvent.settled]
    split_ifs with hlast
    · exact (retryLaw_of_failure_iff heq hlt hds (by rfl) (by rfl)).mpr fun _ => rfl
    · exact (retryLaw_of_failure_iff heq hlt hds (by rfl) (by rfl)).mpr fun h => absurd h hlast
  | batchCreateUnanswered =>
    refine (retryLaw_of_failure_iff heq hlt hds (by rfl) (by rfl)).trans (imp_congr_right fun _ => ?_)
    exact iff_of_false SyncStatus.noConfusion id
  | batchUpdateFailed e =>
    refine (retryLaw_of_failure_iff heq hlt hds (by rfl) (by rfl)).trans (imp_congr_right fun _ => ?_)
    exact iff_of_false SyncStatus.noConfusion id
  | batchLinked issueId =>
    exact iff_of_false (not_retryLaw heq (by simp [SyncEvent.settled, SyncEvent.complete])) id
  | batchCreated issueId issueUuid =>
    exact iff_of_false (not_retryLaw heq (by simp [SyncEvent.settled, SyncEvent.complete])) id
  | batchCreateFailed e =>
    exact iff_of_false (not_retryLaw heq (by simp [SyncEvent.settled, SyncEvent.retry])) id
  | batchUpdateUnanswered => exact iff_of_false (not_retryLaw heq (Nat.succ_ne_self _).symm) id
  | batchRaised => exact iff_of_false (not_retryLaw heq (Nat.succ_ne_self _).symm) id

/-- A hand-over that leaves an event in the queue did not succeed. -/
theorem delivered_of_queued_settled {now : Instant} {o : Outcome}
    (h : (ev.settled now o).Queued) : ∀ d ∈ o.delivered.toList, d = false := by
  cases o with
  | sent d => rcases h with h | h <;> cases h
  | batchUpdated => rcases h with h | h <;> cases h
  | batchLinked issueId => rcases h with h | h <;> cases h
  | batchCreated issueId issueUuid => rcases h with h | h <;> cases h
  | _ => simp [Outcome.delivered]

end Settled

theorem SyncEvent.Fresh.retryLaw {ev : SyncEvent} (h : ev.Fresh) : RetryLaw ev [] := by
  refine RetryLaw.of_count h.attempts ?_ fun hle => ?_
  · rw [h.attempts]
    exact Nat.zero_le _
  · rw [h.maxAttempts] at hle
    simp at hle

/-! ### Runs of one batch call -/

/-- A create batch leaves all its events unanswered, and none of them is at its last attempt. -/
structure CreateBatchCounted (env : SyncEnv) (ad : TrackerAdapter)
    (createIssues : List SyncEvent → Except SyncError (List (Except SyncError (Str × Option Str))))
    (batch : List SyncEvent) : Prop where
  unlinked : ∀ ev ∈ batch, classify env ad ev = .ok (ev, none)
  unanswered : createIssues batch = .ok []
  not_last : ∀ ev ∈ batch, ¬ ev.lastAttempt

/-- An update batch answers for all its events, and no error comes at a last attempt. -/
structure UpdateBatchCounted (env : SyncEnv)
    (updateIssues : List SyncEvent → Except SyncError (List (Option SyncError)))
    (batch : List SyncEvent) : Prop where
  valid : ∀ ev ∈ batch, env.validate ev = .ok ()
  answered : ∃ answers, updateIssues batch = .ok answers ∧ batch.length ≤ answers.length ∧
    ∀ ev e, (ev, some e) ∈ batch.zip answers → ¬ ev.lastAttempt

/-- A run keeps the count: it goes to no batch call, or to one that does. -/
def RunCounted (env : SyncEnv) : List SyncEvent → Prop
  | ev :: ev' :: rest =>
    match env.batchCall ev with
    | some (.create ad createIssues) => CreateBatchCounted env ad createIssues (ev :: ev' :: rest)
    | some (.update updateIssues) => UpdateBatchCounted env updateIssues (ev :: ev' :: rest)
    | none => True
  | _ => True

theorem forall_answered_unanswered {batch : List SyncEvent}
    {f : Except SyncError (Str × Option Str) → Outcome} :
    (∀ q ∈ answered batch [] f .batchCreateUnanswered, q.2.Counted q.1) ↔
      ∀ ev ∈ batch, ¬ ev.lastAttempt := by
  induction batch with
  | nil => simp
  | cons ev batch ih =>
    rw [answered_cons_nil, List.forall_mem_cons, List.forall_mem_cons, ih]
    exact Iff.rfl

theorem forall_answered_update {batch : List SyncEvent} {answers : List (Option SyncError)} :
    (∀ q ∈ answered batch answers updateOutcome .batchUpdateUnanswered, q.2.Counted q.1) ↔
      batch.length ≤ answers.length ∧
        ∀ ev e, (ev, some e) ∈ batch.zip answers → ¬ ev.lastAttempt := by
  induction batch generalizing answers with
  | nil => simp
  | cons ev batch ih =>
    cases answers with
    | nil =>
      rw [answered_cons_nil, List.forall_mem_cons]
      exact iff_of_false (fun h => h.1) fun h => absurd h.1 (by simp)
    | cons a answers =>
      rw [answered_cons_cons, List.forall_mem_cons, ih, List.zip_cons_cons, List.length_cons,
        List.length_cons, Nat.add_le_add_iff_right]
      have hhead : (updateOutcome a).Counted ev ↔ ∀ e, a = some e → ¬ ev.lastAttempt := by
        cases a with
        | none => simp [updateOutcome, Outcome.Counted]
        | some e => simp [updateOutcome, Outcome.Counted]
      rw [hhead]
      constructor
      · rintro ⟨ha, hle, hrest⟩
        refine ⟨hle, fun ev' e hmem => ?_⟩
        rcases List.mem_cons.mp hmem with heq | hmem
        · cases heq
          exact ha e rfl
        · exact hrest ev' e hmem
      · rintro ⟨hle, h⟩
        refine ⟨fun e he => h ev e (by rw [he]; exact List.mem_cons_self), hle, fun ev' e hmem => ?_⟩
        exact h ev' e (List.mem_cons_of_mem _ hmem)

theorem updateBatchCounted_iff {env : SyncEnv}
    {updateIssues : List SyncEvent → Except SyncError (List (Option SyncError))}
    {batch : List SyncEvent} :
    UpdateBatchCounted env updateIssues batch ↔
      ∃ os, updateBatchOutcomes env updateIssues batch = .ok os ∧ ∀ q ∈ os, q.2.Counted q.1 := by
  constructor
  · rintro ⟨hvalid, answers, hanswers, hcounted⟩
    refine ⟨_, bind_eq_ok_iff.mpr ⟨(), forM_eq_ok_iff.mpr hvalid, bind_eq_ok_iff.mpr
      ⟨answers, hanswers, rfl⟩⟩, forall_answered_update.mpr hcounted⟩
  · rintro ⟨os, hos, hcounted⟩
    obtain ⟨_, hvalid, hos⟩ := bind_eq_ok_iff.mp hos
    obtain ⟨answers, hanswers, hos⟩ := bind_eq_ok_iff.mp hos
    cases hos
    exact ⟨forM_eq_ok_iff.mp hvalid, answers, hanswers, forall_answered_update.mp hcounted⟩

theorem classify_fst {env : SyncEnv} {ad : TrackerAdapter} {ev : SyncEvent}
    {p : SyncEvent × Option Str} (h : classify env ad ev = .ok p) : p.1 = ev := by
  obtain ⟨finding, -, h⟩ := bind_eq_ok_iff.mp h
  obtain ⟨existing, -, h⟩ := bind_eq_ok_iff.mp h
  cases h
  rfl

/-- Where the batch finds no issue for any event, all its events go to the call. -/
theorem mapM_classify_of_unlinked {env : SyncEnv} {ad : TrackerAdapter} {batch : List SyncEvent}
    (h : ∀ ev ∈ batch, classify env ad ev = .ok (ev, none)) :
    batch.mapM (classify env ad) = .ok (batch.map fun ev => (ev, none)) := by
  rw [mapM_eq_ok_iff, List.forall₂_map_right_iff, List.forall₂_same]
  exact h

/-- The batch, where it finds no issue for any event. -/
theorem createBatchOutcomes_of_unlinked {env : SyncEnv} {ad : TrackerAdapter}
    {createIssues : List SyncEvent → Except SyncError (List (Except SyncError (Str × Option Str)))}
    {batch : List SyncEvent} (hne : batch ≠ [])
    (h : ∀ ev ∈ batch, classify env ad ev = .ok (ev, none)) :
    createBatchOutcomes env ad createIssues batch = do
      return answered batch (← createIssues batch) createOutcome .batchCreateUnanswered := by
  rw [createBatchOutcomes, mapM_classify_of_unlinked h, ok_bind]
  simp [List.filterMap_map, hne]

/-- A batch that links no event found no issue for any. -/
theorem unlinked_of_counted {env : SyncEnv} {ad : TrackerAdapter}
    {createIssues : List SyncEvent → Except SyncError (List (Except SyncError (Str × Option Str)))}
    {batch : List SyncEvent} {os : List (SyncEvent × Outcome)}
    (hos : createBatchOutcomes env ad createIssues batch = .ok os)
    (hcounted : ∀ q ∈ os, q.2.Counted q.1) : ∀ ev ∈ batch, classify env ad ev = .ok (ev, none) := by
  obtain ⟨classified, hclassified, hos⟩ := bind_eq_ok_iff.mp hos
  have hlinked : ∀ q ∈ classified.filterMap fun p =>
      p.2.map fun issueId => (p.1, Outcome.batchLinked issueId), q ∈ os := by
    intro q hq
    dsimp only at hos
    split_ifs at hos
    · cases hos
      exact hq
    · obtain ⟨answers, -, hos⟩ := bind_eq_ok_iff.mp hos
      cases hos
      exact List.mem_append_left _ hq
  intro ev hev
  obtain ⟨p, hp, hclassify⟩ := exists_mem_of_forall₂ (mapM_eq_ok_iff.mp hclassified) hev
  obtain ⟨ev', issue⟩ := p
  obtain rfl : ev = ev' := (classify_fst hclassify).symm
  cases issue with
  | none => exact hclassify
  | some issueId =>
    have hmem : (ev, Outcome.batchLinked issueId) ∈ os :=
      hlinked _ (List.mem_filterMap.mpr ⟨_, hp, rfl⟩)
    exact (hcounted _ hmem).elim

theorem createBatchCounted_iff {env : SyncEnv} {ad : TrackerAdapter}
    {createIssues : List SyncEvent → Except SyncError (List (Except SyncError (Str × Option Str)))}
    {batch : List SyncEvent} (hne : batch ≠ []) :
    CreateBatchCounted env ad createIssues batch ↔
      ∃ os, createBatchOutcomes env ad createIssues batch = .ok os ∧
        ∀ q ∈ os, q.2.Counted q.1 := by
  constructor
  · rintro ⟨hunlinked, hunanswered, hlast⟩
    rw [createBatchOutcomes_of_unlinked hne hunlinked, hunanswered]
    exact ⟨_, rfl, forall_answered_unanswered.mpr hlast⟩
  · rintro ⟨os, hos, hcounted⟩
    have hunlinked := unlinked_of_counted hos hcounted
    rw [createBatchOutcomes_of_unlinked hne hunlinked] at hos
    obtain ⟨answers, hanswers, hos⟩ := bind_eq_ok_iff.mp hos
    cases hos
    cases answers with
    | nil => exact ⟨hunlinked, hanswers, forall_answered_unanswered.mp hcounted⟩
    | cons a answers =>
      -- An answer is a result, and a result is counted twice.
      obtain ⟨ev, rest, rfl⟩ := List.exists_cons_of_ne_nil hne
      rw [answered_cons_cons] at hcounted
      have hfirst := hcounted (ev, createOutcome a) List.mem_cons_self
      cases a <;> exact hfirst.elim

theorem runCounted_iff (env : SyncEnv) (batch : List SyncEvent) :
    RunCounted env batch ↔
      ∃ os, runOutcomes env batch = .ok os ∧ ∀ q ∈ os, q.2.Counted q.1 := by
  have hsingle (ev : SyncEvent) : (singleOutcome env ev).Counted ev := by
    unfold singleOutcome
    split_ifs
    · trivial
    · split <;> trivial
  have hmap (batch : List SyncEvent) :
      ∃ os, (.ok (batch.map fun ev => (ev, singleOutcome env ev)) : Except SyncError _) = .ok os ∧
        ∀ q ∈ os, q.2.Counted q.1 := by
    refine ⟨_, rfl, fun q hq => ?_⟩
    obtain ⟨ev, -, rfl⟩ := List.mem_map.mp hq
    exact hsingle ev
  match batch with
  | [] => exact iff_of_true trivial (hmap [])
  | [ev] => exact iff_of_true trivial (hmap [ev])
  | ev :: ev' :: rest =>
    rw [RunCounted, runOutcomes]
    rcases env.batchCall ev with _ | (⟨ad, createIssues⟩ | updateIssues)
    · exact iff_of_true trivial (hmap _)
    · exact createBatchCounted_iff (List.cons_ne_nil _ _)
    · exact updateBatchCounted_iff

/-- A pass keeps the count when nothing ends it and all its outcomes are counted. -/
theorem SyncPass.forall_runCounted_iff {p : SyncPass} {db : SyncDb} :
    (∀ batch ∈ p.runs db, RunCounted p.env batch) ↔
      ¬ p.Raises db ∧ ∀ q ∈ p.handedOver db, q.2.Counted q.1 := by
  simp only [runCounted_iff]
  constructor
  · intro h
    have hraises : ¬ p.Raises db := by
      rintro ⟨batch, hbatch, hraise⟩
      obtain ⟨os, hos, -⟩ := h batch hbatch
      exact hraise os hos
    refine ⟨hraises, fun q hq => ?_⟩
    obtain ⟨outcomes, houtcomes, heq⟩ := exists_handedOver_eq hraises
    rw [heq] at hq
    obtain ⟨os, hos, hq⟩ := List.mem_flatten.mp hq
    obtain ⟨batch, hbatch, hrun⟩ := exists_mem_of_forall₂ houtcomes.flip hos
    obtain ⟨os', hos', hcounted⟩ := h batch hbatch
    rw [hrun] at hos'
    cases hos'
    exact hcounted q hq
  · rintro ⟨hraises, hcounted⟩ batch hbatch
    obtain ⟨outcomes, houtcomes, heq⟩ := exists_handedOver_eq hraises
    obtain ⟨os, hos, hrun⟩ := exists_mem_of_forall₂ houtcomes hbatch
    refine ⟨os, hrun, fun q hq => hcounted q ?_⟩
    rw [heq]
    exact List.mem_flatten_of_mem hos hq

/-- A pass hands no other event over. -/
theorem SyncWorld.passDeliveries_of_notMem {p : SyncPass} {db : SyncDb} {id : Str}
    (h : id ∉ (p.handedOver db).map (·.1.id)) : passDeliveries p db id = [] := by
  have hnone : (p.handedOver db).filter (·.1.id = id) = [] := by
    rw [List.filter_eq_nil_iff]
    intro q hq hid
    exact h (List.mem_map.mpr ⟨q, hq, of_decide_eq_true hid⟩)
  rw [passDeliveries, hnone, List.filterMap_nil]

/-- A pass hands each of its events over once. -/
theorem SyncWorld.passDeliveries_of_mem {p : SyncPass} {db : SyncDb} {q : SyncEvent × Outcome}
    (hq : q ∈ p.handedOver db) : passDeliveries p db q.1.id = q.2.delivered.toList := by
  have hnodup := p.nodup_handedOver db
  rw [passDeliveries]
  generalize p.handedOver db = os at hq hnodup
  induction os with
  | nil => cases hq
  | cons q' os ih =>
    rw [List.map_cons, List.nodup_cons] at hnodup
    rcases List.mem_cons.mp hq with rfl | hq
    · have hnone : os.filter (·.1.id = q.1.id) = [] := by
        rw [List.filter_eq_nil_iff]
        intro q' hq' hid
        exact hnodup.1 (List.mem_map.mpr ⟨q', hq', of_decide_eq_true hid⟩)
      rw [List.filter_cons_of_pos (by simp), hnone, List.filterMap_cons, List.filterMap_nil]
      cases q.2.delivered <;> rfl
    · have hne : q'.1.id ≠ q.1.id := by
        intro heq
        exact hnodup.1 (List.mem_map.mpr ⟨q, hq, heq.symm⟩)
      rw [List.filter_cons_of_neg (by simpa using hne)]
      exact ih hq hnodup.2

/-! ### The worker -/

namespace SyncWorld

/-- Every event has its law. -/
def Law (w : SyncWorld) : Prop :=
  ∀ id ev, w.db.events.get? id = some ev → RetryLaw ev (w.deliveries id)

/-- An event in the queue was handed over without success so far, and only rows were handed over. -/
structure Consistent (w : SyncWorld) : Prop where
  positive : ∀ id ev, w.db.events.get? id = some ev → 0 < ev.maxAttempts
  failed : ∀ id ev, w.db.events.get? id = some ev → ev.Queued → ∀ d ∈ w.deliveries id, d = false
  unknown : ∀ id, w.db.events.get? id = none → w.deliveries id = []

/-- The outcomes of a pass keep the count. -/
def AttemptsCounted (w : SyncWorld) : SyncOp → Prop
  | .pass p => ∀ batch ∈ p.runs w.db, RunCounted p.env batch
  | _ => True

theorem law_start (findings : Str → TrackedFinding) : (start findings).Law := by
  intro id ev h
  rw [start, Table.get?_empty] at h
  cases h

theorem consistent_start (findings : Str → TrackedFinding) : (start findings).Consistent where
  positive := fun id ev h => by
    rw [start, Table.get?_empty] at h
    cases h
  failed := fun id ev h => by
    rw [start, Table.get?_empty] at h
    cases h
  unknown := fun _ _ => rfl

variable [UuidSource] {w : SyncWorld}

theorem deliveries_step_pass (w : SyncWorld) (p : SyncPass) (id : Str) :
    (w.step (.pass p)).deliveries id = w.deliveries id ++ passDeliveries p w.db id := rfl

theorem get?_step_pass_of_mem {p : SyncPass} {q : SyncEvent × Outcome} (hr : ¬ p.Raises w.db)
    (hq : q ∈ p.handedOver w.db) :
    (w.step (.pass p)).db.events.get? q.1.id = some (q.1.settled p.now q.2) :=
  SyncDb.get?_processPending_of_mem hr hq

/-- A row of the world after a pass: a row that was handed over, one that was not, or a new one. -/
theorem row_step_pass {p : SyncPass} (hr : ¬ p.Raises w.db) {id : Str} {ev : SyncEvent}
    (h : (w.step (.pass p)).db.events.get? id = some ev) :
    (∃ q ∈ p.handedOver w.db, q.1.id = id ∧ ev = q.1.settled p.now q.2) ∨
      passDeliveries p w.db id = [] ∧
        (w.db.events.get? id = some ev ∨ w.db.events.get? id = none ∧ ev.Fresh) := by
  by_cases hid : id ∈ (p.handedOver w.db).map (·.1.id)
  · obtain ⟨q, hq, rfl⟩ := List.mem_map.mp hid
    rw [get?_step_pass_of_mem hr hq] at h
    cases h
    exact Or.inl ⟨q, hq, rfl, rfl⟩
  · refine Or.inr ⟨passDeliveries_of_notMem hid, ?_⟩
    cases hget : w.db.events.get? id with
    | none => exact Or.inr ⟨rfl, SyncDb.fresh_of_processPending hget h⟩
    | some ev' =>
      left
      rw [← h, ← hget]
      exact (SyncDb.get?_processPending_of_notMem hid (by rw [hget]; rfl)).symm

/-- A pass keeps the law exactly if it keeps the count. -/
theorem law_step_pass_iff {p : SyncPass} (hlaw : w.Law) (hw : w.Consistent) :
    (w.step (.pass p)).Law ↔ ∀ batch ∈ p.runs w.db, RunCounted p.env batch := by
  have hsettled (q) (hq : q ∈ p.handedOver w.db) :
      RetryLaw (q.1.settled p.now q.2) ((w.step (.pass p)).deliveries q.1.id) ↔
        q.2.Counted q.1 := by
    have hrow := (SyncPass.get?_of_mem_handedOver hq).1
    have hqueued := SyncPass.queued_of_mem_handedOver hq
    rw [deliveries_step_pass, passDeliveries_of_mem hq]
    exact retryLaw_settled_iff (hlaw _ _ hrow) hqueued (hw.failed _ _ hrow hqueued) p.now q.2
  rw [SyncPass.forall_runCounted_iff]
  constructor
  · intro h
    have hr : ¬ p.Raises w.db := by
      intro hr
      -- The event of the call that ended the pass was handed over, and its row is as before.
      obtain ⟨ev, hev⟩ := SyncPass.mem_handedOver_of_raises hr
      have hrow := (SyncPass.get?_of_mem_handedOver hev).1
      have hkept : (w.step (.pass p)).db.events.get? ev.id = some ev := by
        rw [← hrow]
        exact congrArg (fun db : SyncDb => db.events.get? ev.id)
          (SyncDb.processPendingSyncEvents_of_raises hr)
      exact (hsettled _ hev).mp (h _ _ hkept)
    exact ⟨hr, fun q hq => (hsettled q hq).mp (h _ _ (get?_step_pass_of_mem hr hq))⟩
  · rintro ⟨hr, hcounted⟩ id ev hev
    rcases row_step_pass hr hev with ⟨q, hq, rfl, rfl⟩ | ⟨hnone, hkept | ⟨hnew, hfresh⟩⟩
    · exact (hsettled q hq).mpr (hcounted q hq)
    · rw [deliveries_step_pass, hnone, List.append_nil]
      exact hlaw id ev hkept
    · rw [deliveries_step_pass, hnone, List.append_nil, hw.unknown id hnew]
      exact hfresh.retryLaw

/-- A pass keeps the rows that it found. -/
theorem get?_of_get?_step_pass {p : SyncPass} {id : Str}
    (h : (w.step (.pass p)).db.events.get? id = none) : w.db.events.get? id = none := by
  by_contra hne
  obtain ⟨ev, hev⟩ := Option.ne_none_iff_exists'.mp hne
  by_cases hr : p.Raises w.db
  · have heq : (w.step (.pass p)).db = w.db := SyncDb.processPendingSyncEvents_of_raises hr
    rw [heq, hev] at h
    cases h
  by_cases hid : id ∈ (p.handedOver w.db).map (·.1.id)
  · obtain ⟨q, hq, rfl⟩ := List.mem_map.mp hid
    rw [get?_step_pass_of_mem hr hq] at h
    cases h
  · have hkept := SyncDb.get?_processPending_of_notMem hid (by rw [hev]; rfl)
    rw [hev] at hkept
    exact absurd (hkept.symm.trans h) (by simp)

/-- A pass that nothing ends leaves no delivered event in the queue. -/
theorem consistent_step_pass {p : SyncPass} (hw : w.Consistent) (hr : ¬ p.Raises w.db) :
    (w.step (.pass p)).Consistent where
  positive := fun id ev hev => by
    rcases row_step_pass hr hev with ⟨q, hq, rfl, rfl⟩ | ⟨-, hkept | ⟨-, hfresh⟩⟩
    · rw [SyncEvent.maxAttempts_settled]
      exact hw.positive _ _ (SyncPass.get?_of_mem_handedOver hq).1
    · exact hw.positive id ev hkept
    · exact hfresh.positive
  failed := fun id ev hev hqueued => by
    rw [deliveries_step_pass]
    rcases row_step_pass hr hev with ⟨q, hq, rfl, rfl⟩ | ⟨hnone, hkept | ⟨hnew, -⟩⟩
    · have hrow := (SyncPass.get?_of_mem_handedOver hq).1
      rw [passDeliveries_of_mem hq, List.forall_mem_append]
      exact ⟨hw.failed _ _ hrow (SyncPass.queued_of_mem_handedOver hq), delivered_of_queued_settled hqueued⟩
    · rw [hnone, List.append_nil]
      exact hw.failed id ev hkept hqueued
    · rw [hnone, List.append_nil, hw.unknown id hnew]
      simp
  unknown := fun id hid => by
    have hnew := get?_of_get?_step_pass hid
    have hnotMem : id ∉ (p.handedOver w.db).map (·.1.id) := by
      intro hmem
      obtain ⟨q, hq, rfl⟩ := List.mem_map.mp hmem
      rw [(SyncPass.get?_of_mem_handedOver hq).1] at hnew
      cases hnew
    rw [deliveries_step_pass, passDeliveries_of_notMem hnotMem, hw.unknown id hnew, List.append_nil]

/-- New rows keep the law. -/
theorem law_step_enqueue (hlaw : w.Law) (hw : w.Consistent) (now : Instant) (findingId : Str)
    (target : SyncTarget) (targetKey : Option Str) (eventType : SyncEventType)
    (payload : SyncPayload) :
    (w.step (.enqueue now findingId target targetKey eventType payload)).Law ∧
      (w.step (.enqueue now findingId target targetKey eventType payload)).Consistent := by
  have hext : w.db.Extends (w.step (.enqueue now findingId target targetKey eventType payload)).db :=
    SyncDb.extends_addEvent _ _ _ _ _ _ _ _ (Or.inl rfl)
  have hrow (id ev) (h : (w.step (.enqueue now findingId target targetKey eventType
      payload)).db.events.get? id = some ev) :
      w.db.events.get? id = some ev ∨ w.db.events.get? id = none ∧ ev.Fresh := by
    cases hget : w.db.events.get? id with
    | none => exact Or.inr ⟨rfl, hext.fresh id ev hget h⟩
    | some ev' =>
      have hkept := hext.get? id (by rw [hget]; rfl)
      rw [h, hget] at hkept
      exact Or.inl hkept.symm
  refine ⟨fun id ev h => ?_, ⟨fun id ev h => ?_, fun id ev h hqueued => ?_, fun id h => ?_⟩⟩
  · rcases hrow id ev h with hkept | ⟨hnew, hfresh⟩
    · exact hlaw id ev hkept
    · have hnil := hw.unknown id hnew
      change RetryLaw ev (w.deliveries id)
      rw [hnil]
      exact hfresh.retryLaw
  · rcases hrow id ev h with hkept | ⟨-, hfresh⟩
    · exact hw.positive id ev hkept
    · exact hfresh.positive
  · rcases hrow id ev h with hkept | ⟨hnew, -⟩
    · exact hw.failed id ev hkept hqueued
    · have hnil := hw.unknown id hnew
      change ∀ d ∈ w.deliveries id, d = false
      rw [hnil]
      simp
  · refine hw.unknown id ?_
    by_contra hne
    obtain ⟨ev, hev⟩ := Option.ne_none_iff_exists'.mp hne
    rw [hext.get? id (by rw [hev]; rfl), hev] at h
    cases h

/-- The release of rows keeps the law. -/
theorem law_step_releaseStale (hlaw : w.Law) (hw : w.Consistent) :
    (w.step .releaseStale).Law ∧ (w.step .releaseStale).Consistent := by
  have hrow (id ev) (h : (w.step .releaseStale).db.events.get? id = some ev) :
      ∃ old, w.db.events.get? id = some old ∧ old.released = ev := by
    rw [← Option.map_eq_some_iff, ← h]
    exact (SyncDb.get?_releaseStale w.db id).symm
  refine ⟨fun id ev h => ?_, ⟨fun id ev h => ?_, fun id ev h hqueued => ?_, fun id h => ?_⟩⟩
  · obtain ⟨old, hold, rfl⟩ := hrow id ev h
    have hlawOld := hlaw id old hold
    change RetryLaw old.released (w.deliveries id)
    rw [SyncEvent.released]
    split_ifs with hprocessing
    · refine ⟨hlawOld.attempts_eq, hlawOld.attempts_le, fun hle => ?_, hlawOld.not_sent_again⟩
      rw [hlawOld.failed_of_failures hle] at hprocessing
      cases hprocessing
    · exact hlawOld
  · obtain ⟨old, hold, rfl⟩ := hrow id ev h
    rw [SyncEvent.released]
    split_ifs <;> exact hw.positive id old hold
  · obtain ⟨old, hold, rfl⟩ := hrow id ev h
    refine hw.failed id old hold ?_
    rw [SyncEvent.released] at hqueued
    split_ifs at hqueued with hprocessing
    · exact Or.inr hprocessing
    · exact hqueued
  · have hmap := SyncDb.get?_releaseStale w.db id
    exact hw.unknown id (Option.map_eq_none_iff.mp (hmap.symm.trans h))

/-- A reset starts the count again. -/
theorem law_step_resetFailed (hlaw : w.Law) (hw : w.Consistent) (now : Instant) (key : Str) :
    (w.step (.resetFailed now key)).Law ∧ (w.step (.resetFailed now key)).Consistent := by
  have hrow (id ev) (h : (w.step (.resetFailed now key)).db.events.get? id = some ev) :
      ∃ old, w.db.events.get? id = some old ∧ old.reset now key = ev := by
    rw [← Option.map_eq_some_iff, ← h]
    exact (SyncDb.get?_resetFailedTrackerEvents w.db now key id).symm
  have hdeliveries (id old) (h : w.db.events.get? id = some old) :
      (w.step (.resetFailed now key)).deliveries id =
        if old.isReset key then [] else w.deliveries id := by
    change (if (w.db.events.get? id).any (·.isReset key) then [] else w.deliveries id) = _
    rw [h, Option.any_some]
  refine ⟨fun id ev h => ?_, ⟨fun id ev h => ?_, fun id ev h hqueued => ?_, fun id h => ?_⟩⟩
  · obtain ⟨old, hold, rfl⟩ := hrow id ev h
    rw [hdeliveries id old hold, SyncEvent.reset]
    split_ifs
    · refine RetryLaw.of_count rfl (Nat.zero_le _) fun hle => ?_
      exact absurd hle (Nat.not_le.mpr (hw.positive id old hold))
    · exact hlaw id old hold
  · obtain ⟨old, hold, rfl⟩ := hrow id ev h
    rw [SyncEvent.reset]
    split_ifs <;> exact hw.positive id old hold
  · obtain ⟨old, hold, rfl⟩ := hrow id ev h
    rw [hdeliveries id old hold]
    rw [SyncEvent.reset] at hqueued
    split_ifs at hqueued ⊢
    · simp
    · exact hw.failed id old hold hqueued
  · have hmap := SyncDb.get?_resetFailedTrackerEvents w.db now key id
    have hnone : w.db.events.get? id = none := Option.map_eq_none_iff.mp (hmap.symm.trans h)
    change (if (w.db.events.get? id).any (·.isReset key) then [] else w.deliveries id) = _
    rw [hnone, hw.unknown id hnone, ite_self]

/-- A step keeps the law exactly if its outcomes are counted. -/
theorem law_step_iff (op : SyncOp) (hlaw : w.Law) (hw : w.Consistent) :
    (w.step op).Law ↔ w.AttemptsCounted op := by
  cases op with
  | pass p => exact law_step_pass_iff hlaw hw
  | enqueue => exact iff_of_true (law_step_enqueue hlaw hw _ _ _ _ _ _).1 trivial
  | releaseStale => exact iff_of_true (law_step_releaseStale hlaw hw).1 trivial
  | resetFailed => exact iff_of_true (law_step_resetFailed hlaw hw _ _).1 trivial

theorem consistent_step (op : SyncOp) (hlaw : w.Law) (hw : w.Consistent)
    (hop : w.AttemptsCounted op) : (w.step op).Consistent := by
  cases op with
  | pass p => exact consistent_step_pass hw (SyncPass.forall_runCounted_iff.mp hop).1
  | enqueue => exact (law_step_enqueue hlaw hw _ _ _ _ _ _).2
  | releaseStale => exact (law_step_releaseStale hlaw hw).2
  | resetFailed => exact (law_step_resetFailed hlaw hw _ _).2

/-- The law holds in every state of a run exactly if no pass of the run takes events into a batch
call that miscounts them. -/
theorem law_run_iff (findings : Str → TrackedFinding) (ops : List SyncOp) :
    (∀ pre, pre <+: ops → (run step (start findings) pre).Law) ↔
      Along step AttemptsCounted (start findings) ops :=
  forall_prefix_iff_along_of_inv (fun _ op hlaw hw => law_step_iff op hlaw hw)
    (fun _ op hlaw hw hop => consistent_step op hlaw hw hop) (law_start findings)
    (consistent_start findings) ops

end SyncWorld

/-! ### Two creates in one batch -/

/-- A tracker that has no issues and creates one for every request. -/
def newTracker : TrackerAdapter where
  supportsCreateIssue := true
  supportsUpdateIssue := true
  supportsPostComment := true
  findExistingIssueForGroupKey := none
  findExistingIssueForCve := none
  findExistingIssueForTitle := none
  createIssue := fun ev => .ok (ev.id, none)
  createIssuesBatch := some fun batch => .ok (batch.map fun ev => .ok (ev.id, none))
  postComment := fun _ => .ok ()
  updateIssue := fun _ => .ok ()
  updateIssuesBatch := some fun batch => .ok (batch.map fun _ => none)

/-- One tracker, pushed to by group. -/
def trackerEnv (ad : TrackerAdapter) : SyncEnv where
  trackers := fun key => if key = str "linear" then some ad else none
  sources := fun _ => none
  trackerConfigured := true
  pushGroups := true
  linkTitleFallback := false
  refused := raised (str "invalid request")

/-- A call of the worker at an instant. -/
def trackerPass (ad : TrackerAdapter) (now : Instant) : SyncPass :=
  ⟨trackerEnv ad, now, 50, fun _ => false, .insertion⟩

/-- The request to create an issue for a finding. -/
def enqueueCreate (now : Instant) (findingId : String) : SyncOp :=
  .enqueue now (str findingId) .tracker (some (str "linear")) .createIssue
    (.createIssue ⟨none, none, some (str "title"), none, none⟩)

section Example

attribute [local instance] longestIds

/-- Two creates that go to one batch, which succeeds for both. -/
def batchRun : List SyncOp := [enqueueCreate 1 "F1", enqueueCreate 2 "F2", .pass (trackerPass newTracker 3)]

/-- Each event was handed over once and counts two attempts. -/
theorem not_law_batchRun :
    ¬ (run SyncWorld.step (.start fun _ => .unsynced) batchRun).Law := by
  intro h
  have hrow : ((run SyncWorld.step (.start fun _ => .unsynced) batchRun).db.events.get?
      (str "0")).map SyncEvent.attempts = some 2 := by decide
  obtain ⟨ev, hev, hattempts⟩ := Option.map_eq_some_iff.mp hrow
  have hcount := (h _ _ hev).attempts_eq
  rw [hattempts] at hcount
  revert hcount
  decide

end Example

end Vat
