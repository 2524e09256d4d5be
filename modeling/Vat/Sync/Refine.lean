import Vat.Sync.Durable

/-!
# The create batch against one create at a time

A tracker with a state: creating an issue changes it, and a lookup sees the issues there are. The
create batch looks up every event before it creates anything, and the single path looks up each
event after the creates for the ones before it. Both take the events in the order of the queue.

Source: `backend/app/services/sync_service.py`, lines 546–601 and 828–898;
`backend/app/adapters/linear.py`, lines 842–926 and 1648–1761.

## Main definitions

* `Tracker`: a tracker with a state, and `Tracker.env`: what a pass finds in a state.
* `Tracker.oneAtATime`, `Tracker.inBatch`: the two paths.
* `Tracker.SameResult`: the same issues, links and statuses.
* `Tracker.Agrees`, `Tracker.LinksLast`: when the two paths come to the same.

## Main results

* `Tracker.sameResult_iff`.
-/

namespace Vat

open Relational Transition

/-- The settings that the lookups depend on. -/
structure PushSettings where
  pushGroups : Bool
  linkTitleFallback : Bool

/-- A tracker with a state. A lookup finds issues that exist, a new issue has a new id, and the
issue for a group key is found once there is one. -/
structure Tracker (σ : Type) where
  issues : σ → List Str
  findGroupKey : σ → Str → Option Str
  findCve : σ → Str → Option Str
  findTitle : σ → Str → Option Str
  create : σ → SyncEvent → Except SyncError ((Str × Option Str) × σ)
  batchSize : ℕ
  supportsUpdateIssue : Bool
  ne_nil : ∀ {s i}, i ∈ issues s → i ≠ []
  mem_of_findGroupKey : ∀ {s k i}, findGroupKey s k = some i → i ∈ issues s
  mem_of_findCve : ∀ {s k i}, findCve s k = some i → i ∈ issues s
  mem_of_findTitle : ∀ {s k i}, findTitle s k = some i → i ∈ issues s
  issues_create : ∀ {s ev i u s'}, create s ev = .ok ((i, u), s') →
    i ∉ issues s ∧ issues s' = issues s ++ [i]
  findGroupKey_create : ∀ {s ev r s' k}, create s ev = .ok (r, s') → k ≠ [] →
    ev.finding.groupKey = some k ∨ (findGroupKey s k).isSome → (findGroupKey s' k).isSome

namespace Tracker

variable {σ : Type} (T : Tracker σ) (key : Str) (settings : PushSettings)

/-- `create_issues_batch` on a list of requests: one create after another. -/
def createAll : σ → List SyncEvent → List (Except SyncError (Str × Option Str))
  | _, [] => []
  | s, ev :: rest =>
    match T.create s ev with
    | .ok (r, s') => .ok r :: createAll s' rest
    | .error e => .error e :: createAll s rest

/-- The adapter in a state. A batch holds as many creates as the settings of the tracker say. -/
def adapter (s : σ) : TrackerAdapter where
  supportsCreateIssue := true
  supportsUpdateIssue := T.supportsUpdateIssue
  supportsPostComment := true
  findExistingIssueForGroupKey := some fun _ k => .ok (T.findGroupKey s k)
  findExistingIssueForCve := some fun _ k => .ok (T.findCve s k)
  findExistingIssueForTitle := some fun _ k => .ok (T.findTitle s k)
  createIssue := fun ev => (T.create s ev).map Prod.fst
  createIssuesBatch := some fun batch => .ok (T.createAll s (batch.take T.batchSize))
  postComment := fun _ => .ok ()
  updateIssue := fun _ => .ok ()
  updateIssuesBatch := none

/-- What a pass finds in a state. -/
def env (s : σ) : SyncEnv where
  trackers := fun k => if k = key then some (T.adapter s) else none
  sources := fun _ => none
  trackerConfigured := true
  pushGroups := settings.pushGroups
  linkTitleFallback := settings.linkTitleFallback
  refused := raised (str "invalid request")

/-- The state after an event. -/
def after (s : σ) (q : SyncEvent × Outcome) : σ :=
  match q.2.createdIssue, T.create s q.1 with
  | some _, .ok (_, s') => s'
  | _, _ => s

/-- The state after several events. -/
def afterAll (s : σ) (os : List (SyncEvent × Outcome)) : σ := os.foldl T.after s

/-- The events one at a time: each on its own, in the state that the ones before it left. -/
def oneAtATime : σ → List SyncEvent → List (SyncEvent × Outcome)
  | _, [] => []
  | s, ev :: rest =>
    let o := singleOutcome (T.env key settings s) ev
    (ev, o) :: oneAtATime (T.after s (ev, o)) rest

/-- The events in one batch. -/
def inBatch (s : σ) (batch : List SyncEvent) : Except SyncError (List (SyncEvent × Outcome)) :=
  createBatchOutcomes (T.env key settings s) (T.adapter s)
    (fun batch => .ok (T.createAll s (batch.take T.batchSize))) batch

/-- A create event of the tracker, as the queue holds it. -/
structure IsCreate (ev : SyncEvent) : Prop where
  key_ne_nil : key ≠ []
  target : ev.target = .tracker
  targetKey : ev.targetKey = some key
  eventType : ev.eventType = .createIssue
  payload : ev.payload = .createIssue ev.finding

/-! ### Lookups -/

/-- The issue that the create batch links an event to, in the state of a tracker. -/
def existingInBatch (s : σ) (f : FindingDict) : Option Str :=
  if settings.pushGroups then
    ((f.groupKey.filter (· ≠ [])).bind (T.findGroupKey s)).or
      (((f.cve.filter (· ≠ [])).bind (T.findCve s)).or
        ((f.title.filter (· ≠ [])).bind (T.findTitle s)))
  else none

/-- The issue that the single path links an event to. -/
def existing (s : σ) (f : FindingDict) : Option Str :=
  if settings.pushGroups then
    ((f.groupKey.filter (· ≠ [])).bind (T.findGroupKey s)).or
      (((f.cve.filter (· ≠ [])).bind (T.findCve s)).or
        (if settings.linkTitleFallback then (f.title.filter (· ≠ [])).bind (T.findTitle s)
          else none))
  else none

variable {T key settings}

theorem lookup_eq (find : σ → Str → Option Str) (s : σ) (ev : SyncEvent) (k : Option Str) :
    lookup (some fun _ k => .ok (find s k)) ev k = .ok ((k.filter (· ≠ [])).bind (find s)) := by
  unfold lookup
  cases k.filter (· ≠ []) with
  | none => rfl
  | some k => rfl

theorem findExistingInBatch_eq (s : σ) (ev : SyncEvent) (f : FindingDict) :
    findExistingInBatch (T.env key settings s) (T.adapter s) ev f =
      .ok (T.existingInBatch settings s f) := by
  have hpush : (T.env key settings s).pushGroups = settings.pushGroups := rfl
  rw [findExistingInBatch, existingInBatch, hpush]
  cases settings.pushGroups with
  | false => rfl
  | true =>
    simp only [adapter, lookup_eq, ok_bind, Bool.not_true, Bool.false_eq_true, if_false, if_true]
    cases (f.groupKey.filter (· ≠ [])).bind (T.findGroupKey s) with
    | some i => rfl
    | none => cases (f.cve.filter (· ≠ [])).bind (T.findCve s) <;> rfl

theorem truthy_eq_isSome {x : Option Str} (h : ∀ i, x = some i → i ≠ []) :
    Str.truthy x = x.isSome := by
  cases x with
  | none => rfl
  | some i => simpa [Str.truthy] using h i rfl

theorem filter_ne_nil_eq {x : Option Str} (h : ∀ i, x = some i → i ≠ []) :
    x.filter (· ≠ []) = x := by
  cases x with
  | none => rfl
  | some i => exact Option.filter_some_pos (by simpa using h i rfl)

theorem ne_nil_of_bind {find : σ → Str → Option Str} {s : σ}
    (hfind : ∀ {k i}, find s k = some i → i ∈ T.issues s) (k : Option Str) :
    ∀ i, k.bind (find s) = some i → i ≠ [] := by
  intro i hi
  obtain ⟨k, -, hk⟩ := Option.bind_eq_some_iff.mp hi
  exact T.ne_nil (hfind hk)

theorem findExisting_eq (s : σ) (ev : SyncEvent) (f : FindingDict) :
    findExisting (T.env key settings s) (T.adapter s) ev f = .ok (T.existing settings s f) := by
  have hpush : (T.env key settings s).pushGroups = settings.pushGroups := rfl
  have hfallback : (T.env key settings s).linkTitleFallback = settings.linkTitleFallback := rfl
  have hgroup := ne_nil_of_bind (s := s) T.mem_of_findGroupKey (f.groupKey.filter (· ≠ []))
  have hcve := ne_nil_of_bind (s := s) T.mem_of_findCve (f.cve.filter (· ≠ []))
  have htitle := ne_nil_of_bind (s := s) T.mem_of_findTitle (f.title.filter (· ≠ []))
  rw [findExisting, existing, hpush, hfallback]
  cases settings.pushGroups with
  | false => rfl
  | true =>
    simp only [adapter, lookup_eq, ok_bind, Bool.not_true, Bool.false_eq_true, if_false, if_true,
      truthy_eq_isSome hgroup, truthy_eq_isSome hcve, filter_ne_nil_eq htitle]
    cases (f.groupKey.filter (· ≠ [])).bind (T.findGroupKey s) with
    | some i => rfl
    | none =>
      cases (f.cve.filter (· ≠ [])).bind (T.findCve s) with
      | some i => rfl
      | none => cases settings.linkTitleFallback <;> rfl

theorem tracker_eq {ev : SyncEvent} (hev : IsCreate key ev) (s : σ) :
    (T.env key settings s).tracker ev = some (T.adapter s) := by
  rw [SyncEnv.tracker, hev.targetKey, Option.filter_some_pos (by simpa using hev.key_ne_nil),
    Option.bind_some]
  exact if_pos rfl

theorem createRequest_eq {ev : SyncEvent} (hev : IsCreate key ev) (s : σ) :
    (T.env key settings s).createRequest ev = .ok ev.finding := by
  rw [SyncEnv.createRequest, hev.payload]

theorem deliver_eq {ev : SyncEvent} (hev : IsCreate key ev) (s : σ) :
    deliver (T.env key settings s) ev =
      match T.existing settings s ev.finding with
      | some i => .ok (.linked i)
      | none => (T.create s ev).map fun r => .created r.1.1 r.1.2 := by
  unfold deliver
  rw [hev.target, hev.eventType]
  simp only [tracker_eq hev]
  change deliverCreate (T.env key settings s) (T.adapter s) ev = _
  rw [deliverCreate, createRequest_eq hev, ok_bind, findExisting_eq, ok_bind]
  cases T.existing settings s ev.finding with
  | some i => rfl
  | none =>
    change ((T.create s ev).map Prod.fst >>= fun r => pure (Delivered.created r.1 r.2)) = _
    cases T.create s ev <;> rfl

/-- The outcome of the single path, in the state of a tracker. -/
theorem singleOutcome_eq {ev : SyncEvent} (hev : IsCreate key ev) (s : σ) :
    singleOutcome (T.env key settings s) ev =
      match T.existing settings s ev.finding, T.create s ev with
      | some i, _ => .sent (.linked i)
      | none, .ok ((i, u), _) => .sent (.created i u)
      | none, .error e => .failed e := by
  have hconfigured : (T.env key settings s).trackerConfigured = true := rfl
  rw [singleOutcome, hconfigured, if_neg (by simp), deliver_eq hev]
  cases T.existing settings s ev.finding with
  | some i => rfl
  | none => cases T.create s ev <;> rfl

theorem existingInBatch_mem {s : σ} {f : FindingDict} {i : Str}
    (h : T.existingInBatch settings s f = some i) : i ∈ T.issues s := by
  rw [existingInBatch] at h
  split_ifs at h
  rcases Option.or_eq_some_iff.mp h with h | ⟨-, h⟩
  · obtain ⟨k, -, hk⟩ := Option.bind_eq_some_iff.mp h
    exact T.mem_of_findGroupKey hk
  · rcases Option.or_eq_some_iff.mp h with h | ⟨-, h⟩
    · obtain ⟨k, -, hk⟩ := Option.bind_eq_some_iff.mp h
      exact T.mem_of_findCve hk
    · obtain ⟨k, -, hk⟩ := Option.bind_eq_some_iff.mp h
      exact T.mem_of_findTitle hk

/-- The classification of the create batch, in the state of a tracker. -/
theorem classify_eq {ev : SyncEvent} (hev : IsCreate key ev) (s : σ) :
    classify (T.env key settings s) (T.adapter s) ev =
      .ok (ev, T.existingInBatch settings s ev.finding) := by
  rw [classify, createRequest_eq hev, ok_bind, findExistingInBatch_eq, ok_bind,
    filter_ne_nil_eq fun i hi => T.ne_nil (existingInBatch_mem hi)]
  rfl

/-! ### The batch event by event -/

variable (T settings) in
/-- The outcomes of the batch in the order of its events: the lookups are made in the state `s₀`,
and `n` creates are left. -/
def batchOutcomes (s₀ : σ) : ℕ → σ → List SyncEvent → List (SyncEvent × Outcome)
  | _, _, [] => []
  | n, s, ev :: rest =>
    match T.existingInBatch settings s₀ ev.finding with
    | some i => (ev, .batchLinked i) :: batchOutcomes s₀ n s rest
    | none =>
      match n with
      | 0 => (ev, .batchCreateUnanswered) :: batchOutcomes s₀ 0 s rest
      | n + 1 =>
        match T.create s ev with
        | .ok ((i, u), s') => (ev, .batchCreated i u) :: batchOutcomes s₀ n s' rest
        | .error e => (ev, .batchCreateFailed e) :: batchOutcomes s₀ n s rest

theorem batchOutcomes_of_some {s₀ : σ} {ev : SyncEvent} {i : Str}
    (h : T.existingInBatch settings s₀ ev.finding = some i) (n : ℕ) (s : σ)
    (rest : List SyncEvent) :
    T.batchOutcomes settings s₀ n s (ev :: rest) =
      (ev, .batchLinked i) :: T.batchOutcomes settings s₀ n s rest := by
  rw [batchOutcomes.eq_def]
  simp only [h]

theorem batchOutcomes_zero {s₀ : σ} {ev : SyncEvent}
    (h : T.existingInBatch settings s₀ ev.finding = none) (s : σ) (rest : List SyncEvent) :
    T.batchOutcomes settings s₀ 0 s (ev :: rest) =
      (ev, .batchCreateUnanswered) :: T.batchOutcomes settings s₀ 0 s rest := by
  rw [batchOutcomes.eq_def]
  simp only [h]

theorem batchOutcomes_created {s₀ s s' : σ} {ev : SyncEvent} {i : Str} {u : Option Str}
    (h : T.existingInBatch settings s₀ ev.finding = none) (hcreate : T.create s ev = .ok ((i, u), s'))
    (n : ℕ) (rest : List SyncEvent) :
    T.batchOutcomes settings s₀ (n + 1) s (ev :: rest) =
      (ev, .batchCreated i u) :: T.batchOutcomes settings s₀ n s' rest := by
  rw [batchOutcomes.eq_def]
  simp only [h, hcreate]

theorem batchOutcomes_failed {s₀ s : σ} {ev : SyncEvent} {e : SyncError}
    (h : T.existingInBatch settings s₀ ev.finding = none) (hcreate : T.create s ev = .error e)
    (n : ℕ) (rest : List SyncEvent) :
    T.batchOutcomes settings s₀ (n + 1) s (ev :: rest) =
      (ev, .batchCreateFailed e) :: T.batchOutcomes settings s₀ n s rest := by
  rw [batchOutcomes.eq_def]
  simp only [h, hcreate]

/-- Whether the batch links an event to an issue that it found. -/
def isLinked (q : SyncEvent × Outcome) : Bool :=
  match q.2 with
  | .batchLinked _ => true
  | _ => false

theorem map_fst_batchOutcomes (s₀ : σ) (n : ℕ) (s : σ) (batch : List SyncEvent) :
    (T.batchOutcomes settings s₀ n s batch).map Prod.fst = batch := by
  induction batch generalizing n s with
  | nil => rfl
  | cons ev rest ih =>
    rw [batchOutcomes.eq_def]
    dsimp only
    split
    · rw [List.map_cons, ih]
    · split
      · rw [List.map_cons, ih]
      · split <;> rw [List.map_cons, ih]

/-- The events that the batch links. -/
theorem filter_isLinked (s₀ : σ) (n : ℕ) (s : σ) (batch : List SyncEvent) :
    (T.batchOutcomes settings s₀ n s batch).filter isLinked =
      (batch.map fun ev => (ev, T.existingInBatch settings s₀ ev.finding)).filterMap
        fun p => p.2.map fun issueId => (p.1, Outcome.batchLinked issueId) := by
  induction batch generalizing n s with
  | nil => rfl
  | cons ev rest ih =>
    rw [List.map_cons, List.filterMap_cons]
    cases hex : T.existingInBatch settings s₀ ev.finding with
    | some i => rw [batchOutcomes_of_some hex, List.filter_cons_of_pos rfl, ih, Option.map_some]
    | none =>
      cases n with
      | zero => rw [batchOutcomes_zero hex, List.filter_cons_of_neg (by simp [isLinked]), ih, Option.map_none]
      | succ n =>
        cases hcreate : T.create s ev with
        | ok r =>
          rw [batchOutcomes_created hex hcreate, List.filter_cons_of_neg (by simp [isLinked]), ih,
            Option.map_none]
        | error e =>
          rw [batchOutcomes_failed hex hcreate, List.filter_cons_of_neg (by simp [isLinked]), ih,
            Option.map_none]

/-- The events that the batch hands to the call. -/
theorem filter_not_isLinked (s₀ : σ) (n : ℕ) (s : σ) (batch : List SyncEvent) :
    (T.batchOutcomes settings s₀ n s batch).filter (fun q => !isLinked q) =
      let toCreate := (batch.map fun ev => (ev, T.existingInBatch settings s₀ ev.finding)).filterMap
        fun p => if p.2.isNone then some p.1 else none
      answered toCreate (T.createAll s (toCreate.take n)) createOutcome .batchCreateUnanswered := by
  induction batch generalizing n s with
  | nil => rfl
  | cons ev rest ih =>
    rw [List.map_cons, List.filterMap_cons]
    cases hex : T.existingInBatch settings s₀ ev.finding with
    | some i =>
      rw [batchOutcomes_of_some hex, List.filter_cons_of_neg (by simp [isLinked]), ih]
      rfl
    | none =>
      cases n with
      | zero =>
        rw [batchOutcomes_zero hex, List.filter_cons_of_pos rfl, ih]
        rfl
      | succ n =>
        rw [Option.isNone_none, if_pos rfl]
        dsimp only
        rw [List.take_succ_cons, createAll]
        cases hcreate : T.create s ev with
        | ok r =>
          rw [batchOutcomes_created hex hcreate, List.filter_cons_of_pos rfl, ih,
            answered_cons_cons]
          rfl
        | error e =>
          rw [batchOutcomes_failed hex hcreate, List.filter_cons_of_pos rfl, ih,
            answered_cons_cons]
          rfl

/-- The batch writes for the events that it links, then for the others. -/
theorem inBatch_eq {batch : List SyncEvent} (hbatch : ∀ ev ∈ batch, IsCreate key ev) (s : σ) :
    T.inBatch key settings s batch =
      .ok ((T.batchOutcomes settings s T.batchSize s batch).filter isLinked ++
        (T.batchOutcomes settings s T.batchSize s batch).filter fun q => !isLinked q) := by
  have hclassified : batch.mapM (classify (T.env key settings s) (T.adapter s)) =
      .ok (batch.map fun ev => (ev, T.existingInBatch settings s ev.finding)) := by
    rw [mapM_eq_ok_iff, List.forall₂_map_right_iff, List.forall₂_same]
    exact fun ev hev => classify_eq (hbatch ev hev) s
  rw [inBatch, createBatchOutcomes, hclassified, ok_bind, filter_isLinked, filter_not_isLinked]
  dsimp only
  split_ifs with hnil
  · rw [hnil, answered_nil, List.append_nil]
    rfl
  · rfl

/-! ### Event by event -/

variable (T settings) in
/-- For each event in turn, the single path in the state that the earlier creates led to finds what
the batch found before any of them; a create fits into the batch, and none is refused at a last
attempt. -/
def Agrees (s₀ : σ) : ℕ → σ → List SyncEvent → Prop
  | _, _, [] => True
  | n, s, ev :: rest =>
    T.existing settings s ev.finding = T.existingInBatch settings s₀ ev.finding ∧
      match T.existingInBatch settings s₀ ev.finding, n, T.create s ev with
      | some _, n, _ => Agrees s₀ n s rest
      | none, 0, _ => False
      | none, n + 1, .ok (_, s') => Agrees s₀ n s' rest
      | none, n + 1, .error _ => ¬ ev.lastAttempt ∧ Agrees s₀ n s rest

/-- Two outcomes link an event to the same issue and leave it in the same status. -/
structure SameFor (ev : SyncEvent) (o o' : Outcome) : Prop where
  issue : o.issue = o'.issue
  status : ∀ now, (ev.settled now o).status = (ev.settled now o').status

/-- Two lists of outcomes that are the same, event by event. -/
def SameEach : List (SyncEvent × Outcome) → List (SyncEvent × Outcome) → Prop :=
  List.Forall₂ fun q q' => q.1 = q'.1 ∧ SameFor q.1 q.2 q'.2

theorem status_settled_failed (ev : SyncEvent) (now : Instant) (e : SyncError) :
    (ev.settled now (.failed e)).status = if ev.lastAttempt then .failed else .pending := by
  rw [SyncEvent.settled]
  split_ifs <;> rfl

theorem existing_mem {s : σ} {f : FindingDict} {i : Str}
    (h : T.existing settings s f = some i) : i ∈ T.issues s := by
  rw [existing] at h
  split_ifs at h
  · rcases Option.or_eq_some_iff.mp h with h | ⟨-, h⟩
    · obtain ⟨k, -, hk⟩ := Option.bind_eq_some_iff.mp h
      exact T.mem_of_findGroupKey hk
    · rcases Option.or_eq_some_iff.mp h with h | ⟨-, h⟩
      · obtain ⟨k, -, hk⟩ := Option.bind_eq_some_iff.mp h
        exact T.mem_of_findCve hk
      · obtain ⟨k, -, hk⟩ := Option.bind_eq_some_iff.mp h
        exact T.mem_of_findTitle hk
  · rcases Option.or_eq_some_iff.mp h with h | ⟨-, h⟩
    · obtain ⟨k, -, hk⟩ := Option.bind_eq_some_iff.mp h
      exact T.mem_of_findGroupKey hk
    · rw [Option.or_none] at h
      obtain ⟨k, -, hk⟩ := Option.bind_eq_some_iff.mp h
      exact T.mem_of_findCve hk

/-- An event that the batch links is the same for both paths when the single path finds the issue
that the batch found. -/
theorem sameFor_linked_iff {ev : SyncEvent} (hev : IsCreate key ev) {s : σ} {i : Str}
    (hi : i ∈ T.issues s) :
    SameFor ev (.batchLinked i) (singleOutcome (T.env key settings s) ev) ↔
      T.existing settings s ev.finding = some i := by
  rw [singleOutcome_eq hev]
  cases hex : T.existing settings s ev.finding with
  | some j =>
    constructor
    · intro h
      exact h.issue.symm
    · intro h
      cases h
      exact ⟨rfl, fun _ => rfl⟩
  | none =>
    refine iff_of_false (fun h => ?_) (by simp)
    cases hcreate : T.create s ev with
    | ok r =>
      obtain ⟨⟨j, u⟩, s'⟩ := r
      rw [hcreate] at h
      have hij : i = j := Option.some.inj h.issue
      exact (T.issues_create hcreate).1 (hij ▸ hi)
    | error e =>
      rw [hcreate] at h
      cases h.issue

/-- An event that the batch creates is the same for both paths when the single path finds
nothing. -/
theorem sameFor_created_iff {ev : SyncEvent} (hev : IsCreate key ev) {s s' : σ} {i : Str}
    {u : Option Str} (hcreate : T.create s ev = .ok ((i, u), s')) :
    SameFor ev (.batchCreated i u) (singleOutcome (T.env key settings s) ev) ↔
      T.existing settings s ev.finding = none := by
  rw [singleOutcome_eq hev, hcreate]
  cases hex : T.existing settings s ev.finding with
  | some j =>
    refine iff_of_false (fun h => ?_) (by simp)
    have hij : i = j := Option.some.inj h.issue
    exact (T.issues_create hcreate).1 (hij ▸ existing_mem hex)
  | none => exact iff_of_true ⟨rfl, fun _ => rfl⟩ rfl

/-- An event whose create is refused is the same for both paths when the single path finds nothing
and does not give up. -/
theorem sameFor_refused_iff {ev : SyncEvent} (hev : IsCreate key ev) {s : σ} {e : SyncError}
    (hcreate : T.create s ev = .error e) :
    SameFor ev (.batchCreateFailed e) (singleOutcome (T.env key settings s) ev) ↔
      T.existing settings s ev.finding = none ∧ ¬ ev.lastAttempt := by
  rw [singleOutcome_eq hev, hcreate]
  cases hex : T.existing settings s ev.finding with
  | some j => exact iff_of_false (fun h => (by cases h.issue)) fun h => (by cases h.1)
  | none =>
    rw [and_iff_right rfl]
    constructor
    · intro h hlast
      have hstatus := h.status 0
      rw [status_settled_failed, if_pos hlast] at hstatus
      cases hstatus
    · intro hlast
      refine ⟨rfl, fun now => ?_⟩
      rw [status_settled_failed, if_neg hlast]
      rfl

/-- An event that the batch leaves unanswered is not the same for both paths. -/
theorem not_sameFor_unanswered {ev : SyncEvent} (hev : IsCreate key ev) (s : σ) :
    ¬ SameFor ev .batchCreateUnanswered (singleOutcome (T.env key settings s) ev) := by
  intro h
  have hstatus := h.status 0
  rw [singleOutcome_eq hev] at hstatus
  cases hex : T.existing settings s ev.finding with
  | some j =>
    rw [hex] at hstatus
    cases hstatus
  | none =>
    rw [hex] at hstatus
    cases hcreate : T.create s ev with
    | ok r =>
      rw [hcreate] at hstatus
      cases hstatus
    | error e =>
      rw [hcreate] at hstatus
      simp only [status_settled_failed] at hstatus
      split_ifs at hstatus <;> cases hstatus

theorem after_of_none {s : σ} {ev : SyncEvent} {o : Outcome} (h : o.createdIssue = none) :
    T.after s (ev, o) = s := by
  simp only [after, h]

theorem after_of_created {s s' : σ} {ev : SyncEvent} {o : Outcome} {r : Str × Option Str}
    (h : o.createdIssue.isSome) (hcreate : T.create s ev = .ok (r, s')) :
    T.after s (ev, o) = s' := by
  obtain ⟨i, hi⟩ := Option.isSome_iff_exists.mp h
  simp only [after, hi, hcreate]

theorem oneAtATime_cons (s : σ) (ev : SyncEvent) (rest : List SyncEvent) :
    T.oneAtATime key settings s (ev :: rest) =
      (ev, singleOutcome (T.env key settings s) ev) ::
        T.oneAtATime key settings
          (T.after s (ev, singleOutcome (T.env key settings s) ev)) rest := rfl

theorem map_fst_oneAtATime (s : σ) (batch : List SyncEvent) :
    (T.oneAtATime key settings s batch).map Prod.fst = batch := by
  induction batch generalizing s with
  | nil => rfl
  | cons ev rest ih => rw [oneAtATime_cons, List.map_cons, ih]

/-- The two paths are the same for each event exactly if they agree. -/
theorem sameEach_iff {s₀ : σ} {batch : List SyncEvent} (hbatch : ∀ ev ∈ batch, IsCreate key ev)
    {n : ℕ} {s : σ} (hsub : T.issues s₀ ⊆ T.issues s) :
    SameEach (T.batchOutcomes settings s₀ n s batch) (T.oneAtATime key settings s batch) ↔
      T.Agrees settings s₀ n s batch := by
  induction batch generalizing n s with
  | nil => exact iff_of_true List.Forall₂.nil trivial
  | cons ev rest ih =>
    rw [List.forall_mem_cons] at hbatch
    obtain ⟨hev, hrest⟩ := hbatch
    rw [oneAtATime_cons, Agrees.eq_def]
    dsimp only
    cases hex : T.existingInBatch settings s₀ ev.finding with
    | some i =>
      rw [batchOutcomes_of_some hex, SameEach, List.forall₂_cons, and_iff_right rfl,
        sameFor_linked_iff hev (hsub (existingInBatch_mem hex))]
      refine and_congr_right fun hsingle => ?_
      have hafter : T.after s (ev, singleOutcome (T.env key settings s) ev) = s :=
        after_of_none (by rw [singleOutcome_eq hev, hsingle]; rfl)
      rw [hafter]
      exact ih hrest hsub
    | none =>
      cases n with
      | zero =>
        rw [batchOutcomes_zero hex, SameEach, List.forall₂_cons]
        exact iff_of_false (fun h => not_sameFor_unanswered hev s h.1.2) fun h => h.2
      | succ n =>
        cases hcreate : T.create s ev with
        | ok r =>
          obtain ⟨⟨i, u⟩, s'⟩ := r
          rw [batchOutcomes_created hex hcreate, SameEach, List.forall₂_cons, and_iff_right rfl,
            sameFor_created_iff hev hcreate]
          refine and_congr_right fun hsingle => ?_
          have hafter : T.after s (ev, singleOutcome (T.env key settings s) ev) = s' :=
            after_of_created (by rw [singleOutcome_eq hev, hsingle, hcreate]; rfl) hcreate
          rw [hafter]
          refine ih hrest (List.Subset.trans hsub ?_)
          rw [(T.issues_create hcreate).2]
          exact List.subset_append_left _ _
        | error e =>
          rw [batchOutcomes_failed hex hcreate, SameEach, List.forall₂_cons, and_iff_right rfl,
            sameFor_refused_iff hev hcreate, and_assoc]
          refine and_congr_right fun hsingle => and_congr_right fun _ => ?_
          have hafter : T.after s (ev, singleOutcome (T.env key settings s) ev) = s :=
            after_of_none (by rw [singleOutcome_eq hev, hsingle, hcreate]; rfl)
          rw [hafter]
          exact ih hrest hsub

theorem after_of_isLinked (s : σ) {q : SyncEvent × Outcome} (h : isLinked q) : T.after s q = s := by
  obtain ⟨ev, o⟩ := q
  refine after_of_none ?_
  match o, h with
  | .batchLinked _, _ => rfl

/-- The events that the batch links leave the tracker as it is, so their place does not matter. -/
theorem afterAll_filter (s : σ) (os : List (SyncEvent × Outcome)) :
    T.afterAll s (os.filter isLinked ++ os.filter fun q => !isLinked q) = T.afterAll s os := by
  have hlinked : T.afterAll s (os.filter isLinked) = s := by
    induction os with
    | nil => rfl
    | cons q os ih =>
      by_cases h : isLinked q = true
      · rw [List.filter_cons_of_pos h, afterAll, List.foldl_cons, after_of_isLinked s h]
        exact ih
      · rw [List.filter_cons_of_neg h, ih]
  rw [afterAll, List.foldl_append, show List.foldl T.after s (os.filter isLinked) = s from hlinked]
  clear hlinked
  change T.afterAll s _ = _
  induction os generalizing s with
  | nil => rfl
  | cons q os ih =>
    by_cases h : isLinked q = true
    · rw [List.filter_cons_of_neg (by simp [h]), ih, afterAll, afterAll, List.foldl_cons,
        after_of_isLinked s h]
    · rw [List.filter_cons_of_pos (by simp [h]), afterAll, List.foldl_cons]
      exact ih _

/-- The first event of paths that agree: both create an issue for it, or none does. -/
theorem Agrees.exists_step {s₀ : σ} {ev : SyncEvent} {rest : List SyncEvent}
    (hev : IsCreate key ev) {n : ℕ} {s : σ} (h : T.Agrees settings s₀ n s (ev :: rest)) :
    ∃ o n' s', T.batchOutcomes settings s₀ n s (ev :: rest) =
        (ev, o) :: T.batchOutcomes settings s₀ n' s' rest ∧
      T.after s (ev, o) = s' ∧ T.after s (ev, singleOutcome (T.env key settings s) ev) = s' ∧
      (o.createdIssue.isSome → T.existing settings s ev.finding = none ∧
        ∃ r, T.create s ev = .ok (r, s')) ∧
      (o.createdIssue = none → s' = s) ∧
      (o.issue = (singleOutcome (T.env key settings s) ev).issue ∧
        o.createdIssue = (singleOutcome (T.env key settings s) ev).createdIssue) ∧
      T.Agrees settings s₀ n' s' rest := by
  rw [Agrees.eq_def] at h
  obtain ⟨hsingle, h⟩ := h
  cases hex : T.existingInBatch settings s₀ ev.finding with
  | some i =>
    rw [hex] at h hsingle
    have houtcome : singleOutcome (T.env key settings s) ev = .sent (.linked i) := by
      rw [singleOutcome_eq hev, hsingle]
    rw [houtcome]
    exact ⟨_, _, _, batchOutcomes_of_some hex n s rest, after_of_none rfl, after_of_none rfl,
      fun h => (by cases h), fun _ => rfl, ⟨rfl, rfl⟩, h⟩
  | none =>
    rw [hex] at h hsingle
    cases n with
    | zero => exact h.elim
    | succ n =>
      cases hcreate : T.create s ev with
      | ok r =>
        obtain ⟨⟨i, u⟩, s'⟩ := r
        rw [hcreate] at h
        have houtcome : singleOutcome (T.env key settings s) ev = .sent (.created i u) := by
          rw [singleOutcome_eq hev, hsingle, hcreate]
        rw [houtcome]
        exact ⟨_, _, _, batchOutcomes_created hex hcreate n rest, after_of_created rfl hcreate,
          after_of_created rfl hcreate, fun _ => ⟨hsingle, _, rfl⟩, fun h => (by cases h),
          ⟨rfl, rfl⟩, h⟩
      | error e =>
        rw [hcreate] at h
        have houtcome : singleOutcome (T.env key settings s) ev = .failed e := by
          rw [singleOutcome_eq hev, hsingle, hcreate]
        rw [houtcome]
        exact ⟨_, _, _, batchOutcomes_failed hex hcreate n rest, after_of_none rfl,
          after_of_none rfl, fun h => (by cases h), fun _ => rfl, ⟨rfl, rfl⟩, h.2⟩

/-- Paths that agree leave the tracker in the same state. -/
theorem afterAll_eq_of_agrees {s₀ : σ} {batch : List SyncEvent}
    (hbatch : ∀ ev ∈ batch, IsCreate key ev) {n : ℕ} {s : σ} (h : T.Agrees settings s₀ n s batch) :
    T.afterAll s (T.batchOutcomes settings s₀ n s batch) =
      T.afterAll s (T.oneAtATime key settings s batch) := by
  induction batch generalizing n s with
  | nil => rfl
  | cons ev rest ih =>
    rw [List.forall_mem_cons] at hbatch
    obtain ⟨o, n', s', hcons, hafter, hafter', -, -, -, hrest⟩ := h.exists_step hbatch.1
    rw [hcons, oneAtATime_cons, hafter', afterAll, afterAll, List.foldl_cons, List.foldl_cons, hafter,
      hafter']
    exact ih hbatch.2 hrest

/-- Once an issue can be found for a group key, no path that agrees creates another one for it. -/
theorem createdIssue_of_found {s₀ : σ} {batch : List SyncEvent}
    (hbatch : ∀ ev ∈ batch, IsCreate key ev) (hpush : settings.pushGroups) {k : Str} (hk : k ≠ [])
    {n : ℕ} {s : σ} (h : T.Agrees settings s₀ n s batch) (hfound : (T.findGroupKey s k).isSome)
    {q : SyncEvent × Outcome} (hq : q ∈ T.batchOutcomes settings s₀ n s batch)
    (hgroup : q.1.finding.groupKey = some k) : q.2.createdIssue = none := by
  induction batch generalizing n s with
  | nil => cases hq
  | cons ev rest ih =>
    rw [List.forall_mem_cons] at hbatch
    obtain ⟨o, n', s', hcons, -, -, hcreated, hkept, -, hrest⟩ := h.exists_step hbatch.1
    rw [hcons] at hq
    rcases List.mem_cons.mp hq with rfl | hq
    · rw [← Option.not_isSome_iff_eq_none]
      intro hsome
      have hnone := (hcreated hsome).1
      obtain ⟨i, hi⟩ := Option.isSome_iff_exists.mp hfound
      rw [existing, if_pos hpush, hgroup, Option.filter_some_pos (by simpa using hk),
        Option.bind_some, hi, Option.some_or] at hnone
      cases hnone
    · refine ih hbatch.2 hrest ?_ hq
      cases ho : o.createdIssue with
      | none => rwa [hkept ho]
      | some i =>
        obtain ⟨-, r, hcreate⟩ := hcreated (by rw [ho]; rfl)
        exact T.findGroupKey_create hcreate hk (Or.inr hfound)

/-- Paths that agree create at most one issue for a group key. -/
theorem eq_of_created {s₀ : σ} {batch : List SyncEvent} (hbatch : ∀ ev ∈ batch, IsCreate key ev)
    (hpush : settings.pushGroups) {k : Str} (hk : k ≠ []) {n : ℕ} {s : σ}
    (h : T.Agrees settings s₀ n s batch) {q q' : SyncEvent × Outcome}
    (hq : q ∈ T.batchOutcomes settings s₀ n s batch)
    (hq' : q' ∈ T.batchOutcomes settings s₀ n s batch)
    (hgroup : q.1.finding.groupKey = some k) (hgroup' : q'.1.finding.groupKey = some k)
    (hcreated : q.2.createdIssue.isSome) (hcreated' : q'.2.createdIssue.isSome) : q = q' := by
  induction batch generalizing n s with
  | nil => cases hq
  | cons ev rest ih =>
    rw [List.forall_mem_cons] at hbatch
    obtain ⟨o, n', s', hcons, -, -, hcreate, -, -, hrest⟩ := h.exists_step hbatch.1
    rw [hcons] at hq hq'
    have hnew (hcreated : o.createdIssue.isSome) (hgroup : ev.finding.groupKey = some k) :
        (T.findGroupKey s' k).isSome := by
      obtain ⟨-, r, hr⟩ := hcreate hcreated
      exact T.findGroupKey_create hr hk (Or.inl hgroup)
    rcases List.mem_cons.mp hq with rfl | hq <;> rcases List.mem_cons.mp hq' with rfl | hq'
    · rfl
    · have hnone := createdIssue_of_found hbatch.2 hpush hk hrest (hnew hcreated hgroup) hq' hgroup'
      rw [hnone] at hcreated'
      cases hcreated'
    · have hnone := createdIssue_of_found hbatch.2 hpush hk hrest (hnew hcreated' hgroup') hq hgroup
      rw [hnone] at hcreated
      cases hcreated
    · exact ih hbatch.2 hrest hq hq'

/-! ### The links in the end -/

/-- The last issue that events create for a finding. -/
def lastCreated (findingId : Str) (os : List (SyncEvent × Outcome)) : Option Str :=
  (os.filterMap fun q =>
    if q.1.findingId = findingId then q.2.createdIssue else none).getLast?

/-- A finding for which an issue was created ends with a link to the last one. -/
def NewLinksLast (key : Str) (os : List (SyncEvent × Outcome)) : Prop :=
  ∀ findingId issueId, lastCreated findingId os = some issueId →
    lastLink findingId key os = some issueId

theorem lastLink_eq_of_forall₂ {os os' : List (SyncEvent × Outcome)}
    (h : List.Forall₂ (fun q q' => q.1 = q'.1 ∧ q.2.issue = q'.2.issue) os os') (findingId k : Str) :
    lastLink findingId k os = lastLink findingId k os' := by
  induction h with
  | nil => rfl
  | cons hq _ ih => rw [lastLink_cons, lastLink_cons, ih, linkOf, linkOf, hq.1, hq.2]

theorem lastCreated_eq_of_forall₂ {os os' : List (SyncEvent × Outcome)}
    (h : List.Forall₂ (fun q q' => q.1 = q'.1 ∧ q.2.createdIssue = q'.2.createdIssue) os os')
    (findingId : Str) : lastCreated findingId os = lastCreated findingId os' := by
  rw [lastCreated, lastCreated]
  congr 1
  induction h with
  | nil => rfl
  | cons hq _ ih => rw [List.filterMap_cons, List.filterMap_cons, ih, hq.1, hq.2]

/-- Paths that agree link and create alike. -/
theorem forall₂_of_agrees {s₀ : σ} {batch : List SyncEvent}
    (hbatch : ∀ ev ∈ batch, IsCreate key ev) {n : ℕ} {s : σ} (h : T.Agrees settings s₀ n s batch) :
    List.Forall₂ (fun q q' => q.1 = q'.1 ∧ q.2.issue = q'.2.issue ∧
        q.2.createdIssue = q'.2.createdIssue)
      (T.batchOutcomes settings s₀ n s batch) (T.oneAtATime key settings s batch) := by
  induction batch generalizing n s with
  | nil => exact List.Forall₂.nil
  | cons ev rest ih =>
    rw [List.forall_mem_cons] at hbatch
    obtain ⟨o, n', s', hcons, -, hafter, -, -, hsame, hrest⟩ := h.exists_step hbatch.1
    rw [hcons, oneAtATime_cons, hafter]
    exact List.Forall₂.cons ⟨rfl, hsame⟩ (ih hbatch.2 hrest)

/-- The batch links to existing issues and to new ones. -/
theorem issue_eq_createdIssue {s₀ s : σ} {n : ℕ} {batch : List SyncEvent} :
    ∀ q ∈ T.batchOutcomes settings s₀ n s batch,
      isLinked q = false → q.2.issue = q.2.createdIssue := by
  induction batch generalizing n s with
  | nil => simp [batchOutcomes]
  | cons ev rest ih =>
    cases hex : T.existingInBatch settings s₀ ev.finding with
    | some i =>
      rw [batchOutcomes_of_some hex, List.forall_mem_cons]
      exact ⟨fun h => (by cases h), ih⟩
    | none =>
      cases n with
      | zero =>
        rw [batchOutcomes_zero hex, List.forall_mem_cons]
        exact ⟨fun _ => rfl, ih⟩
      | succ n =>
        cases hcreate : T.create s ev with
        | ok r =>
          rw [batchOutcomes_created hex hcreate, List.forall_mem_cons]
          exact ⟨fun _ => rfl, ih⟩
        | error e =>
          rw [batchOutcomes_failed hex hcreate, List.forall_mem_cons]
          exact ⟨fun _ => rfl, ih⟩

theorem createdIssue_of_isLinked {q : SyncEvent × Outcome} (h : isLinked q) :
    q.2.createdIssue = none := by
  obtain ⟨ev, o⟩ := q
  match o, h with
  | .batchLinked _, _ => rfl

section FinalLinks

variable {os : List (SyncEvent × Outcome)} (hkey : ∀ q ∈ os, q.1.key = key)
  (hissue : ∀ q ∈ os, isLinked q = false → q.2.issue = q.2.createdIssue)

include hkey hissue in
/-- The links that the batch writes last are the ones to new issues. -/
theorem lastLink_not_isLinked (findingId : Str) :
    lastLink findingId key (os.filter fun q => !isLinked q) = lastCreated findingId os := by
  rw [lastLink, lastCreated, List.filterMap_filter]
  congr 1
  refine List.filterMap_congr fun q hq => ?_
  cases hlinked : isLinked q with
  | true => simp [createdIssue_of_isLinked hlinked]
  | false => simp [linkOf, hkey q hq, hissue q hq hlinked]

include hissue in
/-- A finding without a new issue has the link that comes last. -/
theorem lastLink_isLinked {findingId : Str} (h : lastCreated findingId os = none) :
    lastLink findingId key (os.filter isLinked) = lastLink findingId key os := by
  rw [lastCreated, List.getLast?_eq_none_iff, List.filterMap_eq_nil_iff] at h
  rw [lastLink, lastLink, List.filterMap_filter]
  congr 1
  refine List.filterMap_congr fun q hq => ?_
  cases hlinked : isLinked q with
  | true => rfl
  | false =>
    have hnone := h q hq
    have hlink : linkOf findingId key q = none := by
      rw [linkOf, hissue q hq hlinked]
      split_ifs with hid
      · rwa [if_pos hid.1] at hnone
      · rfl
    rw [hlink]
    rfl

theorem lastLink_of_ne (hkey : ∀ q ∈ os, q.1.key = key) (findingId : Str) {k : Str} (hk : k ≠ key) :
    lastLink findingId k os = none := by
  rw [lastLink, List.getLast?_eq_none_iff, List.filterMap_eq_nil_iff]
  intro q hq
  rw [linkOf, if_neg]
  rintro ⟨-, h⟩
  exact hk (h.symm.trans (hkey q hq))

include hkey hissue in
/-- The links in the end are the same as in the order of the events exactly if the new ones come
last. -/
theorem lastLink_filter_iff :
    (∀ findingId k, lastLink findingId k (os.filter isLinked ++ os.filter fun q => !isLinked q) =
      lastLink findingId k os) ↔ NewLinksLast key os := by
  have hfilter (findingId : Str) :
      lastLink findingId key (os.filter isLinked ++ os.filter fun q => !isLinked q) =
        (lastCreated findingId os).or (lastLink findingId key (os.filter isLinked)) := by
    rw [lastLink_append, lastLink_not_isLinked hkey hissue]
  constructor
  · intro h findingId issueId hcreated
    rw [← h, hfilter, hcreated, Option.some_or]
  · intro h findingId k
    by_cases hk : k = key
    · subst hk
      rw [hfilter]
      cases hcreated : lastCreated findingId os with
      | none => rw [Option.none_or, lastLink_isLinked hissue hcreated]
      | some issueId => rw [Option.some_or, h findingId issueId hcreated]
    · rw [lastLink_of_ne hkey findingId hk, lastLink_of_ne _ findingId hk]
      intro q hq
      rcases List.mem_append.mp hq with hq | hq <;> exact hkey q (List.mem_filter.mp hq).1

end FinalLinks

/-! ### The two paths -/

variable (T settings) in
/-- Two lists of outcomes that come to the same: the same issues, for each event the same link and
status, the same links in the end, and not two new issues for a group key. -/
structure SameResult (s : σ) (os os' : List (SyncEvent × Outcome)) : Prop where
  issues : T.issues (T.afterAll s os) = T.issues (T.afterAll s os')
  each : ∀ ev o o', (ev, o) ∈ os → (ev, o') ∈ os' → SameFor ev o o'
  finalLinks : ∀ findingId k, lastLink findingId k os = lastLink findingId k os'
  onePerKey : settings.pushGroups → ∀ k, k ≠ [] → ∀ q ∈ os, ∀ q' ∈ os,
    q.1.finding.groupKey = some k → q'.1.finding.groupKey = some k →
      q.2.createdIssue.isSome → q'.2.createdIssue.isSome → q = q'

/-- For lists of outcomes of the same events, each once, the pairs of outcomes of one event are the
ones at the same place. -/
theorem sameEach_iff_forall {os os' : List (SyncEvent × Outcome)}
    (hfst : os.map Prod.fst = os'.map Prod.fst) (hnodup : (os.map Prod.fst).Nodup) :
    SameEach os os' ↔ ∀ ev o o', (ev, o) ∈ os → (ev, o') ∈ os' → SameFor ev o o' := by
  induction os generalizing os' with
  | nil =>
    rw [List.map_nil, eq_comm, List.map_eq_nil_iff] at hfst
    rw [hfst]
    exact iff_of_true List.Forall₂.nil fun _ _ _ h => (by cases h)
  | cons q os ih =>
    obtain ⟨ev, o⟩ := q
    cases os' with
    | nil => cases hfst
    | cons q' os' =>
      obtain ⟨ev', o'⟩ := q'
      rw [List.map_cons, List.map_cons, List.cons.injEq] at hfst
      obtain ⟨rfl, hrest⟩ : ev = ev' ∧ _ := hfst
      rw [List.map_cons, List.nodup_cons] at hnodup
      rw [SameEach, List.forall₂_cons, and_iff_right rfl]
      refine (and_congr_right fun _ => ih hrest hnodup.2).trans ?_
      constructor
      · rintro ⟨hhead, htail⟩ ev'' o₁ o₂ h₁ h₂
        rcases List.mem_cons.mp h₁ with heq₁ | h₁ <;> rcases List.mem_cons.mp h₂ with heq₂ | h₂
        · cases heq₁
          cases heq₂
          exact hhead
        · cases heq₁
          have hmem : ev ∈ os'.map Prod.fst := List.mem_map_of_mem h₂
          exact absurd (hrest ▸ hmem) hnodup.1
        · cases heq₂
          have hmem : ev ∈ os.map Prod.fst := List.mem_map_of_mem h₁
          exact absurd hmem hnodup.1
        · exact htail ev'' o₁ o₂ h₁ h₂
      · intro h
        refine ⟨h ev o o' List.mem_cons_self List.mem_cons_self, fun ev'' o₁ o₂ h₁ h₂ => ?_⟩
        exact h ev'' o₁ o₂ (List.mem_cons_of_mem _ h₁) (List.mem_cons_of_mem _ h₂)

theorem mem_filter_append {os : List (SyncEvent × Outcome)} {q : SyncEvent × Outcome} :
    q ∈ os.filter isLinked ++ os.filter (fun q => !isLinked q) ↔ q ∈ os := by
  rw [List.mem_append, List.mem_filter, List.mem_filter, ← and_or_left]
  cases isLinked q <;> simp

end Tracker

/-! ### Two events of one group -/

/-- The id of the issue with a number. -/
def issueNumber (n : ℕ) : Str := List.replicate (n + 1) 'I'

/-- A lookup of the first issue for which a property holds. -/
def findIssue (p : FindingDict → Bool) (board : List FindingDict) : Option Str :=
  (board.findIdx? p).map issueNumber

theorem mem_of_findIssue {p : FindingDict → Bool} {board : List FindingDict} {i : Str}
    (h : findIssue p board = some i) : i ∈ (List.range board.length).map issueNumber := by
  obtain ⟨n, hn, rfl⟩ := Option.map_eq_some_iff.mp h
  obtain ⟨hlt, -⟩ := List.findIdx?_eq_some_iff_getElem.mp hn
  exact List.mem_map_of_mem (List.mem_range.mpr hlt)

/-- A board that numbers its issues. -/
def numberedBoard : Tracker (List FindingDict) where
  issues := fun board => (List.range board.length).map issueNumber
  findGroupKey := fun board k => findIssue (fun f => f.groupKey = some k) board
  findCve := fun board k => findIssue (fun f => f.cve = some k) board
  findTitle := fun board k => findIssue (fun f => f.title = some k) board
  create := fun board ev => .ok ((issueNumber board.length, none), board ++ [ev.finding])
  batchSize := 15
  supportsUpdateIssue := true
  ne_nil := fun h => by
    obtain ⟨n, -, rfl⟩ := List.mem_map.mp h
    exact List.cons_ne_nil _ _
  mem_of_findGroupKey := mem_of_findIssue
  mem_of_findCve := mem_of_findIssue
  mem_of_findTitle := mem_of_findIssue
  issues_create := fun h => by
    cases h
    refine ⟨fun hmem => ?_, ?_⟩
    · obtain ⟨n, hn, heq⟩ := List.mem_map.mp hmem
      have hlen := congrArg List.length heq
      simp only [issueNumber, List.length_replicate] at hlen
      have := List.mem_range.mp hn
      omega
    · rw [List.length_append, List.length_singleton, List.range_succ, List.map_append,
        List.map_singleton]
  findGroupKey_create := fun h _ hfound => by
    cases h
    simp only [findIssue, Option.isSome_map, List.findIdx?_isSome, List.any_append, List.any_cons,
      List.any_nil, Bool.or_false, Bool.or_eq_true, decide_eq_true_eq] at hfound ⊢
    exact hfound.symm

/-- The request to create an issue for a finding of a group. -/
def groupEvent (id : String) (group : String) : SyncEvent where
  id := str id
  findingId := str id
  target := .tracker
  targetKey := some (str "linear")
  eventType := .createIssue
  payload := .createIssue ⟨none, none, none, some (str group), none⟩
  status := .pending
  attempts := 0
  maxAttempts := 5
  lastError := none
  nextRetryAt := none
  completedAt := none
  createdAt := 1
  updatedAt := 1

theorem isCreate_groupEvent (id group : String) :
    Tracker.IsCreate (str "linear") (groupEvent id group) :=
  ⟨by decide, rfl, rfl, rfl, rfl⟩

/-- A board with an issue for the group `G1`. -/
def boardOfG1 : List FindingDict := [(groupEvent "E0" "G1").finding]

/-- Groups are pushed, and titles are not looked up. -/
def grouped : PushSettings := ⟨true, false⟩

/-- An event of a group that has an issue, and one of a group that has none. -/
def twoGroups : List SyncEvent := [groupEvent "E1" "G1", groupEvent "E2" "G2"]

/-- Two events of one group. -/
def oneGroup : List SyncEvent := [groupEvent "E1" "G1", groupEvent "E2" "G1"]

end Vat
