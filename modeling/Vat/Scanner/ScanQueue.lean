import Mathlib.Algebra.Group.Nat.Defs
import Mathlib.Logic.Function.Basic
import Vat.Python.Text
import Vat.Transition.Run
import Vat.Versioned.Store

/-!
# Workers on a queue of scan requests

Workers drain the queue: each lists all requests, and takes the pending ones in turn. It claims one
by writing its status with the version that it has listed, scans the image, and reports by writing
the status with the version of its claim. Whatever the order of steps, with calls lost and workers
ended at any point, claims are exclusive, each failing report counts one attempt, and a request that
is done or failed is not claimed again (`claims_exclusive_and_counted`).

Source: `vat-local-scanner/vat_scanner/cli.py`, lines 2786–2796 and 2907–2992;
`vat-local-scanner/vat_scanner/scanrequests.py`, lines 59–86;
`operator/internal/scanrequest/client.go`, lines 53–120.

## Main definitions

* `ScanQueue.Status`, `ScanQueue.Worker`, `ScanQueue.State`, `ScanQueue.Op`, `ScanQueue.step`.
* `ScanQueue.Sound`: the invariant of the store, the log of accepted writes and the workers.

## Main results

* `ScanQueue.Sound.step`, `ScanQueue.sound_run`: every run keeps it.
* `ScanQueue.claims_exclusive_and_counted`.
-/

namespace Vat.ScanQueue

open Transition Versioned

/-! ### Requests -/

/-- The phase of a request; one without status is pending. -/
inductive Phase
  | pending | scanning | done | failed
  deriving DecidableEq

structure Status where
  phase : Phase
  attempts : ℕ
  startedAt : Option ℕ
  finishedAt : Option ℕ
  lastError : Str

/-- The status of a request that was just created. -/
def newStatus : Status := ⟨.pending, 0, none, none, []⟩

/-- A `ScanRequest`. -/
abbrev Request := Object Str Status

/-- `_backoff_ready`, in seconds. -/
def backoffReady (status : Status) (now : ℕ) : Bool :=
  if status.attempts = 0 then true
  else
    match status.finishedAt with
    | none => true
    | some ts => ts + 30 * 2 ^ (status.attempts - 1) ≤ now

/-- Whether `cmd_scan_queue` claims an item of its list. -/
def claimable (status : Status) (now : ℕ) : Bool :=
  status.phase = .pending && backoffReady status now

theorem phase_of_claimable {status : Status} {now : ℕ} (h : claimable status now = true) :
    status.phase = .pending := by
  simp only [claimable, Bool.and_eq_true, decide_eq_true_eq] at h
  exact h.1

/-- What a claim writes. -/
def claimedStatus (status : Status) (time : ℕ) : Status :=
  { status with phase := .scanning, startedAt := some time }

/-- What a report writes. -/
def resultStatus (maxAttempts : ℤ) (status : Status) (prevAttempts : ℕ) (ok : Bool) (time : ℕ) :
    Status :=
  if ok then { status with phase := .done, finishedAt := some time, lastError := [] }
  else
    { status with
      phase := if maxAttempts ≤ (prevAttempts + 1 : ℕ) then .failed else .pending
      attempts := prevAttempts + 1
      finishedAt := some time
      lastError := str "scan or ingest failed; see worker logs" }

/-! ### Workers -/

/-- A worker, between its turns: idle, with the rest of the list that it made at a time, or with a
request that it has claimed. -/
inductive Worker
  | idle
  | draining (now : ℕ) (todo : List Request)
  | scanning (now : ℕ) (todo : List Request) (obj : Request) (prevAttempts : ℕ)

/-- The requests of its list that a worker has still to look at. -/
def Worker.todo : Worker → List Request
  | .idle => []
  | .draining _ todo | .scanning _ todo _ _ => todo

/-- The request that a worker has claimed, with the attempts that it had. -/
def Worker.claim : Worker → Option (Request × ℕ)
  | .idle | .draining _ _ => none
  | .scanning _ _ obj prevAttempts => some (obj, prevAttempts)

/-- A write that the API server accepted: a claim, or a report with its phase. -/
inductive Event
  | claimed (uid : ℕ)
  | reported (uid : ℕ) (phase : Phase)
  deriving DecidableEq

/-- The queue, the workers, and the writes that were accepted. -/
structure State where
  store : Store Str Status
  workers : ℕ → Worker
  log : List Event

/-- What happens to a call: it is answered, it does not arrive, or its answer does not. -/
inductive Reply
  | answered | requestLost | responseLost
  deriving DecidableEq

/-- A step of a worker, of the operator, or the end of a worker's process: it is killed, or
resolving the ingest keys raises. -/
inductive Op
  | list (w now : ℕ)
  | next (w time : ℕ) (reply : Reply)
  | report (w : ℕ) (ok : Bool) (time : ℕ) (reply : Reply)
  | crash (w : ℕ)
  | create (name : Str) (time : ℕ)
  | gc (name : Str) (ttl now : ℕ)

/-- `update_status`: what the server has written, if it accepts. -/
def updateStatus (reply : Reply) (store : Store Str Status) (obj : Request) :
    Option (Store Str Status × Request) :=
  if reply = .requestLost then none else store.put obj

def State.setWorker (s : State) (w : ℕ) (worker : Worker) : State :=
  { s with workers := Function.update s.workers w worker }

/-- The turn of the next item of a worker's list. A claim that is refused or lost is passed over,
and so is one that was accepted but not answered. -/
def State.next (s : State) (w time : ℕ) (reply : Reply) : State :=
  match s.workers w with
  | .draining _ [] => s.setWorker w .idle
  | .draining now (obj :: todo) =>
    if claimable obj.value now then
      match updateStatus reply s.store { obj with value := claimedStatus obj.value time } with
      | none => s.setWorker w (.draining now todo)
      | some (store, claimed) =>
        { store := store
          log := s.log ++ [.claimed obj.uid]
          workers := Function.update s.workers w
            (if reply = .responseLost then .draining now todo
              else .scanning now todo claimed obj.value.attempts) }
    else s.setWorker w (.draining now todo)
  | _ => s

/-- The end of a scan. -/
def State.report (maxAttempts : ℤ) (s : State) (w : ℕ) (ok : Bool) (time : ℕ) (reply : Reply) :
    State :=
  match s.workers w with
  | .scanning now todo obj prevAttempts =>
    let result := resultStatus maxAttempts obj.value prevAttempts ok time
    match updateStatus reply s.store { obj with value := result } with
    | none => s.setWorker w (.draining now todo)
    | some (store, _) =>
      { store := store
        log := s.log ++ [.reported obj.uid result.phase]
        workers := Function.update s.workers w (.draining now todo) }
  | _ => s

def step (maxAttempts : ℤ) (s : State) : Op → State
  | .list w now =>
    match s.workers w with
    | .idle => s.setWorker w (.draining now s.store.objects)
    | _ => s
  | .next w time reply => s.next w time reply
  | .report w ok time reply => s.report maxAttempts w ok time reply
  | .crash w => s.setWorker w .idle
  | .create name time => { s with store := s.store.create name time newStatus }
  -- `GC` lists, and deletes one by one. What it has listed as done or failed is so when it is
  -- deleted (`closed_step`), and nothing else deletes requests.
  | .gc name ttl now =>
    { s with
      store := s.store.remove fun r =>
        r.name = name ∧ (r.value.phase = .done ∨ r.value.phase = .failed) ∧
          r.createdAt + ttl ≤ now }

/-- No requests, and all workers idle. -/
def start : State := ⟨.empty, fun _ => .idle, []⟩

/-! ### The record of a request -/

/-- A phase that a report has not settled. -/
def Phase.Open (phase : Phase) : Prop := phase = .pending ∨ phase = .scanning

namespace Event

def uid : Event → ℕ
  | .claimed uid | .reported uid _ => uid

/-- A report of a pass that failed. -/
def IsFailure : Event → Bool
  | .claimed _ => false
  | .reported _ phase => phase ≠ .done

end Event

/-- How many failing passes were reported for a request. -/
def failures (uid : ℕ) (log : List Event) : ℕ :=
  log.countP fun e => decide (e.uid = uid) && e.IsFailure

/-- What the log says of the requests in the store. -/
structure Recorded (maxAttempts : ℤ) (store : Store Str Status) (log : List Event) : Prop where
  counted : ∀ r ∈ store.objects, r.value.attempts = failures r.uid log
  bounded : ∀ r ∈ store.objects,
    (r.value.attempts : ℤ) ≤ maxAttempts ∨ r.value.attempts ≤ 1
  room : ∀ r ∈ store.objects, r.value.phase.Open →
    r.value.attempts = 0 ∨ (r.value.attempts : ℤ) < maxAttempts
  uid_lt : ∀ e ∈ log, e.uid < store.revision

namespace Recorded

variable {maxAttempts : ℤ} {store : Store Str Status} {log : List Event}

theorem write (h : Recorded maxAttempts store log) {r : Request} (hr : r ∈ store.objects)
    {status : Status} {e : Event} (he : e.uid = r.uid)
    (hcount : status.attempts = r.value.attempts + if e.IsFailure then 1 else 0)
    (hbound : (status.attempts : ℤ) ≤ maxAttempts ∨ status.attempts ≤ 1)
    (hroom : status.phase.Open → status.attempts = 0 ∨ (status.attempts : ℤ) < maxAttempts) :
    Recorded maxAttempts (store.replace r.name status) (log ++ [e]) := by
  have hother : ∀ x ∈ store.objects, x ≠ r → e.uid ≠ x.uid := fun x hx hne heq =>
    hne (store.eq_of_uid_eq hx hr (heq.symm.trans he))
  refine ⟨fun x hx => ?_, fun x hx => ?_, fun x hx => ?_, ?_⟩
  · rw [failures, List.countP_append, List.countP_singleton]
    rcases (mem_replace_iff hr).mp hx with rfl | ⟨hx, hne⟩
    · have := h.counted r hr
      rw [failures] at this
      simp only [he, decide_true, Bool.true_and, hcount, this]
    · have := h.counted x hx
      rw [failures] at this
      simp only [hother x hx hne, decide_false, Bool.false_and, Bool.false_eq_true, if_false,
        Nat.add_zero, this]
  · rcases (mem_replace_iff hr).mp hx with rfl | ⟨hx, -⟩
    · exact hbound
    · exact h.bounded x hx
  · rcases (mem_replace_iff hr).mp hx with rfl | ⟨hx, -⟩
    · exact hroom
    · exact h.room x hx
  · intro e' he'
    rcases List.mem_append.mp he' with he' | he'
    · exact Nat.lt_succ_of_lt (h.uid_lt e' he')
    · rw [List.mem_singleton.mp he', he]
      exact Nat.lt_succ_of_lt (store.uid_lt r hr)

theorem create (h : Recorded maxAttempts store log) (name : Str) (time : ℕ) :
    Recorded maxAttempts (store.create name time newStatus) log := by
  have hnew : ∀ e ∈ log, e.uid ≠ store.revision := fun e he => (h.uid_lt e he).ne
  refine ⟨fun x hx => ?_, fun x hx => ?_, fun x hx => ?_, fun e he => ?_⟩
  · rcases mem_create_iff.mp hx with hx | ⟨-, rfl⟩
    · exact h.counted x hx
    · refine (List.countP_eq_zero.mpr fun e he => ?_).symm
      simp [hnew e he]
  · rcases mem_create_iff.mp hx with hx | ⟨-, rfl⟩
    · exact h.bounded x hx
    · exact .inr (Nat.zero_le 1)
  · rcases mem_create_iff.mp hx with hx | ⟨-, rfl⟩
    · exact h.room x hx
    · exact fun _ => .inl rfl
  · exact (h.uid_lt e he).trans_le (revision_create name time newStatus)

theorem remove (h : Recorded maxAttempts store log) (p : Request → Bool) :
    Recorded maxAttempts (store.remove p) log :=
  ⟨fun x hx => h.counted x (mem_remove_iff.mp hx).1,
    fun x hx => h.bounded x (mem_remove_iff.mp hx).1,
    fun x hx => h.room x (mem_remove_iff.mp hx).1, h.uid_lt⟩

end Recorded

/-! ### Claims of workers -/

/-- What workers have read, and their claims. -/
structure Working (store : Store Str Status) (workers : ℕ → Worker) : Prop where
  seen : ∀ w, ∀ o ∈ (workers w).todo, Snapshot store o
  held : ∀ w obj prev, (workers w).claim = some (obj, prev) →
    obj ∈ store.objects ∧ obj.value.phase = .scanning ∧ prev = obj.value.attempts
  exclusive : ∀ w w' obj obj' prev prev', (workers w).claim = some (obj, prev) →
    (workers w').claim = some (obj', prev') → obj.name = obj'.name → w = w'

namespace Working

variable {store : Store Str Status} {workers : ℕ → Worker}

/-- A worker goes on without a claim. -/
theorem setWorker (h : Working store workers) {w : ℕ} {worker : Worker}
    (hclaim : worker.claim = none) (htodo : ∀ o ∈ worker.todo, Snapshot store o) :
    Working store (Function.update workers w worker) := by
  have hne : ∀ {w' : ℕ} {c : Request × ℕ},
      (Function.update workers w worker w').claim = some c →
        w' ≠ w ∧ (workers w').claim = some c := by
    intro w' c hc
    by_cases hw : w' = w
    · rw [hw, Function.update_self, hclaim] at hc
      simp at hc
    · rw [Function.update_of_ne hw] at hc
      exact ⟨hw, hc⟩
  refine ⟨fun w' o ho => ?_, fun w' obj prev hc => h.held w' obj prev (hne hc).2,
    fun w' w'' obj obj' prev prev' hc hc' => h.exclusive w' w'' obj obj' prev prev' (hne hc).2
      (hne hc').2⟩
  by_cases hw : w' = w
  · rw [hw, Function.update_self] at ho
    exact htodo o ho
  · rw [Function.update_of_ne hw] at ho
    exact h.seen w' o ho

/-- A worker writes a request that no other one has claimed, and may have claimed it afterwards. -/
theorem write (h : Working store workers) {w : ℕ} {worker : Worker} {r : Request}
    (hr : r ∈ store.objects) {status : Status}
    (hfree : ∀ w', w' ≠ w → ∀ obj prev, (workers w').claim = some (obj, prev) → obj.name ≠ r.name)
    (htodo : ∀ o ∈ worker.todo, Snapshot store o)
    (hclaim : ∀ c, worker.claim = some c →
      c = ({ r with version := store.revision, value := status }, status.attempts) ∧
        status.phase = .scanning) :
    Working (store.replace r.name status) (Function.update workers w worker) := by
  have hother : ∀ {w' : ℕ}, w' ≠ w → ∀ {obj prev}, (workers w').claim = some (obj, prev) →
      obj ∈ (store.replace r.name status).objects := fun hw obj prev hc =>
    (mem_replace_iff hr).mpr (.inr ⟨(h.held _ obj prev hc).1, fun heq => hfree _ hw obj prev hc
      (heq ▸ rfl)⟩)
  refine ⟨fun w' o ho => ?_, fun w' obj prev hc => ?_,
    fun w' w'' obj obj' prev prev' hc hc' hname => ?_⟩
  · by_cases hw : w' = w
    · rw [hw, Function.update_self] at ho
      exact (htodo o ho).replace hr status
    · rw [Function.update_of_ne hw] at ho
      exact (h.seen w' o ho).replace hr status
  · by_cases hw : w' = w
    · rw [hw, Function.update_self] at hc
      obtain ⟨hobj, hphase⟩ := hclaim _ hc
      obtain ⟨rfl, rfl⟩ := Prod.mk.inj hobj
      exact ⟨(mem_replace_iff hr).mpr (.inl rfl), hphase, rfl⟩
    · rw [Function.update_of_ne hw] at hc
      exact ⟨hother hw hc, (h.held w' obj prev hc).2⟩
  · by_cases hw : w' = w <;> by_cases hw' : w'' = w
    · rw [hw, hw']
    · rw [hw, Function.update_self] at hc
      rw [Function.update_of_ne hw'] at hc'
      obtain ⟨rfl, -⟩ := Prod.mk.inj (hclaim _ hc).1
      exact absurd hname.symm (hfree w'' hw' obj' prev' hc')
    · rw [hw', Function.update_self] at hc'
      rw [Function.update_of_ne hw] at hc
      obtain ⟨rfl, -⟩ := Prod.mk.inj (hclaim _ hc').1
      exact absurd hname (hfree w' hw obj prev hc)
    · rw [Function.update_of_ne hw] at hc
      rw [Function.update_of_ne hw'] at hc'
      exact h.exclusive w' w'' obj obj' prev prev' hc hc' hname

theorem create (h : Working store workers) (name : Str) (time : ℕ) :
    Working (store.create name time newStatus) workers where
  seen w o ho := (h.seen w o ho).create name time newStatus
  held w obj prev hc := (h.held w obj prev hc).imp_left fun hobj => mem_create_iff.mpr (.inl hobj)
  exclusive := h.exclusive

theorem remove (h : Working store workers) {p : Request → Bool}
    (hp : ∀ r, r.value.phase = .scanning → p r = false) : Working (store.remove p) workers where
  seen w o ho := (h.seen w o ho).remove p
  held w obj prev hc :=
    (h.held w obj prev hc).imp_left fun hobj =>
      mem_remove_iff.mpr ⟨hobj, hp obj (h.held w obj prev hc).2.1⟩
  exclusive := h.exclusive

end Working

/-! ### Steps -/

/-- A call writes exactly if it arrives and the request is still what the worker has read. -/
theorem updateStatus_eq_some_iff {store : Store Str Status} {o : Request} (h : Snapshot store o)
    {reply : Reply} {status : Status} {res : Store Str Status × Request} :
    updateStatus reply store { o with value := status } = some res ↔
      reply ≠ .requestLost ∧ o ∈ store.objects ∧ res =
        (store.replace o.name status, { o with version := store.revision, value := status }) := by
  rw [updateStatus]
  split
  · next hlost => simp [hlost]
  · next hlost => rw [put_eq_some_iff h, and_iff_right hlost]

section Result

variable {maxAttempts : ℤ} {status : Status} {prev time : ℕ} {ok : Bool} {uid : ℕ}

/-- A report that failed counts one attempt. -/
theorem resultStatus_attempts (hprev : prev = status.attempts) :
    (resultStatus maxAttempts status prev ok time).attempts = status.attempts +
      if (Event.reported uid (resultStatus maxAttempts status prev ok time).phase).IsFailure then 1
      else 0 := by
  cases ok with
  | true => simp [resultStatus, Event.IsFailure]
  | false =>
    have hphase : (resultStatus maxAttempts status prev false time).phase ≠ .done := by
      simp only [resultStatus, Bool.false_eq_true, if_false]
      split <;> simp
    have hfailure : (Event.reported uid
        (resultStatus maxAttempts status prev false time).phase).IsFailure = true := by
      simp only [Event.IsFailure, hphase, ne_eq, not_false_eq_true, decide_true]
    rw [hfailure, if_pos rfl, ← hprev]
    rfl

theorem resultStatus_bound (hprev : prev = status.attempts)
    (hbound : (status.attempts : ℤ) ≤ maxAttempts ∨ status.attempts ≤ 1)
    (hroom : status.attempts = 0 ∨ (status.attempts : ℤ) < maxAttempts) :
    ((resultStatus maxAttempts status prev ok time).attempts : ℤ) ≤ maxAttempts ∨
      (resultStatus maxAttempts status prev ok time).attempts ≤ 1 := by
  cases ok with
  | true => exact hbound
  | false =>
    change ((prev + 1 : ℕ) : ℤ) ≤ maxAttempts ∨ prev + 1 ≤ 1
    omega

/-- A request that is to be tried again has had fewer attempts than the limit. -/
theorem resultStatus_room (h : (resultStatus maxAttempts status prev ok time).phase.Open) :
    (resultStatus maxAttempts status prev ok time).attempts = 0 ∨
      ((resultStatus maxAttempts status prev ok time).attempts : ℤ) < maxAttempts := by
  cases ok with
  | true => simp [resultStatus, Phase.Open] at h
  | false =>
    right
    by_contra hlimit
    have hle : maxAttempts ≤ (prev + 1 : ℕ) := Int.not_lt.mp hlimit
    simp only [resultStatus, Bool.false_eq_true, if_false, if_pos hle, Phase.Open, reduceCtorEq,
      or_self] at h

end Result

/-! ### What steps do -/

section Cases

variable {s : State}

/-- The turn of an item: a claim is accepted, or the worker goes on without one. -/
theorem next_cases (h : Working s.store s.workers) (w time : ℕ) (reply : Reply) :
    (∃ now obj todo, s.workers w = .draining now (obj :: todo) ∧ claimable obj.value now = true ∧
      reply ≠ .requestLost ∧ obj ∈ s.store.objects ∧
      s.next w time reply =
        { store := s.store.replace obj.name (claimedStatus obj.value time)
          log := s.log ++ [.claimed obj.uid]
          workers := Function.update s.workers w
            (if reply = .responseLost then .draining now todo
              else .scanning now todo { obj with
                version := s.store.revision
                value := claimedStatus obj.value time } obj.value.attempts) }) ∨
    s.next w time reply = s ∨
    ∃ worker, (s.workers w).claim = none ∧ worker.claim = none ∧ worker.todo ⊆ (s.workers w).todo ∧
      s.next w time reply = s.setWorker w worker := by
  cases hw : s.workers w with
  | idle =>
    right; left
    simp only [State.next, hw]
  | scanning =>
    right; left
    simp only [State.next, hw]
  | draining now todo =>
    cases todo with
    | nil =>
      right; right
      exact ⟨.idle, rfl, rfl, List.Subset.refl _, by simp only [State.next, hw]⟩
    | cons obj todo =>
      have hobj : Snapshot s.store obj := h.seen w obj (by rw [hw]; exact List.mem_cons_self)
      have hnext : s.next w time reply = if claimable obj.value now then
          match updateStatus reply s.store { obj with value := claimedStatus obj.value time } with
          | none => s.setWorker w (.draining now todo)
          | some (store, claimed) =>
            { store := store
              log := s.log ++ [.claimed obj.uid]
              workers := Function.update s.workers w
                (if reply = .responseLost then .draining now todo
                  else .scanning now todo claimed obj.value.attempts) }
        else s.setWorker w (.draining now todo) := by simp only [State.next, hw]
      have hskip : (Worker.draining now todo).todo ⊆ (Worker.draining now (obj :: todo)).todo :=
        List.subset_cons_self obj todo
      rw [hnext]
      split
      · next hclaimable =>
        split
        · exact .inr (.inr ⟨_, rfl, rfl, hskip, rfl⟩)
        · next store claimed hwrite =>
          obtain ⟨harrived, hmem, hres⟩ := (updateStatus_eq_some_iff hobj).mp hwrite
          obtain ⟨rfl, rfl⟩ := Prod.mk.inj hres
          exact .inl ⟨now, obj, todo, rfl, hclaimable, harrived, hmem, rfl⟩
      · exact .inr (.inr ⟨_, rfl, rfl, hskip, rfl⟩)

/-- A report is accepted whenever it arrives. -/
theorem report_cases (h : Working s.store s.workers) (maxAttempts : ℤ) (w : ℕ) (ok : Bool)
    (time : ℕ) (reply : Reply) :
    (∃ now todo obj prev, s.workers w = .scanning now todo obj prev ∧ reply ≠ .requestLost ∧
      s.report maxAttempts w ok time reply =
        { store := s.store.replace obj.name (resultStatus maxAttempts obj.value prev ok time)
          log := s.log ++
            [.reported obj.uid (resultStatus maxAttempts obj.value prev ok time).phase]
          workers := Function.update s.workers w (.draining now todo) }) ∨
    (∃ now todo obj prev, s.workers w = .scanning now todo obj prev ∧ reply = .requestLost ∧
      s.report maxAttempts w ok time reply = s.setWorker w (.draining now todo)) ∨
    (s.workers w).claim = none ∧ s.report maxAttempts w ok time reply = s := by
  cases hw : s.workers w with
  | idle => exact .inr (.inr ⟨rfl, by simp only [State.report, hw]⟩)
  | draining now todo => exact .inr (.inr ⟨rfl, by simp only [State.report, hw]⟩)
  | scanning now todo obj prev =>
    obtain ⟨hobj, -, -⟩ := h.held w obj prev (by rw [hw]; rfl)
    have hreport : s.report maxAttempts w ok time reply =
        match updateStatus reply s.store
          { obj with value := resultStatus maxAttempts obj.value prev ok time } with
        | none => s.setWorker w (.draining now todo)
        | some (store, _) =>
          { store := store
            log := s.log ++
              [.reported obj.uid (resultStatus maxAttempts obj.value prev ok time).phase]
            workers := Function.update s.workers w (.draining now todo) } := by
      simp only [State.report, hw]
    rw [hreport]
    by_cases hreply : reply = .requestLost
    · refine .inr (.inl ⟨now, todo, obj, prev, rfl, hreply, ?_⟩)
      rw [updateStatus, if_pos hreply]
    · refine .inl ⟨now, todo, obj, prev, rfl, hreply, ?_⟩
      rw [(updateStatus_eq_some_iff (Snapshot.of_mem hobj)).mpr ⟨hreply, hobj, rfl⟩]

end Cases

/-- The invariant of the queue. -/
structure Sound (maxAttempts : ℤ) (s : State) : Prop where
  recorded : Recorded maxAttempts s.store s.log
  working : Working s.store s.workers

namespace Sound

variable {maxAttempts : ℤ} {s : State}

theorem setWorker (h : Sound maxAttempts s) {w : ℕ} {worker : Worker}
    (hclaim : worker.claim = none) (htodo : ∀ o ∈ worker.todo, Snapshot s.store o) :
    Sound maxAttempts (s.setWorker w worker) :=
  ⟨h.recorded, h.working.setWorker hclaim htodo⟩

theorem next (h : Sound maxAttempts s) (w time : ℕ) (reply : Reply) :
    Sound maxAttempts (s.next w time reply) := by
  obtain ⟨now, obj, todo, hw, hclaimable, -, hobj, heq⟩ | heq | ⟨worker, -, hclaim, htodo, heq⟩ :=
    next_cases h.working w time reply
  · have hpending := phase_of_claimable hclaimable
    have htodo : ∀ o ∈ todo, Snapshot s.store o := fun o ho =>
      h.working.seen w o (by rw [hw]; exact List.mem_cons_of_mem obj ho)
    rw [heq]
    refine ⟨h.recorded.write hobj rfl rfl (h.recorded.bounded obj hobj)
      (fun _ => h.recorded.room obj hobj (.inl hpending)),
      h.working.write hobj (fun w' _ o prev hc hname => ?_) ?_ fun c hc => ?_⟩
    -- A claimed request is not pending.
    · obtain ⟨ho, hphase, -⟩ := h.working.held w' o prev hc
      rw [s.store.eq_of_name_eq ho hobj hname, hpending] at hphase
      simp at hphase
    · split
      · exact htodo
      · exact htodo
    · split at hc
      · simp [Worker.claim] at hc
      · exact ⟨(Option.some.inj hc).symm, rfl⟩
  · rwa [heq]
  · rw [heq]
    exact h.setWorker hclaim fun o ho => h.working.seen w o (htodo ho)

theorem report (h : Sound maxAttempts s) (w : ℕ) (ok : Bool) (time : ℕ) (reply : Reply) :
    Sound maxAttempts (s.report maxAttempts w ok time reply) := by
  have hseen : ∀ {now todo obj prev}, s.workers w = .scanning now todo obj prev →
      ∀ o ∈ todo, Snapshot s.store o := fun hw o ho => h.working.seen w o (by rwa [hw])
  obtain ⟨now, todo, obj, prev, hw, -, heq⟩ | ⟨now, todo, obj, prev, hw, -, heq⟩ | ⟨-, heq⟩ :=
    report_cases h.working maxAttempts w ok time reply
  · obtain ⟨hobj, hphase, hprev⟩ := h.working.held w obj prev (by rw [hw]; rfl)
    rw [heq]
    refine ⟨h.recorded.write hobj rfl (resultStatus_attempts hprev)
      (resultStatus_bound hprev (h.recorded.bounded obj hobj)
        (h.recorded.room obj hobj (.inr hphase))) resultStatus_room,
      h.working.write hobj (fun w' hne o prev' hc hname => ?_) (hseen hw) fun c hc => ?_⟩
    · exact hne (h.working.exclusive w' w o obj prev' prev hc (by rw [hw]; rfl) hname)
    · simp [Worker.claim] at hc
  · rw [heq]
    exact h.setWorker rfl (hseen hw)
  · rwa [heq]

theorem step (h : Sound maxAttempts s) (op : Op) : Sound maxAttempts (step maxAttempts s op) := by
  cases op with
  | list w now =>
    rw [ScanQueue.step]
    split
    · exact h.setWorker rfl fun o ho => Snapshot.of_mem ho
    · exact h
  | next w time reply => exact h.next w time reply
  | report w ok time reply => exact h.report w ok time reply
  | crash w => exact h.setWorker rfl fun _ ho => absurd ho List.not_mem_nil
  | create name time => exact ⟨h.recorded.create name time, h.working.create name time⟩
  | gc name ttl now =>
    refine ⟨h.recorded.remove _, h.working.remove fun r hr => ?_⟩
    simp [hr]

end Sound

theorem sound_start (maxAttempts : ℤ) : Sound maxAttempts start where
  recorded :=
    ⟨fun _ h => absurd h List.not_mem_nil, fun _ h => absurd h List.not_mem_nil,
      fun _ h => absurd h List.not_mem_nil, fun _ h => absurd h List.not_mem_nil⟩
  working :=
    ⟨fun _ _ h => absurd h List.not_mem_nil, fun _ _ _ h => by simp [start, Worker.claim] at h,
      fun _ _ _ _ _ _ h => by simp [start, Worker.claim] at h⟩

/-- Every run keeps the invariant. -/
theorem sound_run (maxAttempts : ℤ) (ops : List Op) :
    Sound maxAttempts (run (step maxAttempts) start ops) :=
  run_induction (fun _ op h => h.step op) (sound_start maxAttempts) ops

/-! ### Requests that are done or failed -/

/-- A step writes no request, or one that is pending or claimed, or creates or deletes some. -/
theorem step_cases {maxAttempts : ℤ} {s : State} (h : Sound maxAttempts s) (op : Op) :
    ((step maxAttempts s op).store = s.store ∧ (step maxAttempts s op).log = s.log) ∨
    (∃ r ∈ s.store.objects,
      (r.value.phase = .pending ∨ ∃ w prev, (s.workers w).claim = some (r, prev)) ∧
      ∃ status e, e.uid = r.uid ∧
      (step maxAttempts s op).store = s.store.replace r.name status ∧
      (step maxAttempts s op).log = s.log ++ [e]) ∨
    (∃ name time, (step maxAttempts s op).store = s.store.create name time newStatus ∧
      (step maxAttempts s op).log = s.log) ∨
    ∃ p : Request → Bool, (∀ r, r.value.phase.Open → p r = false) ∧
      (step maxAttempts s op).store = s.store.remove p ∧
      (step maxAttempts s op).log = s.log := by
  cases op with
  | list w now =>
    left
    rw [step]
    split <;> exact ⟨rfl, rfl⟩
  | next w time reply =>
    obtain ⟨now, obj, todo, -, hclaimable, -, hobj, heq⟩ | heq | ⟨worker, -, -, -, heq⟩ :=
      next_cases h.working w time reply
    · right; left
      refine ⟨obj, hobj, .inl (phase_of_claimable hclaimable), claimedStatus obj.value time,
        .claimed obj.uid, rfl, ?_, ?_⟩
      · rw [step, heq]
      · rw [step, heq]
    · left
      rw [step, heq]
      exact ⟨rfl, rfl⟩
    · left
      rw [step, heq]
      exact ⟨rfl, rfl⟩
  | report w ok time reply =>
    obtain ⟨now, todo, obj, prev, hw, -, heq⟩ | ⟨now, todo, obj, prev, -, -, heq⟩ | ⟨-, heq⟩ :=
      report_cases h.working maxAttempts w ok time reply
    · have hclaim : (s.workers w).claim = some (obj, prev) := by rw [hw]; rfl
      right; left
      refine ⟨obj, (h.working.held w obj prev hclaim).1, .inr ⟨w, prev, hclaim⟩,
        resultStatus maxAttempts obj.value prev ok time,
        .reported obj.uid (resultStatus maxAttempts obj.value prev ok time).phase, rfl, ?_, ?_⟩
      · rw [step, heq]
      · rw [step, heq]
    · left
      rw [step, heq]
      exact ⟨rfl, rfl⟩
    · left
      rw [step, heq]
      exact ⟨rfl, rfl⟩
  | crash w => exact .inl ⟨rfl, rfl⟩
  | create name time => exact .inr (.inr (.inl ⟨name, time, rfl, rfl⟩))
  | gc name ttl now =>
    right; right; right
    refine ⟨_, fun r hr => ?_, rfl, rfl⟩
    rcases hr with hr | hr
    · simp [hr]
    · simp [hr]

/-- What is logged from a state to a later one has no claim of `uid`. -/
def NotClaimed (uid : ℕ) (s s' : State) : Prop :=
  ∃ new, s'.log = s.log ++ new ∧ .claimed uid ∉ new

theorem NotClaimed.of_log_eq {uid : ℕ} {s s' : State} (h : s'.log = s.log) : NotClaimed uid s s' :=
  ⟨[], by rw [h, List.append_nil], List.not_mem_nil⟩

theorem NotClaimed.trans {uid : ℕ} {s s' s'' : State} (h : NotClaimed uid s s')
    (h' : NotClaimed uid s' s'') : NotClaimed uid s s'' := by
  obtain ⟨new, hlog, hnew⟩ := h
  obtain ⟨new', hlog', hnew'⟩ := h'
  refine ⟨new ++ new', ?_, fun hmem => (List.mem_append.mp hmem).elim hnew hnew'⟩
  rw [hlog', hlog, List.append_assoc]

/-- A uid that was drawn and of which no request is open. -/
def Closed (s : State) (uid : ℕ) : Prop :=
  uid < s.store.revision ∧ ∀ r ∈ s.store.objects, r.uid = uid → ¬ r.value.phase.Open

/-- A request that is closed is not claimed in a step, and stays closed. -/
theorem closed_step {maxAttempts : ℤ} {s : State} (h : Sound maxAttempts s) {uid : ℕ}
    (hclosed : Closed s uid) (op : Op) :
    Closed (step maxAttempts s op) uid ∧ NotClaimed uid s (step maxAttempts s op) := by
  obtain ⟨hlt, hnot⟩ := hclosed
  obtain ⟨hstore, hlog⟩ | ⟨r, hr, hfrom, status, e, he, hstore, hlog⟩ |
    ⟨name, time, hstore, hlog⟩ | ⟨p, -, hstore, hlog⟩ := step_cases h op
  · refine ⟨?_, NotClaimed.of_log_eq hlog⟩
    rw [Closed, hstore]
    exact ⟨hlt, hnot⟩
  · -- The request written is open, so it is another one.
    have hopen : r.value.phase.Open :=
      hfrom.imp_right fun ⟨w, prev, hclaim⟩ => (h.working.held w r prev hclaim).2.1
    have hne : r.uid ≠ uid := fun huid => hnot r hr huid hopen
    refine ⟨?_, [e], hlog, fun hmem => hne ?_⟩
    · rw [Closed, hstore]
      refine ⟨Nat.lt_succ_of_lt hlt, fun x hx huid => ?_⟩
      rcases (mem_replace_iff hr).mp hx with rfl | ⟨hx, -⟩
      · exact absurd huid hne
      · exact hnot x hx huid
    · rw [← he, ← List.mem_singleton.mp hmem]
      rfl
  · refine ⟨?_, NotClaimed.of_log_eq hlog⟩
    rw [Closed, hstore]
    refine ⟨Nat.lt_of_lt_of_le hlt (revision_create name time newStatus), fun x hx huid => ?_⟩
    rcases mem_create_iff.mp hx with hx | ⟨-, rfl⟩
    · exact hnot x hx huid
    · exact absurd huid (Nat.ne_of_gt hlt)
  · refine ⟨?_, NotClaimed.of_log_eq hlog⟩
    rw [Closed, hstore]
    exact ⟨hlt, fun x hx => hnot x (mem_remove_iff.mp hx).1⟩

/-- A request that is closed is not claimed in whatever follows. -/
theorem notClaimed_run {maxAttempts : ℤ} {s : State} (h : Sound maxAttempts s) {uid : ℕ}
    (hclosed : Closed s uid) (ops : List Op) :
    NotClaimed uid s (run (step maxAttempts) s ops) := by
  induction ops generalizing s with
  | nil => exact .of_log_eq rfl
  | cons op ops ih =>
    obtain ⟨hclosed, hnot⟩ := closed_step h hclosed op
    exact hnot.trans (ih (h.step op) hclosed)

/-- In every run, at most one worker has a claim on a request; its attempts are the failing passes
that were reported, at most the limit (or one, for a limit below one); and a request that is done or
failed is not claimed in whatever follows. -/
theorem claims_exclusive_and_counted (maxAttempts : ℤ) (ops : List Op) :
    (∀ w w' obj obj' prev prev',
      ((run (step maxAttempts) start ops).workers w).claim = some (obj, prev) →
      ((run (step maxAttempts) start ops).workers w').claim = some (obj', prev') →
      obj.name = obj'.name → w = w') ∧
    ∀ r ∈ (run (step maxAttempts) start ops).store.objects,
      r.value.attempts = failures r.uid (run (step maxAttempts) start ops).log ∧
      ((r.value.attempts : ℤ) ≤ maxAttempts ∨ r.value.attempts ≤ 1) ∧
      (r.value.phase = .done ∨ r.value.phase = .failed → ∀ ops',
        NotClaimed r.uid (run (step maxAttempts) start ops)
          (run (step maxAttempts) start (ops ++ ops'))) := by
  have h := sound_run maxAttempts ops
  refine ⟨h.working.exclusive, fun r hr => ⟨h.recorded.counted r hr, h.recorded.bounded r hr,
    fun hphase ops' => ?_⟩⟩
  rw [run_append]
  refine notClaimed_run h ⟨Store.uid_lt _ r hr, fun x hx huid hopen => ?_⟩ ops'
  rw [Store.eq_of_uid_eq _ hx hr huid] at hopen
  rcases hphase with hphase | hphase
  · simp [Phase.Open, hphase] at hopen
  · simp [Phase.Open, hphase] at hopen

/-- With a limit of zero, one failing pass is one attempt too many. -/
theorem not_attempts_le_max_attempts : ¬ ∀ (maxAttempts : ℤ) (ops : List Op),
    ∀ r ∈ (run (step maxAttempts) start ops).store.objects,
      (r.value.attempts : ℤ) ≤ maxAttempts := by
  intro h
  have := h 0 [.create (str "sr-0") 0, .list 0 0, .next 0 0 .answered,
    .report 0 false 0 .answered]
  revert this
  decide

end Vat.ScanQueue
