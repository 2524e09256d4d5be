import Mathlib.Data.Int.Notation
import Mathlib.Logic.Function.Basic
import Mathlib.Logic.Function.Iterate
import Vat.Python.Text
import Vat.Transition.Run

/-!
# The lockout of OAuth clients

A failed exchange adds one to the failure counter of its client id; if that made the counter, a
second command gives it an expiry. A counter at the threshold blocks further exchanges until it is
gone. The attempts of any number of clients interleave between any two commands, and a client may
stop there: its process ends, or the store does not answer in time. Between the two commands the
counter has no expiry; if its client stops there, and no other client is about to set one, it never
gets one (`lockout_expiry_iff`), and a counter at the threshold then blocks its client id for good
(`locked_of_stuck`).

Source: `backend/app/core/rate_limit.py`, lines 70–137; `backend/app/api/oauth.py`, lines 15–62.

## Main definitions

* `Lockout.State`, `Lockout.Op`, `Lockout.step`: the counters, where each client is, and what
  happens.
* `Lockout.AllExpire`: every counter has an expiry.
* `Lockout.Attended`: every counter has an expiry, or a client is about to set one.

## Main results

* `Lockout.allExpire_iff_ends`: counters with an expiry are those that time removes.
* `Lockout.lockout_expiry_iff`, `Lockout.locked_of_stuck`.
-/

namespace Vat.Lockout

open Transition

/-! ### The store and the clients -/

/-- A failure counter, and the seconds until it expires, if an expiry was set. -/
structure Counter where
  count : ℤ
  ttl : Option ℕ
  deriving DecidableEq

/-- What a client does next: nothing, or a command for the key of its attempt. -/
inductive Phase
  | idle
  | incr (key : Str)
  | expire (key : Str)
  | reset (key : Str)
  deriving DecidableEq

structure State where
  counters : Str → Option Counter
  phase : ℕ → Phase

structure Settings where
  threshold : ℤ
  windowSeconds : ℤ

/-- What happens: a client starts an attempt, whose look at the counter may fail; a client sends its
next command; a client stops, or its command fails; a second passes. -/
inductive Op
  | attempt (client : ℕ) (clientId : Str) (valid : Bool) (storeDown : Bool)
  | send (client : ℕ)
  | stop (client : ℕ)
  | second
  deriving DecidableEq

/-- `_lockout_key`. -/
def lockoutKey (clientId : Str) : Str := str "vat:oauth_token:lockout:" ++ clientId

/-- `is_locked`, when the store answers. -/
def isLocked (threshold : ℤ) (counter : Option Counter) : Bool :=
  counter.any fun c => threshold ≤ c.count

/-- `EXPIRE`: a window that is not positive removes the counter. -/
def expired (windowSeconds : ℤ) (counter : Counter) : Option Counter :=
  if windowSeconds ≤ 0 then none else some { counter with ttl := some windowSeconds.toNat }

/-- A counter after a second. -/
def aged (counter : Counter) : Option Counter :=
  match counter.ttl with
  | none => some counter
  | some n => if n ≤ 1 then none else some { counter with ttl := some (n - 1) }

/-- The next command of a client. `INCR` makes a counter without expiry, and keeps the expiry of one
that is there. -/
def sendCommand (cfg : Settings) (s : State) (client : ℕ) : State :=
  match s.phase client with
  | .idle => s
  | .incr key =>
    let counter := (s.counters key).getD ⟨0, none⟩
    let count := counter.count + 1
    { counters := Function.update s.counters key (some { counter with count := count })
      phase := Function.update s.phase client (if count = 1 then .expire key else .idle) }
  | .expire key =>
    { counters := Function.update s.counters key ((s.counters key).bind (expired cfg.windowSeconds))
      phase := Function.update s.phase client .idle }
  | .reset key =>
    { counters := Function.update s.counters key none
      phase := Function.update s.phase client .idle }

def step (cfg : Settings) (s : State) : Op → State
  | .attempt client clientId valid storeDown =>
    let key := lockoutKey clientId
    if s.phase client ≠ .idle ∨ storeDown = false ∧ isLocked cfg.threshold (s.counters key) then s
    else
      { s with phase := Function.update s.phase client (if valid then .reset key else .incr key) }
  | .send client => sendCommand cfg s client
  | .stop client => { s with phase := Function.update s.phase client .idle }
  | .second => { s with counters := fun key => (s.counters key).bind aged }

/-- No counters, and nobody at work. -/
def start : State := ⟨fun _ => none, fun _ => .idle⟩

/-! ### Expiry -/

/-- Every counter has an expiry. -/
def AllExpire (s : State) : Prop :=
  ∀ key counter, s.counters key = some counter → counter.ttl ≠ none

/-- A counter without expiry has a client that is about to set one. -/
def Attended (s : State) : Prop :=
  ∀ key counter, s.counters key = some counter → counter.ttl = none →
    ∃ client, s.phase client = .expire key

/-- The command makes no counter. -/
def MakesNone (s : State) (o : Op) : Prop :=
  ∀ client key, o = .send client → s.phase client = .incr key → s.counters key ≠ none

/-- A client that stops does not leave a counter without expiry that no other client is about to
give one. -/
def LeavesNone (s : State) (o : Op) : Prop :=
  ∀ client key counter, o = .stop client → s.phase client = .expire key →
    s.counters key = some counter → counter.ttl = none →
      ∃ other, other ≠ client ∧ s.phase other = .expire key

variable {cfg : Settings} {s : State}

theorem expired_ttl {w : ℤ} {counter counter' : Counter} (h : expired w counter = some counter') :
    counter'.ttl ≠ none := by
  rw [expired] at h
  split at h
  · cases h
  · cases h
    exact Option.some_ne_none _

/-- A second leaves counters with an expiry, or those without one as they are. -/
theorem aged_ttl {counter counter' : Counter} (h : aged counter = some counter') :
    counter'.ttl = none ↔ counter.ttl = none := by
  rw [aged] at h
  split at h
  · cases h
    rfl
  · next n hn =>
    split at h
    · cases h
    · cases h
      simp [hn]

/-- All counters but one are as before. -/
theorem allExpire_update (h : AllExpire s) {key : Str} {entry : Option Counter}
    (hentry : ∀ counter, entry = some counter → counter.ttl ≠ none) (phase : ℕ → Phase) :
    AllExpire ⟨Function.update s.counters key entry, phase⟩ := by
  intro key' counter hc
  have hc : Function.update s.counters key entry key' = some counter := hc
  by_cases hkey : key' = key
  · rw [hkey, Function.update_self] at hc
    exact hentry counter hc
  · rw [Function.update_of_ne hkey] at hc
    exact h key' counter hc

theorem sendCommand_idle {client : ℕ} (h : s.phase client = .idle) :
    sendCommand cfg s client = s := by
  rw [sendCommand, h]

theorem sendCommand_incr {client : ℕ} {key : Str} (h : s.phase client = .incr key) :
    sendCommand cfg s client =
      { counters := Function.update s.counters key
          (some { (s.counters key).getD ⟨0, none⟩ with
            count := ((s.counters key).getD ⟨0, none⟩).count + 1 })
        phase := Function.update s.phase client
          (if ((s.counters key).getD ⟨0, none⟩).count + 1 = 1 then .expire key else .idle) } := by
  rw [sendCommand, h]

theorem sendCommand_expire {client : ℕ} {key : Str} (h : s.phase client = .expire key) :
    sendCommand cfg s client =
      { counters := Function.update s.counters key
          ((s.counters key).bind (expired cfg.windowSeconds))
        phase := Function.update s.phase client .idle } := by
  rw [sendCommand, h]

theorem sendCommand_reset {client : ℕ} {key : Str} (h : s.phase client = .reset key) :
    sendCommand cfg s client =
      { counters := Function.update s.counters key none
        phase := Function.update s.phase client .idle } := by
  rw [sendCommand, h]

/-- A command keeps an expiry on every counter exactly if it makes none. -/
theorem allExpire_send_iff (client : ℕ) (h : AllExpire s) :
    AllExpire (sendCommand cfg s client) ↔
      ∀ key, s.phase client = .incr key → s.counters key ≠ none := by
  cases hphase : s.phase client with
  | idle =>
    rw [sendCommand_idle hphase]
    exact iff_of_true h fun _ hp => by cases hp
  | incr key =>
    rw [sendCommand_incr hphase]
    dsimp only
    constructor
    · rintro hnext key' hkey hnone
      cases hkey
      rw [hnone] at hnext
      exact hnext key _ (Function.update_self ..) rfl
    · intro hsome
      obtain ⟨counter, hcounter⟩ := Option.ne_none_iff_exists'.mp (hsome key rfl)
      refine allExpire_update h (fun counter' hcounter' => ?_) _
      rw [hcounter] at hcounter'
      cases hcounter'
      exact h key counter hcounter
  | expire key =>
    rw [sendCommand_expire hphase]
    refine iff_of_true (allExpire_update h (fun counter hcounter => ?_) _) fun _ hp => by cases hp
    obtain ⟨before, -, hexpired⟩ := Option.bind_eq_some_iff.mp hcounter
    exact expired_ttl hexpired
  | reset key =>
    rw [sendCommand_reset hphase]
    exact iff_of_true (allExpire_update h (fun _ hcounter => by cases hcounter) _)
      fun _ hp => by cases hp

/-- A step keeps an expiry on every counter exactly if it makes none. -/
theorem allExpire_step_iff (o : Op) (h : AllExpire s) :
    AllExpire (step cfg s o) ↔ MakesNone s o := by
  cases o with
  | attempt client clientId valid storeDown =>
    refine iff_of_true ?_ fun _ _ ho => by cases ho
    rw [step]
    split <;> exact h
  | stop client => exact iff_of_true h fun _ _ ho => by cases ho
  | second =>
    refine iff_of_true (fun key counter hc => ?_) fun _ _ ho => by cases ho
    obtain ⟨before, hbefore, haged⟩ := Option.bind_eq_some_iff.mp hc
    rw [ne_eq, aged_ttl haged]
    exact h key before hbefore
  | send client =>
    refine (allExpire_send_iff client h).trans ⟨fun hsend client' key ho hphase => ?_,
      fun hnone key hphase => hnone client key rfl hphase⟩
    cases ho
    exact hsend key hphase

/-! ### Clients that are about to set an expiry -/

/-- What other clients are about to do stays. -/
theorem exists_other {client : ℕ} {key : Str} (hphase : s.phase client ≠ .expire key)
    (h : ∃ c, s.phase c = .expire key) (phase : Phase) :
    ∃ c, Function.update s.phase client phase c = .expire key := by
  obtain ⟨c, hc⟩ := h
  have hne : c ≠ client := by
    rintro rfl
    exact hphase hc
  exact ⟨c, by rw [Function.update_of_ne hne, hc]⟩

/-- A client that has dealt with a key. -/
theorem attended_update (h : Attended s) {client : ℕ} {key : Str} {entry : Option Counter}
    {phase : Phase} (hphase : ∀ key', s.phase client = .expire key' → key' = key)
    (hentry : ∀ counter, entry = some counter → counter.ttl = none →
      ∃ c, Function.update s.phase client phase c = .expire key) :
    Attended ⟨Function.update s.counters key entry, Function.update s.phase client phase⟩ := by
  intro key' counter hcounter httl
  have hcounter : Function.update s.counters key entry key' = some counter := hcounter
  by_cases hkey : key' = key
  · rw [hkey, Function.update_self] at hcounter
    rw [hkey]
    exact hentry counter hcounter httl
  · rw [Function.update_of_ne hkey] at hcounter
    exact exists_other (fun hp => hkey (hphase key' hp)) (h key' counter hcounter httl) phase

/-- A command leaves no counter without expiry behind. -/
theorem attended_send (client : ℕ) (h : Attended s) : Attended (sendCommand cfg s client) := by
  cases hphase : s.phase client with
  | idle =>
    rw [sendCommand_idle hphase]
    exact h
  | incr key =>
    rw [sendCommand_incr hphase]
    refine attended_update h (fun key' hp => by rw [hphase] at hp; cases hp) fun counter hc httl => ?_
    cases hbefore : s.counters key with
    | none =>
      -- The counter is made here, and this client is the one that will set its expiry.
      exact ⟨client, by rw [Function.update_self]; rfl⟩
    | some before =>
      rw [hbefore] at hc
      cases hc
      refine exists_other ?_ (h key before hbefore httl) _
      rw [hphase]
      exact fun hp => by cases hp
  | expire key =>
    rw [sendCommand_expire hphase]
    refine attended_update h (fun key' hp => ?_) fun counter hc httl => ?_
    · rw [hphase] at hp
      exact (Phase.expire.inj hp).symm
    · obtain ⟨before, -, hexpired⟩ := Option.bind_eq_some_iff.mp hc
      exact absurd httl (expired_ttl hexpired)
  | reset key =>
    rw [sendCommand_reset hphase]
    exact attended_update h (fun key' hp => by rw [hphase] at hp; cases hp)
      fun _ hc => by cases hc

/-- A step leaves no counter without expiry behind exactly if it is not the stop of the only client
that was about to set one. -/
theorem attended_step_iff (o : Op) (h : Attended s) :
    Attended (step cfg s o) ↔ LeavesNone s o := by
  cases o with
  | attempt client clientId valid storeDown =>
    refine iff_of_true ?_ fun _ _ _ ho => by cases ho
    rw [step]
    split
    · exact h
    · next hgo =>
      have hidle : s.phase client = .idle := by
        by_contra hne
        exact hgo (.inl hne)
      intro key counter hcounter httl
      refine exists_other ?_ (h key counter hcounter httl) _
      rw [hidle]
      exact fun hp => by cases hp
  | send client => exact iff_of_true (attended_send client h) fun _ _ _ ho => by cases ho
  | stop client =>
    constructor
    · rintro hnext _ key counter ⟨rfl⟩ hphase hcounter httl
      obtain ⟨other, hother⟩ := hnext key counter hcounter httl
      have hother : Function.update s.phase client .idle other = .expire key := hother
      have hne : other ≠ client := by
        rintro rfl
        rw [Function.update_self] at hother
        cases hother
      rw [Function.update_of_ne hne] at hother
      exact ⟨other, hne, hother⟩
    · intro hleaves key counter hcounter httl
      by_cases hphase : s.phase client = .expire key
      · obtain ⟨other, hne, hother⟩ := hleaves client key counter rfl hphase hcounter httl
        exact ⟨other, (Function.update_of_ne hne _ _).trans hother⟩
      · exact exists_other hphase (h key counter hcounter httl) .idle
  | second =>
    refine iff_of_true (fun key counter hc httl => ?_) fun _ _ _ ho => by cases ho
    obtain ⟨before, hbefore, haged⟩ := Option.bind_eq_some_iff.mp hc
    exact h key before hbefore ((aged_ttl haged).mp httl)

/-! ### Time -/

/-- The counters when nothing happens for a while. -/
theorem counters_seconds (n : ℕ) (key : Str) :
    (run (step cfg) s (List.replicate n .second)).counters key =
      (fun entry : Option Counter => entry.bind aged)^[n] (s.counters key) := by
  induction n generalizing s with
  | zero => rfl
  | succ n ih =>
    rw [List.replicate_succ, run_cons, ih, Function.iterate_succ_apply]
    rfl

/-- A counter with an expiry is gone in the end, one without it stays. -/
theorem exists_iterate_aged_iff (counter : Counter) :
    (∃ n, (fun entry : Option Counter => entry.bind aged)^[n] (some counter) = none) ↔
      counter.ttl ≠ none := by
  constructor
  · rintro ⟨n, hn⟩ hnone
    have hstays : ∀ n, (fun entry : Option Counter => entry.bind aged)^[n] (some counter) =
        some counter := by
      intro n
      induction n with
      | zero => rfl
      | succ n ih =>
        have haged : aged counter = some counter := by rw [aged, hnone]
        rw [Function.iterate_succ_apply, Option.bind_some, haged, ih]
    rw [hstays n] at hn
    cases hn
  · intro hsome
    obtain ⟨m, hm⟩ := Option.ne_none_iff_exists'.mp hsome
    induction m generalizing counter with
    | zero =>
      refine ⟨1, ?_⟩
      rw [Function.iterate_one, Option.bind_some, aged, hm]
      rfl
    | succ m ih =>
      by_cases hlast : m = 0
      · refine ⟨1, ?_⟩
        rw [Function.iterate_one, Option.bind_some, aged, hm, hlast]
        rfl
      · obtain ⟨n, hn⟩ := ih { counter with ttl := some m } (Option.some_ne_none _) rfl
        refine ⟨n + 1, ?_⟩
        have hage : aged counter = some { counter with ttl := some m } := by
          have hgt : ¬ m + 1 ≤ 1 := by omega
          rw [aged, hm]
          exact if_neg hgt
        rw [Function.iterate_succ_apply, Option.bind_some, hage, hn]

/-- The counters that have an expiry are those that time alone removes. -/
theorem allExpire_iff_ends (cfg : Settings) (s : State) :
    AllExpire s ↔
      ∀ key, ∃ n, (run (step cfg) s (List.replicate n .second)).counters key = none := by
  simp only [counters_seconds]
  constructor
  · intro h key
    cases hcounter : s.counters key with
    | none => exact ⟨0, rfl⟩
    | some counter => exact (exists_iterate_aged_iff counter).mpr (h key counter hcounter)
  · intro h key counter hcounter
    have hends := h key
    rw [hcounter] at hends
    exact (exists_iterate_aged_iff counter).mp hends

/-! ### Locks without end -/

/-- A counter at the threshold that has no expiry, and that no client is about to expire or
reset. -/
structure Stuck (cfg : Settings) (s : State) (key : Str) : Prop where
  counter : ∃ c : Counter, s.counters key = some c ∧ c.ttl = none ∧ 1 ≤ c.count ∧
    cfg.threshold ≤ c.count
  phase : ∀ client, s.phase client ≠ .expire key ∧ s.phase client ≠ .reset key

/-- A look at the counter of the key is answered. -/
def Answered (key : Str) (o : Op) : Prop :=
  ∀ client clientId valid, o = .attempt client clientId valid true → lockoutKey clientId ≠ key

theorem Stuck.isLocked {key : Str} (h : Stuck cfg s key) :
    isLocked cfg.threshold (s.counters key) = true := by
  obtain ⟨c, hc, -, -, hthreshold⟩ := h.counter
  rw [hc]
  exact decide_eq_true hthreshold

/-- A client turns to another key, or to one more failure. -/
theorem Stuck.update {key : Str} (h : Stuck cfg s key) {client : ℕ} {phase : Phase}
    {counters : Str → Option Counter}
    (hcounter : ∃ c : Counter, counters key = some c ∧ c.ttl = none ∧ 1 ≤ c.count ∧
      cfg.threshold ≤ c.count)
    (hphase : phase ≠ .expire key ∧ phase ≠ .reset key) :
    Stuck cfg ⟨counters, Function.update s.phase client phase⟩ key := by
  refine ⟨hcounter, fun c => ?_⟩
  dsimp only
  by_cases hc : c = client
  · rw [hc, Function.update_self]
    exact hphase
  · rw [Function.update_of_ne hc]
    exact h.phase c

theorem Stuck.send {key : Str} (h : Stuck cfg s key) (client : ℕ) :
    Stuck cfg (sendCommand cfg s client) key := by
  obtain ⟨c, hc, httl, hpos, hthreshold⟩ := h.counter
  have hkept : ∀ {key' : Str}, key' ≠ key → ∀ entry, ∃ c : Counter,
      Function.update s.counters key' entry key = some c ∧ c.ttl = none ∧ 1 ≤ c.count ∧
        cfg.threshold ≤ c.count := fun hne entry =>
    ⟨c, (Function.update_of_ne hne.symm _ _).trans hc, httl, hpos, hthreshold⟩
  cases hphase : s.phase client with
  | idle =>
    rw [sendCommand_idle hphase]
    exact h
  | incr key' =>
    rw [sendCommand_incr hphase]
    by_cases hkey : key' = key
    · have hne : c.count + 1 ≠ 1 := by omega
      rw [hkey, hc, Option.getD_some, if_neg hne]
      refine h.update ⟨_, Function.update_self .., httl, ?_, ?_⟩ ⟨nofun, nofun⟩
      · dsimp only
        omega
      · dsimp only
        omega
    · refine h.update (hkept hkey _) ?_
      split
      · exact ⟨fun hp => hkey (Phase.expire.inj hp), nofun⟩
      · exact ⟨nofun, nofun⟩
  | expire key' =>
    rw [sendCommand_expire hphase]
    have hkey : key' ≠ key := fun heq => (h.phase client).1 (heq ▸ hphase)
    exact h.update (hkept hkey _) ⟨nofun, nofun⟩
  | reset key' =>
    rw [sendCommand_reset hphase]
    have hkey : key' ≠ key := fun heq => (h.phase client).2 (heq ▸ hphase)
    exact h.update (hkept hkey _) ⟨nofun, nofun⟩

theorem Stuck.step {key : Str} (h : Stuck cfg s key) (o : Op) (ho : Answered key o) :
    Stuck cfg (step cfg s o) key := by
  cases o with
  | attempt client clientId valid storeDown =>
    rw [Lockout.step]
    split
    · exact h
    · next hgo =>
      have hkey : lockoutKey clientId ≠ key := by
        rintro rfl
        cases storeDown with
        | true => exact ho client clientId valid rfl rfl
        | false => exact hgo (.inr ⟨rfl, h.isLocked⟩)
      refine h.update h.counter ?_
      split
      · exact ⟨nofun, fun hp => hkey (Phase.reset.inj hp)⟩
      · exact ⟨nofun, nofun⟩
  | send client => exact h.send client
  | stop client => exact h.update h.counter ⟨nofun, nofun⟩
  | second =>
    obtain ⟨c, hc, httl, hpos, hthreshold⟩ := h.counter
    refine ⟨⟨c, ?_, httl, hpos, hthreshold⟩, h.phase⟩
    have haged : aged c = some c := by rw [aged, httl]
    exact (congrArg (Option.bind · aged) hc).trans haged

/-- Whatever follows, a counter at the threshold without an expiry blocks its client id, as long as
the store answers. -/
theorem locked_of_stuck {key : Str} (h : Stuck cfg s key) {ops : List Op}
    (hops : ∀ o ∈ ops, Answered key o) :
    isLocked cfg.threshold ((run (step cfg) s ops).counters key) = true := by
  have hstuck : ∀ ops : List Op, (∀ o ∈ ops, Answered key o) → ∀ s, Stuck cfg s key →
      Stuck cfg (run (Lockout.step cfg) s ops) key := by
    intro ops
    induction ops with
    | nil => exact fun _ _ h => h
    | cons o ops ih =>
      intro hops s h
      obtain ⟨ho, hops⟩ := List.forall_mem_cons.mp hops
      exact ih hops _ (h.step o ho)
  exact (hstuck ops hops s h).isLocked

/-- The failures of a client id have reached the threshold, and nothing is to expire them. -/
def stuckState : State :=
  ⟨Function.update (fun _ => none) (lockoutKey (str "id")) (some ⟨10, none⟩), fun _ => .idle⟩

theorem locked_of_stuck_id :
    isLocked 10 ((run (step ⟨10, 300⟩) stuckState
      [.second, .attempt 0 (str "id") true false, .send 0]).counters (lockoutKey (str "id"))) =
        true := by
  have hcounter : stuckState.counters (lockoutKey (str "id")) = some ⟨10, none⟩ := by
    simp [stuckState]
  have hstuck : Stuck ⟨10, 300⟩ stuckState (lockoutKey (str "id")) :=
    ⟨⟨⟨10, none⟩, hcounter, rfl, by decide, by decide⟩, fun _ => ⟨nofun, nofun⟩⟩
  refine locked_of_stuck hstuck fun o ho client clientId valid heq => ?_
  subst heq
  simp at ho

/-! ### Runs -/

/-- Along every run of attempts, every counter has an expiry exactly if no attempt makes one; every
counter has an expiry or a client that is about to set it exactly if no client stops that is the
only one to do so; and the counters with an expiry are those that time alone removes. -/
theorem lockout_expiry_iff (cfg : Settings) (ops : List Op) :
    ((∀ pre, pre <+: ops → AllExpire (run (step cfg) start pre)) ↔
        Along (step cfg) MakesNone start ops) ∧
      ((∀ pre, pre <+: ops → Attended (run (step cfg) start pre)) ↔
        Along (step cfg) LeavesNone start ops) ∧
      ∀ s, AllExpire s ↔
        ∀ key, ∃ n, (run (step cfg) s (List.replicate n .second)).counters key = none :=
  ⟨forall_prefix_iff_along (fun _ o h => allExpire_step_iff o h) (fun _ _ hc => by cases hc) ops,
    forall_prefix_iff_along (fun _ o h => attended_step_iff o h) (fun _ _ hc => by cases hc) ops,
    allExpire_iff_ends cfg⟩

/-- A failed exchange of a client that stops after its first command, and nine more. -/
def stoppedRun : List Op :=
  [.attempt 0 (str "id") false false, .send 0, .stop 0] ++
    (List.replicate 9 [.attempt 0 (str "id") false false, .send 0]).flatten

theorem not_lockout_expiry : ¬ ∀ (cfg : Settings) (ops : List Op),
    AllExpire (run (step cfg) start ops) := by
  intro h
  have hcounter : (run (step ⟨10, 300⟩) start stoppedRun).counters (lockoutKey (str "id")) =
      some ⟨10, none⟩ := by
    decide +kernel
  exact h ⟨10, 300⟩ stoppedRun _ _ hcounter rfl

end Vat.Lockout
