import Mathlib.Data.NNRat.Defs
import Mathlib.Data.Rat.Floor
import Mathlib.Logic.Function.Basic
import Mathlib.Tactic.Linarith
import Vat.Sorted.Lists
import Vat.Transition.Run

/-!
# Pacing of the requests to Aikido

Every process that calls Aikido reserves a slot on one schedule in the store: the key holds the time
from which the next request may start, and a reservation moves it on by the gap. A process that gets
a 429 moves it to the end of its backoff. The script that reserves is atomic, but the process reads
the clock before it runs; its reply is cut to whole milliseconds; a wait is capped at two minutes;
and the key is forgotten five minutes after it was last written. A process that gets no reply paces
itself with a time of its own.

In a run of any number of processes, the slots are a gap apart, none of them lies in a backoff, the
store knows what has been reserved, and no request starts before its slot but for what the reply was
cut by, exactly if the key never runs out while its schedule lies ahead, no process that finds no
key comes with an old time, and no slot lies more than the cap ahead (`scheduled_iff`). As long as
nothing is written five minutes ahead, this bounds the requests in any window
(`requests_in_window`).

Times are in milliseconds, as exact numbers.

Source: `backend/app/core/rate_limit.py`, lines 130–204; `backend/app/adapters/aikido.py`, lines
49–51 and 105–145.

## Main definitions

* `Pacing.State`, `Pacing.Op`, `Pacing.step`: the key, what was reserved, and what happens.
* `Pacing.Scheduled`: what the schedule is for.
* `Pacing.Kept`, `Pacing.Near`: the steps that respect the expiry of the key and the cap.

## Main results

* `Pacing.own_spaced`: requests that a process paces itself.
* `Pacing.scheduled_iff`, `Pacing.requests_in_window`.
-/

namespace Vat.Pacing

open Transition Sorted

/-! ### The schedule and the processes -/

/-- The value of the key, and when it expires. -/
structure Entry where
  next : ℚ
  expires : ℚ
  deriving DecidableEq

/-- A reserved slot: the gap after it, and when the request starts, if the reply came. -/
structure Grant where
  slot : ℚ
  gap : ℕ
  start : Option ℚ
  deriving DecidableEq

/-- What moves the schedule on. -/
inductive Event
  | granted (g : Grant)
  | backedOff (ends : ℚ)
  deriving DecidableEq

/-- The time that a grant keeps free of others. -/
def Grant.free (g : Grant) : ℚ := g.slot + g.gap

def Event.free : Event → ℚ
  | .granted g => g.free
  | .backedOff ends => ends

def Event.grant? : Event → Option Grant
  | .granted g => some g
  | .backedOff _ => none

/-- The time of a process's last own request, and when it wakes for the next one, if it holds the
lock, with the gap it keeps. -/
structure Pace where
  last : ℚ
  waking : Option (ℚ × ℕ)
  deriving DecidableEq

/-- A request that a process paced itself. -/
structure OwnRequest where
  process : ℕ
  time : ℚ
  gap : ℕ
  deriving DecidableEq

/-- The clock, the key, the processes; the history, the latest first. -/
structure State where
  clock : ℚ
  entry : Option Entry
  pace : ℕ → Pace
  events : List Event
  own : List OwnRequest

/-- What happens: a process that has read the clock runs the script, and its request starts some
time after the reply and the wait, if there is a reply; a process without one takes the lock, and
wakes; a process notes a 429, with the number in the header, if any; time passes. -/
inductive Op
  | reserve (now : ℚ) (gap : ℕ) (delay : Option ℚ≥0)
  | enter (process gap : ℕ)
  | wake (process : ℕ)
  | note (now : ℚ) (retryAfter : Option ℚ) (gap : ℕ)
  | pass (d : ℚ≥0)
  deriving DecidableEq

/-- `_GAP_TTL_MS`. -/
def gapTtlMs : ℚ := 300000

/-- `_MAX_WAIT_SECONDS`, in milliseconds. -/
def maxWait : ℚ := 120000

/-- The entry of the key, when it has not expired. -/
def State.live (s : State) : Option Entry := s.entry.filter fun e => s.clock < e.expires

/-- The number the scripts read. -/
def State.next (s : State) : ℚ := s.live.elim 0 Entry.next

/-- `PSETEX`. -/
def State.write (s : State) (next : ℚ) : State :=
  { s with entry := some ⟨next, s.clock + gapTtlMs⟩ }

/-- `_GAP_LUA`: the value written, and the reply. -/
def gapLua (nxt now : ℚ) (gap : ℕ) : ℚ × ℚ :=
  if nxt ≤ now then (now + gap, 0) else (nxt + gap, nxt - now)

/-- `acquire_gap_slot`: the wait. The store replies with a whole number. -/
def acquireGapSlot (reply : ℚ) : ℚ := min (max ⌊reply⌋ 0) maxWait

/-- `_note_aikido_429`: how long everybody backs off. -/
def noteAikido429 (retryAfter : Option ℚ) (gap : ℕ) : ℚ := max (retryAfter.getD 60) (gap / 1000)

/-- `note_upstream_backoff`: the end of a backoff. -/
def backoffUntil (now retryAfter : ℚ) : ℚ := now + max retryAfter 0 * 1000

def step (s : State) : Op → State
  | .reserve now gap delay =>
    if 0 < now ∧ now ≤ s.clock then
      let (next, reply) := gapLua s.next now gap
      let start := delay.map fun d : ℚ≥0 => s.clock + acquireGapSlot reply + d
      { s.write next with events := .granted ⟨next - gap, gap, start⟩ :: s.events }
    else s
  | .enter process gap =>
    if (s.pace process).waking = none then
      let wake := max s.clock ((s.pace process).last + gap)
      { s with
        pace := Function.update s.pace process { s.pace process with waking := some (wake, gap) } }
    else s
  | .wake process =>
    match (s.pace process).waking with
    | none => s
    | some (wake, gap) =>
      if wake ≤ s.clock then
        { s with
          pace := Function.update s.pace process ⟨s.clock, none⟩
          own := ⟨process, s.clock, gap⟩ :: s.own }
      else s
  | .note now retryAfter gap =>
    if 0 < now ∧ now ≤ s.clock then
      let ends := backoffUntil now (noteAikido429 retryAfter gap)
      { if s.next < ends then s.write ends else s with events := .backedOff ends :: s.events }
    else s
  | .pass d => { s with clock := s.clock + d }

/-- Nothing is reserved, and no process has made a request. -/
def start (clock : ℚ) : State := ⟨clock, none, fun _ => ⟨0, none⟩, [], []⟩

/-- The reserved slots. -/
def State.grants (s : State) : List Grant := s.events.filterMap Event.grant?

/-! ### What the schedule is for -/

/-- A slot comes after what was reserved, or backed off, before it. -/
def Event.Follows (later earlier : Event) : Prop :=
  ∀ g, later = .granted g → earlier.free ≤ g.slot

/-- A request starts no earlier than its slot, but for less than a millisecond. -/
def Grant.OnTime (g : Grant) : Prop := ∀ t, g.start = some t → g.slot - 1 < t

/-- The store knows what has been reserved: the key is as late as all of it, or it is past. -/
def Covered (s : State) : Prop := ∀ e ∈ s.events, e.free ≤ s.live.elim s.clock Entry.next

/-- What the schedule is for. -/
structure Scheduled (s : State) : Prop where
  spaced : s.events.Pairwise Event.Follows
  onTime : ∀ g ∈ s.grants, g.OnTime
  covered : Covered s

/-- The key does not run out while its schedule lies ahead, and who finds no key has read the clock
after all that was reserved, or backs off beyond it. -/
def Kept (s : State) : Op → Prop
  | .reserve now _ _ => 0 < now → now ≤ s.clock → s.live = none → ∀ e ∈ s.events, e.free ≤ now
  | .note now retryAfter gap =>
    0 < now → now ≤ s.clock → s.live = none →
      ∀ e ∈ s.events, e.free ≤ backoffUntil now (noteAikido429 retryAfter gap)
  | .pass d => ∀ e, s.live = some e → e.expires ≤ s.clock + d → e.next ≤ s.clock + d
  | _ => True

/-- The slot is not more than the cap ahead of the reply, but for the millisecond. -/
def Near (s : State) : Op → Prop
  | .reserve now _ delay => 0 < now → now ≤ s.clock → ∀ d ∈ delay,
      max s.next now < s.clock + d + maxWait + 1
  | _ => True

instance (s : State) (o : Op) : Decidable (Near s o) := by
  unfold Near
  cases o <;> exact inferInstance

/-! ### The key and what it stands for -/

theorem live_eq_some_iff {s : State} {e : Entry} :
    s.live = some e ↔ s.entry = some e ∧ s.clock < e.expires := by
  rw [State.live, Option.filter_eq_some_iff, decide_eq_true_eq]

theorem next_of_live {s : State} {e : Entry} (h : s.live = some e) : s.next = e.next := by
  rw [State.next, h, Option.elim_some]

theorem next_of_not_live {s : State} (h : s.live = none) : s.next = 0 := by
  rw [State.next, h, Option.elim_none]

@[simp] theorem live_write (s : State) (next : ℚ) :
    (s.write next).live = some ⟨next, s.clock + gapTtlMs⟩ := by
  refine live_eq_some_iff.mpr ⟨rfl, ?_⟩
  change s.clock < s.clock + gapTtlMs
  simp [gapTtlMs]

/-- The key stands for something that was reserved or backed off. -/
def Attained (s : State) : Prop := ∀ e, s.entry = some e → ∃ ev ∈ s.events, ev.free = e.next

theorem gapLua_fst (nxt now : ℚ) (gap : ℕ) : (gapLua nxt now gap).1 = max nxt now + gap := by
  unfold gapLua
  split_ifs with h
  · rw [max_eq_right h]
  · rw [max_eq_left (not_le.mp h).le]

theorem gapLua_snd (nxt now : ℚ) (gap : ℕ) : (gapLua nxt now gap).2 = max nxt now - now := by
  unfold gapLua
  split_ifs with h
  · rw [max_eq_right h, sub_self]
  · rw [max_eq_left (not_le.mp h).le]

/-- A request waits for its slot, but for less than a millisecond, unless the cap ends its wait. -/
theorem slot_lt_iff {slot now clock d : ℚ} (hnow : now ≤ clock) (hd : 0 ≤ d) (hslot : now ≤ slot) :
    slot - 1 < clock + acquireGapSlot (slot - now) + d ↔ slot < clock + d + maxWait + 1 := by
  have hfloor : ⌊slot - now⌋ ≤ slot - now := Int.floor_le _
  have hlt : slot - now < ⌊slot - now⌋ + 1 := Int.lt_floor_add_one _
  have hnonneg : (0 : ℚ) ≤ ⌊slot - now⌋ := by
    exact_mod_cast Int.floor_nonneg.mpr (sub_nonneg.mpr hslot)
  rw [acquireGapSlot, max_eq_left hnonneg]
  rcases le_total (⌊slot - now⌋ : ℚ) maxWait with h | h
  · rw [min_eq_left h]
    constructor <;> intro <;> linarith
  · rw [min_eq_right h]
    constructor <;> intro <;> linarith

/-! ### One step -/

/-- The grant of a reservation. -/
theorem step_reserve {s : State} {now : ℚ} (hpos : 0 < now) (hnow : now ≤ s.clock) (gap : ℕ)
    (delay : Option ℚ≥0) :
    step s (.reserve now gap delay) =
      { s.write (max s.next now + gap) with
        events := .granted ⟨max s.next now, gap, delay.map fun d : ℚ≥0 =>
          s.clock + acquireGapSlot (max s.next now - now) + d⟩ :: s.events } := by
  simp only [step, hpos, hnow, and_self, if_true, gapLua_fst, gapLua_snd, add_sub_cancel_right]

theorem step_note {s : State} {now : ℚ} (hpos : 0 < now) (hnow : now ≤ s.clock)
    (retryAfter : Option ℚ) (gap : ℕ) :
    step s (.note now retryAfter gap) =
      { if s.next < backoffUntil now (noteAikido429 retryAfter gap) then
          s.write (backoffUntil now (noteAikido429 retryAfter gap)) else s with
        events := .backedOff (backoffUntil now (noteAikido429 retryAfter gap)) :: s.events } := by
  simp only [step, hpos, hnow, and_self, if_true]

/-- Steps of a process with its own time leave the schedule alone. -/
theorem scheduled_congr {s t : State} (hclock : t.clock = s.clock) (hentry : t.entry = s.entry)
    (hevents : t.events = s.events) : Scheduled t ↔ Scheduled s := by
  have hlive : t.live = s.live := by rw [State.live, State.live, hclock, hentry]
  have hgrants : t.grants = s.grants := by rw [State.grants, State.grants, hevents]
  have hcov : Covered t ↔ Covered s := by rw [Covered, Covered, hclock, hlive, hevents]
  constructor
  · rintro ⟨h1, h2, h3⟩
    exact ⟨hevents ▸ h1, hgrants ▸ h2, hcov.mp h3⟩
  · rintro ⟨h1, h2, h3⟩
    exact ⟨hevents.symm ▸ h1, hgrants.symm ▸ h2, hcov.mpr h3⟩

theorem step_enter (s : State) (process gap : ℕ) :
    (step s (.enter process gap)).clock = s.clock ∧ (step s (.enter process gap)).entry = s.entry ∧
      (step s (.enter process gap)).events = s.events := by
  simp only [step]
  split <;> exact ⟨rfl, rfl, rfl⟩

theorem step_wake (s : State) (process : ℕ) :
    (step s (.wake process)).clock = s.clock ∧ (step s (.wake process)).entry = s.entry ∧
      (step s (.wake process)).events = s.events := by
  simp only [step]
  split
  · exact ⟨rfl, rfl, rfl⟩
  · split <;> exact ⟨rfl, rfl, rfl⟩

theorem attained_step (s : State) (o : Op) (h : Attained s) : Attained (step s o) := by
  cases o with
  | reserve now gap delay =>
    by_cases hv : 0 < now ∧ now ≤ s.clock
    · rw [step_reserve hv.1 hv.2]
      rintro e ⟨⟩
      exact ⟨_, List.mem_cons_self, rfl⟩
    · simpa only [step, if_neg hv] using h
  | note now retryAfter gap =>
    by_cases hv : 0 < now ∧ now ≤ s.clock
    · rw [step_note hv.1 hv.2]
      intro e he
      by_cases hlt : s.next < backoffUntil now (noteAikido429 retryAfter gap)
      · simp only [if_pos hlt] at he
        cases he
        exact ⟨_, List.mem_cons_self, rfl⟩
      · simp only [if_neg hlt] at he
        obtain ⟨ev, hev, heq⟩ := h e he
        exact ⟨ev, List.mem_cons_of_mem _ hev, heq⟩
    · simpa only [step, if_neg hv] using h
  | enter process gap =>
    obtain ⟨-, he, hev⟩ := step_enter s process gap
    rwa [Attained, he, hev]
  | wake process =>
    obtain ⟨-, he, hev⟩ := step_wake s process
    rwa [Attained, he, hev]
  | pass d => exact h

/-- The latest event joins a schedule. -/
theorem scheduled_of_cons {s t : State} {ev : Event} (hs : Scheduled s)
    (hevents : t.events = ev :: s.events) :
    Scheduled t ↔ (∀ e ∈ s.events, ev.Follows e) ∧ (∀ g, ev = .granted g → g.OnTime) ∧
      Covered t := by
  have hgrants : (∀ g ∈ t.grants, g.OnTime) ↔ ∀ g, ev = .granted g → g.OnTime := by
    rw [State.grants, hevents]
    cases ev with
    | granted g =>
      have hfm : (Event.granted g :: s.events).filterMap Event.grant? = g :: s.grants :=
        List.filterMap_cons_some rfl
      rw [hfm, List.forall_mem_cons]
      simpa using fun _ => hs.onTime
    | backedOff ends =>
      have hfm : (Event.backedOff ends :: s.events).filterMap Event.grant? = s.grants :=
        List.filterMap_cons_none rfl
      rw [hfm]
      simpa using hs.onTime
  constructor
  · rintro ⟨h1, h2, h3⟩
    rw [hevents, List.pairwise_cons] at h1
    exact ⟨h1.1, hgrants.mp h2, h3⟩
  · rintro ⟨h1, h2, h3⟩
    exact ⟨hevents ▸ List.pairwise_cons.mpr ⟨h1, hs.spaced⟩, hgrants.mpr h2, h3⟩

/-- The slot of a reservation comes after all that was reserved exactly if the key says so, or who
reserves has read the clock late enough. -/
theorem le_slot_iff {s : State} {now : ℚ} (hs : Covered s) (hpos : 0 < now) :
    (∀ e ∈ s.events, e.free ≤ max s.next now) ↔
      (s.live = none → ∀ e ∈ s.events, e.free ≤ now) := by
  cases hl : s.live with
  | none => simp only [next_of_not_live hl, max_eq_right hpos.le, forall_const]
  | some e =>
    simp only [reduceCtorEq, false_imp_iff, iff_true]
    intro ev hev
    have hcov := hs ev hev
    rw [hl, Option.elim_some] at hcov
    exact hcov.trans ((next_of_live hl).symm.le.trans (le_max_left _ _))

theorem scheduled_reserve_iff {s : State} (hs : Scheduled s) {now : ℚ} (hpos : 0 < now)
    (hnow : now ≤ s.clock) (gap : ℕ) (delay : Option ℚ≥0) :
    Scheduled (step s (.reserve now gap delay)) ↔
      (s.live = none → ∀ e ∈ s.events, e.free ≤ now) ∧
        ∀ d ∈ delay, max s.next now < s.clock + d + maxWait + 1 := by
  rw [step_reserve hpos hnow, scheduled_of_cons hs rfl, ← le_slot_iff hs.covered hpos]
  have hontime : (∀ g, Event.granted ⟨max s.next now, gap, delay.map fun d : ℚ≥0 =>
      s.clock + acquireGapSlot (max s.next now - now) + d⟩ = .granted g → g.OnTime) ↔
      ∀ d ∈ delay, max s.next now < s.clock + d + maxWait + 1 := by
    simp only [Event.granted.injEq, forall_eq', Grant.OnTime, Option.map_eq_some_iff,
      forall_exists_index, and_imp, forall_apply_eq_imp_iff₂]
    exact forall₂_congr fun (d : ℚ≥0) _ => slot_lt_iff hnow d.2 (le_max_right _ _)
  rw [hontime]
  constructor
  · rintro ⟨h1, h2, -⟩
    exact ⟨fun e he => h1 e he _ rfl, h2⟩
  · rintro ⟨h1, h2⟩
    refine ⟨?_, h2, ?_⟩
    · rintro e he g ⟨⟩
      exact h1 e he
    · intro e he
      have hgap : (0 : ℚ) ≤ gap := Nat.cast_nonneg gap
      change e.free ≤ (s.write (max s.next now + gap)).live.elim s.clock Entry.next
      rw [live_write, Option.elim_some]
      rcases List.mem_cons.mp he with rfl | he
      · exact le_rfl
      · have := h1 e he
        change e.free ≤ max s.next now + gap
        linarith

theorem scheduled_note_iff {s : State} (hs : Scheduled s) {now : ℚ} (hpos : 0 < now)
    (hnow : now ≤ s.clock) (retryAfter : Option ℚ) (gap : ℕ) :
    Scheduled (step s (.note now retryAfter gap)) ↔
      (s.live = none →
        ∀ e ∈ s.events, e.free ≤ backoffUntil now (noteAikido429 retryAfter gap)) := by
  set ends := backoffUntil now (noteAikido429 retryAfter gap) with hends
  have hendspos : 0 < ends := by
    have : (0 : ℚ) ≤ max (noteAikido429 retryAfter gap) 0 := le_max_right _ _
    rw [hends, backoffUntil]
    linarith
  rw [step_note hpos hnow, ← hends, scheduled_of_cons hs rfl]
  have hfollows : ∀ e ∈ s.events, (Event.backedOff ends).Follows e := by
    rintro e - g ⟨⟩
  have hontime : ∀ g, Event.backedOff ends = .granted g → g.OnTime := by
    rintro g ⟨⟩
  simp only [eq_true hfollows, eq_true hontime, true_and]
  cases hl : s.live with
  | none =>
    rw [if_pos ((next_of_not_live hl).trans_lt hendspos)]
    change (∀ e ∈ Event.backedOff ends :: s.events,
      e.free ≤ (s.write ends).live.elim s.clock Entry.next) ↔ _
    rw [live_write, Option.elim_some, List.forall_mem_cons]
    simp [Event.free]
  | some e =>
    have hcov : ∀ ev ∈ s.events, ev.free ≤ e.next := by
      have := hs.covered
      rwa [Covered, hl, Option.elim_some] at this
    simp only [reduceCtorEq, false_imp_iff, iff_true]
    rw [next_of_live hl]
    split_ifs with hlt
    · change ∀ ev ∈ Event.backedOff ends :: s.events,
        ev.free ≤ (s.write ends).live.elim s.clock Entry.next
      rw [live_write, Option.elim_some, List.forall_mem_cons]
      exact ⟨le_rfl, fun ev hev => (hcov ev hev).trans hlt.le⟩
    · change ∀ ev ∈ Event.backedOff ends :: s.events, ev.free ≤ s.live.elim s.clock Entry.next
      rw [hl, Option.elim_some, List.forall_mem_cons]
      exact ⟨not_lt.mp hlt, hcov⟩

theorem live_pass (s : State) (d : ℚ≥0) :
    (step s (.pass d)).live = s.live.filter fun e => s.clock + d < e.expires := by
  have hd : (0 : ℚ) ≤ d := d.2
  rw [State.live, State.live, Option.filter_filter]
  refine congrArg (Option.filter · s.entry) ?_
  funext e
  change decide (s.clock + d < e.expires) = _
  by_cases h : s.clock + d < e.expires
  · simp [h, show s.clock < e.expires by linarith]
  · simp [h]

theorem scheduled_pass_iff {s : State} (hs : Scheduled s) (ha : Attained s) (d : ℚ≥0) :
    Scheduled (step s (.pass d)) ↔
      ∀ e, s.live = some e → e.expires ≤ s.clock + d → e.next ≤ s.clock + d := by
  have hcovered : Scheduled (step s (.pass d)) ↔ Covered (step s (.pass d)) :=
    ⟨Scheduled.covered, fun h => ⟨hs.spaced, hs.onTime, h⟩⟩
  have hd : (0 : ℚ) ≤ d := d.2
  have hcov := hs.covered
  rw [hcovered, Covered, live_pass]
  change (∀ e ∈ s.events, e.free ≤ Option.elim _ (s.clock + d) Entry.next) ↔ _
  rw [Covered] at hcov
  cases hl : s.live with
  | none =>
    rw [hl, Option.elim_none] at hcov
    simp only [Option.filter_none, Option.elim_none, reduceCtorEq, false_imp_iff, implies_true,
      iff_true]
    intro e he
    linarith [hcov e he]
  | some e =>
    rw [hl, Option.elim_some] at hcov
    simp only [Option.some.injEq, forall_eq']
    by_cases hexp : s.clock + d < e.expires
    · rw [Option.filter_some_pos (by simpa using hexp), Option.elim_some]
      exact ⟨fun _ h => absurd hexp (not_lt.mpr h), fun _ => hcov⟩
    · rw [Option.filter_some_neg (by simpa using hexp), Option.elim_none]
      constructor
      · intro h _
        obtain ⟨ev, hev, heq⟩ := ha e (live_eq_some_iff.mp hl).1
        exact heq ▸ h ev hev
      · intro h ev hev
        exact (hcov ev hev).trans (h (not_lt.mp hexp))

/-- In a scheduled state, a step keeps the schedule exactly if it respects the expiry of the key and
the cap. -/
theorem scheduled_step_iff (s : State) (o : Op) (hs : Scheduled s) (ha : Attained s) :
    Scheduled (step s o) ↔ Kept s o ∧ Near s o := by
  cases o with
  | reserve now gap delay =>
    by_cases hv : 0 < now ∧ now ≤ s.clock
    · rw [scheduled_reserve_iff hs hv.1 hv.2, Kept, Near]
      simp only [eq_true hv.1, eq_true hv.2, forall_const]
    · have hstep : step s (.reserve now gap delay) = s := by simp only [step, if_neg hv]
      simp only [hstep, hs, true_iff]
      exact ⟨fun h1 h2 => absurd ⟨h1, h2⟩ hv, fun h1 h2 => absurd ⟨h1, h2⟩ hv⟩
  | note now retryAfter gap =>
    by_cases hv : 0 < now ∧ now ≤ s.clock
    · rw [scheduled_note_iff hs hv.1 hv.2, Kept]
      simp only [eq_true hv.1, eq_true hv.2, forall_const, Near, and_true]
    · have hstep : step s (.note now retryAfter gap) = s := by simp only [step, if_neg hv]
      simp only [hstep, hs, true_iff]
      exact ⟨fun h1 h2 => absurd ⟨h1, h2⟩ hv, trivial⟩
  | enter process gap =>
    obtain ⟨hc, he, hev⟩ := step_enter s process gap
    simpa [Kept, Near] using (scheduled_congr hc he hev).mpr hs
  | wake process =>
    obtain ⟨hc, he, hev⟩ := step_wake s process
    simpa [Kept, Near] using (scheduled_congr hc he hev).mpr hs
  | pass d =>
    rw [scheduled_pass_iff hs ha, Kept]
    exact (and_iff_left trivial).symm

/-! ### Runs -/

theorem attained_start (clock : ℚ) : Attained (start clock) := by
  rintro e ⟨⟩

theorem scheduled_start (clock : ℚ) : Scheduled (start clock) where
  spaced := List.Pairwise.nil
  onTime := by rintro g ⟨⟩
  covered := by rintro e ⟨⟩

/-- Whatever the processes do and however their steps interleave, the schedule does what it is for
exactly if the key never runs out while its schedule lies ahead, whoever finds no key comes with a
time after all that was reserved, and no slot lies more than the cap ahead. -/
theorem scheduled_iff (clock : ℚ) (ops : List Op) :
    (∀ pre, pre <+: ops → Scheduled (run step (start clock) pre)) ↔
      Along step (fun s o => Kept s o ∧ Near s o) (start clock) ops :=
  forall_prefix_iff_along_of_inv scheduled_step_iff (fun s o _ ha _ => attained_step s o ha)
    (scheduled_start clock) (attained_start clock) ops

/-! ### Requests a process paces itself -/

/-- The requests of each process with a time of its own are a gap apart. -/
def OwnSpaced (s : State) : Prop :=
  s.own.Pairwise fun later earlier : OwnRequest =>
    later.process = earlier.process → earlier.time + later.gap ≤ later.time

/-- The time a process keeps is that of its last own request, and it wakes a gap after it. -/
structure OwnPaced (s : State) : Prop where
  spaced : OwnSpaced s
  last : ∀ r ∈ s.own, r.time ≤ (s.pace r.process).last
  waking : ∀ p w g, (s.pace p).waking = some (w, g) → (s.pace p).last + g ≤ w

theorem OwnPaced.of_eq {s t : State} (h : OwnPaced s) (hpace : t.pace = s.pace)
    (hown : t.own = s.own) : OwnPaced t where
  spaced := by rw [OwnSpaced, hown]; exact h.spaced
  last := by rw [hpace, hown]; exact h.last
  waking := by rw [hpace]; exact h.waking

/-- A process takes the lock. -/
theorem ownPaced_enter (s : State) (process gap : ℕ) (h : OwnPaced s) :
    OwnPaced (step s (.enter process gap)) := by
  rw [step]
  split
  · refine ⟨h.spaced, fun r hr => ?_, fun p w g hp => ?_⟩
    · have hr := h.last r hr
      show r.time ≤ (Function.update s.pace process _ r.process).last
      by_cases heq : r.process = process
      · rw [heq, Function.update_self]
        exact heq ▸ hr
      · rwa [Function.update_of_ne heq]
    · change (Function.update s.pace process _ p).waking = _ at hp
      show (Function.update s.pace process _ p).last + g ≤ w
      by_cases heq : p = process
      · rw [heq, Function.update_self] at hp ⊢
        cases hp
        exact le_max_right _ _
      · rw [Function.update_of_ne heq] at hp ⊢
        exact h.waking p w g hp
  · exact h

/-- A process wakes and makes its request. -/
theorem ownPaced_wake (s : State) (process : ℕ) (h : OwnPaced s) :
    OwnPaced (step s (.wake process)) := by
  rw [step]
  split
  · exact h
  rename_i wake gap hwaking
  split
  · rename_i hle
    have hgap : (0 : ℚ) ≤ gap := Nat.cast_nonneg gap
    have hlast := h.waking process wake gap hwaking
    have hbefore : ∀ r ∈ s.own, r.process = process → r.time + gap ≤ s.clock := by
      intro r hr heq
      have := h.last r hr
      rw [heq] at this
      linarith
    refine ⟨List.pairwise_cons.mpr ⟨fun r hr heq => hbefore r hr heq.symm, h.spaced⟩,
      List.forall_mem_cons.mpr ⟨?_, fun r hr => ?_⟩, fun p w g hp => ?_⟩
    · show s.clock ≤ (Function.update s.pace process _ process).last
      rw [Function.update_self]
    · show r.time ≤ (Function.update s.pace process _ r.process).last
      by_cases heq : r.process = process
      · rw [heq, Function.update_self]
        change r.time ≤ s.clock
        linarith [hbefore r hr heq]
      · rw [Function.update_of_ne heq]
        exact h.last r hr
    · change (Function.update s.pace process _ p).waking = _ at hp
      show (Function.update s.pace process _ p).last + g ≤ w
      by_cases heq : p = process
      · rw [heq, Function.update_self] at hp
        cases hp
      · rw [Function.update_of_ne heq] at hp ⊢
        exact h.waking p w g hp
  · exact h

theorem ownPaced_step (s : State) (o : Op) (h : OwnPaced s) : OwnPaced (step s o) := by
  cases o with
  | reserve now gap delay =>
    rw [step]
    split
    · exact h.of_eq rfl rfl
    · exact h
  | enter process gap => exact ownPaced_enter s process gap h
  | wake process => exact ownPaced_wake s process h
  | note now retryAfter gap =>
    rw [step]
    split
    · simp only
      split <;> exact h.of_eq rfl rfl
    · exact h
  | pass d => exact h.of_eq rfl rfl

/-- Without the store, each process still paces its own requests. -/
theorem own_spaced (clock : ℚ) (ops : List Op) : OwnSpaced (run step (start clock) ops) := by
  have hstart : OwnPaced (start clock) :=
    ⟨List.Pairwise.nil, by rintro r ⟨⟩, by rintro p w g ⟨⟩⟩
  exact (run_induction ownPaced_step hstart ops).spaced

/-! ### The rate -/

/-- Nothing is written that lies as far ahead as the key lives, and a process runs the script soon
after it has read the clock. -/
def Short (lag : ℚ) (s : State) : Op → Prop
  | .reserve now gap _ => s.clock ≤ now + lag ∧ max s.next now + gap + lag ≤ s.clock + gapTtlMs
  | .note now retryAfter gap =>
    s.clock ≤ now + lag ∧
      backoffUntil now (noteAikido429 retryAfter gap) + lag ≤ s.clock + gapTtlMs
  | _ => True

instance (lag : ℚ) (s : State) (o : Op) : Decidable (Short lag s o) := by
  unfold Short
  cases o <;> exact inferInstance

/-- The key, expired or not, covers all that was reserved, and expires after its schedule. -/
structure Lasting (lag : ℚ) (s : State) : Prop where
  covers : ∀ ev ∈ s.events, ∃ e, s.entry = some e ∧ ev.free ≤ e.next
  lives : ∀ e, s.entry = some e → e.next + lag ≤ e.expires

/-- Whoever finds no key comes after all that was reserved. -/
theorem Lasting.free_le {lag : ℚ} {s : State} (h : Lasting lag s) (hl : s.live = none) {now : ℚ}
    (hnow : s.clock ≤ now + lag) : ∀ e ∈ s.events, e.free ≤ now := by
  intro ev hev
  obtain ⟨e, he, hfree⟩ := h.covers ev hev
  have hexp : e.expires ≤ s.clock := by
    by_contra hlt
    rw [live_eq_some_iff.mpr ⟨he, not_le.mp hlt⟩] at hl
    cases hl
  linarith [h.lives e he]

theorem Lasting.le_next {lag : ℚ} {s : State} (h : Lasting lag s) {e : Entry}
    (hl : s.live = some e) : ∀ ev ∈ s.events, ev.free ≤ s.next := by
  intro ev hev
  obtain ⟨e', he', hfree⟩ := h.covers ev hev
  rw [(live_eq_some_iff.mp hl).1] at he'
  cases he'
  rwa [next_of_live hl]

/-- What was reserved is over at the end of the schedule, or when the script runs. -/
theorem Lasting.free_le_max {lag : ℚ} {s : State} (h : Lasting lag s) {now : ℚ}
    (hnow : s.clock ≤ now + lag) : ∀ ev ∈ s.events, ev.free ≤ max s.next now := by
  intro ev hev
  cases hl : s.live with
  | none => exact (h.free_le hl hnow ev hev).trans (le_max_right _ _)
  | some e => exact (h.le_next hl ev hev).trans (le_max_left _ _)

theorem le_backoffUntil (now retryAfter : ℚ) : now ≤ backoffUntil now retryAfter := by
  have : (0 : ℚ) ≤ max retryAfter 0 := le_max_right _ _
  rw [backoffUntil]
  linarith

theorem lasting_reserve {lag : ℚ} (s : State) {now : ℚ} {gap : ℕ} {delay : Option ℚ≥0}
    (h : Lasting lag s) (ho : Short lag s (.reserve now gap delay)) :
    Lasting lag (step s (.reserve now gap delay)) := by
  by_cases hv : 0 < now ∧ now ≤ s.clock
  · have hgap : (0 : ℚ) ≤ gap := Nat.cast_nonneg gap
    rw [step_reserve hv.1 hv.2]
    refine ⟨fun ev hev => ⟨_, rfl, ?_⟩, ?_⟩
    · rcases List.mem_cons.mp hev with rfl | hev
      · exact le_rfl
      · change ev.free ≤ max s.next now + gap
        linarith [h.free_le_max ho.1 ev hev]
    · rintro e ⟨⟩
      exact ho.2
  · simpa only [step, if_neg hv] using h

theorem lasting_note {lag : ℚ} (s : State) {now retryAfter : ℚ} {gap : ℕ} (h : Lasting lag s)
    (ho : Short lag s (.note now retryAfter gap)) :
    Lasting lag (step s (.note now retryAfter gap)) := by
  by_cases hv : 0 < now ∧ now ≤ s.clock
  · have hnow := le_backoffUntil now (noteAikido429 retryAfter gap)
    have hlate := ho.2
    rw [step_note hv.1 hv.2]
    generalize backoffUntil now (noteAikido429 retryAfter gap) = ends at hnow hlate
    by_cases hlt : s.next < ends
    · simp only [if_pos hlt]
      refine ⟨fun ev hev => ⟨_, rfl, ?_⟩, ?_⟩
      · change ev.free ≤ ends
        rcases List.mem_cons.mp hev with rfl | hev
        · exact le_rfl
        · exact (h.free_le_max ho.1 ev hev).trans (max_le hlt.le hnow)
      · rintro e ⟨⟩
        exact hlate
    · simp only [if_neg hlt]
      -- The key is there: without it the schedule would end before the backoff.
      cases hl : s.live with
      | none =>
        rw [next_of_not_live hl] at hlt
        exact absurd (hv.1.trans_le hnow) hlt
      | some e =>
        have he := (live_eq_some_iff.mp hl).1
        refine ⟨fun ev hev => ?_, h.lives⟩
        rcases List.mem_cons.mp hev with rfl | hev
        · exact ⟨e, he, (not_lt.mp hlt).trans (next_of_live hl).le⟩
        · exact h.covers ev hev
  · simpa only [step, if_neg hv] using h

theorem lasting_step {lag : ℚ} (s : State) (o : Op) (h : Lasting lag s) (ho : Short lag s o) :
    Lasting lag (step s o) := by
  cases o with
  | reserve now gap delay => exact lasting_reserve s h ho
  | note now retryAfter gap => exact lasting_note s h ho
  | enter process gap =>
    obtain ⟨-, he, hev⟩ := step_enter s process gap
    exact ⟨by rw [he, hev]; exact h.covers, by rw [he]; exact h.lives⟩
  | wake process =>
    obtain ⟨-, he, hev⟩ := step_wake s process
    exact ⟨by rw [he, hev]; exact h.covers, by rw [he]; exact h.lives⟩
  | pass d => exact ⟨h.covers, h.lives⟩

/-- As long as nothing is written that lies too far ahead, the key does not run out early. -/
theorem kept_of_short {lag : ℚ} (hlag : 0 ≤ lag) (s : State) (o : Op) (h : Lasting lag s)
    (ho : Short lag s o) : Kept s o := by
  cases o with
  | reserve now gap delay => exact fun _ _ hl => h.free_le hl ho.1
  | note now retryAfter gap =>
    intro _ _ hl e he
    exact (h.free_le hl ho.1 e he).trans (le_backoffUntil now _)
  | enter process gap => trivial
  | wake process => trivial
  | pass d =>
    intro e hl hexp
    have := h.lives e (live_eq_some_iff.mp hl).1
    change e.next ≤ s.clock + d
    linarith

theorem Event.grant?_eq_some_iff {e : Event} {g : Grant} : e.grant? = some g ↔ e = .granted g := by
  cases e <;> simp [Event.grant?]

theorem Scheduled.grants_spaced {s : State} (h : Scheduled s) :
    Spaced Grant.slot Grant.free s.grants := by
  refine h.spaced.filterMap _ fun later earlier hle g hg g' hg' => ?_
  rw [Event.grant?_eq_some_iff] at hg hg'
  subst hg' hg
  exact hle _ rfl

/-- Of the requests whose slots are not before the window, those that start in it. -/
def sentIn (a b : ℚ) (g : Grant) : Bool := decide (a ≤ g.slot) && g.start.any (· ≤ b)

/-- The requests that all processes together start in a window, when nothing is written that lies
as far ahead as the key lives and no slot lies more than the cap ahead. -/
theorem requests_in_window {clock lag : ℚ} (hlag : 0 ≤ lag) {gap : ℕ} (hgap : 0 < gap)
    {ops : List Op} (h : Along step (fun s o => Short lag s o ∧ Near s o) (start clock) ops)
    (hgaps : ∀ g ∈ (run step (start clock) ops).grants, gap ≤ g.gap) {a b : ℚ} (hab : a ≤ b) :
    (((run step (start clock) ops).grants.filter (sentIn a b)).length : ℚ) * gap <
      b - a + gap + 1 := by
  have hlasting : Lasting lag (start clock) := ⟨by rintro ev ⟨⟩, by rintro e ⟨⟩⟩
  have hkept : Along step (fun s o => Kept s o ∧ Near s o) (start clock) ops :=
    along_of_along (fun s o hs ho => lasting_step s o hs ho.1)
      (fun s o hs ho => ⟨kept_of_short hlag s o hs ho.1, ho.2⟩) hlasting h
  have hstep : ∀ s o, Scheduled s ∧ Attained s → Kept s o ∧ Near s o →
      Scheduled (step s o) ∧ Attained (step s o) :=
    fun s o hs ho => ⟨(scheduled_step_iff s o hs.1 hs.2).mpr ho, attained_step s o hs.2⟩
  have hsched : Scheduled (run step (start clock) ops) :=
    (run_of_along hstep ⟨scheduled_start clock, attained_start clock⟩ hkept).1
  have hmem : ∀ g ∈ (run step (start clock) ops).grants.filter (sentIn a b),
      g ∈ (run step (start clock) ops).grants ∧ a ≤ g.slot ∧ g.slot < b + 1 := by
    intro g hg
    obtain ⟨hg, hsent⟩ := List.mem_filter.mp hg
    rw [sentIn, Bool.and_eq_true, decide_eq_true_eq, Option.any_eq_true] at hsent
    obtain ⟨ha, t, ht, hb⟩ := hsent
    have hstart := hsched.onTime g hg t ht
    exact ⟨hg, ha, by linarith [of_decide_eq_true hb]⟩
  have hfree : ∀ g ∈ (run step (start clock) ops).grants.filter (sentIn a b),
      g.slot + (gap : ℚ) ≤ g.free := by
    intro g hg
    have : (gap : ℚ) ≤ g.gap := by exact_mod_cast hgaps g (hmem g hg).1
    rw [Grant.free]
    linarith
  have hgap' : (0 : ℚ) < gap := by exact_mod_cast hgap
  have hlen := (hsched.grants_spaced.sublist List.filter_sublist).length_lt hfree hgap'
    (fun g hg => (hmem g hg).2.1) (fun g hg => (hmem g hg).2.2) (by linarith)
  linarith

/-- Two processes and a 429: the second and the third request start after the backoff. -/
def twoProcesses : List Op :=
  [.reserve 1000 2500 (some 5), .pass 10, .note 1010 (some 1) 2500, .reserve 1008 2500 (some 3),
    .pass 2000, .reserve 3010 2500 (some 3)]

theorem requests_in_window_twoProcesses :
    (((run step (start 1000) twoProcesses).grants.filter (sentIn 1000 6000)).length : ℚ) * 2500 <
      6000 - 1000 + 2500 + 1 := by
  have h : Along step (fun s o => Short 1000 s o ∧ Near s o) (start 1000) twoProcesses := by
    decide +kernel
  have hgaps : ∀ g ∈ (run step (start 1000) twoProcesses).grants, 2500 ≤ g.gap := by
    decide +kernel
  exact requests_in_window (by norm_num) (by norm_num) h hgaps (by norm_num)

end Vat.Pacing
