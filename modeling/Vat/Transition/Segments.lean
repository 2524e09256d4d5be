import Mathlib.Algebra.GroupWithZero.Nat
import Mathlib.Data.List.Count

/-!
# A sequence of events in segments

Events arrive one after another, and the segment that receives them is closed now and then. The
segments one after another are the events in their order, so that each event is in exactly one of
them.

## Main definitions

* `Segments`, `Segments.events`, `Segments.close`, `Segments.push`.

## Main results

* `Segments.events_close`, `Segments.events_push`: what is in the segments after a step.
* `Segments.sum_countP`: the counts of the segments add up.
-/

namespace Transition

/-- The segments that are closed, and the one that is open. -/
structure Segments (ε : Type*) where
  closed : List (List ε)
  pending : List ε

namespace Segments

variable {ε : Type*} (s : Segments ε)

/-- No event yet. -/
def empty : Segments ε := ⟨[], []⟩

/-- All events, in the order in which they came. -/
def events : List ε := s.closed.flatten ++ s.pending

/-- The open segment is closed. -/
def close : Segments ε := ⟨s.closed ++ [s.pending], []⟩

/-- One more event. -/
def push (e : ε) : Segments ε := { s with pending := s.pending ++ [e] }

@[simp] theorem events_empty : (empty : Segments ε).events = [] := rfl

@[simp] theorem events_close : s.close.events = s.events := by
  simp [close, events]

@[simp] theorem events_push (e : ε) : (s.push e).events = s.events ++ [e] := by
  simp [push, events]

/-- The events of a kind in the segments are those of the sequence. -/
theorem sum_countP (p : ε → Bool) :
    (s.closed.map (List.countP p)).sum + s.pending.countP p = s.events.countP p := by
  rw [events, List.countP_append, List.countP_flatten]

end Segments

end Transition
