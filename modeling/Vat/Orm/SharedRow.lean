import Mathlib.Data.Nat.Notation
import Mathlib.Logic.Function.Basic
import Mathlib.Tactic.SplitIfs

/-!
# A row that sessions share

A session keeps the object that it loaded a row into, for as long as it does not forget it. A select
gives it the object that it holds, with the value that it had, whatever the row has become. When a
new value is assigned to the object, the row is written only if the value differs from that of the
object.

## Main definitions

* `SharedRow.select`, `SharedRow.load`, `SharedRow.hold`, `SharedRow.forget`, `SharedRow.flush`.
* `SharedRow.Forall`: a property of the row and of every object that is held.

## Main results

* `SharedRow.Forall.load`, `SharedRow.Forall.forget`, `SharedRow.Forall.flush`: the operations keep
  such a property.
-/

namespace Orm

/-- A row, and the value of the object that each session holds of it, if any. -/
structure SharedRow (σ : Type*) where
  row : σ
  held : ℕ → Option σ

namespace SharedRow

variable {σ : Type*} (s : SharedRow σ) (w : ℕ)

/-- A row of which no session has an object. -/
def start (row : σ) : SharedRow σ := ⟨row, fun _ => none⟩

/-- What a select gives a session: an object that it holds is not refreshed. -/
def select : σ := (s.held w).getD s.row

/-- The session after a select. -/
def load : SharedRow σ := { s with held := Function.update s.held w (some (s.select w)) }

/-- The object of the session was edited in place. -/
def hold (v : σ) : SharedRow σ := { s with held := Function.update s.held w (some v) }

/-- The session after its end, or after nothing in it referred to the object any more. -/
def forget : SharedRow σ := { s with held := Function.update s.held w none }

/-- A new value for the object, and a commit. -/
def flush (same : σ → σ → Prop) [DecidableRel same] (old new : σ) : SharedRow σ :=
  ⟨if same new old then s.row else new, Function.update s.held w (some new)⟩

@[simp] theorem row_load : (s.load w).row = s.row := rfl

@[simp] theorem row_forget : (s.forget w).row = s.row := rfl

theorem select_eq_row_or : s.select w = s.row ∨ s.held w = some (s.select w) := by
  cases h : s.held w with
  | none => exact .inl (by rw [select, h, Option.getD_none])
  | some v => exact .inr (by rw [select, h, Option.getD_some])

theorem select_of_held_eq_none (h : s.held w = none) : s.select w = s.row := by
  rw [select, h, Option.getD_none]

@[simp] theorem select_forget : (s.forget w).select w = s.row := by
  have hheld : (s.forget w).held w = none := Function.update_self ..
  exact select_of_held_eq_none _ w hheld

/-- The row and every object that is held have the property. -/
def Forall (P : σ → Prop) : Prop := P s.row ∧ ∀ w v, s.held w = some v → P v

variable {s} {P : σ → Prop}

theorem Forall.select (h : s.Forall P) : P (s.select w) := by
  obtain heq | hheld := s.select_eq_row_or w
  · rw [heq]
    exact h.1
  · exact h.2 w _ hheld

theorem Forall.mono {Q : σ → Prop} (h : s.Forall P) (hPQ : ∀ v, P v → Q v) : s.Forall Q :=
  ⟨hPQ _ h.1, fun w v hv => hPQ v (h.2 w v hv)⟩

theorem forall_start {row : σ} (h : P row) : (start row).Forall P := ⟨h, fun _ _ hv => by cases hv⟩

theorem Forall.update (h : s.Forall P) {row : σ} {o : Option σ} (hrow : P row)
    (ho : ∀ v, o = some v → P v) : Forall ⟨row, Function.update s.held w o⟩ P := by
  refine ⟨hrow, fun w' v hv => ?_⟩
  change Function.update s.held w o w' = some v at hv
  by_cases hw : w' = w
  · rw [hw, Function.update_self] at hv
    exact ho v hv
  · rw [Function.update_of_ne hw] at hv
    exact h.2 w' v hv

theorem Forall.load (h : s.Forall P) : (s.load w).Forall P :=
  h.update w h.1 fun _ hv => Option.some.inj hv ▸ h.select w

theorem Forall.forget (h : s.Forall P) : (s.forget w).Forall P :=
  h.update w h.1 fun _ hv => by cases hv

theorem Forall.flush {same : σ → σ → Prop} [DecidableRel same] {old new : σ} (h : s.Forall P)
    (hnew : P new) : (s.flush w same old new).Forall P := by
  refine h.update w ?_ fun _ hv => Option.some.inj hv ▸ hnew
  split_ifs
  · exact h.1
  · exact hnew

end SharedRow

end Orm
