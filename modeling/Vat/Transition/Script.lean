import Mathlib.Data.List.Basic
import Mathlib.Tactic.Tauto

/-!
# Scripts

What a program sends to its environment, depending on what the environment answers. A script sends
something and goes on with the answer, or asks without sending anything, or is done. A run has the
answers in order; where they end, the program is cut short.

What scripts send has a property, whatever the answers are, exactly if it has it at every node
(`Script.forall_run_iff`), so the property is read off from how a script is put together.

## Main definitions

* `Transition.Script`, `Script.run`, `Script.All`.
* `Script.sendAll`, `Script.UpTo`.

## Main results

* `Script.forall_run_iff`.
* `Script.all_sendAll_iff`, `Script.all_foldr_iff`: sending a list, and one script after the other.
-/

namespace Transition

inductive Script (α : Type*)
  | done
  | ask (next : Bool → Script α)
  | send (a : α) (next : Bool → Script α)

namespace Script

variable {α β : Type*}

/-- What is sent when the environment gives these answers. -/
def run : Script α → List Bool → List α
  | .done, _ => []
  | .ask _, [] => []
  | .ask next, b :: answers => (next b).run answers
  | .send a _, [] => [a]
  | .send a next, b :: answers => a :: (next b).run answers

/-- Everything that may be sent has a property. -/
def All (p : α → Prop) : Script α → Prop
  | .done => True
  | .ask next => ∀ b, (next b).All p
  | .send a next => p a ∧ ∀ b, (next b).All p

variable {p : α → Prop}

theorem forall_run_iff (s : Script α) : (∀ answers, ∀ a ∈ s.run answers, p a) ↔ s.All p := by
  induction s with
  | done => simp [run, All]
  | ask next ih =>
    simp only [All, ← ih]
    constructor
    · exact fun h b answers => h (b :: answers)
    · intro h answers
      cases answers with
      | nil => simp [run]
      | cons b answers => exact h b answers
  | send a next ih =>
    simp only [All, ← ih]
    constructor
    · intro h
      exact ⟨h [] a List.mem_cons_self, fun b answers a' ha' =>
        h (b :: answers) a' (List.mem_cons_of_mem a ha')⟩
    · rintro ⟨ha, h⟩ answers
      cases answers with
      | nil => simpa [run] using ha
      | cons b answers => exact List.forall_mem_cons.mpr ⟨ha, h b answers⟩

/-- Send one after the other, up to the first that is refused. -/
def sendAll (next stop : Script α) : List α → Script α
  | [] => next
  | a :: as => .send a fun accepted => if accepted then sendAll next stop as else stop

theorem all_sendAll_iff {next stop : Script α} (hstop : next.All p → stop.All p) {as : List α} :
    (sendAll next stop as).All p ↔ (∀ a ∈ as, p a) ∧ next.All p := by
  induction as with
  | nil => simp [sendAll]
  | cons a as ih =>
    rw [sendAll, All, Bool.forall_bool, if_neg Bool.false_ne_true, if_pos rfl, ih,
      List.forall_mem_cons]
    constructor
    · rintro ⟨ha, -, has, hnext⟩
      exact ⟨⟨ha, has⟩, hnext⟩
    · rintro ⟨⟨ha, has⟩, hnext⟩
      exact ⟨ha, hstop hnext, has, hnext⟩

/-- Every element meets a condition, up to the first one after which there is no going on; and so
does what follows, if there is none. -/
def UpTo (goes ok : β → Prop) (last : Prop) : List β → Prop
  | [] => last
  | x :: xs => ok x ∧ (goes x → UpTo goes ok last xs)

/-- Scripts one after the other. -/
theorem all_foldr_iff {f : β → Script α → Script α} {goes ok : β → Prop}
    (hf : ∀ x next, (f x next).All p ↔ ok x ∧ (goes x → next.All p)) (last : Script α)
    (xs : List β) : (xs.foldr f last).All p ↔ UpTo goes ok (last.All p) xs := by
  induction xs with
  | nil => rfl
  | cons x xs ih => rw [List.foldr_cons, hf, ih, UpTo]

/-- What follows comes after all elements. -/
theorem upTo_iff {goes ok : β → Prop} {last : Prop} {xs : List β} :
    UpTo goes ok last xs ↔ UpTo goes ok True xs ∧ ((∀ x ∈ xs, goes x) → last) := by
  induction xs with
  | nil => simp [UpTo]
  | cons x xs ih =>
    rw [UpTo, UpTo, ih, List.forall_mem_cons]
    tauto

/-- Where there is always going on, all elements meet the condition. -/
theorem upTo_iff_forall {goes ok : β → Prop} {last : Prop} {xs : List β}
    (hgoes : ∀ x ∈ xs, goes x) : UpTo goes ok last xs ↔ (∀ x ∈ xs, ok x) ∧ last := by
  induction xs with
  | nil => simp [UpTo]
  | cons x xs ih =>
    obtain ⟨hx, hxs⟩ := List.forall_mem_cons.mp hgoes
    rw [UpTo, ih hxs, List.forall_mem_cons, forall_prop_of_true hx, and_assoc]

end Script

end Transition
