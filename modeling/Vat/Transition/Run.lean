import Mathlib.Data.List.Basic
import Mathlib.Data.Nat.Find
import Mathlib.Data.Nat.Notation
import Mathlib.Tactic.Tauto

/-!
# Runs of a step function

A system is a step function `step : σ → ο → σ`; a run is the list of its operations. This file
has the induction rules that reduce a statement about every run to one about every step.

`Along step P s ops` says that every operation of the run meets `P` in the state in which it is
made. A property of the last state, or of every state on the way, then holds exactly when every
step meets its condition (`run_iff_along`, `forall_prefix_iff_along`).

## Main results

* `run_induction`: an invariant kept by every step holds after every run.
* `run_of_along`, `along_of_along`, `along_iff_along`: an invariant kept by the steps that meet `P`
  holds after a run of such steps, and what follows from it holds along the run.
* `run_iff_along`: when a step keeps a property exactly if it meets `P`, a run keeps the property
  exactly if all its steps meet `P`.
* `along_iff_forall_split`, `sometime_iff_exists_split`: a run meets `P` exactly if each, or some,
  of its operations does.
* `sometime_of_run`: a property that only some steps bring about.
* `forall_prefix_iff_along`, `forall_prefix_iff_along_of_inv`, `forall_prefix_iff_along_of_mem`: the
  same for a property of every state on the way.
* `run_iff_since`: a property that some steps bring about and some undo.
* `foldlM_induction`: a property kept by every successful step.
* `states_induction`: what every step keeps holds in every state of an endless run.
* `exists_first`: the first operation of an endless run that does something.
-/

namespace Transition

variable {σ ο : Type*} (step : σ → ο → σ)

/-- The state after the operations of a run. -/
def run (s : σ) (ops : List ο) : σ := ops.foldl step s

@[simp] theorem run_nil (s : σ) : run step s [] = s := rfl

@[simp] theorem run_cons (s : σ) (o : ο) (ops : List ο) :
    run step s (o :: ops) = run step (step s o) ops := rfl

theorem run_append (s : σ) (ops ops' : List ο) :
    run step s (ops ++ ops') = run step (run step s ops) ops' :=
  List.foldl_append

/-- Every operation of the run meets `P` in the state in which it is made. -/
def Along (P : σ → ο → Prop) : σ → List ο → Prop
  | _, [] => True
  | s, o :: ops => P s o ∧ Along P (step s o) ops

@[simp] theorem along_nil (P : σ → ο → Prop) (s : σ) : Along step P s [] := trivial

@[simp] theorem along_cons (P : σ → ο → Prop) (s : σ) (o : ο) (ops : List ο) :
    Along step P s (o :: ops) ↔ P s o ∧ Along step P (step s o) ops := Iff.rfl

/-- Some operation of the run meets `P` in the state in which it is made. -/
def Sometime (P : σ → ο → Prop) : σ → List ο → Prop
  | _, [] => False
  | s, o :: ops => P s o ∨ Sometime P (step s o) ops

@[simp] theorem sometime_nil (P : σ → ο → Prop) (s : σ) : ¬ Sometime step P s [] := id

@[simp] theorem sometime_cons (P : σ → ο → Prop) (s : σ) (o : ο) (ops : List ο) :
    Sometime step P s (o :: ops) ↔ P s o ∨ Sometime step P (step s o) ops := Iff.rfl

/-- Every operation has met `Q` since one met `P`, or since the start when `b`. -/
def Since (P Q : σ → ο → Prop) : Prop → σ → List ο → Prop
  | b, _, [] => b
  | b, s, o :: ops => Since P Q (P s o ∨ b ∧ Q s o) (step s o) ops

@[simp] theorem since_nil (P Q : σ → ο → Prop) (b : Prop) (s : σ) : Since step P Q b s [] ↔ b :=
  Iff.rfl

@[simp] theorem since_cons (P Q : σ → ο → Prop) (b : Prop) (s : σ) (o : ο) (ops : List ο) :
    Since step P Q b s (o :: ops) ↔ Since step P Q (P s o ∨ b ∧ Q s o) (step s o) ops := Iff.rfl

instance Along.decidable (P : σ → ο → Prop) [∀ s o, Decidable (P s o)] :
    ∀ s ops, Decidable (Along step P s ops)
  | _, [] => inferInstanceAs (Decidable True)
  | s, o :: ops =>
    haveI := Along.decidable P (step s o) ops
    inferInstanceAs (Decidable (P s o ∧ Along step P (step s o) ops))

instance Sometime.decidable (P : σ → ο → Prop) [∀ s o, Decidable (P s o)] :
    ∀ s ops, Decidable (Sometime step P s ops)
  | _, [] => inferInstanceAs (Decidable False)
  | s, o :: ops =>
    haveI := Sometime.decidable P (step s o) ops
    inferInstanceAs (Decidable (P s o ∨ Sometime step P (step s o) ops))

variable {step}

/-- An invariant that every step keeps holds after every run. -/
theorem run_induction {Inv : σ → Prop} (hstep : ∀ s o, Inv s → Inv (step s o)) {s : σ}
    (hs : Inv s) (ops : List ο) : Inv (run step s ops) := by
  induction ops generalizing s with
  | nil => exact hs
  | cons o ops ih => exact ih (hstep s o hs)

/-- An invariant kept by the steps that meet `P` holds after a run of such steps. -/
theorem run_of_along {Inv : σ → Prop} {P : σ → ο → Prop}
    (hstep : ∀ s o, Inv s → P s o → Inv (step s o)) {s : σ} (hs : Inv s) {ops : List ο}
    (h : Along step P s ops) : Inv (run step s ops) := by
  induction ops generalizing s with
  | nil => exact hs
  | cons o ops ih => exact ih (hstep s o hs h.1) h.2

/-- A run that meets `P` meets what follows from it under an invariant. -/
theorem along_of_along {Inv : σ → Prop} {P Q : σ → ο → Prop}
    (hstep : ∀ s o, Inv s → P s o → Inv (step s o)) (himp : ∀ s o, Inv s → P s o → Q s o) {s : σ}
    (hs : Inv s) {ops : List ο} (h : Along step P s ops) : Along step Q s ops := by
  induction ops generalizing s with
  | nil => trivial
  | cons o ops ih => exact ⟨himp s o hs h.1, ih (hstep s o hs h.1) h.2⟩

/-- When an invariant makes `P` and `Q` the same, and the steps that meet them keep it, a run meets
`P` exactly if it meets `Q`. -/
theorem along_iff_along {Inv : σ → Prop} {P Q : σ → ο → Prop}
    (hiff : ∀ s o, Inv s → (P s o ↔ Q s o)) (hstep : ∀ s o, Inv s → P s o → Inv (step s o)) {s : σ}
    (hs : Inv s) {ops : List ο} : Along step P s ops ↔ Along step Q s ops := by
  constructor
  · exact along_of_along hstep (fun s o h => (hiff s o h).mp) hs
  · exact along_of_along (fun s o h hQ => hstep s o h ((hiff s o h).mpr hQ))
      (fun s o h => (hiff s o h).mpr) hs

/-- A run meets `P` exactly if each of its operations does in the state that the ones before it
lead to. -/
theorem along_iff_forall_split {P : σ → ο → Prop} {s : σ} {ops : List ο} :
    Along step P s ops ↔ ∀ pre o post, ops = pre ++ o :: post → P (run step s pre) o := by
  induction ops generalizing s with
  | nil => simp
  | cons o ops ih =>
    rw [along_cons, ih]
    constructor
    · rintro ⟨ho, h⟩ pre o' post heq
      cases pre with
      | nil =>
        cases heq
        exact ho
      | cons _ pre =>
        cases heq
        exact h pre o' post rfl
    · intro h
      exact ⟨h [] o ops rfl, fun pre o' post heq => h (o :: pre) o' post (by rw [heq]; rfl)⟩

/-- A run meets `P` at some time exactly if one of its operations does in the state that the ones
before it lead to. -/
theorem sometime_iff_exists_split {P : σ → ο → Prop} {s : σ} {ops : List ο} :
    Sometime step P s ops ↔ ∃ pre o post, ops = pre ++ o :: post ∧ P (run step s pre) o := by
  induction ops generalizing s with
  | nil => simp
  | cons o ops ih =>
    rw [sometime_cons, ih]
    constructor
    · rintro (ho | ⟨pre, o', post, rfl, h⟩)
      · exact ⟨[], o, ops, rfl, ho⟩
      · exact ⟨o :: pre, o', post, rfl, h⟩
    · rintro ⟨pre, o', post, heq, h⟩
      cases pre with
      | nil =>
        cases heq
        exact Or.inl h
      | cons _ pre =>
        cases heq
        exact Or.inr ⟨pre, o', post, rfl, h⟩

/-- A property that only the steps meeting `P` bring about held before a run or was brought about
in it. -/
theorem sometime_of_run {S : σ → Prop} {P : σ → ο → Prop} {ops : List ο}
    (hstep : ∀ s, ∀ o ∈ ops, S (step s o) → S s ∨ P s o) {s : σ} (h : S (run step s ops)) :
    S s ∨ Sometime step P s ops := by
  induction ops generalizing s with
  | nil => exact Or.inl h
  | cons o ops ih =>
    rcases ih (fun s o' ho' => hstep s o' (List.mem_cons_of_mem o ho')) h with h | h
    · exact (hstep s o List.mem_cons_self h).imp_right Or.inl
    · exact Or.inr (Or.inr h)

/-- A run that meets `P` does so from its start up to any operation. -/
theorem Along.of_prefix {P : σ → ο → Prop} {s : σ} {ops pre : List ο} (h : Along step P s ops)
    (hpre : pre <+: ops) : Along step P s pre := by
  induction pre generalizing s ops with
  | nil => trivial
  | cons o pre ih =>
    obtain ⟨rest, rfl⟩ := hpre
    exact ⟨h.1, ih h.2 (List.prefix_append pre rest)⟩

/-- When, under an invariant, a step keeps `S` exactly if `S` held before and the step meets `P`,
the same is true of runs. -/
theorem run_iff_along {Inv S : σ → Prop} {P : σ → ο → Prop}
    (hinv : ∀ s o, Inv s → Inv (step s o))
    (hstep : ∀ s o, Inv s → (S (step s o) ↔ S s ∧ P s o)) {s : σ} (hs : Inv s)
    (ops : List ο) : S (run step s ops) ↔ S s ∧ Along step P s ops := by
  induction ops generalizing s with
  | nil => simp
  | cons o ops ih =>
    rw [run_cons, ih (hinv s o hs), hstep s o hs, along_cons, and_assoc]

/-- When `S` holds after a step exactly if the step meets `P`, or `S` held before and the step meets
`Q`, it holds after a run exactly if `Q` was met since `P` was, or since the start. -/
theorem run_iff_since {S : σ → Prop} {P Q : σ → ο → Prop}
    (hstep : ∀ s o, S (step s o) ↔ P s o ∨ S s ∧ Q s o) (s : σ) (ops : List ο) :
    S (run step s ops) ↔ Since step P Q (S s) s ops := by
  induction ops generalizing s with
  | nil => rfl
  | cons o ops ih => rw [run_cons, ih, since_cons, hstep s o]

/-- When, in the states where `S` and an invariant hold, a step keeps `S` exactly if it meets `P`,
and the steps that do so keep the invariant, `S` holds in every state on the way of a run exactly if
all its steps meet `P`. -/
theorem forall_prefix_iff_along_of_inv {S I : σ → Prop} {P : σ → ο → Prop}
    (hstep : ∀ s o, S s → I s → (S (step s o) ↔ P s o))
    (hinv : ∀ s o, S s → I s → P s o → I (step s o)) {s : σ} (hs : S s) (hi : I s)
    (ops : List ο) : (∀ pre, pre <+: ops → S (run step s pre)) ↔ Along step P s ops := by
  induction ops generalizing s with
  | nil => simpa using hs
  | cons o ops ih =>
    rw [along_cons]
    constructor
    · intro h
      have ho : S (step s o) := h [o] (by simp)
      have hP : P s o := (hstep s o hs hi).mp ho
      refine ⟨hP, (ih ho (hinv s o hs hi hP)).mp fun pre hpre => ?_⟩
      exact h (o :: pre) (List.cons_prefix_cons.mpr ⟨rfl, hpre⟩)
    · rintro ⟨hP, h⟩ pre hpre
      have ho : S (step s o) := (hstep s o hs hi).mpr hP
      cases pre with
      | nil => exact hs
      | cons o' pre =>
        obtain ⟨rfl, htail⟩ := List.cons_prefix_cons.mp hpre
        exact (ih ho (hinv s o' hs hi hP)).mpr h pre htail

/-- When, in the states where `S` holds, a step keeps `S` exactly if it meets `P`, the property
holds in every state on the way of a run exactly if all its steps meet `P`. -/
theorem forall_prefix_iff_along {S : σ → Prop} {P : σ → ο → Prop}
    (hstep : ∀ s o, S s → (S (step s o) ↔ P s o)) {s : σ} (hs : S s) (ops : List ο) :
    (∀ pre, pre <+: ops → S (run step s pre)) ↔ Along step P s ops :=
  forall_prefix_iff_along_of_inv (I := fun _ => True) (fun s o h _ => hstep s o h)
    (fun _ _ _ _ _ => trivial) hs trivial ops

/-- The same for runs of operations of one kind. -/
theorem forall_prefix_iff_along_of_mem {S : σ → Prop} {P : σ → ο → Prop} {ops : List ο}
    (hstep : ∀ s, ∀ o ∈ ops, S s → (S (step s o) ↔ P s o)) {s : σ} (hs : S s) :
    (∀ pre, pre <+: ops → S (run step s pre)) ↔ Along step P s ops := by
  induction ops generalizing s with
  | nil => simpa using hs
  | cons o ops ih =>
    have htail := @ih fun s o' ho' => hstep s o' (List.mem_cons_of_mem o ho')
    have ho := hstep s o List.mem_cons_self hs
    rw [along_cons, ← ho]
    constructor
    · intro h
      have hnext : S (step s o) := h [o] (by simp)
      exact ⟨hnext, (htail hnext).mp fun pre hpre =>
        h (o :: pre) (List.cons_prefix_cons.mpr ⟨rfl, hpre⟩)⟩
    · rintro ⟨hnext, h⟩ pre hpre
      cases pre with
      | nil => exact hs
      | cons o' pre =>
        obtain ⟨rfl, hrest⟩ := List.cons_prefix_cons.mp hpre
        exact (htail hnext).mpr h pre hrest

/-- A property that every successful step keeps holds after a successful chain of steps. -/
theorem foldlM_induction {Inv : σ → Prop} {f : σ → ο → Option σ} {ops : List ο}
    (hstep : ∀ s s', ∀ o ∈ ops, Inv s → f s o = some s' → Inv s') {s s' : σ} (hs : Inv s)
    (h : ops.foldlM f s = some s') : Inv s' := by
  induction ops generalizing s with
  | nil =>
    cases h
    exact hs
  | cons o ops ih =>
    rw [List.foldlM_cons] at h
    obtain ⟨t, ht, h⟩ := Option.bind_eq_some_iff.mp h
    exact ih (fun s s' o ho => hstep s s' o (List.mem_cons_of_mem _ ho))
      (hstep s t o List.mem_cons_self hs ht) h

end Transition

namespace Transition

/-! ### Endless runs -/

variable {σ ο : Type*} (step : σ → ο → σ) (s : σ) (ops : ℕ → ο)

/-- The state before an operation. -/
def states : ℕ → σ
  | 0 => s
  | n + 1 => step (states n) (ops n)

@[simp] theorem states_zero : states step s ops 0 = s := rfl

@[simp] theorem states_succ (n : ℕ) :
    states step s ops (n + 1) = step (states step s ops n) (ops n) := rfl

variable {step s ops}

theorem states_induction (Inv : σ → Prop) (hstep : ∀ n s, Inv s → Inv (step s (ops n)))
    (hs : Inv s) (n : ℕ) : Inv (states step s ops n) := by
  induction n with
  | zero => exact hs
  | succ n ih => exact hstep n _ ih

/-- If only some operations do anything, then the first of them finds the system as it was. -/
theorem exists_first {P : ο → Prop} (hidle : ∀ s o, ¬ P o → step s o = s) (h : ∃ n, P (ops n)) :
    ∃ n, P (ops n) ∧ states step s ops n = s := by
  classical
  refine ⟨Nat.find h, Nat.find_spec h, ?_⟩
  have hbefore : ∀ n ≤ Nat.find h, states step s ops n = s := by
    intro n hn
    induction n with
    | zero => rfl
    | succ n ih =>
      rw [states_succ, ih (Nat.le_of_succ_le hn), hidle _ _ (Nat.find_min h hn)]
  exact hbefore _ le_rfl

end Transition
