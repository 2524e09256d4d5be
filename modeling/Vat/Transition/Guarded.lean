import Vat.Transition.Except

/-!
# Elements that fail on their own

A collection goes through the members of a list, and a handler around each step skips the member
when the step fails with an error that it handles. An error that it does not handle ends the
collection.

So a member does not disturb the others exactly when no member fails with an error that is not
handled (`isolates_collect_iff`), and whether a step can do so is read off from its checks.

## Main definitions

* `check`, `Guarded`: a condition or else an error; no errors but those that are handled.
* `skipping`, `collect`: the handler and the collection.
* `Isolates`: what one member owes to the others.

## Main results

* `guarded_check_bind`, `guarded_check_bind_of_not`: one check before the rest of a step.
* `isolates_collect_iff`.
-/

namespace Transition

variable {α β ε : Type}

/-! ### Checks -/

/-- Go on if a condition holds, else fail. -/
def check (p : Prop) [Decidable p] (e : ε) : Except ε Unit := if p then .ok () else .error e

theorem check_of_pos {p : Prop} [Decidable p] {e : ε} (h : p) : check p e = .ok () := if_pos h

theorem check_of_neg {p : Prop} [Decidable p] {e : ε} (h : ¬ p) : check p e = .error e := if_neg h

theorem check_eq_ok_iff {p : Prop} [Decidable p] {e : ε} {u : Unit} : check p e = .ok u ↔ p := by
  by_cases h : p
  · exact iff_of_true (check_of_pos h) h
  · refine iff_of_false (fun hok => ?_) h
    rw [check_of_neg h] at hok
    cases hok

/-! ### Errors that are handled -/

variable {handled : ε → Prop}

/-- A computation fails with no error but those that are handled. -/
def Guarded (handled : ε → Prop) (x : Except ε α) : Prop := ∀ e, x = .error e → handled e

@[simp] theorem guarded_ok (a : α) : Guarded handled (.ok a : Except ε α) := fun _ h => by cases h

@[simp] theorem guarded_pure (a : α) : Guarded handled (pure a : Except ε α) := guarded_ok a

@[simp] theorem guarded_error_iff {e : ε} :
    Guarded handled (.error e : Except ε α) ↔ handled e :=
  ⟨fun h => h e rfl, fun h _ he => Except.error.inj he ▸ h⟩

theorem guarded_bind_iff {x : Except ε α} {f : α → Except ε β} :
    Guarded handled (x >>= f) ↔
      Guarded handled x ∧ ∀ a, x = .ok a → Guarded handled (f a) := by
  cases x with
  | ok a =>
    rw [ok_bind]
    exact ⟨fun h => ⟨guarded_ok a, fun b hb => Except.ok.inj hb ▸ h⟩, fun h => h.2 a rfl⟩
  | error e =>
    change Guarded handled (.error e) ↔ _
    exact ⟨fun h => ⟨guarded_error_iff.mpr (guarded_error_iff.mp h), fun _ ha => by cases ha⟩,
      fun h => guarded_error_iff.mpr (guarded_error_iff.mp h.1)⟩

theorem guarded_ite_iff {c : Prop} [Decidable c] {x y : Except ε α} :
    Guarded handled (if c then x else y) ↔
      (c → Guarded handled x) ∧ (¬ c → Guarded handled y) := by
  by_cases hc : c
  · rw [if_pos hc]
    exact ⟨fun h => ⟨fun _ => h, fun hno => absurd hc hno⟩, fun h => h.1 hc⟩
  · rw [if_neg hc]
    exact ⟨fun h => ⟨fun hyes => absurd hyes hc, fun _ => h⟩, fun h => h.2 hc⟩

/-- A check whose error is handled. -/
theorem guarded_check_bind {p : Prop} [Decidable p] {e : ε} (he : handled e)
    {f : Unit → Except ε β} :
    Guarded handled (check p e >>= f) ↔ (p → Guarded handled (f ())) := by
  by_cases hp : p
  · rw [check_of_pos hp, ok_bind]
    exact ⟨fun h _ => h, fun h => h hp⟩
  · rw [check_of_neg hp]
    exact iff_of_true (guarded_error_iff.mpr he) fun h => absurd h hp

/-- A check whose error is not handled. -/
theorem guarded_check_bind_of_not {p : Prop} [Decidable p] {e : ε} (he : ¬ handled e)
    {f : Unit → Except ε β} :
    Guarded handled (check p e >>= f) ↔ p ∧ Guarded handled (f ()) := by
  by_cases hp : p
  · rw [check_of_pos hp, ok_bind]
    exact ⟨fun h => ⟨hp, h⟩, fun h => h.2⟩
  · rw [check_of_neg hp]
    exact iff_of_false (fun h => he (guarded_error_iff.mp h)) fun h => hp h.1

/-! ### Collections -/

/-- A handler that skips what fails with an error it handles. -/
def skipping (handled : ε → Prop) [DecidablePred handled] (x : Except ε (List β)) :
    Except ε (List β) :=
  match x with
  | .ok bs => .ok bs
  | .error e => if handled e then .ok [] else .error e

theorem exists_skipping_iff [DecidablePred handled] {x : Except ε (List β)} :
    (∃ bs, skipping handled x = .ok bs) ↔ Guarded handled x := by
  cases x with
  | ok bs => exact iff_of_true ⟨bs, rfl⟩ (guarded_ok bs)
  | error e =>
    rw [guarded_error_iff, skipping]
    by_cases he : handled e
    · rw [if_pos he]
      exact iff_of_true ⟨[], rfl⟩ he
    · rw [if_neg he]
      exact iff_of_false (fun ⟨_, h⟩ => by cases h) he

/-- What the steps on the members of a list give, one after another. -/
def collect (step : α → Except ε (List β)) : List α → Except ε (List β)
  | [] => .ok []
  | a :: l => do
    let bs ← step a
    let rest ← collect step l
    return bs ++ rest

variable {step : α → Except ε (List β)}

theorem collect_cons_eq_ok_iff {a : α} {l : List α} {bs : List β} :
    collect step (a :: l) = .ok bs ↔
      ∃ own rest, step a = .ok own ∧ collect step l = .ok rest ∧ bs = own ++ rest := by
  rw [collect, bind_eq_ok_iff]
  constructor
  · rintro ⟨own, hown, h⟩
    obtain ⟨rest, hrest, h⟩ := bind_eq_ok_iff.mp h
    cases h
    exact ⟨own, rest, hown, hrest, rfl⟩
  · rintro ⟨own, rest, hown, hrest, rfl⟩
    exact ⟨own, hown, bind_eq_ok_iff.mpr ⟨rest, hrest, rfl⟩⟩

theorem collect_map {γ : Type} (f : γ → α) (l : List γ) :
    collect step (l.map f) = collect (fun c => step (f c)) l := by
  induction l with
  | nil => rfl
  | cons c l ih => rw [List.map_cons, collect, collect, ih]

theorem collect_append (l m : List α) :
    collect step (l ++ m) = do
      let before ← collect step l
      let after ← collect step m
      return before ++ after := by
  induction l with
  | nil =>
    change collect step m = (collect step m >>= fun after => .ok after)
    cases collect step m with
    | ok after => rfl
    | error e => rfl
  | cons a l ih =>
    rw [List.cons_append, collect, ih, collect]
    simp only [bind_assoc, pure_bind, List.append_assoc]

theorem collect_append_eq_ok_iff {l m : List α} {bs : List β} :
    collect step (l ++ m) = .ok bs ↔
      ∃ before after, collect step l = .ok before ∧ collect step m = .ok after ∧
        bs = before ++ after := by
  rw [collect_append, bind_eq_ok_iff]
  constructor
  · rintro ⟨before, hbefore, h⟩
    obtain ⟨after, hafter, h⟩ := bind_eq_ok_iff.mp h
    cases h
    exact ⟨before, after, hbefore, hafter, rfl⟩
  · rintro ⟨before, after, hbefore, hafter, rfl⟩
    exact ⟨before, hbefore, bind_eq_ok_iff.mpr ⟨after, hafter, rfl⟩⟩

/-- A collection succeeds exactly when each of its steps does. -/
theorem exists_collect_iff {l : List α} :
    (∃ bs, collect step l = .ok bs) ↔ ∀ a ∈ l, ∃ bs, step a = .ok bs := by
  induction l with
  | nil => exact iff_of_true ⟨[], rfl⟩ fun a ha => by cases ha
  | cons a l ih =>
    rw [List.forall_mem_cons, ← ih]
    constructor
    · rintro ⟨bs, h⟩
      obtain ⟨own, rest, hown, hrest, -⟩ := collect_cons_eq_ok_iff.mp h
      exact ⟨⟨own, hown⟩, rest, hrest⟩
    · rintro ⟨⟨own, hown⟩, rest, hrest⟩
      exact ⟨own ++ rest, collect_cons_eq_ok_iff.mpr ⟨own, rest, hown, hrest, rfl⟩⟩

/-- A collection of steps that succeed. -/
theorem collect_eq_ok_flatMap {f : α → List β} {l : List α} (h : ∀ a ∈ l, step a = .ok (f a)) :
    collect step l = .ok (l.flatMap f) := by
  induction l with
  | nil => rfl
  | cons a l ih =>
    rw [collect, h a List.mem_cons_self, ih fun b hb => h b (List.mem_cons_of_mem _ hb)]
    rfl

/-! ### Isolation -/

/-- A member adds what it gives alone, and changes nothing of what the others give without it. -/
def Isolates (whole others alone : Except ε (List β)) : Prop :=
  ∃ before own after, alone = .ok own ∧ others = .ok (before ++ after) ∧
    whole = .ok (before ++ own ++ after)

/-- A member is isolated from the others exactly when each of them succeeds. -/
theorem isolates_collect_iff {l m : List α} {a : α} :
    Isolates (collect step (l ++ a :: m)) (collect step (l ++ m)) (collect step [a]) ↔
      ∀ b ∈ l ++ a :: m, ∃ bs, step b = .ok bs := by
  rw [← exists_collect_iff]
  constructor
  · rintro ⟨before, own, after, -, -, hwhole⟩
    exact ⟨_, hwhole⟩
  · rintro ⟨bs, h⟩
    obtain ⟨before, rest, hbefore, hrest, rfl⟩ := collect_append_eq_ok_iff.mp h
    obtain ⟨own, after, hown, hafter, rfl⟩ := collect_cons_eq_ok_iff.mp hrest
    refine ⟨before, own, after, ?_, ?_, ?_⟩
    · exact collect_cons_eq_ok_iff.mpr ⟨own, [], hown, rfl, (List.append_nil own).symm⟩
    · exact collect_append_eq_ok_iff.mpr ⟨before, after, hbefore, hafter, rfl⟩
    · rw [List.append_assoc]
      exact h

end Transition
