import Mathlib.Data.List.Forall2

/-!
# Chains of steps that may fail

Steps in `Except ε` one after another: a chain succeeds exactly when each of its steps does.

## Main results

* `bind_eq_ok_iff`: a step after a step.
* `mapM_eq_ok_iff`, `forM_eq_ok_iff`: one step for each member of a list.
* `mapM_reduceOption_eq_ok_iff`: steps some of which give nothing.
* `foldlM_eq_ok_iff`: a fold whose steps fail, or not, without a look at the state.
-/

namespace Transition

variable {α β σ : Type} {ε : Type}

theorem exists_forall₂_iff {R : α → β → Prop} {l : List α} :
    (∃ bs, List.Forall₂ R l bs) ↔ ∀ a ∈ l, ∃ b, R a b := by
  induction l with
  | nil => exact ⟨fun _ a ha => (by cases ha), fun _ => ⟨[], List.Forall₂.nil⟩⟩
  | cons a l ih =>
    rw [List.forall_mem_cons, ← ih]
    constructor
    · rintro ⟨bs, hbs⟩
      cases hbs with
      | cons hb hbs => exact ⟨⟨_, hb⟩, _, hbs⟩
    · rintro ⟨⟨b, hb⟩, bs, hbs⟩
      exact ⟨b :: bs, List.Forall₂.cons hb hbs⟩

theorem forall₂_and_iff {R S : α → β → Prop} {l : List α} {bs : List β} :
    List.Forall₂ (fun a b => R a b ∧ S a b) l bs ↔ List.Forall₂ R l bs ∧ List.Forall₂ S l bs := by
  constructor
  · intro h
    exact ⟨h.imp fun _ _ hab => hab.1, h.imp fun _ _ hab => hab.2⟩
  · rintro ⟨hR, hS⟩
    induction hR with
    | nil => exact .nil
    | cons hab _ ih =>
      cases hS with
      | cons hab' hS => exact .cons ⟨hab, hab'⟩ (ih hS)

theorem exists_mem_of_forall₂ {R : α → β → Prop} {l : List α} {bs : List β}
    (h : List.Forall₂ R l bs) {a : α} (ha : a ∈ l) : ∃ b ∈ bs, R a b := by
  induction h with
  | nil => cases ha
  | cons hb _ ih =>
    rcases List.mem_cons.mp ha with rfl | ha
    · exact ⟨_, List.mem_cons_self, hb⟩
    · obtain ⟨b, hmem, hb⟩ := ih ha
      exact ⟨b, List.mem_cons_of_mem _ hmem, hb⟩

@[simp] theorem ok_bind (a : α) (f : α → Except ε β) : ((.ok a : Except ε α) >>= f) = f a := rfl

theorem bind_eq_ok_iff {x : Except ε α} {f : α → Except ε β} {b : β} :
    (x >>= f) = .ok b ↔ ∃ a, x = .ok a ∧ f a = .ok b := by
  cases x with
  | ok a => exact ⟨fun h => ⟨a, rfl, h⟩, fun ⟨_, ha, h⟩ => by cases ha; exact h⟩
  | error e => exact ⟨fun h => (by cases h), fun ⟨_, ha, _⟩ => (by cases ha)⟩

theorem mapM_eq_ok_iff {f : α → Except ε β} {l : List α} {l' : List β} :
    l.mapM f = .ok l' ↔ List.Forall₂ (fun a b => f a = .ok b) l l' := by
  induction l generalizing l' with
  | nil =>
    rw [List.mapM_nil, List.forall₂_nil_left_iff]
    exact ⟨fun h => by cases h; rfl, fun h => by rw [h]; rfl⟩
  | cons a l ih =>
    rw [List.mapM_cons, bind_eq_ok_iff, List.forall₂_cons_left_iff]
    constructor
    · rintro ⟨b, hb, h⟩
      obtain ⟨bs, hbs, h⟩ := bind_eq_ok_iff.mp h
      cases h
      exact ⟨b, bs, hb, ih.mp hbs, rfl⟩
    · rintro ⟨b, bs, hb, hbs, rfl⟩
      exact ⟨b, hb, bind_eq_ok_iff.mpr ⟨bs, ih.mpr hbs, rfl⟩⟩

theorem forM_eq_ok_iff {f : α → Except ε Unit} {l : List α} :
    l.forM f = .ok () ↔ ∀ a ∈ l, f a = .ok () := by
  induction l with
  | nil => exact ⟨fun _ a ha => (by cases ha), fun _ => rfl⟩
  | cons a l ih =>
    rw [List.forall_mem_cons, ← ih]
    change (f a >>= fun _ => l.forM f) = .ok () ↔ _
    rw [bind_eq_ok_iff]
    exact ⟨fun ⟨_, ha, h⟩ => ⟨ha, h⟩, fun ⟨ha, h⟩ => ⟨(), ha, h⟩⟩

/-- A fold whose steps fail, or not, without a look at the state. -/
theorem foldlM_eq_ok_iff {f : α → Except ε β} {g : σ → β → σ} {l : List α} {s s' : σ} :
    (l.foldlM (fun s a => do return g s (← f a)) s) = .ok s' ↔
      ∃ bs, List.Forall₂ (fun a b => f a = .ok b) l bs ∧ s' = bs.foldl g s := by
  induction l generalizing s with
  | nil =>
    constructor
    · intro h
      cases h
      exact ⟨[], List.Forall₂.nil, rfl⟩
    · rintro ⟨bs, hbs, rfl⟩
      cases hbs
      rfl
  | cons a l ih =>
    rw [List.foldlM_cons, bind_eq_ok_iff]
    constructor
    · rintro ⟨t, ht, h⟩
      obtain ⟨b, hb, ht⟩ := bind_eq_ok_iff.mp ht
      cases ht
      obtain ⟨bs, hbs, rfl⟩ := ih.mp h
      exact ⟨b :: bs, List.Forall₂.cons hb hbs, rfl⟩
    · rintro ⟨bs, hbs, rfl⟩
      cases hbs with
      | cons hb hbs => exact ⟨_, bind_eq_ok_iff.mpr ⟨_, hb, rfl⟩, ih.mpr ⟨_, hbs, rfl⟩⟩

/-- A chain whose steps may give nothing succeeds exactly when the steps that give something do. -/
theorem mapM_reduceOption_eq_ok_iff {f : α → Except ε (Option β)} {keep : α → Bool} {l : List α}
    {bs : List β} (hskip : ∀ a ∈ l, keep a = false → f a = .ok none)
    (hkeep : ∀ a ∈ l, keep a → f a ≠ .ok none) :
    (l.mapM f >>= fun os => .ok os.reduceOption) = .ok bs ↔
      List.Forall₂ (fun a b => f a = .ok (some b)) (l.filter keep) bs := by
  have hmapM : (l.mapM f >>= fun os => .ok os.reduceOption) = .ok bs ↔
      ∃ os, List.Forall₂ (fun a o => f a = .ok o) l os ∧ os.reduceOption = bs := by
    rw [bind_eq_ok_iff]
    exact exists_congr fun os => and_congr mapM_eq_ok_iff ⟨Except.ok.inj, congrArg Except.ok⟩
  rw [hmapM]
  clear hmapM
  induction l generalizing bs with
  | nil =>
    rw [List.filter_nil, List.forall₂_nil_left_iff]
    constructor
    · rintro ⟨os, hos, rfl⟩
      rw [List.forall₂_nil_left_iff.mp hos]
      rfl
    · rintro rfl
      exact ⟨[], .nil, rfl⟩
  | cons a l ih =>
    have htail (bs : List β) := @ih bs (fun b hb => hskip b (List.mem_cons_of_mem a hb))
      fun b hb => hkeep b (List.mem_cons_of_mem a hb)
    cases hka : keep a with
    | false =>
      have hfa := hskip a List.mem_cons_self hka
      rw [List.filter_cons_of_neg (by simp [hka])]
      refine Iff.trans ?_ (htail bs)
      constructor
      · rintro ⟨os, hos, rfl⟩
        obtain ⟨o, os', ho, hos', rfl⟩ := List.forall₂_cons_left_iff.mp hos
        cases hfa.symm.trans ho
        exact ⟨os', hos', rfl⟩
      · rintro ⟨os, hos, rfl⟩
        exact ⟨none :: os, .cons hfa hos, rfl⟩
    | true =>
      rw [List.filter_cons_of_pos hka, List.forall₂_cons_left_iff]
      constructor
      · rintro ⟨os, hos, rfl⟩
        obtain ⟨o, os', ho, hos', rfl⟩ := List.forall₂_cons_left_iff.mp hos
        cases o with
        | none => exact absurd ho (hkeep a List.mem_cons_self hka)
        | some b => exact ⟨b, os'.reduceOption, ho, (htail _).mp ⟨os', hos', rfl⟩, rfl⟩
      · rintro ⟨b, bs, hb, hbs, rfl⟩
        obtain ⟨os, hos, rfl⟩ := (htail bs).mpr hbs
        exact ⟨some b :: os, .cons hb hos, rfl⟩

end Transition
