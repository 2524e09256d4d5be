import Mathlib.Data.List.Nodup
import Mathlib.Logic.Relation

/-!
# Requests that claim keys in transactions

Handlers take requests side by side. A handler looks whether the key of its request is taken, then
claims the key in the transaction in which it does its work: a claim waits for the transactions that
hold the key, finds it taken when one of them was committed, and is given up when the work fails.

Requests are told apart by their content. Each content takes effect exactly once, in all runs,
exactly if different contents have different keys (`exactlyOnce_iff`).

## Main definitions

* `Intake`, `Intake.Step`, `Intake.Reachable`.
* `Intake.ExactlyOnce`: what a state owes to the contents of its requests.

## Main results

* `Intake.Sound`: the keys that are taken are those of the requests that took effect.
* `Intake.exactlyOnce_iff`.
-/

namespace Transition

/-- Where a handler is with its request. -/
inductive Stage
  | checking
  | claiming
  | working
  | applied
  | duplicate
  | failed
  deriving DecidableEq

/-- A handler of a request. -/
structure Handler (ρ : Type*) where
  request : ρ
  stage : Stage

/-- The handlers, the keys that are taken, and the requests that took effect. -/
structure Intake (ρ κ : Type*) where
  handlers : List (Handler ρ)
  taken : List κ
  applied : List ρ

namespace Intake

variable {ρ κ β : Type*}

/-- Before any request. -/
def empty : Intake ρ κ := ⟨[], [], []⟩

/-- One more handler. -/
def withHandler (s : Intake ρ κ) (h : Handler ρ) : Intake ρ κ :=
  { s with handlers := s.handlers ++ [h] }

/-- A handler goes on to a stage. -/
def move (s : Intake ρ κ) (i : ℕ) (r : ρ) (stage : Stage) : Intake ρ κ :=
  { s with handlers := s.handlers.set i ⟨r, stage⟩ }

/-- A handler commits its transaction. -/
def commit (s : Intake ρ κ) (i : ℕ) (r : ρ) (k : κ) : Intake ρ κ where
  handlers := s.handlers.set i ⟨r, .applied⟩
  taken := k :: s.taken
  applied := s.applied ++ [r]

/-- A key that no open transaction holds. -/
def Free (key : ρ → Option κ) (s : Intake ρ κ) (k : κ) : Prop :=
  ∀ h ∈ s.handlers, h.stage = .working → key h.request ≠ some k

variable (key : ρ → Option κ) (allowed : Set ρ)

/-- The steps of the handlers, when requests are among those allowed. A request without a key is
not let in. -/
inductive Step : Intake ρ κ → Intake ρ κ → Prop
  | arrive {s r k} (hr : r ∈ allowed) (hk : key r = some k) : Step s (s.withHandler ⟨r, .checking⟩)
  | refuse {s r} (hr : r ∈ allowed) (hk : key r = none) : Step s (s.withHandler ⟨r, .failed⟩)
  | seen {s i r k} (hi : s.handlers[i]? = some ⟨r, .checking⟩) (hk : key r = some k)
      (h : k ∈ s.taken) : Step s (s.move i r .duplicate)
  | unseen {s i r k} (hi : s.handlers[i]? = some ⟨r, .checking⟩) (hk : key r = some k)
      (h : k ∉ s.taken) : Step s (s.move i r .claiming)
  | lost {s i r k} (hi : s.handlers[i]? = some ⟨r, .claiming⟩) (hk : key r = some k)
      (h : k ∈ s.taken) : Step s (s.move i r .duplicate)
  | claim {s i r k} (hi : s.handlers[i]? = some ⟨r, .claiming⟩) (hk : key r = some k)
      (h : k ∉ s.taken) (hfree : s.Free key k) : Step s (s.move i r .working)
  | raise {s i r k} (hi : s.handlers[i]? = some ⟨r, .claiming⟩) (hk : key r = some k) :
      Step s (s.move i r .failed)
  | rollback {s i r k} (hi : s.handlers[i]? = some ⟨r, .working⟩) (hk : key r = some k) :
      Step s (s.move i r .failed)
  | commit {s i r k} (hi : s.handlers[i]? = some ⟨r, .working⟩) (hk : key r = some k) :
      Step s (s.commit i r k)

/-- The states of runs from before any request. -/
def Reachable (s : Intake ρ κ) : Prop := Relation.ReflTransGen (Step key allowed) empty s

/-- What a state owes to the contents of its requests: none takes effect twice, only one that took
effect is taken for a duplicate, and one that did not takes effect when it comes and nothing holds
its key. -/
structure ExactlyOnce (content : ρ → β) (s : Intake ρ κ) : Prop where
  atMostOnce : (s.applied.map content).Nodup
  neverLost : ∀ h ∈ s.handlers, h.stage = .duplicate → content h.request ∈ s.applied.map content
  applies : ∀ r ∈ allowed, ∀ k, key r = some k → s.Free key k →
    content r ∉ s.applied.map content →
    ∃ s', Relation.ReflTransGen (Step key allowed) s s' ∧ s'.applied = s.applied ++ [r]

/-! ### The keys that are taken -/

/-- The keys that are taken are those of the requests that took effect, each of them once, and the
open transactions hold other keys, each its own. -/
structure Sound (s : Intake ρ κ) : Prop where
  mem_taken : ∀ k, k ∈ s.taken ↔ ∃ r ∈ s.applied, key r = some k
  nodup : (s.applied.map key).Nodup
  keyed : ∀ r ∈ s.applied, key r ≠ none
  held : ∀ (i j : ℕ) (r r' : ρ), s.handlers[i]? = some ⟨r, .working⟩ →
    s.handlers[j]? = some ⟨r', .working⟩ → key r = key r' → i = j
  notTaken : ∀ (i : ℕ) (r : ρ) (k : κ), s.handlers[i]? = some ⟨r, .working⟩ →
    key r = some k → k ∉ s.taken
  duplicate : ∀ (i : ℕ) (r : ρ), s.handlers[i]? = some ⟨r, .duplicate⟩ →
    ∃ k ∈ s.taken, key r = some k
  handler_allowed : ∀ (i : ℕ) (h : Handler ρ), s.handlers[i]? = some h → h.request ∈ allowed
  applied_allowed : ∀ r ∈ s.applied, r ∈ allowed

variable {key allowed} {s s' : Intake ρ κ} {i j : ℕ} {r : ρ} {k : κ} {stage : Stage}

theorem getElem?_move {h : Handler ρ} (hj : (s.move i r stage).handlers[j]? = some h) :
    i = j ∧ h = ⟨r, stage⟩ ∨ i ≠ j ∧ s.handlers[j]? = some h := by
  rw [move, List.getElem?_set] at hj
  split_ifs at hj with hij hlt
  · exact Or.inl ⟨hij, (Option.some.inj hj).symm⟩
  · exact Or.inr ⟨hij, hj⟩

theorem getElem?_withHandler {h h' : Handler ρ} (hj : (s.withHandler h).handlers[j]? = some h') :
    h' = h ∨ s.handlers[j]? = some h' := by
  rw [withHandler, List.getElem?_append] at hj
  split_ifs at hj with hlt
  · exact Or.inr hj
  · exact Or.inl (List.mem_singleton.mp (List.mem_of_getElem? hj))

theorem Sound.empty : Sound key allowed (empty : Intake ρ κ) where
  mem_taken k := by simp [Intake.empty]
  nodup := List.nodup_nil
  keyed r hr := absurd hr List.not_mem_nil
  held i j r r' hi := by simp [Intake.empty] at hi
  notTaken i r k hi := by simp [Intake.empty] at hi
  duplicate i r hi := by simp [Intake.empty] at hi
  handler_allowed i h hi := by simp [Intake.empty] at hi
  applied_allowed r hr := absurd hr List.not_mem_nil

/-- A new handler, which neither works nor is done with a duplicate. -/
theorem Sound.withHandler (hs : Sound key allowed s) (hr : r ∈ allowed) (hwork : stage ≠ .working)
    (hdup : stage ≠ .duplicate) : Sound key allowed (s.withHandler ⟨r, stage⟩) where
  mem_taken := hs.mem_taken
  nodup := hs.nodup
  keyed := hs.keyed
  held i j r₁ r₂ hi hj := by
    rcases getElem?_withHandler hi with heq | hi
    · exact absurd (congrArg Handler.stage heq).symm hwork
    rcases getElem?_withHandler hj with heq | hj
    · exact absurd (congrArg Handler.stage heq).symm hwork
    exact hs.held i j r₁ r₂ hi hj
  notTaken i r₁ k hi := by
    rcases getElem?_withHandler hi with heq | hi
    · exact absurd (congrArg Handler.stage heq).symm hwork
    · exact hs.notTaken i r₁ k hi
  duplicate i r₁ hi := by
    rcases getElem?_withHandler hi with heq | hi
    · exact absurd (congrArg Handler.stage heq).symm hdup
    · exact hs.duplicate i r₁ hi
  handler_allowed i h hi := by
    rcases getElem?_withHandler hi with rfl | hi
    · exact hr
    · exact hs.handler_allowed i h hi
  applied_allowed := hs.applied_allowed

/-- A handler goes on: to its work with a free key, or to a duplicate with a key that is taken. -/
theorem Sound.move (hs : Sound key allowed s) {old : Stage}
    (hi : s.handlers[i]? = some ⟨r, old⟩) (hk : key r = some k)
    (hwork : stage = .working → k ∉ s.taken ∧ s.Free key k)
    (hdup : stage = .duplicate → k ∈ s.taken) : Sound key allowed (s.move i r stage) where
  mem_taken := hs.mem_taken
  nodup := hs.nodup
  keyed := hs.keyed
  held i₁ i₂ r₁ r₂ h₁ h₂ heq := by
    rcases getElem?_move h₁ with ⟨rfl, hh₁⟩ | ⟨-, hold₁⟩
    · rcases getElem?_move h₂ with ⟨rfl, -⟩ | ⟨-, hold₂⟩
      · rfl
      · obtain ⟨rfl, hstage⟩ := Handler.mk.inj hh₁
        have hfree := (hwork hstage.symm).2 ⟨r₂, .working⟩ (List.mem_of_getElem? hold₂) rfl
        exact absurd (heq.symm.trans hk) hfree
    · rcases getElem?_move h₂ with ⟨rfl, hh₂⟩ | ⟨-, hold₂⟩
      · obtain ⟨rfl, hstage⟩ := Handler.mk.inj hh₂
        have hfree := (hwork hstage.symm).2 ⟨r₁, .working⟩ (List.mem_of_getElem? hold₁) rfl
        exact absurd (heq.trans hk) hfree
      · exact hs.held i₁ i₂ r₁ r₂ hold₁ hold₂ heq
  notTaken j r₁ k₁ hj hk₁ := by
    rcases getElem?_move hj with ⟨-, hh⟩ | ⟨-, hj⟩
    · obtain ⟨rfl, hstage⟩ := Handler.mk.inj hh
      obtain rfl := Option.some.inj (hk₁.symm.trans hk)
      exact (hwork hstage.symm).1
    · exact hs.notTaken j r₁ k₁ hj hk₁
  duplicate j r₁ hj := by
    rcases getElem?_move hj with ⟨-, hh⟩ | ⟨-, hj⟩
    · obtain ⟨rfl, hstage⟩ := Handler.mk.inj hh
      exact ⟨k, hdup hstage.symm, hk⟩
    · exact hs.duplicate j r₁ hj
  handler_allowed j h hj := by
    rcases getElem?_move hj with ⟨rfl, rfl⟩ | ⟨-, hj⟩
    · have hr : r ∈ allowed := hs.handler_allowed i _ hi
      exact hr
    · exact hs.handler_allowed j h hj
  applied_allowed := hs.applied_allowed

/-- A handler that works commits: its key is taken now. -/
theorem Sound.commit (hs : Sound key allowed s) (hi : s.handlers[i]? = some ⟨r, .working⟩)
    (hk : key r = some k) : Sound key allowed (s.commit i r k) := by
  have hnot : k ∉ s.taken := hs.notTaken i r k hi hk
  have hold : ∀ {j : ℕ} {h : Handler ρ}, (s.commit i r k).handlers[j]? = some h →
      i = j ∧ h = ⟨r, .applied⟩ ∨ i ≠ j ∧ s.handlers[j]? = some h := fun hj => getElem?_move hj
  have hworking : ∀ {j : ℕ} {r₁ : ρ}, (s.commit i r k).handlers[j]? = some ⟨r₁, .working⟩ →
      i ≠ j ∧ s.handlers[j]? = some ⟨r₁, .working⟩ := by
    intro j r₁ hj
    rcases hold hj with ⟨-, hh⟩ | h
    · exact absurd (congrArg Handler.stage hh) Stage.noConfusion
    · exact h
  exact {
    mem_taken := fun k₁ => by
      rw [Intake.commit, List.mem_cons, hs.mem_taken]
      constructor
      · rintro (rfl | ⟨r₁, hr₁, hk₁⟩)
        · exact ⟨r, List.mem_append_right _ (List.mem_singleton_self r), hk⟩
        · exact ⟨r₁, List.mem_append_left _ hr₁, hk₁⟩
      · rintro ⟨r₁, hr₁, hk₁⟩
        rcases List.mem_append.mp hr₁ with hr₁ | hr₁
        · exact Or.inr ⟨r₁, hr₁, hk₁⟩
        · obtain rfl := List.mem_singleton.mp hr₁
          exact Or.inl (Option.some.inj (hk₁.symm.trans hk))
    nodup := by
      rw [Intake.commit, List.map_append, List.map_singleton, List.nodup_append]
      refine ⟨hs.nodup, List.nodup_singleton _, fun a ha b hb => ?_⟩
      rintro rfl
      obtain rfl := List.mem_singleton.mp hb
      obtain ⟨r₁, hr₁, heq⟩ := List.mem_map.mp ha
      exact hnot ((hs.mem_taken k).mpr ⟨r₁, hr₁, heq.trans hk⟩)
    keyed := fun r₁ hr₁ => by
      rcases List.mem_append.mp hr₁ with hr₁ | hr₁
      · exact hs.keyed r₁ hr₁
      · rw [List.mem_singleton.mp hr₁, hk]
        exact Option.some_ne_none k
    held := fun i₁ i₂ r₁ r₂ h₁ h₂ =>
      hs.held i₁ i₂ r₁ r₂ (hworking h₁).2 (hworking h₂).2
    notTaken := fun j r₁ k₁ hj hk₁ => by
      obtain ⟨hne, hrest⟩ := hworking hj
      refine List.not_mem_cons_of_ne_of_not_mem (fun heq => ?_) (hs.notTaken j r₁ k₁ hrest hk₁)
      exact hne (hs.held i j r r₁ hi hrest (by rw [hk, hk₁, heq]))
    duplicate := fun j r₁ hj => by
      rcases hold hj with ⟨-, hh⟩ | ⟨-, hj⟩
      · exact absurd (congrArg Handler.stage hh) Stage.noConfusion
      · obtain ⟨k₁, hk₁, hr₁⟩ := hs.duplicate j r₁ hj
        exact ⟨k₁, List.mem_cons_of_mem _ hk₁, hr₁⟩
    handler_allowed := fun j h hj => by
      rcases hold hj with ⟨-, rfl⟩ | ⟨-, hj⟩
      · have hr : r ∈ allowed := hs.handler_allowed i _ hi
        exact hr
      · exact hs.handler_allowed j h hj
    applied_allowed := fun r₁ hr₁ => by
      rcases List.mem_append.mp hr₁ with hr₁ | hr₁
      · exact hs.applied_allowed r₁ hr₁
      · rw [List.mem_singleton.mp hr₁]
        exact hs.handler_allowed i _ hi }

/-- Every step keeps the keys sound. -/
theorem Sound.step (hs : Sound key allowed s) (h : Step key allowed s s') :
    Sound key allowed s' := by
  cases h with
  | arrive hr hk => exact hs.withHandler hr Stage.noConfusion Stage.noConfusion
  | refuse hr hk => exact hs.withHandler hr Stage.noConfusion Stage.noConfusion
  | seen hi hk htaken => exact hs.move hi hk Stage.noConfusion fun _ => htaken
  | unseen hi hk htaken => exact hs.move hi hk Stage.noConfusion Stage.noConfusion
  | lost hi hk htaken => exact hs.move hi hk Stage.noConfusion fun _ => htaken
  | claim hi hk htaken hfree => exact hs.move hi hk (fun _ => ⟨htaken, hfree⟩) Stage.noConfusion
  | raise hi hk => exact hs.move hi hk Stage.noConfusion Stage.noConfusion
  | rollback hi hk => exact hs.move hi hk Stage.noConfusion Stage.noConfusion
  | commit hi hk => exact hs.commit hi hk

theorem Sound.of_reachable (h : Reachable key allowed s) : Sound key allowed s := by
  induction h with
  | refl => exact .empty
  | tail _ hstep ih => exact ih.step hstep

/-! ### One request on its own -/

theorem getElem?_withHandler_length (s : Intake ρ κ) (h : Handler ρ) :
    (s.withHandler h).handlers[s.handlers.length]? = some h := by
  rw [withHandler, List.getElem?_concat_length]

theorem getElem?_move_self {h : Handler ρ} (hi : s.handlers[i]? = some h) (r : ρ) (stage : Stage) :
    (s.move i r stage).handlers[i]? = some ⟨r, stage⟩ := by
  rw [move, List.getElem?_set_self (List.getElem?_eq_some_iff.mp hi).1]

theorem Free.withHandler (h : s.Free key k) (hstage : stage ≠ .working) :
    (s.withHandler ⟨r, stage⟩).Free key k := by
  intro h' hh' hwork
  rcases List.mem_append.mp hh' with hh' | hh'
  · exact h h' hh' hwork
  · rw [List.mem_singleton.mp hh'] at hwork
    exact absurd hwork hstage

theorem Free.move (h : s.Free key k) (hstage : stage ≠ .working) :
    (s.move i r stage).Free key k := by
  intro h' hh' hwork
  rcases List.mem_or_eq_of_mem_set hh' with hh' | rfl
  · exact h h' hh' hwork
  · exact absurd hwork hstage

/-- A request whose key is neither taken nor held takes effect when it comes. -/
theorem exists_applied (hr : r ∈ allowed) (hk : key r = some k) (htaken : k ∉ s.taken)
    (hfree : s.Free key k) :
    ∃ s', Relation.ReflTransGen (Step key allowed) s s' ∧ s'.applied = s.applied ++ [r] := by
  have hi := getElem?_withHandler_length s ⟨r, .checking⟩
  have hi' := getElem?_move_self hi r .claiming
  have hi'' := getElem?_move_self hi' r .working
  have hfree' : ((s.withHandler ⟨r, .checking⟩).move s.handlers.length r .claiming).Free key k :=
    (hfree.withHandler Stage.noConfusion).move Stage.noConfusion
  have harrive : Step key allowed s _ := .arrive hr hk
  have hunseen : Step key allowed _ _ := .unseen hi hk htaken
  have hclaim : Step key allowed _ _ := .claim hi' hk htaken hfree'
  have hcommit : Step key allowed _ _ := .commit hi'' hk
  exact ⟨_, (((Relation.ReflTransGen.single harrive).tail hunseen).tail hclaim).tail hcommit, rfl⟩

/-! ### Exactly once -/

/-- Each content takes effect exactly once, in all runs, exactly if no two contents have one key. -/
theorem exactlyOnce_iff (content : ρ → β)
    (hkey : ∀ r r' k k', content r = content r' → key r = some k → key r' = some k' → k = k') :
    (∀ s, Reachable key allowed s → ExactlyOnce key allowed content s) ↔
      ∀ r ∈ allowed, ∀ r' ∈ allowed, ∀ k, key r = some k → key r' = some k →
        content r = content r' := by
  constructor
  · intro h r hr r' hr' k hk hk'
    -- the first takes effect, and then the second is a duplicate
    obtain ⟨s, hs, happlied⟩ := exists_applied (s := empty) hr hk List.not_mem_nil
      fun h hh => absurd hh List.not_mem_nil
    have happlied' : s.applied = [r] := happlied
    have htaken : k ∈ s.taken := (Sound.of_reachable hs).mem_taken k |>.mpr
      ⟨r, by rw [happlied']; exact List.mem_singleton_self r, hk⟩
    have hi := getElem?_withHandler_length s ⟨r', .checking⟩
    have hrun : Reachable key allowed
        ((s.withHandler ⟨r', .checking⟩).move s.handlers.length r' .duplicate) :=
      (hs.tail (.arrive hr' hk')).tail (.seen hi hk' htaken)
    have hlost := (h _ hrun).neverLost ⟨r', .duplicate⟩
      (List.mem_of_getElem? (getElem?_move_self hi r' .duplicate)) rfl
    have hmem : content r' ∈ s.applied.map content := hlost
    rw [happlied', List.map_singleton, List.mem_singleton] at hmem
    exact hmem.symm
  · intro h s hs
    have hsound := Sound.of_reachable hs
    refine ⟨?_, ?_, ?_⟩
    · refine List.Nodup.map_on (fun r hr r' hr' hcontent => ?_) hsound.nodup.of_map
      obtain ⟨k, hk⟩ := Option.ne_none_iff_exists'.mp (hsound.keyed r hr)
      obtain ⟨k', hk'⟩ := Option.ne_none_iff_exists'.mp (hsound.keyed r' hr')
      have heq := hkey r r' k k' hcontent hk hk'
      exact List.inj_on_of_nodup_map hsound.nodup hr hr' (by rw [hk, hk', heq])
    · rintro ⟨r, stage⟩ hh rfl
      obtain ⟨i, hi⟩ := List.mem_iff_getElem?.mp hh
      obtain ⟨k, htaken, hk⟩ := hsound.duplicate i r hi
      obtain ⟨r', hr', hk'⟩ := (hsound.mem_taken k).mp htaken
      have hcontent :=
        h r (hsound.handler_allowed i _ hi) r' (hsound.applied_allowed r' hr') k hk hk'
      exact List.mem_map.mpr ⟨r', hr', hcontent.symm⟩
    · intro r hr k hk hfree hnew
      refine exists_applied hr hk (fun htaken => ?_) hfree
      obtain ⟨r', hr', hk'⟩ := (hsound.mem_taken k).mp htaken
      exact hnew (List.mem_map.mpr
        ⟨r', hr', h r' (hsound.applied_allowed r' hr') r hr k hk' hk⟩)

end Intake

end Transition
