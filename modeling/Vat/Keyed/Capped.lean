import Mathlib.Data.List.Count
import Mathlib.Data.List.Induction
import Mathlib.Data.List.Perm.Basic
import Vat.Keyed.Dictionary

/-!
# Buckets with a cap, and bounded memos

A loop keeps at most so many values of each bucket and skips the others; a value without a bucket is
always kept. What is kept and what is skipped are the values, and what is kept of a bucket comes
before what is skipped of it.

A memo holds values of a function that were computed before. When it is full, the oldest entry makes
room for a new one.

## Main definitions

* `Capped`, `capped`.
* `Memo.ask`: the value of the function from the memo, or computed and put there.
* `Memo.Sound`: every entry is a value of the function.

## Main results

* `capped_perm`, `kept_sublist`: nothing is lost, and what is kept stays in its order.
* `countP_kept_le`: the cap.
* `capped_dominates`: in a sorted list, what is kept of a bucket comes before what is skipped of it.
* `Memo.Sound.ask_fst`, `Memo.Sound.ask_snd`: a sound memo gives the value and stays sound.
-/

namespace Keyed

variable {α κ : Type*} [DecidableEq κ]

/-- The state of the loop: how many values of each bucket are kept, and the values that are kept and
skipped. -/
structure Capped (α κ : Type*) [DecidableEq κ] where
  counts : Dictionary κ ℕ
  kept : List α
  skipped : List α

/-- How many values of a bucket are kept. -/
def Capped.count (s : Capped α κ) (k : κ) : ℕ := (s.counts.get? k).getD 0

/-- One value. -/
def Capped.step (bucket : α → Option κ) (cap : ℕ) (s : Capped α κ) (a : α) : Capped α κ :=
  match bucket a with
  | none => { s with kept := s.kept ++ [a] }
  | some k =>
    if cap ≤ s.count k then { s with skipped := s.skipped ++ [a] }
    else { s with counts := s.counts.set k (s.count k + 1), kept := s.kept ++ [a] }

/-- The loop. -/
def capped (bucket : α → Option κ) (cap : ℕ) (l : List α) : Capped α κ :=
  l.foldl (Capped.step bucket cap) ⟨.empty, [], []⟩

variable {bucket : α → Option κ} {cap : ℕ} {l : List α} {s : Capped α κ} {a : α}

theorem capped_concat (l : List α) (a : α) :
    capped bucket cap (l ++ [a]) = (capped bucket cap l).step bucket cap a := by
  rw [capped, List.foldl_append]
  rfl

/-- A value is kept or skipped. It is skipped only if its bucket is full. -/
theorem Capped.step_cases (bucket : α → Option κ) (cap : ℕ) (s : Capped α κ) (a : α) :
    (s.step bucket cap a).kept = s.kept ++ [a] ∧ (s.step bucket cap a).skipped = s.skipped ∧
      (∀ k, bucket a = some k → s.count k < cap) ∧
      (∀ k, (s.step bucket cap a).count k = s.count k + if bucket a = some k then 1 else 0) ∨
    ∃ k, bucket a = some k ∧ cap ≤ s.count k ∧
      s.step bucket cap a = { s with skipped := s.skipped ++ [a] } := by
  rw [step]
  cases hbucket : bucket a with
  | none =>
    refine .inl ⟨rfl, rfl, fun k hk => (by cases hk), fun k => ?_⟩
    rw [if_neg (by simp)]
    rfl
  | some k =>
    dsimp only
    by_cases hcap : cap ≤ s.count k
    · rw [if_pos hcap]
      exact .inr ⟨k, rfl, hcap, rfl⟩
    · rw [if_neg hcap]
      refine .inl ⟨rfl, rfl, fun k' hk' => ?_, fun k' => ?_⟩
      · cases hk'
        exact Nat.not_le.mp hcap
      · rw [count, Dictionary.get?_set]
        by_cases hk : k' = k
        · rw [if_pos hk, if_pos (by rw [hk]), hk]
          rfl
        · rw [if_neg hk, if_neg fun h => hk (Option.some_inj.mp h).symm]
          rfl

/-- What the loop leaves: the counts are those of what is kept, and every bucket of a skipped value
is full. -/
structure Capped.Sound (bucket : α → Option κ) (cap : ℕ) (l : List α) (s : Capped α κ) : Prop where
  perm : (s.kept ++ s.skipped).Perm l
  kept : s.kept.Sublist l
  count_eq : ∀ k, s.count k = s.kept.countP fun a => bucket a = some k
  count_le : ∀ k, s.count k ≤ cap
  full : ∀ a ∈ s.skipped, ∃ k, bucket a = some k ∧ s.count k = cap

theorem Capped.Sound.step (h : s.Sound bucket cap l) (a : α) :
    (s.step bucket cap a).Sound bucket cap (l ++ [a]) := by
  rcases s.step_cases bucket cap a with
    ⟨hkept, hskipped, hroom, hcount⟩ | ⟨k, hk, hfull, hstep⟩
  · refine ⟨?_, ?_, fun k => ?_, fun k => ?_, fun b hb => ?_⟩
    · rw [hkept, hskipped, List.append_assoc]
      refine (List.perm_append_comm.append_left s.kept).trans ?_
      rw [← List.append_assoc]
      exact h.perm.append_right [a]
    · rw [hkept]
      exact h.kept.append_right [a]
    · rw [hcount, hkept, List.countP_append, h.count_eq, List.countP_singleton]
      simp only [decide_eq_true_eq]
    · rw [hcount]
      split_ifs with hk
      · exact hroom k hk
      · exact h.count_le k
    · rw [hskipped] at hb
      obtain ⟨k, hk, hfull⟩ := h.full b hb
      refine ⟨k, hk, ?_⟩
      -- the bucket was full, so the value has another
      rw [hcount, if_neg fun ha => Nat.ne_of_lt (hroom k ha) hfull, hfull]
      rfl
  · rw [hstep]
    refine ⟨?_, h.kept.trans (List.sublist_append_left l [a]), h.count_eq, h.count_le, fun b hb => ?_⟩
    · rw [← List.append_assoc]
      exact h.perm.append_right [a]
    · rcases List.mem_append.mp hb with hb | hb
      · exact h.full b hb
      · rw [List.mem_singleton.mp hb]
        exact ⟨k, hk, Nat.le_antisymm (h.count_le k) hfull⟩

theorem sound_capped (l : List α) : (capped bucket cap l).Sound bucket cap l := by
  induction l using List.reverseRecOn with
  | nil => exact ⟨.nil, List.Sublist.slnil, fun _ => rfl, fun _ => Nat.zero_le _, by simp [capped]⟩
  | append_singleton l a ih =>
    rw [capped_concat]
    exact ih.step a

theorem capped_perm (l : List α) :
    ((capped bucket cap l).kept ++ (capped bucket cap l).skipped).Perm l := (sound_capped l).perm

theorem kept_sublist (l : List α) : (capped bucket cap l).kept.Sublist l := (sound_capped l).kept

/-- At most so many values of a bucket are kept. -/
theorem countP_kept_le (bucket : α → Option κ) (cap : ℕ) (l : List α) (k : κ) :
    (capped bucket cap l).kept.countP (fun a => bucket a = some k) ≤ cap :=
  (sound_capped l).count_eq k ▸ (sound_capped l).count_le k

theorem exists_bucket_of_mem_skipped {a : α} (h : a ∈ (capped bucket cap l).skipped) :
    ∃ k, bucket a = some k := by
  obtain ⟨k, hk, -⟩ := (sound_capped l).full a h
  exact ⟨k, hk⟩

/-- In a sorted list, what is kept of a bucket comes before what is skipped of it. -/
theorem capped_dominates {r : α → α → Prop} (hl : l.Pairwise r) {a b : α}
    (ha : a ∈ (capped bucket cap l).kept) (hb : b ∈ (capped bucket cap l).skipped)
    (hbucket : bucket a = bucket b) : r a b := by
  induction l using List.reverseRecOn with
  | nil => cases ha
  | append_singleton l c ih =>
    obtain ⟨hl, -, hlast⟩ := List.pairwise_append.mp hl
    rw [capped_concat] at ha hb
    rcases (capped bucket cap l).step_cases bucket cap c with
      ⟨hkept, hskipped, hroom, -⟩ | ⟨k, hk, -, hstep⟩
    · rw [hskipped] at hb
      rw [hkept, List.mem_append, List.mem_singleton] at ha
      rcases ha with ha | rfl
      · exact ih hl ha hb
      · -- no value of a bucket with room is skipped
        obtain ⟨k, hk, hfull⟩ := (sound_capped l).full b hb
        exact absurd hfull (Nat.ne_of_lt (hroom k (hbucket.trans hk)))
    · rw [hstep] at ha hb
      rcases List.mem_append.mp hb with hb | hb
      · exact ih hl ha hb
      · exact hlast a ((kept_sublist l).subset ha) b hb

end Keyed

namespace Keyed

/-! ### Bounded memos -/

namespace Memo

variable {κ ν : Type*} [DecidableEq κ] (f : κ → ν) (bound : ℕ) (memo : Dictionary κ ν) (k : κ)

/-- The memo with room for one more entry. -/
def makeRoom : Dictionary κ ν :=
  match memo.entries with
  | [] => memo
  | oldest :: _ => if bound ≤ memo.entries.length then memo.erase oldest.1 else memo

/-- The value of a key, and the memo after it was asked for. -/
def ask : ν × Dictionary κ ν :=
  match memo.get? k with
  | some v => (v, memo)
  | none => (f k, (makeRoom bound memo).set k (f k))

/-- Every entry is a value of the function. -/
def Sound : Prop := ∀ k v, memo.get? k = some v → v = f k

theorem sound_empty : Sound f .empty := fun _ _ h => by cases h

variable {f memo}

theorem get?_makeRoom {k : κ} {v : ν} (h : (makeRoom bound memo).get? k = some v) :
    memo.get? k = some v := by
  rw [makeRoom] at h
  split at h
  · exact h
  · split_ifs at h
    · rw [Dictionary.get?_erase] at h
      split_ifs at h
      exact h
    · exact h

theorem Sound.ask_fst (h : Sound f memo) : (ask f bound memo k).1 = f k := by
  rw [ask]
  split
  · next v hv => exact h k v hv
  · rfl

theorem Sound.ask_snd (h : Sound f memo) : Sound f (ask f bound memo k).2 := by
  rw [ask]
  split
  · exact h
  · intro k' v hv
    rw [Dictionary.get?_set] at hv
    split_ifs at hv with hk
    · rw [hk]
      exact (Option.some.inj hv).symm
    · exact h k' v (get?_makeRoom bound hv)

end Memo

end Keyed
