import Mathlib.Data.List.Induction
import Mathlib.Data.List.Range

/-!
# Logs that feed themselves, and journals

Each call adds one record to a log, and the record may depend on the log so far. Two ways to
compute the records fill the same log exactly when they agree at every call, on the log that both
have filled until then.

A versioned value comes with a journal of its versions. The journal is complete at version `n`
when its entries are numbered `1, …, n` in order and the last one holds the value.

## Main definitions

* `record`: the log after some calls.
* `Journal`: a complete journal.

## Main results

* `record_eq_iff`: when two logs are equal.
* `exists_first_of_mem`, `exists_last_of_mem`: the first and last element with a property.
* `Journal.singleton`, `Journal.append`: a first version, and one version more.
-/

namespace Transition

variable {ρ κ : Type*} {next next' : List ρ → κ → ρ}

/-- The log after some calls, each of which adds the record `next log c`. -/
def record (next : List ρ → κ → ρ) (log : List ρ) (calls : List κ) : List ρ :=
  calls.foldl (fun log c => log ++ [next log c]) log

@[simp] theorem record_nil (log : List ρ) : record next log [] = log := rfl

@[simp] theorem record_cons (log : List ρ) (c : κ) (calls : List κ) :
    record next log (c :: calls) = record next (log ++ [next log c]) calls := rfl

theorem record_append (log : List ρ) (calls calls' : List κ) :
    record next log (calls ++ calls') = record next (record next log calls) calls' :=
  List.foldl_append

@[simp] theorem length_record (log : List ρ) (calls : List κ) :
    (record next log calls).length = log.length + calls.length := by
  induction calls generalizing log with
  | nil => rfl
  | cons c calls ih =>
    rw [record_cons, ih, List.length_append, List.length_singleton, List.length_cons]
    omega

/-- What is before the log can be left out of it. -/
theorem record_eq_append (before log : List ρ) (calls : List κ) :
    record next (before ++ log) calls =
      before ++ record (fun l => next (before ++ l)) log calls := by
  induction calls generalizing log with
  | nil => rfl
  | cons c calls ih => rw [record_cons, record_cons, List.append_assoc, ih]

/-- A log keeps what it has, and each new record is that of some call. -/
theorem exists_record_eq (next : List ρ → κ → ρ) (log : List ρ) (calls : List κ) :
    ∃ new, record next log calls = log ++ new ∧ ∀ r ∈ new, ∃ c ∈ calls, ∃ l, r = next l c := by
  induction calls generalizing log with
  | nil => exact ⟨[], by simp, by simp⟩
  | cons c calls ih =>
    obtain ⟨new, heq, hnew⟩ := ih (log ++ [next log c])
    refine ⟨next log c :: new, by rw [record_cons, heq, List.append_assoc, List.singleton_append],
      fun r hr => ?_⟩
    rcases List.mem_cons.mp hr with rfl | hr
    · exact ⟨c, List.mem_cons_self, log, rfl⟩
    · obtain ⟨d, hd, l, rfl⟩ := hnew r hr
      exact ⟨d, List.mem_cons_of_mem _ hd, l, rfl⟩

theorem mem_record {log : List ρ} {calls : List κ} {r : ρ} (hr : r ∈ record next log calls) :
    r ∈ log ∨ ∃ c ∈ calls, ∃ l, r = next l c := by
  obtain ⟨new, heq, hnew⟩ := exists_record_eq next log calls
  rw [heq, List.mem_append] at hr
  exact hr.imp_right (hnew r)

/-- Two ways to compute the records fill the same log exactly when they agree at every call. -/
theorem record_eq_iff {log : List ρ} {calls : List κ} :
    record next log calls = record next' log calls ↔
      ∀ pre c post, calls = pre ++ c :: post →
        next (record next log pre) c = next' (record next log pre) c := by
  induction calls using List.reverseRecOn with
  | nil => simp
  | append_singleton calls d ih =>
    rw [record_append, record_append, record_cons, record_cons, record_nil, record_nil]
    constructor
    · intro h pre c post heq
      obtain ⟨hcalls, hlast⟩ := List.append_inj' h rfl
      rcases List.eq_nil_or_concat post with rfl | ⟨post, e, rfl⟩
      · obtain ⟨rfl, hd⟩ := List.append_inj' heq rfl
        obtain rfl : d = c := List.singleton_inj.mp hd
        rw [hcalls] at hlast ⊢
        exact List.singleton_inj.mp hlast
      · have hinit : calls = pre ++ c :: post :=
          (List.append_inj' (heq.trans (by simp : _ = (pre ++ c :: post) ++ [e])) rfl).1
        exact ih.mp hcalls pre c post hinit
    · intro h
      have hcalls : record next log calls = record next' log calls :=
        ih.mpr fun pre c post heq => h pre c (post ++ [d]) (by rw [heq]; simp)
      rw [← hcalls, h calls d [] rfl]

/-- Every call has its record in the log. -/
theorem exists_mem_record (next : List ρ → κ → ρ) (log : List ρ) {calls : List κ} {c : κ} (hc : c ∈ calls) :
    ∃ l, next l c ∈ record next log calls := by
  obtain ⟨pre, post, rfl⟩ := List.append_of_mem hc
  obtain ⟨new, heq, -⟩ := exists_record_eq next
    (record next log pre ++ [next (record next log pre) c]) post
  exact ⟨record next log pre, by rw [record_append, record_cons, heq]; simp⟩

/-- The first element of a list with a property. -/
theorem exists_first_of_mem {p : κ → Prop} {l : List κ} {a : κ} (ha : a ∈ l) (hp : p a) :
    ∃ pre b post, l = pre ++ b :: post ∧ p b ∧ ∀ x ∈ pre, ¬ p x := by
  induction l with
  | nil => cases ha
  | cons b l ih =>
    by_cases hb : p b
    · exact ⟨[], b, l, rfl, hb, by simp⟩
    · have hal : a ∈ l := (List.mem_cons.mp ha).resolve_left fun heq => hb (heq ▸ hp)
      obtain ⟨pre, c, post, rfl, hc, hpre⟩ := ih hal
      exact ⟨b :: pre, c, post, rfl, hc, List.forall_mem_cons.mpr ⟨hb, hpre⟩⟩

/-- The last element of a list with a property. -/
theorem exists_last_of_mem {p : κ → Prop} {l : List κ} {a : κ} (ha : a ∈ l) (hp : p a) :
    ∃ pre b post, l = pre ++ b :: post ∧ p b ∧ ∀ x ∈ post, ¬ p x := by
  obtain ⟨pre, b, post, heq, hb, hpre⟩ := exists_first_of_mem (List.mem_reverse.mpr ha) hp
  refine ⟨post.reverse, b, pre.reverse, ?_, hb, fun x hx => hpre x (List.mem_reverse.mp hx)⟩
  rw [← List.reverse_reverse l, heq]
  simp

end Transition

namespace Transition

/-! ### Journals of a versioned value -/

variable {ρ ν : Type*} {number : ρ → ℕ} {value : ρ → ν}

/-- The entries are numbered from one to `n` and the last one holds `v`. -/
structure Journal (number : ρ → ℕ) (value : ρ → ν) (log : List ρ) (n : ℕ) (v : ν) : Prop where
  numbers : log.map number = List.range' 1 n
  last : ∃ r, log.getLast? = some r ∧ value r = v

/-- A first version. -/
theorem Journal.singleton {r : ρ} (hr : number r = 1) : Journal number value [r] 1 (value r) :=
  ⟨by simp [hr], r, rfl, rfl⟩

/-- One version more. -/
theorem Journal.append {log : List ρ} {n : ℕ} {v : ν} (h : Journal number value log n v) {r : ρ}
    (hr : number r = n + 1) : Journal number value (log ++ [r]) (n + 1) (value r) := by
  refine ⟨?_, r, by simp, rfl⟩
  rw [List.map_append, h.numbers, List.range'_concat, List.map_singleton, hr]
  simp [Nat.add_comm]

end Transition
