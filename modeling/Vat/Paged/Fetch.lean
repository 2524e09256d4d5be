import Mathlib.Data.Nat.Find
import Vat.Paged.Window

/-!
# Fetching page after page

A client reads the pages of a listing one after another, until one is empty or shorter than the page
size. It ends when it reads nothing where a page is missing, so that it takes what it has for the
whole listing; it ends with the error when a read fails.

## Main definitions

* `Returns`: a computation with a budget of steps ends with a result.
* `fetchFrom`, `fetch`.

## Main results

* `fetch_of_served`: the listing, when every page is read.
* `fetch_of_missing`, `fetch_of_error`: what the first page that is not read decides.
* `fetch_complete_or_error`: reads that fail aloud give the listing or the error.
* `returns_fetch`, `fetch_complete_iff`: reads that fail silently give the listing exactly when
  every page that has a part of it is read.
-/

namespace Paged

/-- With enough steps, the computation ends with `r`. -/
def Returns {β : Type*} (f : ℕ → Option β) (r : β) : Prop := ∃ n, ∀ m ≥ n, f m = some r

theorem Returns.unique {β : Type*} {f : ℕ → Option β} {r r' : β} (h : Returns f r)
    (h' : Returns f r') : r = r' := by
  obtain ⟨n, hn⟩ := h
  obtain ⟨n', hn'⟩ := h'
  have heq := (hn (max n n') (le_max_left n n')).symm.trans (hn' _ (le_max_right n n'))
  exact Option.some.inj heq

variable {α ε : Type*} (read : ℕ → Except ε (List α)) (size : ℕ)

/-- The loop, from a page on, with the entries so far: `none` when the steps are used up. -/
def fetchFrom : ℕ → ℕ → List α → Option (Except ε (List α))
  | 0, _, _ => none
  | steps + 1, page, acc =>
    match read page with
    | .error e => some (.error e)
    | .ok items =>
      if items.length = 0 then some (.ok acc)
      else if items.length < size then some (.ok (acc ++ items))
      else fetchFrom steps (page + 1) (acc ++ items)

/-- The loop from the first page on. -/
def fetch (steps : ℕ) : Option (Except ε (List α)) := fetchFrom read size steps 0 []

variable {read size} {l : List α}

/-- Steps that are left over change nothing. -/
theorem fetchFrom_add {r : Except ε (List α)} {steps page : ℕ} {acc : List α}
    (h : fetchFrom read size steps page acc = some r) (k : ℕ) :
    fetchFrom read size (steps + k) page acc = some r := by
  induction steps generalizing page acc with
  | zero => cases h
  | succ steps ih =>
    rw [Nat.succ_add]
    unfold fetchFrom at h ⊢
    cases hread : read page with
    | error e =>
      rw [hread] at h
      exact h
    | ok items =>
      simp only [hread] at h ⊢
      split_ifs at h ⊢ with hempty hshort
      · exact h
      · exact h
      · exact ih h

theorem returns_of_fetch {r : Except ε (List α)} {steps : ℕ} (h : fetch read size steps = some r) :
    Returns (fetch read size) r := by
  refine ⟨steps, fun m hm => ?_⟩
  obtain ⟨k, rfl⟩ := Nat.exists_eq_add_of_le hm
  exact fetchFrom_add h k

/-- Page `i` is read. -/
def Served (read : ℕ → Except ε (List α)) (size : ℕ) (l : List α) (i : ℕ) : Prop :=
  read i = .ok (window (i * size) size l)

/-- The full pages that are read. -/
theorem fetch_served {p : ℕ} (hsize : 0 < size) (hp : p * size ≤ l.length)
    (hserved : ∀ i < p, Served read size l i) (steps : ℕ) :
    fetch read size (p + steps) = fetchFrom read size steps p (l.take (p * size)) := by
  induction p generalizing steps with
  | zero => rw [Nat.zero_add, Nat.zero_mul, List.take_zero, fetch]
  | succ p ih =>
    have hmul : (p + 1) * size = p * size + size := Nat.succ_mul p size
    have hfull : (window (p * size) size l).length = size := by
      rw [length_window]
      omega
    have hpage : read p = .ok (window (p * size) size l) := hserved p (Nat.lt_succ_self p)
    rw [Nat.succ_add_eq_add_succ, ih (by omega) (fun i hi => hserved i (Nat.lt_succ_of_lt hi))]
    rw [fetchFrom, hpage]
    simp only [hfull, lt_irrefl, if_false, Nat.ne_of_gt hsize, take_add_window, hmul]

/-- The listing, when every page is read. -/
theorem fetch_of_served (hsize : 0 < size)
    (hserved : ∀ i, i * size ≤ l.length → Served read size l i) :
    Returns (fetch read size) (.ok l) := by
  let p := l.length / size
  have hle : p * size ≤ l.length := Nat.div_mul_le_self l.length size
  have hlt : l.length < p * size + size := by
    rw [← Nat.succ_mul]
    exact Nat.lt_mul_of_div_lt (Nat.lt_succ_self p) hsize
  have hfull : ∀ i < p, Served read size l i := fun i hi =>
    hserved i (le_trans (Nat.mul_le_mul_right size (Nat.le_of_lt hi)) hle)
  have hpage : read p = .ok (window (p * size) size l) := hserved p hle
  have hwindow : (window (p * size) size l).length = l.length - p * size := by
    rw [length_window]
    omega
  have hall : l.take (p * size) ++ window (p * size) size l = l := by
    rw [take_add_window, List.take_of_length_le (Nat.le_of_lt hlt)]
  have hend : fetchFrom read size 1 p (l.take (p * size)) = some (.ok l) := by
    rw [fetchFrom, hpage]
    simp only [hall]
    split_ifs with hempty hshort
    · rw [List.length_eq_zero_iff.mp hempty, List.append_nil] at hall
      rw [hall]
    · rfl
    · omega
  exact returns_of_fetch ((fetch_served hsize hle hfull 1).trans hend)

/-- The loop ends where it reads nothing. -/
theorem fetch_of_missing {p : ℕ} (hsize : 0 < size) (hp : p * size ≤ l.length)
    (hserved : ∀ i < p, Served read size l i) (hmissing : read p = .ok []) :
    Returns (fetch read size) (.ok (l.take (p * size))) := by
  refine returns_of_fetch ((fetch_served hsize hp hserved 1).trans ?_)
  rw [fetchFrom, hmissing]
  rfl

/-- The loop fails where a read fails. -/
theorem fetch_of_error {p : ℕ} {e : ε} (hsize : 0 < size) (hp : p * size ≤ l.length)
    (hserved : ∀ i < p, Served read size l i) (herror : read p = .error e) :
    Returns (fetch read size) (.error e) := by
  refine returns_of_fetch ((fetch_served hsize hp hserved 1).trans ?_)
  rw [fetchFrom, herror]

/-- Every page of the listing is read, or there is a first one that is not. -/
theorem served_or_first (read : ℕ → Except ε (List α)) (size : ℕ) (l : List α) :
    (∀ i, i * size ≤ l.length → Served read size l i) ∨
      ∃ p, p * size ≤ l.length ∧ (∀ i < p, Served read size l i) ∧ ¬ Served read size l p := by
  classical
  by_cases h : ∃ p, p * size ≤ l.length ∧ ¬ Served read size l p
  · refine .inr ⟨Nat.find h, (Nat.find_spec h).1, fun i hi => ?_, (Nat.find_spec h).2⟩
    by_contra hnot
    have hle : i * size ≤ l.length :=
      le_trans (Nat.mul_le_mul_right size (Nat.le_of_lt hi)) (Nat.find_spec h).1
    exact Nat.find_min h hi ⟨hle, hnot⟩
  · push Not at h
    exact .inl h

/-- Reads that fail aloud give the listing or the error. -/
theorem fetch_complete_or_error (hsize : 0 < size)
    (hread : ∀ i, Served read size l i ∨ ∃ e, read i = .error e) :
    Returns (fetch read size) (.ok l) ∨ ∃ e, Returns (fetch read size) (.error e) := by
  rcases served_or_first read size l with hserved | ⟨p, hp, hbefore, hnot⟩
  · exact .inl (fetch_of_served hsize hserved)
  · obtain ⟨e, he⟩ := (hread p).resolve_left hnot
    exact .inr ⟨e, fetch_of_error hsize hp hbefore he⟩

/-- Reads that fail silently give the listing, or what comes before the first of them. -/
theorem returns_fetch (hsize : 0 < size) (hread : ∀ i, Served read size l i ∨ read i = .ok []) :
    Returns (fetch read size) (.ok l) ∨ ∃ p, p * size < l.length ∧
      Returns (fetch read size) (.ok (l.take (p * size))) := by
  rcases served_or_first read size l with hserved | ⟨p, hp, hbefore, hnot⟩
  · exact .inl (fetch_of_served hsize hserved)
  · have hmissing := (hread p).resolve_left hnot
    have h := fetch_of_missing hsize hp hbefore hmissing
    rcases Nat.lt_or_eq_of_le hp with hlt | heq
    · exact .inr ⟨p, hlt, h⟩
    · rw [heq, List.take_length] at h
      exact .inl h

/-- Reads that fail silently give the listing exactly when every page that has a part of it is
read. -/
theorem fetch_complete_iff (hsize : 0 < size)
    (hread : ∀ i, Served read size l i ∨ read i = .ok []) :
    Returns (fetch read size) (.ok l) ↔ ∀ i, i * size < l.length → Served read size l i := by
  constructor
  · intro h
    rcases served_or_first read size l with hserved | ⟨p, hp, hbefore, hnot⟩
    · exact fun i hi => hserved i (Nat.le_of_lt hi)
    · have hmissing := (hread p).resolve_left hnot
      have htake : l = l.take (p * size) :=
        Except.ok.inj (h.unique (fetch_of_missing hsize hp hbefore hmissing))
      have hlen : l.length ≤ p * size := by
        have := congrArg List.length htake
        rw [List.length_take] at this
        omega
      exact absurd (by rw [Served, window_of_length_le hlen, hmissing]) hnot
  · intro h
    refine fetch_of_served hsize fun i hi => ?_
    rcases Nat.lt_or_eq_of_le hi with hlt | heq
    · exact h i hlt
    · rcases hread i with hserved | hmissing
      · exact hserved
      · rw [Served, window_of_length_le (Nat.le_of_eq heq.symm), hmissing]

end Paged
