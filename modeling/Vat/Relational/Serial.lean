import Vat.Relational.Table

/-!
# Tables whose primary keys are numbered

The primary key of a new row is the next number of a sequence. A batch of new rows is inserted row
by row, and the whole batch fails when one of its rows has a unique key that is taken.

## Main definitions

* `Serial`: a table and its sequence.
* `NewRows`: what the rows of a batch are made from.
* `Serial.insert?`, `Serial.insertAll?`.

## Main results

* `Serial.insertAll?_isSome_iff`: when a batch goes through.
* `Serial.getBy?_of_insertAll?_of_forall_ne`, `Serial.getBy?_of_insertAll?_of_mem`: every unique key
  read back after a batch.
-/

namespace Relational

variable {ρ υ ι : Type*} [Row ρ ℕ υ]

/-- A table and the next number of the sequence of its primary keys. -/
structure Serial (ρ : Type*) {υ : Type*} [Row ρ ℕ υ] where
  table : Table ρ
  nextId : ℕ
  pk_lt : ∀ r ∈ table.rows, Row.pk r < nextId

/-- The members of a batch, with the unique key and the row of each. -/
structure NewRows (ι ρ : Type*) {υ : Type*} [Row ρ ℕ υ] where
  key : ι → υ
  row : ι → ℕ → ρ
  pk_row : ∀ i n, Row.pk (row i n) = n
  uk_row : ∀ i n, Row.uk (row i n) = key i

namespace Serial

/-- The table without rows. -/
def empty : Serial ρ := ⟨Table.empty, 0, fun _ h => by cases h⟩

/-- Every row updated by a function that keeps the keys. -/
def mapRows (s : Serial ρ) (f : ρ → ρ) (hf : KeepsKeys f) : Serial ρ where
  table := s.table.mapRows f hf
  nextId := s.nextId
  pk_lt := by
    intro r hr
    obtain ⟨r₀, hr₀, rfl⟩ := List.mem_map.mp hr
    rw [(hf r₀).1]
    exact s.pk_lt r₀ hr₀

variable [DecidableEq υ] (b : NewRows ι ρ)

theorem canInsert_iff {s : Serial ρ} {i : ι} :
    s.table.CanInsert (b.row i s.nextId) ↔ s.table.getBy? (b.key i) = none := by
  rw [Table.getBy?_eq_none_iff, Table.CanInsert, b.pk_row, b.uk_row, List.mem_map, List.mem_map]
  constructor
  · rintro ⟨-, h⟩ r hr hk
    exact h ⟨r, hr, hk⟩
  · intro h
    refine ⟨?_, ?_⟩
    · rintro ⟨r, hr, hk⟩
      exact Nat.ne_of_lt (s.pk_lt r hr) hk
    · rintro ⟨r, hr, hk⟩
      exact h r hr hk

/-- The row of a member of a batch under the next number; `none` when its unique key is taken. -/
def insert? (s : Serial ρ) (i : ι) : Option (Serial ρ) :=
  if h : s.table.CanInsert (b.row i s.nextId) then
    some
      { table := s.table.insert (b.row i s.nextId) h
        nextId := s.nextId + 1
        pk_lt := by
          intro r hr
          rcases List.mem_append.mp hr with hr | hr
          · exact Nat.lt_succ_of_lt (s.pk_lt r hr)
          · rw [List.mem_singleton.mp hr, b.pk_row]
            exact Nat.lt_succ_self _ }
  else none

theorem insert?_isSome_iff {s : Serial ρ} {i : ι} :
    (∃ s', s.insert? b i = some s') ↔ s.table.getBy? (b.key i) = none := by
  rw [← canInsert_iff b]
  unfold insert?
  split_ifs with h
  · exact iff_of_true ⟨_, rfl⟩ h
  · refine iff_of_false ?_ h
    rintro ⟨s', h'⟩
    cases h'

theorem getBy?_of_insert? {s s' : Serial ρ} {i : ι} (h : s.insert? b i = some s') (u : υ) :
    s'.table.getBy? u =
      if b.key i = u then some (b.row i s.nextId) else s.table.getBy? u := by
  unfold insert? at h
  split_ifs at h with hcan
  cases h
  rw [Table.getBy?_insert, b.uk_row]

/-- The rows of a batch, one after another; `none` when one of them cannot be inserted. -/
def insertAll? (s : Serial ρ) (l : List ι) : Option (Serial ρ) :=
  l.foldlM (fun s i => s.insert? b i) s

@[simp] theorem insertAll?_nil (s : Serial ρ) : s.insertAll? b [] = some s := rfl

theorem insertAll?_cons {s s' : Serial ρ} {i : ι} {l : List ι} :
    s.insertAll? b (i :: l) = some s' ↔
      ∃ t, s.insert? b i = some t ∧ t.insertAll? b l = some s' := by
  rw [insertAll?, List.foldlM_cons]
  exact Option.bind_eq_some_iff

/-- A batch goes through when its unique keys are different and free. -/
theorem insertAll?_isSome_iff {s : Serial ρ} {l : List ι} :
    (∃ s', s.insertAll? b l = some s') ↔
      (l.map b.key).Nodup ∧ ∀ i ∈ l, s.table.getBy? (b.key i) = none := by
  induction l generalizing s with
  | nil => simp
  | cons i l ih =>
    have hstep : (∃ s', s.insertAll? b (i :: l) = some s') ↔
        ∃ t, s.insert? b i = some t ∧ ∃ s', t.insertAll? b l = some s' := by
      simp only [insertAll?_cons b, ← exists_and_left]
      exact exists_comm
    rw [hstep, List.map_cons, List.nodup_cons, List.forall_mem_cons, ← insert?_isSome_iff b]
    constructor
    · rintro ⟨t, ht, hl⟩
      obtain ⟨hnodup, hfree⟩ := ih.mp hl
      have hne : ∀ j ∈ l, b.key i ≠ b.key j := by
        intro j hj hk
        have := hfree j hj
        rw [getBy?_of_insert? b ht, if_pos hk] at this
        cases this
      refine ⟨⟨fun hmem => ?_, hnodup⟩, ⟨t, ht⟩, fun j hj => ?_⟩
      · obtain ⟨j, hj, hk⟩ := List.mem_map.mp hmem
        exact hne j hj hk.symm
      · rw [← hfree j hj, getBy?_of_insert? b ht, if_neg (hne j hj)]
    · rintro ⟨⟨hnotMem, hnodup⟩, ⟨t, ht⟩, hfree⟩
      refine ⟨t, ht, ih.mpr ⟨hnodup, fun j hj => ?_⟩⟩
      rw [getBy?_of_insert? b ht, if_neg fun hk => hnotMem (List.mem_map.mpr ⟨j, hj, hk.symm⟩)]
      exact hfree j hj

variable {b} {s s' : Serial ρ} {l : List ι}

/-- A batch leaves the rows under the unique keys that it does not have. -/
theorem getBy?_of_insertAll?_of_forall_ne (h : s.insertAll? b l = some s') {u : υ}
    (hne : ∀ i ∈ l, b.key i ≠ u) : s'.table.getBy? u = s.table.getBy? u := by
  induction l generalizing s with
  | nil =>
    cases h
    rfl
  | cons i l ih =>
    obtain ⟨hi, hne⟩ := List.forall_mem_cons.mp hne
    obtain ⟨t, ht, hl⟩ := (insertAll?_cons b).mp h
    rw [ih hl hne, getBy?_of_insert? b ht, if_neg hi]

theorem getBy?_of_insertAll?_of_eq_some (h : s.insertAll? b l = some s') {u : υ} {r : ρ}
    (hr : s.table.getBy? u = some r) : s'.table.getBy? u = some r := by
  rw [getBy?_of_insertAll?_of_forall_ne h, hr]
  rintro i hi rfl
  rw [((insertAll?_isSome_iff b).mp ⟨s', h⟩).2 i hi] at hr
  cases hr

/-- A batch leaves each of its members under its unique key. -/
theorem getBy?_of_insertAll?_of_mem (h : s.insertAll? b l = some s') {i : ι} (hi : i ∈ l) :
    ∃ n, s'.table.getBy? (b.key i) = some (b.row i n) := by
  induction l generalizing s with
  | nil => cases hi
  | cons j l ih =>
    obtain ⟨t, ht, hl⟩ := (insertAll?_cons b).mp h
    rcases List.mem_cons.mp hi with rfl | hi
    · have hget : t.table.getBy? (b.key i) = some (b.row i s.nextId) := by
        rw [getBy?_of_insert? b ht, if_pos rfl]
      exact ⟨_, getBy?_of_insertAll?_of_eq_some hl hget⟩
    · exact ih hl hi

end Serial

end Relational
