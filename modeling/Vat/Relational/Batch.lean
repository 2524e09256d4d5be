import Mathlib.Data.List.Induction
import Vat.Relational.Table

/-!
# Batches written twice

A batch writes rows one after another, several of them perhaps to one key. When every write
replaces what the others write, the last write to a key is all that is left of them, so that a
second run of the batch finds every row as it would write it.

## Main definitions

* `Table.batchRow`: what a batch makes of a row.
* `Table.updateEach`: the updates of a batch.

## Main results

* `Table.updateEach_eq_self`, `Table.upsertEach_eq_self`: a batch that finds what it would write.
* `Table.upsertEach_upsertEach`: a batch of upserts written twice is written once.
* `Table.mapRows_update_of_view`, `Table.mapRows_of_update?`: a write that a view does not see.
-/

namespace Relational

variable {ρ κ υ ι : Type*} [Row ρ κ υ] [DecidableEq κ]

namespace Table

/-! ### One row -/

section BatchRow

variable {key : ι → κ} {f : ι → ρ → ρ}

/-- The writes of a batch to the row `r`. -/
def batchRow (key : ι → κ) (f : ι → ρ → ρ) (l : List ι) (r : ρ) : ρ :=
  l.foldl (fun r i => if Row.pk r = key i then f i r else r) r

@[simp] theorem batchRow_nil (r : ρ) : batchRow key f [] r = r := rfl

theorem batchRow_concat (l : List ι) (i : ι) (r : ρ) :
    batchRow key f (l ++ [i]) r =
      if Row.pk (batchRow key f l r) = key i then f i (batchRow key f l r)
      else batchRow key f l r := by
  rw [batchRow, List.foldl_append]
  rfl

theorem pk_batchRow (hf : ∀ i r, Row.pk (f i r) = Row.pk r) (l : List ι) (r : ρ) :
    Row.pk (batchRow key f l r) = Row.pk r := by
  induction l using List.reverseRecOn with
  | nil => rfl
  | append_singleton l i ih =>
    rw [batchRow_concat]
    split_ifs
    · rw [hf, ih]
    · exact ih

/-- A write replaces what the batch has made of a row. -/
theorem write_batchRow (hreplace : ∀ i j r, f i (f j r) = f i r) (i : ι) (l : List ι) (r : ρ) :
    f i (batchRow key f l r) = f i r := by
  induction l using List.reverseRecOn with
  | nil => rfl
  | append_singleton l j ih =>
    rw [batchRow_concat]
    split_ifs
    · rw [hreplace, ih]
    · exact ih

/-- A batch finds what it has made of a row as it would make it. -/
theorem batchRow_batchRow (hf : ∀ i r, Row.pk (f i r) = Row.pk r)
    (hreplace : ∀ i j r, f i (f j r) = f i r) (l : List ι) (r : ρ) :
    batchRow key f l (batchRow key f l r) = batchRow key f l r := by
  induction l using List.reverseRecOn generalizing r with
  | nil => rfl
  | append_singleton l i ih =>
    rw [batchRow_concat, pk_batchRow hf, pk_batchRow hf]
    split_ifs with hkey
    · rw [write_batchRow hreplace, batchRow_concat, pk_batchRow hf, if_pos hkey, hreplace]
    · rw [batchRow_concat, pk_batchRow hf, if_neg hkey]
      exact ih r

end BatchRow

/-! ### Updates -/

/-- The updates of a batch, one after another. -/
def updateEach (key : ι → κ) (f : ι → ρ → ρ) (hf : ∀ i, KeepsKeys (f i)) (t : Table ρ)
    (l : List ι) : Table ρ :=
  l.foldl (fun t i => t.update (key i) (f i) (hf i)) t

section UpdateEach

variable [DecidableEq υ] {key : ι → κ} {f : ι → ρ → ρ} {hf : ∀ i, KeepsKeys (f i)}

omit [DecidableEq υ] in
theorem updateEach_concat (t : Table ρ) (l : List ι) (i : ι) :
    updateEach key f hf t (l ++ [i]) = (updateEach key f hf t l).update (key i) (f i) (hf i) := by
  rw [updateEach, List.foldl_append]
  rfl

theorem rows_updateEach (t : Table ρ) (l : List ι) :
    (updateEach key f hf t l).rows = t.rows.map (batchRow key f l) := by
  induction l using List.reverseRecOn with
  | nil => exact (List.map_id' t.rows).symm
  | append_singleton l i ih =>
    rw [updateEach_concat, rows_update, ih, List.map_map]
    refine List.map_congr_left fun r _ => ?_
    rw [Function.comp_apply, batchRow_concat]

/-- A batch that finds what it would write leaves the table as it is. -/
theorem updateEach_eq_self {t : Table ρ} {l : List ι}
    (h : ∀ r ∈ t.rows, batchRow key f l r = r) : updateEach key f hf t l = t := by
  refine Table.ext ?_
  rw [rows_updateEach]
  exact (List.map_congr_left h).trans (List.map_id' t.rows)

end UpdateEach

/-! ### Upserts -/

section UpsertEach

variable [DecidableEq υ] [SingleKey ρ] {row : ι → ρ} {f : ι → ρ → ρ} {hf : ∀ i, KeepsKeys (f i)}

omit [SingleKey ρ] in
theorem upsertEach_concat (t : Table ρ) (l : List ι) (i : ι) :
    upsertEach row f hf t (l ++ [i]) = (upsertEach row f hf t l).upsert (row i) (f i) (hf i) := by
  rw [upsertEach, List.foldl_append]
  rfl

/-- An upsert of a row that is there is an update. -/
theorem upsert_of_isSome {t : Table ρ} {r : ρ} {g : ρ → ρ} {hg : KeepsKeys g}
    (h : (t.get? (Row.pk r)).isSome) : t.upsert r g hg = t.update (Row.pk r) g hg := by
  rw [upsert, dif_neg]
  intro hcan
  rw [canInsert_iff.mp hcan] at h
  cases h

theorem isSome_get?_upsert {t : Table ρ} {r : ρ} {g : ρ → ρ} {hg : KeepsKeys g} {k : κ} :
    ((t.upsert r g hg).get? k).isSome ↔ k = Row.pk r ∨ (t.get? k).isSome := by
  rw [get?_upsert]
  split_ifs with hk
  · exact iff_of_true rfl (Or.inl hk)
  · exact (or_iff_right hk).symm

theorem isSome_get?_upsertEach {t : Table ρ} {l : List ι} {k : κ} :
    ((upsertEach row f hf t l).get? k).isSome ↔
      (∃ i ∈ l, k = Row.pk (row i)) ∨ (t.get? k).isSome := by
  induction l using List.reverseRecOn with
  | nil => simp
  | append_singleton l i ih =>
    rw [upsertEach_concat, isSome_get?_upsert, ih, ← or_assoc]
    refine or_congr_left ?_
    simp only [List.mem_append, List.mem_singleton, or_and_right, exists_or, exists_eq_left]
    exact or_comm

/-- Upserts of rows that are there are updates. -/
theorem upsertEach_of_isSome {t : Table ρ} {l : List ι}
    (h : ∀ i ∈ l, (t.get? (Row.pk (row i))).isSome) :
    upsertEach row f hf t l = updateEach (fun i => Row.pk (row i)) f hf t l := by
  induction l using List.reverseRecOn with
  | nil => rfl
  | append_singleton l i ih =>
    have hl := ih fun j hj => h j (List.mem_append_left _ hj)
    rw [upsertEach_concat, updateEach_concat, ← hl]
    refine upsert_of_isSome (isSome_get?_upsertEach.mpr (Or.inr ?_))
    exact h i (List.mem_append_right _ (List.mem_singleton_self i))

/-- A batch of upserts that finds what it would write leaves the table as it is. -/
theorem upsertEach_eq_self {t : Table ρ} {l : List ι}
    (hthere : ∀ i ∈ l, (t.get? (Row.pk (row i))).isSome)
    (h : ∀ r ∈ t.rows, batchRow (fun i => Row.pk (row i)) f l r = r) :
    upsertEach row f hf t l = t :=
  (upsertEach_of_isSome hthere).trans (updateEach_eq_self h)

/-- The batch finds what it wrote as it would write it. -/
theorem batchRow_of_get?_upsertEach (hreplace : ∀ i j r, f i (f j r) = f i r)
    (hnew : ∀ i, f i (row i) = row i) {t : Table ρ} {l : List ι} {i : ι} (hi : i ∈ l) {r : ρ}
    (h : (upsertEach row f hf t l).get? (Row.pk (row i)) = some r) :
    batchRow (fun i => Row.pk (row i)) f l r = r := by
  induction l using List.reverseRecOn generalizing r with
  | nil => cases hi
  | append_singleton l j ih =>
    have hpk : Row.pk r = Row.pk (row i) := pk_of_get? h
    rw [upsertEach_concat, get?_upsert] at h
    rw [batchRow_concat, pk_batchRow (fun i r => (hf i r).1), hpk]
    split_ifs at h ⊢ with hkey
    · -- The last write is to this key.
      rw [write_batchRow hreplace]
      obtain rfl := Option.some.inj h
      cases (upsertEach row f hf t l).get? (Row.pk (row i)) with
      | none => exact hnew j
      | some old => exact hreplace j j old
    · refine ih ?_ h
      refine (List.mem_append.mp hi).resolve_right fun hj => hkey ?_
      rw [List.mem_singleton.mp hj]

/-- A batch of upserts whose writes replace each other is written twice as it is written once. -/
theorem upsertEach_upsertEach (hreplace : ∀ i j r, f i (f j r) = f i r)
    (hnew : ∀ i, f i (row i) = row i) (t : Table ρ) (l : List ι) :
    upsertEach row f hf (upsertEach row f hf t l) l = upsertEach row f hf t l := by
  refine upsertEach_eq_self (fun i hi => isSome_get?_upsertEach.mpr (Or.inl ⟨i, hi, rfl⟩))
    fun r hr => ?_
  by_cases hkey : ∃ i ∈ l, Row.pk r = Row.pk (row i)
  · obtain ⟨i, hi, hk⟩ := hkey
    exact batchRow_of_get?_upsertEach hreplace hnew hi (hk ▸ get?_pk_of_mem hr)
  · have hskip : ∀ l' ⊆ l, batchRow (fun i => Row.pk (row i)) f l' r = r := by
      intro l' hl'
      induction l' using List.reverseRecOn with
      | nil => rfl
      | append_singleton l' i ih =>
        have hi : i ∈ l := hl' (List.mem_append_right _ (List.mem_singleton_self i))
        rw [batchRow_concat, ih fun j hj => hl' (List.mem_append_left _ hj)]
        exact if_neg fun hk => hkey ⟨i, hi, hk⟩
    exact hskip l (List.Subset.refl l)

end UpsertEach

/-! ### Views -/

section View

variable [DecidableEq υ] {t : Table ρ} {k : κ} {f view : ρ → ρ} {hview : KeepsKeys view}

private theorem map_ite_of_eq {α : Type*} {g : ρ → α}
    (h : ∀ r, t.get? k = some r → g (f r) = g r) :
    (t.rows.map fun r => if Row.pk r = k then f r else r).map g = t.rows.map g := by
  rw [List.map_map]
  refine List.map_congr_left fun r hr => ?_
  rw [Function.comp_apply]
  split_ifs with hk
  · exact h r (hk ▸ get?_pk_of_mem hr)
  · rfl

/-- An update that a view of the row does not see. -/
theorem mapRows_update_of_view {hf : KeepsKeys f}
    (h : ∀ r, t.get? k = some r → view (f r) = view r) :
    (t.update k f hf).mapRows view hview = t.mapRows view hview :=
  Table.ext (map_ite_of_eq h)

theorem mapRows_of_update? {hf : ∀ r, Row.pk (f r) = Row.pk r} {t' : Table ρ}
    (h : t.update? k f hf = some t') (hsame : ∀ r, t.get? k = some r → view (f r) = view r) :
    t'.mapRows view hview = t.mapRows view hview := by
  refine Table.ext ?_
  rw [rows_mapRows, rows_of_update? h]
  exact map_ite_of_eq hsame

/-- Two updates that a view does not see together. -/
theorem mapRows_update_of_update? {hf : ∀ r, Row.pk (f r) = Row.pk r} {g : ρ → ρ} {hg : KeepsKeys g}
    {t' : Table ρ} (h : t.update? k f hf = some t')
    (hsame : ∀ r, t.get? k = some r → view (g (f r)) = view r) :
    (t'.update k g hg).mapRows view hview = t.mapRows view hview := by
  have hrows : (t'.update k g hg).rows = t.rows.map fun r => if Row.pk r = k then g (f r) else r := by
    rw [rows_update, rows_of_update? h, List.map_map]
    refine List.map_congr_left fun r _ => ?_
    rw [Function.comp_apply, pk_ite hf]
    split_ifs <;> rfl
  refine Table.ext ?_
  rw [rows_mapRows, hrows]
  exact map_ite_of_eq hsame

/-- An update that keeps the unique key of the row meets no conflict. -/
theorem exists_update? (hf : ∀ r, Row.pk (f r) = Row.pk r)
    (h : ∀ r, t.get? k = some r → Row.uk (f r) = Row.uk r) : ∃ t', t.update? k f hf = some t' := by
  have hkeys : (t.rows.map fun r => if Row.pk r = k then f r else r).map Row.uk =
      t.rows.map Row.uk := map_ite_of_eq h
  exact ⟨_, dif_pos (hkeys ▸ t.uk_nodup)⟩

end View

end Table

end Relational
