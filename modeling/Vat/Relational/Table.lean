import Mathlib.Data.List.Nodup
import Mathlib.Data.List.Basic

/-!
# Tables with a primary key and a unique key

A table is a list of rows in which no two rows share the primary key and no two rows share the
unique key. Both constraints are fields of the table, so a table that violates them cannot be
built. A row type says what its keys are through `Row`; a table without a second constraint uses
its primary key twice.

Reads are by primary key (`Table.get?`), by unique key (`Table.getBy?`) or by the rows
themselves. Writes are an insert that fails on a conflict (`Table.insert?`), an update that keeps
both keys (`Table.mapRows`, `Table.update`), an update that fails on a conflict
(`Table.update?`), an update or insert (`Table.upsert`) and a filter (`Table.filter`).

## Main results

* `Table.get?_eq_some_iff`, `Table.getBy?_eq_some_iff`: a read finds exactly the row with the key.
* `Table.get?_mapRows`, `Table.get?_update_self`, `Table.get?_update_ne`, `Table.get?_filter`,
  `Table.get?_insert`, `Table.get?_upsert`: every write read back at every key.
* `Table.map_get?_upsertEach`: upserts one after another read back.
-/

set_option linter.unusedSectionVars false

namespace Relational

/-- The primary key and the unique key of a row type. -/
class Row (ρ : Type*) (κ υ : outParam Type*) where
  /-- The primary key of a row. -/
  pk : ρ → κ
  /-- The unique key of a row. -/
  uk : ρ → υ

/-- A list of rows without a repeated primary key or unique key. -/
structure Table (ρ : Type*) {κ υ : Type*} [Row ρ κ υ] where
  rows : List ρ
  pk_nodup : (rows.map Row.pk).Nodup
  uk_nodup : (rows.map Row.uk).Nodup

variable {ρ κ υ : Type*} [Row ρ κ υ]

/-- An update of a row that changes neither of its keys. -/
def KeepsKeys (f : ρ → ρ) : Prop :=
  ∀ r, Row.pk (f r) = Row.pk r ∧ Row.uk (f r) = Row.uk r

theorem KeepsKeys.comp {f g : ρ → ρ} (hf : KeepsKeys f) (hg : KeepsKeys g) :
    KeepsKeys (f ∘ g) := fun r =>
  ⟨(hf (g r)).1.trans (hg r).1, (hf (g r)).2.trans (hg r).2⟩

theorem KeepsKeys.ite {f g : ρ → ρ} (p : ρ → Prop) [DecidablePred p] (hf : KeepsKeys f)
    (hg : KeepsKeys g) : KeepsKeys fun r => if p r then f r else g r := fun r => by
  by_cases h : p r
  · simpa only [h, ↓reduceIte] using hf r
  · simpa only [h, ↓reduceIte] using hg r

theorem keepsKeys_id : KeepsKeys (fun r : ρ => r) := fun _ => ⟨rfl, rfl⟩

namespace Table

@[ext] theorem ext {s t : Table ρ} (h : s.rows = t.rows) : s = t := by
  cases s
  cases t
  cases h
  rfl

/-- The table without rows. -/
def empty : Table ρ := ⟨[], List.nodup_nil, List.nodup_nil⟩

@[simp] theorem rows_empty : (empty : Table ρ).rows = [] := rfl

/-- The table of one row. -/
def singleton (r : ρ) : Table ρ := ⟨[r], List.nodup_singleton _, List.nodup_singleton _⟩

variable [DecidableEq κ] [DecidableEq υ]

/-! ### Reads -/

/-- The row with primary key `k`. -/
def get? (t : Table ρ) (k : κ) : Option ρ := t.rows.find? fun r => Row.pk r = k

/-- The row with unique key `u`. -/
def getBy? (t : Table ρ) (u : υ) : Option ρ := t.rows.find? fun r => Row.uk r = u

/-- Two rows of a table with the same primary key are the same row. -/
theorem eq_of_pk {t : Table ρ} {r s : ρ} (hr : r ∈ t.rows) (hs : s ∈ t.rows)
    (h : Row.pk r = Row.pk s) : r = s :=
  List.inj_on_of_nodup_map t.pk_nodup hr hs h

/-- Two rows of a table with the same unique key are the same row. -/
theorem eq_of_uk {t : Table ρ} {r s : ρ} (hr : r ∈ t.rows) (hs : s ∈ t.rows)
    (h : Row.uk r = Row.uk s) : r = s :=
  List.inj_on_of_nodup_map t.uk_nodup hr hs h

theorem get?_eq_some_iff {t : Table ρ} {k : κ} {r : ρ} :
    t.get? k = some r ↔ r ∈ t.rows ∧ Row.pk r = k := by
  constructor
  · intro h
    exact ⟨List.mem_of_find?_eq_some h, by simpa using List.find?_some h⟩
  · rintro ⟨hr, rfl⟩
    cases hf : t.get? (Row.pk r) with
    | none => simpa using List.find?_eq_none.mp hf r hr
    | some s =>
      have hs := List.mem_of_find?_eq_some hf
      have hk : Row.pk s = Row.pk r := by simpa using List.find?_some hf
      rw [eq_of_pk hs hr hk]

theorem getBy?_eq_some_iff {t : Table ρ} {u : υ} {r : ρ} :
    t.getBy? u = some r ↔ r ∈ t.rows ∧ Row.uk r = u := by
  constructor
  · intro h
    exact ⟨List.mem_of_find?_eq_some h, by simpa using List.find?_some h⟩
  · rintro ⟨hr, rfl⟩
    cases hf : t.getBy? (Row.uk r) with
    | none => simpa using List.find?_eq_none.mp hf r hr
    | some s =>
      have hs := List.mem_of_find?_eq_some hf
      have hk : Row.uk s = Row.uk r := by simpa using List.find?_some hf
      rw [eq_of_uk hs hr hk]

theorem get?_eq_none_iff {t : Table ρ} {k : κ} :
    t.get? k = none ↔ ∀ r ∈ t.rows, Row.pk r ≠ k := by
  simp [get?, List.find?_eq_none]

theorem getBy?_eq_none_iff {t : Table ρ} {u : υ} :
    t.getBy? u = none ↔ ∀ r ∈ t.rows, Row.uk r ≠ u := by
  simp [getBy?, List.find?_eq_none]

theorem mem_of_get? {t : Table ρ} {k : κ} {r : ρ} (h : t.get? k = some r) : r ∈ t.rows :=
  (get?_eq_some_iff.mp h).1

theorem pk_of_get? {t : Table ρ} {k : κ} {r : ρ} (h : t.get? k = some r) : Row.pk r = k :=
  (get?_eq_some_iff.mp h).2

theorem mem_of_getBy? {t : Table ρ} {u : υ} {r : ρ} (h : t.getBy? u = some r) : r ∈ t.rows :=
  (getBy?_eq_some_iff.mp h).1

theorem uk_of_getBy? {t : Table ρ} {u : υ} {r : ρ} (h : t.getBy? u = some r) : Row.uk r = u :=
  (getBy?_eq_some_iff.mp h).2

theorem get?_pk_of_mem {t : Table ρ} {r : ρ} (h : r ∈ t.rows) : t.get? (Row.pk r) = some r :=
  get?_eq_some_iff.mpr ⟨h, rfl⟩

theorem getBy?_uk_of_mem {t : Table ρ} {r : ρ} (h : r ∈ t.rows) : t.getBy? (Row.uk r) = some r :=
  getBy?_eq_some_iff.mpr ⟨h, rfl⟩

@[simp] theorem get?_empty (k : κ) : (empty : Table ρ).get? k = none := rfl

@[simp] theorem getBy?_empty (u : υ) : (empty : Table ρ).getBy? u = none := rfl

/-! ### Updates -/

/-- Every row updated by a function that keeps the keys. -/
def mapRows (t : Table ρ) (f : ρ → ρ) (hf : KeepsKeys f) : Table ρ where
  rows := t.rows.map f
  pk_nodup := by
    have h : (t.rows.map f).map Row.pk = t.rows.map Row.pk := by
      rw [List.map_map]
      exact List.map_congr_left fun r _ => (hf r).1
    rw [h]
    exact t.pk_nodup
  uk_nodup := by
    have h : (t.rows.map f).map Row.uk = t.rows.map Row.uk := by
      rw [List.map_map]
      exact List.map_congr_left fun r _ => (hf r).2
    rw [h]
    exact t.uk_nodup

@[simp] theorem rows_mapRows (t : Table ρ) (f : ρ → ρ) (hf : KeepsKeys f) :
    (t.mapRows f hf).rows = t.rows.map f := rfl

theorem map_pk_mapRows (t : Table ρ) (f : ρ → ρ) (hf : KeepsKeys f) :
    (t.mapRows f hf).rows.map Row.pk = t.rows.map Row.pk := by
  rw [rows_mapRows, List.map_map]
  exact List.map_congr_left fun r _ => (hf r).1

@[simp] theorem get?_mapRows (t : Table ρ) (f : ρ → ρ) (hf : KeepsKeys f) (k : κ) :
    (t.mapRows f hf).get? k = (t.get? k).map f := by
  simp only [get?, rows_mapRows, List.find?_map]
  congr 1
  exact congrArg (fun p => t.rows.find? p) (funext fun r => by simp [(hf r).1])

@[simp] theorem getBy?_mapRows (t : Table ρ) (f : ρ → ρ) (hf : KeepsKeys f) (u : υ) :
    (t.mapRows f hf).getBy? u = (t.getBy? u).map f := by
  simp only [getBy?, rows_mapRows, List.find?_map]
  congr 1
  exact congrArg (fun p => t.rows.find? p) (funext fun r => by simp [(hf r).2])

/-- The row with primary key `k` updated by a function that keeps the keys. -/
def update (t : Table ρ) (k : κ) (f : ρ → ρ)
    (hf : KeepsKeys f := by exact fun _ => ⟨rfl, rfl⟩) : Table ρ :=
  t.mapRows (fun r => if Row.pk r = k then f r else r)
    (KeepsKeys.ite (fun r => Row.pk r = k) hf keepsKeys_id)

theorem rows_update (t : Table ρ) (k : κ) (f : ρ → ρ) (hf : KeepsKeys f) :
    (t.update k f hf).rows = t.rows.map fun r => if Row.pk r = k then f r else r := rfl

@[simp] theorem get?_update_self (t : Table ρ) (k : κ) (f : ρ → ρ) (hf : KeepsKeys f) :
    (t.update k f hf).get? k = (t.get? k).map f := by
  rw [update, get?_mapRows]
  cases h : t.get? k with
  | none => rfl
  | some r => simp [pk_of_get? h]

theorem get?_update_ne (t : Table ρ) {k k' : κ} (f : ρ → ρ) (hf : KeepsKeys f) (h : k' ≠ k) :
    (t.update k f hf).get? k' = t.get? k' := by
  rw [update, get?_mapRows]
  cases hg : t.get? k' with
  | none => rfl
  | some r => simp [pk_of_get? hg, h]

/-- What an update of row `k` leaves at any key. -/
theorem get?_update (t : Table ρ) (k k' : κ) (f : ρ → ρ) (hf : KeepsKeys f) :
    (t.update k f hf).get? k' = if k' = k then (t.get? k).map f else t.get? k' := by
  split_ifs with h
  · rw [h, get?_update_self]
  · exact get?_update_ne t f hf h

theorem getBy?_update (t : Table ρ) (k : κ) (u : υ) (f : ρ → ρ) (hf : KeepsKeys f) :
    (t.update k f hf).getBy? u =
      (t.getBy? u).map fun r => if Row.pk r = k then f r else r :=
  getBy?_mapRows t _ _ u

theorem mem_update {t : Table ρ} {k : κ} {f : ρ → ρ} {hf : KeepsKeys f} {r : ρ} :
    r ∈ (t.update k f hf).rows ↔
      (r ∈ t.rows ∧ Row.pk r ≠ k) ∨ ∃ s ∈ t.rows, Row.pk s = k ∧ r = f s := by
  simp only [rows_update, List.mem_map]
  constructor
  · rintro ⟨s, hs, rfl⟩
    by_cases h : Row.pk s = k
    · exact Or.inr ⟨s, hs, h, by simp [h]⟩
    · exact Or.inl (by simpa [h] using hs)
  · rintro (⟨hr, h⟩ | ⟨s, hs, h, rfl⟩)
    · exact ⟨r, hr, by simp [h]⟩
    · exact ⟨s, hs, by simp [h]⟩

/-- The row with primary key `k` updated by a function that may change its unique key; `none` when
the new unique key is taken. -/
def update? (t : Table ρ) (k : κ) (f : ρ → ρ) (hf : ∀ r, Row.pk (f r) = Row.pk r) :
    Option (Table ρ) :=
  let rows := t.rows.map fun r => if Row.pk r = k then f r else r
  if h : (rows.map Row.uk).Nodup then
    some ⟨rows, by
      have hpk : rows.map Row.pk = t.rows.map Row.pk := by
        rw [List.map_map]
        refine List.map_congr_left fun r _ => ?_
        simp only [Function.comp_apply]
        split_ifs
        · exact hf r
        · rfl
      rw [hpk]
      exact t.pk_nodup, h⟩
  else none

theorem rows_of_update? {t t' : Table ρ} {k : κ} {f : ρ → ρ} {hf : ∀ r, Row.pk (f r) = Row.pk r}
    (h : t.update? k f hf = some t') :
    t'.rows = t.rows.map fun r => if Row.pk r = k then f r else r := by
  unfold update? at h
  dsimp only at h
  split_ifs at h with hn
  cases h
  rfl

theorem pk_ite {f : ρ → ρ} (hf : ∀ r, Row.pk (f r) = Row.pk r) (k : κ) (r : ρ) :
    Row.pk (if Row.pk r = k then f r else r) = Row.pk r := by
  split_ifs
  · exact hf r
  · rfl

theorem map_pk_of_update? {t t' : Table ρ} {k : κ} {f : ρ → ρ}
    {hf : ∀ r, Row.pk (f r) = Row.pk r} (h : t.update? k f hf = some t') :
    t'.rows.map Row.pk = t.rows.map Row.pk := by
  rw [rows_of_update? h, List.map_map]
  exact List.map_congr_left fun r _ => pk_ite hf k r

/-- What a successful update of row `k` leaves at any key. -/
theorem get?_of_update? {t t' : Table ρ} {k : κ} {f : ρ → ρ} {hf : ∀ r, Row.pk (f r) = Row.pk r}
    (h : t.update? k f hf = some t') (k' : κ) :
    t'.get? k' = if k' = k then (t.get? k).map f else t.get? k' := by
  have hmap : t'.get? k' = (t.get? k').map fun r => if Row.pk r = k then f r else r := by
    simp only [get?, rows_of_update? h, List.find?_map]
    congr 1
    exact congrArg (fun p => t.rows.find? p) (funext fun r => by simp [pk_ite hf k r])
  rw [hmap]
  split_ifs with hk
  · subst hk
    cases hg : t.get? k' with
    | none => rfl
    | some r => simp [pk_of_get? hg]
  · cases hg : t.get? k' with
    | none => rfl
    | some r => simp [pk_of_get? hg, hk]

/-! ### Deletes -/

/-- The rows of the table that satisfy `p`. -/
def filter (t : Table ρ) (p : ρ → Bool) : Table ρ where
  rows := t.rows.filter p
  pk_nodup := t.pk_nodup.sublist (List.filter_sublist.map _)
  uk_nodup := t.uk_nodup.sublist (List.filter_sublist.map _)

@[simp] theorem rows_filter (t : Table ρ) (p : ρ → Bool) :
    (t.filter p).rows = t.rows.filter p := rfl

theorem get?_filter (t : Table ρ) (p : ρ → Bool) (k : κ) :
    (t.filter p).get? k = (t.get? k).filter p := by
  cases h : t.get? k with
  | none =>
    rw [Option.filter_none, get?_eq_none_iff]
    exact fun r hr => get?_eq_none_iff.mp h r (List.mem_filter.mp hr).1
  | some r =>
    obtain ⟨hr, hk⟩ := get?_eq_some_iff.mp h
    cases hp : p r with
    | true =>
      rw [Option.filter_some_pos hp, get?_eq_some_iff]
      exact ⟨List.mem_filter.mpr ⟨hr, hp⟩, hk⟩
    | false =>
      rw [Option.filter_some_neg (by simp [hp]), get?_eq_none_iff]
      intro s hs hsk
      obtain ⟨hs, hps⟩ := List.mem_filter.mp hs
      rw [eq_of_pk hs hr (hsk.trans hk.symm), hp] at hps
      exact Bool.false_ne_true hps

/-- The rows under a key, in any order of the rows. -/
theorem filter_pk_of_perm {t : Table ρ} {rows : List ρ} (h : rows.Perm t.rows) (k : κ) :
    rows.filter (fun r => Row.pk r = k) = (t.get? k).toList := by
  cases hget : t.get? k with
  | none =>
    rw [Option.toList_none, List.filter_eq_nil_iff]
    intro r hr hk
    exact get?_eq_none_iff.mp hget r (h.mem_iff.mp hr) (of_decide_eq_true hk)
  | some r =>
    obtain ⟨hr, hk⟩ := get?_eq_some_iff.mp hget
    have hnodup : rows.Nodup := h.nodup_iff.mpr (t.pk_nodup.of_map _)
    have hperm : (rows.filter fun r => Row.pk r = k).Perm [r] := by
      refine (List.perm_ext_iff_of_nodup (hnodup.filter _) (List.nodup_singleton r)).mpr fun s => ?_
      rw [List.mem_filter, decide_eq_true_eq, h.mem_iff, List.mem_singleton]
      constructor
      · rintro ⟨hs, hsk⟩
        exact eq_of_pk hs hr (hsk.trans hk.symm)
      · rintro rfl
        exact ⟨hr, hk⟩
    exact hperm.eq_singleton

/-! ### Inserts -/

/-- A row whose two keys are not in the table yet. -/
def CanInsert (t : Table ρ) (r : ρ) : Prop :=
  Row.pk r ∉ t.rows.map Row.pk ∧ Row.uk r ∉ t.rows.map Row.uk

instance (t : Table ρ) (r : ρ) : Decidable (t.CanInsert r) :=
  inferInstanceAs (Decidable (_ ∧ _))

/-- A row appended to a table without a conflict. -/
def insert (t : Table ρ) (r : ρ) (h : t.CanInsert r) : Table ρ where
  rows := t.rows ++ [r]
  pk_nodup := by
    rw [List.map_append, List.map_singleton]
    exact t.pk_nodup.append (List.nodup_singleton _)
      (List.disjoint_singleton.mpr h.1)
  uk_nodup := by
    rw [List.map_append, List.map_singleton]
    exact t.uk_nodup.append (List.nodup_singleton _)
      (List.disjoint_singleton.mpr h.2)

/-- A row appended to the table; `none` when one of its keys is taken. -/
def insert? (t : Table ρ) (r : ρ) : Option (Table ρ) :=
  if h : t.CanInsert r then some (t.insert r h) else none

@[simp] theorem rows_insert (t : Table ρ) (r : ρ) (h : t.CanInsert r) :
    (t.insert r h).rows = t.rows ++ [r] := rfl

theorem insert?_eq_some_iff {t t' : Table ρ} {r : ρ} :
    t.insert? r = some t' ↔ ∃ h : t.CanInsert r, t' = t.insert r h := by
  unfold insert?
  split_ifs with h
  · simp [h, eq_comm]
  · simp [h]

theorem rows_of_insert? {t t' : Table ρ} {r : ρ} (h : t.insert? r = some t') :
    t'.rows = t.rows ++ [r] := by
  obtain ⟨hr, rfl⟩ := insert?_eq_some_iff.mp h
  rfl

theorem insert?_eq_some {t : Table ρ} {r : ρ} (h : t.CanInsert r) :
    t.insert? r = some (t.insert r h) := dif_pos h

theorem get?_insert (t : Table ρ) (r : ρ) (h : t.CanInsert r) (k : κ) :
    (t.insert r h).get? k = if Row.pk r = k then some r else t.get? k := by
  split_ifs with hk
  · exact get?_eq_some_iff.mpr ⟨by simp, hk⟩
  · cases hg : t.get? k with
    | none =>
      rw [get?_eq_none_iff]
      intro s hs
      rcases List.mem_append.mp hs with hs | hs
      · exact get?_eq_none_iff.mp hg s hs
      · rwa [List.mem_singleton.mp hs]
    | some s =>
      obtain ⟨hs, hsk⟩ := get?_eq_some_iff.mp hg
      exact get?_eq_some_iff.mpr ⟨by simp [hs], hsk⟩

theorem getBy?_insert (t : Table ρ) (r : ρ) (h : t.CanInsert r) (u : υ) :
    (t.insert r h).getBy? u = if Row.uk r = u then some r else t.getBy? u := by
  split_ifs with hu
  · exact getBy?_eq_some_iff.mpr ⟨by simp, hu⟩
  · cases hg : t.getBy? u with
    | none =>
      rw [getBy?_eq_none_iff]
      intro s hs
      rcases List.mem_append.mp hs with hs | hs
      · exact getBy?_eq_none_iff.mp hg s hs
      · rwa [List.mem_singleton.mp hs]
    | some s =>
      obtain ⟨hs, hsu⟩ := getBy?_eq_some_iff.mp hg
      exact getBy?_eq_some_iff.mpr ⟨by simp [hs], hsu⟩

/-! ### Upserts -/

/-- Rows that agree on one key agree on the other. -/
class SingleKey (ρ : Type*) {κ υ : Type*} [Row ρ κ υ] : Prop where
  uk_eq_iff : ∀ r s : ρ, Row.uk r = Row.uk s ↔ Row.pk r = Row.pk s

/-- The row with the key of `r` updated by `f`, and `r` inserted when there is none. -/
def upsert (t : Table ρ) (r : ρ) (f : ρ → ρ)
    (hf : KeepsKeys f := by exact fun _ => ⟨rfl, rfl⟩) : Table ρ :=
  if h : t.CanInsert r then t.insert r h else t.update (Row.pk r) f hf

theorem mem_upsert {t : Table ρ} {r s : ρ} {f : ρ → ρ} {hf : KeepsKeys f}
    (h : s ∈ (t.upsert r f hf).rows) :
    s ∈ t.rows ∨ s = r ∨ ∃ old ∈ t.rows, Row.pk old = Row.pk r ∧ s = f old := by
  unfold upsert at h
  split at h
  · rcases List.mem_append.mp h with h | h
    · exact Or.inl h
    · exact Or.inr (Or.inl (List.mem_singleton.mp h))
  · rcases mem_update.mp h with ⟨h, -⟩ | h
    · exact Or.inl h
    · exact Or.inr (Or.inr h)

theorem canInsert_iff [SingleKey ρ] {t : Table ρ} {r : ρ} :
    t.CanInsert r ↔ t.get? (Row.pk r) = none := by
  rw [get?_eq_none_iff, CanInsert, List.mem_map, List.mem_map]
  constructor
  · rintro ⟨h, -⟩ s hs hk
    exact h ⟨s, hs, hk⟩
  · intro h
    exact ⟨fun ⟨s, hs, hk⟩ => h s hs hk,
      fun ⟨s, hs, hk⟩ => h s hs ((SingleKey.uk_eq_iff s r).mp hk)⟩

/-- What an upsert of `r` leaves at any key. -/
theorem get?_upsert [SingleKey ρ] (t : Table ρ) (r : ρ) (f : ρ → ρ) (hf : KeepsKeys f) (k : κ) :
    (t.upsert r f hf).get? k =
      if k = Row.pk r then some ((t.get? k).elim r f) else t.get? k := by
  unfold upsert
  split_ifs with h hk hk
  · rw [get?_insert, if_pos hk.symm, hk, canInsert_iff.mp h]
    rfl
  · rw [get?_insert, if_neg (Ne.symm hk)]
  · obtain ⟨s, hs⟩ := Option.ne_none_iff_exists'.mp (mt canInsert_iff.mpr h)
    rw [hk, get?_update_self, hs]
    rfl
  · exact get?_update_ne t f hf hk

@[simp] theorem get?_upsert_self [SingleKey ρ] (t : Table ρ) (r : ρ) (f : ρ → ρ)
    (hf : KeepsKeys f) : (t.upsert r f hf).get? (Row.pk r) = some ((t.get? (Row.pk r)).elim r f) := by
  rw [get?_upsert, if_pos rfl]

theorem get?_upsert_ne [SingleKey ρ] (t : Table ρ) {r : ρ} {k : κ} (f : ρ → ρ) (hf : KeepsKeys f)
    (h : k ≠ Row.pk r) : (t.upsert r f hf).get? k = t.get? k := by
  rw [get?_upsert, if_neg h]

/-- Upserts one after another: the row of each member of a list, merged into what is there. -/
def upsertEach {ι : Type*} (row : ι → ρ) (f : ι → ρ → ρ) (hf : ∀ i, KeepsKeys (f i)) (t : Table ρ)
    (l : List ι) : Table ρ :=
  l.foldl (fun t i => t.upsert (row i) (f i) (hf i)) t

section UpsertEach

variable {ι : Type*} {row : ι → ρ} {f : ι → ρ → ρ} {hf : ∀ i, KeepsKeys (f i)}

@[simp] theorem upsertEach_nil (t : Table ρ) : upsertEach row f hf t [] = t := rfl

@[simp] theorem upsertEach_cons (t : Table ρ) (i : ι) (l : List ι) :
    upsertEach row f hf t (i :: l) = upsertEach row f hf (t.upsert (row i) (f i) (hf i)) l := rfl

/-- What no merge changes is that of the row that was there, or else of the first row that came. -/
theorem map_get?_upsertEach [SingleKey ρ] {β : Type*} {π : ρ → β} (hπ : ∀ i r, π (f i r) = π r)
    (t : Table ρ) (l : List ι) (k : κ) :
    ((upsertEach row f hf t l).get? k).map π =
      (t.get? k <|> (l.map row).find? fun r => Row.pk r = k).map π := by
  induction l generalizing t with
  | nil => simp
  | cons i l ih =>
    rw [upsertEach_cons, ih, get?_upsert, List.map_cons]
    by_cases hk : k = Row.pk (row i)
    · rw [if_pos hk, List.find?_cons_of_pos (by simpa using hk.symm)]
      cases t.get? k with
      | none => rfl
      | some r => exact congrArg some (hπ i r)
    · rw [if_neg hk, List.find?_cons_of_neg (by simpa using Ne.symm hk)]

theorem get?_upsertEach_of_ne [SingleKey ρ] {t : Table ρ} {l : List ι} {k : κ}
    (h : ∀ i ∈ l, k ≠ Row.pk (row i)) : (upsertEach row f hf t l).get? k = t.get? k := by
  induction l generalizing t with
  | nil => rfl
  | cons i l ih =>
    rw [upsertEach_cons, ih fun j hj => h j (List.mem_cons_of_mem _ hj),
      get?_upsert_ne t (f i) (hf i) (h i List.mem_cons_self)]

end UpsertEach

end Table

end Relational
