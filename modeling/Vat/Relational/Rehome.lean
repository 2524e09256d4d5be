import Vat.Relational.Table

/-!
# Rows that go to another owner

The unique key of a row is its owner and a label. The rows of one owner go to another: a row whose
label the other owner has is merged into the row there and deleted, and every other row changes its
owner. No row is lost, the rows of third owners stay, and doing it again does nothing.

## Main definitions

* `Owned`: how a row changes its owner, and how two rows are merged.
* `Owned.step`, `Owned.rehome`.
* `Owned.combine`: what is left of two rows with one label.

## Main results

* `Owned.exists_rehome`: every unique key read back.
* `Owned.rehome_rehome`.
-/

namespace Relational

variable {ρ κ ω ℓ : Type*} [Row ρ κ (ω × ℓ)]

/-- How a row changes its owner, and how a row is merged into another. -/
structure Owned (ρ : Type*) {κ ω ℓ : Type*} [Row ρ κ (ω × ℓ)] where
  setOwner : ω → ρ → ρ
  /-- What becomes of the first row. -/
  merge : ρ → ρ → ρ
  pk_setOwner : ∀ o r, Row.pk (setOwner o r) = Row.pk r
  uk_setOwner : ∀ o r, Row.uk (setOwner o r) = (o, (Row.uk r).2)
  merge_keeps : ∀ r, KeepsKeys fun e => merge e r

namespace Owned

variable [DecidableEq κ] [DecidableEq ω] [DecidableEq ℓ] (own : Owned ρ)

/-- One row goes to another owner: it is moved, or else merged. The result says which. -/
def step (tgt : ω) (t : Table ρ) (row : ρ) : Option (Table ρ × Bool) :=
  match t.getBy? (tgt, (Row.uk row).2) with
  | none => (t.update? (Row.pk row) (own.setOwner tgt) (own.pk_setOwner tgt)).map (·, true)
  | some existing =>
    let merged := t.update (Row.pk existing) (fun e => own.merge e row) (own.merge_keeps row)
    some (merged.filter fun r => Row.pk r ≠ Row.pk row, false)

/-- Some rows, one after another; the result counts those that are moved and those that are
merged. -/
def stepEach (tgt : ω) : Table ρ → List ρ → Option (Table ρ × ℕ × ℕ)
  | t, [] => some (t, 0, 0)
  | t, row :: rows => do
    let (t', moved) ← own.step tgt t row
    let (t'', nMoved, nMerged) ← stepEach tgt t' rows
    return (t'', if moved then (nMoved + 1, nMerged) else (nMoved, nMerged + 1))

/-- The rows of an owner. -/
def rowsOf (src : ω) (t : Table ρ) : List ρ := t.rows.filter fun r => (Row.uk r).1 = src

/-- The rows of one owner go to another. -/
def rehome (src tgt : ω) (t : Table ρ) : Option (Table ρ × ℕ × ℕ) :=
  own.stepEach tgt t (rowsOf src t)

/-- What is left of the row of the new owner and the row of the old one. -/
def combine (tgt : ω) : Option ρ → Option ρ → Option ρ
  | some e, some r => some (own.merge e r)
  | none, some r => some (own.setOwner tgt r)
  | e, none => e

variable {src tgt : ω} {t : Table ρ} {row : ρ}

omit [DecidableEq κ] [DecidableEq ℓ] in
theorem mem_rowsOf {r : ρ} : r ∈ rowsOf src t ↔ r ∈ t.rows ∧ (Row.uk r).1 = src := by
  rw [rowsOf, List.mem_filter, decide_eq_true_eq]

/-- A row whose label the new owner does not have. -/
theorem exists_step_move (hrow : row ∈ t.rows)
    (hnone : t.getBy? (tgt, (Row.uk row).2) = none) :
    ∃ t', own.step tgt t row = some (t', true) ∧
      t'.rows = t.rows.map fun r => if Row.pk r = Row.pk row then own.setOwner tgt r else r := by
  have hself : ∀ r ∈ t.rows, Row.pk r = Row.pk row → r = row := fun r hr => Table.eq_of_pk hr hrow
  have hkeys : ((t.rows.map fun r => if Row.pk r = Row.pk row then own.setOwner tgt r else r).map
      Row.uk).Nodup := by
    rw [List.map_map]
    refine List.Nodup.map_on ?_ t.pk_nodup.of_map
    intro r hr s hs hrs
    -- the new key is no other row's
    have hfree : ∀ r ∈ t.rows, Row.uk r ≠ (tgt, (Row.uk row).2) :=
      Table.getBy?_eq_none_iff.mp hnone
    simp only [Function.comp_apply] at hrs
    split_ifs at hrs with h h'
    · rw [hself r hr h, hself s hs h']
    · rw [own.uk_setOwner, hself r hr h] at hrs
      exact absurd hrs.symm (hfree s hs)
    · rename_i h'
      rw [own.uk_setOwner, hself s hs h'] at hrs
      exact absurd hrs (hfree r hr)
    · exact Table.eq_of_uk hr hs hrs
  obtain ⟨t', ht'⟩ : ∃ t', t.update? (Row.pk row) (own.setOwner tgt) (own.pk_setOwner tgt) = some t' :=
    ⟨_, dif_pos hkeys⟩
  refine ⟨t', ?_, Table.rows_of_update? ht'⟩
  rw [step, hnone, ht']
  rfl

/-- One row of an owner goes to another: its row there takes the place of both. -/
theorem exists_step_rows (hne : src ≠ tgt) (hrow : row ∈ rowsOf src t) :
    ∃ t' moved new, own.step tgt t row = some (t', moved) ∧
      own.combine tgt (t.getBy? (tgt, (Row.uk row).2)) (some row) = some new ∧
      Row.uk new = (tgt, (Row.uk row).2) ∧
      ∀ r, r ∈ t'.rows ↔
        r = new ∨ r ∈ t.rows ∧ Row.uk r ≠ Row.uk row ∧ Row.uk r ≠ (tgt, (Row.uk row).2) := by
  obtain ⟨hmem, hsrc⟩ := mem_rowsOf.mp hrow
  cases hexisting : t.getBy? (tgt, (Row.uk row).2) with
  | none =>
    have hfree := Table.getBy?_eq_none_iff.mp hexisting
    obtain ⟨t', hstep, hrows⟩ := own.exists_step_move hmem hexisting
    refine ⟨t', true, own.setOwner tgt row, hstep, rfl, own.uk_setOwner tgt row, fun r => ?_⟩
    rw [hrows, List.mem_map]
    constructor
    · rintro ⟨s, hs, rfl⟩
      split_ifs with hpk
      · exact .inl (by rw [Table.eq_of_pk hs hmem hpk])
      · exact .inr ⟨hs, fun huk => hpk (by rw [Table.eq_of_uk hs hmem huk]), hfree s hs⟩
    · rintro (rfl | ⟨hr, huk, -⟩)
      · exact ⟨row, hmem, if_pos rfl⟩
      · exact ⟨r, hr, if_neg fun hpk => huk (by rw [Table.eq_of_pk hr hmem hpk])⟩
  | some existing =>
    obtain ⟨hexists, hkey⟩ := Table.getBy?_eq_some_iff.mp hexisting
    have hkeep := own.merge_keeps row existing
    have hpkne : Row.pk existing ≠ Row.pk row := by
      intro hpk
      rw [Table.eq_of_pk hexists hmem hpk] at hkey
      exact hne (hsrc.symm.trans (congrArg Prod.fst hkey))
    refine ⟨_, false, own.merge existing row, by rw [step, hexisting], rfl, hkeep.2.trans hkey,
      fun r => ?_⟩
    rw [Table.rows_filter, List.mem_filter, decide_eq_true_eq, Table.mem_update]
    constructor
    · rintro ⟨⟨hr, hold⟩ | ⟨s, hs, hpk, rfl⟩, hnew⟩
      · refine .inr ⟨hr, fun huk => hnew (by rw [Table.eq_of_uk hr hmem huk]), fun huk => hold ?_⟩
        rw [Table.eq_of_uk hr hexists (huk.trans hkey.symm)]
      · exact .inl (by rw [Table.eq_of_pk hs hexists hpk])
    · rintro (rfl | ⟨hr, huk, huk'⟩)
      · exact ⟨.inr ⟨existing, hexists, rfl, rfl⟩, fun hpk => hpkne (hkeep.1.symm.trans hpk)⟩
      · refine ⟨.inl ⟨hr, fun hpk => huk' ?_⟩, fun hpk => huk ?_⟩
        · rw [Table.eq_of_pk hr hexists hpk, hkey]
        · rw [Table.eq_of_pk hr hmem hpk]

/-- One row of an owner goes to another: what every unique key reads then. -/
theorem exists_step (hne : src ≠ tgt) (hrow : row ∈ rowsOf src t) :
    ∃ t' moved, own.step tgt t row = some (t', moved) ∧ ∀ u, t'.getBy? u =
      if u = Row.uk row then none
      else if u = (tgt, (Row.uk row).2) then
        own.combine tgt (t.getBy? (tgt, (Row.uk row).2)) (some row)
      else t.getBy? u := by
  obtain ⟨t', moved, new, hstep, hcombine, hnew, hrows⟩ := own.exists_step_rows hne hrow
  have hdistinct : (tgt, (Row.uk row).2) ≠ Row.uk row := fun h =>
    hne ((mem_rowsOf.mp hrow).2.symm.trans (congrArg Prod.fst h).symm)
  refine ⟨t', moved, hstep, fun u => Option.ext fun r => ?_⟩
  rw [Table.getBy?_eq_some_iff, hrows, hcombine]
  split_ifs with hrow' htgt
  · refine iff_of_false ?_ (by simp)
    rintro ⟨rfl | ⟨-, huk, -⟩, hkey⟩
    · exact hdistinct (hnew.symm.trans (hkey.trans hrow'))
    · exact huk (hkey.trans hrow')
  · rw [Option.some_inj]
    constructor
    · rintro ⟨rfl | ⟨-, -, huk⟩, hkey⟩
      · rfl
      · exact absurd (hkey.trans htgt) huk
    · rintro rfl
      exact ⟨.inl rfl, hnew.trans htgt.symm⟩
  · rw [Table.getBy?_eq_some_iff]
    constructor
    · rintro ⟨rfl | ⟨hr, -⟩, hkey⟩
      · exact absurd (hkey.symm.trans hnew) htgt
      · exact ⟨hr, hkey⟩
    · rintro ⟨hr, rfl⟩
      exact ⟨.inr ⟨hr, hrow', htgt⟩, rfl⟩

/-- Some rows of an owner go to another. -/
theorem exists_stepEach (hne : src ≠ tgt) {rows : List ρ} (hrows : ∀ r ∈ rows, r ∈ rowsOf src t)
    (hnodup : (rows.map Row.uk).Nodup) :
    ∃ t' n, own.stepEach tgt t rows = some (t', n) ∧ ∀ u, t'.getBy? u =
      if (src, u.2) ∈ rows.map Row.uk then
        if u.1 = src then none
        else if u.1 = tgt then own.combine tgt (t.getBy? u) (t.getBy? (src, u.2))
        else t.getBy? u
      else t.getBy? u := by
  induction rows generalizing t with
  | nil => exact ⟨t, _, rfl, fun u => rfl⟩
  | cons row rows ih =>
    obtain ⟨hrow, hrest⟩ := List.forall_mem_cons.mp hrows
    rw [List.map_cons, List.nodup_cons] at hnodup
    obtain ⟨t', moved, hstep, hread⟩ := own.exists_step hne hrow
    obtain ⟨hmem, hsrc⟩ := mem_rowsOf.mp hrow
    have huk : Row.uk row = (src, (Row.uk row).2) := by rw [← hsrc]
    -- the other rows are still there
    have hsame : ∀ label, label ≠ (Row.uk row).2 → ∀ o, t'.getBy? (o, label) = t.getBy? (o, label) := by
      intro label hlabel o
      rw [hread, if_neg fun h => hlabel (congrArg Prod.snd h),
        if_neg fun h => hlabel (congrArg Prod.snd h)]
    have hlabels : ∀ r ∈ rows, (Row.uk r).2 ≠ (Row.uk row).2 := by
      intro r hr hlabel
      have hr' : Row.uk r = Row.uk row := by
        rw [huk, ← (mem_rowsOf.mp (hrest r hr)).2, ← hlabel]
      exact hnodup.1 (hr' ▸ List.mem_map_of_mem hr)
    have hrest' : ∀ r ∈ rows, r ∈ rowsOf src t' := by
      intro r hr
      obtain ⟨hr', hsrc'⟩ := mem_rowsOf.mp (hrest r hr)
      have hget := hsame _ (hlabels r hr) (Row.uk r).1
      rw [Table.getBy?_uk_of_mem hr'] at hget
      exact mem_rowsOf.mpr ⟨Table.mem_of_getBy? hget, hsrc'⟩
    obtain ⟨t'', n, hsteps, hreads⟩ := ih hrest' hnodup.2
    refine ⟨t'', _, by rw [stepEach, hstep]; exact congrArg (· >>= _) hsteps, fun u => ?_⟩
    obtain ⟨o, label⟩ := u
    have hcons : (src, label) ∈ (row :: rows).map Row.uk ↔
        label = (Row.uk row).2 ∨ (src, label) ∈ rows.map Row.uk := by
      rw [List.map_cons, List.mem_cons, huk, Prod.mk.injEq, eq_self, true_and]
    rw [hreads]
    dsimp only
    by_cases hlabel : label = (Row.uk row).2
    · have hnot : (src, label) ∉ rows.map Row.uk := by
        rw [hlabel, ← huk]
        exact hnodup.1
      have hold : t.getBy? (src, label) = some row := by
        rw [hlabel, ← huk]
        exact Table.getBy?_uk_of_mem hmem
      rw [if_neg hnot, if_pos (hcons.mpr (.inl hlabel)), hread, hold, ← hlabel]
      by_cases ho : o = src
      · rw [if_pos ho, if_pos (by rw [ho, hlabel, ← huk])]
      · rw [if_neg ho, if_neg fun h => ho ((congrArg Prod.fst h).trans hsrc)]
        by_cases htgt : o = tgt
        · rw [if_pos htgt, if_pos (by rw [htgt]), htgt]
        · rw [if_neg htgt, if_neg fun h => htgt (congrArg Prod.fst h)]
    · rw [hsame label hlabel, hsame label hlabel]
      exact if_congr (by rw [hcons, or_iff_right hlabel]) rfl rfl

/-- The rows of one owner go to another: what every unique key reads then. -/
theorem exists_rehome (hne : src ≠ tgt) (t : Table ρ) :
    ∃ t' n, own.rehome src tgt t = some (t', n) ∧ ∀ u, t'.getBy? u =
      if u.1 = src then none
      else if u.1 = tgt then own.combine tgt (t.getBy? u) (t.getBy? (src, u.2))
      else t.getBy? u := by
  obtain ⟨t', n, hrehome, hread⟩ := own.exists_stepEach (t := t) hne
    (fun r hr => hr) (t.uk_nodup.sublist (List.filter_sublist.map _))
  refine ⟨t', n, hrehome, fun u => ?_⟩
  rw [hread]
  split_ifs with hlabel hsrc htgt hsrc htgt
  · rfl
  · rfl
  · rfl
  · refine Table.getBy?_eq_none_iff.mpr fun r hr huk => hlabel ?_
    have hmem : r ∈ rowsOf src t := mem_rowsOf.mpr ⟨hr, by rw [huk, hsrc]⟩
    exact List.mem_map.mpr ⟨r, hmem, by rw [huk, ← hsrc]⟩
  · have hnone : t.getBy? (src, u.2) = none := by
      refine Table.getBy?_eq_none_iff.mpr fun r hr huk => hlabel ?_
      exact List.mem_map.mpr ⟨r, mem_rowsOf.mpr ⟨hr, by rw [huk]⟩, huk⟩
    rw [hnone, combine]
  · rfl

/-- Without rows of the old owner nothing is done. -/
theorem rehome_of_rowsOf_eq_nil (h : rowsOf src t = []) :
    own.rehome src tgt t = some (t, 0, 0) := by
  rw [rehome, h, stepEach]

theorem rowsOf_rehome {n : ℕ × ℕ} {t' : Table ρ} (hne : src ≠ tgt)
    (h : own.rehome src tgt t = some (t', n)) : rowsOf src t' = [] := by
  obtain ⟨_, _, hrehome, hread⟩ := own.exists_rehome hne t
  cases h.symm.trans hrehome
  refine List.eq_nil_iff_forall_not_mem.mpr fun r hr => ?_
  obtain ⟨hmem, hsrc⟩ := mem_rowsOf.mp hr
  have hget := Table.getBy?_uk_of_mem hmem
  rw [hread, if_pos hsrc] at hget
  cases hget

/-- The second time there is nothing to do. -/
theorem rehome_rehome {n : ℕ × ℕ} {t' : Table ρ} (hne : src ≠ tgt)
    (h : own.rehome src tgt t = some (t', n)) : own.rehome src tgt t' = some (t', 0, 0) :=
  own.rehome_of_rowsOf_eq_nil (own.rowsOf_rehome hne h)

end Owned

end Relational
