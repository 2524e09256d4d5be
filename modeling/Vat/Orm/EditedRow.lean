import Vat.Keyed.Latest
import Vat.Orm.SharedRow

/-!
# A row that calls edit and save

A call selects the row, edits a copy of it, and saves the copy with a second select, after which it
reports what it has written to one key. A shallow copy shares its values with the object of the
session, so that an edit of such a value is an edit in place of the object. Other sessions come
between the two selects.

## Main definitions

* `EditedRow.edit`, `EditedRow.save`, `EditedRow.read`, `EditedRow.forget`, `EditedRow.close`.
* `EditedRow.Current`: the row has what the reported writes leave.
* `EditedRow.Fresh`: no label is written twice.
* `EditedRow.SavesOthers`: a save keeps the other keys and writes its own.

## Main results

* `EditedRow.Current.save`: such a save keeps the row current.
* `EditedRow.savesOthers_of_uninterrupted`: the save of a call that nothing came between is one.
* `EditedRow.Fresh.edit`, `EditedRow.Fresh.save`: labels that were not used before stay fresh.
-/

namespace Orm

open Keyed

/-- What a call does with the row that it selected: the edit of the object, the copy that is to be
saved, and the write that is reported. -/
structure Edit (σ κ α : Type*) where
  inPlace : σ
  copy : σ
  written : κ × Option α

/-- A row, the copy that the call of a session is going to save, and the reported writes, the newest
first, which the code does not keep. -/
structure EditedRow (σ κ α : Type*) where
  shared : SharedRow σ
  pending : ℕ → Option (σ × κ × Option α)
  log : List (κ × Option α)

namespace EditedRow

variable {σ κ α : Type*}

def start (row : σ) : EditedRow σ κ α := ⟨.start row, fun _ => none, []⟩

variable (s : EditedRow σ κ α) (w : ℕ)

def read : EditedRow σ κ α := { s with shared := s.shared.load w }

/-- The first part of a call, unless one of the session is under way. The call may fail. -/
def edit (f : σ → Option (Edit σ κ α)) : EditedRow σ κ α :=
  match s.pending w, f (s.shared.select w) with
  | some _, _ => s
  | none, none => s.read w
  | none, some e =>
    { s with
      shared := s.shared.hold w e.inPlace
      pending := Function.update s.pending w (some (e.copy, e.written)) }

/-- The second part of a call. -/
def save (same : σ → σ → Prop) [DecidableRel same] : EditedRow σ κ α :=
  match s.pending w with
  | none => s
  | some (copy, written) =>
    { shared := s.shared.flush w same (s.shared.select w) copy
      pending := Function.update s.pending w none
      log := written :: s.log }

variable {s w} in
theorem save_of_pending_eq_none {same : σ → σ → Prop} [DecidableRel same]
    (h : s.pending w = none) : s.save w same = s := by
  rw [save, h]

variable {s w} in
theorem save_of_pending {same : σ → σ → Prop} [DecidableRel same] {copy : σ}
    {written : κ × Option α} (h : s.pending w = some (copy, written)) :
    s.save w same =
      ⟨s.shared.flush w same (s.shared.select w) copy, Function.update s.pending w none,
        written :: s.log⟩ := by
  rw [save, h]

def forget : EditedRow σ κ α := { s with shared := s.shared.forget w }

/-- The end of a session, also in the middle of a call. -/
def close : EditedRow σ κ α :=
  { s with shared := s.shared.forget w, pending := Function.update s.pending w none }

/-! ### The row and the reported writes -/

section Current

variable [DecidableEq κ] {ν : Type*} (view : σ → κ → Option ν) (enc : α → ν)

/-- The row has the values that the reported writes leave, and a copy has the one that is going to
be reported. -/
structure Current : Prop where
  row : ∀ k, view s.shared.row k = (latest s.log k).map enc
  pending : ∀ w copy written, s.pending w = some (copy, written) →
    view copy written.1 = written.2.map enc

/-- The copy of a call differs in the value that it reports only. -/
def EditsOne (f : σ → Option (Edit σ κ α)) : Prop :=
  ∀ v e, f v = some e → ∀ x,
    view e.copy x = if x = e.written.1 then e.written.2.map enc else view v x

/-- The save of a session keeps the other keys of the row and writes its own: what is written has
the row's values for the other keys, and when nothing is written the row has the value already. -/
def SavesOthers (same : σ → σ → Prop) [DecidableRel same] : Prop :=
  match s.pending w with
  | none => True
  | some (copy, k, v) =>
    if same copy (s.shared.select w) then view s.shared.row k = v.map enc
    else ∀ x, x ≠ k → view copy x = view s.shared.row x

variable {s view enc}

omit [DecidableEq κ] in
theorem savesOthers_iff {same : σ → σ → Prop} [DecidableRel same] :
    s.SavesOthers w view enc same ↔ ∀ copy k v, s.pending w = some (copy, k, v) →
      if same copy (s.shared.select w) then view s.shared.row k = v.map enc
      else ∀ x, x ≠ k → view copy x = view s.shared.row x := by
  rw [SavesOthers]
  split
  · next h => exact iff_of_true trivial fun _ _ _ hp => by cases h.symm.trans hp
  · next copy k v h =>
    constructor
    · intro hsave copy' k' v' hp
      cases h.symm.trans hp
      exact hsave
    · exact fun hsave => hsave copy k v h

theorem current_start {row : σ} (h : ∀ k, view row k = none) : (start row).Current view enc :=
  ⟨h, fun _ _ _ hp => by cases hp⟩

theorem Current.read (h : s.Current view enc) : (s.read w).Current view enc := ⟨h.row, h.pending⟩

theorem Current.forget (h : s.Current view enc) : (s.forget w).Current view enc :=
  ⟨h.row, h.pending⟩

theorem Current.update (h : s.Current view enc) {shared : SharedRow σ}
    {p : Option (σ × κ × Option α)} (hrow : shared.row = s.shared.row)
    (hp : ∀ copy written, p = some (copy, written) → view copy written.1 = written.2.map enc) :
    Current ⟨shared, Function.update s.pending w p, s.log⟩ view enc := by
  refine ⟨fun k => by rw [hrow]; exact h.row k, fun w' copy written hw' => ?_⟩
  change Function.update s.pending w p w' = some (copy, written) at hw'
  by_cases hw : w' = w
  · rw [hw, Function.update_self] at hw'
    exact hp copy written hw'
  · rw [Function.update_of_ne hw] at hw'
    exact h.pending w' copy written hw'

theorem Current.close (h : s.Current view enc) : (s.close w).Current view enc := by
  rw [EditedRow.close]
  exact h.update w rfl fun _ _ hp => nomatch hp

theorem Current.edit (h : s.Current view enc) {f : σ → Option (Edit σ κ α)}
    (hf : EditsOne view enc f) : (s.edit w f).Current view enc := by
  rw [EditedRow.edit]
  split
  · exact h
  · exact h.read w
  · next e _ he =>
    refine h.update w rfl fun copy written hp => ?_
    cases hp
    rw [hf _ e he, if_pos rfl]

/-- A save that keeps the other keys. -/
theorem Current.save {same : σ → σ → Prop} [DecidableRel same] (h : s.Current view enc)
    (hsave : s.SavesOthers w view enc same) : (s.save w same).Current view enc := by
  cases hpending : s.pending w with
  | none =>
    rw [save_of_pending_eq_none hpending]
    exact h
  | some p =>
    obtain ⟨copy, k, v⟩ := p
    rw [save_of_pending hpending]
    have hcopy := h.pending w copy (k, v) hpending
    have hwrite := (savesOthers_iff w).mp hsave copy k v hpending
    have hdone : Current ⟨s.shared, Function.update s.pending w none, s.log⟩ view enc :=
      h.update w rfl fun _ _ hp => nomatch hp
    refine ⟨fun x => ?_, hdone.pending⟩
    change view (if same copy (s.shared.select w) then s.shared.row else copy) x =
      (if x = k then v else latest s.log x).map enc
    split_ifs at hwrite ⊢ with hsame hx hx
    · rw [hx, hwrite]
    · exact h.row x
    · rw [hx, hcopy]
    · rw [hwrite x hx, h.row x]

/-- The save of a call that nothing came between, in a session that has no object from before and
none when it saves. -/
theorem savesOthers_of_uninterrupted {same : σ → σ → Prop} [DecidableRel same]
    (hpending : s.pending w = none) (hheld : s.shared.held w = none)
    {f : σ → Option (Edit σ κ α)} (hf : EditsOne view enc f)
    (hsame : ∀ v v', same v v' → ∀ x, view v x = view v' x) :
    ((s.edit w f).forget w).SavesOthers w view enc same := by
  have hselect := s.shared.select_of_held_eq_none w hheld
  refine (savesOthers_iff w).mpr fun copy k v hp => ?_
  have hrow : ((s.edit w f).forget w).shared.row = s.shared.row := by
    rw [forget, EditedRow.edit]
    split
    · rfl
    · rfl
    · rfl
  have hforgot : ((s.edit w f).forget w).shared.select w = s.shared.row :=
    ((s.edit w f).shared.select_forget w).trans hrow
  have hedit : ∃ e, f s.shared.row = some e ∧ (e.copy, e.written) = (copy, k, v) := by
    change (s.edit w f).pending w = some (copy, k, v) at hp
    rw [EditedRow.edit, hpending, hselect] at hp
    cases he : f s.shared.row with
    | none =>
      rw [he] at hp
      exact absurd (hpending.symm.trans hp) (by simp)
    | some e =>
      rw [he] at hp
      change Function.update s.pending w (some (e.copy, e.written)) w = _ at hp
      rw [Function.update_self] at hp
      exact ⟨e, rfl, Option.some.inj hp⟩
  obtain ⟨⟨inPlace, _, _⟩, he, ⟨⟩⟩ := hedit
  have hcopy := hf _ _ he
  rw [hrow, hforgot]
  split_ifs with hsameRow
  · rw [← hsame _ _ hsameRow, hcopy, if_pos rfl]
  · intro x hx
    rw [hcopy, if_neg hx]

end Current

/-! ### Labels -/

section Fresh

variable {τ : Type*} (label : α → τ)

/-- The label that the call of a session is going to report. -/
def pendingLabel : Option τ := (s.pending w).bind fun p => p.2.2.map label

/-- The labels of the reported writes and of the calls under way are among those that were used, and
they differ. -/
structure Fresh (used : List τ) : Prop where
  mem_log : labels label s.log ⊆ used
  mem_pending : ∀ w t, s.pendingLabel w label = some t → t ∈ used
  nodup : (labels label s.log).Nodup
  notMem : ∀ w t, s.pendingLabel w label = some t → t ∉ labels label s.log
  inj : ∀ w w' t, s.pendingLabel w label = some t → s.pendingLabel w' label = some t → w = w'

variable {s label} {used : List τ}

theorem fresh_start {row : σ} : (start row : EditedRow σ κ α).Fresh label [] :=
  ⟨List.nil_subset _, fun _ _ h => (by cases h), List.nodup_nil, fun _ _ h => (by cases h),
    fun _ _ _ h => (by cases h)⟩

theorem Fresh.mono (h : s.Fresh label used) {used' : List τ} (hused : used ⊆ used') :
    s.Fresh label used' :=
  ⟨fun _ ht => hused (h.mem_log ht), fun w t ht => hused (h.mem_pending w t ht), h.nodup, h.notMem,
    h.inj⟩

theorem Fresh.congr (h : s.Fresh label used) {s' : EditedRow σ κ α}
    (hpending : s'.pending = s.pending) (hlog : s'.log = s.log) : s'.Fresh label used := by
  have hlabel : ∀ w, s'.pendingLabel w label = s.pendingLabel w label := fun w => by
    rw [pendingLabel, pendingLabel, hpending]
  refine ⟨by rw [hlog]; exact h.mem_log, fun w t ht => ?_, by rw [hlog]; exact h.nodup,
    fun w t ht => ?_, fun w w' t ht ht' => ?_⟩
  · exact h.mem_pending w t (hlabel w ▸ ht)
  · rw [hlog]
    exact h.notMem w t (hlabel w ▸ ht)
  · exact h.inj w w' t (hlabel w ▸ ht) (hlabel w' ▸ ht')

theorem Fresh.read (h : s.Fresh label used) : (s.read w).Fresh label used := h.congr rfl rfl

theorem Fresh.forget (h : s.Fresh label used) : (s.forget w).Fresh label used := h.congr rfl rfl

theorem pendingLabel_update {shared : SharedRow σ} {log : List (κ × Option α)}
    {p : Option (σ × κ × Option α)} (w' : ℕ) :
    pendingLabel ⟨shared, Function.update s.pending w p, log⟩ w' label =
      if w' = w then p.bind (fun p => p.2.2.map label) else s.pendingLabel w' label := by
  change (Function.update s.pending w p w').bind (fun p => p.2.2.map label) = _
  rw [Function.update_apply]
  split_ifs
  · rfl
  · rfl

/-- A call that is under way in a session where there was none, or none where there was one. -/
theorem Fresh.update (h : s.Fresh label used) {shared : SharedRow σ}
    {p : Option (σ × κ × Option α)}
    (hp : ∀ t, p.bind (fun p => p.2.2.map label) = some t → t ∈ used ∧ t ∉ labels label s.log ∧
      ∀ w', w' ≠ w → s.pendingLabel w' label ≠ some t) :
    Fresh ⟨shared, Function.update s.pending w p, s.log⟩ label used := by
  refine ⟨h.mem_log, fun w' t ht => ?_, h.nodup, fun w' t ht => ?_, fun w' w'' t ht ht' => ?_⟩
  · rw [pendingLabel_update] at ht
    split_ifs at ht with hw
    · exact (hp t ht).1
    · exact h.mem_pending w' t ht
  · rw [pendingLabel_update] at ht
    split_ifs at ht with hw
    · exact (hp t ht).2.1
    · exact h.notMem w' t ht
  · rw [pendingLabel_update] at ht ht'
    split_ifs at ht ht' with hw hw' hw'
    · rw [hw, hw']
    · exact absurd ht' ((hp t ht).2.2 w'' hw')
    · exact absurd ht ((hp t ht').2.2 w' hw)
    · exact h.inj w' w'' t ht ht'

theorem Fresh.close (h : s.Fresh label used) : (s.close w).Fresh label used := by
  rw [EditedRow.close]
  exact h.update w fun t ht => by cases ht

/-- An edit that reports a label that was not used, if any. -/
theorem Fresh.edit (h : s.Fresh label used) (new : List τ) {f : σ → Option (Edit σ κ α)}
    (hf : ∀ v e, f v = some e → ∀ t, e.written.2.map label = some t → t ∈ new ∧ t ∉ used) :
    (s.edit w f).Fresh label (new ++ used) := by
  have hmono := h.mono (List.subset_append_right new used)
  rw [EditedRow.edit]
  split
  · exact hmono
  · exact hmono.read w
  · next e _ he =>
    refine hmono.update w fun t ht => ?_
    obtain ⟨hnew, hused⟩ := hf _ e he t ht
    refine ⟨List.mem_append_left _ hnew, fun hmem => hused (h.mem_log hmem), ?_⟩
    exact fun w' _ hw' => hused (h.mem_pending w' t hw')

theorem Fresh.save {same : σ → σ → Prop} [DecidableRel same] (h : s.Fresh label used) :
    (s.save w same).Fresh label used := by
  cases hpending : s.pending w with
  | none =>
    rw [save_of_pending_eq_none hpending]
    exact h
  | some p =>
    obtain ⟨copy, written⟩ := p
    rw [save_of_pending hpending]
    have hdone : Fresh ⟨s.shared, Function.update s.pending w none, s.log⟩ label used :=
      h.update w fun t ht => by cases ht
    have hlabel : ∀ t ∈ (written.2.map label).toList, s.pendingLabel w label = some t := by
      intro t ht
      rw [pendingLabel, hpending]
      exact Option.mem_toList.mp ht
    constructor
    · rw [labels_cons]
      refine List.append_subset.mpr ⟨fun t ht => h.mem_pending w t (hlabel t ht), h.mem_log⟩
    · exact hdone.mem_pending
    · rw [labels_cons]
      refine List.Nodup.append ?_ h.nodup fun t ht => h.notMem w t (hlabel t ht)
      cases written.2.map label with
      | none => exact List.nodup_nil
      | some t => exact List.nodup_singleton t
    · intro w' t ht hmem
      rw [labels_cons, List.mem_append] at hmem
      obtain hmem | hmem := hmem
      · rw [pendingLabel_update] at ht
        split_ifs at ht with hw
        · cases ht
        · exact hw (h.inj w' w t ht (hlabel t hmem))
      · exact hdone.notMem w' t ht hmem
    · exact hdone.inj

end Fresh

end EditedRow

end Orm
