import Vat.Correlation.Score
import Vat.Transition.Except

/-!
# Correlation edges

Edges between pairs of findings. An edge is stored once for a pair in either order, is taken out of
use by a mark, and is put to use again by a restore or by a later link. The id of a row is a digest
of the pair and its operation id names the call that wrote it last; neither is modelled.

Source: `backend/app/models/correlation_edge.py`; `backend/app/services/correlation_edges.py`;
`backend/app/core/tenancy.py`.

## Main definitions

* `normalizePair`, `CorrelationEdge`, `EdgeActive`.
* `upsertEdge`, `deactivateEdge`, `reactivateEdge`.

## Main results

* `normalizePair_comm`: a pair is the same in either order.
* `edgeActive_upsertEdge`, `edgeActive_of_deactivateEdge`, `edgeActive_of_reactivateEdge`: the edges
  in use after a write.
-/

namespace Vat

open Relational Transition

/-! ### Pairs -/

/-- Canonical undirected pair ordering; an error is the text of a `ValueError`. -/
def normalizePair (left right : Str) : Except Str (Str × Str) :=
  let a := Str.strip left
  let b := Str.strip right
  if a = [] ∨ b = [] then .error (str "both finding ids are required")
  else if a = b then .error (str "finding ids must differ")
  else .ok (if a < b then (a, b) else (b, a))

theorem Str.lt_or_lt_of_ne {a b : Str} (h : a ≠ b) : a < b ∨ b < a := by
  by_contra hne
  rw [not_or] at hne
  exact h (List.le_antisymm hne.2 hne.1)

/-- A pair is the same in either order. -/
theorem normalizePair_comm (left right : Str) : normalizePair left right = normalizePair right left := by
  simp only [normalizePair]
  by_cases hblank : Str.strip left = [] ∨ Str.strip right = []
  · rw [if_pos hblank, if_pos hblank.symm]
  · rw [if_neg hblank, if_neg (mt Or.symm hblank)]
    by_cases heq : Str.strip left = Str.strip right
    · rw [if_pos heq, if_pos heq.symm]
    · rw [if_neg heq, if_neg (Ne.symm heq)]
      rcases Str.lt_or_lt_of_ne heq with hlt | hlt
      · rw [if_pos hlt, if_neg (List.lt_asymm hlt)]
      · rw [if_neg (List.lt_asymm hlt), if_pos hlt]

/-! ### Rows -/

/-- What an edge keeps of the score that made it. -/
structure EdgeEvidence where
  correlationKey : Str
  score : ℕ
  reasons : List Str
  deriving DecidableEq

/-- A row of the table `correlation_edges`. -/
structure CorrelationEdge where
  findingIdA : Str
  findingIdB : Str
  edgeType : Str
  confidence : Confidence
  evidence : EdgeEvidence
  active : Bool
  createdBy : Option Str
  removedBy : Option Str
  removedAt : Option Instant
  removeReason : Option Str
  deriving DecidableEq

/-- The pair of an edge: the constraint `uq_correlation_edges_pair`. -/
def CorrelationEdge.pair (e : CorrelationEdge) : Str × Str := (e.findingIdA, e.findingIdB)

instance : Row CorrelationEdge (Str × Str) (Str × Str) where
  pk := CorrelationEdge.pair
  uk := CorrelationEdge.pair

instance : Table.SingleKey CorrelationEdge := ⟨fun _ _ => Iff.rfl⟩

/-- The edge of a pair is in use. -/
def EdgeActive (edges : Table CorrelationEdge) (pair : Str × Str) : Prop :=
  ∃ row, edges.get? pair = some row ∧ row.active = true

/-! ### Writers -/

/-- The edge that a link creates. -/
def CorrelationEdge.new (pair : Str × Str) (edgeType : Str) (confidence : Confidence)
    (evidence : EdgeEvidence) (createdBy : Option Str) : CorrelationEdge where
  findingIdA := pair.1
  findingIdB := pair.2
  edgeType := edgeType
  confidence := confidence
  evidence := evidence
  active := true
  createdBy := createdBy
  removedBy := none
  removedAt := none
  removeReason := none

@[simp] theorem CorrelationEdge.pk_new (pair : Str × Str) (edgeType : Str) (confidence : Confidence)
    (evidence : EdgeEvidence) (createdBy : Option Str) :
    Row.pk (CorrelationEdge.new pair edgeType confidence evidence createdBy) = pair := rfl

/-- What a link writes to an edge that exists. -/
def CorrelationEdge.link (edgeType : Str) (confidence : Confidence) (evidence : EdgeEvidence)
    (row : CorrelationEdge) : CorrelationEdge :=
  { row with
    edgeType := edgeType
    confidence := confidence
    evidence := evidence
    active := true
    removedBy := none
    removedAt := none
    removeReason := none }

theorem CorrelationEdge.keepsKeys_link (edgeType : Str) (confidence : Confidence)
    (evidence : EdgeEvidence) : KeepsKeys (CorrelationEdge.link edgeType confidence evidence) :=
  fun _ => ⟨rfl, rfl⟩

/-- `upsert_edge`: create or update an active edge without destructive overwrite. -/
def upsertEdge (edges : Table CorrelationEdge) (pair : Str × Str) (edgeType : Str)
    (confidence : Confidence) (evidence : EdgeEvidence) (createdBy : Option Str) :
    Table CorrelationEdge :=
  edges.upsert (CorrelationEdge.new pair edgeType confidence evidence createdBy)
    (CorrelationEdge.link edgeType confidence evidence)
    (CorrelationEdge.keepsKeys_link edgeType confidence evidence)

/-- What a removal writes. -/
def CorrelationEdge.deactivate (now : Instant) (removedBy removeReason : Str)
    (row : CorrelationEdge) : CorrelationEdge :=
  { row with
    active := false
    removedBy := some removedBy
    removedAt := some now
    removeReason := some (removeReason.take 256) }

theorem CorrelationEdge.keepsKeys_deactivate (now : Instant) (removedBy removeReason : Str) :
    KeepsKeys (CorrelationEdge.deactivate now removedBy removeReason) := fun _ => ⟨rfl, rfl⟩

/-- `deactivate_edge`: soft-deactivate an edge. There is nothing to do without a row. -/
def deactivateEdge (edges : Table CorrelationEdge) (now : Instant)
    (findingIdLeft findingIdRight removedBy removeReason : Str) :
    Except Str (Option (Table CorrelationEdge)) := do
  let pair ← normalizePair findingIdLeft findingIdRight
  match edges.get? pair with
  | none => return none
  | some _ =>
    return some (edges.update pair (CorrelationEdge.deactivate now removedBy removeReason)
      (CorrelationEdge.keepsKeys_deactivate now removedBy removeReason))

/-- What a restore writes. -/
def CorrelationEdge.reactivate (row : CorrelationEdge) : CorrelationEdge :=
  { row with
    active := true
    removedBy := none
    removedAt := none
    removeReason := none }

theorem CorrelationEdge.keepsKeys_reactivate : KeepsKeys CorrelationEdge.reactivate :=
  fun _ => ⟨rfl, rfl⟩

/-- `reactivate_edge`: restore a previously deactivated edge. -/
def reactivateEdge (edges : Table CorrelationEdge) (findingIdLeft findingIdRight : Str) :
    Except Str (Option (Table CorrelationEdge)) := do
  let pair ← normalizePair findingIdLeft findingIdRight
  match edges.get? pair with
  | none => return none
  | some _ =>
    return some (edges.update pair CorrelationEdge.reactivate CorrelationEdge.keepsKeys_reactivate)

/-! ### The edges in use after a write -/

section Writes

variable {edges edges' : Table CorrelationEdge} {pair q : Str × Str}

/-- A link puts the edge of its pair to use, whether or not it was taken out of use before. -/
theorem edgeActive_upsertEdge {edgeType : Str} {confidence : Confidence} {evidence : EdgeEvidence}
    {createdBy : Option Str} :
    EdgeActive (upsertEdge edges pair edgeType confidence evidence createdBy) q ↔
      q = pair ∨ EdgeActive edges q := by
  unfold EdgeActive upsertEdge
  rw [Table.get?_upsert, CorrelationEdge.pk_new]
  split_ifs with hq
  · refine iff_of_true ⟨_, rfl, ?_⟩ (Or.inl hq)
    cases edges.get? q with
    | none => rfl
    | some row => rfl
  · rw [or_iff_right hq]

/-- A write to the edge of a pair sets whether that edge is in use, and leaves the others as they
are. -/
theorem edgeActive_of_write {f : CorrelationEdge → CorrelationEdge} (hf : KeepsKeys f)
    {left right : Str}
    (h : (do
      let pair ← normalizePair left right
      match edges.get? pair with
      | none => return none
      | some _ => return some (edges.update pair f hf)) = Except.ok (some edges')) :
    ∃ pair row, normalizePair left right = .ok pair ∧
      ∀ q, EdgeActive edges' q ↔ if q = pair then (f row).active = true else EdgeActive edges q := by
  obtain ⟨pair, hpair, h⟩ := bind_eq_ok_iff.mp h
  cases hrow : edges.get? pair with
  | none =>
    rw [hrow] at h
    cases h
  | some row =>
    rw [hrow] at h
    cases h
    refine ⟨pair, row, hpair, fun q => ?_⟩
    unfold EdgeActive
    rw [Table.get?_update]
    split_ifs with hq
    · simp [hrow]
    · rfl

/-- A removal takes the edge of its pair out of use, and leaves the others as they are. -/
theorem edgeActive_of_deactivateEdge {now : Instant} {left right removedBy removeReason : Str}
    (h : deactivateEdge edges now left right removedBy removeReason = .ok (some edges')) :
    ∃ pair, normalizePair left right = .ok pair ∧
      ∀ q, EdgeActive edges' q ↔ q ≠ pair ∧ EdgeActive edges q := by
  obtain ⟨pair, row, hpair, hactive⟩ := edgeActive_of_write _ h
  refine ⟨pair, hpair, fun q => ?_⟩
  rw [hactive]
  split_ifs with hq
  · simp [hq, CorrelationEdge.deactivate]
  · simp [hq]

/-- A restore puts the edge of its pair to use, and leaves the others as they are. -/
theorem edgeActive_of_reactivateEdge {left right : Str}
    (h : reactivateEdge edges left right = .ok (some edges')) :
    ∃ pair, normalizePair left right = .ok pair ∧
      ∀ q, EdgeActive edges' q ↔ q = pair ∨ EdgeActive edges q := by
  obtain ⟨pair, row, hpair, hactive⟩ := edgeActive_of_write _ h
  refine ⟨pair, hpair, fun q => ?_⟩
  rw [hactive]
  split_ifs with hq
  · simp [hq, CorrelationEdge.reactivate]
  · simp [hq]

end Writes

end Vat
