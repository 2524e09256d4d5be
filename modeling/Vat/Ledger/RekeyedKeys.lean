import Vat.Delimited.Fields
import Vat.Ledger.SubjectAliases

/-!
# Rewriting the asset of a decision key

A key whose fifth field starts with the old asset keeps its first four fields and what follows the
asset (`rekeySubjectKeyAsset_eq_some`), so a rewritten key comes from one key only.

## Main results

* `rekeySubjectKeyAsset_eq_some`, `rekeySubjectKeyAsset_inj`.
-/

namespace Vat

open Delimited

section Fifth

variable {fields : List Str} (hlen : fields.length = 4) (x y : Str) (tail : List Str)

include hlen

private theorem getD_fifth : (fields ++ x :: tail).getD 4 [] = x := by
  rw [List.getD_eq_getElem?_getD, List.getElem?_append_right hlen.le, hlen]
  rfl

private theorem set_fifth : (fields ++ x :: tail).set 4 y = fields ++ y :: tail := by
  rw [List.set_append_right _ _ hlen.le, hlen]
  rfl

end Fifth

/-- A rewritten key has the fields before the asset and the text after it. -/
theorem rekeySubjectKeyAsset_eq_some {key oldNorm newNorm newKey : Str}
    (h : rekeySubjectKeyAsset key oldNorm newNorm = some newKey) :
    ∃ fields rest, fields.length = 4 ∧ (∀ x ∈ fields, ':' ∉ x) ∧
      key = terminated ':' fields ++ (oldNorm ++ rest) ∧
      newKey = terminated ':' fields ++ (newNorm ++ rest) := by
  unfold rekeySubjectKeyAsset at h
  dsimp only at h
  split_ifs at h with hshape
  rw [not_or, Nat.not_lt] at hshape
  obtain ⟨fields, t, hlen, hfields, rfl⟩ :=
    exists_terminated (show 4 < (key.splitOn ':').length by omega)
  obtain ⟨x, tail, ht⟩ := List.exists_cons_of_ne_nil (List.splitOn_ne_nil ':' t)
  rw [splitOn_terminated_append hfields, ht, getD_fifth hlen] at h
  obtain ⟨asset, others, hx⟩ := List.exists_cons_of_ne_nil (List.splitOn_ne_nil '|' x)
  rw [hx] at h
  dsimp only at h
  split_ifs at h with hasset
  rw [ne_eq, not_not] at hasset
  subst hasset
  obtain rfl := Option.some.inj h
  refine ⟨fields, others.flatMap ('|' :: ·) ++ tail.flatMap (':' :: ·), hlen, hfields, ?_, ?_⟩
  · rw [← List.append_assoc asset, ← intercalate_cons asset, ← hx, List.intercalate_splitOn,
      ← intercalate_cons, ← ht, List.intercalate_splitOn]
  · rw [set_fifth hlen, Str.join, intercalate_append_cons, intercalate_cons, Str.join, intercalate_cons,
      List.append_assoc]

/-- A rewritten key comes from one key. -/
theorem rekeySubjectKeyAsset_inj {key key' oldNorm newNorm newKey : Str}
    (h : rekeySubjectKeyAsset key oldNorm newNorm = some newKey)
    (h' : rekeySubjectKeyAsset key' oldNorm newNorm = some newKey) : key = key' := by
  obtain ⟨fields, rest, hlen, hfields, rfl, rfl⟩ := rekeySubjectKeyAsset_eq_some h
  obtain ⟨fields', rest', hlen', hfields', rfl, heq⟩ := rekeySubjectKeyAsset_eq_some h'
  obtain ⟨rfl, hrest⟩ := terminated_append_inj (hlen.trans hlen'.symm) hfields hfields' heq
  rw [List.append_cancel_left hrest]

/-! ### Primary keys -/

section Primary

variable [Unicode]

omit [Unicode] in
/-- A key that decisions are rewritten to comes from one key. -/
theorem mergedSubjectKey_inj {oldNorm newNorm key : Str} {d d' : TriageDecision}
    (h : mergedSubjectKey oldNorm newNorm d = some key)
    (h' : mergedSubjectKey oldNorm newNorm d' = some key) : d.subjectKey = d'.subjectKey := by
  have hrekey : ∀ {e : TriageDecision}, mergedSubjectKey oldNorm newNorm e = some key →
      rekeySubjectKeyAsset e.subjectKey oldNorm newNorm = some key := by
    intro e he
    unfold mergedSubjectKey at he
    split_ifs at he
    split at he
    · cases he
    · next hnew =>
      split_ifs at he
      rw [hnew, he]
  exact rekeySubjectKeyAsset_inj (hrekey h) (hrekey h')

end Primary

end Vat
