import Vat.Python.Text

/-!
# Texts in another case

A change of case replaces each character by one or more others, and what they are may depend on the
characters around. Blanks, slashes, colons and dots stay what they are, and no other character
becomes one of them, so a text in another case is split at its marks where the text itself is.

## Main definitions

* `isMark`: the characters without case that references are split at.
* `Spells`: a text and the text in another case.

## Main results

* `Spells.append_inv`, `Spells.mark_cons`: the parts of a text in another case.
* `Spells.mem_mark_iff`, `Spells.head?_mark_iff`, `Spells.getLast?_mark_iff`: where its marks are.
-/

namespace Vat

/-- A blank, slash, colon or dot. -/
def isMark (c : Char) : Bool := Str.isSpace c || c == '/' || c == ':' || c == '.'

theorem isMark_of_isSpace {c : Char} (h : Str.isSpace c) : isMark c := by
  rw [isMark, h]
  rfl

theorem isMark_of_slash {c : Char} (h : c == '/') : isMark c := by
  rw [beq_iff_eq.mp h]
  decide

/-- What a character becomes in another case. -/
structure IsSpelling (c : Char) (p : Str) : Prop where
  ne_nil : p ≠ []
  mark : isMark c → p = [c]
  plain : isMark c = false → ∀ d ∈ p, isMark d = false

/-- A text and the text in another case, character by character. -/
inductive Spells : Str → Str → Prop
  | nil : Spells [] []
  | cons {c : Char} {p s t : Str} : IsSpelling c p → Spells s t → Spells (c :: s) (p ++ t)

namespace Spells

variable {c : Char} {s t x y : Str}

/-- A text in another case is divided where the text is. -/
theorem append_inv (h : Spells (x ++ y) t) : ∃ X Y, t = X ++ Y ∧ Spells x X ∧ Spells y Y := by
  induction x generalizing t with
  | nil => exact ⟨[], t, rfl, .nil, h⟩
  | cons c x ih =>
    cases h with
    | @cons _ p _ t hp h =>
      obtain ⟨X, Y, rfl, hX, hY⟩ := ih h
      exact ⟨p ++ X, Y, (List.append_assoc p X Y).symm, .cons hp hX, hY⟩

/-- A mark stays where it is. -/
theorem mark_cons (hc : isMark c) (h : Spells (c :: s) t) : ∃ t', t = c :: t' ∧ Spells s t' := by
  cases h with
  | @cons _ p _ t hp h =>
    rw [hp.mark hc]
    exact ⟨t, rfl, h⟩

theorem mem_mark_iff (hc : isMark c) (h : Spells s t) : c ∈ t ↔ c ∈ s := by
  induction h with
  | nil => rfl
  | @cons d p s t hp _ ih =>
    rw [List.mem_append, List.mem_cons, ih]
    refine or_congr_left ?_
    by_cases hd : isMark d = true
    · rw [hp.mark hd, List.mem_singleton]
    · refine iff_of_false (fun hmem => ?_) fun heq => hd (heq ▸ hc)
      have hno := hp.plain (Bool.eq_false_iff.mpr hd) c hmem
      exact absurd hc (Bool.eq_false_iff.mp hno)

theorem eq_nil_iff (h : Spells s t) : t = [] ↔ s = [] := by
  cases h with
  | nil => rfl
  | cons hp _ =>
    refine iff_of_false (fun hnil => ?_) (List.cons_ne_nil _ _)
    exact hp.ne_nil (List.append_eq_nil_iff.mp hnil).1

theorem head?_mark_iff (hc : isMark c) (h : Spells s t) : t.head? = some c ↔ s.head? = some c := by
  cases h with
  | nil => rfl
  | @cons d p s t hp _ =>
    obtain ⟨e, p, rfl⟩ := List.exists_cons_of_ne_nil hp.ne_nil
    rw [List.cons_append, List.head?_cons, List.head?_cons, Option.some_inj, Option.some_inj]
    by_cases hd : isMark d = true
    · rw [List.head_eq_of_cons_eq (hp.mark hd)]
    · have he := hp.plain (Bool.eq_false_iff.mpr hd) e List.mem_cons_self
      refine iff_of_false (fun heq => ?_) fun heq => hd (heq ▸ hc)
      rw [heq] at he
      exact absurd hc (Bool.eq_false_iff.mp he)

theorem getLast?_mark_iff (hc : isMark c) (h : Spells s t) :
    t.getLast? = some c ↔ s.getLast? = some c := by
  rcases List.eq_nil_or_concat s with rfl | ⟨s, d, rfl⟩
  · rw [h.eq_nil_iff.mpr rfl]
  · rw [List.concat_eq_append] at h ⊢
    obtain ⟨X, Y, rfl, -, hY⟩ := h.append_inv
    cases hY with
    | @cons _ p _ t hp hnil =>
      cases hnil
      rw [List.append_nil, List.getLast?_concat, Option.some_inj,
        List.getLast?_append_of_ne_nil _ hp.ne_nil]
      by_cases hd : isMark d = true
      · rw [hp.mark hd, List.getLast?_singleton, Option.some_inj]
      · refine iff_of_false (fun hlast => ?_) fun heq => hd (heq ▸ hc)
        have hno := hp.plain (Bool.eq_false_iff.mpr hd) c (List.mem_of_getLast? hlast)
        exact absurd hc (Bool.eq_false_iff.mp hno)

/-- A text in another case is blank if the text is. -/
theorem all_isSpace_iff (h : Spells s t) :
    (∀ c ∈ t, Str.isSpace c) ↔ ∀ c ∈ s, Str.isSpace c := by
  induction h with
  | nil => rfl
  | @cons d p s t hp _ ih =>
    rw [List.forall_mem_append, List.forall_mem_cons]
    refine and_congr ?_ ih
    by_cases hd : isMark d = true
    · rw [hp.mark hd, List.forall_mem_singleton]
    · obtain ⟨e, p, rfl⟩ := List.exists_cons_of_ne_nil hp.ne_nil
      refine iff_of_false (fun hall => ?_) fun hspace => hd (isMark_of_isSpace hspace)
      have he := hp.plain (Bool.eq_false_iff.mpr hd) e List.mem_cons_self
      exact absurd (isMark_of_isSpace (hall e List.mem_cons_self)) (Bool.eq_false_iff.mp he)

end Spells

end Vat
