import Vat.Python.Text
import Mathlib.Algebra.Ring.Nat

/-!
# Calendar dates as texts

`date.isoformat` writes a date with a fixed number of digits for each part, so the order of the
texts is the order of the dates.

## Main definitions

* `digits`: the last decimal digits of a number.
* `Date`, `Date.isoformat`.

## Main results

* `digits_append_lt_iff`: texts of equally many digits compare like their numbers.
* `Date.isoformat_lt_iff`.
* `Str.strip_append`: stripping keeps a text without blanks at the beginning of a longer one.
-/

namespace Vat

/-- The character of a decimal digit. -/
def digitChar (n : ℕ) : Char := Char.ofNat (48 + n % 10)

/-- The last `w` decimal digits of `n`. -/
def digits : ℕ → ℕ → Str
  | 0, _ => []
  | w + 1, n => digits w (n / 10) ++ [digitChar n]

@[simp] theorem length_digits (w n : ℕ) : (digits w n).length = w := by
  induction w generalizing n with
  | zero => rfl
  | succ w ih => rw [digits, List.length_append, ih, List.length_singleton]

private theorem digitChar_lt_fin :
    ∀ a b : Fin 10, (digitChar a < digitChar b ↔ a < b) ∧ (digitChar a = digitChar b ↔ a = b) ∧
      Str.isSpace (digitChar a) = false := by
  decide

private theorem digitChar_mod (n : ℕ) : digitChar n = digitChar (⟨n % 10, by omega⟩ : Fin 10) := by
  simp [digitChar]

theorem digitChar_lt_iff (a b : ℕ) : digitChar a < digitChar b ↔ a % 10 < b % 10 := by
  rw [digitChar_mod a, digitChar_mod b, (digitChar_lt_fin _ _).1, Fin.mk_lt_mk]

theorem digitChar_eq_iff (a b : ℕ) : digitChar a = digitChar b ↔ a % 10 = b % 10 := by
  rw [digitChar_mod a, digitChar_mod b, (digitChar_lt_fin _ _).2.1, Fin.mk.injEq]

theorem isSpace_digitChar (n : ℕ) : Str.isSpace (digitChar n) = false := by
  rw [digitChar_mod n]
  exact (digitChar_lt_fin _ 0).2.2

/-- Texts of equally many digits compare like their numbers, and equal ones by what follows. -/
theorem digits_append_lt_iff {w a b : ℕ} (ha : a < 10 ^ w) (hb : b < 10 ^ w) (s t : Str) :
    digits w a ++ s < digits w b ++ t ↔ a < b ∨ a = b ∧ s < t := by
  induction w generalizing a b s t with
  | zero =>
    obtain rfl : a = 0 := by simpa using ha
    obtain rfl : b = 0 := by simpa using hb
    simp [digits]
  | succ w ih =>
    have ha' : a / 10 < 10 ^ w := by
      rw [pow_succ] at ha
      omega
    have hb' : b / 10 < 10 ^ w := by
      rw [pow_succ] at hb
      omega
    rw [digits, digits, List.append_assoc, List.append_assoc, ih ha' hb', List.singleton_append,
      List.singleton_append, List.cons_lt_cons_iff, digitChar_lt_iff, digitChar_eq_iff]
    constructor
    · rintro (h | ⟨h, h' | ⟨h', hs⟩⟩)
      · exact Or.inl (by omega)
      · exact Or.inl (by omega)
      · exact Or.inr ⟨by omega, hs⟩
    · rintro (h | ⟨rfl, hs⟩)
      · by_cases hq : a / 10 = b / 10
        · exact Or.inr ⟨hq, Or.inl (by omega)⟩
        · exact Or.inl (by omega)
      · exact Or.inr ⟨rfl, Or.inr ⟨rfl, hs⟩⟩

/-- A calendar date within the bounds of `datetime.date`. -/
structure Date where
  year : ℕ
  month : ℕ
  day : ℕ
  year_lt : year < 10000
  month_lt : month < 13
  day_lt : day < 32

/-- Dates are ordered by year, month and day. -/
instance : LT Date where
  lt a b := a.year < b.year ∨ a.year = b.year ∧
    (a.month < b.month ∨ a.month = b.month ∧ a.day < b.day)

/-- `YYYY-MM-DD`. -/
def Date.isoformat (d : Date) : Str :=
  digits 4 d.year ++ ('-' :: (digits 2 d.month ++ ('-' :: digits 2 d.day)))

@[simp] theorem Date.length_isoformat (d : Date) : d.isoformat.length = 10 := by
  simp [Date.isoformat]

/-- The texts of dates are ordered like the dates. -/
theorem Date.isoformat_lt_iff (a b : Date) : a.isoformat < b.isoformat ↔ a < b := by
  have hyear : ∀ d : Date, d.year < 10 ^ 4 := fun d => by simpa using d.year_lt
  have hmonth : ∀ d : Date, d.month < 10 ^ 2 := fun d => d.month_lt.trans (by decide)
  have hday : ∀ d : Date, d.day < 10 ^ 2 := fun d => d.day_lt.trans (by decide)
  have hdash : ∀ s t : Str, '-' :: s < '-' :: t ↔ s < t := fun s t => by
    rw [List.cons_lt_cons_iff]
    simp
  have hlast : digits 2 a.day < digits 2 b.day ↔ a.day < b.day := by
    have := digits_append_lt_iff (hday a) (hday b) [] []
    simpa using this
  rw [Date.isoformat, Date.isoformat, digits_append_lt_iff (hyear a) (hyear b), hdash,
    digits_append_lt_iff (hmonth a) (hmonth b), hdash, hlast]
  rfl

/-- A date is written without blanks. -/
theorem Date.isSpace_isoformat (d : Date) : ∀ c ∈ d.isoformat, Str.isSpace c = false := by
  have hdigits : ∀ w n, ∀ c ∈ digits w n, Str.isSpace c = false := by
    intro w
    induction w with
    | zero => simp [digits]
    | succ w ih =>
      intro n c hc
      rcases List.mem_append.mp hc with hc | hc
      · exact ih _ c hc
      · rw [List.mem_singleton.mp hc]
        exact isSpace_digitChar n
  intro c hc
  simp only [Date.isoformat, List.mem_append, List.mem_cons] at hc
  rcases hc with hc | rfl | hc | rfl | hc
  · exact hdigits _ _ c hc
  · decide
  · exact hdigits _ _ c hc
  · decide
  · exact hdigits _ _ c hc

/-- Stripping keeps a text without blanks at the beginning of a longer one. -/
theorem Str.strip_append {s : Str} (hs : ∀ c ∈ s, Str.isSpace c = false) (hne : s ≠ [])
    (rest : Str) : Str.strip (s ++ rest) = s ++ rest.rdropWhile Str.isSpace := by
  have hfront : (s ++ rest).dropWhile Str.isSpace = s ++ rest := by
    obtain ⟨c, s, rfl⟩ := List.exists_cons_of_ne_nil hne
    rw [List.cons_append, List.dropWhile_cons, hs c List.mem_cons_self]
    rfl
  have hback : s.rdropWhile Str.isSpace = s := by
    rw [List.rdropWhile_eq_self_iff]
    exact fun hl => by simp [hs _ (List.getLast_mem hl)]
  rw [Str.strip, Str.stripWhile, hfront]
  simp only [List.rdropWhile, List.reverse_append, List.dropWhile_append] at hback ⊢
  split_ifs with h
  · rw [hback, List.isEmpty_iff.mp h]
    simp
  · rw [List.reverse_append, List.reverse_reverse]

end Vat
