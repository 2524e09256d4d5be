import Mathlib.Data.List.DropRight
import Mathlib.Data.List.Infix

/-!
# Python text

A Python `str` is the list of its code points. This file has the string methods the sources use,
with Python's behaviour: `strip` removes the code points of `str.isspace`, `split` with a
one-character separator keeps empty parts, comparison is lexicographic by code point.

Case folding and the digit test follow the Unicode tables of the interpreter. They are the fields
of `Unicode`, so that every statement holds for any such tables; `asciiUnicode` has their values
on ASCII text.

## Main definitions

* `Str`, `str`: texts and text literals.
* `Str.strip`, `Str.split1`, `Str.rsplit1`, `Str.orEmpty`, `Str.truthy`, `Str.orElse`.
* `Unicode`, `asciiUnicode`.
-/

namespace Vat

/-- A Python `str`. -/
abbrev Str := List Char

instance Str.instLawfulBEq : LawfulBEq Str := inferInstanceAs (LawfulBEq (List Char))

/-- A text literal. -/
def str (s : String) : Str := s.toList

/-- The parts of the Unicode tables that `str.lower` and `str.isdigit` read. -/
class Unicode where
  /-- `str.lower`. -/
  lower : Str → Str
  /-- `str.isdigit` of a single character. -/
  isDigit : Char → Bool
  lower_of_ascii : ∀ s : Str, (∀ c ∈ s, c.toNat < 128) → lower s = s.map Char.toLower
  isDigit_of_ascii : ∀ c : Char, c.toNat < 128 → isDigit c = c.isDigit

/-- The Unicode tables on ASCII text. -/
@[reducible] def asciiUnicode : Unicode where
  lower s := s.map Char.toLower
  isDigit := Char.isDigit
  lower_of_ascii _ _ := rfl
  isDigit_of_ascii _ _ := rfl

/-- The number of a letter in lower case. -/
theorem toNat_toLower (c : Char) :
    c.toLower = c ∧ ¬ (65 ≤ c.toNat ∧ c.toNat ≤ 90) ∨
      65 ≤ c.toNat ∧ c.toNat ≤ 90 ∧ c.toLower.toNat = c.toNat + 32 := by
  by_cases hupper : c.val ≥ 'A'.val ∧ c.val ≤ 'Z'.val
  · have hge : 65 ≤ c.toNat := hupper.1
    have hle : c.toNat ≤ 90 := hupper.2
    have hval : c.toLower.toNat = (c.val + 32).toNat := congrArg Char.toNat (dif_pos hupper)
    rw [UInt32.toNat_add] at hval
    change c.toLower.toNat = (c.toNat + 32) % 4294967296 at hval
    refine Or.inr ⟨hge, hle, ?_⟩
    omega
  · exact Or.inl ⟨dif_neg hupper, hupper⟩

theorem toLower_toLower (c : Char) : c.toLower.toLower = c.toLower := by
  obtain h | h := toNat_toLower c.toLower
  · exact h.1
  · obtain ⟨hself, hrange⟩ | hc := toNat_toLower c
    · rw [hself, hself]
    · omega

/-- The part of the Unicode tables that `str.upper` reads. -/
class UpperCase where
  /-- `str.upper`. -/
  upper : Str → Str
  upper_of_ascii : ∀ s : Str, (∀ c ∈ s, c.toNat < 128) → upper s = s.map Char.toUpper

/-- The upper case of ASCII text. -/
@[reducible] def asciiUpperCase : UpperCase where
  upper s := s.map Char.toUpper
  upper_of_ascii _ _ := rfl

/-- An ASCII text without capitals is its own lower case. -/
theorem Unicode.lower_eq_self [Unicode] {s : Str}
    (h : (s.all fun c => c.toNat < 128 && c.toLower == c) = true) : Unicode.lower s = s := by
  simp only [List.all_eq_true, Bool.and_eq_true, decide_eq_true_eq, beq_iff_eq] at h
  rw [Unicode.lower_of_ascii s fun c hc => (h c hc).1]
  exact (List.map_congr_left fun c hc => (h c hc).2).trans (List.map_id s)

theorem Unicode.lower_nil [Unicode] : Unicode.lower [] = [] := Unicode.lower_eq_self rfl

namespace Str

/-- `str.isspace` of a single character. -/
def isSpace (c : Char) : Bool :=
  let n := c.toNat
  (9 ≤ n && n ≤ 13) || (28 ≤ n && n ≤ 32) || n == 0x85 || n == 0xa0 || n == 0x1680 ||
    (0x2000 ≤ n && n ≤ 0x200a) || n == 0x2028 || n == 0x2029 || n == 0x202f || n == 0x205f ||
    n == 0x3000

/-- `s.strip` of the characters satisfying `p`. -/
def stripWhile (p : Char → Bool) (s : Str) : Str := (s.dropWhile p).rdropWhile p

/-- `s.strip()`. -/
def strip (s : Str) : Str := stripWhile isSpace s

/-- `s.startswith(p)`. -/
def startsWith (s p : Str) : Bool := p.isPrefixOf s

/-- `needle in s`. -/
def contains (s needle : Str) : Bool := decide (needle <:+: s)

/-- `s.split(c, 1)` when `c` occurs in `s`: what stands before its first occurrence and after. -/
def split1 (c : Char) (s : Str) : Str × Str := (s.takeWhile (· != c), (s.dropWhile (· != c)).drop 1)

/-- `s[:s.rfind(c)]` and `s[s.rfind(c) + 1:]` when `c` occurs in `s`. -/
def rsplit1 (c : Char) (s : Str) : Str × Str :=
  (((s.reverse.dropWhile (· != c)).drop 1).reverse, (s.reverse.takeWhile (· != c)).reverse)

/-- `c.join(parts)` for a one-character separator. -/
def join (c : Char) (parts : List Str) : Str := [c].intercalate parts

/-- `x or ""` for an optional text. -/
def orEmpty (x : Option Str) : Str := x.getD []

/-- The truth value of an optional text. -/
def truthy (x : Option Str) : Bool := orEmpty x != []

/-- `x or y` for optional texts. -/
def orElse (x y : Option Str) : Option Str := if truthy x then x else y

@[simp] theorem orEmpty_none : orEmpty none = [] := rfl

@[simp] theorem orEmpty_some (s : Str) : orEmpty (some s) = s := rfl

@[simp] theorem strip_nil : strip [] = [] := rfl

/-- What starts a text that does not start with a blank does not start with one. -/
theorem dropWhile_of_isPrefix {p : Char → Bool} {s x : Str} (hpre : x <+: s)
    (h : s.dropWhile p = s) : x.dropWhile p = x := by
  rw [List.dropWhile_eq_self_iff] at h ⊢
  intro hpos
  rw [hpre.getElem hpos]
  exact h (hpos.trans_le hpre.length_le)

/-- Stripping the end of a text that does not start with a blank leaves such a text. -/
theorem dropWhile_rdropWhile {p : Char → Bool} {s : Str} (h : s.dropWhile p = s) :
    (s.rdropWhile p).dropWhile p = s.rdropWhile p :=
  dropWhile_of_isPrefix (List.rdropWhile_prefix p s) h

/-- Stripping twice is stripping once. -/
theorem stripWhile_stripWhile (p : Char → Bool) (s : Str) :
    stripWhile p (stripWhile p s) = stripWhile p s := by
  simp only [stripWhile]
  rw [dropWhile_rdropWhile (List.dropWhile_idempotent _ s), List.rdropWhile_idempotent]

theorem strip_strip (s : Str) : strip (strip s) = strip s := stripWhile_stripWhile isSpace s

theorem stripWhile_sublist (p : Char → Bool) (s : Str) : List.Sublist (stripWhile p s) s :=
  (List.rdropWhile_prefix p _).sublist.trans (List.dropWhile_suffix p).sublist

theorem strip_subset (s : Str) : strip s ⊆ s := (stripWhile_sublist isSpace s).subset

theorem stripWhile_eq_self {p : Char → Bool} {s : Str} (h : ∀ c ∈ s, p c = false) :
    stripWhile p s = s := by
  have hdrop : s.dropWhile p = s := List.dropWhile_eq_self_iff.mpr fun hpos => by
    simp [h _ (List.getElem_mem hpos)]
  rw [stripWhile, hdrop]
  exact List.rdropWhile_eq_self_iff.mpr fun hne => by simp [h _ (List.getLast_mem hne)]

/-- A text without blanks has nothing to strip. -/
theorem strip_eq_self {s : Str} (h : ∀ c ∈ s, isSpace c = false) : strip s = s :=
  stripWhile_eq_self h

/-- Characters that are replaced can be stripped before or after. -/
theorem stripWhile_map_of {p q : Char → Bool} {f : Char → Char} (h : ∀ c, p (f c) = q c) (s : Str) :
    stripWhile p (s.map f) = (stripWhile q s).map f := by
  have hp : p ∘ f = q := funext h
  rw [stripWhile, stripWhile, List.rdropWhile, List.rdropWhile, List.dropWhile_map, hp,
    ← List.map_reverse, List.dropWhile_map, hp, List.map_reverse]

theorem stripWhile_map {p : Char → Bool} {f : Char → Char} (h : ∀ c, p (f c) = p c) (s : Str) :
    stripWhile p (s.map f) = (stripWhile p s).map f :=
  stripWhile_map_of h s

theorem stripWhile_append_left {p : Char → Bool} {pre : Str} (h : ∀ c ∈ pre, p c) (s : Str) :
    stripWhile p (pre ++ s) = stripWhile p s := by
  rw [stripWhile, stripWhile, List.dropWhile_append_of_pos h]

theorem stripWhile_append_right {p : Char → Bool} {post : Str} (h : ∀ c ∈ post, p c) (s : Str) :
    stripWhile p (s ++ post) = stripWhile p s := by
  have hright : ∀ x : Str, (x ++ post).rdropWhile p = x.rdropWhile p := by
    intro x
    rw [List.rdropWhile, List.reverse_append,
      List.dropWhile_append_of_pos fun c hc => h c (List.mem_reverse.mp hc), ← List.rdropWhile]
  have hpost : post.dropWhile p = [] := List.dropWhile_eq_nil_iff.mpr h
  rw [stripWhile, stripWhile, List.dropWhile_append]
  split_ifs with hempty
  · rw [hpost, List.isEmpty_iff.mp hempty]
  · exact hright _

end Str

end Vat
