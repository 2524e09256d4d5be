import Vat.Python.Text

/-!
# Regular expressions at the end of a text

The part of Python's `re` that rewrites titles: patterns without captures that end with `$`, matched
without regard to case, and runs of characters replaced by one.

## Main definitions

* `CharTables`, `asciiCharTables`: the character classes.
* `Pattern`, `Pattern.rests`: patterns and what can follow a match.
* `Pattern.subAtEnd`: `re.sub(pattern + "$", "", text)`.
* `collapseRuns`: `re.sub("[...]+", "-", text)`.
-/

namespace Vat

/-- The character classes of `re` that Unicode decides. -/
class CharTables where
  /-- `\w`. -/
  isWord : Char → Bool
  /-- `\d`. -/
  isDecimal : Char → Bool
  isWord_of_ascii : ∀ c : Char, c.toNat < 128 → isWord c = (c.isAlphanum || c == '_')
  isDecimal_of_ascii : ∀ c : Char, c.toNat < 128 → isDecimal c = c.isDigit

/-- The classes of ASCII characters. -/
@[reducible] def asciiCharTables : CharTables where
  isWord c := c.isAlphanum || c == '_'
  isDecimal := Char.isDigit
  isWord_of_ascii _ _ := rfl
  isDecimal_of_ascii := asciiUnicode.isDigit_of_ascii

/-- `str.isalnum` of a single character. -/
def isAlnum [CharTables] (c : Char) : Bool := CharTables.isWord c && c != '_'

/-- A pattern. -/
inductive Pattern
  | empty
  | one (p : Char → Bool)
  | seq (a b : Pattern)
  | alt (a b : Pattern)
  | star (a : Pattern)

namespace Pattern

/-- What can be left after at most `n` repetitions. -/
def starRests (step : Str → List Str) : ℕ → Str → List Str
  | 0, s => [s]
  | n + 1, s => s :: (step s).flatMap (starRests step n)

/-- What can be left of a text after a match at its start. A repetition that matches nothing leads
nowhere, so that no more of them are needed than there are characters. -/
def rests : Pattern → Str → List Str
  | .empty, s => [s]
  | .one _, [] => []
  | .one p, c :: s => if p c then [s] else []
  | .seq a b, s => (rests a s).flatMap (rests b)
  | .alt a b, s => rests a s ++ rests b s
  | .star a, s => starRests (rests a) s.length s

/-- `a+`. -/
def plus (a : Pattern) : Pattern := .seq a (.star a)

/-- `a?`. -/
def opt (a : Pattern) : Pattern := .alt a .empty

/-- One of several patterns. -/
def oneOf : List Pattern → Pattern
  | [] => .one fun _ => false
  | [a] => a
  | a :: as => .alt a (oneOf as)

/-- Patterns one after another. -/
def all : List Pattern → Pattern
  | [] => .empty
  | [a] => a
  | a :: as => .seq a (all as)

/-- A character that equals a lower-case one under `re.IGNORECASE`: `i` also matches the two Turkish
letters and `s` the long one. -/
def foldsTo [Unicode] (letter c : Char) : Bool :=
  Unicode.lower [c] = [letter] || letter == 'i' && (c.toNat == 0x130 || c.toNat == 0x131) ||
    letter == 's' && c.toNat == 0x17f

/-- An ASCII character folds to its lower case only. -/
theorem foldsTo_of_ascii [Unicode] {letter c : Char} (h : c.toNat < 128) :
    foldsTo letter c = decide (c.toLower = letter) := by
  have hc : Unicode.lower [c] = [c.toLower] := Unicode.lower_of_ascii [c] (by simpa using h)
  have hi : (c.toNat == 0x130) = false ∧ (c.toNat == 0x131) = false ∧ (c.toNat == 0x17f) = false := by
    simp only [beq_eq_false_iff_ne]
    omega
  simp [foldsTo, hc, hi]

/-- An ASCII character folds to its lower case. -/
theorem foldsTo_toLower [Unicode] {c : Char} (h : c.toNat < 128) : foldsTo c.toLower c = true := by
  simp [foldsTo_of_ascii h]

/-- A literal text in lower case. -/
def lit [Unicode] (s : String) : Pattern := all ((str s).map fun c => .one (foldsTo c))

/-- `\s`. -/
def space : Pattern := .one Str.isSpace

/-- `\d`. -/
def decimal [CharTables] : Pattern := .one CharTables.isDecimal

/-- A character of a path: a word character, a dot, a slash or a hyphen. -/
def pathChar [CharTables] : Pattern :=
  .one fun c => CharTables.isWord c || c == '.' || c == '/' || c == '-'

/-- What stands before the leftmost match that reaches the end. -/
def beforeMatch (p : Pattern) : Str → Option Str
  | [] => if [] ∈ p.rests [] then some [] else none
  | c :: s => if [] ∈ p.rests (c :: s) then some [] else (beforeMatch p s).map (c :: ·)

/-- `re.sub(pattern + "$", "", text)` for a pattern that matches no text which ends a line: `$`
stands at the end and before a last line end. -/
def subAtEnd (p : Pattern) (t : Str) : Str :=
  if t.getLast? = some '\n' then
    match beforeMatch p t.dropLast with
    | some before => before ++ ['\n']
    | none => t
  else (beforeMatch p t).getD t

end Pattern

/-- `re.sub("[...]+", "-", text)`: every longest run of the class becomes one hyphen. -/
def collapseRuns (p : Char → Bool) : Str → Str
  | [] => []
  | [c] => if p c then ['-'] else [c]
  | c :: d :: s =>
    if p c then if p d then collapseRuns p (d :: s) else '-' :: collapseRuns p (d :: s)
    else c :: collapseRuns p (d :: s)

end Vat
