import Mathlib.Data.Char
import Mathlib.Data.Finset.Sort
import Mathlib.Data.Fintype.Defs
import Mathlib.Data.List.Lex
import Mathlib.Order.Lex
import Vat.Delimited.SelfDelimiting
import Vat.Python.Text

/-!
# JSON texts

The values that `json.dumps(obj, sort_keys=True, separators=(",", ":"), default=str)` writes, and
what it writes. A `dict` is the set of its keys with a value for each, since its order is not
written. A float is given by its `repr`.

Source: `backend/app/services/audit_events.py`, lines 30–31.

## Main definitions

* `FloatRepr`, `Json`, `Json.dump`.

## Main results

* `quote_injective`: quoting loses nothing.
* `Json.dump_splits`: a written value is read off in one way only.
* `Json.dump_text_eq_iff`, `Json.dump_list_eq_iff`, `Json.dump_dict_eq_iff`: which values are
  written alike.
-/

namespace Vat

open Delimited

/-! ### Texts in quotes -/

/-- The double quote. -/
def quoteMark : Char := '\x22'

/-- A hexadecimal digit. -/
def hexDigit (n : ℕ) : Char :=
  if n % 16 < 10 then Char.ofNat (48 + n % 16) else Char.ofNat (87 + n % 16)

/-- `'\\u{0:04x}'.format(n)`. -/
def unicodeEscape (n : ℕ) : Str :=
  ['\\', 'u', hexDigit (n / 4096), hexDigit (n / 256), hexDigit (n / 16), hexDigit n]

/-- `py_encode_basestring_ascii` on one character. -/
def escapeChar (c : Char) : Str :=
  if c = quoteMark then ['\\', quoteMark]
  else if c = '\\' then ['\\', '\\']
  else if c = '\n' then ['\\', 'n']
  else if c = '\r' then ['\\', 'r']
  else if c = '\t' then ['\\', 't']
  else if c.toNat = 12 then ['\\', 'f']
  else if c.toNat = 8 then ['\\', 'b']
  else if 32 ≤ c.toNat ∧ c.toNat ≤ 126 then [c]
  else if c.toNat < 65536 then unicodeEscape c.toNat
  else
    unicodeEscape (55296 + (c.toNat - 65536) / 1024 % 1024) ++
      unicodeEscape (56320 + (c.toNat - 65536) % 1024)

/-- The ways in which a character is escaped. -/
theorem escapeChar_cases {P : Char → Str → Prop} (quoted : P quoteMark ['\\', quoteMark])
    (escape : P '\\' ['\\', '\\']) (line : P '\n' ['\\', 'n']) (ret : P '\r' ['\\', 'r'])
    (tab : P '\t' ['\\', 't']) (feed : ∀ c, c.toNat = 12 → P c ['\\', 'f'])
    (back : ∀ c, c.toNat = 8 → P c ['\\', 'b'])
    (plain : ∀ c, c ≠ quoteMark → c ≠ '\\' → P c [c])
    (bmp : ∀ c, c.toNat < 65536 → P c (unicodeEscape c.toNat))
    (high : ∀ c, ¬ c.toNat < 65536 → P c
      (unicodeEscape (55296 + (c.toNat - 65536) / 1024 % 1024) ++
        unicodeEscape (56320 + (c.toNat - 65536) % 1024))) (c : Char) : P c (escapeChar c) := by
  unfold escapeChar
  by_cases hquote : c = quoteMark
  · rw [if_pos hquote, hquote]
    exact quoted
  rw [if_neg hquote]
  by_cases hescape : c = '\\'
  · rw [if_pos hescape, hescape]
    exact escape
  rw [if_neg hescape]
  by_cases hline : c = '\n'
  · rw [if_pos hline, hline]
    exact line
  rw [if_neg hline]
  by_cases hret : c = '\r'
  · rw [if_pos hret, hret]
    exact ret
  rw [if_neg hret]
  by_cases htab : c = '\t'
  · rw [if_pos htab, htab]
    exact tab
  rw [if_neg htab]
  by_cases hfeed : c.toNat = 12
  · rw [if_pos hfeed]
    exact feed c hfeed
  rw [if_neg hfeed]
  by_cases hback : c.toNat = 8
  · rw [if_pos hback]
    exact back c hback
  rw [if_neg hback]
  by_cases hplain : 32 ≤ c.toNat ∧ c.toNat ≤ 126
  · rw [if_pos hplain]
    exact plain c hquote hescape
  rw [if_neg hplain]
  by_cases hbmp : c.toNat < 65536
  · rw [if_pos hbmp]
    exact bmp c hbmp
  · rw [if_neg hbmp]
    exact high c hbmp

/-- A text in quotes. -/
def quote (s : Str) : Str := quoteMark :: (s.flatMap escapeChar ++ [quoteMark])

/-- The inside of a quoted text has no quote that is not escaped. -/
theorem escaped_flatMap (s : Str) : Escaped quoteMark '\\' (s.flatMap escapeChar) := by
  have hunicode : ∀ n, Escaped quoteMark '\\' (unicodeEscape n) := by
    intro n
    have hdigit : ∀ m : ℕ, hexDigit m ≠ quoteMark ∧ hexDigit m ≠ '\\' := by
      intro m
      have hall : ∀ i : Fin 16, hexDigit i ≠ quoteMark ∧ hexDigit i ≠ '\\' := by decide
      have hm : hexDigit m = hexDigit (⟨m % 16, by omega⟩ : Fin 16) := by simp [hexDigit]
      rw [hm]
      exact hall _
    exact .escape (.plain (hdigit _).1 (hdigit _).2 (.plain (hdigit _).1 (hdigit _).2
      (.plain (hdigit _).1 (hdigit _).2 (.plain (hdigit _).1 (hdigit _).2 .nil))))
  induction s with
  | nil => exact .nil
  | cons c s ih =>
    rw [List.flatMap_cons]
    refine Escaped.append (escapeChar_cases (.escape .nil) (.escape .nil) (.escape .nil)
      (.escape .nil) (.escape .nil) (fun _ _ => .escape .nil) (fun _ _ => .escape .nil)
      (fun _ hquote hescape => .plain hquote hescape .nil) (fun _ _ => hunicode _)
      (fun _ _ => (hunicode _).append (hunicode _)) c) ih

/-- A quoted text is read off in one way only. -/
theorem quote_append_inj {s t r r' : Str} (h : quote s ++ r = quote t ++ r') :
    quote s = quote t ∧ r = r' := by
  simp only [quote, List.cons_append, List.append_assoc, List.nil_append, List.cons.injEq,
    true_and] at h
  obtain ⟨htext, hr⟩ := quoted_append_inj (by decide) (escaped_flatMap s) (escaped_flatMap t) h
  exact ⟨by rw [quote, quote, htext], hr⟩

/-- The value of a hexadecimal digit. -/
def hexValue (c : Char) : ℕ := if c.toNat < 58 then c.toNat - 48 else c.toNat - 87

/-- The value of four hexadecimal digits. -/
def hexValue4 (a b c d : Char) : ℕ :=
  hexValue a * 4096 + hexValue b * 256 + hexValue c * 16 + hexValue d

/-- Read one character of a quoted text. -/
def unescape : Str → Option (Char × Str)
  | '\\' :: 'u' :: a :: b :: c :: d :: r =>
    let n := hexValue4 a b c d
    if 55296 ≤ n ∧ n < 56320 then
      match r with
      | '\\' :: 'u' :: a' :: b' :: c' :: d' :: r' =>
        some (Char.ofNat (65536 + (n - 55296) * 1024 + (hexValue4 a' b' c' d' - 56320)), r')
      | _ => none
    else some (Char.ofNat n, r)
  | '\\' :: 'n' :: r => some ('\n', r)
  | '\\' :: 'r' :: r => some ('\r', r)
  | '\\' :: 't' :: r => some ('\t', r)
  | '\\' :: 'f' :: r => some (Char.ofNat 12, r)
  | '\\' :: 'b' :: r => some (Char.ofNat 8, r)
  | '\\' :: c :: r => some (c, r)
  | c :: r => some (c, r)
  | [] => none

theorem hexValue_hexDigit (n : ℕ) : hexValue (hexDigit n) = n % 16 := by
  have hall : ∀ i : Fin 16, hexValue (hexDigit i) = i := by decide
  have hn : hexDigit n = hexDigit (⟨n % 16, by omega⟩ : Fin 16) := by simp [hexDigit]
  rw [hn, hall]

theorem hexValue4_hexDigits {n : ℕ} (h : n < 65536) :
    hexValue4 (hexDigit (n / 4096)) (hexDigit (n / 256)) (hexDigit (n / 16)) (hexDigit n) = n := by
  simp only [hexValue4, hexValue_hexDigit]
  omega

theorem unescape_plain {c : Char} (hc : c ≠ '\\') (r : Str) : unescape (c :: r) = some (c, r) := by
  unfold unescape
  split <;> simp_all

theorem unescape_unicode {a b c d : Char} {r : Str}
    (h : ¬ (55296 ≤ hexValue4 a b c d ∧ hexValue4 a b c d < 56320)) :
    unescape ('\\' :: 'u' :: a :: b :: c :: d :: r) = some (Char.ofNat (hexValue4 a b c d), r) := by
  change (if _ then _ else _) = _
  exact if_neg h

theorem unescape_surrogates {a b c d a' b' c' d' : Char} {r : Str}
    (h : 55296 ≤ hexValue4 a b c d ∧ hexValue4 a b c d < 56320) :
    unescape ('\\' :: 'u' :: a :: b :: c :: d :: '\\' :: 'u' :: a' :: b' :: c' :: d' :: r) =
      some (Char.ofNat (65536 + (hexValue4 a b c d - 55296) * 1024 +
        (hexValue4 a' b' c' d' - 56320)), r) := by
  change (if _ then _ else _) = _
  exact if_pos h

/-- An escaped character is read back. -/
theorem unescape_escapeChar (c : Char) (r : Str) : unescape (escapeChar c ++ r) = some (c, r) := by
  have hchar : ∀ c : Char, Char.ofNat c.toNat = c := Char.ofNat_toNat
  have hvalid : ∀ c : Char, c.toNat < 55296 ∨ 57343 < c.toNat ∧ c.toNat < 1114112 := fun c => c.valid
  refine escapeChar_cases (P := fun c text => unescape (text ++ r) = some (c, r)) rfl rfl rfl rfl rfl
    (fun c hc => ?_) (fun c hc => ?_) (fun c _ hescape => unescape_plain hescape r)
    (fun c hbmp => ?_) (fun c hbmp => ?_) c
  · rw [← hchar c, hc]
    rfl
  · rw [← hchar c, hc]
    rfl
  · have hvalue := hexValue4_hexDigits hbmp
    have := hvalid c
    rw [unicodeEscape]
    refine (unescape_unicode (by omega)).trans ?_
    rw [hvalue, hchar]
    rfl
  · have hhigh : 55296 + (c.toNat - 65536) / 1024 % 1024 < 65536 := by omega
    have hlow : 56320 + (c.toNat - 65536) % 1024 < 65536 := by omega
    have hvalueHigh := hexValue4_hexDigits hhigh
    have hvalueLow := hexValue4_hexDigits hlow
    have := hvalid c
    have hvalue : 65536 + (55296 + (c.toNat - 65536) / 1024 % 1024 - 55296) * 1024 +
        (56320 + (c.toNat - 65536) % 1024 - 56320) = c.toNat := by omega
    rw [unicodeEscape, unicodeEscape]
    refine (unescape_surrogates (by omega)).trans ?_
    rw [hvalueHigh, hvalueLow, hvalue, hchar]
    rfl

/-- Quoting loses nothing. -/
theorem quote_injective : Function.Injective quote := by
  intro s t h
  have hinside : s.flatMap escapeChar = t.flatMap escapeChar :=
    List.append_cancel_right (List.cons.inj h).2
  have hne : ∀ (c : Char) (u : Str), (c :: u).flatMap escapeChar ≠ [] := by
    intro c u hnil
    have hread := unescape_escapeChar c (u.flatMap escapeChar)
    rw [← List.flatMap_cons, hnil] at hread
    cases hread
  clear h
  induction s generalizing t with
  | nil =>
    cases t with
    | nil => rfl
    | cons d t => exact absurd hinside.symm (hne d t)
  | cons c s ih =>
    cases t with
    | nil => exact absurd hinside (hne c s)
    | cons d t =>
      have hread := unescape_escapeChar c (s.flatMap escapeChar)
      rw [← List.flatMap_cons, hinside, List.flatMap_cons, unescape_escapeChar] at hread
      obtain ⟨rfl, htail⟩ := Prod.mk.inj (Option.some.inj hread)
      rw [ih htail.symm]

/-! ### Values -/

/-- The `repr` of a float: digits, a sign, a point, an exponent, or a name such as `NaN`. -/
structure FloatRepr where
  text : Str
  text_ne_nil : text ≠ []
  chars : ∀ c ∈ text, c ∈ str "0123456789+-.eNaInfity"

/-- A value given to `json.dumps`; `other` is a value of another type, by its `str`. -/
inductive Json
  | null
  | bool (b : Bool)
  | int (i : ℤ)
  | float (x : FloatRepr)
  | text (s : Str)
  | list (length : ℕ) (items : Fin length → Json)
  | dict (keys : Finset Str) (values : {k // k ∈ keys} → Json)
  | other (s : Str)

/-- `int.__repr__`. -/
def intText (i : ℤ) : Str :=
  if i < 0 then '-' :: Nat.toDigits 10 i.natAbs else Nat.toDigits 10 i.natAbs

/-- `json.dumps(obj, sort_keys=True, separators=(",", ":"), default=str)`. -/
def Json.dump : Json → Str
  | .null => str "null"
  | .bool b => if b then str "true" else str "false"
  | .int i => intText i
  | .float x => x.text
  | .text s => quote s
  | .list _ items => '[' :: (Str.join ',' (List.ofFn fun i => (items i).dump) ++ [']'])
  | .dict keys values =>
    '{' :: (Str.join ',' ((keys.sort (· ≤ ·)).attach.map fun k =>
      quote k.1 ++ ':' :: (values ⟨k.1, (Finset.mem_sort _).mp k.2⟩).dump) ++ ['}'])
  | .other s => quote s

/-! ### Reading a written value -/

/-- The characters that may follow a written value. -/
def jsonDelimiters : Set Char := {',', ']', '}'}

/-- A written value other than a text, a list or a dict. -/
def JsonAtom (t : Str) : Prop :=
  t ≠ [] ∧ ∀ c ∈ t, c ∉ jsonDelimiters ∧ c ≠ quoteMark ∧ c ≠ '[' ∧ c ≠ '{'

/-- Whether a character neither opens nor ends a written value. -/
def atomChar (c : Char) : Bool := c ∉ [',', ']', '}', quoteMark, '[', '{']

private theorem jsonAtom_of_all {t : Str} (hne : t ≠ []) (h : ∀ c ∈ t, atomChar c = true) :
    JsonAtom t := by
  refine ⟨hne, fun c hc => ?_⟩
  have hother := of_decide_eq_true (h c hc)
  simp only [List.mem_cons, List.not_mem_nil, or_false, not_or] at hother
  obtain ⟨hcomma, hbracket, hbrace, hrest⟩ := hother
  exact ⟨by simp [jsonDelimiters, hcomma, hbracket, hbrace], hrest⟩

theorem atomChar_of_isDigit {c : Char} (h : c.isDigit = true) : atomChar c = true := by
  refine decide_eq_true fun hc => ?_
  simp only [List.mem_cons, List.not_mem_nil, or_false] at hc
  rcases hc with rfl | rfl | rfl | rfl | rfl | rfl <;> exact absurd h (by decide)

theorem jsonAtom_intText (i : ℤ) : JsonAtom (intText i) := by
  have hdigits : ∀ c ∈ Nat.toDigits 10 i.natAbs, atomChar c = true := fun c hc =>
    atomChar_of_isDigit (Nat.isDigit_of_mem_toDigits (by decide) (by decide) hc)
  unfold intText
  split_ifs
  · exact jsonAtom_of_all (by simp) (List.forall_mem_cons.mpr ⟨by decide, hdigits⟩)
  · exact jsonAtom_of_all Nat.toDigits_ne_nil hdigits

theorem FloatRepr.jsonAtom (x : FloatRepr) : JsonAtom x.text := by
  have hall : (str "0123456789+-.eNaInfity").all atomChar = true := by decide
  exact jsonAtom_of_all x.text_ne_nil fun c hc => List.all_eq_true.mp hall c (x.chars c hc)

/-- The character that opens a written value of more than an atom. -/
def Json.opening : Json → Option Char
  | .text _ => some quoteMark
  | .other _ => some quoteMark
  | .list _ _ => some '['
  | .dict _ _ => some '{'
  | _ => none

/-- A value without an opening character is written as an atom. -/
theorem Json.jsonAtom_dump {j : Json} (h : j.opening = none) : JsonAtom j.dump := by
  have hword (t : Str) (hne : t ≠ []) (hall : t.all atomChar = true) : JsonAtom t :=
    jsonAtom_of_all hne (List.all_eq_true.mp hall)
  cases j with
  | null => exact hword (str "null") (by decide) (by decide)
  | bool b =>
    cases b with
    | false => exact hword (str "false") (by decide) (by decide)
    | true => exact hword (str "true") (by decide) (by decide)
  | int i => exact jsonAtom_intText i
  | float x => exact x.jsonAtom
  | text s => cases h
  | list n items => cases h
  | dict keys values => cases h
  | other s => cases h

/-- The first character of a written value closes nothing, and tells what is opened. -/
theorem Json.dump_head (j : Json) : ∃ a t, j.dump = a :: t ∧ a ∉ jsonDelimiters ∧
    j.opening = if a = quoteMark ∨ a = '[' ∨ a = '{' then some a else none := by
  have hopen : ∀ c, c = quoteMark ∨ c = '[' ∨ c = '{' → c ∉ jsonDelimiters := by
    rintro c (rfl | rfl | rfl) <;> simp [jsonDelimiters, quoteMark]
  have hstart : ∀ c t, c = quoteMark ∨ c = '[' ∨ c = '{' → j.dump = c :: t →
      j.opening = some c → ∃ a t, j.dump = a :: t ∧ a ∉ jsonDelimiters ∧
        j.opening = if a = quoteMark ∨ a = '[' ∨ a = '{' then some a else none := by
    intro c t hc ht hj
    exact ⟨c, t, ht, hopen c hc, by rw [hj, if_pos hc]⟩
  cases ho : j.opening with
  | none =>
    obtain ⟨hne, hatom⟩ := Json.jsonAtom_dump ho
    obtain ⟨a, t, ht⟩ := List.exists_cons_of_ne_nil hne
    obtain ⟨hclose, hquote, hlist, hdict⟩ := hatom a (by simp [ht])
    exact ⟨a, t, ht, hclose, 
      by rw [if_neg (not_or.mpr ⟨hquote, not_or.mpr ⟨hlist, hdict⟩⟩)]⟩
  | some c =>
    rw [← ho]
    cases j with
    | text s => exact hstart _ _ (Or.inl rfl) rfl rfl
    | other s => exact hstart _ _ (Or.inl rfl) rfl rfl
    | list n items => exact hstart _ _ (Or.inr (Or.inl rfl)) rfl rfl
    | dict keys values => exact hstart _ _ (Or.inr (Or.inr rfl)) rfl rfl
    | null => cases ho
    | bool b => cases ho
    | int i => cases ho
    | float x => cases ho

/-- Written values that start in the same way open the same. -/
theorem Json.opening_eq {j j' : Json} {r r' : Str} (h : j.dump ++ r = j'.dump ++ r') :
    j.opening = j'.opening := by
  obtain ⟨a, t, ht, -, ho⟩ := j.dump_head
  obtain ⟨a', t', ht', -, ho'⟩ := j'.dump_head
  rw [ht, ht'] at h
  rw [ho, ho', (List.cons.inj h).1]

/-- The members of a dict, as they are written. -/
def dumpedMembers (keys : Finset Str) (values : {k // k ∈ keys} → Json) : List Str :=
  (keys.sort (· ≤ ·)).attach.map fun k =>
    quote k.1 ++ ':' :: (values ⟨k.1, (Finset.mem_sort _).mp k.2⟩).dump

theorem Json.dump_dict (keys : Finset Str) (values : {k // k ∈ keys} → Json) :
    (Json.dict keys values).dump = '{' :: (Str.join ',' (dumpedMembers keys values) ++ ['}']) :=
  rfl

theorem exists_of_mem_dumpedMembers {keys : Finset Str} {values : {k // k ∈ keys} → Json} {x : Str}
    (h : x ∈ dumpedMembers keys values) : ∃ k, x = quote k.1 ++ ':' :: (values k).dump := by
  obtain ⟨k, -, rfl⟩ := List.mem_map.mp h
  exact ⟨⟨k.1, (Finset.mem_sort _).mp k.2⟩, rfl⟩

/-- The texts of members. -/
def memberTexts : Set Str := {x | ∃ (k : Str) (j : Json), x = quote k ++ ':' :: j.dump}

private theorem delimiters_mem :
    ',' ∈ jsonDelimiters ∧ ']' ∈ jsonDelimiters ∧ '}' ∈ jsonDelimiters := by
  simp [jsonDelimiters]

theorem Json.exists_quote {j : Json} (h : j.opening = some quoteMark) : ∃ s, j.dump = quote s := by
  cases j with
  | text s => exact ⟨s, rfl⟩
  | other s => exact ⟨s, rfl⟩
  | list n items => exact absurd (Option.some.inj h) (by decide)
  | dict keys values => exact absurd (Option.some.inj h) (by decide)
  | null => cases h
  | bool b => cases h
  | int i => cases h
  | float x => cases h

theorem Json.exists_list {j : Json} (h : j.opening = some '[') : ∃ n items, j = .list n items := by
  cases j with
  | list n items => exact ⟨n, items, rfl⟩
  | text s => exact absurd (Option.some.inj h) (by decide)
  | other s => exact absurd (Option.some.inj h) (by decide)
  | dict keys values => exact absurd (Option.some.inj h) (by decide)
  | null => cases h
  | bool b => cases h
  | int i => cases h
  | float x => cases h

theorem Json.exists_dict {j : Json} (h : j.opening = some '{') :
    ∃ keys values, j = .dict keys values := by
  cases j with
  | dict keys values => exact ⟨keys, values, rfl⟩
  | text s => exact absurd (Option.some.inj h) (by decide)
  | other s => exact absurd (Option.some.inj h) (by decide)
  | list n items => exact absurd (Option.some.inj h) (by decide)
  | null => cases h
  | bool b => cases h
  | int i => cases h
  | float x => cases h

/-- A member is read off when its value is. -/
theorem member_splits (k : Str) {j : Json}
    (hj : Splits jsonDelimiters (Set.range Json.dump) j.dump) :
    Splits jsonDelimiters memberTexts (quote k ++ ':' :: j.dump) := by
  rintro _ ⟨k', j', rfl⟩ r r' hr hr' h
  simp only [List.append_assoc, List.cons_append] at h
  obtain ⟨hk, htail⟩ := quote_append_inj h
  obtain ⟨hvalue, hrest⟩ := hj _ ⟨j', rfl⟩ r r' hr hr' (List.cons.inj htail).2
  exact ⟨by rw [hk, hvalue], hrest⟩

/-- The items of a list are read off when each is. -/
theorem items_append_inj {n m : ℕ} {items : Fin n → Json} {items' : Fin m → Json} {r r' : Str}
    (hitems : ∀ i, Splits jsonDelimiters (Set.range Json.dump) (items i).dump)
    (h : Str.join ',' (List.ofFn fun i => (items i).dump) ++ ']' :: r =
      Str.join ',' (List.ofFn fun i => (items' i).dump) ++ ']' :: r') :
    (List.ofFn fun i => (items i).dump) = (List.ofFn fun i => (items' i).dump) ∧ r = r' := by
  obtain ⟨hcomma, hbracket, -⟩ := delimiters_mem
  have hmem : ∀ x, x ∈ (List.ofFn fun i => (items i).dump) ∨
      x ∈ (List.ofFn fun i => (items' i).dump) → ∃ j : Json, j.dump = x := by
    rintro x (hx | hx) <;> obtain ⟨i, rfl⟩ := List.mem_ofFn.mp hx
    · exact ⟨_, rfl⟩
    · exact ⟨_, rfl⟩
  refine joined_append_inj (by decide) hcomma hbracket (fun x hx => ?_)
    (fun y hy => hmem y (Or.inr hy)) (fun x hx => ?_) h
  · obtain ⟨i, rfl⟩ := List.mem_ofFn.mp hx
    exact hitems i
  · obtain ⟨j, rfl⟩ := hmem x hx
    obtain ⟨a, t, ht, ha, -⟩ := j.dump_head
    exact ⟨a, t, ht, fun hc => ha (hc ▸ hbracket)⟩

/-- The members of a dict are read off when their values are. -/
theorem members_append_inj {keys keys' : Finset Str} {values : {k // k ∈ keys} → Json}
    {values' : {k // k ∈ keys'} → Json} {r r' : Str}
    (hvalues : ∀ k, Splits jsonDelimiters (Set.range Json.dump) (values k).dump)
    (h : Str.join ',' (dumpedMembers keys values) ++ '}' :: r =
      Str.join ',' (dumpedMembers keys' values') ++ '}' :: r') :
    dumpedMembers keys values = dumpedMembers keys' values' ∧ r = r' := by
  obtain ⟨hcomma, -, hbrace⟩ := delimiters_mem
  have hmem : ∀ x, x ∈ dumpedMembers keys values ∨ x ∈ dumpedMembers keys' values' →
      x ∈ memberTexts := by
    rintro x (hx | hx) <;> obtain ⟨k, rfl⟩ := exists_of_mem_dumpedMembers hx
    · exact ⟨_, _, rfl⟩
    · exact ⟨_, _, rfl⟩
  refine joined_append_inj (by decide) hcomma hbrace (fun x hx => ?_)
    (fun y hy => hmem y (Or.inr hy)) (fun x hx => ?_) h
  · obtain ⟨k, rfl⟩ := exists_of_mem_dumpedMembers hx
    exact member_splits k.1 (hvalues k)
  · obtain ⟨k, j, rfl⟩ := hmem x hx
    exact ⟨_, _, rfl, by decide⟩

/-- A written value is read off in one way only. -/
theorem Json.dump_splits (j : Json) : Splits jsonDelimiters (Set.range Json.dump) j.dump := by
  -- Atoms end at the first delimiter, quoted texts at their quote.
  have hatom : ∀ j : Json, j.opening = none →
      Splits jsonDelimiters (Set.range Json.dump) j.dump := by
    rintro j ho _ ⟨j', rfl⟩ r r' hr hr' h
    exact splits_of_notMem (fun c hc => ((Json.jsonAtom_dump ho).2 c hc).1)
      (fun c hc => ((Json.jsonAtom_dump ((Json.opening_eq h).symm.trans ho)).2 c hc).1) hr hr' h
  have hquote : ∀ (j : Json) (s : Str), j.opening = some quoteMark → j.dump = quote s →
      Splits jsonDelimiters (Set.range Json.dump) j.dump := by
    rintro j s ho hs _ ⟨j', rfl⟩ r r' - - h
    obtain ⟨t, ht⟩ := Json.exists_quote ((Json.opening_eq h).symm.trans ho)
    rw [hs, ht] at h ⊢
    exact quote_append_inj h
  induction j with
  | null => exact hatom _ rfl
  | bool b => exact hatom _ rfl
  | int i => exact hatom _ rfl
  | float x => exact hatom _ rfl
  | text s => exact hquote _ s rfl rfl
  | other s => exact hquote _ s rfl rfl
  | list n items ih =>
    rintro _ ⟨j', rfl⟩ r r' - - h
    obtain ⟨m, items', rfl⟩ := Json.exists_list (Json.opening_eq h).symm
    simp only [Json.dump, List.cons_append, List.append_assoc, List.nil_append, List.cons.injEq,
      true_and] at h ⊢
    obtain ⟨hitems, hrest⟩ := items_append_inj ih h
    exact ⟨by rw [hitems], hrest⟩
  | dict keys values ih =>
    rintro _ ⟨j', rfl⟩ r r' - - h
    obtain ⟨keys', values', rfl⟩ := Json.exists_dict (Json.opening_eq h).symm
    simp only [Json.dump_dict, List.cons_append, List.append_assoc, List.nil_append,
      List.cons.injEq, true_and] at h ⊢
    obtain ⟨hmembers, hrest⟩ := members_append_inj ih h
    exact ⟨by rw [hmembers], hrest⟩

/-! ### Equal texts -/

/-- Two texts are written alike exactly when they are equal. -/
theorem Json.dump_text_eq_iff {s t : Str} : (Json.text s).dump = (Json.text t).dump ↔ s = t :=
  quote_injective.eq_iff

/-- Two lists of one length are written alike exactly when all their items are. -/
theorem Json.dump_list_eq_iff {n : ℕ} {items items' : Fin n → Json} :
    (Json.list n items).dump = (Json.list n items').dump ↔
      ∀ i, (items i).dump = (items' i).dump := by
  constructor
  · intro h
    obtain ⟨hitems, -⟩ := items_append_inj (fun i => (items i).dump_splits) (List.cons.inj h).2
    exact fun i => congrFun (List.ofFn_injective hitems) i
  · intro h
    simp only [Json.dump, h]

/-- Two dicts with the same keys are written alike exactly when all their values are. -/
theorem Json.dump_dict_eq_iff {keys : Finset Str} {values values' : {k // k ∈ keys} → Json} :
    (Json.dict keys values).dump = (Json.dict keys values').dump ↔
      ∀ k, (values k).dump = (values' k).dump := by
  constructor
  · intro h k
    rw [Json.dump_dict, Json.dump_dict] at h
    obtain ⟨hmembers, -⟩ := members_append_inj (fun k => (values k).dump_splits)
      (List.cons.inj h).2
    have hk := List.map_inj_left.mp hmembers ⟨k.1, (Finset.mem_sort _).mpr k.2⟩
      (List.mem_attach _ _)
    exact (List.cons.inj (List.append_cancel_left hk)).2
  · intro h
    simp only [Json.dump, h]

end Vat
