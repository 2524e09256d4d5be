import Mathlib.Data.Nat.Notation
import Vat.Keyed.Dictionary
import Vat.Python.Json
import Vat.Transition.Guarded

/-!
# Values that `json.loads` gives

What Python does with a value whose type is known only when it runs: truth, members, the first item,
iteration, `str` and the methods of a text, with the errors that they raise. Of a float its `repr`
and its integer part are read.

Source: `backend/app/parsers`; `vat-local-scanner/vat_scanner`.

## Main definitions

* `Loaded`, `PyError`.
* `Loaded.truthy`, `Loaded.member`, `Loaded.get`, `Loaded.first`, `Loaded.iterate`, `Loaded.asText`.
* `HashKey`: the keys that a `dict` tells apart.
* `readIf`: a value that is read if a condition holds, else an `AttributeError`.
-/

namespace Vat

open Transition

/-! ### Values and errors -/

/-- The integer part of a float, and whether there is nothing else. -/
inductive FloatSize
  | nan
  | infinite
  | finite (whole : ℤ) (exact : Bool)
  deriving DecidableEq

/-- What is read of a float. -/
structure PyFloat where
  /-- `repr(x)`. -/
  repr : Str
  size : FloatSize
  deriving DecidableEq

/-- A value that `json.loads` gives. -/
inductive Loaded
  | null
  | bool (b : Bool)
  | int (i : ℤ)
  | float (x : PyFloat)
  | text (s : Str)
  | list (items : List Loaded)
  | dict (members : List (Str × Loaded))

/-- The errors that the sources raise. -/
inductive PyError
  | attributeError
  | keyError
  | indexError
  | typeError
  | valueError
  | overflowError
  deriving DecidableEq

/-- `str` of a list or a dict. -/
class ReprText where
  repr : Loaded → Str

/-- No text for lists and dicts. -/
@[reducible] def noRepr : ReprText where
  repr _ := []

namespace Loaded

/-- A text literal. -/
def ofString (s : String) : Loaded := .text (str s)

/-- `isinstance(v, dict)`. -/
def isDict : Loaded → Bool
  | .dict _ => true
  | _ => false

/-- `isinstance(v, list)`. -/
def isList : Loaded → Bool
  | .list _ => true
  | _ => false

/-- `isinstance(v, str)`. -/
def isText : Loaded → Bool
  | .text _ => true
  | _ => false

/-- `bool(v)`. -/
def truthy : Loaded → Bool
  | .null => false
  | .bool b => b
  | .int i => i != 0
  | .float x => x.size != .finite 0 true
  | .text s => s != []
  | .list items => !items.isEmpty
  | .dict members => !members.isEmpty

/-- `a or b` when `b` can be computed without an error. -/
def or (a b : Loaded) : Loaded := if a.truthy then a else b

/-- The text that a value is. -/
def textOf : Loaded → Str
  | .text s => s
  | _ => []

/-- `str(v)`. -/
def pyStr [ReprText] : Loaded → Str
  | .null => str "None"
  | .bool b => if b then str "True" else str "False"
  | .int i => intText i
  | .float x => x.repr
  | .text s => s
  | .list items => ReprText.repr (.list items)
  | .dict members => ReprText.repr (.dict members)

/-! ### Members -/

/-- The member of a dict with a name. -/
def find? (v : Loaded) (k : String) : Option Loaded :=
  match v with
  | .dict members => members.lookup (str k)
  | _ => none

/-- The member with a name, or else a default. -/
def memberOr (v : Loaded) (k : String) (default : Loaded) : Loaded := (v.find? k).getD default

/-- The member with a name, or else `None`. -/
def member (v : Loaded) (k : String) : Loaded := v.memberOr k .null

/-- `v.get(k, default)`. -/
def getOr (v : Loaded) (k : String) (default : Loaded) : Except PyError Loaded := do
  check v.isDict .attributeError
  return v.memberOr k default

/-- `v.get(k)`. -/
def get (v : Loaded) (k : String) : Except PyError Loaded := v.getOr k .null

/-! ### Items -/

/-- The items that are iterated over, of a value that has some. -/
def items : Loaded → List Loaded
  | .text s => s.map fun c => .text [c]
  | .list items => items
  | .dict members => members.map fun p => .text p.1
  | _ => []

/-- `v` can be iterated over. -/
def iterable : Loaded → Bool
  | .text _ | .list _ | .dict _ => true
  | _ => false

/-- `for x in v`. -/
def iterate (v : Loaded) : Except PyError (List Loaded) := do
  check v.iterable .typeError
  return v.items

/-- The first item of a list or a text. -/
def head (v : Loaded) : Loaded := v.items.headD .null

/-- `v[0]`: a dict has no such key. -/
def first (v : Loaded) : Except PyError Loaded := do
  check v.iterable .typeError
  check (!v.isDict) .keyError
  check (!v.items.isEmpty) .indexError
  return v.head

/-- `v[0] if v else default`. -/
def firstOr (v default : Loaded) : Except PyError Loaded :=
  if v.truthy then v.first else .ok default

/-- `sep.join(items)`. -/
def joinTexts (sep : Str) (items : List Loaded) : Except PyError Str := do
  check (items.all isText) .typeError
  return sep.intercalate (items.map textOf)

/-! ### Methods of a text -/

/-- The text whose method is called. -/
def asText (v : Loaded) : Except PyError Str := do
  check v.isText .attributeError
  return v.textOf

/-! ### The first item -/

/-- A value has a first item: it is a list or a text that is not empty. -/
def hasFirst (v : Loaded) : Bool := v.iterable && !v.isDict

theorem items_ne_nil {v : Loaded} (htruthy : v.truthy) (hiterable : v.iterable) :
    v.items ≠ [] := by
  cases v with
  | text s => simpa [items, truthy] using htruthy
  | list items => simpa [Loaded.items, truthy] using htruthy
  | dict members => simpa [items, truthy] using htruthy
  | null | bool | int | float => cases hiterable

section First

variable {handled : PyError → Prop} {α : Type} {f : Loaded → Except PyError α} {v : Loaded}

theorem guarded_first_bind (hkey : handled .keyError) (htype : handled .typeError)
    (h : v.truthy) :
    Guarded handled (v.first >>= f) ↔ (v.hasFirst → Guarded handled (f v.head)) := by
  rw [first, bind_assoc, guarded_check_bind htype, hasFirst, Bool.and_eq_true, and_imp]
  refine imp_congr_right fun hiterable => ?_
  rw [bind_assoc, guarded_check_bind hkey]
  refine imp_congr_right fun _ => ?_
  have hitems : (!v.items.isEmpty) = true := by simpa using items_ne_nil h hiterable
  rw [check_of_pos hitems]
  rfl

/-- The first item, if there is one, or else the default. -/
def headOr (v default : Loaded) : Loaded := if v.truthy then v.head else default

theorem guarded_firstOr_bind (hkey : handled .keyError) (htype : handled .typeError)
    {default : Loaded} :
    Guarded handled (v.firstOr default >>= f) ↔
      ((v.truthy → v.hasFirst) → Guarded handled (f (v.headOr default))) := by
  rw [firstOr, headOr]
  by_cases h : v.truthy = true
  · rw [if_pos h, if_pos h, guarded_first_bind hkey htype h]
    exact imp_congr_left ⟨fun hfirst _ => hfirst, fun hfirst => hfirst h⟩
  · rw [if_neg h, if_neg h, ok_bind]
    exact ⟨fun hf _ => hf, fun hf => hf fun hyes => absurd hyes h⟩

end First

/-! ### Objects with a member set apart -/

theorem memberOr_cons_self (k : String) (v : Loaded) (members : List (Str × Loaded))
    (default : Loaded) : (dict ((str k, v) :: members)).memberOr k default = v := by
  rw [memberOr, find?, List.lookup_cons_self, Option.getD_some]

theorem memberOr_cons_of_ne {k : Str} {k' : String} (h : str k' ≠ k) (v : Loaded)
    (members : List (Str × Loaded)) (default : Loaded) :
    (dict ((k, v) :: members)).memberOr k' default = (dict members).memberOr k' default := by
  rw [memberOr, memberOr, find?, find?, List.lookup_cons, beq_eq_false_iff_ne.mpr h]

theorem list_or_nil (l : List Loaded) : (list l).or (list []) = list l := by
  cases l with
  | nil => rfl
  | cons a l => rfl

end Loaded

/-! ### Keys -/

/-- A key of a `dict`: equal numbers are one key, and so are `True` and `1`. -/
inductive HashKey
  | null
  | number (i : ℤ)
  | fraction (repr : Str)
  | text (s : Str)
  deriving DecidableEq

/-- The key that a value is; a list or a dict is none. -/
def Loaded.hashKey? : Loaded → Option HashKey
  | .null => some .null
  | .bool b => some (.number (if b then 1 else 0))
  | .int i => some (.number i)
  | .float ⟨_, .finite whole true⟩ => some (.number whole)
  | .float x => some (.fraction x.repr)
  | .text s => some (.text s)
  | .list _ | .dict _ => none

/-- A value used as a key. -/
def Loaded.hashKey (v : Loaded) : Except PyError HashKey := do
  check v.hashKey?.isSome .typeError
  return v.hashKey?.getD .null

/-! ### Reading -/

/-- A value that is read without an error if a condition holds. -/
def readIf (p : Prop) [Decidable p] {α : Type} (a : α) : Except PyError α := do
  check p .attributeError
  return a

section Reading

variable {p q : Prop} [Decidable p] [Decidable q] {α β : Type} {handled : PyError → Prop}

theorem readIf_of_pos (h : p) (a : α) : readIf p a = .ok a := by
  rw [readIf, check_of_pos h]
  rfl

theorem readIf_of_neg (h : ¬ p) (a : α) : readIf p a = .error .attributeError := by
  rw [readIf, check_of_neg h]
  rfl

theorem readIf_congr (h : p ↔ q) (a : α) : readIf p a = readIf q a := by
  by_cases hp : p
  · rw [readIf_of_pos hp, readIf_of_pos (h.mp hp)]
  · rw [readIf_of_neg hp, readIf_of_neg fun hq => hp (h.mpr hq)]

theorem pure_eq_readIf (a : α) : (pure a : Except PyError α) = readIf True a := rfl

/-- A value read after a value that is read. -/
theorem readIf_bind_readIf {q : α → Prop} [∀ a, Decidable (q a)] (a : α) (b : α → β) :
    (readIf p a >>= fun a => readIf (q a) (b a)) = readIf (p ∧ q a) (b a) := by
  by_cases hp : p
  · rw [readIf_of_pos hp, ok_bind]
    exact readIf_congr (by rw [and_iff_right hp]) _
  · rw [readIf_of_neg hp, readIf_of_neg fun h => hp h.1]
    rfl

/-- One of two values that are read. -/
theorem ite_readIf {c : Prop} [Decidable c] (a b : α) :
    (if c then readIf p a else readIf q b) =
      readIf ((c → p) ∧ (¬ c → q)) (if c then a else b) := by
  by_cases hc : c
  · rw [if_pos hc, if_pos hc]
    exact readIf_congr (by simp [hc]) a
  · rw [if_neg hc, if_neg hc]
    exact readIf_congr (by simp [hc]) b

theorem Loaded.getOr_eq (v : Loaded) (k : String) (default : Loaded) :
    v.getOr k default = readIf v.isDict (v.memberOr k default) := rfl

theorem Loaded.get_eq (v : Loaded) (k : String) : v.get k = readIf v.isDict (v.member k) := rfl

theorem Loaded.asText_eq (v : Loaded) : v.asText = readIf v.isText v.textOf := rfl

theorem Loaded.asText_eq_ok_iff {v : Loaded} {s : Str} : v.asText = .ok s ↔ v = .text s := by
  rw [Loaded.asText, bind_eq_ok_iff]
  constructor
  · rintro ⟨u, hu, hs⟩
    have htext : v.isText = true := check_eq_ok_iff.mp hu
    cases v with
    | text t => exact congrArg _ (Except.ok.inj hs)
    | null | bool | int | float | list | dict => cases htext
  · rintro rfl
    exact ⟨(), rfl, rfl⟩

theorem guarded_readIf_bind (ha : ¬ handled .attributeError) {a : α} {f : α → Except PyError β} :
    Guarded handled (readIf p a >>= f) ↔ p ∧ Guarded handled (f a) := by
  rw [readIf, bind_assoc, guarded_check_bind_of_not ha]
  rfl

end Reading

end Vat
