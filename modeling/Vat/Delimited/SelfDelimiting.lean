import Mathlib.Data.Set.Basic
import Vat.Delimited.Fields

/-!
# Self-delimiting texts

A family of texts is self-delimiting when a text of the family that is followed by a delimiter can
be read off in one way only. Texts without delimiters are (`splits_of_notMem`), quoted texts are
(`quoted_append_inj`), and so are bracketed lists of such texts (`joined_append_inj`).

A prefix code gives every symbol a word. A reader finds the symbol that a text of words starts with,
whatever comes after it. At a place where it finds none, a lenient reader skips a piece, puts a mark
in its place and goes on.

## Main definitions

* `Stops`: a remainder that is empty or starts with a delimiter.
* `Splits`: a text that is read off in one way only.
* `Escaped`: the inside of a quoted text.
* `PrefixCode`, `PrefixCode.encode`.
* `PrefixCode.decode`: the lenient reader.

## Main results

* `PrefixCode.decode_encode`: what was encoded is read back.
* `PrefixCode.encode_decode_eq_iff`: the texts that survive being read and encoded again.
-/

namespace Delimited

variable {α : Type*} {D : Set α} {L : Set (List α)}

/-- A remainder that is empty or starts with a delimiter. -/
def Stops (D : Set α) (r : List α) : Prop := ∀ a ∈ r.head?, a ∈ D

@[simp] theorem stops_nil : Stops D [] := fun _ h => absurd h (by simp)

theorem stops_cons {a : α} {r : List α} : Stops D (a :: r) ↔ a ∈ D := by simp [Stops]

/-- A text that is read off before a delimiter in one way only, among the texts of a family. -/
def Splits (D : Set α) (L : Set (List α)) (x : List α) : Prop :=
  ∀ y ∈ L, ∀ r r', Stops D r → Stops D r' → x ++ r = y ++ r' → x = y ∧ r = r'

/-- Texts without delimiters are read off up to the first delimiter. -/
theorem splits_of_notMem {x y r r' : List α} (hx : ∀ a ∈ x, a ∉ D) (hy : ∀ a ∈ y, a ∉ D)
    (hr : Stops D r) (hr' : Stops D r') (h : x ++ r = y ++ r') : x = y ∧ r = r' := by
  induction x generalizing y with
  | nil =>
    cases y with
    | nil => exact ⟨rfl, h⟩
    | cons b y =>
      rw [List.nil_append] at h
      rw [h, List.cons_append, stops_cons] at hr
      exact absurd hr (hy b List.mem_cons_self)
  | cons a x ih =>
    cases y with
    | nil =>
      rw [List.nil_append] at h
      rw [← h, List.cons_append, stops_cons] at hr'
      exact absurd hr' (hx a List.mem_cons_self)
    | cons b y =>
      rw [List.cons_append, List.cons_append, List.cons.injEq] at h
      obtain ⟨rfl, htail⟩ := h
      obtain ⟨rfl, hrest⟩ := ih (fun c hc => hx c (List.mem_cons_of_mem _ hc))
        (fun c hc => hy c (List.mem_cons_of_mem _ hc)) htail
      exact ⟨rfl, hrest⟩

/-! ### Lists -/

/-- Elements after a separator each, up to the closing delimiter. -/
theorem flatMap_append_inj {sep close : α} (hne : sep ≠ close) (hsep : sep ∈ D) (hclose : close ∈ D)
    {xs ys : List (List α)} {r r' : List α} (hxs : ∀ x ∈ xs, Splits D L x) (hys : ∀ y ∈ ys, y ∈ L)
    (h : xs.flatMap (sep :: ·) ++ close :: r = ys.flatMap (sep :: ·) ++ close :: r') :
    xs = ys ∧ r = r' := by
  have hstop : ∀ (zs : List (List α)) (t : List α),
      Stops D (zs.flatMap (sep :: ·) ++ close :: t) := by
    intro zs t
    cases zs with
    | nil => exact stops_cons.mpr hclose
    | cons z zs => exact stops_cons.mpr hsep
  induction xs generalizing ys with
  | nil =>
    cases ys with
    | nil => exact ⟨rfl, (List.cons.inj h).2⟩
    | cons y ys => exact absurd (List.cons.inj h).1.symm hne
  | cons x xs ih =>
    cases ys with
    | nil => exact absurd (List.cons.inj h).1 hne
    | cons y ys =>
      simp only [List.flatMap_cons, List.cons_append, List.append_assoc, List.cons.injEq,
        true_and] at h
      obtain ⟨rfl, htail⟩ := hxs x List.mem_cons_self y (hys y List.mem_cons_self) _ _
        (hstop xs r) (hstop ys r') h
      obtain ⟨rfl, hr⟩ := ih (fun z hz => hxs z (List.mem_cons_of_mem _ hz))
        (fun z hz => hys z (List.mem_cons_of_mem _ hz)) htail
      exact ⟨rfl, hr⟩

/-- Joined elements, none of which is blank or starts with the closing delimiter. -/
theorem joined_append_inj {sep close : α} (hne : sep ≠ close) (hsep : sep ∈ D) (hclose : close ∈ D)
    {xs ys : List (List α)} {r r' : List α} (hxs : ∀ x ∈ xs, Splits D L x) (hys : ∀ y ∈ ys, y ∈ L)
    (hstart : ∀ x, x ∈ xs ∨ x ∈ ys → ∃ a t, x = a :: t ∧ a ≠ close)
    (h : [sep].intercalate xs ++ close :: r = [sep].intercalate ys ++ close :: r') :
    xs = ys ∧ r = r' := by
  -- An element at the front of one list is not the closing delimiter of the other.
  have hclosed : ∀ x, x ∈ xs ∨ x ∈ ys → ∀ t s : List α, x ++ t ≠ close :: s := by
    intro x hx t s heq
    obtain ⟨a, x, rfl, ha⟩ := hstart x hx
    exact ha (List.cons.inj heq).1
  cases xs with
  | nil =>
    cases ys with
    | nil => exact ⟨rfl, (List.cons.inj h).2⟩
    | cons y ys =>
      rw [intercalate_cons, List.append_assoc] at h
      exact absurd h.symm (hclosed y (Or.inr List.mem_cons_self) _ _)
  | cons x xs =>
    cases ys with
    | nil =>
      rw [intercalate_cons, List.append_assoc] at h
      exact absurd h (hclosed x (Or.inl List.mem_cons_self) _ _)
    | cons y ys =>
      have hfront : (x :: xs).flatMap (sep :: ·) ++ close :: r =
          (y :: ys).flatMap (sep :: ·) ++ close :: r' := by
        rw [intercalate_cons, intercalate_cons] at h
        rw [List.flatMap_cons, List.flatMap_cons, List.cons_append, List.cons_append,
          List.cons_append, List.cons_append, h]
      exact flatMap_append_inj hne hsep hclose hxs hys hfront

/-! ### Quoted texts -/

/-- The inside of a quoted text: other characters, and escapes of one character. -/
inductive Escaped (quote escape : α) : List α → Prop
  | nil : Escaped quote escape []
  | plain {c : α} {t : List α} : c ≠ quote → c ≠ escape → Escaped quote escape t →
      Escaped quote escape (c :: t)
  | escape {c : α} {t : List α} : Escaped quote escape t → Escaped quote escape (escape :: c :: t)

variable {quote escape : α}

theorem Escaped.append {x y : List α} (hx : Escaped quote escape x) (hy : Escaped quote escape y) :
    Escaped quote escape (x ++ y) := by
  induction hx with
  | nil => exact hy
  | plain hq he _ ih => exact .plain hq he ih
  | escape _ ih => exact .escape ih

/-- A quoted text is read off up to the first quote that is not escaped. -/
theorem quoted_append_inj (hne : escape ≠ quote) {x y r r' : List α} (hx : Escaped quote escape x)
    (hy : Escaped quote escape y) (h : x ++ quote :: r = y ++ quote :: r') : x = y ∧ r = r' := by
  induction hx generalizing y with
  | nil =>
    cases hy with
    | nil => exact ⟨rfl, (List.cons.inj h).2⟩
    | plain hq _ _ => exact absurd (List.cons.inj h).1.symm hq
    | escape _ => exact absurd (List.cons.inj h).1.symm hne
  | plain hq he _ ih =>
    cases hy with
    | nil => exact absurd (List.cons.inj h).1 hq
    | plain _ _ hy =>
      obtain ⟨rfl, htail⟩ := List.cons.inj h
      obtain ⟨rfl, hr⟩ := ih hy htail
      exact ⟨rfl, hr⟩
    | escape _ => exact absurd (List.cons.inj h).1 he
  | escape _ ih =>
    cases hy with
    | nil => exact absurd (List.cons.inj h).1 hne
    | plain _ he _ => exact absurd (List.cons.inj h).1.symm he
    | escape hy =>
      obtain ⟨rfl, htail⟩ := List.cons.inj (List.cons.inj h).2
      obtain ⟨rfl, hr⟩ := ih hy htail
      exact ⟨rfl, hr⟩

end Delimited

namespace Delimited

/-! ### Prefix codes -/

/-- Words that can be told apart where they start. -/
structure PrefixCode (α β : Type*) where
  word : α → List β
  read : List β → Option α
  word_ne_nil : ∀ a, word a ≠ []
  read_word_append : ∀ a rest, read (word a ++ rest) = some a

namespace PrefixCode

variable {α β : Type*} (C : PrefixCode α β)

/-- The words of a sequence of symbols. -/
def encode (s : List α) : List β := s.flatMap C.word

/-- Reads a text of words, with a mark for every piece that starts no word. -/
def decode (skip : List β → ℕ) (mark : α) : List β → List α
  | [] => []
  | b :: l =>
    match C.read (b :: l) with
    | some a => a :: decode skip mark (l.drop ((C.word a).length - 1))
    | none => mark :: decode skip mark (l.drop (skip (b :: l) - 1))
termination_by l => l.length
decreasing_by all_goals exact Nat.lt_succ_of_le (List.drop_sublist _ l).length_le

variable {C} (skip : List β → ℕ) (mark : α)

theorem encode_cons (a : α) (s : List α) : C.encode (a :: s) = C.word a ++ C.encode s :=
  List.flatMap_cons

theorem decode_word_append (a : α) (rest : List β) :
    C.decode skip mark (C.word a ++ rest) = a :: C.decode skip mark rest := by
  obtain ⟨b, l, hword⟩ := List.exists_cons_of_ne_nil (C.word_ne_nil a)
  have hread := C.read_word_append a rest
  rw [hword, List.cons_append] at hread ⊢
  rw [decode, hread]
  have hdrop : (l ++ rest).drop ((C.word a).length - 1) = rest := by
    rw [hword, List.length_cons, Nat.add_sub_cancel, List.drop_left]
  exact congrArg (a :: C.decode skip mark ·) hdrop

/-- What was encoded is read back, whatever comes after it. -/
theorem decode_encode_append (s : List α) (rest : List β) :
    C.decode skip mark (C.encode s ++ rest) = s ++ C.decode skip mark rest := by
  induction s with
  | nil => rfl
  | cons a s ih => rw [encode_cons, List.append_assoc, decode_word_append, ih, List.cons_append]

/-- What was encoded is read back. -/
theorem decode_encode (s : List α) : C.decode skip mark (C.encode s) = s := by
  have h := C.decode_encode_append skip mark s []
  rwa [List.append_nil, decode, List.append_nil] at h

/-- Not more symbols are read than there are letters. -/
theorem length_decode_le (l : List β) : (C.decode skip mark l).length ≤ l.length := by
  fun_induction decode C skip mark l with
  | case1 => exact le_rfl
  | case2 b l a _ ih =>
    exact Nat.succ_le_succ (ih.trans (List.drop_sublist _ l).length_le)
  | case3 b l _ ih =>
    exact Nat.succ_le_succ (ih.trans (List.drop_sublist _ l).length_le)

/-- The texts that survive being read and encoded again are those of words. -/
theorem encode_decode_eq_iff {l : List β} :
    C.encode (C.decode skip mark l) = l ↔ l ∈ Set.range C.encode := by
  constructor
  · intro h
    exact ⟨_, h⟩
  · rintro ⟨s, rfl⟩
    rw [decode_encode]

end PrefixCode

end Delimited
