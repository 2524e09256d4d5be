import Mathlib.Data.List.Forall2
import Mathlib.Data.List.TakeWhile
import Mathlib.Logic.Function.Basic

/-!
# Expressions with groups, matched by backtracking

An expression reads a text from its start and may do so in several ways. A matcher that backtracks
tries them in a fixed order: the left alternative before the right one, a greedy repetition from the
longest run down, a lazy one from the shortest run up. `Regex.run` is the list of all ways in that
order, so that what the matcher finds is the head of the list, and what it can find at all is
membership in it.

Repetitions are of single symbols, as in the expressions that split lines into fields.

## Main definitions

* `Regex`, `Regex.run`: expressions and the ways to match at the start of a text.
* `Regex.search`: the groups of the leftmost match.
* `Regex.finditer`: the matches from left to right that do not overlap.
* `Regex.breakAt`: a text broken at the first place to stop.

## Main results

* `Regex.mem_run_many`, `Regex.mem_run_literal`: what a repetition and a literal read.
* `Regex.groups_of_mem_run`: the groups that an expression does not name stay as they are.
* `Regex.search_of_mem`: where a text can be matched at its start, a search finds a match there.
* `Regex.matchesAfter_append`: a text in which no match starts is passed over.
* `Regex.head?_run_lazy`: how far a lazy repetition reads.
* `Regex.exists_matchesAfter_append`: a text whose matches stay inside it hides no later match.
-/

namespace Vat

variable {α ι : Type*}

/-- An expression over the symbols `α` with groups named by `ι`. -/
inductive Regex (α ι : Type*)
  | empty
  | one (p : α → Bool)
  | seq (a b : Regex α ι)
  | alt (a b : Regex α ι)
  | many (greedy : Bool) (p : α → Bool)
  | group (i : ι) (a : Regex α ι)
  | ahead (a : Regex α ι)
  | atEnd

namespace Regex

/-- What the groups have read. -/
abbrev Groups (α ι : Type*) := ι → Option (List α)

/-- What can be left after a run of symbols of a class. -/
def manyRests (greedy : Bool) (p : α → Bool) : List α → List (List α)
  | [] => [[]]
  | c :: s =>
    if p c then
      if greedy then manyRests greedy p s ++ [c :: s] else (c :: s) :: manyRests greedy p s
    else [c :: s]

/-- The part of `s` before its end `t`. -/
def consumed (s t : List α) : List α := s.take (s.length - t.length)

/-- The ways to match at the start of a text: the groups and the text that is left. -/
def run [DecidableEq ι] : Regex α ι → Groups α ι → List α → List (Groups α ι × List α)
  | .empty, g, s => [(g, s)]
  | .one _, _, [] => []
  | .one p, g, c :: s => if p c then [(g, s)] else []
  | .seq a b, g, s => (run a g s).flatMap fun m => run b m.1 m.2
  | .alt a b, g, s => run a g s ++ run b g s
  | .many greedy p, g, s => (manyRests greedy p s).map (g, ·)
  | .group i a, g, s =>
    (run a g s).map fun m => (Function.update m.1 i (some (consumed s m.2)), m.2)
  | .ahead a, g, s => ((run a g s).head?.map fun m => (m.1, s)).toList
  | .atEnd, g, s => if s.isEmpty then [(g, s)] else []

/-- The first way to match at the start of a text, with all groups unset before. -/
def matchStart [DecidableEq ι] (r : Regex α ι) (s : List α) : Option (Groups α ι × List α) :=
  (run r (fun _ => none) s).head?

/-- The groups of the leftmost match. -/
def search [DecidableEq ι] (r : Regex α ι) : List α → Option (Groups α ι)
  | [] => (matchStart r []).map Prod.fst
  | c :: s => ((matchStart r (c :: s)).map Prod.fst).or (search r s)

/-- The matches in a text whose first `skip` symbols an earlier match has read, each with what it
reads and the text from its start on. An expression that matches nothing would read no symbol. -/
def matchesAfter [DecidableEq ι] (r : Regex α ι) : ℕ → List α → List (List α × List α)
  | _, [] => []
  | skip + 1, _ :: s => matchesAfter r skip s
  | 0, c :: s =>
    match matchStart r (c :: s) with
    | none => matchesAfter r 0 s
    | some m =>
      (consumed (c :: s) m.2, c :: s) :: matchesAfter r (s.length - m.2.length) s

/-- The matches from left to right that do not overlap. -/
def finditer [DecidableEq ι] (r : Regex α ι) (s : List α) : List (List α × List α) :=
  matchesAfter r 0 s

/-- Expressions one after another. -/
def all : List (Regex α ι) → Regex α ι
  | [] => .empty
  | a :: as => .seq a (all as)

/-- A literal text under a relation between its symbols and those of the text. -/
def literal (same : α → α → Bool) (w : List α) : Regex α ι := all (w.map fun c => .one (same c))

/-- One symbol of a class or more. -/
def plus (greedy : Bool) (p : α → Bool) : Regex α ι := .seq (.one p) (.many greedy p)

/-- An expression or nothing. -/
def opt (a : Regex α ι) : Regex α ι := .alt a .empty

/-- The groups that an expression can set. -/
def names : Regex α ι → List ι
  | .empty | .one _ | .many _ _ | .atEnd => []
  | .seq a b | .alt a b => names a ++ names b
  | .group i a => i :: names a
  | .ahead a => names a

@[simp]
theorem names_all (l : List (Regex α ι)) : (all l).names = l.flatMap names := by
  induction l with
  | nil => rfl
  | cons a l ih => rw [all, names, ih, List.flatMap_cons]

@[simp]
theorem names_literal (same : α → α → Bool) (w : List α) :
    (literal same w : Regex α ι).names = [] := by
  rw [literal, names_all, List.flatMap_eq_nil_iff]
  intro a ha
  obtain ⟨c, -, rfl⟩ := List.mem_map.mp ha
  rfl

/-! ### What the ways to match are -/

section Run

variable [DecidableEq ι] {g g' : Groups α ι} {s t u v : List α}

@[simp]
theorem consumed_append (u t : List α) : consumed (u ++ t) t = u := by
  simp [consumed]

@[simp]
theorem run_empty : run (.empty : Regex α ι) g s = [(g, s)] := rfl

@[simp]
theorem run_one_cons {p : α → Bool} {c : α} :
    run (.one p : Regex α ι) g (c :: s) = if p c then [(g, s)] else [] := rfl

@[simp]
theorem run_one_nil {p : α → Bool} : run (.one p : Regex α ι) g [] = [] := rfl

theorem run_seq {a b : Regex α ι} :
    run (.seq a b) g s = (run a g s).flatMap fun m => run b m.1 m.2 := rfl

theorem run_alt {a b : Regex α ι} : run (.alt a b) g s = run a g s ++ run b g s := rfl

theorem run_many {greedy : Bool} {p : α → Bool} :
    run (.many greedy p : Regex α ι) g s = (manyRests greedy p s).map (g, ·) := rfl

theorem run_group {i : ι} {a : Regex α ι} :
    run (.group i a) g s =
      (run a g s).map fun m => (Function.update m.1 i (some (consumed s m.2)), m.2) := rfl

theorem run_ahead {a : Regex α ι} :
    run (.ahead a) g s = ((run a g s).head?.map fun m => (m.1, s)).toList := rfl

theorem run_atEnd : run (.atEnd : Regex α ι) g s = if s.isEmpty then [(g, s)] else [] := rfl

theorem mem_run_seq {a b : Regex α ι} {m : Groups α ι × List α} :
    m ∈ run (.seq a b) g s ↔ ∃ g₁ t₁, (g₁, t₁) ∈ run a g s ∧ m ∈ run b g₁ t₁ := by
  simp only [run_seq, List.mem_flatMap, Prod.exists]

/-- A way through the left of two expressions in a row, continued by the right one. -/
theorem exists_mem_run_seq {a b : Regex α ι} {g₁ : Groups α ι} {t₁ : List α}
    (ha : (g₁, t₁) ∈ run a g s) (hb : ∃ m, m ∈ run b g₁ t₁) : ∃ m, m ∈ run (.seq a b) g s :=
  hb.imp fun _ hm => mem_run_seq.mpr ⟨g₁, t₁, ha, hm⟩

theorem run_alt_seq (a b c : Regex α ι) :
    run (.seq (.alt a b) c) g s = run (.seq a c) g s ++ run (.seq b c) g s := by
  simp only [run_seq, run_alt, List.flatMap_append]

theorem run_empty_seq (c : Regex α ι) : run (.seq .empty c) g s = run c g s := by
  rw [run_seq, run_empty, List.flatMap_singleton]

theorem mem_run_all {a : Regex α ι} {as : List (Regex α ι)} {m : Groups α ι × List α} :
    m ∈ run (all (a :: as)) g s ↔ ∃ g₁ t₁, (g₁, t₁) ∈ run a g s ∧ m ∈ run (all as) g₁ t₁ :=
  mem_run_seq

theorem exists_mem_run_all {a : Regex α ι} {as : List (Regex α ι)} {g₁ : Groups α ι}
    {t₁ : List α} (ha : (g₁, t₁) ∈ run a g s) (hb : ∃ m, m ∈ run (all as) g₁ t₁) :
    ∃ m, m ∈ run (all (a :: as)) g s := exists_mem_run_seq ha hb

theorem mem_run_group {i : ι} {a : Regex α ι} {m : Groups α ι × List α} :
    m ∈ run (.group i a) g s ↔
      ∃ g₁ t₁, (g₁, t₁) ∈ run a g s ∧ (Function.update g₁ i (some (consumed s t₁)), t₁) = m := by
  simp [run_group]

/-- A match leaves the groups alone that the expression does not name. -/
theorem groups_of_mem_run {r : Regex α ι} {i : ι} (hi : i ∉ r.names) (h : (g', t) ∈ run r g s) :
    g' i = g i := by
  induction r generalizing g g' s t with
  | empty =>
    rw [run_empty, List.mem_singleton] at h
    rw [(Prod.mk.inj h).1]
  | one p =>
    cases s with
    | nil => simp at h
    | cons c s =>
      rw [run_one_cons] at h
      split at h
      · rw [(Prod.mk.inj (List.mem_singleton.mp h)).1]
      · simp at h
  | seq a b iha ihb =>
    rw [names, List.mem_append, not_or] at hi
    obtain ⟨g₁, t₁, h₁, h₂⟩ := mem_run_seq.mp h
    rw [ihb hi.2 h₂, iha hi.1 h₁]
  | alt a b iha ihb =>
    rw [names, List.mem_append, not_or] at hi
    rw [run_alt, List.mem_append] at h
    exact h.elim (iha hi.1) (ihb hi.2)
  | many greedy p =>
    rw [run_many] at h
    obtain ⟨t', -, heq⟩ := List.mem_map.mp h
    rw [(Prod.mk.inj heq).1]
  | group j a ih =>
    rw [names, List.mem_cons, not_or] at hi
    obtain ⟨g₁, t₁, h₁, heq⟩ := mem_run_group.mp h
    rw [← (Prod.mk.inj heq).1, Function.update_of_ne hi.1, ih hi.2 h₁]
  | ahead a ih =>
    rw [run_ahead, Option.mem_toList, Option.map_eq_some_iff] at h
    obtain ⟨⟨g₁, t₁⟩, h₁, heq⟩ := h
    rw [← (Prod.mk.inj heq).1]
    exact ih hi (List.mem_of_mem_head? h₁)
  | atEnd =>
    rw [run_atEnd] at h
    split at h
    · rw [(Prod.mk.inj (List.mem_singleton.mp h)).1]
    · simp at h

theorem mem_manyRests {greedy : Bool} {p : α → Bool} :
    t ∈ manyRests greedy p s ↔ ∃ u, (∀ c ∈ u, p c) ∧ s = u ++ t := by
  induction s with
  | nil =>
    rw [manyRests, List.mem_singleton]
    constructor
    · rintro rfl
      exact ⟨[], by simp, rfl⟩
    · rintro ⟨u, -, h⟩
      exact (List.append_eq_nil_iff.mp h.symm).2
  | cons c s ih =>
    have step : (∃ u, (∀ d ∈ u, p d) ∧ c :: s = u ++ t) ↔
        t = c :: s ∨ p c ∧ ∃ u, (∀ d ∈ u, p d) ∧ s = u ++ t := by
      constructor
      · rintro ⟨_ | ⟨d, u⟩, hu, h⟩
        · exact .inl (by simpa using h.symm)
        · obtain ⟨rfl, rfl⟩ := List.cons.inj h
          exact .inr ⟨hu c (by simp), u, fun d hd => hu d (by simp [hd]), rfl⟩
      · rintro (rfl | ⟨hc, u, hu, rfl⟩)
        · exact ⟨[], by simp, rfl⟩
        · exact ⟨c :: u, by simpa [hc] using hu, rfl⟩
    rw [step, ← ih, manyRests]
    by_cases hc : p c
    · cases greedy <;> simp [hc, or_comm]
    · simp [hc]

/-- A repetition reads a run of its class. -/
theorem mem_run_many {greedy : Bool} {p : α → Bool} :
    (g', t) ∈ run (.many greedy p : Regex α ι) g s ↔
      g' = g ∧ ∃ u, (∀ c ∈ u, p c) ∧ s = u ++ t := by
  simp only [run_many, List.mem_map, Prod.mk.injEq, mem_manyRests]
  constructor
  · rintro ⟨t', ht, rfl, rfl⟩
    exact ⟨rfl, ht⟩
  · rintro ⟨rfl, ht⟩
    exact ⟨t, ht, rfl, rfl⟩

theorem mem_run_plus {greedy : Bool} {p : α → Bool} :
    (g', t) ∈ run (plus greedy p : Regex α ι) g s ↔
      g' = g ∧ ∃ u, u ≠ [] ∧ (∀ c ∈ u, p c) ∧ s = u ++ t := by
  rw [plus, mem_run_seq]
  constructor
  · rintro ⟨g₁, t₁, h₁, h₂⟩
    obtain ⟨rfl, u, hu, rfl⟩ := mem_run_many.mp h₂
    cases s with
    | nil => simp at h₁
    | cons c s =>
      rw [run_one_cons] at h₁
      split at h₁
      · next hc =>
        obtain ⟨rfl, rfl⟩ := Prod.mk.inj (List.mem_singleton.mp h₁)
        exact ⟨rfl, c :: u, by simp, by simpa [hc] using hu, rfl⟩
      · simp at h₁
  · rintro ⟨rfl, _ | ⟨c, u⟩, hne, hu, rfl⟩
    · exact absurd rfl hne
    · refine ⟨g', u ++ t, ?_, mem_run_many.mpr ⟨rfl, u, fun d hd => hu d (by simp [hd]), rfl⟩⟩
      simp [hu c (by simp)]

/-- A literal reads a text that agrees with it symbol by symbol. -/
theorem mem_run_literal {same : α → α → Bool} {w : List α} :
    (g', t) ∈ run (literal same w : Regex α ι) g s →
      g' = g ∧ ∃ u, List.Forall₂ (fun c d => same c d) w u ∧ s = u ++ t := by
  induction w generalizing s with
  | nil =>
    intro hm
    obtain ⟨rfl, rfl⟩ : g' = g ∧ t = s := by simpa [literal, all] using hm
    exact ⟨rfl, [], .nil, rfl⟩
  | cons c w ih =>
    intro hm
    obtain ⟨g₁, t₁, h₁, h₂⟩ := mem_run_seq.mp hm
    cases s with
    | nil => simp at h₁
    | cons d s =>
      rw [run_one_cons] at h₁
      split at h₁
      · next hd =>
        obtain ⟨rfl, rfl⟩ := Prod.mk.inj (List.mem_singleton.mp h₁)
        obtain ⟨rfl, u, hu, h⟩ := ih h₂
        exact ⟨rfl, d :: u, .cons hd hu, by rw [h]; rfl⟩
      · simp at h₁

/-- On a text that agrees with it, a literal has one way to match. -/
theorem run_literal_append {same : α → α → Bool} {w u : List α}
    (h : List.Forall₂ (fun c d => same c d) w u) :
    run (literal same w : Regex α ι) g (u ++ t) = [(g, t)] := by
  induction h with
  | nil => rfl
  | cons hc _ ih => simpa [literal, all, run_seq, hc] using ih

/-- The start of a text agrees with a literal. -/
def agrees (same : α → α → Bool) : List α → List α → Bool
  | [], _ => true
  | _ :: _, [] => false
  | c :: w, d :: s => same c d && agrees same w s

theorem agrees_iff_exists {same : α → α → Bool} {w : List α} : agrees same w s ↔
    ∃ u t, List.Forall₂ (fun c d => same c d) w u ∧ s = u ++ t := by
  induction w generalizing s with
  | nil => exact iff_of_true rfl ⟨[], s, .nil, rfl⟩
  | cons c w ih =>
    cases s with
    | nil =>
      refine iff_of_false Bool.false_ne_true ?_
      rintro ⟨u, t, hu, h⟩
      obtain ⟨rfl, -⟩ := List.append_eq_nil_iff.mp h.symm
      cases hu
    | cons d s =>
      rw [agrees, Bool.and_eq_true, ih]
      constructor
      · rintro ⟨hc, u, t, hu, rfl⟩
        exact ⟨d :: u, t, .cons hc hu, rfl⟩
      · rintro ⟨u, t, hu, h⟩
        cases hu with
        | cons hc hu =>
          obtain ⟨rfl, rfl⟩ := List.cons.inj h
          exact ⟨hc, _, t, hu, rfl⟩

/-- A text that cannot go on a literal does not decide whether it is there. -/
theorem agrees_append {same : α → α → Bool} {w : List α}
    (h : ∀ c ∈ w, ∀ d ∈ t.head?, same c d = false) : agrees same w (s ++ t) = agrees same w s := by
  induction w generalizing s with
  | nil => rfl
  | cons c w ih =>
    cases s with
    | nil =>
      cases t with
      | nil => rfl
      | cons d t =>
        rw [List.nil_append, agrees, agrees, h c List.mem_cons_self d rfl, Bool.false_and]
    | cons d s =>
      rw [List.cons_append, agrees, agrees, ih fun c hc => h c (List.mem_cons_of_mem _ hc)]

/-- A literal reads its length or nothing. -/
theorem run_literal {same : α → α → Bool} {w : List α} :
    run (literal same w : Regex α ι) g s =
      if agrees same w s then [(g, s.drop w.length)] else [] := by
  induction w generalizing s with
  | nil => rfl
  | cons c w ih =>
    have hall : (literal same (c :: w) : Regex α ι) = .seq (.one (same c)) (literal same w) := rfl
    rw [hall, run_seq]
    cases s with
    | nil => rfl
    | cons d s =>
      rw [run_one_cons, agrees]
      by_cases hc : same c d
      · rw [if_pos hc, List.flatMap_singleton, ih, hc, Bool.true_and]
        rfl
      · rw [if_neg hc, List.flatMap_nil, Bool.eq_false_iff.mpr hc, Bool.false_and]
        rfl

theorem run_literal_seq {same : α → α → Bool} {w : List α} {b : Regex α ι} :
    run (.seq (literal same w) b) g s =
      if agrees same w s then run b g (s.drop w.length) else [] := by
  rw [run_seq, run_literal]
  split_ifs
  · exact List.flatMap_singleton ..
  · rfl

/-- The first way of two expressions in a row goes through the first way of the left one, if the
right one can go on from there. -/
theorem head?_run_seq {a b : Regex α ι} {m n : Groups α ι × List α}
    (ha : (run a g s).head? = some m) (hb : (run b m.1 m.2).head? = some n) :
    (run (.seq a b) g s).head? = some n := by
  rw [run_seq]
  cases h : run a g s with
  | nil => simp [h] at ha
  | cons m' l =>
    obtain rfl : m' = m := by simpa [h] using ha
    simp [List.head?_append, hb]

/-- A match reads from the start of the text on. -/
theorem suffix_of_mem_run {r : Regex α ι} (h : (g', t) ∈ run r g s) : t <:+ s := by
  induction r generalizing g g' s t with
  | empty =>
    rw [run_empty, List.mem_singleton] at h
    exact (Prod.mk.inj h).2 ▸ List.suffix_rfl
  | one p =>
    cases s with
    | nil => simp at h
    | cons c s =>
      rw [run_one_cons] at h
      split at h
      · rw [(Prod.mk.inj (List.mem_singleton.mp h)).2]
        exact List.suffix_cons c s
      · simp at h
  | seq a b iha ihb =>
    obtain ⟨g₁, t₁, h₁, h₂⟩ := mem_run_seq.mp h
    exact (ihb h₂).trans (iha h₁)
  | alt a b iha ihb =>
    rw [run_alt, List.mem_append] at h
    exact h.elim iha ihb
  | many greedy p =>
    obtain ⟨-, u, -, rfl⟩ := mem_run_many.mp h
    exact List.suffix_append u t
  | group j a ih =>
    obtain ⟨g₁, t₁, h₁, heq⟩ := mem_run_group.mp h
    rw [← (Prod.mk.inj heq).2]
    exact ih h₁
  | ahead a ih =>
    rw [run_ahead, Option.mem_toList, Option.map_eq_some_iff] at h
    obtain ⟨m, -, heq⟩ := h
    exact (Prod.mk.inj heq).2 ▸ List.suffix_rfl
  | atEnd =>
    rw [run_atEnd] at h
    split at h
    · exact (Prod.mk.inj (List.mem_singleton.mp h)).2 ▸ List.suffix_rfl
    · simp at h

theorem mem_run_one {p : α → Bool} :
    (g', t) ∈ run (.one p : Regex α ι) g s ↔ g' = g ∧ ∃ c, p c ∧ s = c :: t := by
  cases s with
  | nil => simp
  | cons c s =>
    rw [run_one_cons]
    constructor
    · intro h
      split at h
      · next hc =>
        obtain ⟨rfl, rfl⟩ := Prod.mk.inj (List.mem_singleton.mp h)
        exact ⟨rfl, c, hc, rfl⟩
      · simp at h
    · rintro ⟨rfl, d, hd, h⟩
      obtain ⟨rfl, rfl⟩ := List.cons.inj h
      simp [hd]

/-- A greedy repetition first tries the longest run. -/
theorem head?_run_many {p : α → Bool} (hu : ∀ c ∈ u, p c) (ht : ∀ c ∈ t.head?, p c = false) :
    (run (.many true p : Regex α ι) g (u ++ t)).head? = some (g, t) := by
  have rests : (manyRests true p (u ++ t)).head? = some t := by
    induction u with
    | nil =>
      cases t with
      | nil => rfl
      | cons c t => simp [manyRests, ht c rfl]
    | cons c u ih =>
      have := ih fun d hd => hu d (by simp [hd])
      simp [manyRests, hu c (by simp), List.head?_append, this]
  simp [run_many, rests]

theorem head?_run_many_dropWhile (p : α → Bool) (g : Groups α ι) (s : List α) :
    (run (.many true p : Regex α ι) g s).head? = some (g, s.dropWhile p) := by
  have hrest : ∀ c ∈ (s.dropWhile p).head?, p c = false := by
    intro c hc
    have hhead := List.head?_dropWhile_not p s
    rw [hc] at hhead
    exact hhead
  have h := head?_run_many (g := g) (u := s.takeWhile p)
    (fun c hc => List.mem_takeWhile_imp hc) hrest
  rwa [List.takeWhile_append_dropWhile] at h

theorem head?_run_plus {p : α → Bool} (hne : u ≠ []) (hu : ∀ c ∈ u, p c)
    (ht : ∀ c ∈ t.head?, p c = false) :
    (run (plus true p : Regex α ι) g (u ++ t)).head? = some (g, t) := by
  cases u with
  | nil => exact absurd rfl hne
  | cons c u =>
    have hc : run (.one p : Regex α ι) g (c :: u ++ t) = [(g, u ++ t)] := by
      simp [hu c (by simp)]
    refine head?_run_seq (m := (g, u ++ t)) (by rw [hc]; rfl) ?_
    exact head?_run_many (fun d hd => hu d (by simp [hd])) ht

end Run

/-! ### Searching -/

section Search

variable [DecidableEq ι] {r : Regex α ι} {s : List α}

/-- A search takes a match at the start of the text. -/
theorem search_of_matchStart {m : Groups α ι × List α} (h : matchStart r s = some m) :
    search r s = some m.1 := by
  cases s with
  | nil => rw [search, h, Option.map_some]
  | cons c s => rw [search, h, Option.map_some, Option.some_or]

/-- If a text can be matched at its start, a search finds one of the ways to match there. -/
theorem search_of_mem {m : Groups α ι × List α} (h : m ∈ run r (fun _ => none) s) :
    ∃ n ∈ run r (fun _ => none) s, search r s = some n.1 := by
  obtain ⟨n, l, hn⟩ := List.exists_cons_of_ne_nil (List.ne_nil_of_mem h)
  refine ⟨n, by simp [hn], search_of_matchStart ?_⟩
  rw [matchStart, hn, List.head?_cons]

/-- If some end of a text can be matched, a search finds a way to match an end of it. -/
theorem search_of_mem_append {u v : List α} {m : Groups α ι × List α}
    (h : m ∈ run r (fun _ => none) v) :
    ∃ w v' n, u ++ v = w ++ v' ∧ n ∈ run r (fun _ => none) v' ∧ search r (u ++ v) = some n.1 := by
  induction u with
  | nil =>
    obtain ⟨n, hn, hsearch⟩ := search_of_mem h
    exact ⟨[], v, n, rfl, hn, hsearch⟩
  | cons c u ih =>
    cases hc : matchStart r (c :: (u ++ v)) with
    | some n =>
      exact ⟨[], c :: (u ++ v), n, rfl, List.mem_of_mem_head? hc, by simp [search, hc]⟩
    | none =>
      obtain ⟨w, v', n, hw, hn, hsearch⟩ := ih
      exact ⟨c :: w, v', n, by simp [hw], hn, by simp [search, hc, hsearch]⟩

/-- A search finds a way to match an end of the text. -/
theorem exists_mem_of_search {g : Groups α ι} (h : search r s = some g) :
    ∃ u v t, s = u ++ v ∧ (g, t) ∈ run r (fun _ => none) v := by
  induction s with
  | nil =>
    obtain ⟨m, hm, rfl⟩ := Option.map_eq_some_iff.mp h
    exact ⟨[], [], m.2, rfl, List.mem_of_mem_head? hm⟩
  | cons c s ih =>
    rw [search, Option.or_eq_some_iff] at h
    rcases h with h | ⟨-, h⟩
    · obtain ⟨m, hm, rfl⟩ := Option.map_eq_some_iff.mp h
      exact ⟨[], c :: s, m.2, rfl, List.mem_of_mem_head? hm⟩
    · obtain ⟨u, v, t, rfl, hm⟩ := ih h
      exact ⟨c :: u, v, t, rfl, hm⟩

theorem mem_of_matchStart {m : Groups α ι × List α} (h : matchStart r s = some m) :
    m ∈ run r (fun _ => none) s := List.mem_of_mem_head? h

theorem matchStart_ne_none : matchStart r s ≠ none ↔ ∃ m, m ∈ run r (fun _ => none) s := by
  rw [matchStart, Ne, List.head?_eq_none_iff, ← Ne, List.ne_nil_iff_exists_cons]
  constructor
  · rintro ⟨m, l, h⟩
    exact ⟨m, by simp [h]⟩
  · rintro ⟨m, hm⟩
    exact List.exists_cons_of_ne_nil (List.ne_nil_of_mem hm)

/-- What `finditer` lists is an end of the text at which a match starts. -/
theorem mem_matchesAfter {skip : ℕ} {x : List α × List α} (h : x ∈ matchesAfter r skip s) :
    x.2 <:+ s ∧ (matchStart r x.2).isSome := by
  induction s generalizing skip with
  | nil => simp [matchesAfter] at h
  | cons c s ih =>
    cases skip with
    | succ skip =>
      have := ih (by simpa [matchesAfter] using h)
      exact ⟨this.1.trans (List.suffix_cons c s), this.2⟩
    | zero =>
      rw [matchesAfter] at h
      split at h
      · have := ih h
        exact ⟨this.1.trans (List.suffix_cons c s), this.2⟩
      · next m hm =>
        rcases List.mem_cons.mp h with rfl | h
        · exact ⟨List.suffix_rfl, by simp [hm]⟩
        · have := ih h
          exact ⟨this.1.trans (List.suffix_cons c s), this.2⟩

theorem matchesAfter_length_append (u s : List α) :
    matchesAfter r u.length (u ++ s) = matchesAfter r 0 s := by
  induction u with
  | nil => rfl
  | cons c u ih => simpa [matchesAfter] using ih

/-- A text in which no match starts is passed over. -/
theorem matchesAfter_append {u : List α}
    (h : ∀ v w, v ≠ [] → u = w ++ v → matchStart r (v ++ s) = none) :
    matchesAfter r 0 (u ++ s) = matchesAfter r 0 s := by
  induction u with
  | nil => rfl
  | cons c u ih =>
    have first : matchStart r (c :: (u ++ s)) = none := h (c :: u) [] (by simp) rfl
    rw [List.cons_append, matchesAfter, first]
    exact ih fun v w hv hw => h v (c :: w) hv (by simp [hw])

/-- A match at the start of a text is listed first, then the matches after it. -/
theorem matchesAfter_of_matchStart {g : Groups α ι} {u t : List α} (hu : u ≠ [])
    (h : matchStart r (u ++ t) = some (g, t)) :
    matchesAfter r 0 (u ++ t) = (u, u ++ t) :: matchesAfter r 0 t := by
  cases u with
  | nil => exact absurd rfl hu
  | cons c u =>
    have skipped : (u ++ t).length - t.length = u.length := by simp
    have hc := consumed_append (c :: u) t
    simp only [List.cons_append] at h hc ⊢
    rw [matchesAfter, h]
    simp only [hc, skipped, matchesAfter_length_append]

/-- If no match that starts in `u` reads past its end, the matches of the rest are all listed. -/
theorem exists_matchesAfter_append {u : List α} {skip : ℕ} (hskip : skip ≤ u.length)
    (h : ∀ v w m, v ≠ [] → u = w ++ v → matchStart r (v ++ s) = some m → s.length ≤ m.2.length) :
    ∃ l, matchesAfter r skip (u ++ s) = l ++ matchesAfter r 0 s := by
  induction u generalizing skip with
  | nil =>
    obtain rfl : skip = 0 := by simpa using hskip
    exact ⟨[], rfl⟩
  | cons c u ih =>
    have later : ∀ v w m, v ≠ [] → u = w ++ v → matchStart r (v ++ s) = some m →
        s.length ≤ m.2.length := fun v w m hv hw => h v (c :: w) m hv (by simp [hw])
    cases skip with
    | succ skip => exact ih (by simpa using hskip) later
    | zero =>
      rw [List.cons_append, matchesAfter]
      split
      · exact ih (Nat.zero_le _) later
      · next m hm =>
        have hlen := h (c :: u) [] m (by simp) rfl hm
        obtain ⟨l, hl⟩ := @ih ((u ++ s).length - m.2.length)
          (by simp only [List.length_append]; omega) later
        exact ⟨_ :: l, by rw [hl]; rfl⟩

end Search

/-! ### Lazy repetitions -/

/-- A text broken at the first place to stop. -/
def breakAt (stop : List α → Bool) : List α → List α × List α
  | [] => ([], [])
  | c :: s =>
    if stop (c :: s) then ([], c :: s) else (c :: (breakAt stop s).1, (breakAt stop s).2)

section Lazy

variable {stop : List α → Bool} {s t u : List α}

theorem breakAt_of_stop {c : α} (h : stop (c :: s)) : breakAt stop (c :: s) = ([], c :: s) :=
  if_pos h

theorem breakAt_of_not_stop {c : α} (h : stop (c :: s) = false) :
    breakAt stop (c :: s) = (c :: (breakAt stop s).1, (breakAt stop s).2) :=
  if_neg (Bool.eq_false_iff.mp h)

theorem breakAt_append (s : List α) : (breakAt stop s).1 ++ (breakAt stop s).2 = s := by
  induction s with
  | nil => rfl
  | cons c s ih =>
    cases hstop : stop (c :: s) with
    | true => rw [breakAt_of_stop hstop, List.nil_append]
    | false => rw [breakAt_of_not_stop hstop, List.cons_append, ih]

theorem breakAt_snd (s : List α) : (breakAt stop s).2 = [] ∨ stop (breakAt stop s).2 := by
  induction s with
  | nil => exact .inl rfl
  | cons c s ih =>
    cases hstop : stop (c :: s) with
    | true =>
      rw [breakAt_of_stop hstop]
      exact .inr hstop
    | false =>
      rw [breakAt_of_not_stop hstop]
      exact ih

theorem length_breakAt_le (s : List α) : (breakAt stop s).1.length ≤ s.length := by
  have h := congrArg List.length (@breakAt_append _ stop s)
  rw [List.length_append] at h
  omega

/-- A part without a place to stop is passed over. -/
theorem breakAt_append_of_not (h : ∀ v, v ≠ [] → v <:+ u → stop (v ++ t) = false) :
    breakAt stop (u ++ t) = (u ++ (breakAt stop t).1, (breakAt stop t).2) := by
  induction u with
  | nil => rfl
  | cons c u ih =>
    have hstop : stop (c :: (u ++ t)) = false :=
      h (c :: u) (List.cons_ne_nil c u) List.suffix_rfl
    rw [List.cons_append, breakAt_of_not_stop hstop,
      ih fun v hv hsuffix => h v hv (hsuffix.trans (List.suffix_cons c u))]
    rfl

/-- A part with a place to stop is not read whole. -/
theorem length_breakAt_lt {v : List α} (hv : v ≠ []) (hsuffix : v <:+ u) (hstop : stop (v ++ t)) :
    (breakAt stop (u ++ t)).1.length < u.length := by
  induction u with
  | nil => exact absurd (List.suffix_nil.mp hsuffix) hv
  | cons c u ih =>
    rw [List.cons_append]
    cases hc : stop (c :: (u ++ t)) with
    | true => rw [breakAt_of_stop hc]; exact Nat.succ_pos _
    | false =>
      rw [breakAt_of_not_stop hc]
      rcases List.suffix_cons_iff.mp hsuffix with rfl | hsuffix
      · exact absurd hstop (Bool.eq_false_iff.mp hc)
      · exact Nat.succ_lt_succ (ih hsuffix)

variable [DecidableEq ι]

/-- A lazy repetition reads up to the first place where the rest of the expression can go on. -/
theorem head?_run_lazy {b : Regex α ι} {i : ι}
    (hb : ∀ g t, run b g t = [] ↔ t ≠ [] ∧ stop t = false) (g : Groups α ι) (s : List α) :
    (run (.seq (.group i (.many false fun _ => true)) b) g s).head? =
      (run b (Function.update g i (some (breakAt stop s).1)) (breakAt stop s).2).head? := by
  have hrests : ∀ u s : List α,
      ((manyRests false (fun _ => true) s).flatMap fun t =>
        run b (Function.update g i (some (consumed (u ++ s) t))) t).head? =
      (run b (Function.update g i (some (u ++ (breakAt stop s).1))) (breakAt stop s).2).head? := by
    intro u s
    induction s generalizing u with
    | nil =>
      have hu : consumed (u ++ []) ([] : List α) = u := consumed_append u []
      simp only [manyRests, List.flatMap_singleton, breakAt, List.append_nil] at hu ⊢
      rw [hu]
    | cons c s ih =>
      have hrest : manyRests false (fun _ => true) (c :: s) =
          (c :: s) :: manyRests false (fun _ => true) s := rfl
      rw [hrest, List.flatMap_cons]
      cases hstop : stop (c :: s) with
      | true =>
        rw [breakAt_of_stop hstop, List.append_nil, List.head?_append_of_ne_nil, consumed_append]
        exact fun h => Bool.false_ne_true (((hb _ _).mp h).2.symm.trans hstop)
      | false =>
        have hempty : ∀ g, run b g (c :: s) = [] := fun g =>
          (hb g _).mpr ⟨List.cons_ne_nil c s, hstop⟩
        have hu : u ++ c :: s = (u ++ [c]) ++ s := (List.append_cons u c s)
        rw [breakAt_of_not_stop hstop, hempty, List.nil_append, hu, ih (u ++ [c]),
          List.append_assoc]
        rfl
  rw [run_seq, run_group, run_many, List.map_map, List.flatMap_map]
  exact hrests [] s

/-- Blanks before a line end are read up to it. -/
theorem run_many_seq_one {p q : α → Bool} {b : Regex α ι} {g : Groups α ι} {c : α} (hp : p c)
    (hq : q c) (hs : ∀ d ∈ s.head?, p d = false ∧ q d = false) :
    run (.seq (.many true p) (.seq (.one q) b)) g (c :: s) = run b g s := by
  have hrests : manyRests true p (c :: s) = [s, c :: s] := by
    cases s with
    | nil => simp [manyRests, hp]
    | cons d s => simp [manyRests, hp, (hs d rfl).1]
  have hnot : run (.one q : Regex α ι) g s = [] := by
    cases s with
    | nil => rfl
    | cons d s => rw [run_one_cons, (hs d rfl).2]; rfl
  rw [run_seq, run_many, hrests]
  simp only [List.map_cons, List.map_nil, List.flatMap_cons, List.flatMap_nil, List.append_nil,
    run_seq, hnot, List.nil_append, run_one_cons, hq, if_true]

/-- The first match of a group is the first match of what it encloses. -/
theorem head?_run_group {a : Regex α ι} {i : ι} {g g' : Groups α ι}
    (h : (run a g (u ++ t)).head? = some (g', t)) :
    (run (.group i a) g (u ++ t)).head? = some (Function.update g' i (some u), t) := by
  rw [run_group, List.head?_map, h, Option.map_some, consumed_append]

/-- The first of the matches of a text starts at the first place where one can. -/
theorem head?_matchesAfter {r : Regex α ι} (s : List α) :
    ((matchesAfter r 0 s).map Prod.snd).head? =
      if (breakAt (fun t => (matchStart r t).isSome) s).2 = [] then none
      else some (breakAt (fun t => (matchStart r t).isSome) s).2 := by
  induction s with
  | nil => rfl
  | cons c s ih =>
    rw [matchesAfter]
    cases h : matchStart r (c :: s) with
    | none =>
      rw [breakAt_of_not_stop (by rw [h]; rfl : _ = false)]
      exact ih
    | some m =>
      rw [breakAt_of_stop (by rw [h]; rfl : _ = true),
        if_neg (List.cons_ne_nil c s)]
      rfl

end Lazy

end Regex

end Vat
