import Mathlib.Logic.Function.Basic
import Mathlib.Logic.Function.Iterate
import Mathlib.Logic.Relation
import Mathlib.Tactic.SplitIfs

/-!
# Redirections

A partial map sends some keys to other keys. It is flat when no key is sent to one that is sent on,
so that a single hop ends the way.

Where every way ends after some number of hops, each key has a root, and the keys with one root are
a class. Redirecting a root to another one joins their classes. If roots are redirected only to
preferred roots, and only along some links, then once the two ends of every link have one root the
classes are those of the equivalence that the links generate, and each root is the preferred key of
its class.

## Main definitions

* `hop`: one hop.
* `Flat`: every way ends after one hop.
* `merge`: redirect a key and all keys that lead to it.
* `EndsWithin`: every way ends within some number of hops.
* `Absorbs`: what becomes of the roots when some are redirected.

## Main results

* `flat_iff_hop`: one hop leads to a key that is not redirected.
* `flat_merge`: merging into a key that is not redirected keeps the map flat.
* `flat_update_iff`: when redirecting one key keeps the map flat.
* `endsWithin_merge`, `root_merge`: redirecting one root.
* `ends_of_connected`: what is true of the ends of links is true of connected keys.
* `Absorbs.root_eq_iff`, `Absorbs.root_preferred`: the classes and their roots.
-/

namespace Redirect

variable {κ : Type*} {next : κ → Option κ}

/-- Where a key leads in one hop. -/
def hop (next : κ → Option κ) (a : κ) : κ := (next a).getD a

/-- No key is redirected to a redirected key. -/
def Flat (next : κ → Option κ) : Prop := ∀ a b, next a = some b → next b = none

theorem hop_of_none {a : κ} (h : next a = none) : hop next a = a := by rw [hop, h, Option.getD_none]

theorem hop_of_some {a b : κ} (h : next a = some b) : hop next a = b := by
  rw [hop, h, Option.getD_some]

/-- A map is flat when every hop leads to a key that is not redirected. -/
theorem flat_iff_hop : Flat next ↔ ∀ a, next (hop next a) = none := by
  constructor
  · intro h a
    cases hb : next a with
    | none => rwa [hop_of_none hb]
    | some b =>
      rw [hop_of_some hb]
      exact h a b hb
  · intro h a b hb
    have := h a
    rwa [hop_of_some hb] at this

theorem Flat.hop_hop (h : Flat next) (a : κ) : hop next (hop next a) = hop next a :=
  hop_of_none (flat_iff_hop.mp h a)

/-- Fewer redirections of a flat map are flat. -/
theorem Flat.mono {next' : κ → Option κ} (h : Flat next)
    (hsub : ∀ a b, next' a = some b → next a = some b) : Flat next' := by
  intro a b hab
  have hb : next b = none := h a b (hsub a b hab)
  cases hc : next' b with
  | none => rfl
  | some c =>
    rw [hsub b c hc] at hb
    cases hb

variable [DecidableEq κ]

/-- Redirect `s` to `c`, and every key that leads to `s`. -/
def merge (next : κ → Option κ) (s c : κ) (a : κ) : Option κ :=
  if a = s then some c else if next a = some s then some c else next a

/-- Merging into a key that is not redirected keeps the map flat. -/
theorem flat_merge (h : Flat next) {s c : κ} (hne : s ≠ c) (hc : next c = none) :
    Flat (merge next s c) := by
  have hroot : merge next s c c = none := by
    simp [merge, hne.symm, hc]
  intro a b hab
  unfold merge at hab
  split_ifs at hab with ha hs
  · rwa [← Option.some.inj hab]
  · rwa [← Option.some.inj hab]
  · have hb : next b = none := h a b hab
    have hbs : b ≠ s := fun heq => hs (heq ▸ hab)
    simp [merge, hbs, hb]

theorem merge_root {s c r : κ} (hr : next r = none) (hrs : r ≠ s) :
    merge next s c r = none := by
  simp [merge, hrs, hr]

/-- Redirecting one key keeps a flat map flat exactly when its goal is not redirected and no key
leads to it. -/
theorem flat_update_iff (h : Flat next) {s c : κ} (hne : s ≠ c) :
    Flat (Function.update next s (some c)) ↔ next c = none ∧ ∀ a, a ≠ s → next a ≠ some s := by
  constructor
  · intro hflat
    constructor
    · have := hflat s c (Function.update_self ..)
      rwa [Function.update_of_ne hne.symm] at this
    · intro a ha hs
      have := hflat a s (by rwa [Function.update_of_ne ha])
      rw [Function.update_self] at this
      cases this
  · rintro ⟨hc, hs⟩ a b hab
    by_cases ha : a = s
    · subst ha
      rw [Function.update_self] at hab
      obtain rfl := Option.some.inj hab
      rwa [Function.update_of_ne hne.symm]
    · rw [Function.update_of_ne ha] at hab
      have hb : b ≠ s := fun heq => hs a ha (heq ▸ hab)
      rw [Function.update_of_ne hb]
      exact h a b hab

end Redirect

namespace Redirect

/-! ### Ways that end -/

variable {κ : Type*} {next : κ → Option κ} {n : ℕ} {a b c s : κ}

/-! ### Ways -/

/-- Every way ends within `n` hops. -/
def EndsWithin (n : ℕ) (next : κ → Option κ) : Prop := ∀ a, next ((hop next)^[n] a) = none

theorem iterate_hop_of_none (h : next a = none) (n : ℕ) : (hop next)^[n] a = a :=
  Function.iterate_fixed (hop_of_none h) n

/-- Longer ways lead no further than a root. -/
theorem iterate_hop_of_le {m : ℕ} (h : next ((hop next)^[m] a) = none) (hmn : m ≤ n) :
    (hop next)^[n] a = (hop next)^[m] a := by
  obtain ⟨k, rfl⟩ := Nat.exists_eq_add_of_le' hmn
  rw [Function.iterate_add_apply, iterate_hop_of_none h]

section Merge

variable [DecidableEq κ]

/-- Where the way of a key leads after a root was redirected. -/
theorem iterate_hop_merge (hs : next s = none) (hc : next c = none) (hne : s ≠ c) {k : ℕ} {a : κ}
    (h : next ((hop next)^[k] a) = none) (hstart : 0 < k ∨ a ≠ s) :
    (hop (merge next s c))^[k] a =
      if (hop next)^[k] a = s then c else (hop next)^[k] a := by
  have hroot : ∀ {r : κ}, next r = none → r ≠ s → merge next s c r = none := merge_root
  have hgoal : merge next s c c = none := hroot hc hne.symm
  induction k generalizing a with
  | zero =>
    have ha : a ≠ s := hstart.resolve_left (Nat.lt_irrefl 0)
    rw [Function.iterate_zero_apply, Function.iterate_zero_apply, if_neg ha]
  | succ k ih =>
    rw [Function.iterate_succ_apply, Function.iterate_succ_apply] at *
    by_cases has : a = s
    · subst has
      have hmerge : merge next a c a = some c := if_pos rfl
      rw [hop_of_none hs, iterate_hop_of_none hs, if_pos rfl, hop_of_some hmerge,
        iterate_hop_of_none hgoal]
    · cases hnext : next a with
      | none =>
        rw [hop_of_none hnext, iterate_hop_of_none hnext, if_neg has, hop_of_none (hroot hnext has),
          iterate_hop_of_none (hroot hnext has)]
      | some p =>
        rw [hop_of_some hnext] at h ⊢
        by_cases hp : p = s
        · subst hp
          have hmerge : merge next p c a = some c := by rw [merge, if_neg has, if_pos hnext]
          rw [iterate_hop_of_none hs, if_pos rfl, hop_of_some hmerge, iterate_hop_of_none hgoal]
        · have hsame : merge next s c a = some p := by
            rw [merge, if_neg has, if_neg (fun heq => hp (Option.some.inj (hnext.symm.trans heq))),
              hnext]
          rw [hop_of_some hsame]
          exact ih h (.inr hp)

/-- The root of a key after a root was redirected. -/
theorem root_merge (hends : EndsWithin n next) (hn : 0 < n) (hs : next s = none)
    (hc : next c = none) (hne : s ≠ c) (a : κ) :
    (hop (merge next s c))^[n] a = if (hop next)^[n] a = s then c else (hop next)^[n] a :=
  iterate_hop_merge hs hc hne (hends a) (.inl hn)

/-- Redirecting a root to another root keeps ways short. -/
theorem endsWithin_merge (hends : EndsWithin n next) (hn : 0 < n) (hs : next s = none)
    (hc : next c = none) (hne : s ≠ c) : EndsWithin n (merge next s c) := by
  intro a
  rw [root_merge hends hn hs hc hne]
  split_ifs with hroot
  · exact merge_root hc hne.symm
  · exact merge_root (hends a) hroot

end Merge

/-! ### Classes -/

variable {link : κ → κ → Prop} {prefers : κ → κ → Prop} {r r' r'' : κ → κ} {x y : κ}

/-- Different keys that links connect are ends of links. -/
theorem ends_of_connected {P : κ → Prop} (hends : ∀ x y, link x y → P x ∧ P y)
    (h : Relation.EqvGen link x y) (hne : x ≠ y) : P x ∧ P y := by
  induction h with
  | rel x y hlink => exact hends x y hlink
  | refl x => exact absurd rfl hne
  | symm x y _ ih => exact (ih hne.symm).symm
  | trans x y z _ _ ih ih' =>
    by_cases hxy : x = y
    · subst hxy
      exact ih' hne
    · by_cases hyz : y = z
      · subst hyz
        exact ih hne
      · exact ⟨(ih hxy).1, (ih' hyz).2⟩

/-- Some roots are redirected along links to preferred roots; `r` and `r'` are the roots of the keys
before and after. -/
structure Absorbs (link prefers : κ → κ → Prop) (r r' : κ → κ) : Prop where
  joins : ∀ a b, r a = r b → r' a = r' b
  linked : ∀ a, Relation.EqvGen link (r a) (r' a)
  preferred : ∀ a, prefers (r' a) (r a)
  root : ∀ a, r (r' a) = r' a

namespace Absorbs

theorem refl (hrefl : ∀ a, prefers a a) (hroot : ∀ a, r (r a) = r a) : Absorbs link prefers r r :=
  ⟨fun _ _ h => h, fun _ => .refl _, fun _ => hrefl _, hroot⟩

theorem trans (htrans : ∀ {a b c}, prefers a b → prefers b c → prefers a c)
    (h : Absorbs link prefers r r') (h' : Absorbs link prefers r' r'') :
    Absorbs link prefers r r'' where
  joins a b hab := h'.joins a b (h.joins a b hab)
  linked a := (h.linked a).trans _ _ _ (h'.linked a)
  preferred a := htrans (h'.preferred a) (h.preferred a)
  root a := by
    have hroot := h'.root a
    rw [← hroot]
    exact h.root _

/-- One root is redirected to another. -/
theorem single [DecidableEq κ] (hrefl : ∀ a, prefers a a) (hroot : ∀ a, r (r a) = r a) {s c : κ}
    (hlink : Relation.EqvGen link s c) (hprefers : prefers c s) (hc : r c = c)
    (hr' : ∀ a, r' a = if r a = s then c else r a) : Absorbs link prefers r r' where
  joins a b hab := by rw [hr', hr', hab]
  linked a := by
    rw [hr']
    split_ifs with hs
    · rw [hs]
      exact hlink
    · exact .refl _
  preferred a := by
    rw [hr']
    split_ifs with hs
    · rw [hs]
      exact hprefers
    · exact hrefl _
  root a := by
    rw [hr']
    split_ifs
    · exact hc
    · exact hroot a

/-- A key that is a root afterwards was one before. -/
theorem root_of_root (h : Absorbs link prefers r r') (ha : r' a = a) : r a = a := by
  have hroot := h.root a
  rwa [ha] at hroot

/-- Once the ends of every link have one root, the keys with one root are those that links
connect. -/
theorem root_eq_iff (h : Absorbs link prefers r r') (hroot : ∀ a, r (r a) = r a)
    (hjoined : ∀ x y, link x y → r' x = r' y) :
    r' a = r' b ↔ Relation.EqvGen link (r a) (r b) := by
  have hconnected : ∀ x y, Relation.EqvGen link x y → r' x = r' y := by
    intro x y hxy
    induction hxy with
    | rel x y hlink => exact hjoined x y hlink
    | refl x => rfl
    | symm x y _ ih => exact ih.symm
    | trans x y z _ _ ih ih' => exact ih.trans ih'
  constructor
  · intro heq
    have hb := (h.linked b).symm
    rw [← heq] at hb
    exact (h.linked a).trans _ _ _ hb
  · intro hab
    calc r' a = r' (r a) := h.joins a (r a) (hroot a).symm
      _ = r' (r b) := hconnected _ _ hab
      _ = r' b := h.joins (r b) b (hroot b)

/-- The root of a class is preferred to all its roots before. -/
theorem root_preferred (h : Absorbs link prefers r r') (hroot : ∀ a, r (r a) = r a)
    (hjoined : ∀ x y, link x y → r' x = r' y) (hx : r x = x)
    (hax : Relation.EqvGen link (r a) x) : prefers (r' a) x := by
  rw [← hx] at hax
  rw [(h.root_eq_iff hroot hjoined).mpr hax]
  have hpreferred := h.preferred x
  rwa [hx] at hpreferred

end Absorbs

end Redirect
