import Mathlib.Data.List.Basic
import Mathlib.Data.List.Infix
import Mathlib.Data.List.Nodup
import Mathlib.Data.Option.Basic
import Mathlib.Logic.Function.Basic

/-!
# Nodes with a pointer, and chains of linked records

A store of nodes, each of which points to another node or to none: `ptr a` is `none` when there is
no node `a`, and `some none` when the node has no pointer. Following the pointers from a node ends
(`Ends`) unless they run into a loop or into a missing node.

Each record of a log names its predecessor by a key, and the first one names none. A log is linked
when the names are those of the records before, in order: the list of the names is a prefix of the
list that begins with none and goes on with the keys.

## Main definitions

* `Ends`, `Grounded`: following the pointers ends, from one node and from all.
* `Visits`: following the pointers comes by a node.
* `link`, `links`: one pointer set, and several in turn.
* `SafeLinks`: no pointer is set to a node from which its owner is visited.
* `Linked`: a log whose records name the ones before them.

## Main results

* `grounded_link_iff`: what a single pointer must not do.
* `links_eq_or_mem`, `exists_links_of_mem`: a pointer after several were set.
* `safeLinks_common`, `grounded_links`: several pointers that keep every node grounded.
* `Linked.of_append`, `Linked.append_singleton`: a part from the beginning, and one record more.
* `Linked.exists_key`: every named predecessor is there.
* `Linked.nodup_prev`: no two records name the same one.
-/

namespace Pointers

variable {α : Type*}

/-- Following the pointers from a node ends at a node without one. -/
inductive Ends (ptr : α → Option (Option α)) : α → Prop
  | stop {a : α} (h : ptr a = some none) : Ends ptr a
  | hop {a b : α} (h : ptr a = some (some b)) (hb : Ends ptr b) : Ends ptr a

/-- Following the pointers ends from every node. -/
def Grounded (ptr : α → Option (Option α)) : Prop := ∀ a, (ptr a).isSome → Ends ptr a

/-- Following the pointers from a node comes by `x`. -/
inductive Visits (ptr : α → Option (Option α)) (x : α) : α → Prop
  | here : Visits ptr x x
  | hop {a b : α} (h : ptr a = some (some b)) (hb : Visits ptr x b) : Visits ptr x a

variable {ptr : α → Option (Option α)}

theorem Ends.isSome {a : α} (h : Ends ptr a) : (ptr a).isSome := by
  cases h with
  | stop h => rw [h, Option.isSome_some]
  | hop h => rw [h, Option.isSome_some]

/-- Every node that is visited on the way to an end exists. -/
theorem Ends.isSome_of_visits {x a : α} (h : Ends ptr a) (hx : Visits ptr x a) : (ptr x).isSome := by
  induction hx with
  | here => exact h.isSome
  | @hop a b hab _ ih =>
    cases h with
    | stop h =>
      rw [h] at hab
      cases hab
    | hop h hb =>
      rw [h] at hab
      cases hab
      exact ih hb

/-- Stores that agree on the nodes that are visited end alike. -/
theorem Ends.congr {ptr' : α → Option (Option α)} {a : α} (h : Ends ptr a)
    (heq : ∀ x, Visits ptr x a → ptr' x = ptr x) : Ends ptr' a := by
  induction h with
  | @stop a h => exact Ends.stop ((heq a Visits.here).trans h)
  | @hop a b h _ ih =>
    exact Ends.hop ((heq a Visits.here).trans h) (ih fun x hx => heq x (Visits.hop h hx))

/-- No node that ends lies on a loop. -/
theorem Ends.not_loop {x y : α} (hptr : ptr x = some (some y)) (hloop : Visits ptr x y) {a : α}
    (h : Ends ptr a) : ¬ Visits ptr x a := by
  induction h with
  | @stop a h =>
    rintro (_ | ⟨h', -⟩)
    · rw [h] at hptr
      cases hptr
    · rw [h] at h'
      cases h'
  | @hop a b h _ ih =>
    rintro (_ | ⟨h', hb⟩)
    · rw [h] at hptr
      cases hptr
      exact ih hloop
    · rw [h] at h'
      cases h'
      exact ih hb

variable [DecidableEq α]

/-- A node's pointer set. -/
def link (ptr : α → Option (Option α)) (x : α) (target : Option α) : α → Option (Option α) :=
  Function.update ptr x (some target)

@[simp] theorem link_self (x : α) (target : Option α) : link ptr x target x = some target :=
  Function.update_self ..

theorem link_of_ne {a x : α} (target : Option α) (h : a ≠ x) : link ptr x target a = ptr a :=
  Function.update_of_ne h ..

/-- A pointer set to what it is. -/
theorem link_eq_self {x : α} {target : Option α} (h : ptr x = some target) :
    link ptr x target = ptr := by
  rw [link, ← h, Function.update_eq_self]

theorem isSome_link {x : α} (hx : (ptr x).isSome) (target : Option α) (a : α) :
    (link ptr x target a).isSome = (ptr a).isSome := by
  by_cases h : a = x
  · rw [h, link_self, hx, Option.isSome_some]
  · rw [link_of_ne target h]

/-- Up to the node whose pointer is set, following the pointers is as before. -/
theorem Visits.after_link {x : α} {target : Option α} {a : α} (h : Visits ptr x a) :
    Visits (link ptr x target) x a := by
  induction h with
  | here => exact Visits.here
  | @hop a b h _ ih =>
    by_cases hax : a = x
    · rw [hax]
      exact Visits.here
    · exact Visits.hop ((link_of_ne target hax).trans h) ih

/-- A pointer that is taken away grounds no node less. -/
theorem Grounded.link_none (h : Grounded ptr) {x : α} (hx : (ptr x).isSome) :
    Grounded (link ptr x none) := by
  intro a ha
  rw [isSome_link hx] at ha
  induction h a ha with
  | @stop a h =>
    by_cases hax : a = x
    · exact Ends.stop (by rw [hax, link_self])
    · exact Ends.stop ((link_of_ne none hax).trans h)
  | @hop a b h hb ih =>
    by_cases hax : a = x
    · exact Ends.stop (by rw [hax, link_self])
    · exact Ends.hop ((link_of_ne none hax).trans h) (ih hb.isSome)

/-- Where following the pointers ended from every node, it still does after one pointer is set
exactly if the new target exists and its own pointers do not come by the node. -/
theorem grounded_link_iff (h : Grounded ptr) {x : α} (hx : (ptr x).isSome) (y : α) :
    Grounded (link ptr x (some y)) ↔ (ptr y).isSome ∧ ¬ Visits ptr x y := by
  constructor
  · intro hnew
    have hends : Ends (link ptr x (some y)) x := hnew x (by rw [link_self, Option.isSome_some])
    have hvisits : ¬ Visits ptr x y := fun hloop =>
      hends.not_loop (link_self x (some y)) hloop.after_link Visits.here
    refine ⟨?_, hvisits⟩
    cases hends with
    | stop hstop =>
      rw [link_self] at hstop
      cases hstop
    | @hop _ b hhop hb =>
      rw [link_self] at hhop
      cases hhop
      rw [← isSome_link hx (some y)]
      exact hb.isSome
  · rintro ⟨hy, hvisits⟩
    have hends : Ends (link ptr x (some y)) y := by
      refine (h y hy).congr fun a ha => link_of_ne _ ?_
      rintro rfl
      exact hvisits ha
    have hself : Ends (link ptr x (some y)) x := Ends.hop (link_self x (some y)) hends
    intro a ha
    rw [isSome_link hx] at ha
    induction h a ha with
    | @stop a h =>
      by_cases hax : a = x
      · rw [hax]
        exact hself
      · exact Ends.stop ((link_of_ne _ hax).trans h)
    | @hop a b h hb ih =>
      by_cases hax : a = x
      · rw [hax]
        exact hself
      · exact Ends.hop ((link_of_ne _ hax).trans h) (ih hb.isSome)

/-! ### Several pointers -/

/-- Pointers set in turn. -/
def links (ptr : α → Option (Option α)) (ws : List (α × Option α)) : α → Option (Option α) :=
  ws.foldl (fun ptr w => link ptr w.1 w.2) ptr

/-- Each pointer, when it is set, belongs to a node, and leads to one whose pointers do not come by
it. -/
def SafeLinks : (α → Option (Option α)) → List (α × Option α) → Prop
  | _, [] => True
  | ptr, (x, target) :: ws =>
    (ptr x).isSome ∧ (∀ y, target = some y → (ptr y).isSome ∧ ¬ Visits ptr x y) ∧
      SafeLinks (link ptr x target) ws

/-- A pointer after several are set: one of them, or the one before. -/
theorem links_eq_or_mem (ptr : α → Option (Option α)) (ws : List (α × Option α)) (a : α) :
    links ptr ws a = ptr a ∨ ∃ target, (a, target) ∈ ws ∧ links ptr ws a = some target := by
  induction ws generalizing ptr with
  | nil => exact Or.inl rfl
  | cons w ws ih =>
    obtain ⟨x, t⟩ := w
    rcases ih (link ptr x t) with h | ⟨target, hmem, h⟩
    · by_cases ha : a = x
      · rw [ha] at h ⊢
        exact Or.inr ⟨t, List.mem_cons_self, h.trans (link_self x t)⟩
      · exact Or.inl (h.trans (link_of_ne t ha))
    · exact Or.inr ⟨target, List.mem_cons_of_mem _ hmem, h⟩

/-- Pointers set at a node leave one there. -/
theorem exists_links_of_mem (ptr : α → Option (Option α)) {ws : List (α × Option α)} {a : α}
    (h : a ∈ ws.map Prod.fst) : ∃ target, (a, target) ∈ ws ∧ links ptr ws a = some target := by
  induction ws generalizing ptr with
  | nil => cases h
  | cons w ws ih =>
    by_cases hmem : a ∈ ws.map Prod.fst
    · obtain ⟨target, htarget, hlinks⟩ := ih (link ptr w.1 w.2) hmem
      exact ⟨target, List.mem_cons_of_mem w htarget, hlinks⟩
    · obtain ⟨x, t⟩ := w
      obtain rfl : a = x := (List.mem_cons.mp h).resolve_right hmem
      refine ⟨t, List.mem_cons_self, ?_⟩
      rcases links_eq_or_mem (link ptr a t) ws a with hlinks | ⟨target, htarget, -⟩
      · exact hlinks.trans (link_self a t)
      · exact absurd (List.mem_map_of_mem htarget) hmem

/-- A node comes by another that a new pointer does not lead it around. -/
theorem Visits.of_link {x x' a : α} {target : Option α} (h : Visits (link ptr x target) x' a)
    (ha : ¬ Visits ptr x a) : Visits ptr x' a := by
  induction h with
  | here => exact Visits.here
  | @hop a b h _ ih =>
    have hax : a ≠ x := by
      rintro rfl
      exact ha Visits.here
    rw [link_of_ne target hax] at h
    exact Visits.hop h (ih fun hb => ha (Visits.hop h hb))

/-- Several nodes may be pointed at one whose pointers come by none of them. -/
theorem safeLinks_common {ptr : α → Option (Option α)} {y : α} {xs : List α}
    (hy : (ptr y).isSome) (hxs : ∀ x ∈ xs, (ptr x).isSome ∧ ¬ Visits ptr x y) :
    SafeLinks ptr (xs.map fun x => (x, some y)) := by
  induction xs generalizing ptr with
  | nil => trivial
  | cons x xs ih =>
    obtain ⟨hx, hvisits⟩ := hxs x List.mem_cons_self
    refine ⟨hx, ?_, ih ?_ fun x' hx' => ?_⟩
    · rintro _ ⟨⟩
      exact ⟨hy, hvisits⟩
    · rwa [isSome_link hx]
    · obtain ⟨hsome, hvisits'⟩ := hxs x' (List.mem_cons_of_mem x hx')
      rw [isSome_link hx]
      exact ⟨hsome, fun h => hvisits' (h.of_link hvisits)⟩

theorem grounded_links {ptr : α → Option (Option α)} (h : Grounded ptr) {ws : List (α × Option α)}
    (hws : SafeLinks ptr ws) : Grounded (links ptr ws) := by
  induction ws generalizing ptr with
  | nil => exact h
  | cons w ws ih =>
    obtain ⟨x, target⟩ := w
    obtain ⟨hx, htarget, hrest⟩ := hws
    refine ih ?_ hrest
    cases target with
    | none => exact h.link_none hx
    | some y => exact (grounded_link_iff h hx y).mpr (htarget y rfl)

end Pointers

namespace Chains

/-! ### Chains of linked records -/

variable {ρ η : Type*} {prev : ρ → Option η} {key : ρ → η}

/-- Each record names the one before it, and the first one names none. -/
def Linked (prev : ρ → Option η) (key : ρ → η) (log : List ρ) : Prop :=
  log.map prev <+: none :: log.map fun r => some (key r)

theorem Linked.nil : Linked prev key [] := List.nil_prefix

/-- A log from the beginning up to some record. -/
theorem Linked.of_append {log rest : List ρ} (h : Linked prev key (log ++ rest)) :
    Linked prev key log := by
  rw [Linked, List.map_append, List.map_append, ← List.cons_append] at h
  refine List.prefix_of_prefix_length_le ((List.prefix_append _ _).trans h)
    (List.prefix_append _ _) ?_
  rw [List.length_cons, List.length_map, List.length_map]
  omega

theorem Linked.of_prefix {log log' : List ρ} (h : Linked prev key log) (hsub : log' <+: log) :
    Linked prev key log' := by
  obtain ⟨rest, rfl⟩ := hsub
  exact h.of_append

/-- The names of a linked log, and the key of its last record, are none and all keys. -/
theorem Linked.map_prev_append {log : List ρ} (h : Linked prev key log) :
    log.map prev ++ [log.getLast?.map key] = none :: log.map fun r => some (key r) := by
  obtain ⟨rest, heq⟩ := h
  have hrest : rest.length = 1 := by
    have hlength := congrArg List.length heq
    rw [List.length_append, List.length_map, List.length_cons, List.length_map] at hlength
    omega
  obtain ⟨x, rfl⟩ := List.length_eq_one_iff.mp hrest
  have hlast := congrArg List.getLast? heq
  rw [List.getLast?_concat] at hlast
  rw [← heq]
  congr 2
  rcases List.eq_nil_or_concat log with rfl | ⟨log, r, rfl⟩
  · simpa using hlast.symm
  · rw [List.concat_eq_append, List.map_append, List.map_singleton, ← List.cons_append,
      List.getLast?_concat] at hlast
    simpa using hlast.symm

/-- One record more, which names the last one. -/
theorem Linked.append_singleton {log : List ρ} (h : Linked prev key log) {r : ρ}
    (hr : prev r = log.getLast?.map key) : Linked prev key (log ++ [r]) := by
  rw [Linked, List.map_append, List.map_singleton, hr, h.map_prev_append, List.map_append,
    ← List.cons_append]
  exact List.prefix_append _ _

/-- Every named predecessor is in the log. -/
theorem Linked.exists_key {log : List ρ} (h : Linked prev key log) {r : ρ} (hr : r ∈ log) {k : η}
    (hk : prev r = some k) : ∃ q ∈ log, key q = k := by
  have hmem : some k ∈ none :: log.map fun r => some (key r) :=
    h.subset (hk ▸ List.mem_map_of_mem hr)
  simpa using hmem

/-- No two records of a log with distinct keys name the same one. -/
theorem Linked.nodup_prev {log : List ρ} (h : Linked prev key log) (hkeys : (log.map key).Nodup) :
    (log.map prev).Nodup := by
  refine List.Nodup.sublist h.sublist (List.nodup_cons.mpr ⟨by simp, ?_⟩)
  simpa only [List.map_map, Function.comp_def] using hkeys.map (Option.some_injective _)

end Chains
