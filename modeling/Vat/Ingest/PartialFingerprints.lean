import Mathlib.Algebra.GroupWithZero.Nat
import Mathlib.Data.Char
import Mathlib.Data.List.Lex
import Mathlib.Order.Lex
import Vat.Ingest.Fingerprint
import Vat.Keyed.Assign
import Vat.Keyed.Dictionary
import Vat.Sorted.Lists

/-!
# Which partial fingerprint counts

A result of a SARIF report has a dictionary of partial fingerprints. One of its values, or all of
them, are resolved to a digest: `primaryLocationLineHash/v1` comes first, then the other line hashes
in the order of their names, then the region hashes, then all entries. The order of the entries does
not matter. A value of blanks is passed over where a single name is asked for, but not among the
line hashes and not among all entries: there it is a value as any other, and what it stands before
or beside is resolved to another digest. So a dictionary is resolved as if its blank values were not
there exactly if none of them is reached (`partial_fingerprints_iff`).

Source: `backend/app/services/sarif_fingerprints.py`;
`docs/implementation-plan-dedup-correlation-hardening.md`, section 4.5.

## Main definitions

* `BranchUsed`, `branchUsed`, `resolvedFingerprint`: what is resolved, and from which names.
* `withoutBlanks`: a dictionary without its blank values.
* `documentedFingerprint`: what the values that are not blank say by the documented precedence.
* `BlanksPassedOver`: no blank value is reached.

## Main results

* `resolvedFingerprint_of_perm`: the order of the entries does not matter.
* `resolvedFingerprint_withoutBlanks`: without blanks, the documented precedence decides.
* `partial_fingerprints_iff`.
-/

namespace Vat

open Keyed

/-! ### The branch -/

/-- Where a digest comes from. -/
inductive BranchUsed
  | primaryLocationLineHashV1
  | primaryLocationLineHash
  | contextRegionHashV1
  | contextRegionHash
  | sortedAllKeysSha256
  | none
  deriving DecidableEq

def lineHashV1Key : Str := str "primaryLocationLineHash" ++ str "/v1"

def regionHashV1Key : Str := str "contextRegionHash/v1"

def regionHashKey : Str := str "contextRegionHash"

def isLineHash (e : Str × Str) : Bool := Str.startsWith e.1 (str "primaryLocationLineHash")

/-- `"|".join(f"{k}={v}" for k, v in pairs)`. -/
def joinedFingerprints (pairs : List (Str × Str)) : Str :=
  Str.join '|' (pairs.map fun e => e.1 ++ str "=" ++ e.2)

/-- The line hashes with a value, in the order of their names. -/
def lineHashes (pf : List (Str × Str)) : List (Str × Str) :=
  (sortedFingerprints pf).filter fun e => isLineHash e ∧ e.2 ≠ []

/-- The `branch_used` of `resolve_partial_fingerprints`. -/
def branchUsed (pf : List (Str × Str)) : BranchUsed :=
  if pf = [] then .none
  else if Str.strip (fingerprintOf pf lineHashV1Key) ≠ [] then .primaryLocationLineHashV1
  else
    match lineHashes pf with
    | _ :: _ => .primaryLocationLineHash
    | [] =>
      if Str.strip (fingerprintOf pf regionHashV1Key) ≠ [] then .contextRegionHashV1
      else if Str.strip (fingerprintOf pf regionHashKey) ≠ [] then .contextRegionHash
      else if joinedFingerprints ((sortedFingerprints pf).filter fun e => e.2 ≠ []) = [] then .none
      else .sortedAllKeysSha256

section Resolved

variable [Sha256]

/-- `resolve_partial_fingerprints`. -/
def resolvedFingerprint (pf : Dictionary Str Str) : Option Str × BranchUsed :=
  (resolvePartialFingerprints pf.entries, branchUsed pf.entries)

/-! ### The documented precedence -/

/-- A value that is neither empty nor blank. -/
def hasText (e : Str × Str) : Bool := Str.strip e.2 ≠ []

/-- The dictionary without blank values. -/
def withoutBlanks (pf : Dictionary Str Str) : Dictionary Str Str where
  entries := pf.entries.filter hasText
  nodup := pf.nodup.sublist (List.filter_sublist.map Prod.fst)

/-- The documented precedence among the values that are not blank: the line hash of version 1, else
the first line hash by name, else a region hash, else all entries by name. -/
def documentedFingerprint (pf : Dictionary Str Str) : Option Str × BranchUsed :=
  let present := (sortedFingerprints pf.entries).filter hasText
  let digestOf (e : Str × Str) := some (Sha256.hexdigest (Str.strip e.2))
  match present.find? (·.1 = lineHashV1Key) with
  | some e => (digestOf e, .primaryLocationLineHashV1)
  | none =>
    match present.find? isLineHash with
    | some e => (digestOf e, .primaryLocationLineHash)
    | none =>
      match present.find? (·.1 = regionHashV1Key) with
      | some e => (digestOf e, .contextRegionHashV1)
      | none =>
        match present.find? (·.1 = regionHashKey) with
        | some e => (digestOf e, .contextRegionHash)
        | none =>
          if present = [] then (none, .none)
          else (some (Sha256.hexdigest (joinedFingerprints present)), .sortedAllKeysSha256)

/-- No blank value is reached: the line hash of version 1 is not blank; or the first line hash with
a value is not blank; or there is none, and a region hash is not blank or no value is blank
without being empty. -/
def BlanksPassedOver (pf : Dictionary Str Str) : Prop :=
  Str.strip (fingerprintOf pf.entries lineHashV1Key) ≠ [] ∨
    match lineHashes pf.entries with
    | e :: _ => Str.strip e.2 ≠ []
    | [] => Str.strip (fingerprintOf pf.entries regionHashV1Key) ≠ [] ∨
        Str.strip (fingerprintOf pf.entries regionHashKey) ≠ [] ∨
        ∀ e ∈ pf.entries, Str.strip e.2 = [] → e.2 = []

/-! ### What is resolved -/

/-- What is resolved, from the values of the single names, the line hashes and all entries. -/
def resolutionOf (lineHashV1 : Str) (lines : List (Str × Str)) (regionHashV1 regionHash : Str)
    (pairs : List (Str × Str)) : Option Str × BranchUsed :=
  if lineHashV1 ≠ [] then (some (Sha256.hexdigest lineHashV1), .primaryLocationLineHashV1)
  else
    match lines with
    | e :: _ => (some (Sha256.hexdigest (Str.strip e.2)), .primaryLocationLineHash)
    | [] =>
      if regionHashV1 ≠ [] then (some (Sha256.hexdigest regionHashV1), .contextRegionHashV1)
      else if regionHash ≠ [] then (some (Sha256.hexdigest regionHash), .contextRegionHash)
      else if pairs = [] then (none, .none)
      else (some (Sha256.hexdigest (joinedFingerprints pairs)), .sortedAllKeysSha256)

omit [Sha256] in
theorem length_joinedFingerprints {pairs : List (Str × Str)} (h : pairs ≠ []) :
    (joinedFingerprints pairs).length + 1 =
      (pairs.map fun e => e.1.length + e.2.length + 2).sum := by
  rw [joinedFingerprints, Str.join]
  induction pairs with
  | nil => exact absurd rfl h
  | cons e pairs ih =>
    have hpart : (e.1 ++ str "=" ++ e.2).length = e.1.length + e.2.length + 1 := by
      simp [str]
      omega
    cases pairs with
    | nil =>
      rw [List.map_singleton, List.intercalate_singleton, hpart]
      rfl
    | cons e' pairs =>
      have hrest := ih (List.cons_ne_nil _ _)
      rw [List.map_cons] at hrest
      rw [List.map_cons, List.map_cons, List.intercalate_cons_cons, List.length_append,
        List.length_append, hpart, List.length_singleton, List.map_cons, List.sum_cons, ← hrest]
      omega

omit [Sha256] in
theorem joinedFingerprints_eq_nil_iff (pairs : List (Str × Str)) :
    joinedFingerprints pairs = [] ↔ pairs = [] := by
  constructor
  · intro h
    by_contra hne
    have hlen := length_joinedFingerprints hne
    rw [h] at hlen
    cases pairs with
    | nil => exact hne rfl
    | cons e pairs =>
      rw [List.map_cons, List.sum_cons, List.length_nil] at hlen
      omega
  · rintro rfl
    rfl

omit [Sha256] in
/-- Entries that are left out are missed in the joined text. -/
theorem eq_of_joinedFingerprints_eq {pairs pairs' : List (Str × Str)} (hsub : pairs'.Sublist pairs)
    (h : joinedFingerprints pairs' = joinedFingerprints pairs) : pairs' = pairs := by
  by_cases hnil : pairs' = []
  · have hpairs : joinedFingerprints pairs = [] := by rw [← h, hnil]; rfl
    rw [hnil, (joinedFingerprints_eq_nil_iff pairs).mp hpairs]
  · have hne : pairs ≠ [] := fun hp => hnil (List.sublist_nil.mp (hp ▸ hsub))
    have hlen := length_joinedFingerprints hnil
    obtain ⟨rest, hperm⟩ := hsub.exists_perm_append
    have hsum := (hperm.map fun e => e.1.length + e.2.length + 2).sum_nat
    rw [h, length_joinedFingerprints hne, hsum, List.map_append, List.sum_append] at hlen
    have hrest : rest = [] := by
      cases rest with
      | nil => rfl
      | cons e rest =>
        rw [List.map_cons, List.sum_cons] at hlen
        omega
    refine hsub.eq_of_length ?_
    rw [hperm.length_eq, hrest, List.append_nil]

theorem resolvedFingerprint_eq (pf : Dictionary Str Str) :
    resolvedFingerprint pf =
      resolutionOf (Str.strip (fingerprintOf pf.entries lineHashV1Key)) (lineHashes pf.entries)
        (Str.strip (fingerprintOf pf.entries regionHashV1Key))
        (Str.strip (fingerprintOf pf.entries regionHashKey))
        ((sortedFingerprints pf.entries).filter fun e => e.2 ≠ []) := by
  have hmaterial : fingerprintMaterial pf.entries =
      if Str.strip (fingerprintOf pf.entries lineHashV1Key) ≠ [] then
        some (Str.strip (fingerprintOf pf.entries lineHashV1Key))
      else
        match lineHashes pf.entries with
        | e :: _ => some (Str.strip e.2)
        | [] =>
          if Str.strip (fingerprintOf pf.entries regionHashV1Key) ≠ [] then
            some (Str.strip (fingerprintOf pf.entries regionHashV1Key))
          else if Str.strip (fingerprintOf pf.entries regionHashKey) ≠ [] then
            some (Str.strip (fingerprintOf pf.entries regionHashKey))
          else if joinedFingerprints
              ((sortedFingerprints pf.entries).filter fun e => e.2 ≠ []) = [] then none
          else some (joinedFingerprints
            ((sortedFingerprints pf.entries).filter fun e => e.2 ≠ [])) := by
    rw [lineHashes]
    simp only [isLineHash]
    rfl
  rw [resolvedFingerprint, resolvePartialFingerprints, branchUsed, hmaterial]
  unfold resolutionOf
  by_cases hnil : pf.entries = []
  · rw [hnil]
    rfl
  rw [if_neg hnil, if_neg hnil]
  split
  · rfl
  cases lineHashes pf.entries with
  | cons e rest => rfl
  | nil =>
    dsimp only
    split
    · rfl
    split
    · rfl
    simp only [joinedFingerprints_eq_nil_iff]
    split <;> rfl

omit [Sha256] in
theorem eq_of_keys_nodup {l : List (Str × Str)} (hnodup : (l.map Prod.fst).Nodup) :
    ∀ a ∈ l, ∀ b ∈ l, ¬ b.1 < a.1 → ¬ a.1 < b.1 → a = b := by
  intro a ha b hb hba hab
  exact List.inj_on_of_nodup_map hnodup ha hb (le_antisymm (not_lt.mp hba) (not_lt.mp hab))

instance total_key : Std.Total fun a b : Str × Str => ¬ b.1 < a.1 :=
  ⟨fun a b => (le_total a.1 b.1).imp not_lt.mpr not_lt.mpr⟩

instance isTrans_key : IsTrans (Str × Str) fun a b => ¬ b.1 < a.1 :=
  ⟨fun _ _ _ hab hbc => not_lt.mpr ((not_lt.mp hab).trans (not_lt.mp hbc))⟩

omit [Sha256] in
theorem sortedFingerprints_of_perm {pf pf' : List (Str × Str)} (hnodup : (pf.map Prod.fst).Nodup)
    (h : pf.Perm pf') : sortedFingerprints pf = sortedFingerprints pf' :=
  Sorted.insertionSort_eq_of_perm h (eq_of_keys_nodup hnodup)

omit [Sha256] in
theorem sortedFingerprints_filter {pf : List (Str × Str)} (hnodup : (pf.map Prod.fst).Nodup)
    (p : Str × Str → Bool) : sortedFingerprints (pf.filter p) = (sortedFingerprints pf).filter p :=
  Sorted.insertionSort_filter (eq_of_keys_nodup hnodup) p

omit [Sha256] in
theorem fingerprintOf_eq_getD (pf : Dictionary Str Str) (k : Str) :
    fingerprintOf pf.entries k = (pf.get? k).getD [] := by
  rw [fingerprintOf]
  cases hget : pf.get? k with
  | none =>
    have hlookup : pf.entries.lookup k = none := List.lookup_eq_none_iff.mpr fun e he => by
      simpa using (Dictionary.get?_eq_none_iff.mp hget e he).symm
    rw [hlookup]
  | some v =>
    rw [(holds_of_mem pf.nodup (Dictionary.get?_eq_some_iff.mp hget)).lookup]

omit [Sha256] in
theorem get?_of_perm {pf pf' : Dictionary Str Str} (h : pf'.entries.Perm pf.entries) (k : Str) :
    pf'.get? k = pf.get? k :=
  Option.ext fun v => by
    rw [Dictionary.get?_eq_some_iff, Dictionary.get?_eq_some_iff, h.mem_iff]

/-- The order of the entries does not matter. -/
theorem resolvedFingerprint_of_perm {pf pf' : Dictionary Str Str}
    (h : pf'.entries.Perm pf.entries) : resolvedFingerprint pf' = resolvedFingerprint pf := by
  have hsorted := sortedFingerprints_of_perm pf'.nodup h
  rw [resolvedFingerprint_eq, resolvedFingerprint_eq, lineHashes, lineHashes, hsorted]
  simp only [fingerprintOf_eq_getD, get?_of_perm h]

/-! ### Without blanks -/

omit [Sha256] in
/-- A blank value is read as no value. -/
theorem strip_fingerprintOf_withoutBlanks (pf : Dictionary Str Str) (k : Str) :
    Str.strip (fingerprintOf (withoutBlanks pf).entries k) =
      Str.strip (fingerprintOf pf.entries k) := by
  rw [fingerprintOf_eq_getD, fingerprintOf_eq_getD]
  have hget : ∀ v, (withoutBlanks pf).get? k = some v ↔ pf.get? k = some v ∧ Str.strip v ≠ [] := by
    intro v
    rw [Dictionary.get?_eq_some_iff, Dictionary.get?_eq_some_iff, withoutBlanks, List.mem_filter,
      hasText, decide_eq_true_eq]
  cases hv : pf.get? k with
  | none =>
    have hnone : (withoutBlanks pf).get? k = none := by
      refine Option.eq_none_iff_forall_ne_some.mpr fun v hsome => ?_
      rw [hget, hv] at hsome
      cases hsome.1
    rw [hnone]
  | some v =>
    by_cases hblank : Str.strip v = []
    · have hnone : (withoutBlanks pf).get? k = none := by
        refine Option.eq_none_iff_forall_ne_some.mpr fun w hsome => ?_
        rw [hget, hv] at hsome
        obtain ⟨heq, hne⟩ := hsome
        exact hne (Option.some.inj heq ▸ hblank)
      rw [hnone, Option.getD_none, Option.getD_some, hblank, Str.strip_nil]
    · rw [(hget v).mpr ⟨hv, hblank⟩]

omit [Sha256] in
theorem ne_nil_of_hasText {e : Str × Str} (h : hasText e) : e.2 ≠ [] := by
  rintro hnil
  rw [hasText, hnil] at h
  simp at h

omit [Sha256] in
theorem sorted_withoutBlanks (pf : Dictionary Str Str) :
    sortedFingerprints (withoutBlanks pf).entries =
      (sortedFingerprints pf.entries).filter hasText :=
  sortedFingerprints_filter pf.nodup hasText

omit [Sha256] in
theorem lineHashes_withoutBlanks (pf : Dictionary Str Str) :
    lineHashes (withoutBlanks pf).entries =
      ((sortedFingerprints pf.entries).filter hasText).filter isLineHash := by
  rw [lineHashes, sorted_withoutBlanks]
  refine List.filter_congr fun e he => ?_
  simp [ne_nil_of_hasText (List.mem_filter.mp he).2]

omit [Sha256] in
theorem pairs_withoutBlanks (pf : Dictionary Str Str) :
    (sortedFingerprints (withoutBlanks pf).entries).filter (fun e => e.2 ≠ []) =
      (sortedFingerprints pf.entries).filter hasText := by
  rw [sorted_withoutBlanks, List.filter_eq_self]
  intro e he
  simpa using ne_nil_of_hasText (List.mem_filter.mp he).2

/-- What is resolved without the blanks. -/
theorem resolvedFingerprint_withoutBlanks_eq (pf : Dictionary Str Str) :
    resolvedFingerprint (withoutBlanks pf) =
      resolutionOf (Str.strip (fingerprintOf pf.entries lineHashV1Key))
        (((sortedFingerprints pf.entries).filter hasText).filter isLineHash)
        (Str.strip (fingerprintOf pf.entries regionHashV1Key))
        (Str.strip (fingerprintOf pf.entries regionHashKey))
        ((sortedFingerprints pf.entries).filter hasText) := by
  rw [resolvedFingerprint_eq, lineHashes_withoutBlanks, pairs_withoutBlanks]
  simp only [strip_fingerprintOf_withoutBlanks]

omit [Sha256] in
/-- The value of a name, if it is not blank. -/
theorem find?_present (pf : Dictionary Str Str) (k : Str) :
    ((sortedFingerprints pf.entries).filter hasText).find? (fun e => e.1 = k) =
      if Str.strip (fingerprintOf pf.entries k) = [] then none
      else some (k, fingerprintOf pf.entries k) := by
  have hmem : ∀ e, e ∈ (sortedFingerprints pf.entries).filter hasText ↔
      pf.get? e.1 = some e.2 ∧ Str.strip e.2 ≠ [] := by
    intro e
    rw [List.mem_filter, sortedFingerprints, List.mem_insertionSort, Dictionary.get?_eq_some_iff,
      hasText, decide_eq_true_eq]
  rw [fingerprintOf_eq_getD]
  cases hfind : ((sortedFingerprints pf.entries).filter hasText).find? fun e => e.1 = k with
  | none =>
    cases hget : pf.get? k with
    | none => rfl
    | some v =>
      rw [Option.getD_some]
      have hblank : Str.strip v = [] := by
        by_contra hne
        simpa using List.find?_eq_none.mp hfind (k, v) ((hmem (k, v)).mpr ⟨hget, hne⟩)
      rw [if_pos hblank]
  | some e =>
    have hk : e.1 = k := by simpa using List.find?_some hfind
    obtain ⟨hget, hne⟩ := (hmem e).mp (List.mem_of_find?_eq_some hfind)
    rw [← hk, hget, Option.getD_some, if_neg hne]

/-- Without blanks, the documented precedence decides. -/
theorem resolvedFingerprint_withoutBlanks (pf : Dictionary Str Str) :
    resolvedFingerprint (withoutBlanks pf) = documentedFingerprint pf := by
  rw [resolvedFingerprint_withoutBlanks_eq, documentedFingerprint]
  simp only [find?_present]
  unfold resolutionOf
  by_cases hline : Str.strip (fingerprintOf pf.entries lineHashV1Key) = []
  · rw [if_neg (not_not.mpr hline), if_pos hline]
    rw [← List.head?_filter]
    cases ((sortedFingerprints pf.entries).filter hasText).filter isLineHash with
    | cons e rest => rfl
    | nil =>
      by_cases hregion : Str.strip (fingerprintOf pf.entries regionHashV1Key) = []
      · rw [if_pos hregion]
        by_cases hregion' : Str.strip (fingerprintOf pf.entries regionHashKey) = []
        · simp [hregion, hregion']
        · simp [hregion, hregion']
      · simp [hregion]
  · simp [hline]

/-! ### When blanks are passed over -/

omit [Sha256] in
theorem filter_hasText_eq_iff (pf : Dictionary Str Str) :
    (sortedFingerprints pf.entries).filter hasText =
        (sortedFingerprints pf.entries).filter (fun e => e.2 ≠ []) ↔
      ∀ e ∈ pf.entries, Str.strip e.2 = [] → e.2 = [] := by
  have hmem : ∀ e, e ∈ sortedFingerprints pf.entries ↔ e ∈ pf.entries := fun e => by
    rw [sortedFingerprints, List.mem_insertionSort]
  constructor
  · intro h e he hblank
    by_contra hne
    have hpair : e ∈ (sortedFingerprints pf.entries).filter hasText := by
      rw [h, List.mem_filter, hmem]
      exact ⟨he, by simpa using hne⟩
    have htext := (List.mem_filter.mp hpair).2
    rw [hasText, hblank] at htext
    simp at htext
  · intro h
    refine List.filter_congr fun e he => ?_
    rw [hasText, decide_eq_decide]
    refine not_congr ⟨h e ((hmem e).mp he), fun hnil => ?_⟩
    rw [hnil, Str.strip_nil]

omit [Sha256] in
theorem filter_isLineHash_eq (pf : Dictionary Str Str) :
    ((sortedFingerprints pf.entries).filter hasText).filter isLineHash =
      (lineHashes pf.entries).filter hasText := by
  rw [lineHashes, List.filter_filter, List.filter_filter]
  refine List.filter_congr fun e _ => ?_
  by_cases htext : hasText e = true
  · simp [htext, ne_nil_of_hasText htext]
  · simp [htext]

theorem resolutionOf_cons (e : Str × Str) (rest : List (Str × Str)) (regionHashV1 regionHash : Str)
    (pairs : List (Str × Str)) :
    resolutionOf [] (e :: rest) regionHashV1 regionHash pairs =
      (some (Sha256.hexdigest (Str.strip e.2)), .primaryLocationLineHash) := rfl

theorem resolutionOf_nil (regionHashV1 regionHash : Str) (pairs : List (Str × Str)) :
    resolutionOf [] [] regionHashV1 regionHash pairs =
      if regionHashV1 ≠ [] then (some (Sha256.hexdigest regionHashV1), .contextRegionHashV1)
      else if regionHash ≠ [] then (some (Sha256.hexdigest regionHash), .contextRegionHash)
      else if pairs = [] then (none, .none)
      else (some (Sha256.hexdigest (joinedFingerprints pairs)), .sortedAllKeysSha256) := rfl

/-- A blank line hash that comes first is another digest than anything without it. -/
theorem resolutionOf_blank_ne {e : Str × Str} (hblank : Str.strip e.2 = [])
    {lines rest : List (Str × Str)} (hlines : ∀ e ∈ lines, hasText e)
    {regionHashV1 regionHash : Str} {pairs pairs' : List (Str × Str)} :
    resolutionOf [] (e :: rest) regionHashV1 regionHash pairs ≠
      resolutionOf [] lines regionHashV1 regionHash pairs' := by
  intro h
  rw [resolutionOf_cons, hblank] at h
  cases lines with
  | cons e' lines =>
    rw [resolutionOf_cons] at h
    have hdigest := Option.some.inj (Prod.mk.inj h).1
    have hne := hlines e' List.mem_cons_self
    rw [hasText, ← Sha256.hexdigest_injective hdigest] at hne
    simp at hne
  | nil =>
    have hbranch := congrArg Prod.snd h
    rw [resolutionOf_nil] at hbranch
    split at hbranch
    · cases hbranch
    split at hbranch
    · cases hbranch
    split at hbranch <;> cases hbranch

/-- All entries and those that are not blank are resolved alike exactly if they are the same. -/
theorem resolutionOf_pairs_eq_iff {pairs pairs' : List (Str × Str)} (hsub : pairs'.Sublist pairs) :
    resolutionOf [] [] [] [] pairs = resolutionOf [] [] [] [] pairs' ↔ pairs' = pairs := by
  rw [resolutionOf_nil, resolutionOf_nil]
  constructor
  · intro h
    by_cases hnil : pairs = []
    · rw [hnil] at hsub ⊢
      exact List.sublist_nil.mp hsub
    by_cases hnil' : pairs' = []
    · simp [hnil, hnil'] at h
    simp only [hnil, hnil', ne_eq, not_true_eq_false, if_false, Prod.mk.injEq,
      Option.some.injEq] at h
    exact eq_of_joinedFingerprints_eq hsub (Sha256.hexdigest_injective h.1).symm
  · rintro rfl
    rfl

/-- A dictionary is resolved as without its blanks exactly if none of them is reached. -/
theorem resolvedFingerprint_eq_withoutBlanks_iff (pf : Dictionary Str Str) :
    resolvedFingerprint pf = resolvedFingerprint (withoutBlanks pf) ↔ BlanksPassedOver pf := by
  rw [resolvedFingerprint_eq, resolvedFingerprint_withoutBlanks_eq, filter_isLineHash_eq,
    BlanksPassedOver]
  by_cases hline : Str.strip (fingerprintOf pf.entries lineHashV1Key) = []
  swap
  · exact iff_of_true (by simp [resolutionOf, hline]) (.inl hline)
  rw [hline]
  cases hlines : lineHashes pf.entries with
  | cons e rest =>
    by_cases hblank : Str.strip e.2 = []
    · have hcond : ¬ (([] : Str) ≠ [] ∨ Str.strip e.2 ≠ []) := by simp [hblank]
      exact iff_of_false (resolutionOf_blank_ne hblank fun x hx => (List.mem_filter.mp hx).2) hcond
    · have hfilter : (e :: rest).filter hasText = e :: rest.filter hasText :=
        List.filter_cons_of_pos (by simpa [hasText] using hblank)
      rw [hfilter]
      exact iff_of_true rfl (.inr hblank)
  | nil =>
    rw [List.filter_nil]
    by_cases hregion : Str.strip (fingerprintOf pf.entries regionHashV1Key) = []
    swap
    · exact iff_of_true (by simp [resolutionOf_nil, hregion]) (.inr (.inl hregion))
    by_cases hregion' : Str.strip (fingerprintOf pf.entries regionHashKey) = []
    swap
    · exact iff_of_true (by simp [resolutionOf_nil, hregion, hregion'])
        (.inr (.inr (.inl hregion')))
    have hsub : ((sortedFingerprints pf.entries).filter hasText).Sublist
        ((sortedFingerprints pf.entries).filter fun e => e.2 ≠ []) :=
      List.monotone_filter_right _ fun e htext => by simpa using ne_nil_of_hasText htext
    rw [hregion, hregion', resolutionOf_pairs_eq_iff hsub, filter_hasText_eq_iff]
    simp

/-- A dictionary is resolved by the documented precedence, as without its blank values and in any
order of its entries, exactly if no blank value is reached. -/
theorem partial_fingerprints_iff (pf : Dictionary Str Str) :
    (resolvedFingerprint pf = documentedFingerprint pf ∧
      resolvedFingerprint pf = resolvedFingerprint (withoutBlanks pf) ∧
      ∀ pf' : Dictionary Str Str, pf'.entries.Perm pf.entries →
        resolvedFingerprint pf' = resolvedFingerprint pf) ↔ BlanksPassedOver pf := by
  rw [← resolvedFingerprint_withoutBlanks, ← resolvedFingerprint_eq_withoutBlanks_iff]
  exact ⟨fun h => h.1, fun h => ⟨h, h, fun pf' hperm => resolvedFingerprint_of_perm hperm⟩⟩

end Resolved

/-! ### A blank line hash -/

/-- A blank line hash before a region hash. -/
def blankLineHash : Dictionary Str Str where
  entries := [(str "primaryLocationLineHash", str " "), (regionHashV1Key, str "abc")]
  nodup := by decide

attribute [local instance] unaryDigest in
/-- A blank line hash hides a region hash. -/
theorem not_partial_fingerprints : ¬ ∀ pf : Dictionary Str Str,
    resolvedFingerprint pf = documentedFingerprint pf ∧
      resolvedFingerprint pf = resolvedFingerprint (withoutBlanks pf) ∧
      ∀ pf' : Dictionary Str Str, pf'.entries.Perm pf.entries →
        resolvedFingerprint pf' = resolvedFingerprint pf := by
  intro h
  have hblank := (resolvedFingerprint_eq_withoutBlanks_iff _).mp (h blankLineHash).2.1
  have hlines : lineHashes blankLineHash.entries = [(str "primaryLocationLineHash", str " ")] := by
    decide
  rw [BlanksPassedOver, hlines] at hblank
  rcases hblank with hline | hfirst
  · exact hline (by decide)
  · exact hfirst (by decide)

end Vat
