import Mathlib.Data.List.Nodup
import Mathlib.Data.List.Perm.Basic

/-!
# Claims on keys

Requests carry keys, and only the first request with a key takes effect: it claims the key, in the
same transaction as its effect, and later requests with the key are duplicates.

A request is about some item and comes in over some channel. Where the key is a function of the item
and the channel, requests about an item over one channel take effect at most once between them; over
two channels they may take effect once each.

## Main definitions

* `claims`: the requests of a run that claim their key.
* `Fresh`: a request that claims its key after others.
* `claimsUntil`: the claims of a batch that ends at the first of them that fails.
* `claimsOfBatches`: the claims of batches one after the other.

## Main results

* `mem_claims`: a request is a claim at some point of the run.
* `mem_claims_filter`: the same among the requests that pass a test.
* `nodup_map_key_claims`: no key is claimed twice.
* `nodup_map_claims_iff`: items take effect at most once exactly if their claims come in over one
  channel.
-/

namespace Transition

variable {ρ κ ε γ : Type*} [DecidableEq κ] (key : ρ → κ)

/-- The requests that claim their key, which is neither taken before the run nor the key of an
earlier request. -/
def claims : List κ → List ρ → List ρ
  | _, [] => []
  | taken, r :: rs =>
    if key r ∈ taken then claims taken rs else r :: claims (key r :: taken) rs

/-- The requests that claim their key up to the first of them that fails, which leaves its key
free. -/
def claimsUntil (fails : ρ → Bool) : List κ → List ρ → List ρ
  | _, [] => []
  | taken, r :: rs =>
    if key r ∈ taken then claimsUntil fails taken rs
    else if fails r then []
    else r :: claimsUntil fails (key r :: taken) rs

/-- The keys taken after some claims. -/
def takenAfter (taken : List κ) (cs : List ρ) : List κ := (cs.map key).reverse ++ taken

/-- The claims of batches, each of which ends where one of its claims fails. -/
def claimsOfBatches (fails : ρ → Bool) : List κ → List (List ρ) → List ρ
  | _, [] => []
  | taken, rs :: batches =>
    claimsUntil key fails taken rs ++
      claimsOfBatches fails (takenAfter key taken (claimsUntil key fails taken rs)) batches

/-- A key that is neither taken nor the key of one of the requests before. -/
def Fresh (taken : List κ) (before : List ρ) (k : κ) : Prop :=
  k ∉ taken ∧ ∀ r ∈ before, key r ≠ k

variable {key} {taken : List κ} {rs : List ρ}

/-- Which keys are taken matters only as a set. -/
theorem claims_congr {taken' : List κ} (h : ∀ k, k ∈ taken ↔ k ∈ taken') :
    claims key taken rs = claims key taken' rs := by
  induction rs generalizing taken taken' with
  | nil => rfl
  | cons r rs ih =>
    have hcons : ∀ k, k ∈ key r :: taken ↔ k ∈ key r :: taken' := fun k => by simp [h k]
    rw [claims, claims, ih h, ih hcons]
    simp only [h (key r)]

/-- The requests that claim their key, by what comes before them. -/
theorem mem_claims {r : ρ} : r ∈ claims key taken rs ↔
    ∃ before after, rs = before ++ r :: after ∧ Fresh key taken before (key r) := by
  induction rs generalizing taken with
  | nil => simp [claims]
  | cons a rs ih =>
    have step : (∃ before after, a :: rs = before ++ r :: after ∧ Fresh key taken before (key r)) ↔
        (r = a ∧ key r ∉ taken) ∨ ∃ before after, rs = before ++ r :: after ∧
          Fresh key (key a :: taken) before (key r) := by
      constructor
      · rintro ⟨_ | ⟨b, before⟩, after, h, hfresh, hbefore⟩
        · obtain ⟨rfl, -⟩ := List.cons.inj h
          exact .inl ⟨rfl, hfresh⟩
        · obtain ⟨rfl, hrs⟩ := List.cons.inj h
          refine .inr ⟨before, after, hrs, ?_, fun r hr => hbefore r (List.mem_cons_of_mem _ hr)⟩
          rw [List.mem_cons, not_or]
          exact ⟨fun h => hbefore a List.mem_cons_self h.symm, hfresh⟩
      · rintro (⟨rfl, h⟩ | ⟨before, after, rfl, hfresh, hbefore⟩)
        · exact ⟨[], rs, rfl, h, by simp⟩
        · rw [List.mem_cons, not_or] at hfresh
          refine ⟨a :: before, after, rfl, hfresh.2, fun r hr => ?_⟩
          rcases List.mem_cons.mp hr with rfl | hr
          · exact fun h => hfresh.1 h.symm
          · exact hbefore r hr
    rw [step, ← ih, claims]
    by_cases ha : key a ∈ taken
    · have same : claims key (key a :: taken) rs = claims key taken rs :=
        claims_congr fun k => ⟨fun h => (List.mem_cons.mp h).elim (fun h => h ▸ ha) id,
          List.mem_cons_of_mem _⟩
      rw [if_pos ha, same]
      constructor
      · exact .inr
      · rintro (⟨rfl, h⟩ | h)
        · exact absurd ha h
        · exact h
    · rw [if_neg ha, List.mem_cons]
      constructor
      · rintro (rfl | h)
        · exact .inl ⟨rfl, ha⟩
        · exact .inr h
      · rintro (⟨rfl, -⟩ | h)
        · exact .inl rfl
        · exact .inr h

/-- The claims among the requests that pass a test, by what comes before them in the run. -/
theorem mem_claims_filter {p : ρ → Bool} {r : ρ} : r ∈ claims key taken (rs.filter p) ↔
    ∃ before after, rs = before ++ r :: after ∧ p r ∧ key r ∉ taken ∧
      ∀ r' ∈ before, p r' → key r' ≠ key r := by
  rw [mem_claims]
  constructor
  · rintro ⟨before, after, h, hfresh, hbefore⟩
    obtain ⟨rs₁, rs₂, rfl, rfl, hrs₂⟩ := List.filter_eq_append_iff.mp h
    obtain ⟨rs₃, rs₄, rfl, hrs₃, hr, -⟩ := List.filter_eq_cons_iff.mp hrs₂
    refine ⟨rs₁ ++ rs₃, rs₄, by simp, hr, hfresh, fun r' hr' hp => ?_⟩
    rcases List.mem_append.mp hr' with hmem | hmem
    · exact hbefore r' (List.mem_filter.mpr ⟨hmem, hp⟩)
    · exact absurd hp (hrs₃ r' hmem)
  · rintro ⟨before, after, rfl, hr, hfresh, hbefore⟩
    refine ⟨before.filter p, after.filter p, by simp [hr], hfresh, fun r' hr' => ?_⟩
    obtain ⟨hmem, hp⟩ := List.mem_filter.mp hr'
    exact hbefore r' hmem hp

/-- No key is claimed twice. -/
theorem nodup_map_key_claims (taken : List κ) (rs : List ρ) :
    ((claims key taken rs).map key).Nodup := by
  induction rs generalizing taken with
  | nil => simp [claims]
  | cons r rs ih =>
    rw [claims]
    split
    · exact ih taken
    · rw [List.map_cons, List.nodup_cons]
      refine ⟨fun hmem => ?_, ih _⟩
      obtain ⟨r', hr', heq⟩ := List.mem_map.mp hmem
      obtain ⟨before, after, -, hfresh, -⟩ := mem_claims.mp hr'
      exact hfresh (by simp [heq])

/-- Where the key is a function of the item and the channel, the claims that pass a test are about
different items exactly if no item comes in over two channels. -/
theorem nodup_map_claims_iff {item : ρ → ε} {channel : ρ → γ}
    (hkey : ∀ r r', item r = item r' → channel r = channel r' → key r = key r') (test : ρ → Bool) :
    (((claims key taken rs).filter test).map item).Nodup ↔
      ∀ r ∈ claims key taken rs, ∀ r' ∈ claims key taken rs, test r → test r' →
        item r = item r' → channel r = channel r' := by
  have hnodup : ((claims key taken rs).map key).Nodup := nodup_map_key_claims taken rs
  have hinj := List.inj_on_of_nodup_map hnodup
  rw [List.nodup_map_iff_inj_on (hnodup.of_map.filter test)]
  simp only [List.mem_filter, and_imp]
  constructor
  · intro h r hr r' hr' ht ht' hitem
    rw [h r hr ht r' hr' ht' hitem]
  · intro h r hr ht r' hr' ht' hitem
    exact hinj hr hr' (hkey r r' hitem (h r hr r' hr' ht ht' hitem))

end Transition
