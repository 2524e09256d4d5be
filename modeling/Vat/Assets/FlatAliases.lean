import Vat.Assets.AliasTable
import Vat.Redirect.Rooted
import Vat.Transition.Run
import Mathlib.Data.List.Dedup

/-!
# A flat alias table

The alias table is a redirection of asset ids. While it is flat, the resolver takes at most one hop,
resolving twice changes nothing and the single-hop map of the feed materializer agrees with the
resolver. Grouping, unmerge, deletion and the automatic merge keep it flat; the alias of a tagged
reference keeps it flat exactly when its goal has no alias and the reference is no alias's goal.

## Main definitions

* `aliasOf`: the alias table as a redirection.
* `CleanAliases`: stripped ids that are not blank, and no self-alias.
* `ResolvesExactly`: what the readers of the table rely on.
* `AliasOp.KeepsFlat`: the condition on a call.

## Main results

* `resolvesExactly_iff_flat`.
* `flat_aliasStep_iff`: a call on a flat table leaves a flat table exactly when it meets the
  condition.
* `resolves_exactly_iff`: runs.
-/

namespace Vat

open Relational Transition Redirect

/-- Where the alias row of an asset id leads. -/
def aliasOf (t : Table AssetAlias) (assetId : Str) : Option Str :=
  (t.get? assetId).map AssetAlias.canonicalAssetId

/-- An alias row between two stripped ids that are not blank and not equal. -/
structure AssetAlias.Clean (row : AssetAlias) : Prop where
  source : Str.strip row.sourceAssetId = row.sourceAssetId
  canonical : Str.strip row.canonicalAssetId = row.canonicalAssetId
  source_ne : row.sourceAssetId ≠ []
  canonical_ne : row.canonicalAssetId ≠ []
  irrefl : row.sourceAssetId ≠ row.canonicalAssetId

/-- All rows are clean. -/
def CleanAliases (t : Table AssetAlias) : Prop := ∀ row ∈ t.rows, row.Clean

theorem aliasOf_eq_some {t : Table AssetAlias} {a b : Str} (h : aliasOf t a = some b) :
    ∃ row ∈ t.rows, row.sourceAssetId = a ∧ row.canonicalAssetId = b := by
  obtain ⟨row, hget, rfl⟩ := Option.map_eq_some_iff.mp h
  obtain ⟨hrow, hkey⟩ := Table.get?_eq_some_iff.mp hget
  exact ⟨row, hrow, hkey, rfl⟩

theorem CleanAliases.irrefl {t : Table AssetAlias} (h : CleanAliases t) (a : Str) :
    aliasOf t a ≠ some a := by
  intro ha
  obtain ⟨row, hrow, hsource, hcanonical⟩ := aliasOf_eq_some ha
  exact (h row hrow).irrefl (hsource.trans hcanonical.symm)

/-! ### The readers -/

/-- The resolver takes the one hop of a flat table. -/
theorem resolve_of_flat {t : Table AssetAlias} (hclean : CleanAliases t) (hflat : Flat (aliasOf t))
    (assetId : Str) :
    resolveCanonicalAssetId t assetId = hop (aliasOf t) (Str.strip assetId) := by
  cases hget : t.get? (Str.strip assetId) with
  | none =>
    rw [resolveCanonicalAssetId_of_get?_none hget, hop_of_none]
    rw [aliasOf, hget, Option.map_none]
  | some row =>
    obtain ⟨hrow, hkey⟩ := Table.get?_eq_some_iff.mp hget
    have hc := hclean row hrow
    change row.sourceAssetId = Str.strip assetId at hkey
    have hnext : aliasOf t (Str.strip assetId) = some row.canonicalAssetId := by
      rw [aliasOf, hget, Option.map_some]
    have hend : t.get? row.canonicalAssetId = none :=
      Option.map_eq_none_iff.mp (hflat _ _ hnext)
    rw [hop_of_some hnext]
    have hne : row.canonicalAssetId ≠ Str.strip assetId := hkey ▸ hc.irrefl.symm
    simp only [resolveCanonicalAssetId, ← hkey, hc.source_ne, followAliases, List.not_mem_nil,
      ↓reduceIte, hkey ▸ hget, hc.canonical, hc.canonical_ne, false_or, hkey ▸ hne,
      List.mem_singleton, hend]

/-- In a list of pairs with different keys, a key is looked up where it stands. -/
private theorem lookup_of_mem {pairs : List (Str × Str)} (hn : (pairs.map Prod.fst).Nodup)
    {a b : Str} (h : (a, b) ∈ pairs) : pairs.lookup a = some b := by
  induction pairs with
  | nil => cases h
  | cons p pairs ih =>
    rw [List.map_cons, List.nodup_cons] at hn
    rcases List.mem_cons.mp h with rfl | h
    · simp
    · have hne : a ≠ p.1 := fun heq => hn.1 (heq ▸ List.mem_map_of_mem h)
      rw [List.lookup_cons, beq_eq_false_iff_ne.mpr hne]
      exact ih hn.2 h

/-- The map of the feed materializer holds the rows of the table. -/
theorem lookup_feedAliasMap {t : Table AssetAlias} (hclean : CleanAliases t) (a : Str) :
    (feedAliasMap t).reverse.lookup a = aliasOf t a := by
  have hmap : feedAliasMap t =
      t.rows.map fun row => (row.sourceAssetId, row.canonicalAssetId) := by
    rw [feedAliasMap, ← List.filterMap_eq_map]
    refine List.filterMap_congr fun row hrow => ?_
    have hc := hclean row hrow
    simp [hc.source, hc.canonical, hc.source_ne, hc.canonical_ne]
  have hkeys : ((feedAliasMap t).reverse.map Prod.fst).Nodup := by
    rw [List.map_reverse, List.nodup_reverse, hmap, List.map_map]
    exact t.pk_nodup
  cases ha : aliasOf t a with
  | some b =>
    obtain ⟨row, hrow, rfl, rfl⟩ := aliasOf_eq_some ha
    refine lookup_of_mem hkeys (List.mem_reverse.mpr ?_)
    rw [hmap]
    exact List.mem_map_of_mem hrow
  | none =>
    rw [List.lookup_eq_none_iff]
    intro p hp
    rw [hmap, List.mem_reverse] at hp
    obtain ⟨row, hrow, rfl⟩ := List.mem_map.mp hp
    have hne := Table.get?_eq_none_iff.mp (Option.map_eq_none_iff.mp ha) row hrow
    exact bne_iff_ne.mpr (Ne.symm hne)

/-- What the readers of the table rely on: the resolver reaches an id without an alias in fewer hops
than its bound, resolving twice changes nothing, and one hop leads to the same id. -/
def ResolvesExactly (t : Table AssetAlias) : Prop :=
  ∀ assetId,
    (∃ hops < 16, resolveCanonicalAssetId t assetId =
      (hop (aliasOf t))^[hops] (Str.strip assetId)) ∧
    aliasOf t (resolveCanonicalAssetId t assetId) = none ∧
    resolveCanonicalAssetId t (resolveCanonicalAssetId t assetId) =
      resolveCanonicalAssetId t assetId ∧
    feedCanonicalAsset t (Str.strip assetId) = resolveCanonicalAssetId t assetId

theorem strip_hop {t : Table AssetAlias} (hclean : CleanAliases t) (assetId : Str) :
    Str.strip (hop (aliasOf t) (Str.strip assetId)) = hop (aliasOf t) (Str.strip assetId) := by
  cases ha : aliasOf t (Str.strip assetId) with
  | none => rw [hop_of_none ha, Str.strip_strip]
  | some b =>
    obtain ⟨row, hrow, -, rfl⟩ := aliasOf_eq_some ha
    rw [hop_of_some ha]
    exact (hclean row hrow).canonical

/-- Only a blank id resolves to the blank id. -/
theorem strip_eq_nil_of_resolve {t : Table AssetAlias} (hclean : CleanAliases t)
    (hflat : Flat (aliasOf t)) {assetId : Str} (h : resolveCanonicalAssetId t assetId = []) :
    Str.strip assetId = [] := by
  rw [resolve_of_flat hclean hflat] at h
  cases ha : aliasOf t (Str.strip assetId) with
  | none => rwa [hop_of_none ha] at h
  | some b =>
    obtain ⟨row, hrow, -, rfl⟩ := aliasOf_eq_some ha
    rw [hop_of_some ha] at h
    exact absurd h (hclean row hrow).canonical_ne

theorem feedCanonicalAsset_eq_hop {t : Table AssetAlias} (hclean : CleanAliases t) (a : Str) :
    feedCanonicalAsset t a = hop (aliasOf t) a := by
  rw [feedCanonicalAsset, lookup_feedAliasMap hclean, hop]

/-- The readers get what they rely on exactly from a flat table. -/
theorem resolvesExactly_iff_flat {t : Table AssetAlias} (hclean : CleanAliases t) :
    ResolvesExactly t ↔ Flat (aliasOf t) := by
  constructor
  · intro h a b hab
    obtain ⟨row, hrow, rfl, rfl⟩ := aliasOf_eq_some hab
    obtain ⟨-, hend, -, hfeed⟩ := h row.sourceAssetId
    rw [feedCanonicalAsset_eq_hop hclean, (hclean row hrow).source, hop_of_some hab] at hfeed
    rwa [hfeed]
  · intro hflat assetId
    have hresolve := resolve_of_flat hclean hflat
    refine ⟨⟨1, by omega, ?_⟩, ?_, ?_, ?_⟩
    · rw [hresolve, Function.iterate_one]
    · rw [hresolve]
      exact flat_iff_hop.mp hflat _
    · rw [hresolve (resolveCanonicalAssetId t assetId), hresolve assetId, strip_hop hclean,
        hflat.hop_hop]
    · rw [feedCanonicalAsset_eq_hop hclean, hresolve]

/-! ### The writes -/

/-- Removed rows leave no new alias. -/
theorem aliasOf_filter {t : Table AssetAlias} {p : AssetAlias → Bool} {a b : Str}
    (h : aliasOf (t.filter p) a = some b) : aliasOf t a = some b := by
  rw [aliasOf, Table.get?_filter] at h
  obtain ⟨row, hrow, rfl⟩ := Option.map_eq_some_iff.mp h
  rw [aliasOf, (Option.filter_eq_some_iff.mp hrow).1, Option.map_some]

theorem aliasOf_putAssetAlias (t : Table AssetAlias) (source canonical : Str)
    (createdBy : Option Str) :
    aliasOf (putAssetAlias t source canonical createdBy) =
      Function.update (aliasOf t) source (some canonical) := by
  funext a
  by_cases ha : a = source
  · subst ha
    rw [Function.update_self, aliasOf, putAssetAlias]
    refine (congrArg _ (Table.get?_upsert_self t (⟨a, canonical, createdBy⟩ : AssetAlias) _ _)).trans ?_
    cases t.get? a <;> rfl
  · rw [Function.update_of_ne ha, aliasOf, putAssetAlias]
    exact congrArg _ (Table.get?_upsert_ne t (r := ⟨source, canonical, createdBy⟩) _ _ ha)

theorem aliasOf_repointAliases (t : Table AssetAlias) {old new : Str} (hold : Str.strip old ≠ [])
    (hnew : Str.strip new ≠ []) (hne : Str.strip old ≠ Str.strip new) (a : Str) :
    aliasOf (repointAliases t old new) a =
      if aliasOf t a = some (Str.strip old) ∧ a ≠ Str.strip new then some (Str.strip new)
      else aliasOf t a := by
  have hrow : ∀ row, t.get? a = some row → row.sourceAssetId = a := fun row => Table.pk_of_get?
  have hget : aliasOf (repointAliases t old new) a = (t.get? a).map fun row =>
      (row.repoint (Str.strip old) (Str.strip new)).canonicalAssetId := by
    simp only [repointAliases, hold, hnew, hne, or_self, ↓reduceIte, aliasOf, Table.get?_mapRows,
      Option.map_map]
    rfl
  rw [hget]
  split_ifs with h
  · obtain ⟨row, hget, hcanonical⟩ := Option.map_eq_some_iff.mp h.1
    rw [hget, Option.map_some, AssetAlias.repoint, if_pos ⟨hcanonical, hrow row hget ▸ h.2⟩]
  · refine Option.map_congr fun row hget => ?_
    rw [AssetAlias.repoint, if_neg]
    rintro ⟨hcanonical, hne'⟩
    refine h ⟨?_, hrow row hget ▸ hne'⟩
    rw [aliasOf, Option.mem_def.mp hget, Option.map_some, hcanonical]

/-! ### Merges -/

section Writers

variable [Unicode]

omit [Unicode] in
/-- A clean and flat table. -/
structure CanonicalAliases (t : Table AssetAlias) : Prop where
  clean : CleanAliases t
  flat : Flat (aliasOf t)

theorem registerForMerge_assetAliases (cfg : Settings) (now : Instant) (db : Db)
    (oldAssetId newAssetId : Str) :
    (registerDecisionAliasesForAssetMerge cfg now db oldAssetId newAssetId).assetAliases =
      db.assetAliases := by
  unfold registerDecisionAliasesForAssetMerge
  dsimp only
  split_ifs
  · rfl
  · generalize db.decisions.rows = ds
    induction ds generalizing db with
    | nil => rfl
    | cons d ds ih =>
      rw [List.foldl_cons, ih]
      unfold aliasMergedDecision
      split
      · rfl
      · unfold registerSubjectAlias
        split_ifs <;> rfl

/-- What an upsert writes to the alias table. -/
theorem upsertAssetAlias_assetAliases {cfg : Settings} {now : Instant} {db db' : Db}
    {source canonical : Str} {createdBy : Option Str}
    (h : upsertAssetAlias cfg now db source canonical createdBy = some db') :
    (Str.strip source ≠ [] ∧ Str.strip canonical ≠ [] ∧ Str.strip source ≠ Str.strip canonical) ∧
      db'.assetAliases =
        putAssetAlias db.assetAliases (Str.strip source) (Str.strip canonical) createdBy := by
  unfold upsertAssetAlias at h
  dsimp only at h
  split_ifs at h with hbad hchanged
  · cases h
    rw [not_or, not_or] at hbad
    exact ⟨hbad, registerForMerge_assetAliases cfg now _ _ _⟩
  · cases h
    rw [not_or, not_or] at hbad
    exact ⟨hbad, rfl⟩

omit [Unicode] in
theorem CleanAliases.put {t : Table AssetAlias} (h : CleanAliases t) {source canonical : Str}
    (hs : Str.strip source ≠ []) (hc : Str.strip canonical ≠ [])
    (hne : Str.strip source ≠ Str.strip canonical) (createdBy : Option Str) :
    CleanAliases (putAssetAlias t (Str.strip source) (Str.strip canonical) createdBy) := by
  intro row hrow
  rcases Table.mem_upsert hrow with hrow | rfl | ⟨row', hrow', hkey, rfl⟩
  · exact h row hrow
  · exact ⟨Str.strip_strip _, Str.strip_strip _, hs, hc, hne⟩
  · have hkey' : row'.sourceAssetId = Str.strip source := hkey
    have hold := h row' hrow'
    exact ⟨hold.source, Str.strip_strip _, hold.source_ne, hc, hkey' ▸ hne⟩

omit [Unicode] in
theorem CleanAliases.repoint {t : Table AssetAlias} (h : CleanAliases t) (old new : Str) :
    CleanAliases (repointAliases t old new) := by
  unfold repointAliases
  dsimp only
  split_ifs with hbad
  · exact h
  · intro row hrow
    obtain ⟨row', hrow', rfl⟩ := List.mem_map.mp hrow
    have hold := h row' hrow'
    rw [not_or, not_or] at hbad
    unfold AssetAlias.repoint
    split_ifs with hp
    · exact ⟨hold.source, Str.strip_strip _, hold.source_ne, hbad.2.1, hp.2⟩
    · exact hold

/-- A merge redirects the source and what leads to it. -/
theorem mergeAsset_spec {cfg : Settings} {now : Instant} {db db' : Db} {source canonical : Str}
    {createdBy : Option Str} (hclean : CleanAliases db.assetAliases)
    (h : mergeAsset cfg now db source canonical createdBy = some db') :
    CleanAliases db'.assetAliases ∧ Str.strip source ≠ Str.strip canonical ∧
      (aliasOf db.assetAliases (Str.strip canonical) = none →
        aliasOf db'.assetAliases =
          merge (aliasOf db.assetAliases) (Str.strip source) (Str.strip canonical)) := by
  obtain ⟨db₁, hup, h⟩ := Option.bind_eq_some_iff.mp h
  cases h
  obtain ⟨⟨hs, hc, hne⟩, htable⟩ := upsertAssetAlias_assetAliases hup
  refine ⟨?_, hne, fun hroot => funext fun a => ?_⟩
  · change CleanAliases (repointAliases db₁.assetAliases source canonical)
    rw [htable]
    exact (hclean.put hs hc hne createdBy).repoint source canonical
  · change aliasOf (repointAliases db₁.assetAliases source canonical) a = _
    rw [aliasOf_repointAliases _ hs hc hne, htable, aliasOf_putAssetAlias, merge]
    by_cases ha : a = Str.strip source
    · rw [ha, Function.update_self, if_pos rfl]
      simp [hne.symm]
    · rw [Function.update_of_ne ha, if_neg ha]
      by_cases hac : a = Str.strip canonical
      · simp [hac, hroot]
      · simp [hac]

theorem CanonicalAliases.mergeAsset {cfg : Settings} {now : Instant} {db db' : Db}
    {source canonical : Str} {createdBy : Option Str} (hdb : CanonicalAliases db.assetAliases)
    (hroot : aliasOf db.assetAliases (Str.strip canonical) = none)
    (h : Vat.mergeAsset cfg now db source canonical createdBy = some db') :
    CanonicalAliases db'.assetAliases := by
  obtain ⟨hclean, hne, hmerge⟩ := mergeAsset_spec hdb.clean h
  refine ⟨hclean, ?_⟩
  rw [hmerge hroot]
  exact flat_merge hdb.flat hne hroot

/-! ### Automatic merges -/

omit [Unicode] in
theorem leastText_mem {texts : List Str} {s : Str} (h : leastText texts = some s) : s ∈ texts := by
  induction texts generalizing s with
  | nil => cases h
  | cons t rest ih =>
    unfold leastText at h
    split at h
    · obtain rfl := Option.some.inj h
      exact List.mem_cons_self
    · next u hu =>
      split_ifs at h
      · obtain rfl := Option.some.inj h
        exact List.mem_cons_of_mem _ (ih hu)
      · obtain rfl := Option.some.inj h
        exact List.mem_cons_self

theorem canonicalPick_mem {assetIds : List Str} (h : canonicalPick assetIds ≠ []) :
    canonicalPick assetIds ∈ assetIds := by
  unfold canonicalPick at h ⊢
  dsimp only at h ⊢
  generalize hpick : Option.or _ _ = pick at h ⊢
  cases pick with
  | none => exact absurd rfl h
  | some s =>
    rcases Option.or_eq_some_iff.mp hpick with hs | ⟨-, hs⟩
    · exact List.mem_of_mem_filter (List.mem_of_mem_filter (leastText_mem hs))
    · exact List.mem_of_mem_filter (leastText_mem hs)

omit [Unicode] in
/-- The blank id has no alias. -/
theorem CleanAliases.blank {t : Table AssetAlias} (h : CleanAliases t) : aliasOf t [] = none := by
  cases ha : aliasOf t [] with
  | none => rfl
  | some b =>
    obtain ⟨row, hrow, hsource, -⟩ := aliasOf_eq_some ha
    exact absurd hsource (h row hrow).source_ne

variable {cfg : Settings} {now : Instant} {createdBy : Option Str}

/-- Merging ids without aliases keeps the table canonical, and other ids without aliases are left
without. -/
theorem mergeKind_spec {db db' : Db} {kindIds : List Str} (hdb : CanonicalAliases db.assetAliases)
    (hroots : ∀ aid ∈ kindIds, aliasOf db.assetAliases (Str.strip aid) = none)
    (h : mergeKind cfg now createdBy db kindIds = some db') :
    CanonicalAliases db'.assetAliases ∧
      ∀ r, aliasOf db.assetAliases r = none → (∀ aid ∈ kindIds, Str.strip aid ≠ r) →
        aliasOf db'.assetAliases r = none := by
  unfold mergeKind at h
  dsimp only at h
  split_ifs at h with hskip
  · cases h
    exact ⟨hdb, fun r hr _ => hr⟩
  · rw [not_or] at hskip
    have hroot := hroots _ (canonicalPick_mem hskip.2)
    -- The picked id is never a source, so it stays without an alias.
    have hfold := @foldlM_induction Db Str
      (fun db₁ => CanonicalAliases db₁.assetAliases ∧
        aliasOf db₁.assetAliases (Str.strip (canonicalPick kindIds)) = none ∧
        ∀ r, aliasOf db.assetAliases r = none → (∀ aid ∈ kindIds, Str.strip aid ≠ r) →
          aliasOf db₁.assetAliases r = none) _ kindIds ?_ db db'
      ⟨hdb, hroot, fun r hr _ => hr⟩ h
    · exact ⟨hfold.1, hfold.2.2⟩
    · rintro db₁ db₂ aid haid ⟨hcanon, hpick, hother⟩ hstep
      split_ifs at hstep with hself
      · cases hstep
        exact ⟨hcanon, hpick, hother⟩
      · obtain ⟨-, hne, hmerge⟩ := mergeAsset_spec hcanon.clean hstep
        refine ⟨hcanon.mergeAsset hpick hstep, ?_, fun r hr hids => ?_⟩
        · rw [hmerge hpick]
          exact merge_root hpick hne.symm
        · rw [hmerge hpick]
          exact merge_root (hother r hr hids) (hids aid haid).symm

omit [Unicode] in
/-- The canonical ids of a cluster have no aliases, and are stripped or blank. -/
theorem canonicals_root {t : Table AssetAlias} (ht : CanonicalAliases t) (cluster : DigestCluster) :
    ∀ aid ∈ cluster.canonicals t,
      aliasOf t (Str.strip aid) = none ∧ (Str.strip aid = aid ∨ Str.strip aid = []) := by
  intro aid haid
  obtain ⟨raw, -, rfl⟩ := List.mem_map.mp (List.mem_dedup.mp haid)
  have hresolve := resolve_of_flat ht.clean ht.flat raw
  dsimp only
  split_ifs with hblank
  · have hraw := strip_eq_nil_of_resolve ht.clean ht.flat hblank
    exact ⟨hraw ▸ ht.clean.blank, Or.inr hraw⟩
  · rw [hresolve, strip_hop ht.clean]
    exact ⟨flat_iff_hop.mp ht.flat _, Or.inl rfl⟩

/-- Merging the canonical ids kind by kind keeps the table canonical: an id has one kind only. -/
theorem mergeKinds_canonical {cluster : DigestCluster} {ids : List Str} {kinds : List Str}
    (hnodup : kinds.Nodup)
    (hstrip : ∀ aid ∈ ids, Str.strip aid = aid ∨ Str.strip aid = []) {db db' : Db}
    (hdb : CanonicalAliases db.assetAliases)
    (hroots : ∀ aid ∈ ids, cluster.kind aid ∈ kinds →
      aliasOf db.assetAliases (Str.strip aid) = none)
    (h : kinds.foldlM
      (fun db kind =>
        mergeKind cfg now createdBy db (ids.filter fun aid => cluster.kind aid = kind)) db =
        some db') :
    CanonicalAliases db'.assetAliases := by
  induction kinds generalizing db with
  | nil =>
    cases h
    exact hdb
  | cons kind kinds ih =>
    rw [List.foldlM_cons] at h
    obtain ⟨db₁, hkind, h⟩ := Option.bind_eq_some_iff.mp h
    rw [List.nodup_cons] at hnodup
    have hmem : ∀ aid ∈ ids.filter (fun aid => cluster.kind aid = kind),
        aid ∈ ids ∧ cluster.kind aid = kind := fun aid haid =>
      ⟨(List.mem_filter.mp haid).1, of_decide_eq_true (List.mem_filter.mp haid).2⟩
    obtain ⟨hdb₁, hother⟩ := mergeKind_spec hdb
      (fun aid haid => hroots aid (hmem aid haid).1 ((hmem aid haid).2 ▸ List.mem_cons_self)) hkind
    refine ih hnodup.2 hdb₁ (fun aid haid hk => ?_) h
    by_cases hblank : Str.strip aid = []
    · rw [hblank]
      exact hdb₁.clean.blank
    · refine hother _ (hroots aid haid (List.mem_cons_of_mem _ hk)) fun other hother' heq => ?_
      obtain ⟨hids, hkind'⟩ := hmem other hother'
      have hs := (hstrip aid haid).resolve_right hblank
      have hs' := (hstrip other hids).resolve_right (heq.symm ▸ hblank)
      have hsame : other = aid := hs'.symm.trans (heq.trans hs)
      rw [← hsame, hkind'] at hk
      exact hnodup.1 hk

theorem CanonicalAliases.autoMerge {db db' : Db} {clusters : List DigestCluster}
    (hdb : CanonicalAliases db.assetAliases)
    (h : autoMergeAssetsByDigest cfg now createdBy db clusters = some db') :
    CanonicalAliases db'.assetAliases := by
  refine @foldlM_induction Db DigestCluster (fun db => CanonicalAliases db.assetAliases) _ clusters
    (fun db₁ db₂ cluster _ hdb₁ hstep => ?_) db db' hdb h
  unfold mergeCluster at hstep
  dsimp only at hstep
  split_ifs at hstep
  · cases hstep
    exact hdb₁
  · have hroots := canonicals_root hdb₁ cluster
    exact mergeKinds_canonical (List.nodup_dedup _) (fun aid haid => (hroots aid haid).2) hdb₁
      (fun aid haid _ => (hroots aid haid).1) hstep

/-! ### Calls -/

/-- The condition on a call: the goal of the alias of a tagged reference has no alias, and the
reference is no alias's goal. -/
def AliasOp.KeepsFlat (t : Table AssetAlias) : AliasOp → Prop
  | .autoTag rawAssetId assetId _ =>
    Str.strip rawAssetId ≠ Str.strip assetId →
    isSafeTagOnlyAliasVariant (Str.strip rawAssetId) assetId = true →
    aliasOf t (Str.strip assetId) = none ∧
      ∀ other, other ≠ Str.strip rawAssetId → aliasOf t other ≠ some (Str.strip rawAssetId)
  | _ => True

/-- Grouping resolves its target first. -/
theorem CanonicalAliases.group {db db' : Db} {assetId targetAssetId : Str}
    (hdb : CanonicalAliases db.assetAliases)
    (h : groupAliases cfg now db assetId targetAssetId createdBy = some db') :
    CanonicalAliases db'.assetAliases := by
  unfold groupAliases at h
  dsimp only at h
  split_ifs at h with hbad hsame
  refine hdb.mergeAsset ?_ h
  unfold groupTarget
  dsimp only
  rw [not_or] at hbad
  split_ifs with hblank
  · have htarget := strip_eq_nil_of_resolve hdb.clean hdb.flat hblank
    rw [Str.strip_strip] at htarget
    exact absurd htarget hbad.2
  · rw [resolve_of_flat hdb.clean hdb.flat, strip_hop hdb.clean]
    exact flat_iff_hop.mp hdb.flat _

omit [Unicode] in
/-- A table with fewer rows. -/
theorem CanonicalAliases.filter {t : Table AssetAlias} (ht : CanonicalAliases t)
    (p : AssetAlias → Bool) : CanonicalAliases (t.filter p) :=
  ⟨fun row hrow => ht.clean row (List.mem_of_mem_filter hrow),
    ht.flat.mono fun _ _ => aliasOf_filter⟩

omit [Unicode] in
theorem CanonicalAliases.put_iff {t : Table AssetAlias} (ht : CanonicalAliases t)
    {source canonical : Str} (hs : Str.strip source ≠ []) (hc : Str.strip canonical ≠ [])
    (hne : Str.strip source ≠ Str.strip canonical) (createdBy : Option Str) :
    CanonicalAliases (putAssetAlias t (Str.strip source) (Str.strip canonical) createdBy) ↔
      aliasOf t (Str.strip canonical) = none ∧
        ∀ other, other ≠ Str.strip source → aliasOf t other ≠ some (Str.strip source) := by
  rw [← flat_update_iff ht.flat hne, ← aliasOf_putAssetAlias t _ _ createdBy]
  exact ⟨fun h => h.flat, fun h => ⟨ht.clean.put hs hc hne createdBy, h⟩⟩

theorem isSafeTagOnlyAliasVariant_nonblank {rawRef key : Str}
    (h : isSafeTagOnlyAliasVariant rawRef key = true) :
    Str.strip rawRef ≠ [] ∧ Str.strip key ≠ [] := by
  have hlower : Unicode.lower ([] : Str) = [] := Unicode.lower_eq_self (by decide)
  unfold isSafeTagOnlyAliasVariant at h
  dsimp only at h
  split_ifs at h with hbad
  rw [not_or] at hbad
  exact ⟨hbad.1, fun hkey => hbad.2 (by rw [hkey, hlower])⟩

/-- The alias of a tagged reference is written when the reference is a variant of another id. -/
theorem autoTag_cases (cfg : Settings) (now : Instant) (db : Db) (rawAssetId assetId : Str)
    (actorId : Option Str) :
    let db' := aliasStep cfg now db (.autoTag rawAssetId assetId actorId)
    (Str.strip rawAssetId ≠ Str.strip assetId ∧
      isSafeTagOnlyAliasVariant (Str.strip rawAssetId) assetId = true ∧
      db'.assetAliases = putAssetAlias db.assetAliases (Str.strip rawAssetId) (Str.strip assetId)
        (some (str "system:auto-tag-alias"))) ∨
    ((Str.strip rawAssetId ≠ Str.strip assetId →
      isSafeTagOnlyAliasVariant (Str.strip rawAssetId) assetId ≠ true) ∧ db' = db) := by
  intro db'
  by_cases hsafe : isSafeTagOnlyAliasVariant (Str.strip rawAssetId) assetId = true
  · obtain ⟨hraw, hasset⟩ := isSafeTagOnlyAliasVariant_nonblank hsafe
    rw [Str.strip_strip] at hraw
    by_cases hne : Str.strip rawAssetId = Str.strip assetId
    · refine Or.inr ⟨fun h => absurd hne h, ?_⟩
      -- The upsert refuses an alias of an id to itself.
      simp only [db', aliasStep, AliasOp.perform, autoTagAlias, upsertAssetAlias, Str.strip_strip,
        hne, or_true, ↓reduceIte]
      split_ifs <;> rfl
    · have hguard : Str.strip rawAssetId ≠ assetId := fun h => by
        rw [← h, Str.strip_strip] at hne
        exact hne rfl
      refine Or.inl ⟨hne, hsafe, ?_⟩
      cases hup : upsertAssetAlias cfg now db (Str.strip rawAssetId) assetId
        (some (str "system:auto-tag-alias")) with
      | none => simp [upsertAssetAlias, Str.strip_strip, hraw, hasset, hne] at hup
      | some db₁ =>
        have htable := (upsertAssetAlias_assetAliases hup).2
        rw [Str.strip_strip] at htable
        rw [← htable]
        simp [db', aliasStep, AliasOp.perform, autoTagAlias, hraw, hguard, hsafe, hup,
          Db.emitAuditEvent]
  · refine Or.inr ⟨fun _ => hsafe, ?_⟩
    simp [db', aliasStep, AliasOp.perform, autoTagAlias, hsafe]

/-- A call on a canonical table leaves a canonical table exactly when it meets the condition. -/
theorem canonical_aliasStep_iff (cfg : Settings) (now : Instant) {db : Db}
    (hdb : CanonicalAliases db.assetAliases) (op : AliasOp) :
    CanonicalAliases (aliasStep cfg now db op).assetAliases ↔ op.KeepsFlat db.assetAliases := by
  -- Every writer but one keeps the table canonical.
  have hkept : ∀ op : AliasOp, (∀ db', op.perform cfg now db = some db' →
      CanonicalAliases db'.assetAliases) →
      CanonicalAliases (aliasStep cfg now db op).assetAliases := by
    intro op h
    unfold aliasStep
    cases hp : op.perform cfg now db with
    | none => exact hdb
    | some db' => exact h db' hp
  cases op with
  | group assetId targetAssetId createdBy =>
    exact iff_of_true (hkept _ fun db' h => hdb.group h) trivial
  | unmerge assetId sourceAssetId =>
    refine iff_of_true (hkept _ fun db' h => ?_) trivial
    simp only [AliasOp.perform, unmergeAliases] at h
    split_ifs at h
    split at h
    · cases h
    · split_ifs at h
      cases h
      exact hdb.filter _
  | delete assetId =>
    refine iff_of_true (hkept _ fun db' h => ?_) trivial
    cases h
    exact hdb.filter _
  | autoMerge clusters createdBy =>
    exact iff_of_true (hkept _ fun db' h => hdb.autoMerge h) trivial
  | autoTag rawAssetId assetId actorId =>
    rcases autoTag_cases cfg now db rawAssetId assetId actorId with
      ⟨hne, hsafe, htable⟩ | ⟨hskip, hsame⟩
    · obtain ⟨hraw, hasset⟩ := isSafeTagOnlyAliasVariant_nonblank hsafe
      rw [Str.strip_strip] at hraw
      rw [htable, hdb.put_iff hraw hasset hne]
      exact ⟨fun h _ _ => h, fun h => h hne hsafe⟩
    · rw [hsame]
      exact iff_of_true hdb fun hne hsafe => absurd hsafe (hskip hne)

omit [Unicode] in
theorem CleanAliases.filter {t : Table AssetAlias} (ht : CleanAliases t) (p : AssetAlias → Bool) :
    CleanAliases (t.filter p) := fun row hrow => ht row (List.mem_of_mem_filter hrow)

theorem CleanAliases.autoMerge {db db' : Db} {clusters : List DigestCluster}
    (hdb : CleanAliases db.assetAliases)
    (h : autoMergeAssetsByDigest cfg now createdBy db clusters = some db') :
    CleanAliases db'.assetAliases := by
  refine @foldlM_induction Db DigestCluster (fun db => CleanAliases db.assetAliases) _ clusters
    (fun db₁ db₂ cluster _ hdb₁ hcluster => ?_) db db' hdb h
  unfold mergeCluster at hcluster
  dsimp only at hcluster
  split_ifs at hcluster
  · cases hcluster
    exact hdb₁
  refine @foldlM_induction Db Str (fun db => CleanAliases db.assetAliases) _ _
    (fun db₃ db₄ kind _ hdb₃ hkind => ?_) db₁ db₂ hdb₁ hcluster
  unfold mergeKind at hkind
  dsimp only at hkind
  split_ifs at hkind
  · cases hkind
    exact hdb₃
  refine @foldlM_induction Db Str (fun db => CleanAliases db.assetAliases) _ _
    (fun db₅ db₆ aid _ hdb₅ hmerge => ?_) db₃ db₄ hdb₃ hkind
  split_ifs at hmerge
  · cases hmerge
    exact hdb₅
  · exact (mergeAsset_spec hdb₅ hmerge).1

/-- Every call keeps the rows clean. -/
theorem CleanAliases.aliasStep (cfg : Settings) (now : Instant) {db : Db}
    (hdb : CleanAliases db.assetAliases) (op : AliasOp) :
    CleanAliases (Vat.aliasStep cfg now db op).assetAliases := by
  unfold Vat.aliasStep
  cases hp : op.perform cfg now db with
  | none => exact hdb
  | some db' =>
    rw [Option.getD_some]
    cases op with
    | group assetId targetAssetId createdBy =>
      simp only [AliasOp.perform, groupAliases] at hp
      split_ifs at hp
      exact (mergeAsset_spec hdb hp).1
    | unmerge assetId sourceAssetId =>
      simp only [AliasOp.perform, unmergeAliases] at hp
      split_ifs at hp
      split at hp
      · cases hp
      · split_ifs at hp
        cases hp
        exact hdb.filter _
    | delete assetId =>
      cases hp
      exact hdb.filter _
    | autoMerge clusters createdBy => exact hdb.autoMerge hp
    | autoTag rawAssetId assetId actorId =>
      simp only [AliasOp.perform, autoTagAlias] at hp
      split_ifs at hp
      · obtain ⟨db₁, hup, hp⟩ := Option.bind_eq_some_iff.mp hp
        cases hp
        obtain ⟨⟨hs, hc, hne⟩, htable⟩ := upsertAssetAlias_assetAliases hup
        exact htable ▸ hdb.put hs hc hne _
      · cases hp
        exact hdb

/-! ### Runs -/

omit [Unicode] in
/-- A database with a canonical alias table. -/
structure CanonicalDb where
  db : Db
  canonical : CanonicalAliases db.assetAliases

/-- In every state of a run of the writers the resolver is exact, exactly when every alias of a
tagged reference has a goal without an alias and a reference that is no alias's goal. -/
theorem resolves_exactly_iff (cfg : Settings) (now : Instant) (start : CanonicalDb)
    (ops : List AliasOp) :
    (∀ pre, pre <+: ops → ResolvesExactly (run (aliasStep cfg now) start.db pre).assetAliases) ↔
      Along (aliasStep cfg now) (fun db op => op.KeepsFlat db.assetAliases) start.db ops := by
  have hclean : ∀ pre, CleanAliases (run (aliasStep cfg now) start.db pre).assetAliases := fun pre =>
    @run_induction _ _ (aliasStep cfg now) (fun db => CleanAliases db.assetAliases)
      (fun _ op h => h.aliasStep cfg now op) _ start.canonical.clean pre
  rw [← @forall_prefix_iff_along _ _ _ (fun db => CanonicalAliases db.assetAliases) _
    (fun db op h => canonical_aliasStep_iff cfg now h op) _ start.canonical ops]
  refine forall₂_congr fun pre _ => ?_
  rw [resolvesExactly_iff_flat (hclean pre)]
  exact ⟨fun h => ⟨hclean pre, h⟩, fun h => h.flat⟩

end Writers

/-! ### A cycle -/

section Cycle

attribute [local instance] asciiUnicode

/-- An asset is grouped into a tagged reference of it, and then an image with the tag is
imported. -/
def cycleRun : List AliasOp :=
  [.group (str "registry.io/app") (str "registry.io/app:1.0") none,
    .autoTag (str "registry.io/app:1.0") (str "registry.io/app") none]

/-- Each of the two ids is an alias of the other, so resolving twice leads back and the feed
materializer takes the other id. -/
theorem resolver_cycles :
    let t := (run (aliasStep ⟨true, []⟩ 0) Db.empty cycleRun).assetAliases
    resolveCanonicalAssetId t (str "registry.io/app") = str "registry.io/app" ∧
      aliasOf t (str "registry.io/app") = some (str "registry.io/app:1.0") ∧
      feedCanonicalAsset t (str "registry.io/app") = str "registry.io/app:1.0" := by
  decide +kernel

end Cycle

end Vat
