import Vat.Assets.FlatAliases
import Vat.Assets.Group
import Vat.Redirect.Rooted

/-!
# Merging the assets of one digest

The automatic merge reads which asset ids findings and observed tags have for each digest, in lower
case, resolves them, and merges those of one type into the preferred one: the source becomes an
alias, the findings whose image is the id of the source get the id of the canonical asset, and the
row of the source is deleted. The type of an asset is that of the row with exactly its id.

Python goes through a set in an order of its own, which is a parameter. The widths of columns are
left out, as are the rows of observed tags beside their digest.

Source: `backend/app/services/asset_merge_suggestions.py`, lines 161–162 and 548–703;
`backend/app/services/asset_aliases.py`; `backend/app/models/asset.py`;
`backend/app/models/asset_observed_tag.py`.

## Main definitions

* `ResolvableAliases`: every chain of aliases ends within the bound of the resolver.
* `MergeDb.autoMergeAssetsByDigest`.
* `DigestLinked`: two canonical ids with a common digest that the merge takes for one type.
* `Advances`: what a part of a run does.

## Main results

* `resolve_mergeAsset`: what a merge does to the canonical ids.
* `exists_autoMerge`: a run, and when it changes nothing.
-/

namespace Vat

open Relational Redirect

/-! ### Chains of aliases -/

/-- Clean rows, and chains that end within the bound of the resolver. -/
structure ResolvableAliases (t : Table AssetAlias) : Prop where
  clean : CleanAliases t
  ends : EndsWithin 16 (aliasOf t)

section Resolve

variable {t : Table AssetAlias} {a : Str}

/-- The loop of the resolver follows a chain to its end. -/
theorem followAliases_eq_iterate (hclean : CleanAliases t) {depth : ℕ} {seen : List Str} {a : Str}
    (hend : aliasOf t ((hop (aliasOf t))^[depth] a) = none)
    (hseen : ∀ x ∈ seen, ∃ j, (hop (aliasOf t))^[j + 1] x = a) :
    followAliases t depth seen a = (hop (aliasOf t))^[depth] a := by
  induction depth generalizing seen a with
  | zero => rfl
  | succ depth ih =>
    rw [followAliases]
    split_ifs with hmem
    · -- An id on a cycle has no end, so the id that was seen is the end itself.
      obtain ⟨j, hj⟩ := hseen a hmem
      have hcycle : (hop (aliasOf t))^[(j + 1) * (depth + 1)] a = a := by
        rw [Function.iterate_mul]
        exact Function.iterate_fixed hj _
      have hlong := iterate_hop_of_le hend (Nat.le_mul_of_pos_left (depth + 1) j.succ_pos)
      rw [hcycle] at hlong
      exact hlong
    · cases hget : t.get? a with
      | none =>
        have hnone : aliasOf t a = none := by rw [aliasOf, hget, Option.map_none]
        rw [iterate_hop_of_none hnone]
      | some row =>
        obtain ⟨hrow, hkey⟩ := Table.get?_eq_some_iff.mp hget
        change row.sourceAssetId = a at hkey
        have hc := hclean row hrow
        have hnext : hop (aliasOf t) a = row.canonicalAssetId :=
          hop_of_some (by rw [aliasOf, hget, Option.map_some])
        have hne : row.canonicalAssetId ≠ a := hkey ▸ hc.irrefl.symm
        rw [Function.iterate_succ_apply, hnext] at hend ⊢
        simp only [hc.canonical, hc.canonical_ne, hne, or_self, ↓reduceIte]
        refine ih hend fun x hx => ?_
        rcases List.mem_cons.mp hx with rfl | hx
        · exact ⟨0, hnext⟩
        · obtain ⟨j, hj⟩ := hseen x hx
          refine ⟨j + 1, ?_⟩
          rw [Function.iterate_succ_apply', hj, hnext]

namespace ResolvableAliases

/-- The resolver finds the end of the chain. -/
theorem resolve_eq (h : ResolvableAliases t) (a : Str) :
    resolveCanonicalAssetId t a = (hop (aliasOf t))^[16] (Str.strip a) := by
  rw [resolveCanonicalAssetId]
  split_ifs with hblank
  · rw [hblank, iterate_hop_of_none h.clean.blank]
  · exact followAliases_eq_iterate h.clean (h.ends _) fun x hx => absurd hx List.not_mem_nil

theorem strip_iterate (h : ResolvableAliases t) (n : ℕ) (a : Str) :
    Str.strip ((hop (aliasOf t))^[n] (Str.strip a)) = (hop (aliasOf t))^[n] (Str.strip a) := by
  induction n with
  | zero => exact Str.strip_strip a
  | succ n ih =>
    rw [Function.iterate_succ_apply', ← ih]
    exact strip_hop h.clean _

theorem strip_resolve (h : ResolvableAliases t) (a : Str) :
    Str.strip (resolveCanonicalAssetId t a) = resolveCanonicalAssetId t a := by
  rw [h.resolve_eq]
  exact h.strip_iterate 16 a

theorem aliasOf_resolve (h : ResolvableAliases t) (a : Str) :
    aliasOf t (resolveCanonicalAssetId t a) = none := by
  rw [h.resolve_eq]
  exact h.ends _

/-- A canonical id is a stripped id without an alias. -/
theorem resolve_eq_self_iff (h : ResolvableAliases t) :
    resolveCanonicalAssetId t a = a ↔ Str.strip a = a ∧ aliasOf t a = none := by
  constructor
  · intro ha
    have hstrip := h.strip_resolve a
    have hnone := h.aliasOf_resolve a
    rw [ha] at hstrip hnone
    exact ⟨hstrip, hnone⟩
  · rintro ⟨hstrip, hnone⟩
    rw [h.resolve_eq, hstrip, iterate_hop_of_none hnone]

theorem resolve_resolve (h : ResolvableAliases t) (a : Str) :
    resolveCanonicalAssetId t (resolveCanonicalAssetId t a) = resolveCanonicalAssetId t a :=
  h.resolve_eq_self_iff.mpr ⟨h.strip_resolve a, h.aliasOf_resolve a⟩

/-- A text that is not blank is not resolved to the blank text. -/
theorem resolve_ne_nil (h : ResolvableAliases t) (ha : Str.strip a ≠ []) :
    resolveCanonicalAssetId t a ≠ [] := by
  have hn : ∀ n, (hop (aliasOf t))^[n] (Str.strip a) ≠ [] := by
    intro n
    induction n with
    | zero => exact ha
    | succ n ih =>
      rw [Function.iterate_succ_apply']
      cases hnext : aliasOf t ((hop (aliasOf t))^[n] (Str.strip a)) with
      | none =>
        rw [hop_of_none hnext]
        exact ih
      | some b =>
        obtain ⟨row, hrow, -, rfl⟩ := aliasOf_eq_some hnext
        rw [hop_of_some hnext]
        exact (h.clean row hrow).canonical_ne
  rw [h.resolve_eq]
  exact hn 16

end ResolvableAliases

/-- A merge of a canonical id into another gives the class of the source to the other. -/
theorem exists_mergeAsset [Unicode] (cfg : Settings) (now : Instant) {db : Db} {s c : Str}
    (createdBy : Option Str) (h : ResolvableAliases db.assetAliases) (hs : s ≠ []) (hc : c ≠ [])
    (hsroot : resolveCanonicalAssetId db.assetAliases s = s)
    (hcroot : resolveCanonicalAssetId db.assetAliases c = c) (hne : s ≠ c) :
    ∃ db', mergeAsset cfg now db s c createdBy = some db' ∧ db'.findings = db.findings ∧
      ResolvableAliases db'.assetAliases ∧
      ∀ a, resolveCanonicalAssetId db'.assetAliases a =
        if resolveCanonicalAssetId db.assetAliases a = s then c
        else resolveCanonicalAssetId db.assetAliases a := by
  obtain ⟨hsstrip, hsnone⟩ := h.resolve_eq_self_iff.mp hsroot
  obtain ⟨hcstrip, hcnone⟩ := h.resolve_eq_self_iff.mp hcroot
  cases hup : upsertAssetAlias cfg now db s c createdBy with
  | none => simp [upsertAssetAlias, hsstrip, hcstrip, hs, hc, hne] at hup
  | some db₁ =>
    have hmerge : mergeAsset cfg now db s c createdBy =
        some { db₁ with assetAliases := repointAliases db₁.assetAliases s c } := by
      rw [mergeAsset, hup]
      rfl
    obtain ⟨hclean, -, halias⟩ := mergeAsset_spec h.clean hmerge
    rw [hsstrip, hcstrip] at halias
    replace halias := halias hcnone
    have hresolvable : ResolvableAliases (repointAliases db₁.assetAliases s c) := by
      refine ⟨hclean, ?_⟩
      rw [halias]
      exact endsWithin_merge h.ends (by decide) hsnone hcnone hne
    refine ⟨_, hmerge, (sameRows_upsertAssetAlias hup).findings, hresolvable, fun a => ?_⟩
    rw [hresolvable.resolve_eq, halias, root_merge h.ends (by decide) hsnone hcnone hne,
      h.resolve_eq]

end Resolve

/-! ### The preferred asset -/

section Preferred

variable [Unicode] {a b c : Str}

/-- An id in the shape of Aikido. -/
def IsAikidoShaped (a : Str) : Prop := Str.startsWith (Unicode.lower a) (str "containers/images/")

instance (a : Str) : Decidable (IsAikidoShaped a) := inferInstanceAs (Decidable (_ = true))

/-- An id is another or is picked before it. -/
def Preferred (a b : Str) : Prop :=
  IsAikidoShaped a ∧ ¬ IsAikidoShaped b ∨ (IsAikidoShaped a ↔ IsAikidoShaped b) ∧ ¬ b < a

theorem Preferred.refl (a : Str) : Preferred a a := .inr ⟨.rfl, List.lt_irrefl a⟩

theorem Preferred.trans (h : Preferred a b) (h' : Preferred b c) : Preferred a c := by
  rcases h with ⟨ha, hb⟩ | ⟨hab, hle⟩
  · rcases h' with ⟨hb', -⟩ | ⟨hbc, -⟩
    · exact absurd hb' hb
    · exact .inl ⟨ha, fun hc => hb (hbc.mpr hc)⟩
  · rcases h' with ⟨hb, hc⟩ | ⟨hbc, hle'⟩
    · exact .inl ⟨hab.mpr hb, hc⟩
    · exact .inr ⟨hab.trans hbc, List.le_trans hle hle'⟩

theorem Preferred.antisymm (h : Preferred a b) (h' : Preferred b a) : a = b := by
  rcases h with ⟨ha, hb⟩ | ⟨hab, hle⟩
  · rcases h' with ⟨hb', -⟩ | ⟨hba, -⟩
    · exact absurd hb' hb
    · exact absurd (hba.mpr ha) hb
  · rcases h' with ⟨hb, ha⟩ | ⟨-, hle'⟩
    · exact absurd (hab.mpr hb) ha
    · exact List.le_antisymm hle hle'

omit [Unicode] in
theorem leastText_le {texts : List Str} {s : Str} (h : leastText texts = some s) {t : Str}
    (ht : t ∈ texts) : ¬ t < s := by
  induction texts generalizing s with
  | nil => cases h
  | cons u rest ih =>
    rw [leastText] at h
    cases hrest : leastText rest with
    | none =>
      rw [hrest] at h
      obtain rfl := Option.some.inj h
      cases rest with
      | nil =>
        rw [List.mem_singleton.mp ht]
        exact List.lt_irrefl _
      | cons v rest =>
        rw [leastText] at hrest
        split at hrest <;> cases hrest
    | some v =>
      rw [hrest] at h
      obtain rfl := Option.some.inj h
      rcases List.mem_cons.mp ht with rfl | ht
      · split_ifs with hv
        · exact List.lt_asymm hv
        · exact List.lt_irrefl _
      · split_ifs with hv
        · exact ih hrest ht
        · exact List.le_trans hv (ih hrest ht)

omit [Unicode] in
theorem leastText_eq_none_iff {texts : List Str} : leastText texts = none ↔ texts = [] := by
  cases texts with
  | nil => exact iff_of_true rfl rfl
  | cons s rest =>
    refine iff_of_false (fun h => ?_) (List.cons_ne_nil s rest)
    rw [leastText] at h
    split at h <;> cases h

/-- The picked id is preferred to every other. -/
theorem canonicalPick_preferred {ids : List Str} (ha : a ∈ ids) (hne : a ≠ []) :
    canonicalPick ids ≠ [] ∧ Preferred (canonicalPick ids) a := by
  have hcleaned : ∀ {x}, x ∈ ids.filter (fun a => a ≠ []) ↔ x ∈ ids ∧ x ≠ [] := by
    simp
  have hshaped : ∀ {x}, x ∈ (ids.filter fun a => a ≠ []).filter
      (fun a => Str.startsWith (Unicode.lower a) (str "containers/images/")) ↔
        (x ∈ ids ∧ x ≠ []) ∧ IsAikidoShaped x := by
    intro x
    rw [List.mem_filter, hcleaned]
    rfl
  rw [canonicalPick]
  cases hpick : leastText ((ids.filter fun a => a ≠ []).filter
      fun a => Str.startsWith (Unicode.lower a) (str "containers/images/")) with
  | some s =>
    obtain ⟨⟨-, hs⟩, hsshaped⟩ := hshaped.mp (leastText_mem hpick)
    refine ⟨hs, ?_⟩
    by_cases hashaped : IsAikidoShaped a
    · exact .inr ⟨iff_of_true hsshaped hashaped,
        leastText_le hpick (hshaped.mpr ⟨⟨ha, hne⟩, hashaped⟩)⟩
    · exact .inl ⟨hsshaped, hashaped⟩
  | none =>
    have hnone : ∀ x ∈ ids, x ≠ [] → ¬ IsAikidoShaped x := by
      intro x hx hxne hxshaped
      have hmem := hshaped.mpr ⟨⟨hx, hxne⟩, hxshaped⟩
      rw [leastText_eq_none_iff.mp hpick] at hmem
      exact List.not_mem_nil hmem
    cases hleast : leastText (ids.filter fun a => a ≠ []) with
    | none =>
      have hmem := hcleaned.mpr ⟨ha, hne⟩
      rw [leastText_eq_none_iff.mp hleast] at hmem
      exact absurd hmem List.not_mem_nil
    | some s =>
      obtain ⟨hs, hsne⟩ := hcleaned.mp (leastText_mem hleast)
      exact ⟨hsne, .inr ⟨iff_of_false (hnone s hs hsne) (hnone a ha hne),
        leastText_le hleast (hcleaned.mpr ⟨ha, hne⟩)⟩⟩

end Preferred

/-! ### The run -/

/-- The order in which Python goes through a set of texts. -/
class SetOrder where
  listed : List Str → List Str
  perm : ∀ texts, (listed texts).Perm texts

/-- The columns of a row of `assets` that the merge reads. -/
structure TypedAsset where
  id : Str
  type : Str

instance : Row TypedAsset Str Str where
  pk := TypedAsset.id
  uk := TypedAsset.id

/-- The columns of a row of `asset_observed_tags` that the merge reads. -/
structure ObservedDigest where
  assetId : Str
  lastDigest : Option Str

/-- The tables that the merge reads and writes. -/
structure MergeDb where
  db : Db
  assets : Table TypedAsset
  observedTags : List ObservedDigest
  mergeEvents : List AssetMergeEvent

/-- The tables and the counters of a run. -/
structure MergeProgress where
  store : MergeDb
  aliasesCreated : ℕ
  findingsRepointed : ℕ
  canonicalAssetsVisited : List Str

/-- What a run returns. -/
structure MergeStats where
  digestsExamined : ℕ
  aliasesCreated : ℕ
  findingsRepointed : ℕ
  canonicalAssets : ℕ

/-- The type of the asset with exactly an id. -/
def TypedAsset.kind (row : TypedAsset) : Str := if row.type = [] then str "unknown" else row.type

/-- The type of an asset id. -/
def kindOf (assets : Table TypedAsset) (aid : Str) : Str :=
  ((assets.get? aid).map TypedAsset.kind).getD (str "unknown")

/-- A finding of the source goes to the canonical asset. -/
def Finding.moveImage (sourceId canonical : Str) (f : Finding) : Finding :=
  if f.image = some sourceId then { f with image := some canonical } else f

theorem Finding.keepsKeys_moveImage (sourceId canonical : Str) :
    KeepsKeys (Finding.moveImage sourceId canonical) := by
  intro f
  rw [moveImage]
  split_ifs <;> exact ⟨rfl, rfl⟩

/-- The merge event of a moved finding. -/
def digestMergeEvent (sourceId canonical : Str) (createdBy : Option Str) (f : Finding) :
    AssetMergeEvent where
  sourceAssetId := Str.strip sourceId
  targetAssetId := Str.strip canonical
  findingId := f.id
  prevValues := ⟨some f.image, none, none, none⟩
  nextValues := ⟨some (some canonical), none, none, none⟩
  createdBy := createdBy
  reverted := false

section Run

variable [Unicode]

/-- `_norm_text` of the merge. -/
def normAssetText (value : Option Str) : Str := normalize (Str.strip (Str.orEmpty value))

/-- The digest and the asset id of a row, if it has both. -/
def digestPair (digest assetId : Option Str) : Option (Str × Str) :=
  let d := normAssetText digest
  let a := normAssetText assetId
  if Str.startsWith d (str "sha256:") ∧ a ≠ [] then some (d, a) else none

/-- The digests and asset ids of the findings and the observed tags. -/
def MergeDb.digestPairs (w : MergeDb) : List (Str × Str) :=
  w.db.findings.rows.filterMap (fun f => digestPair f.imageDigest f.image) ++
    w.observedTags.filterMap fun tag => digestPair tag.lastDigest (some tag.assetId)

variable [SetOrder]

/-- `digest_to_assets`. -/
def MergeDb.digestToAssets (w : MergeDb) : List (Str × List Str) :=
  (w.digestPairs.map Prod.fst).eraseDups.map fun d =>
    (d, SetOrder.listed ((w.digestPairs.filter fun p => p.1 = d).map Prod.snd).dedup)

variable (cfg : Settings) (now : Instant) (createdBy : Option Str)

omit [SetOrder] in
/-- Merge a source into the canonical asset. -/
def MergeProgress.mergeSource (canonical : Str) (p : MergeProgress) (sourceId : Str) :
    Option MergeProgress :=
  if sourceId = canonical then some p
  else do
    let db ← mergeAsset cfg now p.store.db sourceId canonical createdBy
    let existing := db.findings.rows.filter fun f => f.image = some sourceId
    let findings := db.findings.mapRows (Finding.moveImage sourceId canonical)
      (Finding.keepsKeys_moveImage sourceId canonical)
    pure { p with
      store := { p.store with
        db := { db with findings := findings }
        assets := p.store.assets.filter fun row => row.id ≠ sourceId
        mergeEvents := p.store.mergeEvents ++
          existing.map (digestMergeEvent sourceId canonical createdBy) }
      aliasesCreated := p.aliasesCreated + 1
      findingsRepointed := p.findingsRepointed + existing.length }

omit [SetOrder] in
/-- Merge the canonical ids of one type. -/
def MergeProgress.mergeKind (p : MergeProgress) (kindIds : List Str) : Option MergeProgress :=
  let canonical := canonicalPick kindIds
  if kindIds.length ≤ 1 ∨ canonical = [] then some p
  else
    kindIds.foldlM (MergeProgress.mergeSource cfg now createdBy canonical)
      { p with canonicalAssetsVisited := canonical :: p.canonicalAssetsVisited }

/-- Merge the asset ids of one digest, type by type. -/
def MergeProgress.mergeDigest (p : MergeProgress) (assetIds : List Str) : Option MergeProgress :=
  let t := p.store.db.assetAliases
  let canonicals := SetOrder.listed (assetIds.map fun aid =>
    let canonical := resolveCanonicalAssetId t aid
    if canonical = [] then aid else canonical).dedup
  let kind := kindOf p.store.assets
  if canonicals.length ≤ 1 then some p
  else
    (canonicals.map kind).eraseDups.foldlM
      (fun p k => p.mergeKind cfg now createdBy
        (SetOrder.listed (canonicals.filter fun aid => kind aid = k))) p

/-- `auto_merge_assets_by_digest`. -/
def MergeDb.autoMergeAssetsByDigest (w : MergeDb) : Option (MergeDb × MergeStats) := do
  let index := w.digestToAssets
  let p ← (index.map Prod.snd).foldlM (MergeProgress.mergeDigest cfg now createdBy) ⟨w, 0, 0, []⟩
  pure (p.store,
    ⟨index.length, p.aliasesCreated, p.findingsRepointed, p.canonicalAssetsVisited.dedup.length⟩)

end Run

/-! ### What a run does -/

/-- The canonical id of an asset id. -/
abbrev MergeDb.resolve (w : MergeDb) (a : Str) : Str := resolveCanonicalAssetId w.db.assetAliases a

/-- The findings whose image is a canonical id go where that id leads. -/
def Finding.movedAlong (r r' : Str → Str) (f : Finding) : Finding :=
  { f with image := f.image.map fun i => if r i = i then r' i else i }

section Progress

variable [Unicode]

/-- Two canonical ids of one type with a common digest. -/
def DigestLinked (w : MergeDb) (x y : Str) : Prop :=
  ∃ d a b, (d, a) ∈ w.digestPairs ∧ (d, b) ∈ w.digestPairs ∧ w.resolve a = x ∧ w.resolve b = y ∧
    kindOf w.assets x = kindOf w.assets y

/-- No two canonical ids of one type have a common digest. -/
def DigestSettled (w : MergeDb) : Prop := ∀ x y, DigestLinked w x y → x = y

/-- What a run has made of the tables. -/
structure Progressed (w w' : MergeDb) : Prop where
  resolvable : ResolvableAliases w'.db.assetAliases
  absorbs : Absorbs (DigestLinked w) Preferred w.resolve w'.resolve
  kinds : ∀ x, w'.resolve x = x → kindOf w'.assets x = kindOf w.assets x
  findings : w'.db.findings.rows = w.db.findings.rows.map (Finding.movedAlong w.resolve w'.resolve)
  observedTags : w'.observedTags = w.observedTags

/-- What a further part of a run does: it changes nothing if it merges nothing, as it does where
nothing is to be merged. -/
structure Advances (w : MergeDb) (p p' : MergeProgress) : Prop where
  progressed : Progressed w p'.store
  joins : ∀ a b, p.store.resolve a = p.store.resolve b → p'.store.resolve a = p'.store.resolve b
  le_created : p.aliasesCreated ≤ p'.aliasesCreated
  unchanged : p'.aliasesCreated = p.aliasesCreated → p' = p
  settled : DigestSettled w → p' = p

variable (cfg : Settings) (now : Instant) (createdBy : Option Str) {w : MergeDb}
  {p p' p'' : MergeProgress} {s c x y : Str}

theorem kindOf_eq_of_linked (h : Relation.EqvGen (DigestLinked w) x y) :
    kindOf w.assets x = kindOf w.assets y := by
  induction h with
  | rel x y hlink =>
    obtain ⟨-, -, -, -, -, -, -, hkind⟩ := hlink
    exact hkind
  | refl x => rfl
  | symm x y _ ih => exact ih.symm
  | trans x y z _ _ ih ih' => exact ih.trans ih'

theorem Advances.refl (hp : Progressed w p.store) : Advances w p p :=
  ⟨hp, fun _ _ h => h, le_rfl, fun _ => rfl, fun _ => rfl⟩

theorem Advances.trans (h : Advances w p p') (h' : Advances w p' p'') : Advances w p p'' where
  progressed := h'.progressed
  joins a b hab := h'.joins a b (h.joins a b hab)
  le_created := h.le_created.trans h'.le_created
  unchanged heq := by
    have hle := h.le_created
    have hle' := h'.le_created
    rw [h'.unchanged (by omega), h.unchanged (by omega)]
  settled hsettled := by rw [h'.settled hsettled, h.settled hsettled]

omit [Unicode] in
theorem Finding.moveImage_movedAlong {r r₁ r₂ : Str → Str} {s c : Str} (hs : r s = s)
    (h : ∀ a, r₂ a = if r₁ a = s then c else r₁ a) (f : Finding) :
    (f.movedAlong r r₁).moveImage s c = f.movedAlong r r₂ := by
  rw [moveImage, movedAlong, movedAlong]
  cases himage : f.image with
  | none => simp
  | some i =>
    simp only [Option.map_some, Option.some.injEq, h]
    by_cases hi : r i = i
    · simp only [hi, ↓reduceIte]
      split_ifs <;> rfl
    · have hne : i ≠ s := fun heq => hi (heq ▸ hs)
      simp only [hi, ↓reduceIte, hne]

omit [Unicode] in
theorem kindOf_filter_ne {assets : Table TypedAsset} (h : x ≠ s) :
    kindOf (assets.filter fun row => row.id ≠ s) x = kindOf assets x := by
  have hget : (assets.filter fun row => row.id ≠ s).get? x = assets.get? x := by
    rw [Table.get?_filter]
    cases hrow : assets.get? x with
    | none => rfl
    | some row =>
      have hid : row.id = x := Table.pk_of_get? hrow
      rw [Option.filter_some, if_pos]
      rw [hid]
      exact decide_eq_true h
  rw [kindOf, hget, kindOf]

/-- One merge. -/
theorem exists_mergeSource (hp : Progressed w p.store) (hs : s ≠ []) (hc : c ≠ [])
    (hsroot : p.store.resolve s = s) (hcroot : p.store.resolve c = c) (hne : s ≠ c)
    (hlink : Relation.EqvGen (DigestLinked w) s c) (hpreferred : Preferred c s) :
    ∃ p', p.mergeSource cfg now createdBy c s = some p' ∧ Progressed w p'.store ∧
      p'.aliasesCreated = p.aliasesCreated + 1 ∧
      ∀ a, p'.store.resolve a = if p.store.resolve a = s then c else p.store.resolve a := by
  obtain ⟨db', hmerge, hfindings, hresolvable, hresolve⟩ :=
    exists_mergeAsset cfg now createdBy hp.resolvable hs hc hsroot hcroot hne
  have hsingle : Absorbs (DigestLinked w) Preferred p.store.resolve
      (resolveCanonicalAssetId db'.assetAliases) :=
    .single Preferred.refl hp.resolvable.resolve_resolve hlink hpreferred hcroot hresolve
  rw [MergeProgress.mergeSource, if_neg hne, hmerge]
  refine ⟨_, rfl, ⟨hresolvable, hp.absorbs.trans Preferred.trans hsingle, fun x hx => ?_, ?_,
    hp.observedTags⟩, rfl, hresolve⟩
  · have hxs : x ≠ s := by
      rintro rfl
      have hxc := (hresolve x).symm.trans hx
      rw [if_pos hsroot] at hxc
      exact hne hxc.symm
    exact (kindOf_filter_ne hxs).trans (hp.kinds x (hsingle.root_of_root hx))
  · change (db'.findings.rows.map (Finding.moveImage s c)) = _
    rw [hfindings, hp.findings, List.map_map]
    refine List.map_congr_left fun f _ => ?_
    exact Finding.moveImage_movedAlong (hp.absorbs.root_of_root hsroot) hresolve f

/-- The merges of some canonical ids into one. -/
theorem exists_foldlM_mergeSource {ids : List Str} (hp : Progressed w p.store) (hc : c ≠ [])
    (hcroot : p.store.resolve c = c) (hnodup : ids.Nodup)
    (hids : ∀ x ∈ ids, x ≠ [] ∧ p.store.resolve x = x)
    (hlinked : ∀ x ∈ ids, Relation.EqvGen (DigestLinked w) x c ∧ Preferred c x) :
    ∃ p', ids.foldlM (MergeProgress.mergeSource cfg now createdBy c) p = some p' ∧
      Progressed w p'.store ∧ p.aliasesCreated ≤ p'.aliasesCreated ∧
      ((∃ x ∈ ids, x ≠ c) → p.aliasesCreated < p'.aliasesCreated) ∧
      ∀ a, p'.store.resolve a = if p.store.resolve a ∈ ids then c else p.store.resolve a := by
  induction ids generalizing p with
  | nil =>
    refine ⟨p, rfl, hp, le_rfl, fun h => ?_, fun a => (if_neg List.not_mem_nil).symm⟩
    obtain ⟨x, hx, -⟩ := h
    exact absurd hx List.not_mem_nil
  | cons s ids ih =>
    rw [List.nodup_cons] at hnodup
    rw [List.forall_mem_cons] at hids hlinked
    obtain ⟨⟨hs, hsroot⟩, hids⟩ := hids
    obtain ⟨⟨hlink, hpreferred⟩, hlinked⟩ := hlinked
    rw [List.foldlM_cons]
    by_cases hsc : s = c
    · have hstep : p.mergeSource cfg now createdBy c s = some p := if_pos hsc
      obtain ⟨p', hfold, hp', hle, hlt, hresolve⟩ := ih hp hcroot hnodup.2 hids hlinked
      refine ⟨p', by rw [hstep]; exact hfold, hp', hle, fun h => ?_, fun a => ?_⟩
      · obtain ⟨x, hx, hxc⟩ := h
        rcases List.mem_cons.mp hx with rfl | hx
        · exact absurd hsc hxc
        · exact hlt ⟨x, hx, hxc⟩
      · rw [hresolve]
        by_cases hac : p.store.resolve a = c <;> simp [hac, hsc]
    · obtain ⟨p₁, hstep, hp₁, hcreated, hresolve₁⟩ :=
        exists_mergeSource cfg now createdBy hp hs hc hsroot hcroot hsc hlink hpreferred
      have hkept : ∀ x, p.store.resolve x = x → x ≠ s → p₁.store.resolve x = x := by
        intro x hx hxs
        rw [hresolve₁, hx, if_neg hxs]
      have hids₁ : ∀ x ∈ ids, x ≠ [] ∧ p₁.store.resolve x = x := fun x hx =>
        ⟨(hids x hx).1, hkept x (hids x hx).2 fun heq => hnodup.1 (heq ▸ hx)⟩
      obtain ⟨p', hfold, hp', hle, -, hresolve⟩ :=
        ih hp₁ (hkept c hcroot fun heq => hsc heq.symm) hnodup.2 hids₁ hlinked
      refine ⟨p', by rw [hstep]; exact hfold, hp', by omega, fun _ => by omega, fun a => ?_⟩
      rw [hresolve, hresolve₁]
      by_cases has : p.store.resolve a = s <;> simp [has]

theorem eq_of_settled (hsettled : DigestSettled w) (h : Relation.EqvGen (DigestLinked w) x y) :
    x = y := by
  induction h with
  | rel x y hlink => exact hsettled x y hlink
  | refl x => rfl
  | symm x y _ ih => exact ih.symm
  | trans x y z _ _ ih ih' => exact ih.trans ih'

omit [Unicode] in
/-- A list without repetitions has none. -/
theorem nodup_eraseDups {α : Type*} [BEq α] [LawfulBEq α] (l : List α) : l.eraseDups.Nodup := by
  induction hn : l.length using Nat.strong_induction_on generalizing l with
  | _ n ih =>
    cases l with
    | nil => exact List.nodup_nil
    | cons a l =>
      subst hn
      have hle : (l.filter fun b => !b == a).length ≤ l.length := List.length_filter_le _ _
      rw [List.eraseDups_cons, List.nodup_cons]
      refine ⟨fun hmem => ?_, ih _ (Nat.lt_succ_of_le hle) _ rfl⟩
      have hfilter := (List.mem_filter.mp (List.mem_eraseDups.mp hmem)).2
      simp at hfilter

omit [Unicode] in
/-- A list of different texts is short if they are all equal. -/
theorem length_le_one_iff_of_nodup {ids : List Str} (hnodup : ids.Nodup) :
    ids.length ≤ 1 ↔ ∀ x ∈ ids, ∀ y ∈ ids, x = y := by
  match ids with
  | [] => simp
  | [a] => simp
  | a :: b :: ids =>
    refine iff_of_false (by simp) fun hall => (List.nodup_cons.mp hnodup).1 ?_
    rw [hall a List.mem_cons_self b (List.mem_cons_of_mem _ List.mem_cons_self)]
    exact List.mem_cons_self

/-- The merges of the canonical ids of one type. -/
theorem exists_mergeKind {ids : List Str} (hp : Progressed w p.store) (hnodup : ids.Nodup)
    (hids : ∀ x ∈ ids, x ≠ [] ∧ p.store.resolve x = x)
    (hlinked : ∀ x ∈ ids, ∀ y ∈ ids, Relation.EqvGen (DigestLinked w) x y) :
    ∃ p', p.mergeKind cfg now createdBy ids = some p' ∧ Advances w p p' ∧
      (∀ x ∈ ids, ∀ y ∈ ids, p'.store.resolve x = p'.store.resolve y) ∧
      ∀ x, p.store.resolve x = x → x ∉ ids → p'.store.resolve x = x := by
  rw [MergeProgress.mergeKind]
  split_ifs with hskip
  · refine ⟨p, rfl, .refl hp, fun x hx y hy => ?_, fun x hx _ => hx⟩
    have hshort : ids.length ≤ 1 :=
      hskip.resolve_right (canonicalPick_preferred hx (hids x hx).1).1
    rw [(length_le_one_iff_of_nodup hnodup).mp hshort x hx y hy]
  · rw [not_or, not_le] at hskip
    obtain ⟨hlong, hpick⟩ := hskip
    have hmem := canonicalPick_mem hpick
    obtain ⟨p', hfold, hp', hle, hlt, hresolve⟩ :=
      @exists_foldlM_mergeSource _ cfg now createdBy w
        { p with canonicalAssetsVisited := canonicalPick ids :: p.canonicalAssetsVisited } _ _ hp
        hpick (hids _ hmem).2 hnodup hids
        fun x hx => ⟨hlinked x hx _ hmem, (canonicalPick_preferred hx (hids x hx).1).2⟩
    have hmany : ¬ ∀ x ∈ ids, ∀ y ∈ ids, x = y := fun hall =>
      absurd ((length_le_one_iff_of_nodup hnodup).mpr hall) (not_le.mpr hlong)
    have hmerged : p.aliasesCreated < p'.aliasesCreated := by
      refine hlt ?_
      by_contra hall
      push Not at hall
      exact hmany fun x hx y hy => (hall x hx).trans (hall y hy).symm
    refine ⟨p', hfold, ⟨hp', fun a b hab => ?_, hle, fun heq => absurd heq hmerged.ne',
      fun hsettled => ?_⟩, fun x hx y hy => ?_, fun x hx hnot => ?_⟩
    · rw [hresolve, hresolve, hab]
    · exact absurd (fun x hx y hy => eq_of_settled hsettled (hlinked x hx y hy)) hmany
    · rw [hresolve, hresolve, (hids x hx).2, (hids y hy).2, if_pos hx, if_pos hy]
    · rw [hresolve, hx, if_neg hnot]

/-- An asset id with a digest is not blank. -/
theorem strip_ne_nil_of_mem_digestPairs {d a : Str} (h : (d, a) ∈ w.digestPairs) :
    Str.strip a ≠ [] := by
  have hpair : ∀ {digest assetId : Option Str}, digestPair digest assetId = some (d, a) →
      Str.strip a ≠ [] := by
    intro digest assetId hsome
    rw [digestPair] at hsome
    split_ifs at hsome with hvalid
    obtain ⟨-, rfl⟩ := Prod.mk.inj (Option.some.inj hsome)
    have hstrip : Str.strip (normAssetText assetId) = normAssetText assetId := by
      rw [normAssetText, normalize]
      split_ifs
      · rfl
      · exact Str.strip_strip _
    rw [hstrip]
    exact hvalid.2
  rcases List.mem_append.mp h with h | h
  · obtain ⟨f, -, hf⟩ := List.mem_filterMap.mp h
    exact hpair hf
  · obtain ⟨tag, -, htag⟩ := List.mem_filterMap.mp h
    exact hpair htag

omit [Unicode] in
theorem Finding.movedAlong_self (r : Str → Str) (f : Finding) : f.movedAlong r r = f := by
  have himage : (f.image.map fun i => if r i = i then r i else i) = f.image := by
    cases f.image with
    | none => rfl
    | some i =>
      rw [Option.map_some]
      split_ifs with hi
      · rw [hi]
      · rfl
  rw [movedAlong, himage]

theorem Progressed.refl (hw : ResolvableAliases w.db.assetAliases) : Progressed w w where
  resolvable := hw
  absorbs := .refl Preferred.refl hw.resolve_resolve
  kinds _ _ := rfl
  findings := by
    have hid : Finding.movedAlong w.resolve w.resolve = id :=
      funext (Finding.movedAlong_self w.resolve)
    rw [hid, List.map_id]
  observedTags := rfl

section Digest

variable [SetOrder]

/-- The merges of canonical ids, type by type. -/
theorem exists_foldlM_mergeKind {ids : List Str} {kind : Str → Str} (hnodup : ids.Nodup)
    (hne : ∀ x ∈ ids, x ≠ [])
    (hlinked : ∀ x ∈ ids, ∀ y ∈ ids, kind x = kind y → Relation.EqvGen (DigestLinked w) x y)
    {kinds : List Str} (hkinds : kinds.Nodup) (hp : Progressed w p.store)
    (hroots : ∀ x ∈ ids, kind x ∈ kinds → p.store.resolve x = x) :
    ∃ p', kinds.foldlM (fun p k => p.mergeKind cfg now createdBy
        (SetOrder.listed (ids.filter fun aid => kind aid = k))) p = some p' ∧
      Advances w p p' ∧
      ∀ x ∈ ids, ∀ y ∈ ids, kind x = kind y → kind x ∈ kinds →
        p'.store.resolve x = p'.store.resolve y := by
  induction kinds generalizing p with
  | nil => exact ⟨p, rfl, .refl hp, fun x _ y _ _ hk => absurd hk List.not_mem_nil⟩
  | cons k kinds ih =>
    rw [List.nodup_cons] at hkinds
    have hmem : ∀ {x}, x ∈ SetOrder.listed (ids.filter fun aid => kind aid = k) ↔
        x ∈ ids ∧ kind x = k := by
      intro x
      rw [(SetOrder.perm _).mem_iff, List.mem_filter, decide_eq_true_eq]
    obtain ⟨p₁, hstep, hadvances, hjoined, hkept⟩ := exists_mergeKind cfg now createdBy hp
      ((SetOrder.perm _).nodup_iff.mpr (hnodup.filter _))
      (fun x hx => ⟨hne x (hmem.mp hx).1,
        hroots x (hmem.mp hx).1 ((hmem.mp hx).2 ▸ List.mem_cons_self)⟩)
      (fun x hx y hy => hlinked x (hmem.mp hx).1 y (hmem.mp hy).1
        ((hmem.mp hx).2.trans (hmem.mp hy).2.symm))
    have hroots₁ : ∀ x ∈ ids, kind x ∈ kinds → p₁.store.resolve x = x := by
      intro x hx hk
      refine hkept x (hroots x hx (List.mem_cons_of_mem _ hk)) fun hin => hkinds.1 ?_
      rw [← (hmem.mp hin).2]
      exact hk
    obtain ⟨p', hfold, hadvances', hjoined'⟩ := ih hkinds.2 hadvances.progressed hroots₁
    refine ⟨p', by rw [List.foldlM_cons, hstep]; exact hfold, hadvances.trans hadvances', ?_⟩
    intro x hx y hy hxy hk
    rcases List.mem_cons.mp hk with hk | hk
    · exact hadvances'.joins x y
        (hjoined x (hmem.mpr ⟨hx, hk⟩) y (hmem.mpr ⟨hy, hxy.symm.trans hk⟩))
    · exact hjoined' x hx y hy hxy hk

/-- The merges of the asset ids of one digest. -/
theorem exists_mergeDigest {assetIds : List Str} (hp : Progressed w p.store)
    (hids : ∀ a ∈ assetIds, Str.strip a ≠ [])
    (hlinked : ∀ a ∈ assetIds, ∀ b ∈ assetIds,
      kindOf w.assets (w.resolve a) = kindOf w.assets (w.resolve b) →
        DigestLinked w (w.resolve a) (w.resolve b)) :
    ∃ p', p.mergeDigest cfg now createdBy assetIds = some p' ∧ Advances w p p' ∧
      ∀ a ∈ assetIds, ∀ b ∈ assetIds,
        kindOf w.assets (w.resolve a) = kindOf w.assets (w.resolve b) →
          p'.store.resolve a = p'.store.resolve b := by
  have hresolve : (assetIds.map fun aid =>
      let canonical := p.store.resolve aid
      if canonical = [] then aid else canonical) = assetIds.map p.store.resolve := by
    refine List.map_congr_left fun a ha => ?_
    exact if_neg (hp.resolvable.resolve_ne_nil (hids a ha))
  have hmem : ∀ {x}, x ∈ SetOrder.listed (assetIds.map p.store.resolve).dedup ↔
      ∃ a ∈ assetIds, p.store.resolve a = x := by
    intro x
    rw [(SetOrder.perm _).mem_iff, List.mem_dedup, List.mem_map]
  have hnodup : (SetOrder.listed (assetIds.map p.store.resolve).dedup).Nodup :=
    (SetOrder.perm _).nodup_iff.mpr (List.nodup_dedup _)
  have hroot : ∀ x ∈ SetOrder.listed (assetIds.map p.store.resolve).dedup,
      x ≠ [] ∧ p.store.resolve x = x := by
    intro x hx
    obtain ⟨a, ha, rfl⟩ := hmem.mp hx
    exact ⟨hp.resolvable.resolve_ne_nil (hids a ha), hp.resolvable.resolve_resolve a⟩
  -- The type of a canonical id is that of its class at the beginning of the run.
  have hkind : ∀ a, kindOf p.store.assets (p.store.resolve a) = kindOf w.assets (w.resolve a) := by
    intro a
    rw [hp.kinds _ (hp.resolvable.resolve_resolve a)]
    exact (kindOf_eq_of_linked (hp.absorbs.linked a)).symm
  have hclasses : ∀ x ∈ SetOrder.listed (assetIds.map p.store.resolve).dedup,
      ∀ y ∈ SetOrder.listed (assetIds.map p.store.resolve).dedup,
        kindOf p.store.assets x = kindOf p.store.assets y →
          Relation.EqvGen (DigestLinked w) x y := by
    intro x hx y hy hxy
    obtain ⟨a, ha, rfl⟩ := hmem.mp hx
    obtain ⟨b, hb, rfl⟩ := hmem.mp hy
    rw [hkind, hkind] at hxy
    exact ((hp.absorbs.linked a).symm.trans _ _ _ (.rel _ _ (hlinked a ha b hb hxy))).trans _ _ _
      (hp.absorbs.linked b)
  have hsplit : ∃ p', p.mergeDigest cfg now createdBy assetIds = some p' ∧ Advances w p p' ∧
      ∀ x ∈ SetOrder.listed (assetIds.map p.store.resolve).dedup,
        ∀ y ∈ SetOrder.listed (assetIds.map p.store.resolve).dedup,
          kindOf p.store.assets x = kindOf p.store.assets y →
            p'.store.resolve x = p'.store.resolve y := by
    rw [MergeProgress.mergeDigest, hresolve]
    split_ifs with hshort
    · refine ⟨p, rfl, .refl hp, fun x hx y hy _ => ?_⟩
      rw [(length_le_one_iff_of_nodup hnodup).mp hshort x hx y hy]
    · obtain ⟨p', hfold, hadvances, hjoined⟩ := exists_foldlM_mergeKind cfg now createdBy hnodup
        (fun x hx => (hroot x hx).1) hclasses (nodup_eraseDups _) hp fun x hx _ => (hroot x hx).2
      exact ⟨p', hfold, hadvances, fun x hx y hy hxy => hjoined x hx y hy hxy
        (List.mem_eraseDups.mpr (List.mem_map_of_mem hx))⟩
  obtain ⟨p', hrun, hadvances, hjoined⟩ := hsplit
  refine ⟨p', hrun, hadvances, fun a ha b hb hab => ?_⟩
  have hown : ∀ a, p'.store.resolve a = p'.store.resolve (p.store.resolve a) := fun a =>
    hadvances.joins _ _ (hp.resolvable.resolve_resolve a).symm
  rw [hown a, hown b]
  refine hjoined _ (hmem.mpr ⟨a, ha, rfl⟩) _ (hmem.mpr ⟨b, hb, rfl⟩) ?_
  rw [hkind, hkind, hab]

/-- The merges of several digests. -/
theorem exists_foldlM_mergeDigest {clusters : List (List Str)}
    (hclusters : ∀ ids ∈ clusters, ∃ d, ∀ a, a ∈ ids ↔ (d, a) ∈ w.digestPairs)
    (hp : Progressed w p.store) :
    ∃ p', clusters.foldlM (MergeProgress.mergeDigest cfg now createdBy) p = some p' ∧
      Advances w p p' ∧ ∀ ids ∈ clusters, ∀ a ∈ ids, ∀ b ∈ ids,
        kindOf w.assets (w.resolve a) = kindOf w.assets (w.resolve b) →
          p'.store.resolve a = p'.store.resolve b := by
  induction clusters generalizing p with
  | nil => exact ⟨p, rfl, .refl hp, fun ids hids => absurd hids List.not_mem_nil⟩
  | cons ids clusters ih =>
    rw [List.forall_mem_cons] at hclusters
    obtain ⟨⟨d, hids⟩, hclusters⟩ := hclusters
    obtain ⟨p₁, hstep, hadvances, hjoined⟩ := exists_mergeDigest cfg now createdBy hp
      (fun a ha => strip_ne_nil_of_mem_digestPairs ((hids a).mp ha))
      (fun a ha b hb hab => ⟨d, a, b, (hids a).mp ha, (hids b).mp hb, rfl, rfl, hab⟩)
    obtain ⟨p', hfold, hadvances', hjoined'⟩ := ih hclusters hadvances.progressed
    refine ⟨p', by rw [List.foldlM_cons, hstep]; exact hfold, hadvances.trans hadvances', ?_⟩
    intro ids' hmem a ha b hb hab
    rcases List.mem_cons.mp hmem with rfl | hmem
    · exact hadvances'.joins a b (hjoined a ha b hb hab)
    · exact hjoined' ids' hmem a ha b hb hab

/-- The clusters of a run are those of its digests. -/
theorem mem_digestToAssets {ids : List Str} (h : ids ∈ w.digestToAssets.map Prod.snd) :
    ∃ d, ∀ a, a ∈ ids ↔ (d, a) ∈ w.digestPairs := by
  obtain ⟨e, he, rfl⟩ := List.mem_map.mp h
  obtain ⟨d, -, rfl⟩ := List.mem_map.mp he
  refine ⟨d, fun a => ?_⟩
  rw [(SetOrder.perm _).mem_iff, List.mem_dedup, List.mem_map]
  constructor
  · rintro ⟨⟨d', a'⟩, hmem, rfl⟩
    obtain ⟨hpair, hd⟩ := List.mem_filter.mp hmem
    rwa [← of_decide_eq_true hd]
  · intro ha
    exact ⟨(d, a), List.mem_filter.mpr ⟨ha, decide_eq_true rfl⟩, rfl⟩

/-- Every digest has its cluster. -/
theorem exists_mem_digestToAssets {d a : Str} (h : (d, a) ∈ w.digestPairs) :
    ∃ ids ∈ w.digestToAssets.map Prod.snd, ∀ b, (d, b) ∈ w.digestPairs → b ∈ ids := by
  refine ⟨_, List.mem_map_of_mem (List.mem_map_of_mem
    (List.mem_eraseDups.mpr (List.mem_map_of_mem h))), fun b hb => ?_⟩
  rw [(SetOrder.perm _).mem_iff, List.mem_dedup]
  exact List.mem_map_of_mem (List.mem_filter.mpr ⟨hb, decide_eq_true rfl⟩)

/-- A run: the canonical ids of one type with a common digest become one, and nothing changes if and
only if there are no two of them. -/
theorem exists_autoMerge (hw : ResolvableAliases w.db.assetAliases) :
    ∃ w' stats, w.autoMergeAssetsByDigest cfg now createdBy = some (w', stats) ∧ Progressed w w' ∧
      (∀ x y, DigestLinked w x y → w'.resolve x = w'.resolve y) ∧
      (w' = w ∧ stats.aliasesCreated = 0 ∧ stats.findingsRepointed = 0 ↔ DigestSettled w) := by
  obtain ⟨p, hfold, hadvances, hjoined⟩ := @exists_foldlM_mergeDigest _ cfg now createdBy w
    ⟨w, 0, 0, []⟩ _ _ (fun ids => mem_digestToAssets) (.refl hw)
  have hprogressed := hadvances.progressed
  have hlinked : ∀ x y, DigestLinked w x y → p.store.resolve x = p.store.resolve y := by
    rintro _ _ ⟨d, a, b, ha, hb, rfl, rfl, hkind⟩
    obtain ⟨ids, hids, hmem⟩ := exists_mem_digestToAssets ha
    have hown : ∀ a, p.store.resolve (w.resolve a) = p.store.resolve a := fun a =>
      hprogressed.absorbs.joins _ _ (hw.resolve_resolve a)
    rw [hown, hown]
    exact hjoined ids hids a (hmem a ha) b (hmem b hb) hkind
  have hrun : w.autoMergeAssetsByDigest cfg now createdBy = some (p.store,
      ⟨w.digestToAssets.length, p.aliasesCreated, p.findingsRepointed,
        p.canonicalAssetsVisited.dedup.length⟩) := by
    rw [MergeDb.autoMergeAssetsByDigest, hfold]
    rfl
  refine ⟨p.store, _, hrun, hprogressed, hlinked, ?_⟩
  constructor
  · rintro ⟨-, hnone, -⟩ x y hxy
    have hsame := hlinked x y hxy
    rw [hadvances.unchanged hnone] at hsame
    obtain ⟨d, a, b, -, -, rfl, rfl, -⟩ := hxy
    have hx := hw.resolve_resolve a
    have hy := hw.resolve_resolve b
    exact hx.symm.trans (hsame.trans hy)
  · intro hsettled
    rw [hadvances.settled hsettled]
    exact ⟨rfl, rfl, rfl⟩

end Digest

end Progress

end Vat
