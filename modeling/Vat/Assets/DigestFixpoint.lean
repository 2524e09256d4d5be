import Vat.Assets.DigestMerge

/-!
# When the merge of the assets of one digest settles

After a run each canonical id leads to the preferred one of its class, the classes being those that
common digests make of the canonical ids of one type. The merge takes ids in lower case to find the
classes and the types, and exact ids to move findings, so a finding whose image is written in
another way is left behind, a type that is stored under an id with a capital is not seen, and a
finding that goes to an asset with a capital in its id is read again as another asset.

Source: `backend/app/services/asset_merge_suggestions.py`, lines 548–703.

## Main definitions

* `MergesDuplicates`, `ReachesFixpoint`: what is asked of a run, and of a second one after it.
* `OneSpelling`: the condition on the tables.

## Main results

* `resolve_eq_iff_home`, `mem_digestPairs_iff`: the canonical ids and the digests after a run.
* `reachesFixpoint_iff`.
-/

namespace Vat

open Relational Redirect

section General

variable [Unicode]

/-! ### What is asked of a run -/

/-- Two canonical ids with a common digest. -/
def SharesDigest (w : MergeDb) (x y : Str) : Prop :=
  ∃ d a b, (d, a) ∈ w.digestPairs ∧ (d, b) ∈ w.digestPairs ∧ w.resolve a = x ∧ w.resolve b = y

/-- Assets whose ids are two texts in some spelling are of one type. -/
def SameType (w : MergeDb) (x y : Str) : Prop :=
  ∀ p ∈ w.assets.rows, ∀ q ∈ w.assets.rows, normAssetText (some p.id) = normAssetText (some x) →
    normAssetText (some q.id) = normAssetText (some y) → p.kind = q.kind

/-- Only assets of one type that digests connect become one, and the findings of a merged asset, in
any spelling, are with the canonical asset. -/
structure MergesDuplicates (w w' : MergeDb) : Prop where
  merged : ∀ x y, w.resolve x = x → w.resolve y = y → x ≠ y → w'.resolve x = w'.resolve y →
    Relation.EqvGen (SharesDigest w) x y ∧ SameType w x y
  findings : ∀ f ∈ w.db.findings.rows, ∀ x, w.resolve x = x → w'.resolve x ≠ x →
    normAssetText f.image = normAssetText (some x) →
      ∃ f' ∈ w'.db.findings.rows, f'.id = f.id ∧ f'.image = some (w'.resolve x)

/-- A run merges duplicates, and a second one after it changes nothing. -/
def ReachesFixpoint [SetOrder] (cfg : Settings) (now now' : Instant) (createdBy : Option Str)
    (w : MergeDb) : Prop :=
  ∃ w' stats, w.autoMergeAssetsByDigest cfg now createdBy = some (w', stats) ∧
    MergesDuplicates w w' ∧
    ∃ stats', w'.autoMergeAssetsByDigest cfg now' createdBy = some (w', stats') ∧
      stats'.aliasesCreated = 0 ∧ stats'.findingsRepointed = 0

/-! ### The condition -/

/-- The preferred id of a class. -/
def Home (w : MergeDb) (x y : Str) : Prop :=
  Relation.EqvGen (DigestLinked w) x y ∧
    ∀ z, Relation.EqvGen (DigestLinked w) x z → Preferred y z

/-- A finding with an image that is a canonical id goes to the preferred id of its class. -/
def GoesTo (w : MergeDb) (i j : Str) : Prop := if w.resolve i = i then Home w i j else j = i

/-- The ids that are read with a digest once the findings are with the preferred assets. -/
def ReadAgain (w : MergeDb) (d a : Str) : Prop :=
  (∃ f ∈ w.db.findings.rows, ∃ i j, f.image = some i ∧ GoesTo w i j ∧
    digestPair f.imageDigest (some j) = some (d, a)) ∨
  ∃ tag ∈ w.observedTags, digestPair tag.lastDigest (some tag.assetId) = some (d, a)

/-- The spelling of ids makes no difference: linked assets are of one type in every spelling, the
findings of an asset that is not the preferred one of its class have its id or that of another asset
of the class, and ids that are read with a digest once the findings are with the preferred assets,
of one type, are of one class. -/
structure OneSpelling (w : MergeDb) : Prop where
  types : ∀ x y, Relation.EqvGen (DigestLinked w) x y → x ≠ y → SameType w x y
  images : ∀ f ∈ w.db.findings.rows, ∀ x y, Relation.EqvGen (DigestLinked w) x y → y ≠ x →
    Preferred y x → normAssetText f.image = normAssetText (some x) →
      ∃ i, f.image = some i ∧ Relation.EqvGen (DigestLinked w) x i
  again : ∀ d a b, ReadAgain w d a → ReadAgain w d b →
    kindOf w.assets (w.resolve a) = kindOf w.assets (w.resolve b) →
      Relation.EqvGen (DigestLinked w) (w.resolve a) (w.resolve b)

/-! ### After a run -/

variable {w w' : MergeDb} {x y a b d : Str}

theorem resolve_of_linked (hw : ResolvableAliases w.db.assetAliases) (h : DigestLinked w x y) :
    w.resolve x = x ∧ w.resolve y = y := by
  obtain ⟨d, a, b, -, -, rfl, rfl, -⟩ := h
  exact ⟨hw.resolve_resolve a, hw.resolve_resolve b⟩

/-- Different ids of a class are canonical. -/
theorem resolve_of_class (hw : ResolvableAliases w.db.assetAliases)
    (h : Relation.EqvGen (DigestLinked w) x y) (hne : x ≠ y) :
    w.resolve x = x ∧ w.resolve y = y :=
  @ends_of_connected _ _ x y (fun z => w.resolve z = z) (fun _ _ => resolve_of_linked hw) h hne

theorem resolve_iff_of_class (hw : ResolvableAliases w.db.assetAliases)
    (h : Relation.EqvGen (DigestLinked w) x y) : w.resolve x = x ↔ w.resolve y = y := by
  by_cases hxy : x = y
  · rw [hxy]
  · obtain ⟨hx, hy⟩ := resolve_of_class hw h hxy
    exact iff_of_true hx hy

section Merged

variable (hw : ResolvableAliases w.db.assetAliases) (hw' : Progressed w w')
  (hjoined : ∀ x y, DigestLinked w x y → w'.resolve x = w'.resolve y)

include hw hw' hjoined

theorem resolve_eq_resolve_iff : w'.resolve a = w'.resolve b ↔
    Relation.EqvGen (DigestLinked w) (w.resolve a) (w.resolve b) :=
  hw'.absorbs.root_eq_iff hw.resolve_resolve hjoined

/-- A canonical id leads to the preferred one of its class. -/
theorem resolve_eq_iff_home : w'.resolve a = y ↔ Home w (w.resolve a) y := by
  have hhome : Home w (w.resolve a) (w'.resolve a) := by
    refine ⟨hw'.absorbs.linked a, fun z hz => ?_⟩
    exact hw'.absorbs.root_preferred hw.resolve_resolve hjoined
      ((resolve_iff_of_class hw hz).mp (hw.resolve_resolve a)) hz
  constructor
  · rintro rfl
    exact hhome
  · intro h
    exact (hhome.2 y h.1).antisymm (h.2 _ hhome.1)

theorem goesTo_iff {i j : Str} :
    GoesTo w i j ↔ (if w.resolve i = i then w'.resolve i else i) = j := by
  rw [GoesTo]
  split_ifs with hi
  · rw [resolve_eq_iff_home hw hw' hjoined, hi]
  · exact eq_comm

/-- The digests after a run are those that are read again. -/
theorem mem_digestPairs_iff : (d, a) ∈ w'.digestPairs ↔ ReadAgain w d a := by
  rw [MergeDb.digestPairs, List.mem_append, List.mem_filterMap, List.mem_filterMap,
    hw'.observedTags, hw'.findings, ReadAgain]
  refine or_congr ?_ Iff.rfl
  constructor
  · rintro ⟨g, hg, hpair⟩
    obtain ⟨f, hf, rfl⟩ := List.mem_map.mp hg
    cases himage : f.image with
    | none => simp [Finding.movedAlong, himage, digestPair, normAssetText] at hpair
    | some i =>
      refine ⟨f, hf, i, _, himage, (goesTo_iff hw hw' hjoined).mpr rfl, ?_⟩
      simpa only [Finding.movedAlong, himage, Option.map_some] using hpair
  · rintro ⟨f, hf, i, j, himage, hgoes, hpair⟩
    refine ⟨_, List.mem_map_of_mem hf, ?_⟩
    rw [← (goesTo_iff hw hw' hjoined).mp hgoes] at hpair
    simpa only [Finding.movedAlong, himage, Option.map_some] using hpair

omit hw hjoined in
theorem kindOf_resolve : kindOf w'.assets (w'.resolve a) = kindOf w.assets (w.resolve a) := by
  rw [hw'.kinds _ (hw'.resolvable.resolve_resolve a)]
  exact (kindOf_eq_of_linked (hw'.absorbs.linked a)).symm

/-- After a run nothing is to be merged if ids that are read again are of one class or of two
types. -/
theorem digestSettled_iff : DigestSettled w' ↔ ∀ d a b, ReadAgain w d a → ReadAgain w d b →
    kindOf w.assets (w.resolve a) = kindOf w.assets (w.resolve b) →
      Relation.EqvGen (DigestLinked w) (w.resolve a) (w.resolve b) := by
  simp only [← mem_digestPairs_iff hw hw' hjoined, ← kindOf_resolve hw',
    ← resolve_eq_resolve_iff hw hw' hjoined]
  constructor
  · intro h d a b ha hb hkind
    exact h _ _ ⟨d, a, b, ha, hb, rfl, rfl, hkind⟩
  · rintro h _ _ ⟨d, a, b, ha, hb, rfl, rfl, hkind⟩
    exact h d a b ha hb hkind

/-- The finding of a class after a run. -/
theorem exists_moved_iff {f : Finding} (hf : f ∈ w.db.findings.rows) (hx : w.resolve x = x) :
    (∃ f' ∈ w'.db.findings.rows, f'.id = f.id ∧ f'.image = some (w'.resolve x)) ↔
      ∃ i, f.image = some i ∧ Relation.EqvGen (DigestLinked w) x i := by
  have hrow : (∃ f' ∈ w'.db.findings.rows, f'.id = f.id ∧ f'.image = some (w'.resolve x)) ↔
      (f.movedAlong w.resolve w'.resolve).image = some (w'.resolve x) := by
    rw [hw'.findings]
    constructor
    · rintro ⟨g, hg, hid, himage⟩
      obtain ⟨f', hf', rfl⟩ := List.mem_map.mp hg
      obtain rfl : f' = f := Table.eq_of_pk hf' hf hid
      exact himage
    · intro himage
      exact ⟨_, List.mem_map_of_mem hf, rfl, himage⟩
  rw [hrow, Finding.movedAlong]
  dsimp only
  rw [Option.map_eq_some_iff]
  refine exists_congr fun i => and_congr_right fun _ => ?_
  have hclass := resolve_eq_resolve_iff hw hw' hjoined (a := x) (b := i)
  rw [hx] at hclass
  split_ifs with hi
  · rw [hi] at hclass
    rw [eq_comm, hclass]
  · -- An image that is no canonical id is of no class.
    refine iff_of_false (fun heq => hi ?_) fun h => hi ((resolve_iff_of_class hw h).mp hx)
    rw [heq]
    exact hw'.absorbs.root x

/-- An asset is merged into another if another of its class is preferred. -/
theorem resolve_ne_iff (hx : w.resolve x = x) :
    w'.resolve x ≠ x ↔ ∃ y, Relation.EqvGen (DigestLinked w) x y ∧ y ≠ x ∧ Preferred y x := by
  have hhome : w'.resolve x = w'.resolve x ↔ _ := resolve_eq_iff_home hw hw' hjoined
  rw [hx] at hhome
  obtain ⟨hlinked, hleast⟩ := hhome.mp rfl
  constructor
  · intro hne
    exact ⟨w'.resolve x, hlinked, hne, hleast x (.refl x)⟩
  · rintro ⟨y, hxy, hne, hpreferred⟩ heq
    have hy := hleast y hxy
    rw [heq] at hy
    exact hne (hpreferred.antisymm hy)

theorem mergesDuplicates_iff : MergesDuplicates w w' ↔
    (∀ x y, Relation.EqvGen (DigestLinked w) x y → x ≠ y → SameType w x y) ∧
      ∀ f ∈ w.db.findings.rows, ∀ x y, Relation.EqvGen (DigestLinked w) x y → y ≠ x →
        Preferred y x → normAssetText f.image = normAssetText (some x) →
          ∃ i, f.image = some i ∧ Relation.EqvGen (DigestLinked w) x i := by
  have hclass : ∀ {x y}, w.resolve x = x → w.resolve y = y →
      (w'.resolve x = w'.resolve y ↔ Relation.EqvGen (DigestLinked w) x y) := by
    intro x y hx hy
    have h := resolve_eq_resolve_iff hw hw' hjoined (a := x) (b := y)
    rwa [hx, hy] at h
  constructor
  · rintro ⟨hmerged, hfindings⟩
    refine ⟨fun x y hxy hne => ?_, fun f hf x y hxy hne hpreferred hnorm => ?_⟩
    · obtain ⟨hx, hy⟩ := resolve_of_class hw hxy hne
      exact (hmerged x y hx hy hne ((hclass hx hy).mpr hxy)).2
    · obtain ⟨hx, -⟩ := resolve_of_class hw hxy hne.symm
      have hmoved := (resolve_ne_iff hw hw' hjoined hx).mpr ⟨y, hxy, hne, hpreferred⟩
      exact (exists_moved_iff hw hw' hjoined hf hx).mp (hfindings f hf x hx hmoved hnorm)
  · rintro ⟨htypes, himages⟩
    refine ⟨fun x y hx hy hne hsame => ?_, fun f hf x hx hmoved hnorm => ?_⟩
    · have hxy := (hclass hx hy).mp hsame
      refine ⟨hxy.mono ?_, htypes x y hxy hne⟩
      rintro _ _ ⟨d, a, b, ha, hb, hax, hby, -⟩
      exact ⟨d, a, b, ha, hb, hax, hby⟩
    · obtain ⟨y, hxy, hne, hpreferred⟩ := (resolve_ne_iff hw hw' hjoined hx).mp hmoved
      exact (exists_moved_iff hw hw' hjoined hf hx).mpr (himages f hf x y hxy hne hpreferred hnorm)

end Merged

/-- Where every chain of aliases ends, a run merges duplicates and a second one changes nothing
exactly if the spelling of ids makes no difference. -/
theorem reachesFixpoint_iff [SetOrder] {cfg : Settings} {now now' : Instant} {createdBy : Option Str}
    (hw : ResolvableAliases w.db.assetAliases) :
    ReachesFixpoint cfg now now' createdBy w ↔ OneSpelling w := by
  obtain ⟨w', stats, hrun, hw', hjoined, -⟩ := exists_autoMerge cfg now createdBy hw
  obtain ⟨w'', stats', hagain, -, -, hsettled⟩ :=
    exists_autoMerge cfg now' createdBy hw'.resolvable
  have hmerges := mergesDuplicates_iff hw hw' hjoined
  rw [digestSettled_iff hw hw' hjoined] at hsettled
  constructor
  · rintro ⟨v, s, hv, hduplicates, s', hs', hcreated, hrepointed⟩
    obtain ⟨rfl, rfl⟩ := Prod.mk.inj (Option.some.inj (hrun.symm.trans hv))
    obtain ⟨rfl, rfl⟩ := Prod.mk.inj (Option.some.inj (hagain.symm.trans hs'))
    obtain ⟨htypes, himages⟩ := hmerges.mp hduplicates
    exact ⟨htypes, himages, hsettled.mp ⟨rfl, hcreated, hrepointed⟩⟩
  · rintro ⟨htypes, himages, hread⟩
    obtain ⟨rfl, hcreated, hrepointed⟩ := hsettled.mpr hread
    exact ⟨w'', stats, hrun, hmerges.mpr ⟨htypes, himages⟩, stats', hagain, hcreated, hrepointed⟩

end General

/-! ### Two bundles -/

section Bundles

attribute [local instance] asciiUnicode

/-- Sets in the order of insertion. -/
@[reducible] def insertedFirst : SetOrder := ⟨fun texts => texts, fun _ => .rfl⟩

attribute [local instance] insertedFirst

/-- A finding of a bundle whose image has a digest. -/
def bundleFinding (id image : String) : Finding :=
  { Finding.blank (str id) (str id) (str "CVE-2024-1") with
    image := some (str image)
    imageDigest := some (str "sha256:ab") }

theorem nodup_bundleFindings : [str "f-1", str "f-2"].Nodup := by decide

/-- Two bundles with a common digest. -/
def twoBundles (image image' : String) (assets : Table TypedAsset) : MergeDb where
  db := Db.ofFindings
    { rows := [bundleFinding "f-1" image, bundleFinding "f-2" image']
      pk_nodup := nodup_bundleFindings
      uk_nodup := nodup_bundleFindings }
  assets := assets
  observedTags := []
  mergeEvents := []

/-- The rows of two bundles whose ids have capitals. -/
def bundleAssets : Table TypedAsset where
  rows := [⟨str "Platform-Bundle", str "package"⟩, ⟨str "Edge-Bundle", str "package"⟩]
  pk_nodup := by decide
  uk_nodup := by decide

theorem resolvableAliases_empty : ResolvableAliases .empty :=
  ⟨fun _ h => absurd h List.not_mem_nil, fun _ => rfl⟩

/-- The merge makes an alias of `platform-bundle`, and the finding of `Platform-Bundle` stays. -/
theorem not_reachesFixpoint_bundles :
    ¬ ∀ (_ : Unicode) (_ : SetOrder) (cfg : Settings) (now now' : Instant)
      (createdBy : Option Str) (w : MergeDb), ResolvableAliases w.db.assetAliases →
        ReachesFixpoint cfg now now' createdBy w := by
  intro h
  obtain ⟨w', stats, hrun, ⟨-, hfindings⟩, -⟩ := h asciiUnicode insertedFirst ⟨false, []⟩ 0 0 none
    (twoBundles "Platform-Bundle" "Edge-Bundle" bundleAssets) resolvableAliases_empty
  have hleft : ((twoBundles "Platform-Bundle" "Edge-Bundle" bundleAssets).autoMergeAssetsByDigest
      ⟨false, []⟩ 0 none).map (fun r =>
        (r.1.resolve (str "platform-bundle"), r.1.db.findings.rows.map Finding.image)) =
      some (str "edge-bundle", [some (str "Platform-Bundle"), some (str "Edge-Bundle")]) := by
    decide +kernel
  rw [hrun, Option.map_some, Option.some.injEq, Prod.mk.injEq] at hleft
  obtain ⟨halias, himages⟩ := hleft
  obtain ⟨f', hf', -, himage⟩ := hfindings (bundleFinding "f-1" "Platform-Bundle")
    List.mem_cons_self (str "platform-bundle") (by decide +kernel)
    (by rw [halias]; decide) (by decide +kernel)
  have hmem := List.mem_map_of_mem hf' (f := Finding.image)
  rw [himages, himage, halias] at hmem
  revert hmem
  decide

/-- The tables of two bundles whose ids have no capitals. -/
def lowerBundles : MergeDb := twoBundles "platform-bundle" "edge-bundle" .empty

/-- The ids of the two bundles. -/
def bundleIds : List Str := [str "platform-bundle", str "edge-bundle"]

theorem resolve_of_mem_bundleIds : ∀ x ∈ bundleIds, lowerBundles.resolve x = x := by
  decide +kernel

theorem digestLinked_bundles {x y : Str} :
    DigestLinked lowerBundles x y ↔ x ∈ bundleIds ∧ y ∈ bundleIds := by
  have hpairs : lowerBundles.digestPairs = bundleIds.map fun x => (str "sha256:ab", x) := by
    decide +kernel
  have hpair : ∀ {d a}, (d, a) ∈ lowerBundles.digestPairs ↔ a ∈ bundleIds ∧ str "sha256:ab" = d := by
    intro d a
    rw [hpairs, List.mem_map]
    simp
  constructor
  · rintro ⟨d, a, b, ha, hb, rfl, rfl, -⟩
    obtain ⟨ha, -⟩ := hpair.mp ha
    obtain ⟨hb, -⟩ := hpair.mp hb
    rw [resolve_of_mem_bundleIds a ha, resolve_of_mem_bundleIds b hb]
    exact ⟨ha, hb⟩
  · rintro ⟨hx, hy⟩
    exact ⟨_, x, y, hpair.mpr ⟨hx, rfl⟩, hpair.mpr ⟨hy, rfl⟩, resolve_of_mem_bundleIds x hx,
      resolve_of_mem_bundleIds y hy, rfl⟩

/-- Two bundles whose ids have no capitals are merged once. -/
theorem reachesFixpoint_bundles : ReachesFixpoint ⟨false, []⟩ 0 1 none lowerBundles := by
  have hends : ∀ {x y}, Relation.EqvGen (DigestLinked lowerBundles) x y → x ≠ y →
      x ∈ bundleIds ∧ y ∈ bundleIds := fun h hne =>
    @ends_of_connected _ _ _ _ (fun z => z ∈ bundleIds) (fun _ _ => digestLinked_bundles.mp) h hne
  have hclass : ∀ {x y}, x ∈ bundleIds → y ∈ bundleIds →
      Relation.EqvGen (DigestLinked lowerBundles) x y :=
    fun hx hy => .rel _ _ (digestLinked_bundles.mpr ⟨hx, hy⟩)
  have himages : ∀ f ∈ lowerBundles.db.findings.rows, ∃ i ∈ bundleIds, f.image = some i ∧
      ∀ j ∈ bundleIds, digestPair f.imageDigest (some j) = some (str "sha256:ab", j) := by
    decide +kernel
  refine (reachesFixpoint_iff resolvableAliases_empty).mpr ⟨fun x y _ _ p hp => ?_,
    fun f hf x y hxy hne _ _ => ?_, fun d a b ha hb _ => ?_⟩
  · exact absurd hp List.not_mem_nil
  · obtain ⟨i, hi, himage, -⟩ := himages f hf
    exact ⟨i, himage, hclass (hends hxy hne.symm).1 hi⟩
  · have hread : ∀ {a}, ReadAgain lowerBundles d a → a ∈ bundleIds := by
      rintro a (⟨f, hf, i, j, himage, hgoes, hpair⟩ | ⟨tag, htag, -⟩)
      · obtain ⟨i', hi', himage', hdigest⟩ := himages f hf
        obtain rfl := Option.some.inj (himage.symm.trans himage')
        rw [GoesTo, if_pos (resolve_of_mem_bundleIds i hi')] at hgoes
        have hj : j ∈ bundleIds := by
          by_cases hij : i = j
          · rwa [← hij]
          · exact (hends hgoes.1 hij).2
        rw [hdigest j hj] at hpair
        obtain ⟨-, rfl⟩ := Prod.mk.inj (Option.some.inj hpair)
        exact hj
      · exact absurd htag List.not_mem_nil
    rw [resolve_of_mem_bundleIds a (hread ha), resolve_of_mem_bundleIds b (hread hb)]
    exact hclass (hread ha) (hread hb)

end Bundles

end Vat
