import Vat.Frontend.ContainerKeys
import Vat.Keyed.Grouped

/-!
# Asset pages

The list of assets groups findings by the key of their image or their component. The page of an
asset gathers the findings whose key is the same asset as its id: the same text up to blanks, or
container references with the same group key. A key of an image is a group key already, one of a
component is not; and a group key that an alias rule or a second tag changes again need not be its
own.

Source: `frontend/lib/assetUtils.ts`, lines 61–131, 299–367 and 549–560;
`frontend/lib/containerRefNormalization.ts`, lines 157–205.

## Main definitions

* `Frontend.assetIdForFinding`, `Frontend.deriveAssets`: the list.
* `Frontend.sameAssetIdentity`, `Frontend.collectFindingsForAssetIdentity`,
  `Frontend.resolveAssetForPage`: the page.
* `Frontend.PagesShowList`: every page shows what the list counts.
* `Frontend.Confusable`: the page takes a key for another.

## Main results

* `Frontend.equivalence_sameIdentity`: the identity of assets is an equivalence relation.
* `Frontend.pagesShowList_iff`: when the pages show what the list counts.
-/

namespace Vat

open Keyed

namespace Frontend

variable [Unicode]

/-! ### The list -/

/-- `shouldExposeAssetInMainList`. -/
def shouldExposeAssetInMainList (assetId : Option Str) : Bool :=
  let id := Unicode.lower (Js.trim (Str.orEmpty assetId))
  if id = [] then false
  else if Str.startsWith id (str "k8s/") then false
  else true

/-- `assetIdForFinding`, which is `assetKey`. -/
def assetIdForFinding (pairs : List (Str × Str)) (f : Finding) : Option Str :=
  let img := Js.trim (Str.orEmpty f.image)
  let comp := Js.trim (Str.orEmpty f.component)
  if img ≠ [] then
    let key := groupKey pairs img
    if shouldExposeAssetInMainList (some key) then some key else none
  else if comp ≠ [] then
    if shouldExposeAssetInMainList (some comp) then some comp else none
  else some (str "unknown-" ++ f.id)

/-- An asset, without what the list reports of its findings. -/
structure Asset where
  id : Str
  findings : List Finding

/-- `deriveAssets`. A key is never the empty text. -/
def deriveAssets (pairs : List (Str × Str)) (findings : List Finding) : List Asset :=
  (grouped (assetIdForFinding pairs) findings).entries.map fun e => ⟨e.1, e.2⟩

/-! ### The page -/

/-- `sameAssetIdentity`. -/
def sameAssetIdentity (pairs : List (Str × Str)) (a b : Str) : Bool :=
  let ta := Js.trim a
  let tb := Js.trim b
  if ta = [] ∨ tb = [] then ta = tb
  else if ta = tb then true
  else if inferAssetKindForGrouping ta [] = .container ∧
      inferAssetKindForGrouping tb [] = .container then groupKey pairs ta = groupKey pairs tb
  else false

/-- `collectFindingsForAssetIdentity`. -/
def collectFindingsForAssetIdentity (pairs : List (Str × Str)) (assetId : Str)
    (findings : List Finding) : List Finding :=
  let id := Js.trim assetId
  if id = [] then []
  else findings.filter fun f =>
    match assetIdForFinding pairs f with
    | none => false
    | some findingAssetId => sameAssetIdentity pairs findingAssetId id

/-- `resolveAssetForPage`. -/
def resolveAssetForPage (pairs : List (Str × Str)) (assetId : Str) (reportAssets : List Asset)
    (allFindings : List Finding) : Option Asset :=
  let related := collectFindingsForAssetIdentity pairs assetId allFindings
  let apiMatch := reportAssets.find? fun a => sameAssetIdentity pairs a.id assetId
  if related = [] then apiMatch
  else
    let derivedList := deriveAssets pairs related
    let matchDerived :=
      (derivedList.find? fun a => sameAssetIdentity pairs a.id assetId).or derivedList.head?
    match matchDerived, apiMatch with
    | none, _ => apiMatch
    | some matchDerived, none => some matchDerived
    | some matchDerived, some apiMatch => some { matchDerived with id := apiMatch.id }

/-- Every page shows the findings that the list counts, every finding of the list is on one page,
and no two assets of the list are the same. -/
structure PagesShowList (pairs : List (Str × Str)) (findings : List Finding) : Prop where
  collected : ∀ a ∈ deriveAssets pairs findings,
    collectFindingsForAssetIdentity pairs a.id findings = a.findings
  shown : ∀ f ∈ findings, (assetIdForFinding pairs f).isSome →
    ∃! a, a ∈ deriveAssets pairs findings ∧
      f ∈ collectFindingsForAssetIdentity pairs a.id findings
  distinct : ∀ a ∈ deriveAssets pairs findings, ∀ b ∈ deriveAssets pairs findings,
    sameAssetIdentity pairs a.id b.id → a = b
  resolved : ∀ reportAssets, ∀ a ∈ deriveAssets pairs findings,
    (resolveAssetForPage pairs a.id reportAssets findings).map Asset.findings = some a.findings

/-! ### Identity -/

/-- A reference of a container image. -/
def IsContainer (key : Str) : Prop := inferAssetKindForGrouping key [] = .container

instance : DecidablePred IsContainer := fun _ => inferInstanceAs (Decidable (_ = _))

/-- What the identity of an asset depends on: the group key of a container reference, the text of
every other id. -/
def identityOf (pairs : List (Str × Str)) (a : Str) : Str ⊕ Str :=
  if IsContainer (Js.trim a) then .inl (groupKey pairs (Js.trim a)) else .inr (Js.trim a)

/-- Two ids are the same asset. -/
def SameIdentity (pairs : List (Str × Str)) (a b : Str) : Prop := sameAssetIdentity pairs a b = true

instance (pairs : List (Str × Str)) : DecidableRel (SameIdentity pairs) := fun _ _ =>
  inferInstanceAs (Decidable (_ = true))

theorem not_isContainer_nil : ¬ IsContainer [] := by
  rw [IsContainer, inferAssetKindForGrouping]
  exact AssetKind.noConfusion

theorem sameIdentity_iff {pairs : List (Str × Str)} {a b : Str} :
    SameIdentity pairs a b ↔ identityOf pairs a = identityOf pairs b := by
  rw [SameIdentity, sameAssetIdentity, identityOf, identityOf]
  by_cases hempty : Js.trim a = [] ∨ Js.trim b = []
  · rw [if_pos hempty, decide_eq_true_eq]
    constructor
    · intro h
      rw [h]
    · rcases hempty with hempty | hempty <;> rw [hempty, if_neg not_isContainer_nil]
      · split_ifs
        · intro h
          cases h
        · exact Sum.inr.inj
      · split_ifs
        · intro h
          cases h
        · exact Sum.inr.inj
  rw [if_neg hempty]
  by_cases heq : Js.trim a = Js.trim b
  · rw [if_pos heq, heq]
    exact iff_of_true rfl rfl
  rw [if_neg heq]
  by_cases hboth : inferAssetKindForGrouping (Js.trim a) [] = .container ∧
      inferAssetKindForGrouping (Js.trim b) [] = .container
  · have ha : IsContainer (Js.trim a) := hboth.1
    have hb : IsContainer (Js.trim b) := hboth.2
    rw [if_pos hboth, if_pos ha, if_pos hb, decide_eq_true_eq, Sum.inl.injEq]
  · rw [if_neg hboth]
    refine iff_of_false Bool.false_ne_true fun h => ?_
    split_ifs at h with ha hb hb
    · exact hboth ⟨ha, hb⟩
    · exact heq (Sum.inr.inj h)

/-- The identity of assets is an equivalence relation. -/
theorem equivalence_sameIdentity (pairs : List (Str × Str)) : Equivalence (SameIdentity pairs) where
  refl _ := sameIdentity_iff.mpr rfl
  symm h := sameIdentity_iff.mpr (sameIdentity_iff.mp h).symm
  trans h h' := sameIdentity_iff.mpr ((sameIdentity_iff.mp h).trans (sameIdentity_iff.mp h'))

omit [Unicode] in
theorem Js.trim_trim (s : Str) : Js.trim (Js.trim s) = Js.trim s := Str.stripWhile_stripWhile _ _

/-- Blanks at the ends of an id do not matter. -/
theorem sameAssetIdentity_trim (pairs : List (Str × Str)) (a b : Str) :
    sameAssetIdentity pairs a (Js.trim b) = sameAssetIdentity pairs a b := by
  rw [sameAssetIdentity, sameAssetIdentity, Js.trim_trim]

/-! ### Listed keys -/

theorem trim_ne_nil_of_exposed {key : Str} (h : shouldExposeAssetInMainList (some key) = true) :
    Js.trim key ≠ [] := by
  intro hnil
  rw [shouldExposeAssetInMainList, Str.orEmpty_some, hnil, Unicode.lower_nil, if_pos rfl] at h
  cases h

omit [Unicode] in
theorem trim_cons_ne_nil {c : Char} (h : Js.isSpace c = false) (s : Str) : Js.trim (c :: s) ≠ [] := by
  rw [Js.trim, Str.stripWhile, List.dropWhile_cons, h, if_neg Bool.false_ne_true]
  intro hnil
  have hall := List.rdropWhile_eq_nil_iff.mp hnil c List.mem_cons_self
  rw [h] at hall
  cases hall

/-- The key of a finding is not blank. -/
theorem trim_ne_nil_of_listed {pairs : List (Str × Str)} {f : Finding} {key : Str}
    (h : assetIdForFinding pairs f = some key) : Js.trim key ≠ [] := by
  simp only [assetIdForFinding] at h
  split_ifs at h with himg hkey hcomp hexposed
  · exact Option.some_inj.mp h ▸ trim_ne_nil_of_exposed hkey
  · exact Option.some_inj.mp h ▸ trim_ne_nil_of_exposed hexposed
  · rw [← Option.some_inj.mp h]
    exact trim_cons_ne_nil rfl _

theorem collectFindings_eq_page {pairs : List (Str × Str)} {assetId : Str}
    (h : Js.trim assetId ≠ []) (findings : List Finding) :
    collectFindingsForAssetIdentity pairs assetId findings =
      page (SameIdentity pairs) (assetIdForFinding pairs) findings assetId := by
  rw [collectFindingsForAssetIdentity, page, if_neg h]
  refine List.filter_congr fun f _ => ?_
  cases assetIdForFinding pairs f with
  | none => rfl
  | some key =>
    rw [Option.any_some]
    exact (sameAssetIdentity_trim pairs key assetId).trans Bool.decide_eq_true.symm

/-! ### Pages -/

theorem mem_deriveAssets {pairs : List (Str × Str)} {findings : List Finding} {a : Asset} :
    a ∈ deriveAssets pairs findings ↔
      (a.id, a.findings) ∈ (grouped (assetIdForFinding pairs) findings).entries := by
  rw [deriveAssets, List.mem_map]
  constructor
  · rintro ⟨e, he, rfl⟩
    exact he
  · exact fun he => ⟨_, he, rfl⟩

theorem mem_deriveAssets_of_key {pairs : List (Str × Str)} {findings : List Finding} {f : Finding}
    {key : Str} (hf : f ∈ findings) (hkey : assetIdForFinding pairs f = some key) :
    ⟨key, findings.filter (assetIdForFinding pairs · = some key)⟩ ∈ deriveAssets pairs findings :=
  mem_deriveAssets.mpr (mem_entries_grouped.mpr ⟨rfl, f, hf, hkey⟩)

theorem trim_id_ne_nil {pairs : List (Str × Str)} {findings : List Finding} {a : Asset}
    (ha : a ∈ deriveAssets pairs findings) : Js.trim a.id ≠ [] := by
  obtain ⟨-, f, -, hkey⟩ := mem_entries_grouped.mp (mem_deriveAssets.mp ha)
  exact trim_ne_nil_of_listed hkey

/-- What a page resolves for an asset whose findings it gathers. -/
theorem resolveAssetForPage_findings {pairs : List (Str × Str)} {findings : List Finding} {a : Asset}
    (ha : a ∈ deriveAssets pairs findings)
    (hcollect : collectFindingsForAssetIdentity pairs a.id findings = a.findings)
    (reportAssets : List Asset) :
    (resolveAssetForPage pairs a.id reportAssets findings).map Asset.findings = some a.findings := by
  have hentry := mem_deriveAssets.mp ha
  obtain ⟨hown, f, hf, hkey⟩ := mem_entries_grouped.mp hentry
  have hne : a.findings ≠ [] := by
    rw [hown]
    refine List.ne_nil_of_mem (a := f) ?_
    rw [List.mem_filter, decide_eq_true_eq]
    exact ⟨hf, hkey⟩
  have hderived : deriveAssets pairs a.findings = [a] := by
    rw [deriveAssets, grouped_group hentry]
    rfl
  have hself : sameAssetIdentity pairs a.id a.id = true := (equivalence_sameIdentity pairs).refl a.id
  simp only [resolveAssetForPage, hcollect, if_neg hne, hderived, List.find?_cons, hself,
    Option.some_or]
  cases reportAssets.find? fun b => sameAssetIdentity pairs b.id a.id <;> rfl

/-! ### When the pages show the list -/

/-- A key is taken for another: they differ in the blanks at their ends, or both are references of
containers of which the first is not in normal form, and has the normal form of the other. -/
def Confusable (pairs : List (Str × Str)) (key key' : Str) : Prop :=
  Js.trim key = Js.trim key' ∨
    IsContainer (Js.trim key) ∧ IsContainer (Js.trim key') ∧ groupKey pairs key ≠ key ∧
      groupKey pairs key = groupKey pairs key'

theorem groupKey_trim (pairs : List (Str × Str)) (image : Str) :
    groupKey pairs (Js.trim image) = groupKey pairs image := by
  rw [groupKey, groupKey, Js.trim_trim]

/-- Of different keys that are the same asset one is taken for the other. -/
theorem sameIdentity_iff_confusable {pairs : List (Str × Str)} {key key' : Str} (hne : key ≠ key') :
    SameIdentity pairs key key' ↔ Confusable pairs key key' ∨ Confusable pairs key' key := by
  rw [sameIdentity_iff, identityOf, identityOf, groupKey_trim, groupKey_trim]
  constructor
  · intro h
    split_ifs at h with hkey hkey'
    · have hgroup := Sum.inl.inj h
      by_cases hnormal : groupKey pairs key = key
      · refine Or.inr (Or.inr ⟨hkey', hkey, fun hnormal' => hne ?_, hgroup.symm⟩)
        rw [← hnormal, hgroup, hnormal']
      · exact Or.inl (Or.inr ⟨hkey, hkey', hnormal, hgroup⟩)
    · exact Or.inl (Or.inl (Sum.inr.inj h))
  · rintro ((heq | ⟨hkey, hkey', -, hgroup⟩) | (heq | ⟨hkey', hkey, -, hgroup⟩))
    · rw [heq, ← groupKey_trim pairs key, ← groupKey_trim pairs key', heq]
    · rw [if_pos hkey, if_pos hkey', hgroup]
    · rw [← heq, ← groupKey_trim pairs key, ← groupKey_trim pairs key', heq]
    · rw [if_pos hkey, if_pos hkey', hgroup]

/-- The identity of assets is an equivalence relation; and the pages show what the list counts
exactly when no key of a listed finding is taken for the key of another. -/
theorem pagesShowList_iff (pairs : List (Str × Str)) (findings : List Finding) :
    Equivalence (fun a b => sameAssetIdentity pairs a b = true) ∧
      (PagesShowList pairs findings ↔
        ∀ f ∈ findings, ∀ g ∈ findings, ∀ key ∈ assetIdForFinding pairs f,
          ∀ key' ∈ assetIdForFinding pairs g, key ≠ key' → ¬ Confusable pairs key key') := by
  refine ⟨equivalence_sameIdentity pairs, ?_⟩
  have hequiv := equivalence_sameIdentity pairs
  have hcollect : ∀ a ∈ deriveAssets pairs findings,
      collectFindingsForAssetIdentity pairs a.id findings =
        page (SameIdentity pairs) (assetIdForFinding pairs) findings a.id :=
    fun a ha => collectFindings_eq_page (trim_id_ne_nil ha) findings
  constructor
  · intro h f hf g hg key hkey key' hkey' hne hconfusable
    have hdistinct := h.distinct _ (mem_deriveAssets_of_key hf hkey) _
      (mem_deriveAssets_of_key hg hkey') ((sameIdentity_iff_confusable hne).mpr (Or.inl hconfusable))
    exact hne (congrArg Asset.id hdistinct)
  · intro h
    have hapart : Apart (SameIdentity pairs) (assetIdForFinding pairs) findings := by
      intro f hf g hg key hkey key' hkey' hsame
      by_contra hne
      rcases (sameIdentity_iff_confusable hne).mp hsame with hconfusable | hconfusable
      · exact h f hf g hg key hkey key' hkey' hne hconfusable
      · exact h g hg f hf key' hkey' key hkey (Ne.symm hne) hconfusable
    have hcollected : ∀ a ∈ deriveAssets pairs findings,
        collectFindingsForAssetIdentity pairs a.id findings = a.findings := fun a ha =>
      (hcollect a ha).trans
        ((page_eq_iff_apart hequiv).mpr hapart (a.id, a.findings) (mem_deriveAssets.mp ha))
    refine ⟨hcollected, fun f hf hsome => ?_, fun a ha b hb hsame => ?_, fun reportAssets a ha =>
      resolveAssetForPage_findings ha (hcollected a ha) reportAssets⟩
    · obtain ⟨⟨key, own⟩, ⟨hentry, hmem⟩, hunique⟩ :=
        (existsUnique_page_iff_apart hequiv).mpr hapart f hf hsome
      have hasset : (⟨key, own⟩ : Asset) ∈ deriveAssets pairs findings :=
        mem_deriveAssets.mpr hentry
      refine ⟨⟨key, own⟩, ⟨hasset, (hcollect _ hasset).symm ▸ hmem⟩, ?_⟩
      rintro b ⟨hb, hshown⟩
      rw [hcollect b hb] at hshown
      cases hunique (b.id, b.findings) ⟨mem_deriveAssets.mp hb, hshown⟩
      rfl
    · have hpair := entries_eq_iff_apart.mpr hapart (a.id, a.findings) (mem_deriveAssets.mp ha)
        (b.id, b.findings) (mem_deriveAssets.mp hb) hsame
      cases a
      cases b
      cases hpair
      rfl

end Frontend

section Components

attribute [local instance] asciiUnicode

/-- Findings of two packages of a Maven group, without an image. -/
def mavenFindings : List Finding :=
  [{ Finding.blank (str "f-1") (str "f-1") (str "CVE-2024-1") with
      component := some (str "org.acme:core") },
    { Finding.blank (str "f-2") (str "f-2") (str "CVE-2024-2") with
      component := some (str "org.acme:web") }]

/-- The page of either package gathers the findings of both. -/
theorem not_pagesShowList_mavenFindings :
    ¬ ∀ pairs findings, Equivalence (fun a b => Frontend.sameAssetIdentity pairs a b = true) ∧
      Frontend.PagesShowList pairs findings := by
  intro h
  have hpage := (h [] mavenFindings).2.collected ⟨str "org.acme:core", mavenFindings.take 1⟩
    (List.mem_of_getElem? (i := 0) rfl)
  exact absurd (congrArg List.length hpage) (by decide +kernel)

end Components

end Vat
