import Mathlib.Logic.Relation
import Vat.Frontend.GroupKeys
import Vat.Identity.ReferenceParts
import Vat.Python.Spelling

/-!
# Canonical keys of container references

The key of a reference is its repository, written out with the registry and in lower case. It is its
own key unless something is left of it to take off: a path that is empty, blanks at the end, a
second tag, or the marker of a digest in upper case. Ingest takes the key of the references that it
recognizes as containers and leaves any other image as it is.

Source: `backend/app/services/container_ref_normalization.py`, lines 66–133;
`backend/app/services/asset_resolver.py`, lines 38–61 and 188–209;
`backend/app/services/assets_service.py`, lines 44–63.

## Main definitions

* `SpelledTables`: lower case replaces each character by itself.
* `PlainReference`: nothing is left to take off the key of a reference.
* `RulesSettle`: the path aliases leave a key that they have rewritten.
* `WritesOut`: a reference with a tag, a digest, `library` or `docker.io` added.
* `CanonicalReferences`: keys are idempotent, and so are group keys; what is added to a reference
  does not change its image for the correlation.

## Main results

* `canonical_references`, `not_canonicalReferences`.
-/

namespace Vat

open Relational

/-- Lower case replaces each character, and leaves what references are split at. -/
class SpelledTables extends LowerTables where
  spells_lower : ∀ s, Spells s (lower s)

/-- A letter is no mark. -/
theorem isMark_of_letter {c : Char} (hge : 65 ≤ c.toNat) (hle : c.toNat ≤ 122) :
    isMark c = false := by
  have hne : ∀ d : Char, d.toNat < 65 → (c == d) = false := by
    intro d hd
    rw [beq_eq_false_iff_ne]
    rintro rfl
    omega
  rw [isMark, (isSpace_of_letter hge hle).1, hne '/' (by decide), hne ':' (by decide),
    hne '.' (by decide)]
  rfl

/-- The lower case of an ASCII character is a spelling of it. -/
theorem isSpelling_toLower (c : Char) : IsSpelling c [c.toLower] := by
  obtain ⟨h, -⟩ | ⟨hge, hle, h⟩ := toNat_toLower c
  · rw [h]
    refine ⟨List.cons_ne_nil _ _, fun _ => rfl, fun hc d hd => ?_⟩
    rwa [List.mem_singleton.mp hd]
  · have hc := isMark_of_letter hge (by omega)
    have hlower := isMark_of_letter (c := c.toLower) (by omega) (by omega)
    refine ⟨List.cons_ne_nil _ _, fun hmark => ?_, fun _ d hd => ?_⟩
    · rw [hc] at hmark
      cases hmark
    · rwa [List.mem_singleton.mp hd]

/-- The lower case of ASCII text is a spelling of it. -/
theorem spells_map_toLower (s : Str) : Spells s (s.map Char.toLower) := by
  induction s with
  | nil => exact .nil
  | cons c s ih => exact .cons (isSpelling_toLower c) ih

/-- The tables on ASCII text. -/
@[reducible] def asciiSpelledTables : SpelledTables where
  toLowerTables := asciiLowerTables
  spells_lower := spells_map_toLower

/-- The canonical key of a reference. -/
abbrev canonicalKey [Unicode] (s : Str) : Str := (normalizeContainerRef (some s)).canonicalAssetKey

section References

variable [SpelledTables]

/-! ### Lower case -/

theorem lower_lower (s : Str) : Unicode.lower (Unicode.lower s) = Unicode.lower s :=
  LowerTables.lower_eq_self _ (LowerTables.lower_of_mem_lower s)

/-- Nothing is stripped from a text in lower case if nothing is stripped from the text. -/
theorem stripWhile_lower_iff {p : Char → Bool} (hp : ∀ c, p c → isMark c) (s : Str) :
    Str.stripWhile p (Unicode.lower s) = Unicode.lower s ↔ Str.stripWhile p s = s := by
  have hspells := SpelledTables.spells_lower s
  rw [Str.stripWhile_eq_self_iff, Str.stripWhile_eq_self_iff]
  have hends : ∀ {x y : Option Char}, (∀ c, isMark c → (x = some c ↔ y = some c)) →
      (∀ c, y = some c → p c = false) → ∀ c, x = some c → p c = false := by
    intro x y hiff hy c hc
    by_contra hpc
    have hmark : p c = true := Bool.of_not_eq_false hpc
    exact hpc (hy c ((hiff c (hp c hmark)).mp hc))
  exact and_congr
    ⟨hends fun c hc => (hspells.head?_mark_iff hc).symm, hends fun c hc => hspells.head?_mark_iff hc⟩
    ⟨hends fun c hc => (hspells.getLast?_mark_iff hc).symm,
      hends fun c hc => hspells.getLast?_mark_iff hc⟩

omit [SpelledTables] in
theorem strip_eq_nil_iff {s : Str} : Str.strip s = [] ↔ ∀ c ∈ s, Str.isSpace c := by
  refine ⟨Frontend.of_stripWhile_eq_nil, fun h => ?_⟩
  have hblank := Str.stripWhile_append_left h []
  rwa [List.append_nil] at hblank

/-- A text in lower case has a tag if the text has one. -/
theorem untagged_lower_iff (s : Str) : Untagged (Unicode.lower s) ↔ Untagged s := by
  have hspells := SpelledTables.spells_lower s
  by_cases hmem : ':' ∈ s
  · obtain ⟨y, hs, hy⟩ := Str.exists_rsplit1 hmem
    set x := (Str.rsplit1 ':' s).1
    rw [hs] at hspells ⊢
    obtain ⟨X, t, ht, -, hcons⟩ := hspells.append_inv
    obtain ⟨Y, rfl, hY⟩ := hcons.mark_cons (by decide)
    have hcolon : ':' ∉ Y := fun h => hy ((hY.mem_mark_iff (by decide)).mp h)
    rw [ht, untagged_append_iff hy, untagged_append_iff hcolon, hY.mem_mark_iff (by decide),
      strip_eq_nil_iff, strip_eq_nil_iff, hY.all_isSpace_iff]
  · have hlower : ':' ∉ Unicode.lower s := fun h => hmem ((hspells.mem_mark_iff (by decide)).mp h)
    exact iff_of_true (untagged_of_notMem hlower) (untagged_of_notMem hmem)

theorem IsRegistry.lower {s : Str} (h : IsRegistry s) : IsRegistry (Unicode.lower s) := by
  have hspells := SpelledTables.spells_lower s
  obtain h | h | rfl := h
  · exact .inl ((hspells.mem_mark_iff (by decide)).mpr h)
  · exact .inr (.inl ((hspells.mem_mark_iff (by decide)).mpr h))
  · exact .inr (.inr (Unicode.lower_eq_self (by decide)))

/-! ### Keys -/

/-- A key is made of the registry and the path. -/
theorem repositoryKey_eq_registryPath (repo : Str) :
    ImageRef.repositoryKey repo =
      let key := Str.stripWhile (· == '/') (Unicode.lower (registryPath repo).1 ++ str "/" ++
        Unicode.lower (registryPath repo).2)
      if key = [] then str "docker.io/library/unknown" else key := by
  rw [ImageRef.repositoryKey, registryPath]
  cases splitRegistryAndPath repo with
  | mk registry path =>
    cases registry with
    | none => rfl
    | some registry => rfl

omit [SpelledTables] in
/-- A repository that is written out neither starts nor ends with a slash if it has a path. -/
theorem stripWhile_fullName {repo : Str} (h : (registryPath repo).2 ≠ []) :
    Str.stripWhile (· == '/') (fullName repo) = fullName repo := by
  obtain ⟨hregistry, hslash⟩ := isRegistry_registryPath repo
  have hpath := (Str.stripWhile_eq_self_iff.mp (stripWhile_registryPath repo)).2
  refine Str.stripWhile_eq_self_iff.mpr ⟨fun c hc => ?_, fun c hc => hpath c ?_⟩
  · obtain ⟨d, rest, hd⟩ := List.exists_cons_of_ne_nil hregistry.ne_nil
    rw [fullName, hd, List.cons_append, List.head?_cons, Option.some_inj] at hc
    rw [hd, hc] at hslash
    simpa using fun heq : c = '/' => hslash (heq ▸ List.mem_cons_self)
  · rwa [fullName, List.getLast?_append_of_ne_nil _ (List.cons_ne_nil _ _),
      List.getLast?_cons_of_ne_nil h] at hc

theorem repositoryKey_eq_fullName {repo : Str} (h : (registryPath repo).2 ≠ []) :
    ImageRef.repositoryKey repo = Unicode.lower (fullName repo) := by
  have hkey : Unicode.lower (registryPath repo).1 ++ str "/" ++ Unicode.lower (registryPath repo).2 =
      Unicode.lower (fullName repo) := by
    rw [fullName, CaseTables.lower_slash, List.append_assoc]
    rfl
  have hne : fullName repo ≠ [] :=
    List.append_ne_nil_of_right_ne_nil _ (List.cons_ne_nil _ _)
  rw [repositoryKey_eq_registryPath, hkey,
    (stripWhile_lower_iff (fun _ => isMark_of_slash) _).mpr (stripWhile_fullName h)]
  exact if_neg (CaseTables.lower_ne_nil _ hne)

/-- The repository of a reference, written out with its registry. -/
def referenceName (s : Str) : Str := fullName (repoPart s)

/-- Nothing is left to take off the key of a reference. -/
structure PlainReference (s : Str) : Prop where
  path_ne_nil : (registryPath (repoPart s)).2 ≠ []
  unmarked : ¬ str "@sha256:" <:+: Unicode.lower (referenceName s)
  strip_eq : Str.strip (referenceName s) = referenceName s
  untagged : Untagged (referenceName s)

theorem canonicalKey_eq (s : Str) : canonicalKey s = ImageRef.repositoryKey (repoPart s) :=
  canonicalAssetKey_eq_repositoryKey s

theorem canonicalKey_of_path_ne_nil {s : Str} (h : (registryPath (repoPart s)).2 ≠ []) :
    canonicalKey s = Unicode.lower (referenceName s) :=
  (canonicalAssetKey_eq_repositoryKey s).trans (repositoryKey_eq_fullName h)

/-- A plain reference written out is its own repository in lower case. -/
theorem repoPart_lower_iff {s : Str} (h : (registryPath (repoPart s)).2 ≠ []) :
    repoPart (Unicode.lower (referenceName s)) = Unicode.lower (referenceName s) ↔
      PlainReference s := by
  rw [repoPart_eq_self_iff, untagged_lower_iff, Str.strip, stripWhile_lower_iff fun _ => isMark_of_isSpace]
  exact ⟨fun hself => ⟨h, hself.1, hself.2.1, hself.2.2⟩,
    fun hplain => ⟨hplain.unmarked, hplain.strip_eq, hplain.untagged⟩⟩

/-- In lower case the registry and the path of a repository are still those that it is written out
with. -/
theorem registryPath_lower (repo : Str) :
    registryPath (Unicode.lower (fullName repo)) =
      (Unicode.lower (registryPath repo).1, Unicode.lower (registryPath repo).2) := by
  obtain ⟨hregistry, hno⟩ := isRegistry_registryPath repo
  rw [fullName, CaseTables.lower_slash,
    registryPath_append (CaseTables.slash_notMem_lower _ hno) hregistry.lower,
    (stripWhile_lower_iff (fun _ => isMark_of_slash) _).mpr (stripWhile_registryPath repo)]

/-- The key of a plain reference is its own key. -/
theorem PlainReference.canonicalKey_canonicalKey {s : Str} (h : PlainReference s) :
    canonicalKey (canonicalKey s) = canonicalKey s := by
  have hself := (repoPart_lower_iff h.path_ne_nil).mpr h
  have hsplit := registryPath_lower (repoPart s)
  have hpath : (registryPath (repoPart (Unicode.lower (referenceName s)))).2 ≠ [] := by
    rw [hself, referenceName, hsplit]
    exact CaseTables.lower_ne_nil _ h.path_ne_nil
  rw [canonicalKey_of_path_ne_nil h.path_ne_nil, canonicalKey_of_path_ne_nil hpath, referenceName,
    hself, referenceName, fullName, hsplit]
  dsimp only
  rw [← CaseTables.lower_slash, ← fullName, lower_lower]

/-! ### Group keys -/

/-- A reference that is grouped by its key. -/
def GroupedByKey (img : Str) : Prop := inferAssetKind img [] = .container ∨ inferAssetKind img [] = .repo

/-- The path aliases leave a key that they have rewritten, or it is no longer grouped by its key. -/
structure RulesSettle (cfg : Settings) (key : Str) : Prop where
  strip_eq : Str.strip (applyContainerAssetPathAliases cfg.containerAssetPathAliases key) =
    applyContainerAssetPathAliases cfg.containerAssetPathAliases key
  settled : GroupedByKey (applyContainerAssetPathAliases cfg.containerAssetPathAliases key) →
    applyContainerAssetPathAliases cfg.containerAssetPathAliases
        (canonicalKey (applyContainerAssetPathAliases cfg.containerAssetPathAliases key)) =
      applyContainerAssetPathAliases cfg.containerAssetPathAliases key

variable {cfg : Settings}

theorem canonicalKey_strip (s : Str) : canonicalKey (Str.strip s) = canonicalKey s := by
  rw [canonicalKey, canonicalKey, normalizeContainerRef, normalizeContainerRef, Str.orEmpty_some,
    Str.orEmpty_some, Str.strip_strip]

/-- What a text is grouped by is the text without the blanks around it, or a key. -/
theorem containerImageGroupKey_cases (cfg : Settings) (img : Str) :
    containerImageGroupKey cfg img = Str.strip img ∨
      GroupedByKey img ∧ containerImageGroupKey cfg img =
        applyContainerAssetPathAliases cfg.containerAssetPathAliases (canonicalKey img) := by
  have hkind : inferAssetKind (Str.strip img) [] = inferAssetKind img [] := by
    rw [inferAssetKind, inferAssetKind, Str.strip_strip]
  rw [containerImageGroupKey, hkind]
  split_ifs with hempty hk8s hgrouped
  · exact .inl rfl
  · exact .inl rfl
  · exact .inr ⟨hgrouped, congrArg _ (canonicalKey_strip img)⟩
  · exact .inl rfl

theorem containerImageGroupKey_strip (cfg : Settings) (img : Str) :
    containerImageGroupKey cfg (Str.strip img) = containerImageGroupKey cfg img := by
  rw [containerImageGroupKey, containerImageGroupKey, Str.strip_strip]

/-- The group key of a reference is its own where the rules settle. -/
theorem groupKey_groupKey {img : Str} (h : GroupedByKey img → RulesSettle cfg (canonicalKey img)) :
    containerImageGroupKey cfg (containerImageGroupKey cfg img) =
      containerImageGroupKey cfg img := by
  obtain hself | ⟨hgrouped, hkey⟩ := containerImageGroupKey_cases cfg img
  · rw [hself, containerImageGroupKey_strip, hself]
  · have hsettle := h hgrouped
    rw [hkey]
    obtain hself | ⟨hgrouped', hkey'⟩ := containerImageGroupKey_cases cfg
      (applyContainerAssetPathAliases cfg.containerAssetPathAliases (canonicalKey img))
    · rw [hself, hsettle.strip_eq]
    · rw [hkey', hsettle.settled hgrouped']

/-- Rules that do not apply to the key of a plain reference settle. -/
theorem PlainReference.rulesSettle {s : Str} (h : PlainReference s)
    (hrules : applyContainerAssetPathAliases cfg.containerAssetPathAliases (canonicalKey s) =
      canonicalKey s) : RulesSettle cfg (canonicalKey s) := by
  have hstrip : Str.strip (canonicalKey s) = canonicalKey s := by
    rw [canonicalKey_of_path_ne_nil h.path_ne_nil]
    exact (repoPart_eq_self_iff.mp ((repoPart_lower_iff h.path_ne_nil).mpr h)).2.1
  refine ⟨by rw [hrules, hstrip], fun _ => ?_⟩
  rw [hrules, h.canonicalKey_canonicalKey, hrules]

/-! ### What is added to a reference -/

/-- A reference with a tag, a digest, `library` or `docker.io` added. -/
inductive WritesOut : Str → Str → Prop
  | digest (s hex : Str) : WritesOut s (s ++ (str "@sha256:" ++ hex))
  | tag {s tag : Str} (hdigest : ¬ str "@sha256:" <:+: s ++ str ":")
      (huntagged : Untagged (Str.strip s)) (htag : tag.all refSymbol) (hne : tag ≠ []) :
      WritesOut s (s ++ ':' :: tag)
  | library {s : Str} (hstrip : Str.strip s = s) (hname : repoPart s ≠ []) (hslash : '/' ∉ repoPart s) :
      WritesOut s (str "library/" ++ s)
  | dockerIo {s : Str} (hstrip : Str.strip s = s)
      (hpath : '/' ∈ Str.stripWhile (· == '/') (repoPart s))
      (hregistry : (splitRegistryAndPath (repoPart s)).1 = none) :
      WritesOut s (str "docker.io/" ++ s)

/-- What is added to a reference does not change its key. -/
theorem WritesOut.canonicalKey_eq {s t : Str} (h : WritesOut s t) :
    canonicalKey s = canonicalKey t := by
  have hkey : ∀ {x y : Str}, registryPath (repoPart x) = registryPath (repoPart y) →
      canonicalKey x = canonicalKey y := by
    intro x y hxy
    rw [Vat.canonicalKey_eq, Vat.canonicalKey_eq, repositoryKey_eq_registryPath,
      repositoryKey_eq_registryPath, hxy]
  refine hkey ?_
  cases h with
  | digest => rw [repoPart_digest]
  | tag hdigest huntagged htag hne => rw [repoPart_tag hdigest huntagged htag hne]
  | library hstrip hname hslash =>
    rw [repoPart_append (by decide) (by decide) (Frontend.dropWhile_isSpace_of_strip hstrip),
      registryPath_library hname hslash]
  | dockerIo hstrip hpath hregistry =>
    rw [repoPart_append (by decide) (by decide) (Frontend.dropWhile_isSpace_of_strip hstrip),
      registryPath_dockerIo hpath hregistry]

/-- References that differ in what is added to them. -/
abbrev SameReference : Str → Str → Prop := Relation.EqvGen WritesOut

theorem SameReference.canonicalKey_eq {s t : Str} (h : SameReference s t) :
    canonicalKey s = canonicalKey t := by
  induction h with
  | rel _ _ h => exact h.canonicalKey_eq
  | refl => rfl
  | symm _ _ _ ih => exact ih.symm
  | trans _ _ _ _ _ ih ih' => exact ih.trans ih'

/-- The image of a container for the correlation is read off its key. -/
theorem correlationAssetImageForIngest_eq (t : Table AssetAlias) {img : Str} {parserId : Option Str}
    (h : inferAssetKind img (Str.orEmpty parserId) = .container) :
    correlationAssetImageForIngest cfg t (some img) parserId =
      resolveCanonicalAssetId t
        (applyContainerAssetPathAliases cfg.containerAssetPathAliases (canonicalKey img)) := by
  have hne : Str.strip img ≠ [] := by
    intro hnil
    rw [inferAssetKind, if_pos hnil] at h
    cases h
  have hkind : inferAssetKind (Str.strip img) (Str.orEmpty parserId) = .container := by
    rw [← h, inferAssetKind, inferAssetKind, Str.strip_strip]
  rw [correlationAssetImageForIngest, Str.orEmpty_some, if_neg hne, correlationAssetImage,
    if_pos hkind, ← canonicalKey_strip]

/-! ### Canonical references -/

/-- Keys are idempotent, and so are group keys; what is added to a reference does not change its
image for the correlation. -/
structure CanonicalReferences (cfg : Settings) (t : Table AssetAlias) : Prop where
  key : ∀ s, canonicalKey (canonicalKey s) = canonicalKey s
  groupKey : ∀ img, containerImageGroupKey cfg (containerImageGroupKey cfg img) =
    containerImageGroupKey cfg img
  correlation : ∀ parserId s s', SameReference s s' →
    correlationAssetImageForIngest cfg t (some s) parserId =
      correlationAssetImageForIngest cfg t (some s') parserId

/-- The key of a plain reference is idempotent. So is the group key of an image that is not grouped
by its key, of a plain reference without a rule for its key, and where the rules settle. What is
added to a container does not change its image for the correlation. -/
theorem canonical_references (cfg : Settings) (t : Table AssetAlias) :
    (∀ s, PlainReference s → canonicalKey (canonicalKey s) = canonicalKey s) ∧
    (∀ img, (GroupedByKey img → RulesSettle cfg (canonicalKey img) ∨
        PlainReference img ∧ applyContainerAssetPathAliases cfg.containerAssetPathAliases
          (canonicalKey img) = canonicalKey img) →
      containerImageGroupKey cfg (containerImageGroupKey cfg img) =
        containerImageGroupKey cfg img) ∧
    ∀ parserId s s', SameReference s s' →
      inferAssetKind s (Str.orEmpty parserId) = .container →
      inferAssetKind s' (Str.orEmpty parserId) = .container →
        correlationAssetImageForIngest cfg t (some s) parserId =
          correlationAssetImageForIngest cfg t (some s') parserId := by
  refine ⟨fun _ => PlainReference.canonicalKey_canonicalKey, fun img h => ?_,
    fun parserId s s' hsame hs hs' => ?_⟩
  · refine groupKey_groupKey fun hgrouped => ?_
    obtain hsettle | ⟨hplain, hrules⟩ := h hgrouped
    · exact hsettle
    · exact hplain.rulesSettle hrules
  · rw [correlationAssetImageForIngest_eq t hs, correlationAssetImageForIngest_eq t hs',
      hsame.canonicalKey_eq]

end References

section Closed

attribute [local instance] asciiSpelledTables

theorem plainReference_tagged : PlainReference (str "ghcr.io/acme/svc:1.0.0") where
  path_ne_nil := by decide
  unmarked := by decide
  strip_eq := by decide
  untagged := rfl

/-- A tagged reference without a rule for its key, and an official image written out. -/
theorem canonical_references_tagged :
    canonicalKey (canonicalKey (str "ghcr.io/acme/svc:1.0.0")) =
        canonicalKey (str "ghcr.io/acme/svc:1.0.0") ∧
      containerImageGroupKey ⟨false, []⟩
          (containerImageGroupKey ⟨false, []⟩ (str "ghcr.io/acme/svc:1.0.0")) =
        containerImageGroupKey ⟨false, []⟩ (str "ghcr.io/acme/svc:1.0.0") ∧
      correlationAssetImageForIngest ⟨false, []⟩ .empty (some (str "nginx:1.25")) none =
        correlationAssetImageForIngest ⟨false, []⟩ .empty
          (some (str "docker.io/library/nginx:1.25")) none := by
  obtain ⟨hkey, hgroup, hcorrelation⟩ := canonical_references ⟨false, []⟩ .empty
  refine ⟨hkey _ plainReference_tagged,
    hgroup _ fun _ => .inr ⟨plainReference_tagged, by decide⟩,
    hcorrelation none _ _ ?_ (by decide) (by decide)⟩
  have hlibrary : WritesOut (str "nginx:1.25") (str "library/nginx:1.25") :=
    .library (by decide) (by decide) (by decide)
  have hdockerIo : WritesOut (str "library/nginx:1.25") (str "docker.io/library/nginx:1.25") :=
    .dockerIo (by decide) (by decide) rfl
  exact .trans _ _ _ (.rel _ _ hlibrary) (.rel _ _ hdockerIo)

/-- An image without a tag is not recognized as a container. -/
theorem not_canonicalReferences : ¬ CanonicalReferences ⟨false, []⟩ .empty := by
  intro h
  have htag : WritesOut (str "nginx") (str "nginx:1.25") :=
    @WritesOut.tag (str "nginx") (str "1.25") (by decide) rfl (by decide) (by decide)
  have hsame := h.correlation none _ _ (.rel _ _ htag)
  revert hsame
  decide +kernel

end Closed

end Vat
