import Vat.Assets.Group
import Vat.Identity.ImageRefs
import Vat.Keyed.Capped
import Vat.Transition.Run

/-!
# Container keys in the frontend

The frontend groups findings by the canonical key of their container, as the backend does, with a
normalizer of its own and a memo. The two differ in what they trim: Python also strips four control
characters and the next line character, JavaScript the byte order mark.

Source: `frontend/lib/containerRefNormalization.ts`; `frontend/lib/assetUtils.ts`, lines 38–88.

## Main definitions

* `Js.trim`: `String.prototype.trim`.
* `Frontend.normalizeContainerRef`, `Frontend.groupKey`.
* `Frontend.KeyCache.containerImageGroupKey`: the key from the memo.
* `Frontend.SameTrims`, `Frontend.SameAliasTrims`: both trim the parts of a reference and of the
  alias table in the same way.

## Main results

* `Frontend.keys_agree`: then the keys are those of the backend; and the memo never changes a key.
-/

namespace Vat

open Keyed Transition

/-! ### Text -/

/-- What is true of the case tables of Python and of JavaScript alike: a slash is a symbol without
case that no letter is cased across. -/
class CaseTables extends Unicode where
  lower_slash : ∀ x y, lower (x ++ '/' :: y) = lower x ++ '/' :: lower y
  slash_notMem_lower : ∀ s, '/' ∉ s → '/' ∉ lower s
  lower_ne_nil : ∀ s, s ≠ [] → lower s ≠ []

theorem eq_slash_of_toLower_eq {c : Char} (h : c.toLower = '/') : c = '/' := by
  obtain ⟨hself, -⟩ | ⟨hge, -, hlower⟩ := toNat_toLower c
  · exact hself.symm.trans h
  · have hslash : c.toLower.toNat = 47 := congrArg Char.toNat h
    omega

/-- The case tables on ASCII text. -/
@[reducible] def asciiCaseTables : CaseTables where
  toUnicode := asciiUnicode
  lower_slash x y := List.map_append
  slash_notMem_lower s h hmem := by
    obtain ⟨c, hc, heq⟩ := List.mem_map.mp hmem
    exact h (eq_slash_of_toLower_eq heq ▸ hc)
  lower_ne_nil s h := List.map_eq_nil_iff.not.mpr h

namespace Js

/-- White space and line terminators of JavaScript. -/
def isSpace (c : Char) : Bool :=
  let n := c.toNat
  (9 ≤ n && n ≤ 13) || n == 32 || n == 0xa0 || n == 0x1680 || (0x2000 ≤ n && n ≤ 0x200a) ||
    n == 0x2028 || n == 0x2029 || n == 0x202f || n == 0x205f || n == 0x3000 || n == 0xfeff

/-- `s.trim()`. -/
def trim (s : Str) : Str := Str.stripWhile isSpace s

end Js

namespace Frontend

variable [Unicode]

/-! ### The normalizer -/

/-- `normalizeHexDigest`. -/
def normalizeHexDigest (value : Option Str) : Option Str :=
  let s := Unicode.lower (Js.trim (Str.orEmpty value))
  if Js.trim (Str.orEmpty value) = [] then none
  else if Str.startsWith s (str "sha256:") then digestOfHex (s.drop 7)
  else digestOfHex s

/-- `splitDigest`: of several markers, `split` with a limit of two drops what comes from the second
one on. -/
def splitDigest (ref : Str) : Str × Option Str :=
  match Str.splitSub1 (str "@sha256:") ref with
  | none => (ref, none)
  | some (left, rest) =>
    let right :=
      match Str.splitSub1 (str "@sha256:") rest with
      | none => rest
      | some (right, _) => right
    (Js.trim left, normalizeHexDigest (if right = [] then none else some (str "sha256:" ++ right)))

omit [Unicode] in
/-- `splitTag`. -/
def splitTag (repoRef : Str) : Str × Option Str :=
  match splitLastColon repoRef with
  | none => (repoRef, none)
  | some (left, right) =>
    let tag := Js.trim right
    if tag = [] then (repoRef, none) else (Js.trim left, some tag)

/-- `normalizeContainerRef`. `splitRegistryAndPath` and `dockerHubPath` are those of the backend. -/
def normalizeContainerRef (value : Option Str) : NormalizedContainerRef :=
  let raw := Js.trim (Str.orEmpty value)
  if raw = [] then ⟨str "docker.io/library/unknown", none, none, []⟩
  else
    let (repoTagPart, digest) := splitDigest raw
    let (repoPart, tag) := splitTag repoTagPart
    let (registry, path) :=
      match splitRegistryAndPath repoPart with
      | (none, path) => (str "docker.io", dockerHubPath path)
      | (some registry, path) => (registry, path)
    let canonical := (Unicode.lower registry ++ str "/" ++
      Unicode.lower (Str.stripWhile (· == '/') path)).rdropWhile (· == '/')
    ⟨if canonical = [] then str "docker.io/library/unknown" else canonical, tag, digest, raw⟩

/-! ### Aliases and kinds -/

/-- `parseContainerAssetPathAliases`. -/
def parseContainerAssetPathAliases (raw : Str) : List (Str × Str) :=
  (raw.splitOn ';').filterMap fun segment =>
    match Str.splitSub1 (str "=>") (Js.trim segment) with
    | none => none
    | some (left, right) =>
      let src := Unicode.lower (Js.trim left)
      if src = [] then none else some (src, Unicode.lower (Js.trim right))

/-- `applyContainerAssetPathAliases` with the rules in memory. A key is in lower case, so that the
rule that it starts with is as long as the part that is cut off. -/
def applyContainerAssetPathAliases (pairs : List (Str × Str)) (canonicalKey : Str) : Str :=
  let k := Js.trim canonicalKey
  if k = [] then canonicalKey
  else
    match pairs.find? fun p => Str.startsWith (Unicode.lower k) p.1 with
    | none => canonicalKey
    | some (src, dst) => dst ++ k.drop src.length

/-- `inferAssetKindForGrouping`. -/
def inferAssetKindForGrouping (assetId parserId : Str) : AssetKind :=
  let aid := Js.trim assetId
  let pid := Unicode.lower (Js.trim parserId)
  if aid = [] then .unknown
  else if pid = str "openscap" ∨ pid = str "openscap_oval" then .hostScope
  else if pid = str "semgrep" ∨ pid = str "sarif" ∨ pid = str "gitleaks" then .pathScope
  else if pid = str "npm_audit" ∨ pid = str "pip_audit" then .packageScope
  else if Str.contains aid (str "/images/") ∨ Str.startsWith aid (str "sha256:") ∨ ':' ∈ aid then
    .container
  else if '/' ∈ aid ∧ ¬ Str.startsWith aid (str "/") then .repo
  else if Str.startsWith aid (str "/") ∨ Str.startsWith aid (str "commit:") ∨ '>' ∈ aid then
    .pathScope
  else .packageScope

/-! ### Group keys -/

/-- The key of a trimmed image reference, without the memo. -/
def computeKey (pairs : List (Str × Str)) (img : Str) : Str :=
  let kind := inferAssetKindForGrouping img []
  if kind = .container ∨ kind = .repo then
    applyContainerAssetPathAliases pairs (normalizeContainerRef (some img)).canonicalAssetKey
  else img

/-- `containerImageGroupKey` without its memo. -/
def groupKey (pairs : List (Str × Str)) (image : Str) : Str :=
  let img := Js.trim image
  if img = [] then img
  else if Str.startsWith (Unicode.lower img) (str "k8s/") then img
  else computeKey pairs img

/-- `_GROUP_KEY_MEMO_MAX`. -/
def groupKeyMemoMax : ℕ := 4096

/-- The alias rules and the memo of a page. -/
structure KeyCache where
  pairs : List (Str × Str)
  memo : Dictionary Str Str

/-- What a page does with them. -/
inductive KeyCacheOp
  | containerImageGroupKey (image : Str)
  | setContainerAssetPathAliases (raw : Option Str)
  | clearContainerImageGroupKeyMemo

namespace KeyCache

/-- A page that has loaded, with the rules that it was built with. -/
def start (raw : Str) : KeyCache := ⟨parseContainerAssetPathAliases raw, .empty⟩

/-- `containerImageGroupKey`. -/
def containerImageGroupKey (s : KeyCache) (image : Str) : Str × KeyCache :=
  let img := Js.trim image
  if img = [] then (img, s)
  else if Str.startsWith (Unicode.lower img) (str "k8s/") then (img, s)
  else
    let (key, memo) := Memo.ask (computeKey s.pairs) groupKeyMemoMax s.memo img
    (key, { s with memo })

/-- New rules clear the memo. -/
def step (s : KeyCache) : KeyCacheOp → KeyCache
  | .containerImageGroupKey image => (s.containerImageGroupKey image).2
  | .setContainerAssetPathAliases raw =>
    ⟨parseContainerAssetPathAliases (Str.orEmpty raw), .empty⟩
  | .clearContainerImageGroupKeyMemo => { s with memo := .empty }

/-- A key is the one that is computed under the rules. -/
def Transparent (s : KeyCache) : KeyCacheOp → Prop
  | .containerImageGroupKey image => (s.containerImageGroupKey image).1 = groupKey s.pairs image
  | _ => True

theorem transparent_of_sound {s : KeyCache} (h : Memo.Sound (computeKey s.pairs) s.memo)
    (op : KeyCacheOp) : s.Transparent op := by
  cases op with
  | containerImageGroupKey image =>
    rw [Transparent, containerImageGroupKey, groupKey]
    split_ifs
    · rfl
    · rfl
    · exact h.ask_fst _ _
  | setContainerAssetPathAliases | clearContainerImageGroupKeyMemo => trivial

theorem sound_step {s : KeyCache} (h : Memo.Sound (computeKey s.pairs) s.memo) (op : KeyCacheOp) :
    Memo.Sound (computeKey (s.step op).pairs) (s.step op).memo := by
  cases op with
  | containerImageGroupKey image =>
    rw [step, containerImageGroupKey]
    split_ifs
    · exact h
    · exact h
    · exact h.ask_snd _ _
  | setContainerAssetPathAliases | clearContainerImageGroupKeyMemo => exact Memo.sound_empty _

/-- Whatever a page does, every key is the one that is computed under the rules. -/
theorem along_transparent (raw : Str) (ops : List KeyCacheOp) :
    Along step Transparent (start raw) ops := by
  have hall : ∀ s : KeyCache, Memo.Sound (computeKey s.pairs) s.memo →
      Along step Transparent s ops := by
    induction ops with
    | nil => exact fun _ _ => trivial
    | cons op ops ih =>
      exact fun s hs => ⟨transparent_of_sound hs op, ih _ (sound_step hs op)⟩
  exact hall _ (Memo.sound_empty _)

end KeyCache

/-! ### Agreement with the backend -/

omit [Unicode] in
/-- Both trim the reference, what stands before its digest and what stands before its tag in the
same way, and both find the same tags empty. -/
structure SameTrims [Unicode] (image : Str) : Prop where
  whole : Js.trim image = Str.strip image
  beforeDigest : ∀ left rest, Str.splitSub1 (str "@sha256:") (Str.strip image) = some (left, rest) →
    Js.trim left = Str.strip left
  tag : ∀ left right, splitLastColon (Vat.splitDigest (Str.strip image)).1 = some (left, right) →
    (Js.trim right = [] ↔ Str.strip right = []) ∧
      (Str.strip right ≠ [] → Js.trim left = Str.strip left)

/-- What is trimmed already is trimmed alike. -/
theorem SameTrims.strip {image : Str} (h : SameTrims image) : SameTrims (Str.strip image) := by
  refine ⟨?_, ?_, ?_⟩
  · rw [Str.strip_strip, ← h.whole]
    exact Str.stripWhile_stripWhile _ _
  · rw [Str.strip_strip]
    exact h.beforeDigest
  · rw [Str.strip_strip]
    exact h.tag

/-- Both trim the rules of an alias table and a key in the same way. -/
structure SameAliasTrims (raw key : Str) : Prop where
  rule : ∀ segment ∈ raw.splitOn ';', Js.trim segment = Str.strip segment
  sides : ∀ segment ∈ raw.splitOn ';', ∀ left right,
    Str.splitSub1 (str "=>") (Str.strip segment) = some (left, right) →
      Js.trim left = Str.strip left ∧ Js.trim right = Str.strip right
  key : Js.trim key = Str.strip key

theorem parseContainerAssetPathAliases_eq {raw key : Str} (h : SameAliasTrims raw key) :
    parseContainerAssetPathAliases raw = Vat.parseContainerAssetPathAliases raw := by
  refine List.filterMap_congr fun segment hsegment => ?_
  rw [h.rule segment hsegment]
  cases hsplit : Str.splitSub1 (str "=>") (Str.strip segment) with
  | none => rfl
  | some p =>
    obtain ⟨hleft, hright⟩ := h.sides segment hsegment p.1 p.2 hsplit
    simp only [hleft, hright]

theorem applyContainerAssetPathAliases_eq {raw key : Str} (h : SameAliasTrims raw key) :
    applyContainerAssetPathAliases (parseContainerAssetPathAliases raw) key =
      Vat.applyContainerAssetPathAliases raw key := by
  rw [applyContainerAssetPathAliases, Vat.applyContainerAssetPathAliases, h.key]
  exact parseContainerAssetPathAliases_eq h ▸ rfl

theorem splitDigest_fst_eq {image : Str} (h : SameTrims image) :
    (splitDigest (Str.strip image)).1 = (Vat.splitDigest (Str.strip image)).1 := by
  rw [splitDigest, Vat.splitDigest]
  cases hsplit : Str.splitSub1 (str "@sha256:") (Str.strip image) with
  | none => rfl
  | some p => exact h.beforeDigest p.1 p.2 hsplit

theorem splitTag_fst_eq {image : Str} (h : SameTrims image) :
    (splitTag (splitDigest (Str.strip image)).1).1 =
      (Vat.splitTag (Vat.splitDigest (Str.strip image)).1).1 := by
  rw [splitDigest_fst_eq h, splitTag, splitTag_eq]
  cases hsplit : splitLastColon (Vat.splitDigest (Str.strip image)).1 with
  | none => rfl
  | some p =>
    obtain ⟨left, right⟩ := p
    obtain ⟨hempty, hleft⟩ := h.tag left right hsplit
    dsimp only
    by_cases htag : Str.strip right = []
    · rw [if_pos htag, if_pos (hempty.mpr htag)]
    · rw [if_neg htag, if_neg fun h => htag (hempty.mp h)]
      exact hleft htag

end Frontend

section Registry

variable [CaseTables]

omit [CaseTables] in
theorem notMem_split1_fst (c : Char) (s : Str) : c ∉ (Str.split1 c s).1 := fun h => by
  simpa using List.mem_takeWhile_imp h

omit [CaseTables] in
/-- A registry has a symbol, and no slash. -/
theorem registry_of_splitRegistryAndPath {repo registry path : Str}
    (h : splitRegistryAndPath repo = (some registry, path)) : registry ≠ [] ∧ '/' ∉ registry := by
  rw [splitRegistryAndPath] at h
  by_cases hempty : repo = []
  · rw [if_pos hempty] at h
    cases h
  by_cases hslash : '/' ∉ repo
  · rw [if_neg hempty, if_pos hslash] at h
    cases h
  rw [if_neg hempty, if_neg hslash] at h
  dsimp only at h
  split_ifs at h with hregistry
  · cases h
    refine ⟨fun hnil => ?_, notMem_split1_fst '/' repo⟩
    rw [hnil] at hregistry
    revert hregistry
    decide
  · cases h

/-- A key starts with the first symbol of its registry, so that no slash is stripped there. -/
theorem rdropWhile_slash {registry rest : Str} (hne : registry ≠ []) (hslash : '/' ∉ registry) :
    (Unicode.lower registry ++ rest).rdropWhile (· == '/') =
      Str.stripWhile (· == '/') (Unicode.lower registry ++ rest) := by
  have hlower := CaseTables.slash_notMem_lower registry hslash
  obtain ⟨c, tail, hc⟩ := List.exists_cons_of_ne_nil (CaseTables.lower_ne_nil registry hne)
  have hfirst : (c == '/') = false := by
    rw [hc] at hlower
    simpa using fun h : c = '/' => hlower (h ▸ List.mem_cons_self)
  rw [Str.stripWhile, hc, List.cons_append, List.dropWhile_cons, hfirst, if_neg Bool.false_ne_true]

end Registry

namespace Frontend

variable [CaseTables]

/-- The key of a reference without its tag and its digest. -/
def frontendKey (repo : Str) : Str :=
  let (registry, path) :=
    match splitRegistryAndPath repo with
    | (none, path) => (str "docker.io", dockerHubPath path)
    | (some registry, path) => (registry, path)
  let canonical := (Unicode.lower registry ++ str "/" ++
    Unicode.lower (Str.stripWhile (· == '/') path)).rdropWhile (· == '/')
  if canonical = [] then str "docker.io/library/unknown" else canonical

theorem frontendKey_eq (repo : Str) : frontendKey repo = ImageRef.repositoryKey repo := by
  rw [frontendKey, ImageRef.repositoryKey]
  cases hsplit : splitRegistryAndPath repo with
  | mk registry path =>
    cases registry with
    | none =>
      dsimp only
      rw [List.append_assoc, rdropWhile_slash (by decide) (by decide)]
    | some registry =>
      obtain ⟨hne, hslash⟩ := registry_of_splitRegistryAndPath hsplit
      dsimp only
      rw [List.append_assoc, rdropWhile_slash hne hslash]

/-- The keys of the normalizers are the same. -/
theorem canonicalAssetKey_eq {image : Str} (h : SameTrims image) :
    (normalizeContainerRef (some image)).canonicalAssetKey =
      (Vat.normalizeContainerRef (some image)).canonicalAssetKey := by
  rw [normalizeContainerRef, Vat.normalizeContainerRef, Str.orEmpty_some, h.whole]
  by_cases hempty : Str.strip image = []
  · rw [if_pos hempty, if_pos hempty]
  · rw [if_neg hempty, if_neg hempty]
    change frontendKey (splitTag (splitDigest (Str.strip image)).1).1 =
      ImageRef.repositoryKey (Vat.splitTag (Vat.splitDigest (Str.strip image)).1).1
    rw [splitTag_fst_eq h, frontendKey_eq]

/-- The parts of an id do not start with `k8s` if the id does not. -/
theorem not_k8s_parts {aid : Str} (h : ¬ Str.startsWith (Unicode.lower aid) (str "k8s/")) :
    ¬ (5 ≤ ((aid.splitOn '/').map Unicode.lower).length ∧
      ((aid.splitOn '/').map Unicode.lower).head? = some (str "k8s")) := by
  rintro ⟨hlength, hhead⟩
  by_cases hslash : '/' ∈ aid
  · obtain ⟨x, y, rfl, hx⟩ := List.eq_append_cons_of_mem hslash
    rw [List.splitOn_append_cons_self_of_not_mem hx, List.map_cons, List.head?_cons,
      Option.some_inj] at hhead
    rw [CaseTables.lower_slash, hhead] at h
    exact h rfl
  · rw [List.splitOn_eq_singleton hslash] at hlength
    rw [List.length_map, List.length_singleton] at hlength
    exact absurd hlength (by decide)

/-- The backend has no branch of its own for a Kubernetes object in what both group by key. -/
theorem inferAssetKindForGrouping_eq {img : Str} (htrim : Js.trim img = Str.strip img)
    (hk8s : ¬ Str.startsWith (Unicode.lower (Str.strip img)) (str "k8s/")) :
    inferAssetKindForGrouping img [] = inferAssetKind img [] := by
  rw [inferAssetKindForGrouping, inferAssetKind, htrim]
  have hno := not_k8s_parts hk8s
  dsimp only
  by_cases hempty : Str.strip img = []
  · rw [if_pos hempty, if_pos hempty]
  · rw [if_neg hempty, if_neg hempty]
    conv_rhs => rw [if_neg fun h => hno h.1, if_neg fun h => hno h.1]
    rfl

/-- The keys that findings are grouped by are the same. -/
theorem groupKey_eq {cfg : Settings} {image : Str} (h : SameTrims image)
    (haliases : SameAliasTrims cfg.containerAssetPathAliases
      (Vat.normalizeContainerRef (some image)).canonicalAssetKey) :
    groupKey (parseContainerAssetPathAliases cfg.containerAssetPathAliases) image =
      containerImageGroupKey cfg image := by
  rw [groupKey, containerImageGroupKey, h.whole]
  by_cases hempty : Str.strip image = []
  · rw [if_pos hempty, if_pos hempty]
  by_cases hk8s : Str.startsWith (Unicode.lower (Str.strip image)) (str "k8s/")
  · rw [if_neg hempty, if_neg hempty, if_pos hk8s, if_pos hk8s]
  rw [if_neg hempty, if_neg hempty, if_neg hk8s, if_neg hk8s, computeKey]
  have hstrip : SameTrims (Str.strip image) := h.strip
  have hkind : inferAssetKindForGrouping (Str.strip image) [] =
      inferAssetKind (Str.strip image) [] :=
    inferAssetKindForGrouping_eq hstrip.whole (by rwa [Str.strip_strip])
  have hkey : (Vat.normalizeContainerRef (some (Str.strip image))).canonicalAssetKey =
      (Vat.normalizeContainerRef (some image)).canonicalAssetKey := by
    rw [Vat.normalizeContainerRef, Vat.normalizeContainerRef, Str.orEmpty_some, Str.orEmpty_some,
      Str.strip_strip]
  rw [hkind, canonicalAssetKey_eq hstrip, hkey, applyContainerAssetPathAliases_eq haliases]

end Frontend

section Closed

attribute [local instance] asciiCaseTables

end Closed

end Vat
