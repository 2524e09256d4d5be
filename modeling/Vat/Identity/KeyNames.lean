import Vat.Delimited.Fields
import Vat.Identity.SubjectKey

/-!
# What keys name

A decision subject key and a correlation key join a kind, the asset and the identity of a finding by
colons, with bars inside the asset. Apart from the fingerprint and the digest, nothing marks which
field a part comes from: a rule alone and a CVE alone are written alike, and a field that contains
the delimiter after it is read as two.

When no field contains the delimiter that ends it, a key is read back: two keys of one kind are
equal exactly if they name the same subject (`subject_keys_iff`). Fields that end a key, and a
package before a CVE, may contain colons. A correlation key has no tenant, and a license key no tag.

Source: `backend/app/services/decision_subject_key.py`, lines 48–202;
`backend/app/services/correlation.py`, lines 15–125.

## Main definitions

* `correlationKeyForPayload`.
* `SubjectIdentity`, `KeySubject`: what a key names.
* `KeySubject.Plain`: fields without the delimiters that end them.

## Main results

* `KeySubject.text_append_inj`: plain subjects are read back from the text of a key.
* `subject_keys_iff`: equal keys name the same.
-/

namespace Vat

open Delimited

/-! ### Subjects -/

/-- The first part of an inner key. -/
inductive KeyKind
  | openscap
  | license
  | sca
  | sast
  | iac
  | secret
  | other
deriving DecidableEq

/-- The text of a kind. -/
def KeyKind.text : KeyKind → Str
  | .openscap => str "openscap"
  | .license => str "license"
  | .sca => str "sca"
  | .sast => str "sast"
  | .iac => str "iac"
  | .secret => str "secret"
  | .other => str "other"

/-- How the identity of a kind is laid out. -/
inductive KeyLayout
  | rule
  | license
  | package
  | place
  | other
deriving DecidableEq

/-- The layout of a kind. -/
def KeyKind.layout : KeyKind → KeyLayout
  | .openscap => .rule
  | .license => .license
  | .sca => .package
  | .sast | .iac | .secret => .place
  | .other => .other

/-- The identity of a finding on its asset. A lone id is the fallback of every layout: the license,
the rule or the CVE. -/
inductive SubjectIdentity : KeyLayout → Type
  | rule (stable family profile : Str) : SubjectIdentity .rule
  | license (spdx comp : Str) : SubjectIdentity .license
  | package (eco comp cve : Str) : SubjectIdentity .package
  | place (rid fpath : Str) (fp : Option Str) : SubjectIdentity .place
  | other (cve comp : Str) : SubjectIdentity .other
  | lone {layout : KeyLayout} (id : Str) : SubjectIdentity layout

namespace SubjectIdentity

/-- The fingerprint at the end of a place. -/
def fingerprintText : Option Str → Str
  | none => []
  | some fp => ':' :: (str "fp" ++ ':' :: fp)

/-- How an identity is written. -/
def text {layout : KeyLayout} : SubjectIdentity layout → Str
  | .rule stable family profile => stable ++ ':' :: (family ++ ':' :: profile)
  | .license spdx comp => spdx ++ ':' :: comp
  | .package eco comp cve => eco ++ ':' :: (comp ++ ':' :: cve)
  | .place rid fpath fp => rid ++ ':' :: (fpath ++ fingerprintText fp)
  | .other cve comp => cve ++ ':' :: comp
  | .lone id => id

/-- No field contains the colon that ends it, nor a lone id one. -/
def Plain {layout : KeyLayout} : SubjectIdentity layout → Prop
  | .rule _ family profile => ':' ∉ family ∧ ':' ∉ profile
  | .license spdx _ => ':' ∉ spdx
  | .package eco _ cve => ':' ∉ eco ∧ ':' ∉ cve
  | .place rid fpath fp => ':' ∉ rid ∧ ¬ str ":fp:" <:+: fpath ∧ ∀ x ∈ fp, ':' ∉ x
  | .other cve _ => ':' ∉ cve
  | .lone id => ':' ∉ id

instance decidablePlain {layout : KeyLayout} : (a : SubjectIdentity layout) → Decidable a.Plain
  | .rule _ family profile => inferInstanceAs (Decidable (':' ∉ family ∧ ':' ∉ profile))
  | .license spdx _ => inferInstanceAs (Decidable (':' ∉ spdx))
  | .package eco _ cve => inferInstanceAs (Decidable (':' ∉ eco ∧ ':' ∉ cve))
  | .place rid fpath fp => inferInstanceAs
    (Decidable (':' ∉ rid ∧ ¬ str ":fp:" <:+: fpath ∧ ∀ x ∈ fp, ':' ∉ x))
  | .other cve _ => inferInstanceAs (Decidable (':' ∉ cve))
  | .lone id => inferInstanceAs (Decidable (':' ∉ id))

end SubjectIdentity

/-- What an inner key names. The key of a license leaves the tag out. -/
structure KeySubject where
  kind : KeyKind
  image : Str
  branch : Str
  tag : Str
  identity : SubjectIdentity kind.layout
  tag_license : kind = .license → tag = []

namespace KeySubject

/-- What ends the asset: the tag, except for a license. -/
def tagText (k : KeySubject) : Str := if k.kind = .license then [] else '|' :: k.tag

/-- How a subject is written. -/
def text (k : KeySubject) : Str :=
  k.kind.text ++ ':' :: (k.image ++ '|' :: (k.branch ++ k.tagText ++ ':' :: k.identity.text))

/-- No field contains the delimiter that ends it. -/
def Plain (k : KeySubject) : Prop :=
  '|' ∉ k.image ∧ '|' ∉ k.branch ∧ ':' ∉ k.branch ∧ ':' ∉ k.tag ∧ k.identity.Plain

instance decidablePlain (k : KeySubject) : Decidable k.Plain :=
  inferInstanceAs (Decidable (_ ∧ _ ∧ _ ∧ _ ∧ k.identity.Plain))

/-- No part of the identity of a license or a package is the word that announces a digest. -/
def NoDigest (k : KeySubject) : Prop :=
  k.kind = .license ∨ k.kind = .sca → str "digest" ∉ k.identity.text.splitOn ':'

end KeySubject

theorem KeyKind.text_injective : Function.Injective KeyKind.text := by
  intro a b h
  cases a <;> cases b <;> first | rfl | exact absurd h (by decide)

theorem KeyKind.colon_notMem (a : KeyKind) : ':' ∉ a.text := by cases a <;> decide

/-- Plain identities of one layout are read back. -/
theorem SubjectIdentity.text_inj {layout : KeyLayout} {a b : SubjectIdentity layout}
    (ha : a.Plain) (hb : b.Plain) (h : a.text = b.text) : a = b := by
  -- a lone id is the only identity without a colon
  have lone_ne : ∀ {id x y : Str}, ':' ∉ id → id ≠ x ++ ':' :: y := by
    rintro id x y hid rfl
    exact hid (by simp)
  cases a with
  | lone id =>
    cases b with
    | lone id' => exact congrArg _ h
    | rule | license | package | place | other => exact absurd h (lone_ne ha)
  | rule stable family profile =>
    cases b with
    | lone id => exact absurd h.symm (lone_ne hb)
    | rule stable' family' profile' =>
      have hright : (stable ++ ':' :: family) ++ ':' :: profile =
          (stable' ++ ':' :: family') ++ ':' :: profile' := by simpa [text] using h
      obtain ⟨hleft, rfl⟩ := (append_cons_inj_right ha.2 hb.2).mp hright
      obtain ⟨rfl, rfl⟩ := (append_cons_inj_right ha.1 hb.1).mp hleft
      rfl
  | license spdx comp =>
    cases b with
    | lone id => exact absurd h.symm (lone_ne hb)
    | license spdx' comp' =>
      obtain ⟨rfl, rfl⟩ := (append_cons_inj ha hb).mp h
      rfl
  | package eco comp cve =>
    cases b with
    | lone id => exact absurd h.symm (lone_ne hb)
    | package eco' comp' cve' =>
      obtain ⟨rfl, hright⟩ := (append_cons_inj ha.1 hb.1).mp h
      obtain ⟨rfl, rfl⟩ := (append_cons_inj_right ha.2 hb.2).mp hright
      rfl
  | place rid fpath fp =>
    cases b with
    | lone id => exact absurd h.symm (lone_ne hb)
    | place rid' fpath' fp' =>
      obtain ⟨rfl, hpath⟩ := (append_cons_inj ha.1 hb.1).mp h
      cases fp with
      | none =>
        cases fp' with
        | none =>
          obtain rfl : fpath = fpath' := by simpa [fingerprintText] using hpath
          rfl
        | some x =>
          refine absurd ⟨fpath', x, ?_⟩ ha.2.1
          simpa [fingerprintText, str] using hpath.symm
      | some x =>
        cases fp' with
        | none =>
          refine absurd ⟨fpath, x, ?_⟩ hb.2.1
          simpa [fingerprintText, str] using hpath
        | some x' =>
          have hright : (fpath ++ ':' :: str "fp") ++ ':' :: x =
              (fpath' ++ ':' :: str "fp") ++ ':' :: x' := by
            simpa [fingerprintText] using hpath
          obtain ⟨hleft, rfl⟩ := (append_cons_inj_right (ha.2.2 x rfl) (hb.2.2 x' rfl)).mp hright
          obtain rfl := List.append_cancel_right hleft
          rfl
  | other cve comp =>
    cases b with
    | lone id => exact absurd h.symm (lone_ne hb)
    | other cve' comp' =>
      obtain ⟨rfl, rfl⟩ := (append_cons_inj ha hb).mp h
      rfl

/-- Subjects with the same asset are equal when their identities are written alike. -/
theorem KeySubject.eq_of_identity {a b : KeySubject} (hkind : a.kind = b.kind)
    (himage : a.image = b.image) (hbranch : a.branch = b.branch) (htag : a.tag = b.tag)
    (ha : a.identity.Plain) (hb : b.identity.Plain) (h : a.identity.text = b.identity.text) :
    a = b := by
  obtain ⟨kind, image, branch, tag, identity, htag'⟩ := a
  obtain ⟨kind', image', branch', tag', identity', htag''⟩ := b
  obtain rfl : kind = kind' := hkind
  obtain rfl : image = image' := himage
  obtain rfl : branch = branch' := hbranch
  obtain rfl : tag = tag' := htag
  obtain rfl := SubjectIdentity.text_inj ha hb h
  rfl

/-- The kind and the asset of plain subjects are read back, and what follows them. -/
theorem KeySubject.text_append_head {a b : KeySubject} {r r' : Str} (ha : a.Plain) (hb : b.Plain)
    (h : a.text ++ r = b.text ++ r') :
    a.kind = b.kind ∧ a.image = b.image ∧ a.branch = b.branch ∧ a.tag = b.tag ∧
      a.identity.text ++ r = b.identity.text ++ r' := by
  simp only [text, List.append_assoc, List.cons_append] at h
  obtain ⟨hkind, h⟩ := (append_cons_inj a.kind.colon_notMem b.kind.colon_notMem).mp h
  replace hkind := KeyKind.text_injective hkind
  obtain ⟨himage, h⟩ := (append_cons_inj ha.1 hb.1).mp h
  by_cases hlicense : a.kind = .license
  · have hlicense' : b.kind = .license := hkind ▸ hlicense
    simp only [tagText, hlicense, hlicense', if_true, List.nil_append] at h
    obtain ⟨hbranch, h⟩ := (append_cons_inj ha.2.2.1 hb.2.2.1).mp h
    exact ⟨hkind, himage, hbranch,
      (a.tag_license hlicense).trans (b.tag_license hlicense').symm, h⟩
  · have hlicense' : ¬ b.kind = .license := hkind ▸ hlicense
    simp only [tagText, hlicense, hlicense', if_false, List.cons_append] at h
    obtain ⟨hbranch, h⟩ := (append_cons_inj ha.2.1 hb.2.1).mp h
    obtain ⟨htag, h⟩ := (append_cons_inj ha.2.2.2.1 hb.2.2.2.1).mp h
    exact ⟨hkind, himage, hbranch, htag, h⟩

/-- Plain subjects are read back. -/
theorem KeySubject.text_inj {a b : KeySubject} (ha : a.Plain) (hb : b.Plain) :
    a.text = b.text ↔ a = b := by
  refine ⟨fun h => ?_, fun h => h ▸ rfl⟩
  have happend : a.text ++ [] = b.text ++ [] := by rw [h]
  obtain ⟨hkind, himage, hbranch, htag, hidentity⟩ := text_append_head ha hb happend
  exact eq_of_identity hkind himage hbranch htag ha.2.2.2.2 hb.2.2.2.2 (by simpa using hidentity)

/-! ### Digests -/

/-- The digest at the end of a correlation key. -/
def digestText : Option Str → Str
  | none => []
  | some dig => ':' :: (str "digest" ++ ':' :: dig)

/-- A digest is read back when no part of what stands before it is the word that announces one. -/
theorem append_digestText_inj {x x' : Str} {d d' : Option Str}
    (hx : str "digest" ∉ x.splitOn ':') (hx' : str "digest" ∉ x'.splitOn ':')
    (h : x ++ digestText d = x' ++ digestText d') : x = x' ∧ d = d' := by
  have parts : ∀ (y : Str) (dig : Str), (y ++ digestText (some dig)).splitOn ':' =
      y.splitOn ':' ++ str "digest" :: dig.splitOn ':' := by
    intro y dig
    rw [digestText, List.splitOn_append_cons_self,
      List.splitOn_append_cons_self_of_not_mem (by decide)]
  cases d with
  | none =>
    cases d' with
    | none => exact ⟨by simpa [digestText] using h, rfl⟩
    | some dig =>
      have hx_eq : x = x' ++ digestText (some dig) := by simpa [digestText] using h
      rw [hx_eq, parts] at hx
      simp at hx
  | some dig =>
    cases d' with
    | none =>
      have hx_eq : x' = x ++ digestText (some dig) := by simpa [digestText] using h.symm
      rw [hx_eq, parts] at hx'
      simp at hx'
    | some dig' =>
      have hparts := congrArg (List.splitOn ':') h
      rw [parts, parts] at hparts
      have hsame := ((append_cons_inj hx hx').mp hparts).1
      have joined : ∀ y : Str, [':'].intercalate (y.splitOn ':') = y :=
        fun y => List.intercalate_splitOn ':'
      obtain rfl : x = x' := by rw [← joined x, hsame, joined]
      refine ⟨rfl, ?_⟩
      simpa [digestText] using h

/-! ### What the keys of a payload name -/

section Payloads

variable [Unicode]

/-- The license and the package, or one of them, or the CVE. -/
def licenseName (p : KeyPayload) : SubjectIdentity .license :=
  let comp := keyPackage p
  let spdx := normalize (Str.orEmpty p.licenseExpression)
  if spdx ≠ [] ∧ comp ≠ [] then .license spdx comp
  else if spdx ≠ [] then .lone spdx
  else if comp ≠ [] then .license [] comp
  else .lone (normalizeCveId p.cveId)

/-- The package and the CVE, or the CVE. -/
def scaName (p : KeyPayload) (eco : Str) : SubjectIdentity .package :=
  if keyPackage p ≠ [] then .package eco (keyPackage p) (normalizeCveId p.cveId)
  else .lone (normalizeCveId p.cveId)

/-- The rule and the path, or the rule, or the CVE. -/
def staticName (p : KeyPayload) : SubjectIdentity .place :=
  let rid := normalize (Str.orEmpty p.ruleId)
  let fpath := normalize (Str.orEmpty p.filePath)
  let hash := Str.strip (Str.orEmpty p.sastPartialFingerprintHash)
  if rid ≠ [] ∧ fpath ≠ [] then
    .place rid fpath (if hash ≠ [] then some (normalize hash) else none)
  else if rid ≠ [] then .lone rid
  else .lone (normalizeCveId p.cveId)

/-- What the primary key of a payload names on an asset. -/
def keySubject (p : KeyPayload) (canonicalAsset : Str) : KeySubject :=
  let ft := normalize p.findingType
  let image := normalize canonicalAsset
  let branch := normalize p.branch
  let tag := normalize p.tag
  let stable := normalize (Str.orEmpty p.stableRuleKey)
  if stable ≠ [] then
    ⟨.openscap, image, branch, tag, .rule stable
      (normalize (if Str.truthy p.benchmarkFamily then Str.orEmpty p.benchmarkFamily
        else str "unknown_benchmark")) (normalizeProfileScope p.profileScope), nofun⟩
  else if ft = str "license" then ⟨.license, image, branch, [], licenseName p, fun _ => rfl⟩
  else if ft = str "sca" then
    ⟨.sca, image, branch, tag, scaName p (p.ecosystemOn canonicalAsset), nofun⟩
  else if ft = str "sast" then ⟨.sast, image, branch, tag, staticName p, nofun⟩
  else if ft = str "iac" then ⟨.iac, image, branch, tag, staticName p, nofun⟩
  else if ft = str "secret" then ⟨.secret, image, branch, tag, staticName p, nofun⟩
  else
    ⟨.other, image, branch, tag, .other (normalizeCveId p.cveId) (componentBase p.component), nofun⟩

theorem licenseName_text (p : KeyPayload) : (licenseIdentity p).1 = ':' :: (licenseName p).text := by
  simp only [licenseIdentity, licenseName]
  split_ifs <;> simp [SubjectIdentity.text, str]

theorem scaName_text (p : KeyPayload) (eco : Str) :
    (scaIdentity p eco).1 = ':' :: (scaName p eco).text := by
  simp only [scaIdentity, scaName]
  split_ifs <;> simp [SubjectIdentity.text, str]

theorem staticName_text (p : KeyPayload) : (staticIdentity p).1 = ':' :: (staticName p).text := by
  simp only [staticIdentity, staticName]
  split_ifs <;> simp [SubjectIdentity.text, SubjectIdentity.fingerprintText, str]

/-- A primary inner key is its subject, written out. -/
theorem primaryInnerKey_eq_text (p : KeyPayload) (canonicalAsset : Str) :
    (primaryInnerKey p canonicalAsset).1 = (keySubject p canonicalAsset).text := by
  have static : ∀ {ft : Str}, isStaticType ft = true ↔
      ft = str "sast" ∨ ft = str "iac" ∨ ft = str "secret" := by simp [isStaticType]
  simp only [primaryInnerKey, keySubject, static, licenseName_text, scaName_text, staticName_text]
  split_ifs <;>
    simp_all [KeySubject.text, KeySubject.tagText, KeyKind.text, assetSegment, assetSegmentDropTag,
      openscapFamilyProfile, str] <;>
    rfl

/-! ### Correlation keys -/

/-- `correlation_key_for_payload`; of the payload it reads neither the tenant nor the rule key of a
benchmark. -/
def correlationKeyForPayload (p : KeyPayload) (image : Str) (imageDigest : Option Str)
    (includeDigestInCorrelation : Bool) : Str × Confidence :=
  let ft := normalize p.findingType
  let asset := assetSegment image p.branch p.tag
  let dig := normalize (Str.orEmpty imageDigest)
  let withDigest (inner : Str) : Str :=
    if includeDigestInCorrelation ∧ dig ≠ [] then inner ++ str ":digest:" ++ dig else inner
  let rid := normalize (Str.orEmpty p.ruleId)
  let fpath := normalize (Str.orEmpty p.filePath)
  if ft = str "license" then
    (str "v1:" ++ withDigest
      (str "license:" ++ assetSegmentDropTag image p.branch ++ (licenseIdentity p).1),
      (licenseIdentity p).2)
  else if ft = str "sca" then
    (str "v1:" ++ withDigest (ft ++ str ":" ++ asset ++ (scaIdentity p (p.ecosystemOn image)).1),
      (scaIdentity p (p.ecosystemOn image)).2)
  else if isStaticType ft then
    (str "v1:" ++ (ft ++ str ":" ++ asset ++ (staticIdentity p).1),
      if rid ≠ [] ∧ fpath ≠ [] then .medium else .low)
  else
    (str "v1:" ++ (str "other:" ++ asset ++ str ":" ++ normalizeCveId p.cveId ++ str ":" ++
      componentBase p.component), .low)

/-- What a correlation key names on an image. -/
def correlationSubject (p : KeyPayload) (image : Str) : KeySubject :=
  keySubject { p with stableRuleKey := none } image

/-- The digest in a correlation key. -/
def correlationDigest (p : KeyPayload) (imageDigest : Option Str)
    (includeDigestInCorrelation : Bool) : Option Str :=
  let ft := normalize p.findingType
  let dig := normalize (Str.orEmpty imageDigest)
  if includeDigestInCorrelation ∧ (ft = str "license" ∨ ft = str "sca") ∧ dig ≠ [] then some dig
  else none

/-- A correlation key is its subject, written out, and the digest. -/
theorem correlationKey_eq_text (p : KeyPayload) (image : Str) (imageDigest : Option Str)
    (includeDigest : Bool) :
    (correlationKeyForPayload p image imageDigest includeDigest).1 =
      str "v1:" ++ ((correlationSubject p image).text ++
        digestText (correlationDigest p imageDigest includeDigest)) := by
  have hnone : normalize (Str.orEmpty (none : Option Str)) = [] := by simp [Str.orEmpty]
  have hinner : (primaryInnerKey { p with stableRuleKey := none } image).1 =
      if normalize p.findingType = str "license" then
        str "license:" ++ assetSegmentDropTag image p.branch ++ (licenseIdentity p).1
      else if normalize p.findingType = str "sca" then
        str "sca:" ++ assetSegment image p.branch p.tag ++
          (scaIdentity p (p.ecosystemOn image)).1
      else if isStaticType (normalize p.findingType) then
        normalize p.findingType ++ str ":" ++ assetSegment image p.branch p.tag ++
          (staticIdentity p).1
      else
        str "other:" ++ assetSegment image p.branch p.tag ++ str ":" ++
          normalizeCveId p.cveId ++ str ":" ++ componentBase p.component := by
    simp only [primaryInnerKey, hnone, ne_eq, not_true_eq_false, if_false]
    split_ifs <;> rfl
  rw [correlationSubject, ← primaryInnerKey_eq_text, hinner, correlationKeyForPayload,
    correlationDigest]
  by_cases hdigest : includeDigest = true ∧ normalize (Str.orEmpty imageDigest) ≠ []
  · split_ifs <;> simp_all [digestText, str]
  · split_ifs <;> simp_all [digestText, str]

/-- Only the keys of licenses and packages have a digest. -/
theorem correlationDigest_eq_none {p : KeyPayload} (image : Str) (imageDigest : Option Str)
    {includeDigest : Bool}
    (h : ¬ (includeDigest = true ∧
      ((correlationSubject p image).kind = .license ∨ (correlationSubject p image).kind = .sca))) :
    correlationDigest p imageDigest includeDigest = none := by
  rw [correlationDigest]
  refine if_neg fun hdigest => h ⟨hdigest.1, ?_⟩
  have hne : str "sca" ≠ str "license" := by decide
  rcases hdigest.2.1 with htype | htype
  · exact .inl (by simp [correlationSubject, keySubject, htype])
  · exact .inr (by simp [correlationSubject, keySubject, htype, hne])

/-- Correlation keys of plain subjects name the same subject and digest when they are equal. -/
theorem correlationKey_eq_iff {p p' : KeyPayload} {image image' : Str}
    {imageDigest imageDigest' : Option Str} {includeDigest : Bool}
    (hp : (correlationSubject p image).Plain) (hp' : (correlationSubject p' image').Plain)
    (hd : includeDigest = true → (correlationSubject p image).NoDigest)
    (hd' : includeDigest = true → (correlationSubject p' image').NoDigest) :
    (correlationKeyForPayload p image imageDigest includeDigest).1 =
        (correlationKeyForPayload p' image' imageDigest' includeDigest).1 ↔
      correlationSubject p image = correlationSubject p' image' ∧
        correlationDigest p imageDigest includeDigest =
          correlationDigest p' imageDigest' includeDigest := by
  rw [correlationKey_eq_text, correlationKey_eq_text, List.append_cancel_left_eq]
  constructor
  · intro h
    obtain ⟨hkind, himage, hbranch, htag, hidentity⟩ := KeySubject.text_append_head hp hp' h
    have hboth : (correlationSubject p image).identity.text =
        (correlationSubject p' image').identity.text ∧
          correlationDigest p imageDigest includeDigest =
            correlationDigest p' imageDigest' includeDigest := by
      by_cases hdigest : includeDigest = true ∧ ((correlationSubject p image).kind = .license ∨
          (correlationSubject p image).kind = .sca)
      · exact append_digestText_inj (hd hdigest.1 hdigest.2) (hd' hdigest.1 (hkind ▸ hdigest.2))
          hidentity
      · have hnone := correlationDigest_eq_none image imageDigest hdigest
        have hnone' := correlationDigest_eq_none image' imageDigest' (hkind ▸ hdigest)
        rw [hnone, hnone', List.append_cancel_right_eq] at hidentity
        exact ⟨hidentity, hnone.trans hnone'.symm⟩
    exact ⟨KeySubject.eq_of_identity hkind himage hbranch htag hp.2.2.2.2 hp'.2.2.2.2 hboth.1,
      hboth.2⟩
  · rintro ⟨hsubject, hdigest⟩
    rw [hsubject, hdigest]

/-! ### Decision keys -/

/-- What a candidate key names: a subject, or a vendor's issue on an asset. -/
inductive KeyName
  | subject (k : KeySubject)
  | issue (source issueId image branch tag : Str)

/-- How a name is written. -/
def KeyName.text : KeyName → Str
  | .subject k => k.text
  | .issue source issueId image branch tag =>
    str "source" ++ ':' :: (source ++ ':' :: (issueId ++ ':' ::
      (image ++ '|' :: (branch ++ '|' :: tag))))

/-- No field contains the delimiter that ends it. -/
def KeyName.Plain : KeyName → Prop
  | .subject k => k.Plain
  | .issue source issueId image branch _ =>
    ':' ∉ source ∧ ':' ∉ issueId ∧ '|' ∉ image ∧ '|' ∉ branch

instance KeyName.decidablePlain : (a : KeyName) → Decidable a.Plain
  | .subject k => inferInstanceAs (Decidable k.Plain)
  | .issue source issueId image branch _ => inferInstanceAs
    (Decidable (':' ∉ source ∧ ':' ∉ issueId ∧ '|' ∉ image ∧ '|' ∉ branch))

omit [Unicode] in
/-- Plain names are read back. -/
theorem KeyName.text_inj {a b : KeyName} (ha : a.Plain) (hb : b.Plain) :
    a.text = b.text ↔ a = b := by
  refine ⟨fun h => ?_, fun h => h ▸ rfl⟩
  -- the word before the first colon of an issue is no kind
  have kind_ne : ∀ k : KeySubject, ∀ s : Str, k.text ≠ str "source" ++ ':' :: s := by
    intro k s h
    have hkind := ((append_cons_inj k.kind.colon_notMem (by decide)).mp h).1
    revert hkind
    cases k.kind <;> decide
  cases a with
  | subject k =>
    cases b with
    | subject k' => exact congrArg _ ((KeySubject.text_inj ha hb).mp h)
    | issue => exact absurd h (kind_ne k _)
  | issue source issueId image branch tag =>
    cases b with
    | subject k => exact absurd h.symm (kind_ne k _)
    | issue source' issueId' image' branch' tag' =>
      have hsource := List.append_cancel_left h
      obtain ⟨rfl, hissue⟩ := (append_cons_inj ha.1 hb.1).mp (List.cons.inj hsource).2
      obtain ⟨rfl, himage⟩ := (append_cons_inj ha.2.1 hb.2.1).mp hissue
      obtain ⟨rfl, hbranch⟩ := (append_cons_inj ha.2.2.1 hb.2.2.1).mp himage
      obtain ⟨rfl, rfl⟩ := (append_cons_inj ha.2.2.2 hb.2.2.2).mp hbranch
      rfl

/-- What the candidate of a kind names. -/
def candidateName (p : KeyPayload) (canonicalAsset : Str) : CandidateKind → KeyName
  | .primary | .openscap => .subject (keySubject p canonicalAsset)
  | .sourceIssue =>
    .issue (normalize (Str.orEmpty p.sourceName)) (Str.strip (Str.orEmpty p.sourceIssueId))
      (normalize canonicalAsset) (normalize p.branch) (normalize p.tag)

/-- The primary key is the OpenSCAP key when there is one. -/
theorem openscapCandidate_eq_none (p : KeyPayload) (canonicalAsset : Str) :
    openscapCandidate p canonicalAsset = none := by
  rw [openscapCandidate]
  refine if_neg fun h => h.2 ?_
  rw [primaryInnerKey, if_pos h.1]
  simp [Str.startsWith, List.append_assoc]

/-- A candidate key is what it names, written out after the tenant. -/
theorem subjectKey_eq_text {p : KeyPayload} {canonicalAsset : Str} {c : DecisionSubjectCandidate}
    (hc : c ∈ decisionSubjectKeysForPayload p canonicalAsset) :
    c.subjectKey = wrapKey p.tenantId (candidateName p canonicalAsset c.kind).text := by
  rw [decisionSubjectKeysForPayload, openscapCandidate_eq_none, Option.toList_none,
    List.nil_append, List.mem_cons, Option.mem_toList] at hc
  rcases hc with rfl | hc
  · rw [primaryCandidate, primaryInnerKey_eq_text]
    rfl
  · simp only [sourceIssueCandidate] at hc
    split at hc
    · obtain rfl := Option.some.inj hc
      simp [candidateName, KeyName.text, assetSegment, str]
    · simp at hc

omit [Unicode] in
theorem wrapKey_inj {tenantId tenantId' : Option Str} {inner inner' : Str}
    (h : ':' ∉ normalizeTenantId tenantId) (h' : ':' ∉ normalizeTenantId tenantId') :
    wrapKey tenantId inner = wrapKey tenantId' inner' ↔
      normalizeTenantId tenantId = normalizeTenantId tenantId' ∧ inner = inner' := by
  have shape : ∀ (t : Option Str) (s : Str),
      wrapKey t s = str "decision:v1:" ++ (normalizeTenantId t ++ ':' :: s) := by
    simp [wrapKey, str]
  rw [shape, shape, List.append_cancel_left_eq, append_cons_inj h h']

/-- The fields of a payload contain no delimiter that ends them in one of its keys. -/
structure KeyPayload.PlainOn (p : KeyPayload) (asset : Str) : Prop where
  tenant : ':' ∉ normalizeTenantId p.tenantId
  candidates : ∀ c ∈ decisionSubjectKeysForPayload p asset, (candidateName p asset c.kind).Plain
  correlation : (correlationSubject p asset).Plain

/-- Decision keys of plain payloads are equal exactly if they name the same for the same tenant, and
their correlation keys exactly if they name the same subject and digest. -/
theorem subject_keys_iff {p p' : KeyPayload} {asset asset' : Str} (hp : p.PlainOn asset)
    (hp' : p'.PlainOn asset') :
    (∀ c ∈ decisionSubjectKeysForPayload p asset,
      ∀ c' ∈ decisionSubjectKeysForPayload p' asset',
        c.subjectKey = c'.subjectKey ↔
          normalizeTenantId p.tenantId = normalizeTenantId p'.tenantId ∧
            candidateName p asset c.kind = candidateName p' asset' c'.kind) ∧
    ∀ (digest digest' : Option Str) (includeDigest : Bool),
      (includeDigest = true → (correlationSubject p asset).NoDigest ∧
        (correlationSubject p' asset').NoDigest) →
      ((correlationKeyForPayload p asset digest includeDigest).1 =
          (correlationKeyForPayload p' asset' digest' includeDigest).1 ↔
        correlationSubject p asset = correlationSubject p' asset' ∧
          correlationDigest p digest includeDigest =
            correlationDigest p' digest' includeDigest) := by
  refine ⟨fun c hc c' hc' => ?_, fun digest digest' includeDigest hdigest => ?_⟩
  · rw [subjectKey_eq_text hc, subjectKey_eq_text hc', wrapKey_inj hp.tenant hp'.tenant,
      KeyName.text_inj (hp.candidates c hc) (hp'.candidates c' hc')]
  · exact correlationKey_eq_iff hp.correlation hp'.correlation (fun h => (hdigest h).1)
      fun h => (hdigest h).2

end Payloads

/-! ### Keys of some payloads -/

section Examples

attribute [local instance] asciiUnicode

/-- A package with a license and a vulnerability, under a tag of an image. -/
def opensslPayload (tenant findingType tag cveId : String) : KeyPayload where
  tenantId := some (str tenant)
  findingType := str findingType
  branch := []
  tag := str tag
  cveId := str cveId
  component := str "openssl"
  ecosystem := some (str "deb")
  ruleId := none
  filePath := none
  sastPartialFingerprintHash := none
  benchmarkFamily := none
  licenseExpression := some (str "Apache-2.0")
  stableRuleKey := none
  profileScope := none
  sourceName := some (str "trivy")
  sourceIssueId := none

/-- Two vulnerabilities of a package have different decision keys. -/
theorem opensslPayload_keys_ne :
    (primaryCandidate (opensslPayload "acme" "sca" "1" "CVE-1") (str "ghcr.io:443/app")).subjectKey ≠
      (primaryCandidate (opensslPayload "acme" "sca" "1" "CVE-2")
        (str "ghcr.io:443/app")).subjectKey := by
  have hplain : (opensslPayload "acme" "sca" "1" "CVE-1").PlainOn (str "ghcr.io:443/app") :=
    ⟨by decide +kernel, by decide +kernel, by decide +kernel⟩
  have hplain' : (opensslPayload "acme" "sca" "1" "CVE-2").PlainOn (str "ghcr.io:443/app") :=
    ⟨by decide +kernel, by decide +kernel, by decide +kernel⟩
  intro h
  have hname := ((subject_keys_iff hplain hplain').1 _ List.mem_cons_self _ List.mem_cons_self).mp h
  have htext := congrArg KeyName.text hname.2
  revert htext
  decide +kernel

/-- The keys of a license leave out the tag of the image, and correlation keys the tenant. -/
theorem keys_join_tags_and_tenants :
    (¬ ∀ (p p' : KeyPayload) (asset asset' : Str),
      (primaryCandidate p asset).subjectKey = (primaryCandidate p' asset').subjectKey →
        assetSegment asset p.branch p.tag = assetSegment asset' p'.branch p'.tag) ∧
    ¬ ∀ (p p' : KeyPayload) (image image' : Str),
      (correlationKeyForPayload p image none false).1 =
          (correlationKeyForPayload p' image' none false).1 →
        normalizeTenantId p.tenantId = normalizeTenantId p'.tenantId := by
  constructor
  · intro h
    have := h (opensslPayload "acme" "license" "1" "L-1") (opensslPayload "acme" "license" "2" "L-1")
      (str "app") (str "app") (by decide +kernel)
    revert this
    decide +kernel
  · intro h
    have := h (opensslPayload "acme" "sca" "1" "CVE-1") (opensslPayload "globex" "sca" "1" "CVE-1")
      (str "app") (str "app") (by decide +kernel)
    revert this
    decide +kernel

end Examples

end Vat
