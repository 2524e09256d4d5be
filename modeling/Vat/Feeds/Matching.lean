import Vat.Feeds.Upsert
import Vat.Sbom.Packages

/-!
# Matches of installed packages with feed records

A package of an inventory and a record of a feed match by their names; the versions and the
ecosystems decide how well. The materialization leaves out the records of another version and,
unless it is told otherwise, the matches of low confidence, and writes a finding for each of the
others. It resolves the open findings that are no longer matched.

The two queries of the pass, which fetch packages and records in batches of names, are left out.

Source: `backend/app/services/vuln_feeds.py`, lines 59–86, 320–385, 1551–1557, 1611–1667, 1889–1918,
1964–2010 and 2022–2052.

## Main definitions

* `purlToOsvTarget`, `sbomEcosystem`.
* `FeedMatch`, `matchStrategy`: `_match_strategy`.
* `FeedMatch.materialized`: the decision of the materialization.
* `materializedStatus`: what a pass makes of the status of a finding.

## Main results

* `materialized_matchStrategy_iff`: when a record is materialized for a package.
* `matchStrategy_congr_version`: the version of a record counts without the blanks around it.
-/

namespace Vat

/-! ### Ecosystems -/

/-- `_ECOSYSTEM_BY_LANGUAGE`. -/
def ecosystemByLanguage : List (String × String) :=
  [("python", "PyPI"), ("pypi", "PyPI"), ("javascript", "npm"), ("npm", "npm"), ("nodejs", "npm"),
    ("node.js", "npm"), ("typescript", "npm"), ("node", "npm"), ("go", "Go"), ("golang", "Go"),
    ("gomod", "Go"), ("go-module", "Go"), ("go mod", "Go"), ("java", "Maven"), ("maven", "Maven"),
    ("ruby", "RubyGems"), ("rubygems", "RubyGems"), ("gem", "RubyGems"), ("rust", "crates.io"),
    ("cargo", "crates.io"), ("crates.io", "crates.io"), ("nuget", "NuGet"), ("alpine", "Alpine"),
    ("apk", "Alpine"), ("debian", "Debian"), ("deb", "Debian"), ("ubuntu", "Ubuntu")]

/-- `ecosystem_by_type`. -/
def ecosystemByType : List (String × String) :=
  [("pypi", "PyPI"), ("npm", "npm"), ("golang", "Go"), ("go", "Go"), ("maven", "Maven"),
    ("gem", "RubyGems"), ("cargo", "crates.io"), ("nuget", "NuGet"), ("apk", "Alpine"),
    ("deb", "Debian")]

/-- The text under a key of a constant dictionary. -/
def ecosystemUnder (table : List (String × String)) (key : Str) : Option Str :=
  (table.find? fun e => str e.1 = key).map fun e => str e.2

section General

variable [Unicode] [UrlDecoding]

/-- `_parse_purl`: the type, the path and the version. -/
def parsePurl (value : Option Str) : Option (Str × Str × Option Str) :=
  let raw := Str.strip (Str.orEmpty value)
  if ¬ Str.startsWith raw (str "pkg:") then none
  else
    let body := (Str.split1 '?' (Str.split1 '#' (raw.drop 4)).1).1
    if '/' ∉ body then none
    else
      let (purlType, remainder) := Str.split1 '/' body
      let purlType := UrlDecoding.unquote (Unicode.lower (Str.strip purlType))
      if purlType = [] then none
      else
        let (remainder, version) :=
          if '@' ∈ remainder then Str.rsplit1 '@' remainder else (remainder, [])
        let path := UrlDecoding.unquote (Str.strip remainder)
        let version := UrlDecoding.unquote (Str.strip version)
        if path = [] then none
        else some (purlType, path, if version = [] then none else some version)

omit [Unicode] [UrlDecoding] in
/-- The name of a package in its ecosystem. -/
def purlPackageName (purlType path : Str) : Str :=
  if purlType ∈ ["pypi", "nuget", "gem", "cargo", "apk", "deb"].map str then
    (path.splitOn '/').getLast?.getD []
  else
    match decide (purlType = str "maven"), (path.splitOn '/').filter (· ≠ []) with
    | true, group :: artifact :: _ => group ++ str ":" ++ artifact
    | _, _ => path

/-- `_purl_to_osv_target`: the name and the ecosystem. -/
def purlToOsvTarget (purl fallbackName : Option Str) : Option (Str × Str) :=
  (parsePurl purl).bind fun (purlType, path, _) =>
    (ecosystemUnder ecosystemByType purlType).bind fun ecosystem =>
      let name := Str.strip (purlPackageName purlType path)
      let fallback := Str.strip (Str.orEmpty fallbackName)
      if name ≠ [] then some (name, ecosystem)
      else if fallback ≠ [] then some (fallback, ecosystem)
      else none

omit [UrlDecoding] in
/-- `_normalize_ecosystem`. -/
def normalizeEcosystem (value : Option Str) : Str := Unicode.lower (Str.strip (Str.orEmpty value))

omit [UrlDecoding] in
/-- A name as it is compared. -/
def comparedName (name : Option Str) : Str := Unicode.lower (Str.strip (Str.orEmpty name))

/-- The ecosystem of a package. -/
def sbomEcosystem (pkg : SbomPackage) : Str :=
  let target := purlToOsvTarget pkg.purl (some (comparedName (some pkg.name)))
  let byLanguage := ecosystemUnder ecosystemByLanguage (Unicode.lower (Str.orEmpty pkg.language))
  normalizeEcosystem (Str.orElse (Str.orElse (target.map Prod.snd) byLanguage) pkg.language)

/-! ### Strategies -/

/-- The strategies, without what marks a probed package. -/
inductive MatchKind
  | nameMismatch | versionMismatch
  | nameVersionEcosystem | nameVersion | nameEcosystemNoVersion | advisoryNoVersion
  deriving DecidableEq

/-- The text of a strategy. -/
def MatchKind.text : MatchKind → Str
  | .nameMismatch => str "name_mismatch"
  | .versionMismatch => str "version_mismatch"
  | .nameVersionEcosystem => str "name+version+ecosystem"
  | .nameVersion => str "name+version"
  | .nameEcosystemNoVersion => str "name+ecosystem_no_version"
  | .advisoryNoVersion => str "advisory-no-version"

inductive MatchConfidence
  | high | medium | low
  deriving DecidableEq

/-- What `_match_strategy` returns. -/
structure FeedMatch where
  kind : MatchKind
  probe : Bool
  confidence : MatchConfidence
  deriving DecidableEq

/-- The text of the strategy of a match. -/
def FeedMatch.strategy (m : FeedMatch) : Str := m.kind.text ++ if m.probe then str "+probe" else []

/-- The package URL was derived by a probe, with medium confidence. -/
def IsProbed (pkg : SbomPackage) : Prop :=
  comparedName pkg.purlSource = str "derived_probe" ∧
    comparedName pkg.purlConfidence = str "medium"

/-- The two ecosystems are given and are the same. -/
def EcosystemAligned (pkg : SbomPackage) (advisoryEcosystem : Option Str) : Prop :=
  sbomEcosystem pkg ≠ [] ∧ normalizeEcosystem advisoryEcosystem ≠ [] ∧
    sbomEcosystem pkg = normalizeEcosystem advisoryEcosystem

/-- The two names are given and are the same. -/
def NamesAgree (pkg : SbomPackage) (advisoryPackage : Option Str) : Prop :=
  comparedName (some pkg.name) ≠ [] ∧ comparedName advisoryPackage ≠ [] ∧
    comparedName (some pkg.name) = comparedName advisoryPackage

omit [UrlDecoding] in
instance (pkg : SbomPackage) : Decidable (IsProbed pkg) := inferInstanceAs (Decidable (_ ∧ _))

instance (pkg : SbomPackage) (e : Option Str) : Decidable (EcosystemAligned pkg e) :=
  inferInstanceAs (Decidable (_ ∧ _ ∧ _))

omit [UrlDecoding] in
instance (pkg : SbomPackage) (n : Option Str) : Decidable (NamesAgree pkg n) :=
  inferInstanceAs (Decidable (_ ∧ _ ∧ _))

/-- A match whose confidence falls for a probed package. -/
def probedMatch (pkg : SbomPackage) (kind : MatchKind) (confidence : MatchConfidence) : FeedMatch :=
  if IsProbed pkg ∧ confidence ≠ .low then ⟨kind, true, .low⟩ else ⟨kind, false, confidence⟩

/-- `_match_strategy`. -/
def matchStrategy (pkg : SbomPackage) (advisoryPackage advisoryEcosystem advisoryVersion : Option Str) :
    FeedMatch :=
  if ¬ NamesAgree pkg advisoryPackage then ⟨.nameMismatch, false, .low⟩
  else
    let sbomVersion := Str.strip pkg.version
    let advVersion := Str.strip (Str.orEmpty advisoryVersion)
    if advVersion ≠ [] ∧ sbomVersion ≠ [] ∧ advVersion = sbomVersion then
      if EcosystemAligned pkg advisoryEcosystem then probedMatch pkg .nameVersionEcosystem .high
      else probedMatch pkg .nameVersion .medium
    else if advVersion ≠ [] ∧ sbomVersion ≠ [] ∧ advVersion ≠ sbomVersion then
      ⟨.versionMismatch, false, .low⟩
    else if EcosystemAligned pkg advisoryEcosystem then
      probedMatch pkg .nameEcosystemNoVersion .medium
    else probedMatch pkg .advisoryNoVersion .low

/-- The two versions are given and are the same. -/
def SameVersion (pkg : SbomPackage) (advisoryVersion : Option Str) : Prop :=
  Str.strip (Str.orEmpty advisoryVersion) ≠ [] ∧ Str.strip pkg.version ≠ [] ∧
    Str.strip (Str.orEmpty advisoryVersion) = Str.strip pkg.version

/-- The two versions are given and are different. -/
def OtherVersion (pkg : SbomPackage) (advisoryVersion : Option Str) : Prop :=
  Str.strip (Str.orEmpty advisoryVersion) ≠ [] ∧ Str.strip pkg.version ≠ [] ∧
    Str.strip (Str.orEmpty advisoryVersion) ≠ Str.strip pkg.version

section Strategies

variable {pkg : SbomPackage} {name ecosystem version : Option Str}

omit [Unicode] [UrlDecoding] in
theorem OtherVersion.not_sameVersion (h : OtherVersion pkg version) : ¬ SameVersion pkg version :=
  fun hsame => h.2.2 hsame.2.2

theorem matchStrategy_of_not_namesAgree (h : ¬ NamesAgree pkg name) :
    matchStrategy pkg name ecosystem version = ⟨.nameMismatch, false, .low⟩ := if_pos h

theorem matchStrategy_of_sameVersion (h : NamesAgree pkg name) (hversion : SameVersion pkg version) :
    matchStrategy pkg name ecosystem version =
      if EcosystemAligned pkg ecosystem then probedMatch pkg .nameVersionEcosystem .high
      else probedMatch pkg .nameVersion .medium := by
  rw [matchStrategy, if_neg (not_not_intro h)]
  exact if_pos hversion

theorem matchStrategy_of_otherVersion (h : NamesAgree pkg name)
    (hversion : OtherVersion pkg version) :
    matchStrategy pkg name ecosystem version = ⟨.versionMismatch, false, .low⟩ := by
  rw [matchStrategy, if_neg (not_not_intro h)]
  exact (if_neg hversion.not_sameVersion).trans (if_pos hversion)

theorem matchStrategy_of_no_version (h : NamesAgree pkg name) (hsame : ¬ SameVersion pkg version)
    (hother : ¬ OtherVersion pkg version) :
    matchStrategy pkg name ecosystem version =
      if EcosystemAligned pkg ecosystem then probedMatch pkg .nameEcosystemNoVersion .medium
      else probedMatch pkg .advisoryNoVersion .low := by
  rw [matchStrategy, if_neg (not_not_intro h)]
  exact (if_neg hsame).trans (if_neg hother)

/-- The version of a record counts without the blanks around it. -/
theorem matchStrategy_congr_version {version' : Option Str}
    (h : Str.strip (Str.orEmpty version) = Str.strip (Str.orEmpty version')) :
    matchStrategy pkg name ecosystem version = matchStrategy pkg name ecosystem version' := by
  rw [matchStrategy, matchStrategy, h]

/-- The version of a record does not count for a package without a version. -/
theorem matchStrategy_of_blank (h : Str.strip pkg.version = []) (version' : Option Str) :
    matchStrategy pkg name ecosystem version = matchStrategy pkg name ecosystem version' := by
  have hsame : ∀ v, ¬ SameVersion pkg v := fun _ hv => hv.2.1 h
  have hother : ∀ v, ¬ OtherVersion pkg v := fun _ hv => hv.2.1 h
  by_cases hname : NamesAgree pkg name
  · rw [matchStrategy_of_no_version hname (hsame _) (hother _),
      matchStrategy_of_no_version hname (hsame _) (hother _)]
  · rw [matchStrategy_of_not_namesAgree hname, matchStrategy_of_not_namesAgree hname]

omit [UrlDecoding] in
@[simp] theorem kind_probedMatch (kind : MatchKind) (confidence : MatchConfidence) :
    (probedMatch pkg kind confidence).kind = kind := by
  unfold probedMatch
  split_ifs <;> rfl

omit [UrlDecoding] in
theorem confidence_probedMatch_ne_low_iff {kind : MatchKind} {confidence : MatchConfidence} :
    (probedMatch pkg kind confidence).confidence ≠ .low ↔ ¬ IsProbed pkg ∧ confidence ≠ .low := by
  unfold probedMatch
  split_ifs with h
  · exact iff_of_false (fun hne => hne rfl) fun hn => hn.1 h.1
  · constructor
    · exact fun hne => ⟨fun hp => h ⟨hp, hne⟩, hne⟩
    · exact fun hn => hn.2

/-- A match is rejected because of its version when the names agree and the versions differ. -/
theorem kind_eq_versionMismatch_iff {name ecosystem version : Option Str} :
    (matchStrategy pkg name ecosystem version).kind = .versionMismatch ↔
      NamesAgree pkg name ∧ OtherVersion pkg version := by
  by_cases hname : NamesAgree pkg name
  swap
  · rw [matchStrategy_of_not_namesAgree hname]
    exact iff_of_false (by simp) fun h => hname h.1
  by_cases hother : OtherVersion pkg version
  · rw [matchStrategy_of_otherVersion hname hother]
    exact iff_of_true rfl ⟨hname, hother⟩
  · refine iff_of_false (fun h => ?_) fun h => hother h.2
    by_cases hsame : SameVersion pkg version
    · rw [matchStrategy_of_sameVersion hname hsame] at h
      split_ifs at h <;> simp at h
    · rw [matchStrategy_of_no_version hname hsame hother] at h
      split_ifs at h <;> simp at h

end Strategies

/-- The text in a column of texts. -/
def Loaded.column : Loaded → Option Str
  | .text s => some s
  | _ => none

/-- `_match_strategy` for a row of the feed records. -/
def FeedContent.matchWith (c : FeedContent) (pkg : SbomPackage) : FeedMatch :=
  matchStrategy pkg c.packageName.column c.ecosystem.column c.version.column

/-! ### Materialization -/

/-- The decision of the materialization. -/
def FeedMatch.materialized (includeLowConfidence : Bool) (m : FeedMatch) : Bool :=
  m.kind ≠ .versionMismatch && m.kind ≠ .nameMismatch &&
    (m.confidence ≠ .low || includeLowConfidence)

/-- `_is_open_lifecycle_status`. -/
def isOpenLifecycleStatus (status : Status) : Bool :=
  status ∈ [.open, .reopened, .syncedToTracker, .inReview]

/-- The status of a finding after a pass that has materialized it, or has not. -/
def materializedStatus (active : Bool) : Option Status → Option Status
  | none => if active then some .open else none
  | some status =>
    if active then some (if status ∈ [.resolved, .mitigated] then .reopened else status)
    else some (if isOpenLifecycleStatus status then .resolved else status)

section Materialization

variable {pkg : SbomPackage} {name ecosystem version : Option Str} {low : Bool}

omit [UrlDecoding] in
theorem materialized_probedMatch_iff {kind : MatchKind} {confidence : MatchConfidence}
    (hmismatch : kind ≠ .versionMismatch) (hname : kind ≠ .nameMismatch) :
    (probedMatch pkg kind confidence).materialized low ↔
      low = true ∨ ¬ IsProbed pkg ∧ confidence ≠ .low := by
  have hlow : (probedMatch pkg kind confidence).confidence ≠ .low ↔ ¬ IsProbed pkg ∧ confidence ≠ .low :=
    confidence_probedMatch_ne_low_iff
  rw [FeedMatch.materialized, kind_probedMatch, ← hlow]
  simp [hmismatch, hname, or_comm]

/-- A record is materialized for a package when their names agree, their versions do not differ, and
low confidence is let through or the package is not probed and the version or the ecosystem is the
record's. -/
theorem materialized_matchStrategy_iff :
    (matchStrategy pkg name ecosystem version).materialized low ↔
      NamesAgree pkg name ∧ ¬ OtherVersion pkg version ∧
        (low = true ∨
          ¬ IsProbed pkg ∧ (SameVersion pkg version ∨ EcosystemAligned pkg ecosystem)) := by
  by_cases hname : NamesAgree pkg name
  swap
  · rw [matchStrategy_of_not_namesAgree hname]
    exact iff_of_false (by simp [FeedMatch.materialized]) fun h => hname h.1
  by_cases hsame : SameVersion pkg version
  · have hother : ¬ OtherVersion pkg version := fun h => h.not_sameVersion hsame
    rw [matchStrategy_of_sameVersion hname hsame]
    split_ifs <;> rw [materialized_probedMatch_iff] <;> simp [hname, hsame, hother]
  by_cases hother : OtherVersion pkg version
  · rw [matchStrategy_of_otherVersion hname hother]
    exact iff_of_false (by simp [FeedMatch.materialized]) fun h => h.2.1 hother
  · rw [matchStrategy_of_no_version hname hsame hother]
    split_ifs with halign <;> rw [materialized_probedMatch_iff] <;>
      simp [hname, hsame, hother, halign]

omit [Unicode] [UrlDecoding] in
/-- A finding is open after a pass exactly when it was materialized and no review has closed it. -/
theorem isOpen_materializedStatus_iff {active : Bool} {previous : Option Status} :
    (materializedStatus active previous).any isOpenLifecycleStatus ↔
      active = true ∧ ∀ s ∈ previous, isOpenLifecycleStatus s ∨ s = .resolved ∨ s = .mitigated := by
  cases previous with
  | none => cases active <;> simp [materializedStatus, isOpenLifecycleStatus]
  | some status =>
    cases active
    · cases status <;> simp [materializedStatus, isOpenLifecycleStatus]
    · cases status <;> simp [materializedStatus, isOpenLifecycleStatus]

end Materialization

end General

end Vat
