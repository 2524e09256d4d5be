import Vat.Parsers.Utils

/-!
# The Grype parser

Every match with an asset becomes a payload. A match that fails with a `KeyError`, a `TypeError` or
a `ValueError` is skipped; an `AttributeError` ends the parse. The vulnerability and the artifact of
a match are read from the start, so that they have to be objects.

Source: `backend/app/parsers/grype.py`.

## Main definitions

* `GrypeParser.parse`, `GrypeParser.parseMatch`.
* `GrypeParser.Readable`: a match is read without an `AttributeError`.

## Main results

* `GrypeParser.match_isolated_iff`: when a match is isolated from the others.
-/

namespace Vat

open Transition

namespace GrypeParser

variable [Unicode] [UpperCase] [ReprText] [IntText]

/-! ### Matches -/

omit [UpperCase] [ReprText] [IntText] in
/-- `_SEVERITY_MAP`. -/
def severityOfText (s : Str) : Severity :=
  if s = str "critical" then .critical
  else if s = str "high" then .high
  else if s = str "medium" then .medium
  else if s = str "low" then .low
  else if s ∈ ["negligible", "informational", "unknown"].map str then .informational
  else .medium

omit [UpperCase] [ReprText] [IntText] in
/-- `_severity`. -/
def severity (s : Loaded) : Except PyError Severity := do
  let s ← (s.or (.text [])).asText
  return severityOfText (Unicode.lower s)

omit [UpperCase] [ReprText] [IntText] in
/-- `_ecosystem_from_grype_artifact`. -/
def ecosystemOf (artifact : Loaded) : Option Str :=
  let lang := Str.strip ((artifact.member "language").or (artifact.member "lang")).textOf
  let typ := Str.strip (artifact.member "type").textOf
  if lang ≠ [] then
    let l := Unicode.lower lang
    some (if l ∈ ["javascript", "js", "node", "nodejs"].map str then str "npm" else l)
  else if typ ≠ [] then
    let t := Unicode.lower typ
    some (if Str.contains t (str "npm") then str "npm"
      else if Str.contains t (str "python") ∨ Str.contains t (str "pypi") then str "pypi"
      else if '-' ∈ t ∧ (str "package").isSuffixOf t then (Str.split1 '-' t).1
      else t)
  else none

omit [Unicode] [UpperCase] [ReprText] [IntText] in
/-- The vulnerability of a match, or else an empty object. -/
def vulnerability (m : Loaded) : Loaded := (m.member "vulnerability").or (.dict [])

omit [Unicode] [UpperCase] [ReprText] [IntText] in
/-- The artifact of a match, or else an empty object. -/
def artifact (m : Loaded) : Loaded := (m.member "artifact").or (.dict [])

omit [Unicode] [UpperCase] [ReprText] [IntText] in
/-- The locations of an artifact. -/
def locations (m : Loaded) : Loaded := ((artifact m).member "locations").or (.list [])

omit [Unicode] [UpperCase] [ReprText] [IntText] in
/-- The path of a location. Of a location that is no object nothing is read. -/
def filePath (loc : Loaded) : Loaded := (loc.member "path").or .null

omit [Unicode] [UpperCase] [ReprText] [IntText] in
/-- The asset of a match: the one of the document, or else the path. -/
def assetOrPath (asset : Str) (loc : Loaded) : Loaded :=
  if asset ≠ [] then .text asset else filePath loc

omit [Unicode] [UpperCase] [IntText] in
/-- What a vulnerability says of itself. -/
def ownParts (m : Loaded) : List Loaded :=
  let description := (vulnerability m).member "description"
  let urls := (vulnerability m).member "urls"
  (if description.truthy then [description] else []) ++
    (if urls.truthy ∧ (urls.isList ∨ urls.isText) then
      [.text (str "URL: " ++ (if urls.isList then urls.head else urls).pyStr)]
    else [])

omit [Unicode] [UpperCase] [IntText] in
/-- The related vulnerabilities, if a match says nothing of its own. -/
def relatedForText (m : Loaded) : Loaded :=
  if (ownParts m).isEmpty then m.member "relatedVulnerabilities" else .null

omit [Unicode] [UpperCase] [IntText] in
/-- The parts of a description. -/
def descParts (m related : Loaded) : List Loaded :=
  ownParts m ++
    if (related.member "description").truthy then [related.member "description"] else []

omit [Unicode] [UpperCase] [ReprText] [IntText] in
/-- The related vulnerabilities, if a match has no scores of its own. -/
def relatedForScores (m : Loaded) : Loaded :=
  if ((vulnerability m).member "cvss").truthy then .null else m.member "relatedVulnerabilities"

omit [Unicode] [UpperCase] [ReprText] [IntText] in
/-- The scores of a match, or else those of a related vulnerability. -/
def cvssScores (m related : Loaded) : Loaded :=
  ((vulnerability m).member "cvss").or ((related.member "cvss").or (.list []))

omit [Unicode] [UpperCase] [ReprText] [IntText] in
/-- The metrics of a score. Of a score that is no object nothing is read. -/
def metrics (cvss : Loaded) : Loaded := (cvss.member "metrics").or (.dict [])

omit [Unicode] [UpperCase] [ReprText] [IntText] in
/-- The versions in which a vulnerability is fixed. -/
def fixVersions (m : Loaded) : Loaded :=
  (((vulnerability m).member "fix").member "versions").or (.list [])

omit [Unicode] [UpperCase] [ReprText] [IntText] in
/-- The id of a vulnerability. -/
def vulnId (m : Loaded) : Loaded := ((vulnerability m).member "id").or (.ofString "unknown")

omit [Unicode] [UpperCase] [ReprText] [IntText] in
/-- The name of an artifact. -/
def artifactName (m : Loaded) : Loaded := ((artifact m).member "name").or (.ofString "unknown")

omit [Unicode] [UpperCase] [ReprText] [IntText] in
/-- The version of an artifact. -/
def artifactVersion (m : Loaded) : Loaded := ((artifact m).member "version").or (.text [])

omit [Unicode] [UpperCase] [IntText] in
/-- The title of a match. -/
def title (m : Loaded) : Str :=
  (vulnId m).pyStr ++ str " in " ++ (artifactName m).pyStr ++ ':' :: (artifactVersion m).pyStr

omit [Unicode] [UpperCase] [IntText] in
/-- The scores of a match, for `build_source_risk_scoring`. -/
def sourceScores (m cvss : Loaded) : SourceScores where
  source := "grype"
  score :=
    if cvss.isDict then
      .text (((metrics cvss).member "baseScore").or
        ((cvss.member "baseScore").or (.text []))).pyStr
    else .null
  vector := cvss.member "vector"
  cvssVersion :=
    let version := ((cvss.member "version").or (.text [])).pyStr
    if version = [] then none else some version
  severity := (vulnerability m).member "severity"
  scannerTitle := .text (title m)
  fixedVersion := fixVersions m
  recommendation := .null

/-- `_parse_match`. -/
def parseMatch (scanTag : Option Str) (asset : Str) (m : Loaded) :
    Except PyError (List VatFindingSchema) := do
  check (vulnerability m).isDict .attributeError
  check (artifact m).isDict .attributeError
  let loc ← (locations m).firstOr .null
  if ¬ (assetOrPath asset loc).truthy then return []
  else
    let related ← (relatedForText m).firstOr .null
    let joined ← Loaded.joinTexts ['\n'] (descParts m related)
    let desc := if joined = [] then vulnId m else .text joined
    let related ← (relatedForScores m).firstOr .null
    let cvss ← (cvssScores m related).firstOr .null
    check (metrics cvss).isDict .attributeError
    let fixes ← Loaded.joinTexts (str ", ") (← (fixVersions m).iterate)
    let desc :=
      if (fixVersions m).truthy then .text (desc.pyStr ++ str "\nFix: upgrade to " ++ fixes)
      else desc
    let severity ← severity ((vulnerability m).member "severity")
    let riskScoring ← (sourceScores m cvss).build
    let payload ← createPayload {
        cveId := .text (vulnId m).pyStr
        severity := severity
        description := .text (desc.pyStr.take 10000)
        component := .text (Str.strip ((artifactName m).pyStr ++ ' ' :: (artifactVersion m).pyStr))
        filePath := filePath loc
        title := .text (title m)
        findingType := .sca
        cvss := (sourceScores m cvss).score
        riskScoring := riskScoring
        ecosystem := tagField (ecosystemOf (artifact m))
        tag := tagField scanTag } (assetOrPath asset loc)
    return [payload]

/-! ### Documents -/

/-- A match that is skipped if it is malformed or no object. -/
def parseElement (scanTag : Option Str) (asset : Str) (m : Loaded) :
    Except PyError (List VatFindingSchema) :=
  if m.isDict then skipping PyError.isSkipped (parseMatch scanTag asset m) else .ok []

omit [Unicode] [UpperCase] [IntText] in
/-- The asset that a document names. -/
def assetOf (raw : Loaded) : Except PyError Str := do
  let target := ((raw.member "source").or (.dict [])).member "target"
  if target.isDict then
    let asset ← ((target.member "userInput").or ((target.member "target").or (.text []))).asText
    return Str.strip asset
  else return Str.strip (target.or (.text [])).pyStr

/-- `parse`. -/
def parse (raw : Loaded) : Except PyError (List VatFindingSchema) := do
  check raw.isDict .valueError
  let matches_ := (raw.member "matches").or (.list [])
  check matches_.isList .valueError
  let asset ← assetOf raw
  collect (parseElement (extractScanTag raw) asset) matches_.items

/-! ### What is read of a match -/

omit [UpperCase] [ReprText] [IntText] in
theorem severity_eq (s : Loaded) :
    severity s = readIf ((s.or (.text [])).isText)
      (severityOfText (Unicode.lower (s.or (.text [])).textOf)) := by
  rw [severity, Loaded.asText_eq]
  simp only [pure_eq_readIf, readIf_bind_readIf, and_true]

/-- Nothing that is skipped comes before the scores of a match: the first of its locations, of its
related vulnerabilities and of its scores is found if it is looked for, there is an asset, and what
makes up the description are texts. -/
structure Reached (asset : Str) (m : Loaded) : Prop where
  location : (locations m).truthy → (locations m).hasFirst
  asset : (assetOrPath asset ((locations m).headOr .null)).truthy
  relatedForText : (relatedForText m).truthy → (relatedForText m).hasFirst
  description : (descParts m ((GrypeParser.relatedForText m).headOr .null)).all Loaded.isText
  relatedForScores : (relatedForScores m).truthy → (relatedForScores m).hasFirst
  scores :
    (cvssScores m ((GrypeParser.relatedForScores m).headOr .null)).truthy →
      (cvssScores m ((GrypeParser.relatedForScores m).headOr .null)).hasFirst

/-- The first score of a match. -/
def firstScore (m : Loaded) : Loaded :=
  (cvssScores m ((relatedForScores m).headOr .null)).headOr .null

/-- The metrics of the first score are an object. If the versions with a fix are texts, the severity
is a text, and so is the vector of a score without a version. -/
structure ReadableScores (m : Loaded) : Prop where
  metrics : (metrics (firstScore m)).isDict
  severity : (fixVersions m).iterable → (fixVersions m).items.all Loaded.isText →
    (((vulnerability m).member "severity").or (.text [])).isText
  vector : (fixVersions m).iterable → (fixVersions m).items.all Loaded.isText →
    (sourceScores m (firstScore m)).ReadableVector

/-- The vulnerability and the artifact of a match are objects, and so is what its scores are read
from, if nothing that is skipped comes before. -/
structure Readable (asset : Str) (m : Loaded) : Prop where
  vulnerability : (vulnerability m).isDict
  artifact : (artifact m).isDict
  scores : Reached asset m → ReadableScores m

theorem guarded_parseMatch_iff {scanTag : Option Str} {asset : Str} {m : Loaded} :
    Guarded PyError.isSkipped (parseMatch scanTag asset m) ↔ Readable asset m := by
  have hattribute : ¬ PyError.attributeError.isSkipped := by decide
  have hkey : PyError.keyError.isSkipped := by decide
  have htype : PyError.typeError.isSkipped := by decide
  have hcreate : ∀ fields asset, Guarded PyError.isSkipped (do
      let payload ← createPayload fields asset
      return [payload]) := fun fields asset =>
    guarded_bind_iff.mpr ⟨guarded_createPayload (by decide), fun _ _ => guarded_pure _⟩
  have hbuild : ∀ cvss, (sourceScores m cvss).build =
      readIf (sourceScores m cvss).ReadableVector (some (sourceScores m cvss).blocks) := by
    intro cvss
    have htitle : title m ≠ [] := by
      rw [title]
      exact List.append_ne_nil_of_right_ne_nil _ (List.cons_ne_nil _ _)
    have hblank : (sourceScores m cvss).scannerTitle.isBlank = false := Loaded.isBlank_text htitle
    rw [SourceScores.build_eq hblank]
    exact readIf_congr ⟨fun h => h.vector, fun h => ⟨h, fun _ => rfl⟩⟩ _
  simp only [parseMatch, severity_eq, hbuild, Loaded.joinTexts, Loaded.iterate, bind_assoc,
    pure_bind, guarded_readIf_bind hattribute, Loaded.guarded_firstOr_bind hkey htype, hcreate,
    guarded_check_bind htype, guarded_check_bind_of_not hattribute, guarded_ite_iff, guarded_pure,
    implies_true, true_and, and_true]
  constructor
  · rintro ⟨hvulnerability, hartifact, h⟩
    refine ⟨hvulnerability, hartifact, fun hreached => ?_⟩
    obtain ⟨hmetrics, hrest⟩ := h hreached.location (not_not.mpr hreached.asset)
      hreached.relatedForText hreached.description hreached.relatedForScores hreached.scores
    exact ⟨hmetrics, fun hiterable htexts => (hrest hiterable htexts).1,
      fun hiterable htexts => (hrest hiterable htexts).2⟩
  · rintro ⟨hvulnerability, hartifact, h⟩
    refine ⟨hvulnerability, hartifact,
      fun hlocation hasset hrelated hdescription hscores hcvss => ?_⟩
    have hread := h ⟨hlocation, not_not.mp hasset, hrelated, hdescription, hscores, hcvss⟩
    exact ⟨hread.metrics, fun hiterable htexts =>
      ⟨hread.severity hiterable htexts, hread.vector hiterable htexts⟩⟩

/-- A match is skipped or gives a payload, unless it is not read. -/
theorem exists_parseElement_iff {scanTag : Option Str} {asset : Str} {m : Loaded} :
    (∃ ps, parseElement scanTag asset m = .ok ps) ↔ (m.isDict → Readable asset m) := by
  rw [parseElement]
  by_cases hm : m.isDict = true
  · rw [if_pos hm, exists_skipping_iff, guarded_parseMatch_iff]
    exact ⟨fun h _ => h, fun h => h hm⟩
  · rw [if_neg hm]
    exact iff_of_true ⟨[], rfl⟩ fun h => absurd h hm

/-- A document gives what its matches give, if its asset is read. -/
theorem parse_document (members : List (Str × Loaded)) (elements : List Loaded) :
    parse (documentWith "matches" members elements) =
      (assetOf (.dict members) >>= fun asset =>
        collect (parseElement (extractScanTag (.dict members)) asset) elements) := by
  have htag : str "_vat_scan_tag" ≠ str "matches" := by decide
  have hsource : str "source" ≠ str "matches" := by decide
  have hmatches : ((documentWith "matches" members elements).member "matches").or (.list []) =
      .list elements := by
    rw [documentWith, Loaded.member, Loaded.memberOr_cons_self, Loaded.list_or_nil]
  have hasset : assetOf (documentWith "matches" members elements) = assetOf (.dict members) := by
    have hmember : (documentWith "matches" members elements).member "source" =
        (Loaded.dict members).member "source" := Loaded.memberOr_cons_of_ne hsource _ _ _
    rw [assetOf, assetOf, hmember]
  rw [parse, hmatches, extractScanTag_documentWith htag, hasset]
  rfl

/-- A match is isolated from the others exactly when the asset of the document and all matches are
read. -/
theorem match_isolated_iff {members : List (Str × Loaded)} {before after : List Loaded}
    {v : Loaded} :
    Isolates (parse (documentWith "matches" members (before ++ v :: after)))
        (parse (documentWith "matches" members (before ++ after)))
        (parse (documentWith "matches" members [v])) ↔
      ∃ asset, assetOf (.dict members) = .ok asset ∧
        ∀ m ∈ before ++ v :: after, m.isDict → Readable asset m := by
  rw [parse_document, parse_document, parse_document]
  cases hasset : assetOf (.dict members) with
  | error e =>
    refine iff_of_false ?_ ?_
    · rintro ⟨_, _, _, halone, -⟩
      cases halone
    · rintro ⟨_, hok, -⟩
      cases hok
  | ok asset =>
    rw [ok_bind, ok_bind, ok_bind, isolates_collect_iff]
    constructor
    · intro h
      exact ⟨asset, rfl, fun m hm => exists_parseElement_iff.mp (h m hm)⟩
    · rintro ⟨_, ⟨⟩, h⟩ m hm
      exact exists_parseElement_iff.mpr (h m hm)

end GrypeParser

end Vat
