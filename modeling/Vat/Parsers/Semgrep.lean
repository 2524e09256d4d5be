import Vat.Parsers.Utils

/-!
# The Semgrep parser

Every result with a path becomes a payload. A result that fails with a `KeyError`, a `TypeError` or
a `ValueError` is skipped; an `AttributeError` or an `OverflowError` ends the parse.

Source: `backend/app/parsers/semgrep.py`.

## Main definitions

* `SemgrepParser.parse`, `SemgrepParser.resultToPayload`.
* `SemgrepParser.Readable`: a result is read without such an error.

## Main results

* `SemgrepParser.result_isolated_iff`: when a result is isolated from the others.
-/

namespace Vat

open Transition

namespace SemgrepParser

variable [Unicode] [UpperCase] [ReprText] [IntText]

/-! ### Results -/

omit [UpperCase] [IntText] in
/-- `_map_severity`. -/
def mapSeverity (s : Loaded) : Severity :=
  if ¬ s.truthy then .medium
  else
    let s := Unicode.lower s.pyStr
    if s = str "error" then .high
    else if s = str "warning" then .medium
    else if s = str "info" then .low
    else if s = str "experimental" then .informational
    else .medium

omit [Unicode] [UpperCase] [ReprText] [IntText] in
/-- The source that the metadata of a result names. -/
def sourceOf (r : Loaded) : Except PyError Loaded := do
  let extra ← r.getOr "extra" (.dict [])
  let metadata ← extra.getOr "metadata" (.dict [])
  metadata.get "source"

omit [Unicode] [UpperCase] [ReprText] [IntText] in
/-- The path of a result, or else its source. -/
def pathOf (r : Loaded) : Except PyError Str := do
  let path ← r.get "path"
  if path.truthy then
    let path ← path.asText
    return Str.strip path
  else
    let source ← sourceOf r
    let path ← (source.or (.text [])).asText
    return Str.strip path

omit [Unicode] [UpperCase] [ReprText] [IntText] in
/-- The id of the rule of a result. -/
def checkId (r : Loaded) : Loaded :=
  (r.member "check_id").or ((r.member "rule_id").or ((r.member "ruleId").or (.ofString "unknown")))

omit [Unicode] [UpperCase] [IntText] in
/-- The text of a message, which is never empty. -/
def messageText (message checkId : Loaded) : Loaded :=
  match message with
  | .text s => .text s
  | .dict members => ((Loaded.dict members).member "message").or checkId
  | message => .text (message.pyStr.take 500)

/-- What becomes of a result that is an object. -/
def resultToPayload (scanTag : Option Str) (r : Loaded) :
    Except PyError (List VatFindingSchema) := do
  let path ← pathOf r
  if path = [] then return []
  else
    let start := (← r.get "start").or (.dict [])
    let line := if start.isDict then start.member "line" else .null
    let extra := (← r.get "extra").or (.dict [])
    let metadata := (← extra.get "metadata").or (.dict [])
    let cweList := (← metadata.get "cwe").or (← metadata.get "CWE")
    let cweId ← extractCweId cweList
    let message := (← extra.get "message").or ((← extra.get "lines").or (checkId r))
    let snippetRaw ← extra.get "lines"
    let severity ← extra.get "severity"
    let payload ← createPayload {
        cveId := .text (checkId r).pyStr
        severity := mapSeverity severity
        description := .text ((messageText message (checkId r)).pyStr.take 10000)
        filePath := .text path
        line := line
        title := checkId r
        findingType := .sast
        ruleId := .text (checkId r).pyStr
        cweId := optionField cweId
        snippetMasked :=
          if snippetRaw.truthy then optionField (normalizeSnippet snippetRaw) else .null
        tag := tagField scanTag } (.text path)
    return [payload]

/-! ### Documents -/

/-- A result that is skipped if it is malformed or no object. -/
def parseResult (scanTag : Option Str) (r : Loaded) : Except PyError (List VatFindingSchema) :=
  if r.isDict then skipping PyError.isSkipped (resultToPayload scanTag r) else .ok []

/-- `parse`. -/
def parse (raw : Loaded) : Except PyError (List VatFindingSchema) := do
  check raw.isDict .valueError
  let results := (raw.member "results").or (.list [])
  check results.isList .valueError
  collect (parseResult (extractScanTag raw)) results.items

/-! ### What is read of a result -/

omit [Unicode] [UpperCase] [ReprText] [IntText] in
/-- The metadata in which a source is looked for. -/
def sourceMetadata (r : Loaded) : Loaded :=
  (r.memberOr "extra" (.dict [])).memberOr "metadata" (.dict [])

omit [Unicode] [UpperCase] [ReprText] [IntText] in
/-- The path of a result, or else its source, or else an empty text. -/
def path (r : Loaded) : Loaded :=
  if (r.member "path").truthy then r.member "path"
  else ((sourceMetadata r).member "source").or (.text [])

omit [Unicode] [UpperCase] [ReprText] [IntText] in
/-- A path is a text. Without one, the source is looked for in objects. -/
structure ReadablePath (r : Loaded) : Prop where
  extra : ¬ (r.member "path").truthy → (r.memberOr "extra" (.dict [])).isDict
  metadata : ¬ (r.member "path").truthy → (sourceMetadata r).isDict
  text : (path r).isText

omit [Unicode] [UpperCase] [ReprText] [IntText] in
instance (r : Loaded) : Decidable (ReadablePath r) :=
  decidable_of_iff ((¬ (r.member "path").truthy → (r.memberOr "extra" (.dict [])).isDict) ∧
    (¬ (r.member "path").truthy → (sourceMetadata r).isDict) ∧ (path r).isText)
    ⟨fun h => ⟨h.1, h.2.1, h.2.2⟩, fun h => ⟨h.extra, h.metadata, h.text⟩⟩

omit [Unicode] [UpperCase] [ReprText] [IntText] in
theorem pathOf_eq (r : Loaded) :
    pathOf r = readIf (r.isDict ∧ ReadablePath r) (Str.strip (path r).textOf) := by
  have hvalue : (if (r.member "path").truthy then Str.strip (r.member "path").textOf
      else Str.strip ((((r.memberOr "extra" (.dict [])).memberOr "metadata" (.dict [])).member
        "source").or (.text [])).textOf) = Str.strip (path r).textOf := by
    rw [path]
    split_ifs <;> rfl
  simp only [pathOf, sourceOf, Loaded.get_eq, Loaded.getOr_eq, Loaded.asText_eq, pure_eq_readIf,
    readIf_bind_readIf, ite_readIf, hvalue]
  refine readIf_congr ?_ _
  by_cases hpath : (r.member "path").truthy = true
  · have htext : path r = r.member "path" := if_pos hpath
    constructor
    · rintro ⟨hdict, hown, -⟩
      refine ⟨hdict, fun h => absurd hpath h, fun h => absurd hpath h, ?_⟩
      rw [htext]
      exact (hown hpath).1
    · rintro ⟨hdict, -, -, h⟩
      rw [htext] at h
      exact ⟨hdict, fun _ => ⟨h, trivial⟩, fun hno => absurd hpath hno⟩
  · have htext : path r = ((sourceMetadata r).member "source").or (.text []) := if_neg hpath
    constructor
    · rintro ⟨hdict, -, hsource⟩
      obtain ⟨⟨-, hextra, hmetadata⟩, h, -⟩ := hsource hpath
      refine ⟨hdict, fun _ => hextra, fun _ => hmetadata, ?_⟩
      rw [htext]
      exact h
    · rintro ⟨hdict, hextra, hmetadata, h⟩
      rw [htext] at h
      exact ⟨hdict, fun hyes => absurd hyes hpath,
        fun _ => ⟨⟨hdict, hextra hpath, hmetadata hpath⟩, h, trivial⟩⟩

omit [Unicode] [UpperCase] [ReprText] [IntText] in
/-- The metadata of a result, or else an empty object. -/
def metadata (r : Loaded) : Loaded :=
  (((r.member "extra").or (.dict [])).member "metadata").or (.dict [])

omit [Unicode] [UpperCase] [ReprText] [IntText] in
/-- With a path, the metadata of a result is an object in an object, and the weakness that it names
is no infinite number. -/
structure ReadableExtra (r : Loaded) : Prop where
  extra : ((r.member "extra").or (.dict [])).isDict
  metadata : (metadata r).isDict
  weakness :
    ¬ (((SemgrepParser.metadata r).member "cwe").or
      ((SemgrepParser.metadata r).member "CWE")).isInfinite

omit [Unicode] [UpperCase] [ReprText] [IntText] in
/-- A result has a text as its path, if any, and then its metadata is read. -/
structure Readable (r : Loaded) : Prop where
  path : ReadablePath r
  rest : Str.strip (SemgrepParser.path r).textOf ≠ [] → ReadableExtra r

theorem guarded_resultToPayload_iff {scanTag : Option Str} {r : Loaded} (hr : r.isDict) :
    Guarded PyError.isSkipped (resultToPayload scanTag r) ↔ Readable r := by
  have hcreate : ∀ fields asset, Guarded PyError.isSkipped (do
      let payload ← createPayload fields asset
      return [payload]) := fun fields asset =>
    guarded_bind_iff.mpr ⟨guarded_createPayload (by decide), fun _ _ => guarded_pure _⟩
  have hcwe : ∀ {v : Loaded} {f : Option Str → Except PyError (List VatFindingSchema)},
      Guarded PyError.isSkipped (extractCweId v >>= f) ↔
        ¬ v.isInfinite ∧ ∀ cwe, extractCweId v = .ok cwe → Guarded PyError.isSkipped (f cwe) := by
    intro v f
    rw [guarded_bind_iff, guarded_extractCweId_iff]
  simp only [resultToPayload, pathOf_eq, Loaded.get_eq,
    guarded_readIf_bind PyError.not_isSkipped_attributeError, guarded_ite_iff, guarded_pure, hcwe,
    hcreate, implies_true, true_and, and_true, hr]
  constructor
  · rintro ⟨hpath, hrest⟩
    refine ⟨hpath, fun h => ?_⟩
    obtain ⟨hextra, hmetadata, -, hweakness, -⟩ := hrest h
    exact ⟨hextra, hmetadata, hweakness⟩
  · rintro ⟨hpath, hrest⟩
    refine ⟨hpath, fun h => ?_⟩
    obtain ⟨hextra, hmetadata, hweakness⟩ := hrest h
    exact ⟨hextra, hmetadata, hmetadata, hweakness, fun _ _ => ⟨hextra, hextra, hextra, hextra⟩⟩

/-- A result is skipped or gives a payload, unless it is not read. -/
theorem exists_parseResult_iff {scanTag : Option Str} {r : Loaded} :
    (∃ ps, parseResult scanTag r = .ok ps) ↔ (r.isDict → Readable r) := by
  rw [parseResult]
  by_cases hr : r.isDict = true
  · rw [if_pos hr, exists_skipping_iff, guarded_resultToPayload_iff hr]
    exact ⟨fun h _ => h, fun h => h hr⟩
  · rw [if_neg hr]
    exact iff_of_true ⟨[], rfl⟩ fun h => absurd h hr

/-- A document gives what its results give. -/
theorem parse_document (members : List (Str × Loaded)) (results : List Loaded) :
    parse (documentWith "results" members results) =
      collect (parseResult (extractScanTag (.dict members))) results := by
  have htag : str "_vat_scan_tag" ≠ str "results" := by decide
  have hresults : ((documentWith "results" members results).member "results").or (.list []) =
      .list results := by
    rw [documentWith, Loaded.member, Loaded.memberOr_cons_self, Loaded.list_or_nil]
  rw [parse, hresults, extractScanTag_documentWith htag]
  rfl

/-- A result is isolated from the others exactly when all results are read. -/
theorem result_isolated_iff {members : List (Str × Loaded)} {before after : List Loaded} {v : Loaded} :
    Isolates (parse (documentWith "results" members (before ++ v :: after)))
        (parse (documentWith "results" members (before ++ after)))
        (parse (documentWith "results" members [v])) ↔
      ∀ r ∈ before ++ v :: after, r.isDict → Readable r := by
  rw [parse_document, parse_document, parse_document, isolates_collect_iff]
  exact forall₂_congr fun r _ => exists_parseResult_iff

end SemgrepParser

end Vat
