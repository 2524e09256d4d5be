import Vat.Parsers.Utils

/-!
# The SARIF parser

A document has runs, a run has rules and results, and every result with a path becomes a payload.
A result that fails with a `KeyError`, a `TypeError` or a `ValueError` is skipped; an
`AttributeError` ends the parse.

Source: `backend/app/parsers/sarif.py`.

## Main definitions

* `SarifParser.parse`, `SarifParser.resultToPayload`.
-/

namespace Vat

open Keyed Transition

namespace SarifParser

/-- The rules of a run, by their ids and by their indices. -/
abbrev Rules := Dictionary HashKey Loaded

section General

variable [Unicode] [ReprText] [IntText]

/-! ### Rules -/

omit [Unicode] [ReprText] [IntText] in
/-- `_index_rules` from an index on. -/
def indexRulesFrom : ℤ → List Loaded → Rules → Except PyError Rules
  | _, [], indexed => .ok indexed
  | i, r :: rules, indexed => do
    let rid ← r.get "id"
    let indexed ← if rid.truthy then do
        let key ← rid.hashKey
        pure (indexed.set key r)
      else pure indexed
    indexRulesFrom (i + 1) rules (indexed.set (.number i) r)

omit [Unicode] [ReprText] [IntText] in
/-- `_index_rules`. -/
def indexRules (rules : Loaded) : Except PyError Rules := do
  let rules ← rules.iterate
  indexRulesFrom 0 rules .empty

omit [Unicode] [ReprText] [IntText] in
/-- `_tool_name`, which no payload has. -/
def toolName (run : Loaded) : Except PyError Loaded := do
  let tool ← run.getOr "tool" (.dict [])
  let driver ← tool.getOr "driver" (.dict [])
  driver.getOr "name" (.ofString "unknown")

/-! ### Results -/

omit [Unicode] [ReprText] [IntText] in
/-- The id of the rule of a result. -/
def ruleIdOf (result : Loaded) : Except PyError Loaded := do
  let ruleId ← result.get "ruleId"
  if ruleId.truthy then return ruleId
  else
    let rule ← result.getOr "rule" (.dict [])
    let id ← rule.get "id"
    return id.or (.ofString "unknown")

omit [Unicode] [IntText] in
/-- The rule of a result: `None` if there is no rule with its index. -/
def ruleDefOf (rules : Rules) (ruleId ruleIndex : Loaded) : Except PyError Loaded := do
  let key ← ruleId.hashKey
  return ((rules.get? key).getD .null).or
    (match ruleIndex with
    | .null => .dict []
    | ruleIndex => (rules.get? (.text ruleIndex.pyStr)).getD .null)

omit [Unicode] [ReprText] [IntText] in
/-- `_get_message`. -/
def getMessage (result : Loaded) : Except PyError Loaded := do
  let msg := (← result.get "message").or (.dict [])
  if msg.isText then return msg
  else
    let text ← msg.get "text"
    if text.truthy then return text
    else
      let markdown ← msg.get "markdown"
      return markdown.or (.text [])

omit [Unicode] [ReprText] [IntText] in
/-- The text of a rule under a name. -/
def ruleText (ruleDef : Loaded) (name : String) : Except PyError Loaded := do
  let member ← ruleDef.getOr name (.dict [])
  member.get "text"

omit [Unicode] [ReprText] [IntText] in
/-- The message of a rule. -/
def ruleMessage (ruleDef ruleId : Loaded) : Except PyError Loaded := do
  let full ← ruleText ruleDef "fullDescription"
  if full.truthy then return full
  else
    let short ← ruleText ruleDef "shortDescription"
    if short.truthy then return short
    else
      let help ← ruleText ruleDef "help"
      return help.or ruleId

omit [Unicode] [ReprText] [IntText] in
/-- The message of a result, or else of its rule. -/
def messageOf (ruleDef ruleId result : Loaded) : Except PyError Loaded := do
  let message ← getMessage result
  if ¬ message.truthy ∧ ruleDef.truthy then
    let message ← ruleMessage ruleDef ruleId
    return message.or ruleId
  else return message.or ruleId

omit [Unicode] [ReprText] [IntText] in
/-- The severity of a level. -/
def severityOfLevel (level : Str) : Option Severity :=
  if level = str "error" then some .high
  else if level = str "warning" then some .medium
  else if level = str "note" then some .low
  else if level = str "none" then some .informational
  else none

omit [ReprText] [IntText] in
/-- The severity that a result names. -/
def mappedLevel (level : Loaded) : Except PyError (Option Severity) := do
  if level.truthy then
    let level ← level.asText
    return severityOfLevel (Unicode.lower level)
  else return none

omit [IntText] in
/-- `_map_level`. -/
def mapLevel (level defaultConfig : Loaded) : Except PyError Severity := do
  let mapped ← mappedLevel level
  if mapped.isSome then return mapped.getD .medium
  else
    let defaultLevel ← defaultConfig.getOr "level" (.ofString "warning")
    return (severityOfLevel (Unicode.lower defaultLevel.pyStr)).getD .medium

omit [Unicode] [IntText] in
/-- The fingerprints of a result, as texts. -/
def partialFingerprintsOf (rawPf : Loaded) : Option (List (Str × Str)) :=
  match rawPf with
  | .dict [] => none
  | .dict members => some (members.filterMap fun p =>
      match p.2 with
      | .null => none
      | v => some (p.1, v.pyStr))
  | _ => none

omit [Unicode] [IntText] in
/-- The component of a result: a package, with a version if there is one. -/
def componentOf (component version : Loaded) : Loaded :=
  if component.truthy ∧ version.truthy then
    .text (component.pyStr ++ str " " ++ version.pyStr)
  else if component.truthy then .text component.pyStr
  else .null

omit [Unicode] [ReprText] [IntText] in
/-- The snippet of a region before it is normalized. -/
def snippetOf (region : Loaded) : Except PyError Loaded := do
  let snip := (← region.get "snippet").or (.dict [])
  if snip.isDict then
    let text ← snip.get "text"
    if text.truthy then return text
    else
      let rendered := (← snip.get "rendered").or (.dict [])
      rendered.get "text"
  else return .null

omit [Unicode] [ReprText] [IntText] in
/-- The title of a result, or else of its rule. -/
def titleOf (props ruleDef ruleId : Loaded) : Except PyError Loaded := do
  let title ← props.get "title"
  if title.truthy then return title
  else
    let short ← ruleText ruleDef "shortDescription"
    return short.or ruleId

/-- `_result_to_payload`. -/
def resultToPayload (rules : Rules) (result : Loaded) : Except PyError (List VatFindingSchema) := do
  let ruleId ← ruleIdOf result
  let ruleIndex ← result.get "ruleIndex"
  let ruleDef ← ruleDefOf rules ruleId ruleIndex
  let message ← messageOf ruleDef ruleId result
  let level ← mapLevel (← result.get "level") (← ruleDef.getOr "defaultConfiguration" (.dict []))
  let loc ← ((← result.get "locations").or (.list [.dict []])).first
  let phys ← loc.getOr "physicalLocation" (.dict [])
  let artifactLoc ← phys.getOr "artifactLocation" (.dict [])
  let artifactUri ← artifactLoc.getOr "uri" (.text [])
  let region ← phys.getOr "region" (.dict [])
  let props := (← result.get "properties").or (.dict [])
  let rawPf := (← result.get "partialFingerprints").or (← result.get "fingerprints")
  let component := (← props.get "packageName").or (← props.get "PackageName")
  let version := (← props.get "installedVersion").or (← props.get "InstalledVersion")
  if ¬ artifactUri.truthy then return []
  else
    let snippetRaw ← snippetOf region
    let line ← region.get "startLine"
    let title ← titleOf props ruleDef ruleId
    let cvss ← props.get "security-severity"
    let payload ← createPayload {
        cveId := ruleId
        severity := level
        description := message
        findingType := .sast
        component := componentOf component version
        filePath := artifactUri
        line := line
        ruleId := ruleId
        title := title
        cvss := match cvss with
          | .null => .null
          | cvss => .text cvss.pyStr
        snippetMasked :=
          if snippetRaw.truthy then optionField (normalizeSnippet snippetRaw) else .null
        partialFingerprints := partialFingerprintsOf rawPf } artifactUri
    return [payload]

/-! ### Documents -/

/-- A result that is skipped if it is malformed. -/
def parseResult (rules : Rules) (result : Loaded) : Except PyError (List VatFindingSchema) :=
  skipping PyError.isSkipped (resultToPayload rules result)

/-- The results of a run. -/
def parseRun (run : Loaded) : Except PyError (List VatFindingSchema) := do
  let _ ← toolName run
  let results := (← run.get "results").or (.list [])
  let tool ← run.getOr "tool" (.dict [])
  let driver ← tool.getOr "driver" (.dict [])
  let rules ← indexRules ((← driver.get "rules").or (.list []))
  let results ← results.iterate
  collect (parseResult rules) results

omit [Unicode] [ReprText] [IntText] in
/-- `SUPPORTED_VERSIONS`. -/
def supportedVersions : List Str := ["2.1.0", "2.1.0-errata01", "2.1.0-errata01-csd01"].map str

/-- `parse`. -/
def parse (raw : Loaded) : Except PyError (List VatFindingSchema) := do
  check raw.isDict .valueError
  let schema ← raw.getOr "$schema" (.text [])
  check (Str.contains (Unicode.lower schema.pyStr) (str "sarif")) .valueError
  let version ← raw.getOr "version" (.text [])
  check (version.isText ∧ version.textOf ∈ supportedVersions) .valueError
  let runs := (← raw.get "runs").or (.list [])
  let runs ← runs.iterate
  collect parseRun runs

end General

end SarifParser

end Vat
