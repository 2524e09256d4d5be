import Vat.Ingest.Validation
import Vat.Python.ElementTree
import Vat.Python.Pattern
import Vat.Regular.Backtracking

/-!
# The OVAL Results parser

A definition result that is true becomes a payload. Its title and its references are looked up, by
its id, in the definitions that the document carries. A lookup asks for the namespaced element
first; where that is missing, it asks with the XPath function `local-name()`, which `find` refuses
with a `SyntaxError`. The references of a payload are left out; no check of the schema can fail on
them.

Source: `backend/app/parsers/openscap_oval.py`; `backend/app/schemas/vat.py`, lines 210–226.

## Main definitions

* `OvalParser.getDefinitionMetadata`, `OvalParser.definitionPayload`, `OvalParser.parse`.

## Main results

* `OvalParser.head?_collectCves`: the first CVE of some references.
* `OvalParser.lookupIn_eq`, `OvalParser.collectCvesFromRefs_eq`: elements in their places.
-/

namespace Vat

open Transition

/-- What a parse raises: the error of an XPath function, a refusal of the document, and what the
schema raises. -/
inductive OvalError
  | xpathSyntax
  | refused (message : Str)
  | python (e : PyError)

namespace OvalParser

/-! ### Lookups -/

/-- `OVAL_RES_NS`. -/
def resNs : Str := str "http://oval.mitre.org/XMLSchema/oval-results-5"

/-- `OVAL_DEF_NS`. -/
def defNs : Str := str "http://oval.mitre.org/XMLSchema/oval-definitions-5"

/-- `OVAL_COMMON_NS`. -/
def commonNs : Str := str "http://oval.mitre.org/XMLSchema/oval-common-5"

def resTag (localName : String) : XmlTag := ⟨some resNs, str localName⟩

def defTag (localName : String) : XmlTag := ⟨some defNs, str localName⟩

/-- `(el.tag or "").split("\x7d")[-1] == name`. -/
def hasLocalName (name : Str) (e : Element) : Bool := e.tag.localName = name

/-- `parent.find(".//*[local-name()='name']")`. -/
def findByLocalName (_parent : Element) (_name : Str) : Except OvalError (Option Element) :=
  .error .xpathSyntax

/-- A lookup below an element, and the fallback. -/
def lookupBelow (e : Element) (t : XmlTag) : Except OvalError (Option Element) :=
  match e.find t with
  | some d => .ok (some d)
  | none => findByLocalName e t.localName

/-- A lookup of the other kind: below an element, and then by the local name in all of it. -/
def lookupIn (e : Element) (t : XmlTag) : Option Element :=
  (e.find t).or (e.iter.find? (hasLocalName t.localName))

/-- `_all_ns`. The test `el not in results` is by identity: the elements that the searches have
found are those below the parent in one of the namespaces. -/
def allNs (parent : Element) (name : Str) (nss : List Str) : List Element :=
  nss.flatMap (fun ns => parent.findall ⟨some ns, name⟩) ++
    ([parent].filter (hasLocalName name) ++
      parent.descendants.filter fun d => hasLocalName name d && !(nss.map some).contains d.tag.ns)

/-- `_text`. -/
def textOf (e : Element) : Str := Str.strip e.itertext

section Parse

variable [Unicode] [UpperCase]

/-! ### References -/

omit [Unicode] [UpperCase] in
/-- The id of a reference. -/
def refId (ref : Element) : Str := Str.strip (Str.orEmpty (ref.get "ref_id"))

omit [Unicode] in
/-- `s.upper().startswith("CVE-")`. -/
def isCve (s : Str) : Bool := Str.startsWith (UpperCase.upper s) (str "CVE-")

omit [Unicode] in
/-- One reference. -/
def addCve (cves : List Str) (ref : Element) : List Str :=
  let id := refId ref
  let source := UpperCase.upper (Str.strip (Str.orEmpty (ref.get "source")))
  let cves := if id ≠ [] ∧ isCve id ∧ id ∉ cves then cves ++ [id] else cves
  if source = str "CVE" ∧ id ≠ [] ∧ id ∉ cves then cves ++ [id] else cves

omit [Unicode] in
/-- The loop over the references. -/
def collectCves (refs : List Element) : List Str := refs.foldl addCve []

omit [Unicode] in
/-- `_collect_cves_from_refs`. -/
def collectCvesFromRefs (parent : Element) : List Str :=
  collectCves (allNs parent (str "reference") [defNs, commonNs, defNs])

omit [Unicode] in
/-- `_collect_cves_from_metadata`. -/
def collectCvesFromMetadata (definition : Element) : Except OvalError (List Str) := do
  let metadata ← lookupBelow definition (defTag "metadata")
  return (metadata.map collectCvesFromRefs).getD []

/-! ### Severities -/

omit [UpperCase] in
/-- `_map_severity`. -/
def mapSeverity (sev : Option Str) : Str :=
  if Str.orEmpty sev = [] then str "medium"
  else
    let s := Unicode.lower (Str.orEmpty sev)
    if s ∈ ["critical", "high", "medium", "low"].map str then s
    else if s ∈ ["unknown", "info", "informational"].map str then str "informational"
    else str "medium"

omit [UpperCase] in
/-- `VatFindingSchema.normalize_severity`. -/
def normalizeSeverity (v : Str) : Severity :=
  let s := Unicode.lower v
  if s = str "critical" then .critical
  else if s = str "high" then .high
  else if s = str "medium" then .medium
  else if s = str "low" then .low
  else if s ∈ ["info", "informational"].map str then .informational
  else .medium

/-! ### Definitions -/

/-- `oval_definitions`. -/
def ovalDefinitions (root : Element) : Option Element := lookupIn root (defTag "oval_definitions")

/-- The title in an element, or else a default. -/
def titleIn (default : Str) (titleEl : Option Element) : Str :=
  match titleEl with
  | some el => if textOf el = [] then default else textOf el
  | none => default

omit [Unicode] in
/-- What an element of the definitions gives: its title, its CVEs, and the severity. -/
def readDefinition (definitionId : Str) (definition : Element) :
    Except OvalError (Str × List Str × Str) := do
  let titleEl ← lookupBelow definition (defTag "title")
  let cves ← collectCvesFromMetadata definition
  return (titleIn definitionId titleEl, cves, str "medium")

omit [Unicode] in
/-- `_get_definition_metadata`. -/
def getDefinitionMetadata (root : Element) (definitionId : Str) :
    Except OvalError (Str × List Str × Str) :=
  match (ovalDefinitions root).bind fun defs =>
      defs.iter.find? fun e => e.get "id" = some definitionId with
  | none => .ok (definitionId, [], str "medium")
  | some definition => readDefinition definitionId definition

/-- `_get_system_target`. -/
def getSystemTarget (root : Element) : Str :=
  let found := (root.iter.find? (hasLocalName (str "oval_system_characteristics"))).bind fun el =>
    (el.iter.filter fun child =>
      (hasLocalName (str "hostname") child || hasLocalName (str "os_name") child) &&
        textOf child != []).head?
  (found.map textOf).getD (str "oval-cve-scan")

omit [UpperCase] in
/-- `:\s*([^:(]+?)\s+(?:security\s+update|\()`, without regard to case. -/
def componentRe : Regex Char Unit :=
  .all [.one (· == ':'), .many true Str.isSpace,
    .group () (.plus false fun c => c != ':' && c != '('), .plus true Str.isSpace,
    .alt (.all [.literal Pattern.foldsTo (str "security"), .plus true Str.isSpace,
      .literal Pattern.foldsTo (str "update")]) (.one (· == '('))]

omit [UpperCase] in
/-- `_extract_component_from_title`. -/
def extractComponentFromTitle (title definitionId : Str) : Str :=
  if title = [] ∨ 400 < title.length then definitionId
  else
    let comp := Str.strip (Str.orEmpty ((componentRe.search title).bind fun groups => groups ()))
    if comp ≠ [] ∧ comp.length < 200 then comp else definitionId

variable [CharTables]

omit [UpperCase] in
/-- `CVE-\d{4}-\d+`, without regard to case. -/
def cveRe : Regex Char Unit :=
  .group () (.all [.literal Pattern.foldsTo (str "cve-"), .one CharTables.isDecimal,
    .one CharTables.isDecimal, .one CharTables.isDecimal, .one CharTables.isDecimal,
    .one (· == '-'), .plus true CharTables.isDecimal])

omit [UpperCase] in
/-- The first CVE in the id of a definition. -/
def cveInId (definitionId : Str) : Option Str :=
  (cveRe.search definitionId).bind fun groups => groups ()

/-- The CVE of a payload. -/
def payloadCve (definitionId : Str) (cves : List Str) : Str :=
  let cveId := cves.headD definitionId
  if ¬ isCve cveId ∧ Str.contains definitionId (str "CVE-") then
    (cveInId definitionId).getD cveId
  else cveId

/-- The fields of a payload. -/
def payloadFields (definitionId title : Str) (cves : List Str) (severity : Str) :
    PayloadFields where
  cveId := .text (payloadCve definitionId cves)
  severity := normalizeSeverity (mapSeverity (some severity))
  findingType := .sca
  description := .text (List.intercalate (str "\n\n")
    ([str "**" ++ title ++ str "**", str "OVAL Definition: `" ++ definitionId ++ str "`"] ++
      if cves ≠ [] then [str "CVE(s): " ++ List.intercalate (str ", ") cves] else []))
  ruleId := .text definitionId
  title := .text title
  component := .text (extractComponentFromTitle title definitionId)

variable [ReprText] [IntText]

/-- A payload that the schema takes. -/
def checkedPayload (fields : PayloadFields) (asset : Str) : Except OvalError VatFindingSchema :=
  (createPayload fields (.text asset)).mapError .python

/-- One definition result: nothing, unless it is true and has an id. -/
def definitionPayload (root : Element) (asset : Str) (definition : Element) :
    Except OvalError (Option VatFindingSchema) :=
  let resultAttr := Unicode.lower (Str.strip (Str.orEmpty (definition.get "result")))
  let definitionId :=
    Str.strip (Str.orEmpty (Str.orElse (definition.get "definition_id") (definition.get "id")))
  if resultAttr ≠ str "true" then .ok none
  else if definitionId = [] then .ok none
  else do
    let metadata ← getDefinitionMetadata root definitionId
    let payload ← checkedPayload
      (payloadFields definitionId metadata.1 metadata.2.1 metadata.2.2) asset
    return some payload

/-! ### The document -/

/-- The systems of the results. -/
def systemsOf (results : Element) : List Element :=
  let systems := results.findall (resTag "system")
  if systems.isEmpty then results.iter.filter (hasLocalName (str "system")) else systems

/-- The definition results of a system. -/
def definitionResults (system : Element) : List Element :=
  match lookupIn system (resTag "definitions") with
  | none => []
  | some container => container.findall (resTag "definition")

/-- `OpenSCAPOvalParser.parse`, of the root of the document. -/
def parse (root : Element) : Except OvalError (List VatFindingSchema) :=
  let tagLower := Unicode.lower root.tag.text
  if ¬ Str.contains tagLower (str "oval_results") then
    if Str.contains tagLower (str "benchmark") then
      .error (.refused (str
        ("OpenSCAP OVAL parser expects OVAL Results XML (oval_results root). " ++
          "For XCCDF Benchmark, use parser=openscap.")))
    else
      .error (.refused (str "OpenSCAP OVAL parser expects OVAL Results XML (oval_results root)"))
  else
    match lookupIn root (resTag "results") with
    | none => .ok []
    | some results => do
      let payloads ← ((systemsOf results).flatMap definitionResults).mapM
        (definitionPayload root (getSystemTarget root))
      return payloads.reduceOption

end Parse

/-! ### What the loops give -/

section Loops

variable [UpperCase]

/-- The CVE that a reference names: its source is `CVE`, or its id begins like one. -/
def cveOf (ref : Element) : Option Str :=
  if refId ref ≠ [] ∧
      (isCve (refId ref) ∨
        UpperCase.upper (Str.strip (Str.orEmpty (ref.get "source"))) = str "CVE") then
    some (refId ref)
  else none

theorem addCve_eq (cves : List Str) (ref : Element) :
    addCve cves ref = match cveOf ref with
      | some cve => if cve ∈ cves then cves else cves ++ [cve]
      | none => cves := by
  by_cases hnil : refId ref = []
  · simp [addCve, cveOf, hnil]
  by_cases hmem : refId ref ∈ cves
  · by_cases hcve : isCve (refId ref) ∨
        UpperCase.upper (Str.strip (Str.orEmpty (ref.get "source"))) = str "CVE"
    · simp [addCve, cveOf, hnil, hmem, hcve]
    · simp [addCve, cveOf, hnil, hmem, hcve]
  by_cases hid : isCve (refId ref) = true
  · simp [addCve, cveOf, hnil, hmem, hid]
  · by_cases hsource : UpperCase.upper (Str.strip (Str.orEmpty (ref.get "source"))) = str "CVE"
    · simp [addCve, cveOf, hnil, hmem, hid, hsource]
    · simp [addCve, cveOf, hid, hsource]

theorem subset_addCve (cves : List Str) (ref : Element) : cves ⊆ addCve cves ref := by
  rw [addCve_eq]
  split
  · split_ifs
    · exact List.Subset.refl cves
    · exact List.subset_append_left _ _
  · exact List.Subset.refl cves

theorem mem_addCve {cves : List Str} {ref : Element} {cve : Str} (h : cveOf ref = some cve) :
    cve ∈ addCve cves ref := by
  rw [addCve_eq, h]
  dsimp only
  split_ifs with hmem
  · exact hmem
  · exact List.mem_append_right _ (List.mem_singleton_self cve)

theorem addCve_of_mem {cves : List Str} {ref : Element}
    (h : ∀ cve, cveOf ref = some cve → cve ∈ cves) : addCve cves ref = cves := by
  rw [addCve_eq]
  cases hcve : cveOf ref with
  | none => rfl
  | some cve => exact if_pos (h cve hcve)

theorem subset_foldl_addCve (refs : List Element) (cves : List Str) :
    cves ⊆ refs.foldl addCve cves := by
  induction refs generalizing cves with
  | nil => exact List.Subset.refl cves
  | cons ref refs ih => exact List.Subset.trans (subset_addCve cves ref) (ih _)

theorem mem_foldl_addCve {refs : List Element} {cves : List Str} {ref : Element} (href : ref ∈ refs)
    {cve : Str} (h : cveOf ref = some cve) : cve ∈ refs.foldl addCve cves := by
  induction refs generalizing cves with
  | nil => cases href
  | cons ref' refs ih =>
    rcases List.mem_cons.mp href with rfl | href
    · exact subset_foldl_addCve refs _ (mem_addCve h)
    · exact ih href

theorem foldl_addCve_of_mem {refs : List Element} {cves : List Str}
    (h : ∀ ref ∈ refs, ∀ cve, cveOf ref = some cve → cve ∈ cves) :
    refs.foldl addCve cves = cves := by
  induction refs with
  | nil => rfl
  | cons ref refs ih =>
    rw [List.foldl_cons, addCve_of_mem (h ref List.mem_cons_self)]
    exact ih fun ref' href' => h ref' (List.mem_cons_of_mem ref href')

/-- References that are collected twice add nothing. -/
theorem collectCves_append_self (refs : List Element) :
    collectCves (refs ++ refs) = collectCves refs := by
  rw [collectCves, List.foldl_append]
  exact foldl_addCve_of_mem fun _ href _ h => mem_foldl_addCve href h

/-- The first CVE that is collected is the first that is named. -/
theorem head?_collectCves (refs : List Element) :
    (collectCves refs).head? = refs.findSome? cveOf := by
  have hfold (cves : List Str) :
      (refs.foldl addCve cves).head? = cves.head?.or (refs.findSome? cveOf) := by
    induction refs generalizing cves with
    | nil => rw [List.foldl_nil, List.findSome?_nil, Option.or_none]
    | cons ref refs ih =>
      rw [List.foldl_cons, ih, List.findSome?_cons, addCve_eq]
      cases hcve : cveOf ref with
      | none => rfl
      | some cve =>
        cases cves with
        | nil => rfl
        | cons c cves =>
          dsimp only
          split_ifs <;> rfl
  exact hfold []

end Loops

/-! ### Lookups of elements in their places -/

section Placed

variable {e d : Element} {t : XmlTag}

theorem mem_of_lookupIn (h : lookupIn e t = some d) : d ∈ e.iter := by
  rcases Option.or_eq_some_iff.mp h with h | ⟨_, h⟩
  · exact Element.mem_iter_of_mem_descendants (List.mem_of_find?_eq_some h)
  · exact List.mem_of_find?_eq_some h

theorem filter_hasLocalName (h : Element.OnlyAsChildren t e)
    (hne : e.tag.localName ≠ t.localName) :
    e.iter.filter (hasLocalName t.localName) = e.childrenTagged t := by
  have hself : ¬ hasLocalName t.localName e = true := fun hname => hne (of_decide_eq_true hname)
  rw [Element.iter_eq, List.filter_cons_of_neg hself]
  exact h

/-- Both lookups give the first child, where the elements of the name are children. -/
theorem lookupIn_eq (h : Element.OnlyAsChildren t e) (hne : e.tag.localName ≠ t.localName) :
    lookupIn e t = (e.childrenTagged t).head? := by
  rw [lookupIn, h.find_eq, ← List.head?_filter, filter_hasLocalName h hne, Option.or_self]

theorem systemsOf_eq {results : Element} (h : Element.OnlyAsChildren (resTag "system") results)
    (hne : results.tag.localName ≠ str "system") :
    systemsOf results = results.childrenTagged (resTag "system") := by
  rw [systemsOf, h.findall_eq]
  cases hsystems : results.childrenTagged (resTag "system") with
  | nil => exact (filter_hasLocalName h hne).trans hsystems
  | cons s ss => rfl

/-- The references that are collected of a metadata, where they are children of it. -/
theorem collectCvesFromRefs_eq [UpperCase] (h : Element.OnlyAsChildren (defTag "reference") e)
    (hne : e.tag.localName ≠ str "reference") :
    collectCvesFromRefs e = collectCves (e.childrenTagged (defTag "reference")) := by
  have hmem {d : Element} (hd : d ∈ e.descendants) (hname : d.tag.localName = str "reference") :
      d.tag = defTag "reference" :=
    (Element.mem_childrenTagged_iff.mp (h ▸ List.mem_filter.mpr ⟨hd, decide_eq_true hname⟩)).2
  have hcommon : e.findall ⟨some commonNs, str "reference"⟩ = [] := by
    refine List.filter_eq_nil_iff.mpr fun d hd htag => ?_
    have htag := of_decide_eq_true htag
    have hns : defTag "reference" = ⟨some commonNs, str "reference"⟩ :=
      (hmem hd (congrArg XmlTag.localName htag)).symm.trans htag
    exact absurd hns (by decide +kernel)
  have hself : [e].filter (hasLocalName (str "reference")) = [] :=
    List.filter_eq_nil_iff.mpr fun d hd hname => by
      rw [List.mem_singleton.mp hd] at hname
      exact hne (of_decide_eq_true hname)
  have hrest : (e.descendants.filter fun d => hasLocalName (str "reference") d &&
      !(([defNs, commonNs, defNs].map some).contains d.tag.ns)) = [] := by
    refine List.filter_eq_nil_iff.mpr fun d hd hd' => ?_
    obtain ⟨hname, hns⟩ := Bool.and_eq_true_iff.mp hd'
    rw [hmem hd (of_decide_eq_true hname)] at hns
    exact absurd hns (by decide +kernel)
  have hfound : e.findall ⟨some defNs, str "reference"⟩ = e.childrenTagged (defTag "reference") :=
    h.findall_eq
  rw [collectCvesFromRefs, allNs, hself, hrest]
  simp only [List.flatMap_cons, List.flatMap_nil, List.append_nil, hcommon, hfound, List.nil_append]
  exact collectCves_append_self _

end Placed

end OvalParser

end Vat
