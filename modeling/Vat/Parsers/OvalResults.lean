import Vat.Parsers.OvalDocuments
import Vat.Transition.Except

/-!
# What is read of OVAL Results

A document in the namespaces of the standard is read completely exactly when each definition that is
reported has a title, states no severity but a medium one, and gives fields that the schema takes.
Without namespaces no definition result is found, so that the document must not report any
(`oval_results_iff`).

Source: `backend/app/parsers/openscap_oval.py`, lines 163–273.

## Main definitions

* `Reports`, `Complete`: a payload for a definition result, and for each.
* `Readable`, `AllReadable`: what a definition result needs, and what a document needs.

## Main results

* `OvalResults.definitionPayload_eq_ok_iff`, `OvalResults.parse_eq_ok_iff`,
  `OvalResults.parse_eq_nil`.
* `oval_results_iff`, `not_oval_results_complete`.
-/

namespace Vat

open Transition

namespace OvalParser

/-! ### Complete documents -/

section Properties

variable (N : Namespaces) (root : Element) [Unicode] [UpperCase] [CharTables]

/-- A payload for a definition result: it has its id, the first CVE that its own metadata reference,
and the severity that they state. -/
structure Reports (result : Element) (p : VatFindingSchema) : Prop where
  ruleId : p.ruleId = some (resultId result)
  cveId : ∀ cve, (ownReferences N root result).findSome? cveOf = some cve → p.cveId = cve
  severity : p.severity = ownSeverity N root result

/-- The parse ends with one payload for each definition result that is reported. -/
def Complete [ReprText] [IntText] : Prop :=
  ∃ payloads, parse root = .ok payloads ∧
    List.Forall₂ (Reports N root) (reported N root) payloads

/-- The fields for a definition result: the first title of its definition, unless it is blank, and
its CVEs. -/
def ownFields (result : Element) : PayloadFields :=
  payloadFields (resultId result)
    (titleIn (resultId result) ((own N root result).bind fun d => (titlesOf N d).head?))
    (collectCves (ownReferences N root result)) (str "medium")

/-- What a definition result needs to be read: a title of its definition, if there is one; no
severity but a medium one; a CVE that begins like one, or an id without another one; and fields that
the schema takes. -/
structure Readable (result : Element) : Prop where
  titled : ∀ d, own N root result = some d → titlesOf N d ≠ []
  severity : ownSeverity N root result = .medium
  cve : ∀ cve, (ownReferences N root result).findSome? cveOf = some cve →
    isCve cve ∨ Str.contains (resultId result) (str "CVE-") = false ∨
      ∀ other, cveInId (resultId result) = some other → Str.strip (sanitizeText other) = cve
  accepted : ((ownFields N root result).withAsset (.text (getSystemTarget root))).Accepted

/-- What a document needs to be read completely. -/
def AllReadable : Prop :=
  match N with
  | .standard => ∀ r ∈ reported .standard root, Readable .standard root r
  | .plain => reported .plain root = []

end Properties

/-! ### The payload of a definition result -/

section Payloads

variable {N : Namespaces} {root r : Element} [Unicode] [UpperCase] [CharTables]

omit [UpperCase] [CharTables] in
/-- The values of results are written in small letters, without blanks around them. -/
theorem lower_strip_resultValue {v : Str} (hv : v ∈ resultValues) :
    Unicode.lower (Str.strip v) = v := by
  have hall : resultValues.all (fun v => Str.strip v = v ∧
      v.all fun c => c.toNat < 128 && c.toLower == c) = true := by decide +kernel
  obtain ⟨hstrip, hlower⟩ := of_decide_eq_true (List.all_eq_true.mp hall v hv)
  rw [hstrip, Unicode.lower_eq_self hlower]

omit [UpperCase] [CharTables] in
theorem normalizeSeverity_mapSeverity_medium :
    normalizeSeverity (mapSeverity (some (str "medium"))) = .medium := by
  have hlower : Unicode.lower (str "medium") = str "medium" :=
    Unicode.lower_eq_self (by decide +kernel)
  have hmap : mapSeverity (some (str "medium")) = str "medium" := by
    rw [mapSeverity, Str.orEmpty_some, hlower]
    decide +kernel
  rw [hmap, normalizeSeverity, hlower]
  decide +kernel

variable [ReprText] [IntText] {p : VatFindingSchema} {asset : Str}

/-- A result that is true and has an id is read, and the others are left out. -/
theorem OvalResults.definitionPayload_eq (h : OvalResults N root)
    (hr : r ∈ resultDefinitions N root) :
    definitionPayload root asset r =
      if r.get "result" = some (str "true") ∧ resultId r ≠ [] then do
        let metadata ← getDefinitionMetadata root (resultId r)
        let payload ← checkedPayload
          (payloadFields (resultId r) metadata.1 metadata.2.1 metadata.2.2) asset
        return some payload
      else .ok none := by
  obtain ⟨v, hv, hget⟩ := h.values r hr
  have hid : Str.strip (Str.orEmpty (Str.orElse (r.get "definition_id") (r.get "id"))) =
      resultId r := h.ids r hr
  rw [definitionPayload, hid, hget, Str.orEmpty_some, lower_strip_resultValue hv]
  by_cases hvalue : v = str "true"
  · by_cases hnil : resultId r = []
    · rw [if_neg (not_not.mpr hvalue), if_pos hnil, if_neg fun hkeep => hkeep.2 hnil]
    · rw [if_neg (not_not.mpr hvalue), if_neg hnil, if_pos ⟨congrArg some hvalue, hnil⟩]
  · rw [if_pos hvalue, if_neg fun hkeep => hvalue (Option.some.inj hkeep.1)]

omit [Unicode] [UpperCase] [CharTables] in
theorem checkedPayload_eq_ok_iff {fields : PayloadFields} (hline : fields.line = .null) :
    checkedPayload fields asset = .ok p ↔ (fields.withAsset (.text asset)).Accepted ∧
      (fields.withAsset (.text asset)).payload = p := by
  have hline' : (fields.withAsset (.text asset)).line = .null := by
    obtain ⟨image, himage⟩ := fields.withAsset_eq (.text asset)
    rw [himage]
    exact hline
  rw [← validate_eq_ok_iff hline', checkedPayload, createPayload]
  cases (fields.withAsset (.text asset)).validate with
  | ok q => exact ⟨fun hq => congrArg Except.ok (Except.ok.inj hq), fun hq =>
      congrArg Except.ok (Except.ok.inj hq)⟩
  | error e => exact ⟨fun hq => (by cases hq), fun hq => (by cases hq)⟩

/-- When a definition result that is reported gives a payload, and which one. -/
theorem OvalResults.definitionPayload_eq_ok_iff (h : OvalResults .standard root)
    (hr : r ∈ reported .standard root) :
    definitionPayload root asset r = .ok (some p) ↔
      (∀ d, own .standard root r = some d → titlesOf .standard d ≠ []) ∧
        ((ownFields .standard root r).withAsset (.text asset)).Accepted ∧
        ((ownFields .standard root r).withAsset (.text asset)).payload = p := by
  obtain ⟨hr, hkeep⟩ := List.mem_filter.mp hr
  have hsome {x : Except OvalError VatFindingSchema} :
      (x >>= fun q => .ok (some q)) = .ok (some p) ↔ x = .ok p := by
    cases x with
    | ok q => simp
    | error e => exact ⟨fun hq => (by cases hq), fun hq => (by cases hq)⟩
  rw [h.definitionPayload_eq hr, if_pos (of_decide_eq_true hkeep), h.getDefinitionMetadata_eq hr]
  cases hown : own .standard root r with
  | none =>
    have hfields : ownFields .standard root r =
        payloadFields (resultId r) (resultId r) [] (str "medium") := by
      rw [ownFields, ownReferences, hown]
      rfl
    rw [hfields]
    refine hsome.trans ((checkedPayload_eq_ok_iff rfl).trans ?_)
    exact (and_iff_right fun d hd => by cases hd).symm
  | some d =>
    have hfields : ownFields .standard root r = payloadFields (resultId r)
        (titleIn (resultId r) (titlesOf .standard d).head?)
        (collectCves (referencesOf .standard d)) (str "medium") := by
      rw [ownFields, ownReferences, hown]
      rfl
    have htitled : (∀ d', some d = some d' → titlesOf .standard d' ≠ []) ↔
        titlesOf .standard d ≠ [] := by
      simp
    dsimp only
    rw [h.readDefinition_eq (mem_of_own hown), htitled, hfields]
    by_cases htitles : titlesOf .standard d = []
    · rw [if_pos htitles]
      exact iff_of_false (fun hq => (by cases hq)) fun hq => hq.1 htitles
    · rw [if_neg htitles, and_iff_right htitles]
      exact hsome.trans (checkedPayload_eq_ok_iff rfl)

omit [ReprText] [IntText] in
/-- The CVE of a payload, when the metadata reference one: an id with another one takes its place
only if it does not begin like one. -/
theorem payloadCve_eq (definitionId cve : Str) (cves : List Str) (hcves : cves.head? = some cve) :
    payloadCve definitionId cves =
      if ¬ isCve cve ∧ Str.contains definitionId (str "CVE-") then
        (cveInId definitionId).getD cve
      else cve := by
  rw [payloadCve, List.headD_eq_head?_getD, hcves, Option.getD_some]

omit [ReprText] [IntText] in
/-- The CVE of the payload of a result is the first that is referenced. -/
theorem OvalResults.cveId_payload_iff (h : OvalResults N root) {cve : Str}
    (hcve : (ownReferences N root r).findSome? cveOf = some cve) :
    Str.strip (sanitizeText (payloadCve (resultId r) (collectCves (ownReferences N root r)))) =
        cve ↔
      isCve cve ∨ Str.contains (resultId r) (str "CVE-") = false ∨
        ∀ other, cveInId (resultId r) = some other → Str.strip (sanitizeText other) = cve := by
  have hself : Str.strip (sanitizeText cve) = cve := by
    obtain ⟨ref, href, hof⟩ := List.exists_of_findSome?_eq_some hcve
    obtain rfl : refId ref = cve := by
      rw [cveOf] at hof
      split_ifs at hof
      exact Option.some.inj hof
    rw [sanitizeText_of_xmlChar (h.xmlChar_refId (ownReferences_subset href))]
    exact Str.strip_strip _
  rw [payloadCve_eq (resultId r) cve _ ((head?_collectCves _).trans hcve)]
  by_cases hstarts : isCve cve = true
  · rw [if_neg fun hother => hother.1 hstarts]
    exact iff_of_true hself (.inl hstarts)
  cases hcontains : Str.contains (resultId r) (str "CVE-") with
  | false =>
    rw [if_neg fun hother => Bool.false_ne_true hother.2]
    exact iff_of_true hself (.inr (.inl rfl))
  | true =>
    rw [if_pos ⟨hstarts, rfl⟩, or_iff_right hstarts, or_iff_right (by decide)]
    cases hother : cveInId (resultId r) with
    | none => exact iff_of_true hself fun other hnone => (by cases hnone)
    | some other =>
      rw [Option.getD_some]
      constructor
      · intro heq other' hsome
        rw [← Option.some.inj hsome]
        exact heq
      · intro hall
        exact hall other rfl

omit [IntText] in
/-- When the payload of a result reports it. -/
theorem OvalResults.reports_payload_iff (h : OvalResults N root) (hr : r ∈ root.iter) :
    Reports N root r ((ownFields N root r).withAsset (.text asset)).payload ↔
      ownSeverity N root r = .medium ∧
        ∀ cve, (ownReferences N root r).findSome? cveOf = some cve →
          isCve cve ∨ Str.contains (resultId r) (str "CVE-") = false ∨
            ∀ other, cveInId (resultId r) = some other → Str.strip (sanitizeText other) = cve := by
  obtain ⟨image, himage⟩ := (ownFields N root r).withAsset_eq (.text asset)
  have hrule : ((ownFields N root r).withAsset (.text asset)).payload.ruleId =
      some (sanitizeText (resultId r)) := by
    rw [himage]
    rfl
  have hcve : ((ownFields N root r).withAsset (.text asset)).payload.cveId = Str.strip
      (sanitizeText (payloadCve (resultId r) (collectCves (ownReferences N root r)))) := by
    rw [himage]
    rfl
  have hseverity : ((ownFields N root r).withAsset (.text asset)).payload.severity = .medium := by
    rw [himage]
    exact normalizeSeverity_mapSeverity_medium
  constructor
  · intro hreports
    refine ⟨hreports.severity.symm.trans hseverity, fun cve hfirst => ?_⟩
    exact (h.cveId_payload_iff hfirst).mp (hcve.symm.trans (hreports.cveId cve hfirst))
  · rintro ⟨hown, hfirst⟩
    refine ⟨?_, fun cve hsome => ?_, hseverity.trans hown.symm⟩
    · rw [hrule, sanitizeText_of_xmlChar (h.xmlChar_resultId hr)]
    · exact hcve.trans ((h.cveId_payload_iff hsome).mpr (hfirst cve hsome))

/-- A definition result gives a payload that reports it exactly when it is readable. -/
theorem OvalResults.exists_payload_iff (h : OvalResults .standard root)
    (hr : r ∈ reported .standard root) :
    (∃ p, definitionPayload root (getSystemTarget root) r = .ok (some p) ∧
        Reports .standard root r p) ↔ Readable .standard root r := by
  have hiter : r ∈ root.iter := resultDefinitions_subset (List.mem_filter.mp hr).1
  constructor
  · rintro ⟨p, hp, hreports⟩
    obtain ⟨htitled, haccepted, rfl⟩ := (h.definitionPayload_eq_ok_iff hr).mp hp
    obtain ⟨hseverity, hcve⟩ := (h.reports_payload_iff hiter).mp hreports
    exact ⟨htitled, hseverity, hcve, haccepted⟩
  · intro hreadable
    refine ⟨_, (h.definitionPayload_eq_ok_iff hr).mpr
      ⟨hreadable.titled, hreadable.accepted, rfl⟩, ?_⟩
    exact (h.reports_payload_iff hiter).mpr ⟨hreadable.severity, hreadable.cve⟩

/-! ### The parse of a document -/

omit [UpperCase] [CharTables] [ReprText] [IntText] in
theorem OvalResults.contains_tag (h : OvalResults N root) :
    Str.contains (Unicode.lower root.tag.text) (str "oval_results") = true := by
  have hascii : root.tag.text.all (fun c => c.toNat < 128) = true := by
    rw [h.tag]
    cases N <;> decide +kernel
  rw [Unicode.lower_of_ascii _ fun c hc =>
    of_decide_eq_true (List.all_eq_true.mp hascii c hc), h.tag]
  cases N <;> decide +kernel

/-- The parse of a document in the namespaces of the standard. -/
theorem OvalResults.parse_eq (h : OvalResults .standard root) :
    parse root = (do
      let payloads ← (resultDefinitions .standard root).mapM
        (definitionPayload root (getSystemTarget root))
      return payloads.reduceOption) := by
  obtain ⟨results, hresults⟩ := h.exists_results
  have hname : root.tag.localName ≠ (resTag "results").localName := by
    rw [h.tag]
    decide +kernel
  have hplaced : Element.OnlyAsChildren (resTag "results") root := h.results_placed
  have hresults : root.childrenTagged (resTag "results") = [results] := hresults
  rw [parse, if_neg (not_not.mpr h.contains_tag), lookupIn_eq hplaced hname, hresults,
    ← h.flatMap_definitionResults hresults]
  rfl

/-- A parse of a document in the namespaces gives one payload for each definition result that is
reported, or it fails. -/
theorem OvalResults.parse_eq_ok_iff (h : OvalResults .standard root)
    {payloads : List VatFindingSchema} :
    parse root = .ok payloads ↔
      List.Forall₂ (fun r p => definitionPayload root (getSystemTarget root) r = .ok (some p))
        (reported .standard root) payloads := by
  rw [h.parse_eq]
  refine mapM_reduceOption_eq_ok_iff (fun r hr hkeep => ?_) fun r hr hkeep => ?_
  · rw [h.definitionPayload_eq hr, if_neg (of_decide_eq_false hkeep)]
  · rw [h.definitionPayload_eq hr, if_pos (of_decide_eq_true hkeep)]
    intro hnone
    obtain ⟨metadata, -, hrest⟩ := bind_eq_ok_iff.mp hnone
    obtain ⟨payload, -, hpayload⟩ := bind_eq_ok_iff.mp hrest
    cases hpayload

/-- A search with a namespace finds nothing in a document without them. -/
theorem OvalResults.parse_eq_nil (h : OvalResults .plain root) : parse root = .ok [] := by
  have hdefinitions {s : Element} (hs : s ∈ root.iter) : definitionResults s = [] := by
    rw [definitionResults]
    cases hlookup : lookupIn s (resTag "definitions") with
    | none => rfl
    | some c =>
      have hc : c ∈ root.iter := Element.iter_subset root s hs (mem_of_lookupIn hlookup)
      refine List.filter_eq_nil_iff.mpr fun d hd htag => ?_
      have hns := h.plain rfl d (Element.descendants_subset hc hd)
      rw [of_decide_eq_true htag] at hns
      cases hns
  rw [parse, if_neg (not_not.mpr h.contains_tag)]
  cases hlookup : lookupIn root (resTag "results") with
  | none => rfl
  | some results =>
    have hresults : results.iter ⊆ root.iter :=
      Element.iter_subset root results (mem_of_lookupIn hlookup)
    have hsystems : systemsOf results ⊆ root.iter := by
      rw [systemsOf]
      split_ifs
      · exact List.Subset.trans (List.filter_subset_self _) hresults
      · intro s hs
        exact hresults (Element.mem_iter_of_mem_descendants (Element.mem_findall_iff.mp hs).1)
    have hnil : (systemsOf results).flatMap definitionResults = [] :=
      List.flatMap_eq_nil_iff.mpr fun s hs => hdefinitions (hsystems hs)
    dsimp only
    rw [hnil]
    rfl

/-- A document in the namespaces of the standard is read completely exactly when each definition
result that it reports is readable. -/
theorem OvalResults.complete_standard_iff (h : OvalResults .standard root) :
    Complete .standard root ↔ ∀ r ∈ reported .standard root, Readable .standard root r := by
  have hpayloads : Complete .standard root ↔ ∃ payloads, List.Forall₂ (fun r p =>
      definitionPayload root (getSystemTarget root) r = .ok (some p) ∧
        Reports .standard root r p) (reported .standard root) payloads :=
    exists_congr fun payloads => by rw [h.parse_eq_ok_iff, forall₂_and_iff]
  rw [hpayloads, exists_forall₂_iff]
  exact forall₂_congr fun r hr => h.exists_payload_iff hr

/-- A document without namespaces is read completely exactly when it reports nothing. -/
theorem OvalResults.complete_plain_iff (h : OvalResults .plain root) :
    Complete .plain root ↔ reported .plain root = [] := by
  rw [Complete, h.parse_eq_nil]
  constructor
  · rintro ⟨payloads, hnil, hreports⟩
    obtain rfl := Except.ok.inj hnil
    exact List.forall₂_nil_right_iff.mp hreports
  · intro hreported
    exact ⟨[], rfl, List.forall₂_nil_right_iff.mpr hreported⟩

/-- A document is read completely exactly when each of its definition results is readable, if it has
the namespaces of the standard, and when it reports nothing, if it has none. -/
theorem oval_results_iff (N : Namespaces) (root : Element) (h : OvalResults N root) :
    Complete N root ↔ AllReadable N root := by
  cases N with
  | standard => exact h.complete_standard_iff
  | plain => exact h.complete_plain_iff

end Payloads

/-! ### Sample documents -/

section Samples

/-- The id of the sample definition. -/
def sampleId : Str := str "oval:org.example:def:1"

/-- The metadata of a definition: a title or none, a CVE, and a severity or none. -/
def sampleMetadata (N : Namespaces) (titled critical : Bool) : Element :=
  let titles := if titled then [.node (N.dfn "title") [] (str "Update") [] []] else []
  let severities := if critical then [.node (N.dfn "severity") [] (str "Critical") [] []] else []
  .node (N.dfn "metadata") [] []
    (titles ++
      [.node (N.dfn "reference") [(str "source", str "CVE"), (str "ref_id", str "CVE-2024-1234")]
        [] [] [],
      .node (N.dfn "advisory") [] [] severities []]) []

def sampleDefinition (N : Namespaces) (titled critical : Bool) : Element :=
  .node (N.dfn "definition") [(str "id", sampleId)] [] [sampleMetadata N titled critical] []

def sampleDefinitions (N : Namespaces) (titled critical : Bool) : Element :=
  .node (N.dfn "oval_definitions") [] []
    [.node (N.dfn "definitions") [] [] [sampleDefinition N titled critical] []] []

/-- A definition result that is true. -/
def sampleResult (N : Namespaces) : Element :=
  .node (N.res "definition") [(str "definition_id", sampleId), (str "result", str "true")] [] [] []

def sampleContainer (N : Namespaces) : Element :=
  .node (N.res "definitions") [] [] [sampleResult N] []

def sampleSystem (N : Namespaces) : Element :=
  .node (N.res "system") [] [] [sampleContainer N] []

/-- A document with one definition result. -/
def sampleDocument (N : Namespaces) (titled critical : Bool) : Element :=
  .node (N.res "oval_results") [] []
    [sampleDefinitions N titled critical, .node (N.res "results") [] [] [sampleSystem N] []] []

variable (N : Namespaces) (titled critical : Bool)

theorem childrenTagged_sample_results :
    (sampleDocument N titled critical).childrenTagged (N.res "results") =
      [.node (N.res "results") [] [] [sampleSystem N] []] := by
  simp [sampleDocument, sampleDefinitions]

theorem systems_sample : systems N (sampleDocument N titled critical) = [sampleSystem N] := by
  rw [systems, childrenTagged_sample_results]
  simp [sampleSystem]

theorem containers_sample :
    containers N (sampleDocument N titled critical) = [sampleContainer N] := by
  rw [containers, systems_sample]
  simp [sampleSystem, sampleContainer]

theorem resultDefinitions_sample :
    resultDefinitions N (sampleDocument N titled critical) = [sampleResult N] := by
  rw [resultDefinitions, containers_sample]
  simp [sampleContainer, sampleResult]

theorem childrenTagged_sample_definitions :
    (sampleDocument N titled critical).childrenTagged (N.dfn "oval_definitions") =
      [sampleDefinitions N titled critical] := by
  simp [sampleDocument, sampleDefinitions]

theorem carriedDefinitions_sample :
    carriedDefinitions N (sampleDocument N titled critical) =
      [sampleDefinition N titled critical] := by
  rw [carriedDefinitions, childrenTagged_sample_definitions]
  simp [sampleDefinitions, sampleDefinition]

/-- The sample documents are well-formed. -/
theorem ovalResults_sample : OvalResults N (sampleDocument N titled critical) := by
  exact {
    tag := rfl
    plain := by
      rintro rfl
      cases titled <;> cases critical <;> simp [sampleDocument, sampleDefinitions,
        sampleDefinition, sampleMetadata, sampleSystem, sampleContainer, sampleResult,
        Namespaces.res, Namespaces.dfn]
    chars := by
      cases N <;> cases titled <;> cases critical <;> decide +kernel
    results_placed := by
      cases titled <;> cases critical <;> simp [Element.OnlyAsChildren, sampleDocument,
        sampleDefinitions, sampleDefinition, sampleMetadata, sampleSystem, sampleContainer,
        sampleResult]
    results_one := by rw [childrenTagged_sample_results]; rfl
    systems_placed := by
      rw [childrenTagged_sample_results]
      simp [Element.OnlyAsChildren, sampleSystem, sampleContainer, sampleResult]
    containers_placed := by
      rw [systems_sample]
      simp [Element.OnlyAsChildren, sampleSystem, sampleContainer, sampleResult]
    containers_le_one := by
      rw [systems_sample]
      simp [sampleSystem, sampleContainer]
    definitions_placed := by
      rw [containers_sample]
      simp [Element.OnlyAsChildren, sampleContainer, sampleResult]
    values := by
      rw [resultDefinitions_sample]
      exact List.forall_mem_singleton.mpr ⟨str "true", List.mem_cons_self, rfl⟩
    ids := by
      rw [resultDefinitions_sample]
      exact List.forall_mem_singleton.mpr rfl
    carried_placed := by
      cases titled <;> cases critical <;> simp [Element.OnlyAsChildren, sampleDocument,
        sampleDefinitions, sampleDefinition, sampleMetadata, sampleSystem, sampleContainer,
        sampleResult]
    carried_le_one := by rw [childrenTagged_sample_definitions]; rfl
    carried_ids := by
      have hreference : [(str "source", str "CVE"), (str "ref_id", str "CVE-2024-1234")].lookup
          (str "id") = none := by decide +kernel
      rw [resultDefinitions_sample, childrenTagged_sample_definitions, carriedDefinitions_sample]
      cases titled <;> cases critical <;> simp [sampleDefinitions, sampleDefinition,
        sampleMetadata, Element.get, hreference]
    carried_unique := by
      rw [carriedDefinitions_sample]
      simp
    metadata_placed := by
      rw [carriedDefinitions_sample]
      cases titled <;> cases critical <;>
        simp [Element.OnlyAsChildren, sampleDefinition, sampleMetadata]
    metadata_le_one := by
      rw [carriedDefinitions_sample]
      simp [sampleDefinition, sampleMetadata]
    titles_placed := by
      rw [carriedDefinitions_sample]
      cases titled <;> cases critical <;>
        simp [titlesOf, sampleDefinition, sampleMetadata]
    references_placed := by
      rw [carriedDefinitions_sample]
      cases titled <;> cases critical <;>
        simp [Element.OnlyAsChildren, sampleDefinition, sampleMetadata] }

attribute [local instance] asciiUnicode asciiUpperCase asciiCharTables noRepr digitText

/-- A document with a title and no severity is read completely. -/
theorem complete_sample_titled : Complete .standard (sampleDocument .standard true false) := by
  have htarget : getSystemTarget (sampleDocument .standard true false) = str "oval-cve-scan" := by
    decide +kernel
  have hfields : ownFields .standard (sampleDocument .standard true false)
      (sampleResult .standard) =
        payloadFields sampleId (str "Update") [str "CVE-2024-1234"] (str "medium") := by
    have htitle : titleIn (resultId (sampleResult .standard))
        ((own .standard (sampleDocument .standard true false) (sampleResult .standard)).bind
          fun d => (titlesOf .standard d).head?) = str "Update" := by
      decide +kernel
    have hcves : collectCves (ownReferences .standard (sampleDocument .standard true false)
        (sampleResult .standard)) = [str "CVE-2024-1234"] := by
      decide +kernel
    rw [ownFields, htitle, hcves]
    rfl
  have hreadable : Readable .standard (sampleDocument .standard true false)
      (sampleResult .standard) := by
    refine ⟨fun d hd => ?_, ?_, fun cve hcve => ?_, ?_⟩
    · cases hd
      exact List.cons_ne_nil _ _
    · decide +kernel
    · cases hcve
      exact .inl (by decide +kernel)
    · rw [hfields, htarget]
      decide +kernel
  refine (oval_results_iff .standard _ (ovalResults_sample .standard true false)).mpr ?_
  exact List.forall_mem_singleton.mpr hreadable

/-- A document without namespaces, one without a title, and one that states a severity are not read
completely. -/
theorem not_oval_results_complete :
    (OvalResults .plain (sampleDocument .plain true false) ∧
        ¬ Complete .plain (sampleDocument .plain true false)) ∧
      (OvalResults .standard (sampleDocument .standard false false) ∧
        ¬ Complete .standard (sampleDocument .standard false false)) ∧
      OvalResults .standard (sampleDocument .standard true true) ∧
        ¬ Complete .standard (sampleDocument .standard true true) := by
  refine ⟨⟨ovalResults_sample .plain true false, fun h => ?_⟩,
    ⟨ovalResults_sample .standard false false, fun h => ?_⟩,
    ovalResults_sample .standard true true, fun h => ?_⟩
  · exact List.cons_ne_nil _ _ ((ovalResults_sample .plain true false).complete_plain_iff.mp h)
  · have hreadable := (ovalResults_sample .standard false false).complete_standard_iff.mp h _
      List.mem_cons_self
    exact hreadable.titled _ rfl rfl
  · have hreadable := (ovalResults_sample .standard true true).complete_standard_iff.mp h _
      List.mem_cons_self
    exact absurd hreadable.severity (by decide +kernel)

end Samples

end OvalParser

end Vat
