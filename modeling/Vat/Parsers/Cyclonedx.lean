import Mathlib.Data.List.ReduceOption
import Vat.Identity.ContainerRef
import Vat.Parsers.Utils

/-!
# The CycloneDX parser

The components of a document, nested ones included, are looked up by their `bom-ref`. A reference of
a vulnerability names the component that it affects. A `bom-ref` says nothing of the component; yet
a reference without an `@` is shown in the place of the component's name, and a part of any other
reference where the component has no name.

Source: `backend/app/parsers/cyclonedx.py`; `backend/app/parsers/base.py`, lines 22–31.

## Main definitions

* `BomDocument`.
* `BomDocument.byRef`: what `_flatten_components` collects.
* `BomDocument.rename`: the references renamed.

## Main results

* `BomDocument.isOpaque_iff`: when the references do not show.
-/

namespace Vat.CyclonedxParser

open Keyed Transition

/-! ### Documents -/

/-- What is read of a component. -/
structure ComponentFields where
  name : Option Str := none
  version : Option Str := none
  purl : Option Str := none
  deriving DecidableEq

/-- An entry of a list of components: an object or anything else. -/
inductive ComponentEntry
  | object (bomRef : Option Str) (fields : ComponentFields) (components : List ComponentEntry)
  | other

/-- An object in the `ratings` of a vulnerability. -/
structure Rating where
  severity : Option Str := none
  method : Option Str := none
  score : Loaded := .null
  vector : Option Str := none

/-- A vulnerability. Of an entry of `references` the id is read, of one of `affects` the ref; they
are missing if the entry is no object. -/
structure Vulnerability where
  id : Option Str := none
  description : Option Str := none
  detail : Option Str := none
  recommendation : Option Str := none
  ratings : List (Option Rating) := []
  references : List (Option Str) := []
  affects : List (Option Str) := []

/-- A document. An entry of `vulnerabilities` may be no object. -/
structure BomDocument where
  /-- `metadata.component`. -/
  metadata : ComponentFields := {}
  components : List ComponentEntry := []
  vulnerabilities : List (Option Vulnerability) := []

/-! ### Components -/

mutual

/-- `_flatten_components` of one entry: first the nested ones, then the component itself. -/
def flattenComponent :
    ComponentEntry → Dictionary Str ComponentFields → Dictionary Str ComponentFields
  | .object bomRef fields components, out =>
    let out := flattenComponents components out
    if Str.truthy bomRef then out.set (Str.orEmpty bomRef) fields else out
  | .other, out => out

/-- `_flatten_components`. -/
def flattenComponents :
    List ComponentEntry → Dictionary Str ComponentFields → Dictionary Str ComponentFields
  | [], out => out
  | c :: components, out => flattenComponents components (flattenComponent c out)

end

/-- `_parse_purl_version`. -/
def parsePurlVersion (purl : Str) : Str :=
  if '@' ∉ purl then [] else (Str.split1 '?' (Str.rsplit1 '@' purl).2).1

/-- The text after the last slash. -/
def lastSegment (s : Str) : Str := if '/' ∈ s then (Str.rsplit1 '/' s).2 else s

/-- A text, unless it is empty. -/
def nonEmpty (s : Str) : Option Str := if s = [] then none else some s

/-- `_split_image_ref_tag`: the tag and the digest. -/
def splitImageRefTag (value : Str) : Option Str × Option Str :=
  let s := Str.strip value
  let (s, digest) :=
    match Str.splitSub1 (str "@sha256:") s with
    | some (left, dig) =>
      (left, if dig = [] then none else some (str "sha256:" ++ Str.strip dig))
    | none => (s, none)
  let right := (Str.rsplit1 ':' s).2
  (if ':' ∈ s ∧ '/' ∉ right then nonEmpty (Str.strip right) else none, digest)

/-- The `tag` among the qualifiers of a purl. -/
def purlTag (purl : Str) : Option Str :=
  if '?' ∉ purl then none
  else
    (((Str.split1 '?' purl).2.splitOn '&').find? fun kv => Str.startsWith kv (str "tag=")).bind
      fun kv => nonEmpty (Str.strip (kv.drop 4))

/-- `_extract_sbom_tag_digest`. -/
def extractSbomTagDigest (compMeta : ComponentFields) : Option Str × Option Str :=
  let (nameTag, nameDigest) := splitImageRefTag (Str.strip (Str.orEmpty compMeta.name))
  let version := nonEmpty (Str.strip (Str.orEmpty compMeta.version))
  let purl := Str.strip (Str.orEmpty compMeta.purl)
  let purlVersion := nonEmpty (parsePurlVersion purl)
  let purlDigest := (Str.splitSub1 (str "@sha256:") purl).map fun p =>
    str "sha256:" ++ Str.strip (Str.split1 '?' p.2).1
  (Str.orElse nameTag (Str.orElse version (Str.orElse (purlTag purl) purlVersion)),
    Str.orElse nameDigest purlDigest)

namespace BomDocument

variable (doc : BomDocument)

/-- The components by their references. -/
def byRef : Dictionary Str ComponentFields := flattenComponents doc.components Dictionary.empty

/-- The asset of a document: the one that it describes, or else its first component. -/
def asset : Str :=
  let asset := Str.strip (Str.orEmpty doc.metadata.name)
  if asset = [] then
    Str.strip (Str.orEmpty ((doc.byRef.entries.map Prod.snd).headD {}).name)
  else asset

end BomDocument

/-! ### Vulnerabilities -/

section Vulnerabilities

variable [Unicode]

/-- `_severity`. -/
def severityOf (s : Option Str) : Severity :=
  let s := Unicode.lower (Str.orEmpty s)
  if s = [] ∨ s ∈ ["none", "unknown"].map str then .medium
  else if s = str "critical" then .critical
  else if s = str "high" then .high
  else if s = str "medium" then .medium
  else if s = str "low" then .low
  else if s ∈ ["info", "informational"].map str then .informational
  else .medium

/-- `_cvss_version_from_method`. -/
def cvssVersionFromMethod (method : Option Str) : Option Str :=
  let method := Unicode.lower (Str.strip (Str.orEmpty method))
  if method ∈ ["cvssv31", "cvssv3.1"].map str then some (str "3.1")
  else if method ∈ ["cvssv30", "cvssv3.0", "cvssv3"].map str then some (str "3.0")
  else if method ∈ ["cvssv40", "cvssv4.0", "cvssv4"].map str then some (str "4.0")
  else none

namespace Vulnerability

variable (v : Vulnerability)

omit [Unicode] in
/-- The id of a vulnerability. -/
def vulnId : Str := if Str.truthy v.id then Str.orEmpty v.id else str "unknown"

omit [Unicode] in
/-- The description of a vulnerability, with its details and its recommendation. -/
def desc : Str :=
  let desc := Str.orEmpty v.description
  let desc :=
    if Str.truthy v.detail then Str.strip (desc ++ '\n' :: Str.orEmpty v.detail) else desc
  if Str.truthy v.recommendation then
    Str.strip (desc ++ str "\nRecommendation: " ++ Str.orEmpty v.recommendation)
  else desc

/-- The severity of the first rating. -/
def sev : Severity :=
  match v.ratings with
  | some r :: _ => severityOf r.severity
  | _ => .medium

omit [Unicode] in
/-- The first rating with a score of CVSS 3. -/
def cvssRating : Option Rating :=
  v.ratings.reduceOption.find? fun r => Str.startsWith (Str.orEmpty r.method) (str "CVSSv3")

omit [Unicode] in
/-- The ids of the references, after the vulnerability's own id if that is of a CVE. -/
def cveIds : List Str :=
  (if Str.startsWith v.vulnId (str "CVE-") then [v.vulnId] else []) ++
    v.references.reduceOption.filter (· ≠ [])

omit [Unicode] in
/-- The id of a CVE. -/
def cveId : Str := v.cveIds.headD v.vulnId

omit [Unicode] in
/-- The references to affected components. -/
def refs : List Str := v.affects.reduceOption.filter (· ≠ [])

variable [UpperCase] [ReprText]

omit [Unicode] [UpperCase] in
/-- The score of a vulnerability. -/
def cvss : Option Str := v.cvssRating.map fun r => (r.score.or (.text [])).pyStr

omit [UpperCase] in
/-- The scores of a vulnerability, for `build_source_risk_scoring`. -/
def sourceScores (title : Str) : SourceScores where
  source := "cyclonedx"
  score := optionField v.cvss
  vector := optionField (v.cvssRating.bind Rating.vector)
  cvssVersion := v.cvssRating.bind fun r => cvssVersionFromMethod r.method
  severity :=
    let severity := v.cvssRating.bind Rating.severity
    .text (if Str.truthy severity then Str.orEmpty severity else v.sev.value)
  scannerTitle := .text title
  fixedVersion := .null
  recommendation := .text (Str.orEmpty v.recommendation)

/-- The fields of a payload of a vulnerability. -/
def payloadFields (sbomTag sbomDigest : Option Str) (cveId component title : Str) :
    Except PyError PayloadFields := do
  let riskScoring ← (v.sourceScores title).build
  return {
    cveId := .text cveId
    severity := v.sev
    description := .text ((if v.desc = [] then v.vulnId else v.desc).take 10000)
    component := .text component
    title := .text title
    findingType := .sca
    cvss := optionField v.cvss
    riskScoring := riskScoring
    tag := tagField sbomTag
    imageDigest := tagField sbomDigest }

end Vulnerability

/-! ### Payloads -/

/-- What is shown of an affected component. -/
structure Label where
  name : Str
  version : Str
  component : Str

omit [Unicode] in
/-- The title of a payload. -/
def Label.title (l : Label) (v : Vulnerability) : Str :=
  l.name ++ ':' :: (l.version ++ str " | " ++ v.vulnId)

namespace ComponentFields

omit [Unicode]

variable (comp : ComponentFields)

/-- The name that is shown: the conditional expression has the alternative of the name and a part of
the reference as its first branch, and the reference as the other. -/
def nameFor (ref : Str) : Str :=
  if '@' ∈ ref then
    if Str.truthy comp.name then Str.orEmpty comp.name else lastSegment (Str.split1 '@' ref).1
  else ref

/-- The version that is shown. -/
def versionText : Str :=
  if Str.truthy comp.version then Str.orEmpty comp.version
  else parsePurlVersion (Str.orEmpty comp.purl)

/-- A component shown under a name, or under its reference if nothing else is shown. -/
def labelled (name ref : Str) : Label where
  name := name
  version := comp.versionText
  component :=
    let component := Str.strip (name ++ ' ' :: comp.versionText)
    if component = [] then ref else component

end ComponentFields

namespace BomDocument

variable [UpperCase] [ReprText] [IntText] (doc : BomDocument)

/-- A payload of a vulnerability, with the tag and the digest of the document. -/
def createPayload (v : Vulnerability) (cveId component title : Str) :
    Except PyError VatFindingSchema := do
  let (sbomTag, sbomDigest) := extractSbomTagDigest doc.metadata
  let fields ← v.payloadFields sbomTag sbomDigest cveId component title
  Vat.createPayload fields (.text doc.asset)

/-- The payload of a vulnerability in a component with a label. -/
def labelledPayload (v : Vulnerability) (l : Label) : Except PyError VatFindingSchema :=
  doc.createPayload v v.cveId l.component (l.title v)

/-- The payload of a vulnerability in a component with a reference. -/
def affectedPayload (v : Vulnerability) (ref : Str) : Except PyError VatFindingSchema :=
  let comp := (doc.byRef.get? ref).getD {}
  doc.labelledPayload v (comp.labelled (comp.nameFor ref) ref)

end BomDocument

/-! ### The calls of a parse -/

/-- A call of `_create_payload`: for an affected component, or for a vulnerability without any. -/
inductive Call
  | affected (v : Vulnerability) (ref : Str)
  | unaffected (v : Vulnerability)

namespace BomDocument

variable [UpperCase] [ReprText] [IntText] (doc : BomDocument)

/-- What a call gives. -/
def payloadOf : Call → Except PyError VatFindingSchema
  | .affected v ref => doc.affectedPayload v ref
  | .unaffected v => doc.createPayload v v.vulnId v.vulnId v.vulnId

omit [Unicode] [UpperCase] [ReprText] [IntText] in
/-- The calls for a vulnerability. -/
def callsOf (v : Vulnerability) : List Call :=
  if v.refs = [] then [.unaffected v] else v.refs.map (.affected v)

omit [Unicode] [UpperCase] [ReprText] [IntText] in
/-- The calls of a parse that finds an asset. -/
def calls : List Call := doc.vulnerabilities.reduceOption.flatMap callsOf

end BomDocument

end Vulnerabilities

/-! ### Renamed references -/

/-- A renaming of references. The empty text is no reference. -/
structure Renaming extends Str ↪ Str where
  map_nil : toFun [] = []

namespace Renaming

variable (ρ : Renaming)

instance : CoeFun Renaming fun _ => Str → Str := ⟨fun ρ => ρ.toFun⟩

@[simp] theorem eq_nil_iff {ref : Str} : ρ ref = [] ↔ ref = [] := by
  constructor
  · intro h
    exact ρ.injective (h.trans ρ.map_nil.symm)
  · rintro rfl
    exact ρ.map_nil

theorem orEmpty_map (bomRef : Option Str) : Str.orEmpty (bomRef.map ρ) = ρ (Str.orEmpty bomRef) := by
  cases bomRef with
  | none => exact ρ.map_nil.symm
  | some ref => rfl

@[simp] theorem truthy_map (bomRef : Option Str) :
    Str.truthy (bomRef.map ρ) = Str.truthy bomRef := by
  rw [Str.truthy, Str.truthy, orEmpty_map, Bool.eq_iff_iff, bne_iff_ne, bne_iff_ne, ne_eq, ne_eq,
    eq_nil_iff]

end Renaming

mutual

/-- An entry of a list of components with other references. -/
def ComponentEntry.rename (ρ : Renaming) : ComponentEntry → ComponentEntry
  | .object bomRef fields components =>
    .object (bomRef.map ρ) fields (renameComponents ρ components)
  | .other => .other

/-- Components with other references. -/
def renameComponents (ρ : Renaming) : List ComponentEntry → List ComponentEntry
  | [] => []
  | c :: components => c.rename ρ :: renameComponents ρ components

end

/-- A vulnerability with other references. -/
def Vulnerability.rename (ρ : Renaming) (v : Vulnerability) : Vulnerability :=
  { v with affects := v.affects.map (Option.map ρ) }

/-- A document with other references. -/
def BomDocument.rename (ρ : Renaming) (doc : BomDocument) : BomDocument :=
  { doc with
    components := renameComponents ρ doc.components
    vulnerabilities := doc.vulnerabilities.map (Option.map (Vulnerability.rename ρ)) }

/-- A call with another reference. -/
def Call.rename (ρ : Renaming) : Call → Call
  | .affected v ref => .affected (v.rename ρ) (ρ ref)
  | .unaffected v => .unaffected (v.rename ρ)

section Renamed

variable (ρ : Renaming)

mutual

theorem flattenComponent_rename (c : ComponentEntry) (out : Dictionary Str ComponentFields) :
    flattenComponent (c.rename ρ) (out.rename ρ.toEmbedding) =
      (flattenComponent c out).rename ρ.toEmbedding := by
  cases c with
  | object bomRef fields components =>
    rw [ComponentEntry.rename, flattenComponent, flattenComponent,
      flattenComponents_rename components out, ρ.truthy_map, ρ.orEmpty_map]
    split_ifs
    · exact (Dictionary.rename_set ρ.toEmbedding _ _ _).symm
    · rfl
  | other => rfl

theorem flattenComponents_rename (components : List ComponentEntry)
    (out : Dictionary Str ComponentFields) :
    flattenComponents (renameComponents ρ components) (out.rename ρ.toEmbedding) =
      (flattenComponents components out).rename ρ.toEmbedding := by
  cases components with
  | nil => rfl
  | cons c components =>
    rw [renameComponents, flattenComponents, flattenComponents, flattenComponent_rename c out,
      flattenComponents_rename components _]

end

variable (doc : BomDocument) (v : Vulnerability)

theorem BomDocument.byRef_rename : (doc.rename ρ).byRef = doc.byRef.rename ρ.toEmbedding :=
  flattenComponents_rename ρ doc.components Dictionary.empty

theorem BomDocument.get?_byRef_rename (ref : Str) :
    (doc.rename ρ).byRef.get? (ρ ref) = doc.byRef.get? ref := by
  rw [doc.byRef_rename ρ]
  exact Dictionary.get?_rename ρ.toEmbedding _ _

/-- The asset does not depend on the references: the first component remains the first. -/
@[simp] theorem BomDocument.asset_rename : (doc.rename ρ).asset = doc.asset := by
  rw [asset, asset, doc.byRef_rename ρ, Dictionary.map_snd_rename]
  rfl

theorem Vulnerability.refs_rename : (v.rename ρ).refs = v.refs.map ρ := by
  have hnil : (fun ref : Str => decide (ref ≠ [])) ∘ ρ = fun ref => decide (ref ≠ []) := by
    funext ref
    simp only [Function.comp_apply, ne_eq, ρ.eq_nil_iff]
  rw [refs, refs, Vulnerability.rename, List.reduceOption_map, List.filter_map, hnil]

theorem BomDocument.callsOf_rename :
    callsOf (v.rename ρ) = (callsOf v).map (Call.rename ρ) := by
  rw [callsOf, callsOf, v.refs_rename ρ]
  by_cases hrefs : v.refs = []
  · rw [hrefs]
    rfl
  · rw [if_neg hrefs, if_neg fun h => hrefs (List.map_eq_nil_iff.mp h), List.map_map, List.map_map]
    rfl

theorem BomDocument.calls_rename : (doc.rename ρ).calls = doc.calls.map (Call.rename ρ) := by
  rw [calls, calls, BomDocument.rename, List.reduceOption_map, List.flatMap_map, List.map_flatMap]
  exact List.flatMap_congr fun v _ => callsOf_rename ρ v

/-- A call for a component of the document. -/
def BomDocument.isPresent : Call → Bool
  | .affected _ ref => (doc.byRef.get? ref).isSome
  | .unaffected _ => false

/-- The calls for components of the document. -/
def BomDocument.presentCalls : List Call :=
  if doc.asset = [] then [] else doc.calls.filter doc.isPresent

theorem BomDocument.isPresent_rename (c : Call) :
    (doc.rename ρ).isPresent (c.rename ρ) = doc.isPresent c := by
  cases c with
  | affected v ref => rw [Call.rename, isPresent, isPresent, doc.get?_byRef_rename ρ]
  | unaffected v => rfl

theorem BomDocument.presentCalls_rename :
    (doc.rename ρ).presentCalls = doc.presentCalls.map (Call.rename ρ) := by
  have hpresent : (doc.rename ρ).isPresent ∘ Call.rename ρ = doc.isPresent :=
    funext fun c => doc.isPresent_rename ρ c
  rw [presentCalls, presentCalls, asset_rename, calls_rename, List.filter_map, hpresent]
  split_ifs <;> rfl

end Renamed

/-! ### What is shown -/

section Labels

variable [Unicode] [UpperCase] [ReprText]

/-- What a payload with a label is made of. -/
def BomDocument.labelledFields (doc : BomDocument) (v : Vulnerability) (l : Label) :
    PayloadFields where
  cveId := .text v.cveId
  severity := v.sev
  description := .text ((if v.desc = [] then v.vulnId else v.desc).take 10000)
  component := .text l.component
  image := if doc.asset = [] then .null else .text doc.asset
  title := .text (l.title v)
  findingType := .sca
  cvss := optionField v.cvss
  riskScoring := some (v.sourceScores (l.title v)).blocks
  tag := tagField (extractSbomTagDigest doc.metadata).1
  imageDigest := tagField (extractSbomTagDigest doc.metadata).2

variable [IntText] (doc : BomDocument) (v : Vulnerability)

omit [UpperCase] [IntText] in
theorem readable_sourceScores (title : Str) : (v.sourceScores title).Readable := by
  refine ⟨fun _ h => ?_, fun _ => ?_⟩
  · change (optionField (v.cvssRating.bind Rating.vector)).truthy = true at h
    change (optionField (v.cvssRating.bind Rating.vector)).isText = true
    cases hvector : v.cvssRating.bind Rating.vector with
    | none =>
      rw [hvector] at h
      exact absurd h Bool.false_ne_true
    | some vector => rfl
  · change ((Loaded.text (Str.orEmpty v.recommendation)).or (.text [])).isText = true
    rw [Loaded.or]
    split_ifs <;> rfl

omit [UpperCase] [ReprText] [IntText] [Unicode] in
theorem Label.title_ne_nil (l : Label) : l.title v ≠ [] :=
  List.append_ne_nil_of_right_ne_nil _ (List.cons_ne_nil _ _)

theorem labelledPayload_eq (l : Label) :
    doc.labelledPayload v l = (doc.labelledFields v l).validate := by
  have hbuild := SourceScores.build_eq (s := v.sourceScores (l.title v))
    (Loaded.isBlank_text (l.title_ne_nil v))
  rw [readIf_of_pos (readable_sourceScores v _)] at hbuild
  rw [BomDocument.labelledPayload]
  change (((v.sourceScores (l.title v)).build >>= _) >>= _) = _
  rw [hbuild]
  change (PayloadFields.withAsset _ _).validate = _
  rw [PayloadFields.withAsset, BomDocument.labelledFields]
  by_cases hasset : doc.asset = []
  · rw [if_pos hasset, if_neg fun h => by simp [Loaded.truthy, hasset] at h]
    rfl
  · rw [if_neg hasset, if_pos ⟨by simp [Loaded.truthy, hasset], Bool.false_ne_true,
      Bool.false_ne_true⟩]
    rfl

omit [IntText] in
/-- The blocks of scores depend on the title by what it maps to. -/
theorem map_block_sourceScores {β : Type} {f : Str × Loaded → β} {t t' : Str} (ht : t ≠ [])
    (ht' : t' ≠ []) (h : f (str "scannerTitle", .text t) = f (str "scannerTitle", .text t'))
    (version fixedText : Option Str) :
    ((v.sourceScores t).block version fixedText).map f =
      ((v.sourceScores t').block version fixedText).map f := by
  have hmiddle : ∀ before after : List (Str × Loaded),
      ((before ++ (str "scannerTitle", Loaded.text t) :: after).filter fun p => !p.2.isBlank).map f =
        ((before ++ (str "scannerTitle", Loaded.text t') :: after).filter fun p =>
          !p.2.isBlank).map f := by
    intro before after
    simp [List.filter_append, Loaded.isBlank_text ht, Loaded.isBlank_text ht', h]
  exact hmiddle [_, _, _, _] [_]

omit [UpperCase] [ReprText] [IntText] [Unicode] in
theorem sanitizeText_title_iff {l l' : Label} (h : l.version = l'.version) :
    sanitizeText (l.title v) = sanitizeText (l'.title v) ↔
      sanitizeText l.name = sanitizeText l'.name := by
  rw [Label.title, Label.title, sanitizeText_append, sanitizeText_append, h,
    List.append_cancel_right_eq]

omit [IntText] in
/-- Payloads with two labels are the same if the texts are, up to control characters. -/
theorem payload_labelledFields_iff {l l' : Label} (h : l.version = l'.version) :
    (doc.labelledFields v l).payload = (doc.labelledFields v l').payload ↔
      sanitizeText l.name = sanitizeText l'.name ∧
        sanitizeText l.component = sanitizeText l'.component := by
  constructor
  · intro hpayload
    have htitle : some (sanitizeText (l.title v)) = some (sanitizeText (l'.title v)) :=
      congrArg VatFindingSchema.title hpayload
    have hcomponent : some (sanitizeText l.component) = some (sanitizeText l'.component) :=
      congrArg VatFindingSchema.component hpayload
    exact ⟨(sanitizeText_title_iff v h).mp (Option.some.inj htitle), Option.some.inj hcomponent⟩
  · rintro ⟨hname, hcomponent⟩
    have htitle := (sanitizeText_title_iff v h).mpr hname
    have hblock : ∀ version fixedText,
        sanitizeMembers ((v.sourceScores (l.title v)).block version fixedText) =
          sanitizeMembers ((v.sourceScores (l'.title v)).block version fixedText) := by
      intro version fixedText
      rw [sanitizeMembers_eq_map, sanitizeMembers_eq_map]
      refine map_block_sourceScores v (l.title_ne_nil v) (l'.title_ne_nil v) ?_ version fixedText
      rw [sanitizeValue, sanitizeValue, htitle]
    have hblocks : ∀ g : Str → List (Str × Loaded) → Str × JsonObject,
        (v.sourceScores (l.title v)).blocks.map (fun b => g b.1 (sanitizeMembers b.2)) =
          (v.sourceScores (l'.title v)).blocks.map fun b => g b.1 (sanitizeMembers b.2) := by
      intro g
      simp only [SourceScores.blocks, List.map_cons, sanitizeMembers]
      congr 3
      exact hblock _ _
    simp only [PayloadFields.payload, BomDocument.labelledFields, fieldText, htitle, hcomponent,
      Option.map_some, hblocks fun name members =>
        (name, (lastMembers members).map fun p => (p.1, p.2.toJsonValue))]

/-- Two labels that read the same: what is shown is refused with both, or with neither, and then
differs by control characters at most. -/
structure Alike (l l' : Label) : Prop where
  accepted : (doc.labelledFields v l).Accepted ↔ (doc.labelledFields v l').Accepted
  texts : (doc.labelledFields v l).Accepted →
    sanitizeText l.name = sanitizeText l'.name ∧
      sanitizeText l.component = sanitizeText l'.component

theorem labelledPayload_eq_iff {l l' : Label} (h : l.version = l'.version) :
    doc.labelledPayload v l = doc.labelledPayload v l' ↔ Alike doc v l l' := by
  rw [labelledPayload_eq, labelledPayload_eq, validate_eq rfl, validate_eq rfl]
  by_cases hl : (doc.labelledFields v l).Accepted
  · by_cases hl' : (doc.labelledFields v l').Accepted
    · rw [if_pos hl, if_pos hl', Except.ok.injEq, payload_labelledFields_iff doc v h]
      exact ⟨fun htexts => ⟨iff_of_true hl hl', fun _ => htexts⟩, fun halike => halike.texts hl⟩
    · rw [if_pos hl, if_neg hl']
      exact iff_of_false nofun fun halike => hl' (halike.accepted.mp hl)
  · by_cases hl' : (doc.labelledFields v l').Accepted
    · rw [if_neg hl, if_pos hl']
      exact iff_of_false nofun fun halike => hl (halike.accepted.mpr hl')
    · rw [if_neg hl, if_neg hl']
      exact iff_of_true rfl ⟨iff_of_false hl hl', fun hyes => absurd hyes hl⟩

end Labels

/-! ### References do not show -/

section Opaque

variable [Unicode] [UpperCase] [ReprText] [IntText] (doc : BomDocument) (ρ : Renaming)

/-- The references of a document do not show: with other references it gives the same payloads for
its components, and a component that has a name is shown under it. -/
structure BomDocument.IsOpaque : Prop where
  same : (doc.rename ρ).presentCalls.map (doc.rename ρ).payloadOf =
    doc.presentCalls.map doc.payloadOf
  name : ∀ v ref comp, .affected v ref ∈ doc.presentCalls → doc.byRef.get? ref = some comp →
    Str.truthy comp.name →
    doc.affectedPayload v ref = doc.labelledPayload v (comp.labelled (Str.orEmpty comp.name) ref)

omit [Unicode] [UpperCase] [ReprText] [IntText] in
/-- The name in a reference: the last segment of what stands before an `@`, or else all of it. -/
def nameInRef (ref : Str) : Str :=
  if '@' ∈ ref then lastSegment (Str.split1 '@' ref).1 else ref

/-- A component reads the same with its reference and with another one. -/
structure ReadsAlike (v : Vulnerability) (ref : Str) (comp : ComponentFields) : Prop where
  own : Str.truthy comp.name → '@' ∉ ref →
    Alike doc v (comp.labelled ref ref) (comp.labelled (Str.orEmpty comp.name) ref)
  renamed : Str.truthy comp.name → '@' ∉ ρ ref →
    Alike doc v (comp.labelled (ρ ref) (ρ ref)) (comp.labelled (Str.orEmpty comp.name) ref)
  blank : Str.truthy comp.name → '@' ∈ ρ ref →
    Str.strip (Str.orEmpty comp.name ++ ' ' :: comp.versionText) = [] →
    Alike doc v (comp.labelled (Str.orEmpty comp.name) (ρ ref))
      (comp.labelled (Str.orEmpty comp.name) ref)
  nameless : ¬ Str.truthy comp.name →
    Alike doc v (comp.labelled (nameInRef (ρ ref)) (ρ ref)) (comp.labelled (nameInRef ref) ref)

theorem labelledPayload_rename (v : Vulnerability) (l : Label) :
    (doc.rename ρ).labelledPayload (v.rename ρ) l = doc.labelledPayload v l := by
  rw [labelledPayload_eq, labelledPayload_eq, BomDocument.labelledFields,
    BomDocument.labelledFields, doc.asset_rename ρ]
  rfl

theorem affectedPayload_of_present {v : Vulnerability} {ref : Str} {comp : ComponentFields}
    (h : doc.byRef.get? ref = some comp) :
    doc.affectedPayload v ref = doc.labelledPayload v (comp.labelled (comp.nameFor ref) ref) := by
  rw [BomDocument.affectedPayload, h]
  rfl

theorem affectedPayload_rename {v : Vulnerability} {ref : Str} {comp : ComponentFields}
    (h : doc.byRef.get? ref = some comp) :
    (doc.rename ρ).affectedPayload (v.rename ρ) (ρ ref) =
      doc.labelledPayload v (comp.labelled (comp.nameFor (ρ ref)) (ρ ref)) := by
  rw [affectedPayload_of_present _ ((doc.get?_byRef_rename ρ ref).trans h),
    labelledPayload_rename]

omit [Unicode] [UpperCase] [ReprText] [IntText] in
theorem exists_of_mem_presentCalls {c : Call} (h : c ∈ doc.presentCalls) :
    ∃ v ref comp, c = .affected v ref ∧ doc.byRef.get? ref = some comp := by
  rw [BomDocument.presentCalls] at h
  split_ifs at h
  · cases h
  · have hpresent := (List.mem_filter.mp h).2
    cases c with
    | affected v ref =>
      obtain ⟨comp, hcomp⟩ := Option.isSome_iff_exists.mp hpresent
      exact ⟨v, ref, comp, rfl, hcomp⟩
    | unaffected v => exact absurd hpresent Bool.false_ne_true

theorem same_iff : (doc.rename ρ).presentCalls.map (doc.rename ρ).payloadOf =
      doc.presentCalls.map doc.payloadOf ↔
    ∀ v ref comp, .affected v ref ∈ doc.presentCalls → doc.byRef.get? ref = some comp →
      doc.labelledPayload v (comp.labelled (comp.nameFor (ρ ref)) (ρ ref)) =
        doc.labelledPayload v (comp.labelled (comp.nameFor ref) ref) := by
  rw [doc.presentCalls_rename ρ, List.map_map, List.map_inj_left]
  constructor
  · intro h v ref comp hcall hcomp
    rw [← affectedPayload_rename doc ρ hcomp, ← affectedPayload_of_present doc hcomp]
    exact h _ hcall
  · intro h c hcall
    obtain ⟨v, ref, comp, rfl, hcomp⟩ := exists_of_mem_presentCalls doc hcall
    change (doc.rename ρ).affectedPayload (v.rename ρ) (ρ ref) = doc.affectedPayload v ref
    rw [affectedPayload_rename doc ρ hcomp, affectedPayload_of_present doc hcomp]
    exact h v ref comp hcall hcomp

namespace ComponentFields

omit [Unicode] [UpperCase] [ReprText] [IntText]

variable {comp : ComponentFields} {ref : Str}

theorem nameFor_of_notMem (h : '@' ∉ ref) : comp.nameFor ref = ref := if_neg h

theorem nameFor_of_mem (h : '@' ∈ ref) (hname : Str.truthy comp.name) :
    comp.nameFor ref = Str.orEmpty comp.name := by
  rw [nameFor, if_pos h, if_pos hname]

theorem nameFor_of_nameless (hname : ¬ Str.truthy comp.name) : comp.nameFor ref = nameInRef ref := by
  rw [nameFor, nameInRef, if_neg hname]

/-- The reference is shown only if nothing else is. -/
theorem labelled_of_ne_nil {name : Str} (h : Str.strip (name ++ ' ' :: comp.versionText) ≠ [])
    (ref' : Str) : comp.labelled name ref = comp.labelled name ref' := by
  rw [labelled, labelled, if_neg h, if_neg h]

end ComponentFields

/-- What one component has to do with its reference. -/
theorem readsAlike_iff {v : Vulnerability} {ref : Str} {comp : ComponentFields} :
    ReadsAlike doc ρ v ref comp ↔
      doc.labelledPayload v (comp.labelled (comp.nameFor (ρ ref)) (ρ ref)) =
          doc.labelledPayload v (comp.labelled (comp.nameFor ref) ref) ∧
        (Str.truthy comp.name → doc.labelledPayload v (comp.labelled (comp.nameFor ref) ref) =
          doc.labelledPayload v (comp.labelled (Str.orEmpty comp.name) ref)) := by
  have halike : ∀ name name' ref ref',
      Alike doc v (comp.labelled name ref) (comp.labelled name' ref') ↔
        doc.labelledPayload v (comp.labelled name ref) =
          doc.labelledPayload v (comp.labelled name' ref') :=
    fun name name' ref ref' => (labelledPayload_eq_iff doc v (Eq.refl comp.versionText)).symm
  constructor
  · intro h
    by_cases hname : Str.truthy comp.name
    · have hown : doc.labelledPayload v (comp.labelled (comp.nameFor ref) ref) =
          doc.labelledPayload v (comp.labelled (Str.orEmpty comp.name) ref) := by
        by_cases hat : '@' ∈ ref
        · rw [ComponentFields.nameFor_of_mem hat hname]
        · rw [ComponentFields.nameFor_of_notMem hat]
          exact (halike ..).mp (h.own hname hat)
      refine ⟨?_, fun _ => hown⟩
      rw [hown]
      by_cases hat : '@' ∈ ρ ref
      · rw [ComponentFields.nameFor_of_mem hat hname]
        by_cases hblank : Str.strip (Str.orEmpty comp.name ++ ' ' :: comp.versionText) = []
        · exact (halike ..).mp (h.blank hname hat hblank)
        · rw [ComponentFields.labelled_of_ne_nil hblank ref]
      · rw [ComponentFields.nameFor_of_notMem hat]
        exact (halike ..).mp (h.renamed hname hat)
    · rw [ComponentFields.nameFor_of_nameless hname, ComponentFields.nameFor_of_nameless hname]
      exact ⟨(halike ..).mp (h.nameless hname), fun hyes => absurd hyes hname⟩
  · rintro ⟨hsame, hown⟩
    refine ⟨fun hname hat => ?_, fun hname hat => ?_, fun hname hat _ => ?_, fun hname => ?_⟩
    · have hshown := hown hname
      rw [ComponentFields.nameFor_of_notMem hat] at hshown
      exact (halike ..).mpr hshown
    · have hshown := hsame.trans (hown hname)
      rw [ComponentFields.nameFor_of_notMem hat] at hshown
      exact (halike ..).mpr hshown
    · have hshown := hsame.trans (hown hname)
      rw [ComponentFields.nameFor_of_mem hat hname] at hshown
      exact (halike ..).mpr hshown
    · rw [ComponentFields.nameFor_of_nameless hname, ComponentFields.nameFor_of_nameless hname]
        at hsame
      exact (halike ..).mpr hsame

/-- The references of a document do not show exactly when each of its affected components reads the
same with its reference and with the other one. -/
theorem BomDocument.isOpaque_iff : doc.IsOpaque ρ ↔
    ∀ v ref comp, .affected v ref ∈ doc.presentCalls → doc.byRef.get? ref = some comp →
      ReadsAlike doc ρ v ref comp := by
  constructor
  · intro h v ref comp hcall hcomp
    refine (readsAlike_iff doc ρ).mpr ⟨(same_iff doc ρ).mp h.same v ref comp hcall hcomp, ?_⟩
    intro hname
    rw [← affectedPayload_of_present doc hcomp]
    exact h.name v ref comp hcall hcomp hname
  · intro h
    have hreads := fun v ref comp hcall hcomp =>
      (readsAlike_iff doc ρ).mp (h v ref comp hcall hcomp)
    refine ⟨(same_iff doc ρ).mpr fun v ref comp hcall hcomp => (hreads v ref comp hcall hcomp).1,
      fun v ref comp hcall hcomp hname => ?_⟩
    rw [affectedPayload_of_present doc hcomp]
    exact (hreads v ref comp hcall hcomp).2 hname

end Opaque

/-! ### A reference that shows -/

/-- A component with a name and a version. -/
def referredComponent : ComponentFields where
  name := some (str "lodash")
  version := some (str "4.17.20")

/-- A vulnerability that refers to a component. -/
def referringVulnerability : Vulnerability where
  id := some (str "CVE-2021-23337")
  affects := [some (str "lodash-1")]

/-- A document of an image with one vulnerable component. -/
def referringDocument : BomDocument where
  metadata := { name := some (str "registry.example/api") }
  components := [.object (some (str "lodash-1")) referredComponent []]
  vulnerabilities := [some referringVulnerability]

/-- No reference renamed. -/
def Renaming.refl : Renaming := ⟨Function.Embedding.refl Str, rfl⟩

attribute [local instance] asciiUnicode asciiUpperCase noRepr digitText in
/-- The component is shown under its reference. -/
theorem not_isOpaque : ¬ ∀ (doc : BomDocument) (ρ : Renaming), doc.IsOpaque ρ := by
  intro h
  have hcall : Call.affected referringVulnerability (str "lodash-1") ∈
      referringDocument.presentCalls := List.mem_singleton.mpr rfl
  have hcomp : referringDocument.byRef.get? (str "lodash-1") = some referredComponent := by
    decide +kernel
  have hshown := (h referringDocument .refl).name _ _ _ hcall hcomp (by decide)
  rw [affectedPayload_of_present _ hcomp,
    labelledPayload_eq_iff _ _ (Eq.refl referredComponent.versionText)] at hshown
  exact absurd (hshown.texts (by decide +kernel)).1 (by decide +kernel)

end Vat.CyclonedxParser
